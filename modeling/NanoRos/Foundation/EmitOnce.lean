import Mathlib.Tactic.Common
import Mathlib.Data.List.Nodup

/-!
# Emitting every item once

A depth-first walk writes an item under a key after the items it needs, and
marks the key before it goes down.  A key that is met again is skipped, also
while its item is still in progress.  When the needs of an item have a smaller
rank than the item itself, what is skipped has always been written already:
the output has every item once, after everything it needs.
-/

universe u v

/-- The keys met so far, and the items written, in order. -/
structure Emission (κ : Type u) (ν : Type v) where
  emitted : List κ
  out : List (κ × ν)

namespace Emission

variable {κ : Type u} {ν : Type v}

def empty : Emission κ ν := { emitted := [], out := [] }

def keys (emission : Emission κ ν) : List κ := emission.out.map Prod.fst

/-- Write an item after what it needs, unless its key was met before. -/
def once [DecidableEq κ] (key : κ) (item : ν)
    (needs : Emission κ ν → Emission κ ν) (emission : Emission κ ν) :
    Emission κ ν :=
  if key ∈ emission.emitted then
    emission
  else
    let written :=
      needs { emission with emitted := key :: emission.emitted }
    { written with out := written.out ++ [(key, item)] }

/-- The item of the key is still in progress. -/
def Pending (emission : Emission κ ν) (key : κ) : Prop :=
  key ∈ emission.emitted ∧ key ∉ emission.keys

section

variable (needed : ν → List κ) (allowed : κ → ν → Prop)

/-- Every item is there once and after what it needs. -/
structure Ordered (emission : Emission κ ν) : Prop where
  nodup : emission.keys.Nodup
  met : ∀ key ∈ emission.keys, key ∈ emission.emitted
  allowed : ∀ entry ∈ emission.out, allowed entry.1 entry.2
  inOrder : ∀ (index : Nat) (entry : κ × ν),
    emission.out[index]? = some entry →
      ∀ key ∈ needed entry.2, ∃ earlier < index, ∃ item,
        emission.out[earlier]? = some (key, item)

theorem ordered_empty : Ordered needed allowed empty where
  nodup := List.nodup_nil
  met _ member := nomatch member
  allowed _ member := nomatch member
  inOrder _ _ found := nomatch found

variable (rank : κ → Nat)

/-- The step writes the items of the given keys, and leaves in progress what
was, all of a rank of at least `bound`. -/
structure Visits (step : Emission κ ν → Emission κ ν) (bound : Nat)
    (reached : List κ) : Prop where
  ordered {emission : Emission κ ν}
    (ordered : Ordered needed allowed emission)
    (above : ∀ key, emission.Pending key → bound ≤ rank key) :
    Ordered needed allowed (step emission)
  pending {emission : Emission κ ν}
    (ordered : Ordered needed allowed emission)
    (above : ∀ key, emission.Pending key → bound ≤ rank key) (key : κ) :
    (step emission).Pending key ↔ emission.Pending key
  keeps {emission : Emission κ ν}
    (ordered : Ordered needed allowed emission)
    (above : ∀ key, emission.Pending key → bound ≤ rank key) {key : κ}
    (member : key ∈ emission.keys) : key ∈ (step emission).keys
  reaches {emission : Emission κ ν}
    (ordered : Ordered needed allowed emission)
    (above : ∀ key, emission.Pending key → bound ≤ rank key) {key : κ}
    (member : key ∈ reached) : key ∈ (step emission).keys

end

variable {needed : ν → List κ} {allowed : κ → ν → Prop} {rank : κ → Nat}

theorem visits_nil (bound : Nat) : Visits needed allowed rank id bound [] where
  ordered ordered _ := ordered
  pending _ _ _ := Iff.rfl
  keeps _ _ _ member := member
  reaches _ _ _ member := nomatch member

theorem Visits.andThen {first second : Emission κ ν → Emission κ ν}
    {bound : Nat} {left right : List κ}
    (visitsLeft : Visits needed allowed rank first bound left)
    (visitsRight : Visits needed allowed rank second bound right) :
    Visits needed allowed rank (fun emission => second (first emission))
      bound (left ++ right) := by
  have above' {emission : Emission κ ν}
      (ordered : Ordered needed allowed emission)
      (above : ∀ key, emission.Pending key → bound ≤ rank key) (key : κ)
      (pending : (first emission).Pending key) : bound ≤ rank key :=
    above key ((visitsLeft.pending ordered above key).mp pending)
  refine ⟨?_, ?_, ?_, ?_⟩
  · intro emission ordered above
    exact visitsRight.ordered (visitsLeft.ordered ordered above)
      (above' ordered above)
  · intro emission ordered above key
    rw [visitsRight.pending (visitsLeft.ordered ordered above)
      (above' ordered above), visitsLeft.pending ordered above]
  · intro emission ordered above key member
    exact visitsRight.keeps (visitsLeft.ordered ordered above)
      (above' ordered above) (visitsLeft.keeps ordered above member)
  · intro emission ordered above key member
    rcases List.mem_append.mp member with inLeft | inRight
    · exact visitsRight.keeps (visitsLeft.ordered ordered above)
        (above' ordered above) (visitsLeft.reaches ordered above inLeft)
    · exact visitsRight.reaches (visitsLeft.ordered ordered above)
        (above' ordered above) inRight

theorem mem_keys_iff {emission : Emission κ ν} {key : κ} :
    key ∈ emission.keys ↔
      ∃ index : Nat, ∃ item, emission.out[index]? = some (key, item) := by
  rw [keys, List.mem_map]
  constructor
  · rintro ⟨⟨_, item⟩, member, rfl⟩
    obtain ⟨index, found⟩ := List.mem_iff_getElem?.mp member
    exact ⟨index, item, found⟩
  · rintro ⟨index, item, found⟩
    exact ⟨(key, item), List.mem_of_getElem? found, rfl⟩

/-- Writing an item of a key in progress, its needs being written. -/
theorem Ordered.write {emission : Emission κ ν}
    (ordered : Ordered needed allowed emission) {key : κ} {item : ν}
    (pending : emission.Pending key) (isAllowed : allowed key item)
    (ready : ∀ need ∈ needed item, need ∈ emission.keys) :
    Ordered needed allowed
      { emission with out := emission.out ++ [(key, item)] } where
  nodup := by
    rw [keys, List.map_append]
    refine List.nodup_append.mpr
      ⟨ordered.nodup, List.nodup_singleton key, ?_⟩
    intro other before _ last same
    have equal : other = key := same.trans (List.mem_singleton.mp last)
    rw [equal] at before
    exact pending.2 before
  met other member := by
    rw [keys, List.map_append, List.mem_append] at member
    rcases member with before | last
    · exact ordered.met other before
    · rw [List.mem_singleton.mp last]
      exact pending.1
  allowed entry member := by
    rcases List.mem_append.mp member with before | last
    · exact ordered.allowed entry before
    · rw [List.mem_singleton.mp last]
      exact isAllowed
  inOrder index entry found need member := by
    have placed {earlier : Nat} {other : κ × ν}
        (there : emission.out[earlier]? = some other) :
        (emission.out ++ [(key, item)])[earlier]? = some other := by
      obtain ⟨inside, _⟩ := List.getElem?_eq_some_iff.mp there
      rw [List.getElem?_append_left inside]
      exact there
    by_cases inside : index < emission.out.length
    · rw [List.getElem?_append_left inside] at found
      obtain ⟨earlier, before, other, there⟩ :=
        ordered.inOrder index entry found need member
      exact ⟨earlier, before, other, placed there⟩
    · -- the new item: its needs are anywhere before the end
      rw [List.getElem?_append_right (Nat.le_of_not_lt inside)] at found
      have last : entry = (key, item) :=
        List.mem_singleton.mp (List.mem_of_getElem? found)
      rw [last] at member
      obtain ⟨earlier, other, there⟩ := mem_keys_iff.mp (ready need member)
      obtain ⟨before, _⟩ := List.getElem?_eq_some_iff.mp there
      exact ⟨earlier, Nat.lt_of_lt_of_le before (Nat.le_of_not_lt inside),
        other, placed there⟩

theorem mem_keys_write {emission : Emission κ ν} {key other : κ} {item : ν} :
    other ∈ keys { emission with out := emission.out ++ [(key, item)] } ↔
      other ∈ emission.keys ∨ other = key := by
  rw [keys, List.map_append, List.mem_append]
  exact or_congr Iff.rfl List.mem_singleton

/-- Marking a key puts it in progress. -/
theorem pending_mark_iff {emission : Emission κ ν} {key other : κ}
    (unwritten : key ∉ emission.keys) :
    Pending { emission with emitted := key :: emission.emitted } other ↔
      other = key ∨ emission.Pending other := by
  constructor
  · rintro ⟨met, inProgress⟩
    rcases List.mem_cons.mp met with same | before
    · exact .inl same
    · exact .inr ⟨before, inProgress⟩
  · rintro (rfl | ⟨met, inProgress⟩)
    · exact ⟨List.mem_cons_self, unwritten⟩
    · exact ⟨List.mem_cons_of_mem _ met, inProgress⟩

theorem Ordered.mark {emission : Emission κ ν}
    (ordered : Ordered needed allowed emission) (key : κ) :
    Ordered needed allowed
      { emission with emitted := key :: emission.emitted } where
  nodup := ordered.nodup
  met other member := List.mem_cons_of_mem _ (ordered.met other member)
  allowed := ordered.allowed
  inOrder := ordered.inOrder

/-- While an item is in progress, what it needs is visited with a smaller
bound. -/
theorem rank_le_of_pending_mark {emission : Emission κ ν} {key other : κ}
    {bound : Nat} (small : rank key < bound)
    (above : ∀ key, emission.Pending key → bound ≤ rank key)
    (inProgress : other = key ∨ emission.Pending other) :
    rank key ≤ rank other := by
  rcases inProgress with rfl | before
  · exact Nat.le_refl _
  · exact Nat.le_trans (Nat.le_of_lt small) (above other before)

section

variable [DecidableEq κ] {key : κ} {item : ν}
  {needs : Emission κ ν → Emission κ ν} {emission : Emission κ ν}

theorem once_of_met (met : key ∈ emission.emitted) :
    once key item needs emission = emission := if_pos met

theorem once_of_fresh (fresh : key ∉ emission.emitted) :
    once key item needs emission =
      let written := needs { emission with emitted := key :: emission.emitted }
      { written with out := written.out ++ [(key, item)] } := if_neg fresh

/-- A key that was met and is not in progress has been written. -/
theorem mem_keys_of_met {bound : Nat} (small : rank key < bound)
    (above : ∀ key, emission.Pending key → bound ≤ rank key)
    (met : key ∈ emission.emitted) : key ∈ emission.keys := by
  by_contra unwritten
  exact Nat.not_le_of_lt small (above key ⟨met, unwritten⟩)

/-- Visiting an item whose needs rank below it. -/
theorem visits_once {bound : Nat} (isAllowed : allowed key item)
    (small : rank key < bound)
    (visits : Visits needed allowed rank needs (rank key) (needed item)) :
    Visits needed allowed rank (once key item needs) bound [key] := by
  -- what holds of the walk below the item once its key is marked
  have marked {emission : Emission κ ν}
      (ordered : Ordered needed allowed emission)
      (above : ∀ key, emission.Pending key → bound ≤ rank key)
      (fresh : key ∉ emission.emitted) (other : κ) :
      Pending { emission with emitted := key :: emission.emitted } other ↔
        other = key ∨ emission.Pending other :=
    pending_mark_iff fun written => fresh (ordered.met key written)
  have rankAbove {emission : Emission κ ν}
      (ordered : Ordered needed allowed emission)
      (above : ∀ key, emission.Pending key → bound ≤ rank key)
      (fresh : key ∉ emission.emitted) (other : κ)
      (inProgress :
        Pending { emission with emitted := key :: emission.emitted } other) :
      rank key ≤ rank other :=
    rank_le_of_pending_mark small above
      ((marked ordered above fresh other).mp inProgress)
  refine ⟨?_, ?_, ?_, ?_⟩
  · intro emission ordered above
    by_cases met : key ∈ emission.emitted
    · rw [once_of_met met]
      exact ordered
    · rw [once_of_fresh met]
      have below := rankAbove ordered above met
      have stillOpen := (visits.pending (ordered.mark key) below key).mpr
        ((marked ordered above met key).mpr (.inl rfl))
      exact (visits.ordered (ordered.mark key) below).write stillOpen isAllowed
        fun need member => visits.reaches (ordered.mark key) below member
  · intro emission ordered above other
    by_cases met : key ∈ emission.emitted
    · rw [once_of_met met]
    · rw [once_of_fresh met]
      have kept := visits.pending (ordered.mark key)
        (rankAbove ordered above met) other
      rw [marked ordered above met] at kept
      constructor
      · rintro ⟨isMet, unwritten⟩
        rw [mem_keys_write, not_or] at unwritten
        rcases kept.mp ⟨isMet, unwritten.1⟩ with same | before
        · exact absurd same unwritten.2
        · exact before
      · intro before
        obtain ⟨isMet, unwritten⟩ := kept.mpr (.inr before)
        refine ⟨isMet, ?_⟩
        rw [mem_keys_write, not_or]
        exact ⟨unwritten, fun same => met (same ▸ before.1)⟩
  · intro emission ordered above other member
    by_cases met : key ∈ emission.emitted
    · rw [once_of_met met]
      exact member
    · rw [once_of_fresh met, mem_keys_write]
      exact .inl (visits.keeps (ordered.mark key)
        (rankAbove ordered above met) member)
  · intro emission ordered above other member
    rw [List.mem_singleton.mp member]
    by_cases met : key ∈ emission.emitted
    · rw [once_of_met met]
      exact mem_keys_of_met small above met
    · rw [once_of_fresh met, mem_keys_write]
      exact .inr rfl

end

/-- A walk over several roots, nothing being in progress in between. -/
theorem ordered_foldl {root : Type*} (step : root → Emission κ ν → Emission κ ν)
    (bound : root → Nat) (reached : root → List κ) {roots : List root}
    (visits : ∀ each ∈ roots,
      Visits needed allowed rank (step each) (bound each) (reached each))
    {emission : Emission κ ν} (ordered : Ordered needed allowed emission)
    (settled : ∀ key, ¬ emission.Pending key) :
    Ordered needed allowed
        (roots.foldl (fun emission each => step each emission) emission) ∧
      (∀ key ∈ emission.keys, key ∈
        (roots.foldl (fun emission each => step each emission)
          emission).keys) ∧
        ∀ each ∈ roots, ∀ key ∈ reached each, key ∈
          (roots.foldl (fun emission each => step each emission)
            emission).keys := by
  induction roots generalizing emission with
  | nil => exact ⟨ordered, fun _ member => member, fun _ none => nomatch none⟩
  | cons first roots induction =>
      have visitsFirst := visits first List.mem_cons_self
      have above (key : κ) (pending : emission.Pending key) :
          bound first ≤ rank key := absurd pending (settled key)
      have orderedNext := visitsFirst.ordered ordered above
      have settledNext (key : κ) : ¬ (step first emission).Pending key := by
        rw [visitsFirst.pending ordered above]
        exact settled key
      obtain ⟨orderedLast, keeps, reaches⟩ := induction
        (fun each member => visits each (List.mem_cons_of_mem _ member))
        orderedNext settledNext
      refine ⟨orderedLast, fun key member =>
        keeps key (visitsFirst.keeps ordered above member), ?_⟩
      intro each member key isReached
      rcases List.mem_cons.mp member with rfl | later
      · exact keeps key (visitsFirst.reaches ordered above isReached)
      · exact reaches each later key isReached

end Emission
