import Mathlib.Data.List.Basic
import Mathlib.Data.List.Nodup

/-!
# Chosen entries of lists

Entries are chosen from a list by a label or a place.  Where labels are
distinct, it makes no difference how the list is searched.
-/

namespace Entries

universe u v

variable {α : Type u} {β : Type v}

section Labels

variable [DecidableEq β] {label : α → β} {entries : List α}

/-- Of entries with distinct labels at most one is chosen. -/
theorem filter_label (distinct : (entries.map label).Nodup) (chosen : β) :
    entries.filter (label · = chosen) =
      (entries.find? (label · = chosen)).toList := by
  induction entries with
  | nil => rfl
  | cons entry entries induction =>
      rw [List.map_cons, List.nodup_cons] at distinct
      by_cases same : label entry = chosen
      · have none_ : entries.filter (label · = chosen) = [] := by
          rw [List.filter_eq_nil_iff]
          intro other member equal
          apply distinct.1
          rw [same, ← of_decide_eq_true equal]
          exact List.mem_map_of_mem member
        simp [same, none_]
      · simp only [same, decide_false, Bool.false_eq_true, not_false_eq_true,
          List.filter_cons_of_neg, List.find?_cons_of_neg]
        exact induction distinct.2

theorem filter_label_of_mem (distinct : (entries.map label).Nodup) {entry : α}
    (member : entry ∈ entries) :
    entries.filter (label · = label entry) = [entry] := by
  have chosen : entry ∈ entries.filter (label · = label entry) :=
    List.mem_filter.mpr ⟨member, by simp⟩
  rw [filter_label distinct] at chosen ⊢
  rw [Option.mem_toList.mp chosen]
  rfl

theorem getLast?_filter_label (distinct : (entries.map label).Nodup)
    (chosen : β) :
    (entries.filter (label · = chosen)).getLast? =
      entries.find? (label · = chosen) := by
  rw [filter_label distinct]
  cases entries.find? (label · = chosen) <;> rfl

/-- Of distinct entries the first with a label is the last. -/
theorem find?_reverse_label (distinct : (entries.map label).Nodup)
    (chosen : β) :
    entries.reverse.find? (label · = chosen) =
      entries.find? (label · = chosen) := by
  rw [← getLast?_filter_label distinct, ← List.head?_filter,
    List.filter_reverse, List.head?_reverse]

end Labels

/-- A key that is found is one of the keys. -/
theorem mem_keys_of_lookup [BEq α] [LawfulBEq α]
    {pairs : List (α × β)} {key : α} (found : (pairs.lookup key).isSome) :
    key ∈ pairs.map Prod.fst := by
  obtain ⟨pair, member, same⟩ := List.lookup_isSome_iff.mp found
  exact List.mem_map.mpr ⟨pair, member, (eq_of_beq same).symm⟩

/-- What is left of a list has lost nothing of a kind, if it has lost nothing
of a wider kind. -/
theorem filter_eq_of_sublist {label : α → β} {wide : β → Bool}
    {narrow : α → Bool} {left whole : List α}
    (sublist : left.Sublist whole)
    (within : ∀ item, narrow item = true → wide (label item) = true)
    (kept : (left.map label).filter wide = (whole.map label).filter wide) :
    left.filter narrow = whole.filter narrow := by
  have fewer := sublist.filter (wide ∘ label)
  have lengths := congrArg List.length kept
  rw [List.filter_map, List.filter_map, List.length_map, List.length_map]
    at lengths
  have same := fewer.eq_of_length lengths
  have through (items : List α) :
      (items.filter (wide ∘ label)).filter narrow = items.filter narrow := by
    rw [List.filter_filter]
    apply List.filter_congr
    intro item _
    cases here : narrow item with
    | false => rfl
    | true => simp [within item here]
  rw [← through left, ← through whole, same]

/-- What is found at ever later places of a list is a sublist of it. -/
theorem sublist_of_places {list found : List α} {places : List Nat}
    (ordered : places.Pairwise (· < ·))
    (kept : found.map some = places.map (list[·]?)) : found.Sublist list := by
  have inside : ∀ place ∈ places, place < list.length := by
    intro place member
    have looked : list[place]? ∈ found.map some := by
      rw [kept]
      exact List.mem_map_of_mem member
    obtain ⟨item, _, here⟩ := List.mem_map.mp looked
    exact (List.getElem?_eq_some_iff.mp here.symm).1
  have indices : (places.pmap Fin.mk inside).Pairwise (· < ·) :=
    ordered.pmap inside fun _ _ _ _ less => less
  have sublist := List.map_getElem_sublist indices
  have same : found = (places.pmap Fin.mk inside).map (list[·]) := by
    apply List.map_injective_iff.mpr fun _ _ same => Option.some.inj same
    rw [kept, List.map_map, List.map_pmap]
    refine ((List.pmap_congr_left places ?_).trans
      (List.pmap_eq_map inside)).symm
    intro place _ below _
    exact (List.getElem?_eq_getElem below).symm
  rw [same]
  exact sublist

end Entries
