import Mathlib.Data.Set.Finite.Basic
import Mathlib.Logic.Relation
import Mathlib.Order.WellFounded
import Mathlib.Tactic.Common

/-!
# Procedures that call one another

The body of a procedure is a list of items, done in order up to the first that
fails; an item may call a procedure.  When a call ends is a question about the
graph of calls: those that are made, because what stands before them in the
body succeeds, must not lead round in a circle.
-/

namespace OrderedCalls

universe u

variable {κ : Type u}

/-- What stands in a body. -/
inductive Item (κ : Type u) where
  | done
  | fail
  | call (callee : κ)
  deriving DecidableEq

/-- The items of a body in order; `none` when a call did not end. -/
def runItems (run : κ → Option Bool) : List (Item κ) → Option Bool
  | [] => some true
  | .done :: rest => runItems run rest
  | .fail :: _ => some false
  | .call callee :: rest =>
      match run callee with
      | none => none
      | some false => some false
      | some true => runItems run rest

variable (body : κ → List (Item κ))

/-- Whether a call succeeds; `none` when the fuel ran out. -/
def run : Nat → κ → Option Bool
  | 0, _ => none
  | fuel + 1, caller => runItems (run fuel) (body caller)

/-- The call ends. -/
def Ends (caller : κ) : Prop :=
  ∃ fuel, (run body fuel caller).isSome

/-- A call stands in the body. -/
def Mentions (caller callee : κ) : Prop :=
  .call callee ∈ body caller

/-- No item that fails stands in any body the caller could come to. -/
def Sound (caller : κ) : Prop :=
  ∀ callee, Relation.ReflTransGen (Mentions body) caller callee →
    .fail ∉ body callee

/-- The item does not stop the body. -/
def Passes : Item κ → Prop
  | .done => True
  | .fail => False
  | .call callee => Sound body callee

/-- A call stands in the body behind items that do not stop it. -/
def Enters (caller callee : κ) : Prop :=
  ∃ before after, body caller = before ++ .call callee :: after ∧
    ∀ item ∈ before, Passes body item

variable {body}

/-! ## Sound calls -/

theorem Sound.of_mentions {caller callee : κ} (sound : Sound body caller)
    (mentions : Mentions body caller callee) : Sound body callee :=
  fun _ later => sound _ (.head mentions later)

/-- A sound call does not fail. -/
theorem Sound.run_ne_false {caller : κ} (sound : Sound body caller)
    (fuel : Nat) : run body fuel caller ≠ some false := by
  induction fuel generalizing caller with
  | zero => exact (Option.some_ne_none _).symm
  | succ fuel induction =>
      have noFail : .fail ∉ body caller := sound caller .refl
      have calls : ∀ callee, .call callee ∈ body caller →
          run body fuel callee ≠ some false := fun callee member =>
        induction (sound.of_mentions member)
      rw [run]
      generalize body caller = items at noFail calls
      induction items with
      | nil => simp [runItems]
      | cons item rest itemInduction =>
          have others := itemInduction
            (fun member => noFail (List.mem_cons_of_mem _ member))
            (fun callee member => calls callee (List.mem_cons_of_mem _ member))
          cases item with
          | done => exact others
          | fail => exact absurd List.mem_cons_self noFail
          | call callee =>
              have here := calls callee List.mem_cons_self
              rw [runItems]
              split
              · exact (Option.some_ne_none _).symm
              · case _ failed => exact absurd failed here
              · exact others

/-- What a body that succeeds is made of. -/
theorem mem_of_runItems_true {next : κ → Option Bool} {items : List (Item κ)}
    (succeeds : runItems next items = some true) :
    .fail ∉ items ∧
      ∀ callee, .call callee ∈ items → next callee = some true := by
  induction items with
  | nil =>
      constructor
      · exact List.not_mem_nil
      · intro callee member
        exact absurd member List.not_mem_nil
  | cons item rest induction =>
      cases item with
      | done =>
          obtain ⟨noFail, calls⟩ := induction succeeds
          constructor
          · simpa using noFail
          · simpa using calls
      | fail => cases succeeds
      | call callee =>
          rw [runItems] at succeeds
          split at succeeds
          · cases succeeds
          · cases succeeds
          · case _ here =>
              obtain ⟨noFail, calls⟩ := induction succeeds
              constructor
              · simpa using noFail
              · intro other member
                rcases List.mem_cons.mp member with same | member
                · cases same
                  exact here
                · exact calls other member

/-- A call that succeeds is sound. -/
theorem sound_of_run_true {fuel : Nat} {caller : κ}
    (succeeds : run body fuel caller = some true) : Sound body caller := by
  have reached : ∀ callee,
      Relation.ReflTransGen (Mentions body) caller callee →
      ∃ less, run body less callee = some true := by
    intro callee path
    induction path with
    | refl => exact ⟨fuel, succeeds⟩
    | tail _ mentions induction =>
        obtain ⟨less, succeeds⟩ := induction
        cases less with
        | zero => cases succeeds
        | succ less =>
            exact ⟨less, (mem_of_runItems_true succeeds).2 _ mentions⟩
  intro callee path
  obtain ⟨less, succeeds⟩ := reached callee path
  cases less with
  | zero => cases succeeds
  | succ less => exact (mem_of_runItems_true succeeds).1

/-! ## Calls that are made -/

/-- What does not stop a body leaves the rest of it to be done. -/
theorem isSome_rest_of_passes {fuel : Nat} {before rest : List (Item κ)}
    (passes : ∀ item ∈ before, Passes body item)
    (ends : (runItems (run body fuel) (before ++ rest)).isSome) :
    (runItems (run body fuel) rest).isSome := by
  induction before with
  | nil => exact ends
  | cons item before induction =>
      have later := induction fun item member =>
        passes item (List.mem_cons_of_mem _ member)
      have here := passes item List.mem_cons_self
      cases item with
      | done => exact later ends
      | fail => exact here.elim
      | call callee =>
          have noFail := Sound.run_ne_false here fuel
          rw [List.cons_append, runItems] at ends
          split at ends
          · cases ends
          · case _ failed => exact absurd failed noFail
          · exact later ends

/-- A call ends later than the calls it makes. -/
theorem isSome_of_enters {fuel : Nat} {caller callee : κ}
    (enters : Enters body caller callee)
    (ends : (run body (fuel + 1) caller).isSome) :
    (run body fuel callee).isSome := by
  obtain ⟨before, after, same, passes⟩ := enters
  rw [run, same] at ends
  have here := isSome_rest_of_passes passes ends
  rw [runItems] at here
  split at here
  · cases here
  · case _ failed => exact Option.isSome_of_eq_some failed
  · case _ succeeded => exact Option.isSome_of_eq_some succeeded

theorem Ends.of_enters {caller callee : κ} (ends : Ends body caller)
    (path : Relation.ReflTransGen (Enters body) caller callee) :
    Ends body callee := by
  induction path with
  | refl => exact ends
  | tail _ enters induction =>
      obtain ⟨fuel, some_⟩ := induction
      cases fuel with
      | zero => cases some_
      | succ fuel => exact ⟨fuel, isSome_of_enters enters some_⟩

theorem lt_of_transGen {caller callee : κ}
    (path : Relation.TransGen (Enters body) caller callee) {fuel : Nat}
    (ends : (run body fuel caller).isSome) :
    ∃ less, less < fuel ∧ (run body less callee).isSome := by
  induction path with
  | single enters =>
      cases fuel with
      | zero => cases ends
      | succ fuel =>
          exact ⟨fuel, Nat.lt_succ_self _, isSome_of_enters enters ends⟩
  | tail _ enters induction =>
      obtain ⟨less, lt, ends⟩ := induction
      cases less with
      | zero => cases ends
      | succ less => exact ⟨less, by omega, isSome_of_enters enters ends⟩

/-- A call that leads back to itself does not end. -/
theorem not_ends_of_cycle {caller : κ}
    (cycle : Relation.TransGen (Enters body) caller caller) :
    ¬ Ends body caller := by
  rintro ⟨fuel, ends⟩
  induction fuel using Nat.strong_induction_on with
  | h fuel induction =>
      obtain ⟨less, lt, endsEarlier⟩ := lt_of_transGen cycle ends
      exact induction less lt endsEarlier

/-! ## Calls that end -/

theorem runItems_mono {next later : κ → Option Bool}
    (extends_ : ∀ callee result,
      next callee = some result → later callee = some result)
    {items : List (Item κ)} {result : Bool}
    (done : runItems next items = some result) :
    runItems later items = some result := by
  induction items with
  | nil => exact done
  | cons item rest induction =>
      cases item with
      | done => exact induction done
      | fail => exact done
      | call callee =>
          rw [runItems] at done ⊢
          split at done
          · cases done
          · case _ failed =>
              rw [extends_ callee _ failed]
              exact done
          · case _ succeeded =>
              rw [extends_ callee _ succeeded]
              exact induction done

/-- More fuel changes nothing. -/
theorem run_mono {fuel more : Nat} (le : fuel ≤ more) {caller : κ}
    {result : Bool} (done : run body fuel caller = some result) :
    run body more caller = some result := by
  induction fuel generalizing more caller result with
  | zero => cases done
  | succ fuel induction =>
      obtain ⟨more, rfl⟩ : ∃ less, more = less + 1 := ⟨more - 1, by omega⟩
      exact runItems_mono
        (fun callee result => induction (Nat.le_of_succ_le_succ le)) done

/-- The rest of a body ends when the calls made there do. -/
theorem ends_rest {caller : κ} {before rest : List (Item κ)}
    (same : body caller = before ++ rest)
    (passes : ∀ item ∈ before, Passes body item)
    (calls : ∀ callee, Enters body caller callee → Ends body callee) :
    ∃ fuel, (runItems (run body fuel) rest).isSome := by
  induction rest generalizing before with
  | nil => exact ⟨0, rfl⟩
  | cons item rest induction =>
      have further : Passes body item →
          ∃ fuel, (runItems (run body fuel) rest).isSome := by
        intro here
        have behind : body caller = (before ++ [item]) ++ rest := by
          rw [same, List.append_assoc, List.singleton_append]
        refine induction behind ?_
        intro other member
        rcases List.mem_append.mp member with member | member
        · exact passes other member
        · rw [List.mem_singleton.mp member]
          exact here
      cases item with
      | done => exact further trivial
      | fail => exact ⟨0, rfl⟩
      | call callee =>
          obtain ⟨first, ends⟩ := calls callee ⟨before, rest, same, passes⟩
          obtain ⟨result, done⟩ := Option.isSome_iff_exists.mp ends
          cases result with
          | false => exact ⟨first, by rw [runItems, done]; rfl⟩
          | true =>
              obtain ⟨fuel, ends⟩ := further (sound_of_run_true done)
              obtain ⟨result, later⟩ := Option.isSome_iff_exists.mp ends
              refine ⟨max first fuel, ?_⟩
              have early := run_mono (Nat.le_max_left first fuel) done
              have late := runItems_mono
                (fun callee result =>
                  run_mono (Nat.le_max_right first fuel)) later
              rw [runItems, early]
              exact Option.isSome_of_eq_some late

theorem ends_of_enters {caller : κ}
    (calls : ∀ callee, Enters body caller callee → Ends body callee) :
    Ends body caller := by
  obtain ⟨fuel, ends⟩ := ends_rest (List.nil_append _).symm
    (fun _ member => absurd member List.not_mem_nil) calls
  exact ⟨fuel + 1, ends⟩

/-- Where finitely many calls can be made, a call ends if and only if none
that it comes to leads back to itself. -/
theorem ends_iff {caller : κ}
    (finite : {callee |
      Relation.ReflTransGen (Enters body) caller callee}.Finite) :
    Ends body caller ↔
      ∀ callee, Relation.ReflTransGen (Enters body) caller callee →
        ¬ Relation.TransGen (Enters body) callee callee := by
  constructor
  · intro ends callee path cycle
    exact not_ends_of_cycle cycle (ends.of_enters path)
  · intro acyclic
    let Reached := {callee // Relation.ReflTransGen (Enters body) caller callee}
    let later : Reached → Reached → Prop := fun callee caller =>
      Relation.TransGen (Enters body) caller.1 callee.1
    have : Finite Reached := finite.to_subtype
    have : Std.Irrefl later :=
      ⟨fun callee cycle => acyclic _ callee.2 cycle⟩
    have : IsTrans Reached later :=
      ⟨fun _ _ _ first second => second.trans first⟩
    have wellFounded : WellFounded later :=
      Finite.wellFounded_of_trans_of_irrefl later
    have all : ∀ callee : Reached, Ends body callee.1 := by
      intro callee
      induction callee using wellFounded.induction with
      | _ callee induction =>
          refine ends_of_enters fun next enters => ?_
          exact induction ⟨next, callee.2.tail enters⟩ (.single enters)
    exact all ⟨caller, .refl⟩

end OrderedCalls
