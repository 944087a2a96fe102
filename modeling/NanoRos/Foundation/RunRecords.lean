import Mathlib.Data.List.Forall2
import NanoRos.Foundation.PartialRun

/-!
# Records of a run

The steps of a run show items: those that go into the system, those that come
out of it.  What is still inside is carried by the state.  If no single step
loses, duplicates or reorders an item, no run does.
-/

namespace PartialRun

universe u v w

variable {σ : Type u} {ε : Type v} {α : Type w}

/-- What the steps of a run show, in order. -/
def record (step : σ → ε → Option σ) (shows : σ → ε → List α) :
    σ → List ε → List α
  | _, [] => []
  | state, event :: rest =>
      shows state event ++
        match step state event with
        | none => []
        | some next => record step shows next rest

variable {step : σ → ε → Option σ}

@[simp] theorem record_nil (shows : σ → ε → List α) (state : σ) :
    record step shows state [] = [] := rfl

theorem record_cons (shows : σ → ε → List α) {state next : σ} {event : ε}
    (stepped : step state event = some next) (rest : List ε) :
    record step shows state (event :: rest) =
      shows state event ++ record step shows next rest := by
  rw [record, stepped]

theorem record_append (shows : σ → ε → List α) {state middle : σ}
    {first : List ε} (run : exec step state first = some middle)
    (rest : List ε) :
    record step shows state (first ++ rest) =
      record step shows state first ++ record step shows middle rest := by
  induction first generalizing state with
  | nil =>
      cases run
      rfl
  | cons event first induction =>
      obtain ⟨next, stepped, remaining⟩ := exec_cons_eq_some run
      rw [List.cons_append, record_cons shows stepped,
        record_cons shows stepped, induction remaining, List.append_assoc]

theorem record_map {β : Type*} (shows : σ → ε → List α) (label : α → β)
    (state : σ) (events : List ε) :
    record step (fun state event => (shows state event).map label) state
        events =
      (record step shows state events).map label := by
  induction events generalizing state with
  | nil => rfl
  | cons event rest induction =>
      rw [record, record, List.map_append]
      cases step state event with
      | none => rfl
      | some next => exact congrArg _ (induction next)

theorem record_filterMap {β : Type*} (shows : σ → ε → List α)
    (label : α → Option β) (state : σ) (events : List ε) :
    record step (fun state event => (shows state event).filterMap label) state
        events =
      (record step shows state events).filterMap label := by
  induction events generalizing state with
  | nil => rfl
  | cons event rest induction =>
      rw [record, record, List.filterMap_append]
      cases step state event with
      | none => rfl
      | some next => exact congrArg _ (induction next)

/-- What two lists in a row are related to comes in two parts. -/
theorem exists_append_of_forall₂ {β : Type*} {related : α → β → Prop}
    {left right : List α} {items : List β}
    (all : List.Forall₂ related (left ++ right) items) :
    ∃ front rest, items = front ++ rest ∧
      List.Forall₂ related left front ∧ List.Forall₂ related right rest := by
  refine ⟨items.take left.length, items.drop left.length,
    (List.take_append_drop _ _).symm, ?_, ?_⟩
  · exact (List.forall₂_take_append _ _ _ all.flip).flip
  · exact (List.forall₂_drop_append _ _ _ all.flip).flip

/-- What a part of a list is related to is a part of what all of it is. -/
theorem exists_sublist_of_forall₂ {β : Type*} {related : α → β → Prop}
    {part whole : List α} {items : List β} (sublist : part.Sublist whole)
    (all : List.Forall₂ related whole items) :
    ∃ chosen, List.Forall₂ related part chosen ∧ chosen.Sublist items := by
  induction sublist generalizing items with
  | slnil => exact ⟨[], .nil, List.nil_sublist items⟩
  | cons _ _ induction =>
      cases all with
      | cons _ rest =>
          obtain ⟨chosen, related, sublist⟩ := induction rest
          exact ⟨chosen, related, sublist.cons _⟩
  | cons_cons _ _ induction =>
      cases all with
      | cons here rest =>
          obtain ⟨chosen, related, sublist⟩ := induction rest
          exact ⟨_, .cons here related, sublist.cons_cons _⟩

/-- Two records that are related step by step are related. -/
theorem record_forall₂ {β : Type*} {related : α → β → Prop}
    {invariant : σ → Prop} {condition : σ → ε → Prop}
    {left : σ → ε → List α} {right : σ → ε → List β}
    (preserved : ∀ state event next, invariant state →
      condition state event → step state event = some next → invariant next)
    (steps : ∀ state event, invariant state → condition state event →
      List.Forall₂ related (left state event) (right state event))
    {state : σ} {events : List ε} (initially : invariant state)
    (respected : Along step condition state events) :
    List.Forall₂ related (record step left state events)
      (record step right state events) := by
  induction events generalizing state with
  | nil => exact .nil
  | cons event rest induction =>
      have here := steps state event initially respected.1
      rw [record, record]
      cases stepped : step state event with
      | none => exact List.rel_append here .nil
      | some next =>
          exact List.rel_append here (induction
            (preserved state event next initially respected.1 stepped)
            (respected.2 next stepped))

/-- What holds of every event holds along every run of them. -/
theorem along_of_forall_mem {claim : ε → Prop} {events : List ε}
    (holds : ∀ event ∈ events, claim event) (state : σ) :
    Along step (fun _ event => claim event) state events := by
  induction events generalizing state with
  | nil => trivial
  | cons event rest induction =>
      refine ⟨holds event List.mem_cons_self, fun next _ => ?_⟩
      exact induction
        (fun other member => holds other (List.mem_cons_of_mem event member))
        next

/-- Two claims that hold along a run hold together along it. -/
theorem Along.and {left right : σ → ε → Prop} {state : σ} {events : List ε}
    (first : Along step left state events)
    (second : Along step right state events) :
    Along step (fun state event => left state event ∧ right state event)
      state events := by
  induction events generalizing state with
  | nil => trivial
  | cons event rest induction =>
      refine ⟨⟨first.1, second.1⟩, fun next stepped => ?_⟩
      exact induction (first.2 next stepped) (second.2 next stepped)

/-- What holds along a run in two parts holds along both. -/
theorem Along.parts {claim : σ → ε → Prop} {state middle : σ}
    {first rest : List ε} (along : Along step claim state (first ++ rest))
    (run : exec step state first = some middle) :
    Along step claim state first ∧ Along step claim middle rest := by
  induction first generalizing state with
  | nil =>
      cases run
      exact ⟨trivial, along⟩
  | cons event first induction =>
      obtain ⟨next, stepped, remaining⟩ := exec_cons_eq_some run
      obtain ⟨before, after⟩ :=
        induction (along.2 next stepped) remaining
      refine ⟨⟨along.1, fun other otherStep => ?_⟩, after⟩
      cases stepped.symm.trans otherStep
      exact before

section Total

variable {invariant : σ → Prop} {condition : σ → ε → Prop}

/-- If every step that meets the condition is defined and keeps the invariant,
every run whose steps meet it goes through. -/
theorem exec_total
    (advances : ∀ state event, invariant state → condition state event →
      ∃ next, step state event = some next ∧ invariant next)
    {state : σ} {events : List ε} (initially : invariant state)
    (respected : Along step condition state events) :
    ∃ final, exec step state events = some final ∧ invariant final := by
  induction events generalizing state with
  | nil => exact ⟨state, rfl, initially⟩
  | cons event rest induction =>
      obtain ⟨next, stepped, holds⟩ := advances state event initially
        respected.1
      obtain ⟨final, run, kept⟩ := induction holds (respected.2 next stepped)
      refine ⟨final, ?_, kept⟩
      rw [exec_cons, stepped]
      exact run

end Total

/-! ## Accounts of what goes in and what comes out -/

section Account

variable {invariant : σ → Prop} {condition : σ → ε → Prop}
  {enters leaves : σ → ε → List α} {carried : σ → List α}

/-- How what has left and what is inside compare with what was inside and what
has entered: if no step upsets the comparison, no run does. -/
theorem record_account {compares : List α → List α → Prop}
    (reflexive : ∀ items, compares items items)
    (transitive : ∀ first second third, compares first second →
      compares second third → compares first third)
    (framed : ∀ before after left right, compares left right →
      compares (before ++ left ++ after) (before ++ right ++ after))
    (preserved : ∀ state event next, invariant state →
      condition state event → step state event = some next → invariant next)
    (accounts : ∀ state event next, invariant state →
      condition state event → step state event = some next →
        compares (leaves state event ++ carried next)
          (carried state ++ enters state event))
    {state final : σ} {events : List ε} (initially : invariant state)
    (respected : Along step condition state events)
    (run : exec step state events = some final) :
    compares (record step leaves state events ++ carried final)
      (carried state ++ record step enters state events) := by
  induction events generalizing state with
  | nil =>
      cases run
      simpa using reflexive (carried final)
  | cons event rest induction =>
      obtain ⟨next, stepped, remaining⟩ := exec_cons_eq_some run
      have here := respected.1
      have later := induction
        (preserved state event next initially here stepped)
        (respected.2 next stepped) remaining
      have before := framed (leaves state event) [] _ _ later
      have after := framed [] (record step enters next rest) _ _
        (accounts state event next initially here stepped)
      simp only [List.append_nil, List.nil_append] at before after
      rw [record_cons leaves stepped, record_cons enters stepped]
      apply transitive _ _ _ _ (by simpa [List.append_assoc] using after)
      simpa [List.append_assoc] using before

/-- First in, first out: what has left, followed by what is inside, is what
was inside at first, followed by what has entered. -/
theorem record_balance
    (preserved : ∀ state event next, invariant state →
      condition state event → step state event = some next → invariant next)
    (balanced : ∀ state event next, invariant state →
      condition state event → step state event = some next →
        leaves state event ++ carried next =
          carried state ++ enters state event)
    {state final : σ} {events : List ε} (initially : invariant state)
    (respected : Along step condition state events)
    (run : exec step state events = some final) :
    record step leaves state events ++ carried final =
      carried state ++ record step enters state events := by
  apply record_account (fun _ => rfl) (fun _ _ _ => Eq.trans) _ preserved
    balanced initially respected run
  rintro before after left right rfl
  rfl

/-- Where steps may drop items, those that remain keep their order. -/
theorem record_sublist
    (preserved : ∀ state event next, invariant state →
      condition state event → step state event = some next → invariant next)
    (ordered : ∀ state event next, invariant state →
      condition state event → step state event = some next →
        (leaves state event ++ carried next).Sublist
          (carried state ++ enters state event))
    {state final : σ} {events : List ε} (initially : invariant state)
    (respected : Along step condition state events)
    (run : exec step state events = some final) :
    (record step leaves state events ++ carried final).Sublist
      (carried state ++ record step enters state events) := by
  apply record_account List.Sublist.refl (fun _ _ _ => List.Sublist.trans) _
    preserved ordered initially respected run
  intro before after left right sublist
  exact (sublist.append_left before).append_right after

/-- The same where what is inside is not determined by the state: an item that
is lost may be out of the account before the state shows it. -/
theorem record_sublist_carried {carries : σ → List α → Prop}
    (ordered : ∀ state event next items, carries state items →
      condition state event → step state event = some next →
        ∃ left, carries next left ∧ (leaves state event ++ left).Sublist
          (items ++ enters state event))
    {state final : σ} {events : List ε} {items : List α}
    (initially : carries state items)
    (respected : Along step condition state events)
    (run : exec step state events = some final) :
    ∃ left, carries final left ∧
      (record step leaves state events ++ left).Sublist
        (items ++ record step enters state events) := by
  induction events generalizing state items with
  | nil =>
      cases run
      exact ⟨items, initially, by simp⟩
  | cons event rest induction =>
      obtain ⟨next, stepped, remaining⟩ := exec_cons_eq_some run
      obtain ⟨middle, carried, here⟩ :=
        ordered state event next items initially respected.1 stepped
      obtain ⟨left, carriedOn, later⟩ :=
        induction carried (respected.2 next stepped) remaining
      refine ⟨left, carriedOn, ?_⟩
      rw [record_cons leaves stepped, record_cons enters stepped,
        List.append_assoc]
      have before := later.append_left (leaves state event)
      have after := here.append_right (record step enters next rest)
      rw [List.append_assoc, List.append_assoc] at after
      exact before.trans after

end Account

/-- Nothing is shown by a run no step of which shows anything. -/
theorem record_eq_nil {invariant : σ → Prop} {condition : σ → ε → Prop}
    {shows : σ → ε → List α}
    (preserved : ∀ state event next, invariant state →
      condition state event → step state event = some next → invariant next)
    (silent : ∀ state event, invariant state → condition state event →
      shows state event = [])
    {state : σ} {events : List ε} (initially : invariant state)
    (respected : Along step condition state events) :
    record step shows state events = [] := by
  induction events generalizing state with
  | nil => rfl
  | cons event rest induction =>
      rw [record, silent state event initially respected.1]
      cases stepped : step state event with
      | none => rfl
      | some next =>
          exact induction
            (preserved state event next initially respected.1 stepped)
            (respected.2 next stepped)

end PartialRun
