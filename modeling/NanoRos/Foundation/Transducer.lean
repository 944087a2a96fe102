import Mathlib.Tactic.Common
import Mathlib.Data.List.Induction

/-!
# Machines that read a stream and emit

A step reads one symbol and may emit one output.  Reading a stream in pieces
is the same as reading it at once, and a consumer folded into the reading
sees exactly the emitted outputs in order.
-/

namespace Transducer

universe u v w x

variable {σ : Type u} {α : Type v} {β : Type w} {υ : Type x}

/-- Read a list of symbols, collecting the outputs. -/
def run (step : σ → α → σ × Option β) : σ → List α → σ × List β
  | state, [] => (state, [])
  | state, symbol :: rest =>
      let (next, output) := step state symbol
      let (final, outputs) := run step next rest
      (final, output.toList ++ outputs)

/-- Read a list of symbols, handing each output to `consume` at once. -/
def runWith (step : σ → α → σ × Option β) (consume : υ → β → υ) :
    σ → υ → List α → σ × υ
  | state, value, [] => (state, value)
  | state, value, symbol :: rest =>
      match step state symbol with
      | (next, none) => runWith step consume next value rest
      | (next, some output) =>
          runWith step consume next (consume value output) rest

/-- The state after reading a list of symbols. -/
def after (step : σ → α → σ × Option β) (state : σ)
    (symbols : List α) : σ :=
  (run step state symbols).1

/-- The outputs emitted while reading a list of symbols. -/
def emitted (step : σ → α → σ × Option β) (state : σ)
    (symbols : List α) : List β :=
  (run step state symbols).2

variable (step : σ → α → σ × Option β)

@[simp] theorem after_nil (state : σ) : after step state [] = state := rfl

@[simp] theorem emitted_nil (state : σ) : emitted step state [] = [] := rfl

theorem after_cons (state : σ) (symbol : α) (rest : List α) :
    after step state (symbol :: rest) =
      after step (step state symbol).1 rest := rfl

theorem emitted_cons (state : σ) (symbol : α) (rest : List α) :
    emitted step state (symbol :: rest) =
      (step state symbol).2.toList ++
        emitted step (step state symbol).1 rest := rfl

theorem after_append (state : σ) (left right : List α) :
    after step state (left ++ right) =
      after step (after step state left) right := by
  induction left generalizing state with
  | nil => rfl
  | cons symbol rest induction =>
      rw [List.cons_append, after_cons, after_cons, induction]

theorem emitted_append (state : σ) (left right : List α) :
    emitted step state (left ++ right) =
      emitted step state left ++
        emitted step (after step state left) right := by
  induction left generalizing state with
  | nil => rfl
  | cons symbol rest induction =>
      rw [List.cons_append, emitted_cons, emitted_cons, after_cons,
        induction, List.append_assoc]

/-- A consumer folded into the reading sees the emitted outputs. -/
theorem runWith_eq (consume : υ → β → υ) (state : σ) (value : υ)
    (symbols : List α) :
    runWith step consume state value symbols =
      (after step state symbols,
        (emitted step state symbols).foldl consume value) := by
  induction symbols generalizing state value with
  | nil => rfl
  | cons symbol rest induction =>
      simp only [runWith]
      rcases result : step state symbol with ⟨next, output⟩
      cases output with
      | none =>
          simp [induction, after_cons, emitted_cons, result]
      | some output =>
          simp [induction, after_cons, emitted_cons, result]

/-- Reading chunk by chunk is reading the concatenation. -/
theorem runWith_flatten (consume : υ → β → υ) (state : σ) (value : υ)
    (chunks : List (List α)) :
    chunks.foldl
        (fun progress chunk =>
          runWith step consume progress.1 progress.2 chunk)
        (state, value) =
      (after step state chunks.flatten,
        (emitted step state chunks.flatten).foldl consume value) := by
  induction chunks generalizing state value with
  | nil => rfl
  | cons chunk chunks induction =>
      rw [List.foldl_cons, runWith_eq, induction, List.flatten_cons,
        after_append, emitted_append, List.foldl_append]

/-- An invariant relating the symbols read so far, the outputs so far and the
state, kept by every step, holds after every stream. -/
theorem run_invariant (invariant : List α → List β → σ → Prop)
    {state : σ} (initially : invariant [] [] state)
    (preserved : ∀ symbols outputs state symbol,
      invariant symbols outputs state →
        invariant (symbols ++ [symbol])
          (outputs ++ (step state symbol).2.toList)
          (step state symbol).1)
    (symbols : List α) :
    invariant symbols (emitted step state symbols)
      (after step state symbols) := by
  induction symbols using List.reverseRecOn with
  | nil => exact initially
  | append_singleton symbols symbol induction =>
      rw [emitted_append, after_append]
      simpa [emitted_cons, after_cons] using
        preserved symbols _ _ symbol induction

/-- Machines whose related states step to related states and emit the same
outputs, seen through `view`, read every stream alike. -/
theorem simulates {τ : Type*} {γ : Type*} (other : τ → α → τ × Option γ)
    (related : σ → τ → Prop) (view : β → γ)
    (preserved : ∀ state state' symbol, related state state' →
      related (step state symbol).1 (other state' symbol).1 ∧
        (step state symbol).2.map view = (other state' symbol).2)
    {state : σ} {state' : τ} (initially : related state state')
    (symbols : List α) :
    related (after step state symbols) (after other state' symbols) ∧
      (emitted step state symbols).map view =
        emitted other state' symbols := by
  induction symbols generalizing state state' with
  | nil => exact ⟨initially, rfl⟩
  | cons symbol rest induction =>
      obtain ⟨stillRelated, same⟩ := preserved state state' symbol initially
      obtain ⟨relatedAfter, outputs⟩ := induction stillRelated
      refine ⟨relatedAfter, ?_⟩
      rw [emitted_cons, emitted_cons, List.map_append, outputs, ← same]
      cases (step state symbol).2 <;> rfl

/-! ## How far off an output is -/

/-- How many symbols are read until a wanted output comes, or all of them. -/
def symbolsTo (wanted : β → Bool) : σ → List α → Nat
  | _, [] => 0
  | state, symbol :: rest =>
      if (step state symbol).2.any wanted then 1
      else symbolsTo wanted (step state symbol).1 rest + 1

variable {step}

theorem any_toList (wanted : β → Bool) (output : Option β) :
    output.toList.any wanted = output.any wanted := by
  cases output <;> simp

theorem symbolsTo_le (wanted : β → Bool) (state : σ) (symbols : List α) :
    symbolsTo step wanted state symbols ≤ symbols.length := by
  induction symbols generalizing state with
  | nil => exact Nat.le_refl 0
  | cons symbol rest induction =>
      have later := induction (step state symbol).1
      simp only [symbolsTo, List.length_cons]
      split <;> omega

/-- Symbols that bring no wanted output bring it nearer. -/
theorem symbolsTo_append_quiet {wanted : β → Bool} {state : σ}
    {front : List α} (quiet : (emitted step state front).any wanted = false)
    (rest : List α) :
    symbolsTo step wanted state (front ++ rest) =
      front.length + symbolsTo step wanted (after step state front) rest := by
  induction front generalizing state with
  | nil => simp
  | cons symbol front induction =>
      rw [emitted_cons, List.any_append, any_toList,
        Bool.or_eq_false_iff] at quiet
      rw [List.cons_append, symbolsTo, quiet.1, induction quiet.2, after_cons,
        List.length_cons]
      simp only [Bool.false_eq_true, if_false]
      omega

/-- What comes behind a wanted output does not matter. -/
theorem symbolsTo_append_of_any {wanted : β → Bool} {state : σ}
    {front : List α} (comes : (emitted step state front).any wanted = true)
    (rest : List α) :
    symbolsTo step wanted state (front ++ rest) =
      symbolsTo step wanted state front := by
  induction front generalizing state with
  | nil => cases comes
  | cons symbol front induction =>
      rw [List.cons_append, symbolsTo, symbolsTo]
      cases here : (step state symbol).2.any wanted with
      | true => rfl
      | false =>
          simp only [Bool.false_eq_true, if_false, Nat.add_right_cancel_iff]
          apply induction
          rw [emitted_cons, List.any_append, any_toList, here,
            Bool.false_or] at comes
          exact comes

end Transducer
