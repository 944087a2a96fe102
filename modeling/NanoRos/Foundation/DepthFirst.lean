import Mathlib.Data.Fintype.Card
import Mathlib.Logic.Relation

/-!
# Depth-first visits

Calls are made one after another; several calls may have one key, and a key is
entered once.  Entering a call changes a state, or fails; the calls below it
follow.  The number of keys still to be entered bounds the depth of the
visit, and after a visit every key it entered has the keys below it entered
too.
-/

namespace DepthFirst

universe u v w x y

variable {κ : Type u} {ν : Type v} {σ : Type w} {ε : Type x}

/-- One call after another, up to the first that fails. -/
def visitAll
    (visit : κ → σ × List ν → Option (Except ε (σ × List ν))) :
    List κ → σ × List ν → Option (Except ε (σ × List ν))
  | [], reached => some (.ok reached)
  | call :: rest, reached =>
      match visit call reached with
      | none => none
      | some (.error error) => some (.error error)
      | some (.ok reached) => visitAll visit rest reached

section Definitions

variable (key : κ → Option ν) (enter : κ → σ → Except ε σ)
  (children : κ → List κ)

/-- A visit; `none` when the fuel ran out. -/
def visit [DecidableEq ν] :
    Nat → κ → σ × List ν → Option (Except ε (σ × List ν))
  | 0, _, _ => none
  | fuel + 1, call, (state, visited) =>
      match key call with
      | none => some (.ok (state, visited))
      | some here =>
          if here ∈ visited then some (.ok (state, visited))
          else
            match enter call state with
            | .error error => some (.error error)
            | .ok state =>
                visitAll (visit fuel) (children call) (state, here :: visited)

/-- The calls made below one. -/
def Calls : κ → κ → Prop :=
  Relation.ReflTransGen fun call below => below ∈ children call

/-- A key with another below it. -/
def Below (here there : ν) : Prop :=
  ∃ call child, key call = some here ∧ child ∈ children call ∧
    key child = some there

/-- What lies below a call is settled by its key. -/
def Uniform : Prop :=
  ∀ call other, key call ≠ none → key call = key other →
    ∀ child ∈ children call, ∃ twin ∈ children other, key twin = key child

/-- Nothing was left, and what was entered has all below it entered. -/
def Covered (before after : List ν) : Prop :=
  before ⊆ after ∧
    ∀ here ∈ after, here ∉ before →
      ∀ there, Below key children here there → there ∈ after

end Definitions

variable {key : κ → Option ν} {enter : κ → σ → Except ε σ}
  {children : κ → List κ}

/-! ## Coverage -/

theorem Covered.refl (visited : List ν) :
    Covered key children visited visited :=
  ⟨fun _ member => member, fun _ member fresh => absurd member fresh⟩

theorem Covered.trans {first second third : List ν}
    (left : Covered key children first second)
    (right : Covered key children second third) :
    Covered key children first third := by
  constructor
  · exact fun _ member => right.1 (left.1 member)
  · intro here member fresh there below
    by_cases early : here ∈ second
    · exact right.1 (left.2 here early fresh there below)
    · exact right.2 here member early there below

/-! ## A list of calls -/

section Lists

variable {visit : κ → σ × List ν → Option (Except ε (σ × List ν))}
  {calls : List κ}

theorem visitAll_cons_of_ok {call : κ} {reached next : σ × List ν}
    (first : visit call reached = some (.ok next)) (rest : List κ) :
    visitAll visit (call :: rest) reached = visitAll visit rest next := by
  rw [visitAll, first]

theorem visitAll_cons_eq_ok
    {call : κ}
    {rest : List κ} {reached final : σ × List ν}
    (run : visitAll visit (call :: rest) reached = some (.ok final)) :
    ∃ next, visit call reached = some (.ok next) ∧
      visitAll visit rest next = some (.ok final) := by
  rw [visitAll] at run
  split at run
  · cases run
  · cases run
  · case _ next first => exact ⟨next, first, run⟩

/-- Calls that change nothing may be left out. -/
theorem visitAll_filter (skipped : κ → Bool) (calls : List κ)
    (reached : σ × List ν) :
    visitAll
        (fun call reached =>
          if skipped call then some (.ok reached) else visit call reached)
        calls reached =
      visitAll visit (calls.filter fun call => !skipped call) reached := by
  induction calls generalizing reached with
  | nil => rfl
  | cons call rest induction =>
      cases skip : skipped call with
      | true =>
          rw [List.filter_cons_of_neg (by simp [skip]),
            visitAll_cons_of_ok (if_pos skip), induction]
      | false =>
          rw [List.filter_cons_of_pos (by simp [skip]), visitAll, visitAll,
            if_neg (by simp [skip])]
          split
          · rfl
          · rfl
          · exact induction _

theorem visitAll_mono
    {later : κ → σ × List ν → Option (Except ε (σ × List ν))}
    (extends_ : ∀ call ∈ calls, ∀ reached result,
      visit call reached = some result → later call reached = some result)
    {reached : σ × List ν} {result : Except ε (σ × List ν)}
    (run : visitAll visit calls reached = some result) :
    visitAll later calls reached = some result := by
  induction calls generalizing reached with
  | nil => exact run
  | cons call rest induction =>
      have first := extends_ call List.mem_cons_self reached
      rw [visitAll] at run ⊢
      split at run
      · cases run
      · case _ error failed =>
          rw [first _ failed]
          exact run
      · case _ next succeeded =>
          rw [first _ succeeded]
          exact induction
            (fun call member => extends_ call (List.mem_cons_of_mem _ member))
            run

theorem visitAll_keeps
    {invariant : σ × List ν → Prop}
    (keeps : ∀ call ∈ calls, ∀ reached result, invariant reached →
      visit call reached = some result →
        ∃ next, result = .ok next ∧ invariant next)
    {reached : σ × List ν} (holds : invariant reached)
    {result : Except ε (σ × List ν)}
    (run : visitAll visit calls reached = some result) :
    ∃ final, result = .ok final ∧ invariant final := by
  induction calls generalizing reached with
  | nil => exact ⟨reached, (Option.some.inj run).symm, holds⟩
  | cons call rest induction =>
      have first := keeps call List.mem_cons_self reached
      rw [visitAll] at run
      split at run
      · cases run
      · case _ error failed =>
          obtain ⟨next, same, _⟩ := first _ holds failed
          cases same
      · case _ next succeeded =>
          obtain ⟨_, ⟨⟩, kept⟩ := first _ holds succeeded
          exact induction
            (fun call member => keeps call (List.mem_cons_of_mem _ member))
            kept run

theorem visitAll_grows
    (grows : ∀ call ∈ calls, ∀ reached next,
      visit call reached = some (.ok next) → reached.2 ⊆ next.2)
    {reached final : σ × List ν}
    (run : visitAll visit calls reached = some (.ok final)) :
    reached.2 ⊆ final.2 := by
  induction calls generalizing reached with
  | nil =>
      cases run
      exact fun _ member => member
  | cons call rest induction =>
      obtain ⟨next, first, others⟩ := visitAll_cons_eq_ok run
      have early := grows call List.mem_cons_self reached next first
      have late := induction
        (fun call member => grows call (List.mem_cons_of_mem _ member)) others
      exact fun _ member => late (early member)

theorem visitAll_covers
    (covers : ∀ call ∈ calls, ∀ reached next,
      visit call reached = some (.ok next) →
        Covered key children reached.2 next.2 ∧
          ∀ here, key call = some here → here ∈ next.2)
    {reached final : σ × List ν}
    (run : visitAll visit calls reached = some (.ok final)) :
    Covered key children reached.2 final.2 ∧
      ∀ call ∈ calls, ∀ here, key call = some here → here ∈ final.2 := by
  induction calls generalizing reached with
  | nil =>
      cases run
      exact ⟨Covered.refl _, fun _ member => absurd member List.not_mem_nil⟩
  | cons call rest induction =>
      obtain ⟨next, first, others⟩ := visitAll_cons_eq_ok run
      obtain ⟨covered, entered⟩ :=
        covers call List.mem_cons_self reached next first
      obtain ⟨coveredRest, enteredRest⟩ := induction
        (fun call member => covers call (List.mem_cons_of_mem _ member)) others
      refine ⟨covered.trans coveredRest, ?_⟩
      intro other member here named
      rcases List.mem_cons.mp member with rfl | member
      · exact coveredRest.1 (entered here named)
      · exact enteredRest other member here named

theorem visitAll_isSome
    {visited : List ν}
    (ends : ∀ call ∈ calls, ∀ reached : σ × List ν, visited ⊆ reached.2 →
      (visit call reached).isSome)
    (grows : ∀ call reached next, visit call reached = some (.ok next) →
      reached.2 ⊆ next.2)
    {reached : σ × List ν} (later : visited ⊆ reached.2) :
    (visitAll visit calls reached).isSome := by
  induction calls generalizing reached with
  | nil => rfl
  | cons call rest induction =>
      have first := ends call List.mem_cons_self reached later
      rw [visitAll]
      split
      · case _ stuck =>
          rw [stuck] at first
          cases first
      · rfl
      · case _ next succeeded =>
          exact induction
            (fun call member => ends call (List.mem_cons_of_mem _ member))
            (fun _ member => grows call reached next succeeded (later member))

end Lists

/-! ## Two kinds of keys -/

section TwoKeys

variable {ν' : Type y} {key' : κ → Option ν'} {met : κ → Prop}

/-- The keys of both kinds tell the same calls apart. -/
structure SameKeys (key : κ → Option ν) (key' : κ → Option ν')
    (met : κ → Prop) : Prop where
  named : ∀ call, met call → (key call).isSome ∧ (key' call).isSome
  alike : ∀ call other, met call → met other →
    (key call = key other ↔ key' call = key' other)

/-- The same calls have been entered. -/
def SameVisited (key : κ → Option ν) (key' : κ → Option ν') (met : κ → Prop)
    (visited : List ν) (visited' : List ν') : Prop :=
  ∀ call here here', met call → key call = some here →
    key' call = some here' → (here ∈ visited ↔ here' ∈ visited')

/-- Two visits come to the same. -/
inductive Alike (key : κ → Option ν) (key' : κ → Option ν')
    (met : κ → Prop) : Option (Except ε (σ × List ν)) →
      Option (Except ε (σ × List ν')) → Prop where
  | cut : Alike key key' met none none
  | failed (error : ε) :
      Alike key key' met (some (.error error)) (some (.error error))
  | reached {visited : List ν} {visited' : List ν'} (state : σ)
      (same : SameVisited key key' met visited visited') :
      Alike key key' met (some (.ok (state, visited)))
        (some (.ok (state, visited')))

/-- To enter a call is to enter it under both keys. -/
theorem SameVisited.entering (sameKeys : SameKeys key key' met)
    {visited : List ν} {visited' : List ν'}
    (same : SameVisited key key' met visited visited') {call : κ}
    (isMet : met call) {here : ν} {here' : ν'} (named : key call = some here)
    (named' : key' call = some here') :
    SameVisited key key' met (here :: visited) (here' :: visited') := by
  intro other there there' isMetOther namedOther namedOther'
  have alike := sameKeys.alike other call isMetOther isMet
  rw [namedOther, namedOther', named, named', Option.some.injEq,
    Option.some.injEq] at alike
  rw [List.mem_cons, List.mem_cons, alike,
    same other there there' isMetOther namedOther namedOther']

theorem visitAll_alike
    {visit : κ → σ × List ν → Option (Except ε (σ × List ν))}
    {visit' : κ → σ × List ν' → Option (Except ε (σ × List ν'))}
    {calls : List κ}
    (alike : ∀ call ∈ calls, ∀ state visited visited',
      SameVisited key key' met visited visited' →
        Alike key key' met (visit call (state, visited))
          (visit' call (state, visited')))
    (state : σ) {visited : List ν} {visited' : List ν'}
    (same : SameVisited key key' met visited visited') :
    Alike key key' met (visitAll visit calls (state, visited))
      (visitAll visit' calls (state, visited')) := by
  induction calls generalizing state visited visited' with
  | nil => exact .reached state same
  | cons call rest induction =>
      have first := alike call List.mem_cons_self state visited visited' same
      rw [visitAll, visitAll]
      generalize visit call (state, visited) = left at first
      generalize visit' call (state, visited') = right at first
      cases first with
      | cut => exact .cut
      | failed error => exact .failed error
      | reached state same =>
          exact induction
            (fun call member => alike call (List.mem_cons_of_mem _ member))
            state same

/-- The states that are reached are the same. -/
theorem Alike.states {left : Option (Except ε (σ × List ν))}
    {right : Option (Except ε (σ × List ν'))}
    (alike : Alike key key' met left right) :
    left.map (·.map Prod.fst) = right.map (·.map Prod.fst) := by
  cases alike with
  | cut => rfl
  | failed error => rfl
  | reached state same => rfl

end TwoKeys

/-! ## Visits -/

variable [DecidableEq ν]

theorem visit_succ_of_none {fuel : Nat} {call : κ} (nowhere : key call = none)
    (reached : σ × List ν) :
    visit key enter children (fuel + 1) call reached = some (.ok reached) := by
  rw [visit, nowhere]

theorem visit_succ_of_mem {fuel : Nat} {call : κ} {here : ν}
    (named : key call = some here) {reached : σ × List ν}
    (seen : here ∈ reached.2) :
    visit key enter children (fuel + 1) call reached = some (.ok reached) := by
  rw [visit, named]
  exact if_pos seen

theorem visit_succ_of_notMem {fuel : Nat} {call : κ} {here : ν}
    (named : key call = some here) {state : σ} {visited : List ν}
    (fresh : here ∉ visited) :
    visit key enter children (fuel + 1) call (state, visited) =
      match enter call state with
      | .error error => some (.error error)
      | .ok state =>
          visitAll (visit key enter children fuel) (children call)
            (state, here :: visited) := by
  rw [visit, named]
  exact if_neg fresh

/-- What entering a call establishes, from what held before, a visit keeps;
and it does not fail. -/
theorem visit_keeps {invariant : σ × List ν → Prop} {root : κ}
    (enters : ∀ call state visited here, Calls children root call →
      key call = some here → here ∉ visited → invariant (state, visited) →
        ∃ next, enter call state = .ok next ∧
          invariant (next, here :: visited))
    {fuel : Nat} {call : κ} (called : Calls children root call)
    {reached : σ × List ν} (holds : invariant reached)
    {result : Except ε (σ × List ν)}
    (run : visit key enter children fuel call reached = some result) :
    ∃ final, result = .ok final ∧ invariant final := by
  induction fuel generalizing call reached result with
  | zero => cases run
  | succ fuel induction =>
      obtain ⟨state, visited⟩ := reached
      cases named : key call with
      | none =>
          rw [visit_succ_of_none named] at run
          exact ⟨_, (Option.some.inj run).symm, holds⟩
      | some here =>
          by_cases seen : here ∈ visited
          · rw [visit_succ_of_mem named seen] at run
            exact ⟨_, (Option.some.inj run).symm, holds⟩
          · obtain ⟨next, entered, kept⟩ :=
              enters call state visited here called named seen holds
            rw [visit_succ_of_notMem named seen, entered] at run
            refine visitAll_keeps (fun child member => ?_) kept run
            intro reached result holds run
            exact induction (called.tail member) holds run

/-- What a visit comes to: nothing, under a key that is absent or was visited,
or what the visits below it come to once it has entered its key. -/
theorem visit_cases {fuel : Nat} {call : κ} {reached final : σ × List ν}
    (run : visit key enter children (fuel + 1) call reached =
      some (.ok final)) :
    (final = reached ∧ ∀ here, key call = some here → here ∈ reached.2) ∨
      ∃ here next, key call = some here ∧ here ∉ reached.2 ∧
        visitAll (visit key enter children fuel) (children call)
          (next, here :: reached.2) = some (.ok final) := by
  obtain ⟨state, visited⟩ := reached
  cases named : key call with
  | none =>
      rw [visit_succ_of_none named] at run
      cases run
      refine .inl ⟨rfl, ?_⟩
      rintro here ⟨⟩
  | some here =>
      by_cases seen : here ∈ visited
      · rw [visit_succ_of_mem named seen] at run
        cases run
        refine .inl ⟨rfl, ?_⟩
        rintro _ ⟨⟩
        exact seen
      · rw [visit_succ_of_notMem named seen] at run
        cases entered : enter call state with
        | error error =>
            rw [entered] at run
            cases run
        | ok next =>
            rw [entered] at run
            exact .inr ⟨here, next, rfl, seen, run⟩

/-- A visit forgets nothing it visited. -/
theorem visit_grows {fuel : Nat} {call : κ} {reached final : σ × List ν}
    (run : visit key enter children fuel call reached = some (.ok final)) :
    reached.2 ⊆ final.2 := by
  induction fuel generalizing call reached final with
  | zero => cases run
  | succ fuel induction =>
      rcases visit_cases run with ⟨rfl, _⟩ | ⟨here, next, _, _, below⟩
      · exact fun _ member => member
      · have kept := visitAll_grows (fun _ _ _ _ run => induction run) below
        exact fun _ member => kept (List.mem_cons_of_mem _ member)

/-- A visit enters its call's key and covers what it entered. -/
theorem visit_covers (uniform : Uniform key children) {fuel : Nat} {call : κ}
    {reached final : σ × List ν}
    (run : visit key enter children fuel call reached = some (.ok final)) :
    Covered key children reached.2 final.2 ∧
      ∀ here, key call = some here → here ∈ final.2 := by
  induction fuel generalizing call reached final with
  | zero => cases run
  | succ fuel induction =>
      rcases visit_cases run with
        ⟨rfl, visited⟩ | ⟨here, next, named, seen, belowRun⟩
      · exact ⟨Covered.refl _, visited⟩
      · obtain ⟨⟨kept, closed⟩, below⟩ := visitAll_covers
          (fun _ _ _ _ run => induction run) belowRun
        have hereIn : here ∈ final.2 := kept List.mem_cons_self
        refine ⟨⟨fun _ member => kept (List.mem_cons_of_mem _ member), ?_⟩, ?_⟩
        · intro other member fresh there belowOther
          by_cases same : other = here
          · subst same
            obtain ⟨caller, child, callerKey, member, childKey⟩ := belowOther
            -- another call with this key has the same keys below it
            obtain ⟨twin, twinMember, twinKey⟩ := uniform caller call
              (by rw [callerKey]; exact Option.some_ne_none _)
              (callerKey.trans named.symm) child member
            exact below twin twinMember there (twinKey.trans childKey)
          · exact closed other member
              (List.not_mem_cons_of_ne_of_not_mem same fresh) there belowOther
        · intro other otherNamed
          obtain rfl := Option.some.inj (named.symm.trans otherNamed)
          exact hereIn

/-- More fuel changes nothing. -/
theorem visit_mono {fuel more : Nat} (le : fuel ≤ more) {call : κ}
    {reached : σ × List ν} {result : Except ε (σ × List ν)}
    (run : visit key enter children fuel call reached = some result) :
    visit key enter children more call reached = some result := by
  induction fuel generalizing more call reached result with
  | zero => cases run
  | succ fuel induction =>
      obtain ⟨more, rfl⟩ : ∃ less, more = less + 1 :=
        ⟨more - 1, by omega⟩
      obtain ⟨state, visited⟩ := reached
      cases named : key call with
      | none =>
          rw [visit_succ_of_none named] at run ⊢
          exact run
      | some here =>
          by_cases seen : here ∈ visited
          · rw [visit_succ_of_mem named seen] at run ⊢
            exact run
          · rw [visit_succ_of_notMem named seen] at run ⊢
            cases entered : enter call state with
            | error error =>
                rw [entered] at run
                exact run
            | ok next =>
                rw [entered] at run
                exact visitAll_mono
                  (fun _ _ _ _ => induction (Nat.le_of_succ_le_succ le)) run

/-- Entering a key leaves fewer to enter. -/
theorem card_unvisited_lt [Fintype ν] {here : ν} {visited later : List ν}
    (fresh : here ∉ visited) (kept : here :: visited ⊆ later) :
    (Finset.univ \ later.toFinset).card <
      (Finset.univ \ visited.toFinset).card := by
  refine Finset.card_lt_card (Finset.ssubset_iff_of_subset ?_ |>.mpr ?_)
  · intro other left
    simp only [Finset.mem_sdiff, Finset.mem_univ, true_and,
      List.mem_toFinset] at left ⊢
    exact fun member => left (kept (List.mem_cons_of_mem _ member))
  · refine ⟨here, ?_, ?_⟩
    · simpa using fresh
    · simpa using kept List.mem_cons_self

/-- With more fuel than keys left to enter, a visit ends. -/
theorem visit_isSome [Fintype ν] {fuel : Nat} {call : κ}
    {reached : σ × List ν}
    (enough : (Finset.univ \ reached.2.toFinset).card < fuel) :
    (visit key enter children fuel call reached).isSome := by
  induction fuel generalizing call reached with
  | zero => exact absurd enough (Nat.not_lt_zero _)
  | succ fuel induction =>
      obtain ⟨state, visited⟩ := reached
      cases named : key call with
      | none =>
          rw [visit_succ_of_none named]
          rfl
      | some here =>
          by_cases seen : here ∈ visited
          · rw [visit_succ_of_mem named seen]
            rfl
          · rw [visit_succ_of_notMem named seen]
            cases enter call state with
            | error error => rfl
            | ok next =>
                have ends : ∀ child ∈ children call,
                    ∀ reached : σ × List ν, here :: visited ⊆ reached.2 →
                      (visit key enter children fuel child reached).isSome := by
                  intro child _ reached later
                  have fewer := card_unvisited_lt seen later
                  exact induction
                    (Nat.lt_of_lt_of_le fewer (Nat.le_of_lt_succ enough))
                exact visitAll_isSome ends (fun _ _ _ run => visit_grows run)
                  (fun _ member => member)

/-- Visits under keys that tell the same calls apart come to the same. -/
theorem visit_alike {ν' : Type y} [DecidableEq ν'] {key' : κ → Option ν'}
    {met : κ → Prop} (sameKeys : SameKeys key key' met)
    (closed : ∀ call, met call → ∀ child ∈ children call, met child)
    (fuel : Nat) {call : κ} (isMet : met call) (state : σ) {visited : List ν}
    {visited' : List ν'} (same : SameVisited key key' met visited visited') :
    Alike key key' met (visit key enter children fuel call (state, visited))
      (visit key' enter children fuel call (state, visited')) := by
  induction fuel generalizing call state visited visited' with
  | zero => exact .cut
  | succ fuel induction =>
      obtain ⟨some_, some_'⟩ := sameKeys.named call isMet
      obtain ⟨here, named⟩ := Option.isSome_iff_exists.mp some_
      obtain ⟨here', named'⟩ := Option.isSome_iff_exists.mp some_'
      have both := same call here here' isMet named named'
      by_cases seen : here ∈ visited
      · rw [visit_succ_of_mem named seen, visit_succ_of_mem named'
          (both.mp seen)]
        exact .reached state same
      · rw [visit_succ_of_notMem named seen, visit_succ_of_notMem named'
          (fun seen' => seen (both.mpr seen'))]
        cases enter call state with
        | error error => exact .failed error
        | ok next =>
            refine visitAll_alike ?_ next
              (same.entering sameKeys isMet named named')
            intro child member state visited visited' same
            exact induction (closed call isMet child member) state same

end DepthFirst
