import NanoRos.Foundation.Entries
import NanoRos.Foundation.PartialRun
import NanoRos.ThreadSafeQueue

/-!
# Runs of the queue

Any number of threads use a `ThreadSafeQueue`; one event is one critical
section.  A call of `wait_and_pop` that waits is seen again, as another event,
when it has woken up.
-/

namespace NanoRos

open PartialRun

universe u

inductive QueueEvent (α : Type u) where
  | push (item : α)
  | size
  | waitAndPop
  | stop

/-- The queue, what was pushed, and what calls of `wait_and_pop` returned. -/
structure QueueHistory (α : Type u) where
  queue : ThreadSafeQueue α
  pushed : List α
  popped : List α

namespace QueueHistory

variable {α : Type u}

def initial : QueueHistory α :=
  { queue := .empty, pushed := [], popped := [] }

/-- One critical section.  There is no state after the front of an empty deque
was taken. -/
def step (history : QueueHistory α) :
    QueueEvent α → Option (QueueHistory α)
  | .push item =>
      some
        { history with
          queue := history.queue.push item
          pushed := history.pushed ++ [item] }
  | .size => some history
  | .waitAndPop =>
      match history.queue.waitAndPop with
      | .waits => some history
      | .item item queue =>
          some { history with queue, popped := history.popped ++ [item] }
      | .frontOfEmpty => none
  | .stop => some { history with queue := history.queue.stop }

/-- Where in `pushed` the front of the queue is. -/
def oldest (history : QueueHistory α) : Nat :=
  history.pushed.length - history.queue.size

/-- The item pushed as number `place` was the oldest one when a push of this
run met a full queue. -/
def Evicted (events : List (QueueEvent α)) (place : Nat) : Prop :=
  ∃ before item after history, events = before ++ .push item :: after ∧
    exec step initial before = some history ∧
      history.queue.size = maxQueueSize ∧ history.oldest = place

/-- The popped items and then the queued ones are, in order, those pushed at
some places; at the others the item was evicted. -/
structure KeepsOrder (events : List (QueueEvent α))
    (history : QueueHistory α) (places : List Nat) : Prop where
  ordered : places.Pairwise (· < ·)
  kept : (history.popped ++ history.queue.items).map some =
    places.map (history.pushed[·]?)
  evicted : ∀ place < history.pushed.length, place ∉ places →
    Evicted events place

/-! ## What one step can do -/

/-- What a critical section does. -/
inductive Step (before : QueueHistory α) :
    QueueEvent α → QueueHistory α → Prop
  | appended (item : α) (room : before.queue.size < maxQueueSize)
      {after : QueueHistory α}
      (items : after.queue.items = before.queue.items ++ [item])
      (pushed : after.pushed = before.pushed ++ [item])
      (popped : after.popped = before.popped) :
      Step before (.push item) after
  | displaced (item front : α) (rest : List α)
      (full : before.queue.size = maxQueueSize)
      (queued : before.queue.items = front :: rest)
      {after : QueueHistory α} (items : after.queue.items = rest ++ [item])
      (pushed : after.pushed = before.pushed ++ [item])
      (popped : after.popped = before.popped) :
      Step before (.push item) after
  | taken (item : α) {after : QueueHistory α}
      (items : before.queue.items = item :: after.queue.items)
      (pushed : after.pushed = before.pushed)
      (popped : after.popped = before.popped ++ [item]) :
      Step before .waitAndPop after
  | unchanged {event : QueueEvent α} {after : QueueHistory α}
      (items : after.queue.items = before.queue.items)
      (pushed : after.pushed = before.pushed)
      (popped : after.popped = before.popped) :
      Step before event after

theorem step_cases {before after : QueueHistory α} {event : QueueEvent α}
    (stepped : before.step event = some after) : Step before event after := by
  cases event with
  | push item =>
      cases stepped
      have limit := before.queue.length_le
      by_cases full : before.queue.items.length ≥ maxQueueSize
      · have size : before.queue.size = maxQueueSize :=
          Nat.le_antisymm limit full
        cases queued : before.queue.items with
        | nil =>
            have positive : 0 < maxQueueSize := by decide
            rw [queued] at full
            exact absurd full (Nat.not_le_of_lt positive)
        | cons front rest =>
            refine .displaced item front rest size queued ?_ rfl rfl
            simp only [ThreadSafeQueue.push, if_pos full]
            rw [queued, List.tail_cons]
      · refine .appended item (Nat.lt_of_not_le full) ?_ rfl rfl
        simp only [ThreadSafeQueue.push, if_neg full]
  | size =>
      cases stepped
      exact .unchanged rfl rfl rfl
  | stop =>
      cases stepped
      exact .unchanged rfl rfl rfl
  | waitAndPop =>
      obtain ⟨⟨items, stopping, length_le⟩, pushed, popped⟩ := before
      cases items with
      | nil =>
          cases stopping with
          | false =>
              cases stepped
              exact .unchanged rfl rfl rfl
          | true => cases stepped
      | cons item items =>
          cases stepped
          exact .taken item rfl rfl rfl

/-! ## Order -/

/-- The queue holds what was pushed last; what came before was popped, in
order, or evicted. -/
structure Ordered (events : List (QueueEvent α)) (history : QueueHistory α)
    (places : List Nat) : Prop where
  reached : exec step initial events = some history
  window : history.queue.items <:+ history.pushed
  ordered : places.Pairwise (· < ·)
  before : ∀ place ∈ places, place < history.oldest
  popped : history.popped.map some = places.map (history.pushed[·]?)
  evicted : ∀ place < history.oldest, place ∉ places → Evicted events place

theorem Evicted.later {events : List (QueueEvent α)} {place : Nat}
    (evicted : Evicted events place) (event : QueueEvent α) :
    Evicted (events ++ [event]) place := by
  obtain ⟨before, item, after, history, split, rest⟩ := evicted
  refine ⟨before, item, after ++ [event], history, ?_, rest⟩
  rw [split, List.append_assoc, List.cons_append]

/-- What is pushed does not move what was. -/
theorem getElem?_pushed {pushed : List α} {places : List Nat}
    (inside : ∀ place ∈ places, place < pushed.length) (item : α) :
    places.map ((pushed ++ [item])[·]?) = places.map (pushed[·]?) := by
  apply List.map_congr_left
  intro place member
  exact List.getElem?_append_left (inside place member)

theorem Ordered.inside {events : List (QueueEvent α)}
    {history : QueueHistory α} {places : List Nat}
    (ordered : Ordered events history places) :
    ∀ place ∈ places, place < history.pushed.length := by
  intro place member
  have before := ordered.before place member
  rw [oldest] at before
  omega

theorem ordered_initial : Ordered ([] : List (QueueEvent α)) initial [] where
  reached := rfl
  window := List.suffix_refl []
  ordered := .nil
  before := by simp
  popped := rfl
  evicted := by
    intro place inside
    exact absurd inside (Nat.not_lt_zero place)

theorem Ordered.reached_step {past : List (QueueEvent α)}
    {history next : QueueHistory α} {places : List Nat}
    (ordered : Ordered past history places) {event : QueueEvent α}
    (stepped : history.step event = some next) :
    exec step initial (past ++ [event]) = some next := by
  rw [exec_append, ordered.reached, Option.bind_some, exec_cons, stepped]
  rfl

/-- What is no longer in the queue was pushed before what is. -/
theorem Ordered.exists_gone {past : List (QueueEvent α)}
    {history : QueueHistory α} {places : List Nat}
    (ordered : Ordered past history places) :
    ∃ gone, gone ++ history.queue.items = history.pushed ∧
      history.oldest = gone.length := by
  obtain ⟨gone, window⟩ := ordered.window
  have total := congrArg List.length window
  rw [List.length_append] at total
  refine ⟨gone, window, ?_⟩
  rw [oldest, ThreadSafeQueue.size]
  omega

section Steps

variable {past : List (QueueEvent α)} {history next : QueueHistory α}
  {places : List Nat} {event : QueueEvent α}

theorem Ordered.unchanged (ordered : Ordered past history places)
    (reached : exec step initial (past ++ [event]) = some next)
    (items : next.queue.items = history.queue.items)
    (pushed : next.pushed = history.pushed)
    (popped : next.popped = history.popped) :
    Ordered (past ++ [event]) next places := by
  have same : next.oldest = history.oldest := by
    rw [oldest, oldest, ThreadSafeQueue.size, ThreadSafeQueue.size, items,
      pushed]
  refine ⟨reached, ?_, ordered.ordered, ?_, ?_, ?_⟩
  · rw [items, pushed]
    exact ordered.window
  · rw [same]
    exact ordered.before
  · rw [popped, pushed]
    exact ordered.popped
  · intro place below absent
    rw [same] at below
    exact (ordered.evicted place below absent).later event

theorem Ordered.appended (ordered : Ordered past history places)
    (reached : exec step initial (past ++ [event]) = some next) {item : α}
    (items : next.queue.items = history.queue.items ++ [item])
    (pushed : next.pushed = history.pushed ++ [item])
    (popped : next.popped = history.popped) :
    Ordered (past ++ [event]) next places := by
  have same : next.oldest = history.oldest := by
    rw [oldest, oldest, ThreadSafeQueue.size, ThreadSafeQueue.size, items,
      pushed, List.length_append, List.length_append]
    exact Nat.add_sub_add_right _ _ _
  obtain ⟨gone, window⟩ := ordered.window
  refine ⟨reached, ⟨gone, ?_⟩, ordered.ordered, ?_, ?_, ?_⟩
  · rw [items, pushed, ← window, List.append_assoc]
  · rw [same]
    exact ordered.before
  · rw [popped, pushed, getElem?_pushed ordered.inside]
    exact ordered.popped
  · intro place below absent
    rw [same] at below
    exact (ordered.evicted place below absent).later event

theorem Ordered.displaced {item : α} (ordered : Ordered past history places)
    (reached : exec step initial (past ++ [.push item]) = some next)
    {front : α} {rest : List α} (full : history.queue.size = maxQueueSize)
    (queued : history.queue.items = front :: rest)
    (items : next.queue.items = rest ++ [item])
    (pushed : next.pushed = history.pushed ++ [item])
    (popped : next.popped = history.popped) :
    Ordered (past ++ [.push item]) next places := by
  obtain ⟨gone, window, start⟩ := ordered.exists_gone
  rw [queued] at window
  have total := congrArg List.length window
  rw [List.length_append, List.length_cons] at total
  have later : next.oldest = gone.length + 1 := by
    rw [oldest, ThreadSafeQueue.size, items, pushed, List.length_append,
      List.length_append]
    omega
  refine ⟨reached, ⟨gone ++ [front], ?_⟩, ordered.ordered, ?_, ?_, ?_⟩
  · rw [items, pushed, ← window, List.append_assoc, List.append_assoc]
    rfl
  · intro place member
    have before := ordered.before place member
    omega
  · rw [popped, pushed, getElem?_pushed ordered.inside]
    exact ordered.popped
  · intro place below absent
    by_cases earlier : place < history.oldest
    · exact (ordered.evicted place earlier absent).later _
    -- the new gap is the front that this push has just removed
    · refine ⟨past, item, [], history, rfl, ordered.reached, full, ?_⟩
      omega

theorem Ordered.taken (ordered : Ordered past history places)
    (reached : exec step initial (past ++ [event]) = some next) {item : α}
    (items : history.queue.items = item :: next.queue.items)
    (pushed : next.pushed = history.pushed)
    (popped : next.popped = history.popped ++ [item]) :
    Ordered (past ++ [event]) next (places ++ [history.oldest]) := by
  obtain ⟨gone, window, start⟩ := ordered.exists_gone
  rw [items] at window
  have total := congrArg List.length window
  rw [List.length_append, List.length_cons] at total
  have later : next.oldest = gone.length + 1 := by
    rw [oldest, ThreadSafeQueue.size, pushed]
    omega
  refine ⟨reached, ⟨gone ++ [item], ?_⟩, ?_, ?_, ?_, ?_⟩
  · rw [pushed, ← window, List.append_assoc]
    rfl
  · refine List.pairwise_append.mpr
      ⟨ordered.ordered, List.pairwise_singleton _ _, ?_⟩
    intro place member last isLast
    rw [List.mem_singleton.mp isLast]
    exact ordered.before place member
  · intro place member
    rcases List.mem_append.mp member with old | new
    · have before := ordered.before place old
      omega
    · rw [List.mem_singleton.mp new]
      omega
  · have here : history.pushed[history.oldest]? = some item := by
      rw [start, ← window, List.getElem?_append_right (Nat.le_refl _),
        Nat.sub_self]
      rfl
    rw [popped, pushed, List.map_append, List.map_append, ordered.popped,
      List.map_singleton, List.map_singleton, here]
  · intro place below absent
    rw [List.mem_append, List.mem_singleton, not_or] at absent
    have earlier : place < history.oldest := by omega
    exact (ordered.evicted place earlier absent.1).later _

end Steps

/-- One critical section evicts, pops or adds an item, or none of these. -/
theorem ordered_step {past : List (QueueEvent α)}
    {history next : QueueHistory α} {places : List Nat}
    (ordered : Ordered past history places) {event : QueueEvent α}
    (stepped : history.step event = some next) :
    ∃ places, Ordered (past ++ [event]) next places := by
  have reached := ordered.reached_step stepped
  cases step_cases stepped with
  | unchanged items pushed popped =>
      exact ⟨places, ordered.unchanged reached items pushed popped⟩
  | appended item room items pushed popped =>
      exact ⟨places, ordered.appended reached items pushed popped⟩
  | displaced item front rest full queued items pushed popped =>
      exact ⟨places,
        ordered.displaced reached full queued items pushed popped⟩
  | taken item items pushed popped =>
      exact ⟨_, ordered.taken reached items pushed popped⟩

theorem ordered_exec {events : List (QueueEvent α)} {final : QueueHistory α}
    (run : exec step initial events = some final) :
    ∃ places, Ordered events final places := by
  have preserved (past : List (QueueEvent α)) (history : QueueHistory α)
      (event : QueueEvent α) (next : QueueHistory α)
      (ordered : ∃ places, Ordered past history places) (_ : True)
      (stepped : history.step event = some next) :
      ∃ places, Ordered (past ++ [event]) next places := by
    obtain ⟨places, ordered⟩ := ordered
    exact ordered_step ordered stepped
  exact exec_trace preserved [] ⟨[], ordered_initial⟩
    (along_of_forall (fun _ _ => trivial) _ _) run

theorem Ordered.keepsOrder {events : List (QueueEvent α)}
    {history : QueueHistory α} {places : List Nat}
    (ordered : Ordered events history places) :
    KeepsOrder events history
      (places ++ List.range' history.oldest history.queue.size) := by
  obtain ⟨gone, window⟩ := ordered.window
  have total := congrArg List.length window
  rw [List.length_append] at total
  have start : history.oldest = gone.length := by
    rw [oldest, ThreadSafeQueue.size]
    omega
  refine ⟨?_, ?_, ?_⟩
  · refine List.pairwise_append.mpr
      ⟨ordered.ordered, List.pairwise_lt_range', ?_⟩
    intro place member queued inQueue
    have before := ordered.before place member
    have after := (List.mem_range'_1.mp inQueue).1
    omega
  · have queued : history.queue.items.map some =
        (List.range' history.oldest history.queue.size).map
          (history.pushed[·]?) := by
      apply List.ext_getElem?
      intro index
      rw [List.getElem?_map, List.getElem?_map, start, ← window]
      by_cases inside : index < history.queue.size
      · rw [List.getElem?_range' inside, Nat.one_mul, Option.map_some,
          List.getElem?_append_right (Nat.le_add_right _ _),
          Nat.add_sub_cancel_left,
          List.getElem?_eq_getElem inside]
        rfl
      · have short := Nat.le_of_not_lt inside
        rw [List.getElem?_eq_none short,
          List.getElem?_eq_none (by rwa [List.length_range'])]
        rfl
    rw [List.map_append, List.map_append, ordered.popped, queued]
  · intro place inside absent
    rw [List.mem_append, List.mem_range'_1, not_or] at absent
    refine ordered.evicted place ?_ absent.1
    rw [ThreadSafeQueue.size] at absent
    omega

/-! ## Without stop -/

/-- The queue is not stopped if no event stops it. -/
theorem stopping_exec {events : List (QueueEvent α)} (stopless : .stop ∉ events)
    {history : QueueHistory α} (running : history.queue.stopping = false) :
    ∃ final, exec step history events = some final ∧
      final.queue.stopping = false := by
  induction events generalizing history with
  | nil => exact ⟨history, rfl, running⟩
  | cons event rest induction =>
      have others : .stop ∉ rest := fun member =>
        stopless (List.mem_cons_of_mem event member)
      have stepped : ∃ next, history.step event = some next ∧
          next.queue.stopping = false := by
        cases event with
        | push item => exact ⟨_, rfl, running⟩
        | size => exact ⟨_, rfl, running⟩
        | stop => exact absurd List.mem_cons_self stopless
        | waitAndPop =>
            obtain ⟨⟨items, stopping, length_le⟩, pushed, popped⟩ := history
            cases running
            cases items with
            | nil => exact ⟨_, rfl, rfl⟩
            | cons item items => exact ⟨_, rfl, rfl⟩
      obtain ⟨next, stepped, nextRunning⟩ := stepped
      obtain ⟨final, run, finalRunning⟩ := induction others nextRunning
      refine ⟨final, ?_, finalRunning⟩
      rw [exec_cons, stepped]
      exact run

/-- A queue that holds something has something for the next call, however
many items are pushed before it. -/
theorem pops_after_pushes {history : QueueHistory α}
    (some_ : 0 < history.queue.size) (items : List α) :
    ∃ later item queue, exec step history (items.map .push) = some later ∧
      later.queue.waitAndPop = .item item queue := by
  induction items generalizing history with
  | nil =>
      obtain ⟨⟨items, stopping, length_le⟩, pushed, popped⟩ := history
      cases items with
      | nil => exact absurd some_ (Nat.lt_irrefl 0)
      | cons item items => exact ⟨_, item, _, rfl, rfl⟩
  | cons item items induction =>
      apply induction
      simp only [ThreadSafeQueue.size, ThreadSafeQueue.push,
        List.length_append, List.length_singleton]
      exact Nat.succ_pos _

/-- Without `stop` every interleaving goes on, within the bound and in order;
what is missing was evicted as the oldest.  When `size` is positive, the next
`wait_and_pop` returns an item whatever is pushed in between. -/
theorem queue_keeps_order (events : List (QueueEvent α))
    (stopless : .stop ∉ events) :
    ∃ final, exec step initial events = some final ∧
      final.queue.size ≤ maxQueueSize ∧
      (∃ places, KeepsOrder events final places) ∧
      (0 < final.queue.size → ∀ between : List α, ∃ later item queue,
        exec step final (between.map .push) = some later ∧
          later.queue.waitAndPop = .item item queue) := by
  have running : (initial : QueueHistory α).queue.stopping = false := rfl
  obtain ⟨final, run, _⟩ := stopping_exec stopless running
  obtain ⟨places, ordered⟩ := ordered_exec run
  exact ⟨final, run, final.queue.length_le, ⟨_, ordered.keepsOrder⟩,
    pops_after_pushes⟩

/-- 101 pushes before the first pop. -/
def overrun : List (QueueEvent Nat) :=
  (List.range 101).map .push ++ [.size, .waitAndPop]

theorem queue_keeps_order_overrun :
    ∃ final, exec step initial overrun = some final ∧
      final.queue.size ≤ maxQueueSize ∧
      (∃ places, KeepsOrder overrun final places) ∧
      (0 < final.queue.size → ∀ between : List Nat, ∃ later item queue,
        exec step final (between.map .push) = some later ∧
          later.queue.waitAndPop = .item item queue) :=
  queue_keeps_order overrun (by simp [overrun])

/-! ## With stop -/

/-- Each call of `wait_and_pop` waits, or returns an item that was pushed
earlier and has not been popped. -/
def PopsSafely (events : List (QueueEvent α)) : Prop :=
  ∀ before after, events = before ++ .waitAndPop :: after →
    ∃ history, exec step initial before = some history ∧
      (history.queue.waitAndPop = .waits ∨
        ∃ item queue, history.queue.waitAndPop = .item item queue ∧
          (history.popped ++ [item]).Sublist history.pushed)

/-- A call of `wait_and_pop` finds an item, or has not been told to stop. -/
def Serves (history : QueueHistory α) : QueueEvent α → Prop
  | .waitAndPop =>
      history.queue.items ≠ [] ∨ history.queue.stopping = false
  | _ => True

theorem serves_iff (history : QueueHistory α) (event : QueueEvent α) :
    Serves history event ↔ history.step event ≠ none := by
  obtain ⟨⟨items, stopping, length_le⟩, pushed, popped⟩ := history
  cases event with
  | push item => simp [Serves, step]
  | size => simp [Serves, step]
  | stop => simp [Serves, step]
  | waitAndPop =>
      cases items with
      | nil =>
          cases stopping <;>
            simp [Serves, step, ThreadSafeQueue.waitAndPop]
      | cons item items =>
          simp [Serves, step, ThreadSafeQueue.waitAndPop]

/-- The calls are safe exactly when none of them runs on an empty queue after
`stop`. -/
theorem pops_safely_iff (events : List (QueueEvent α)) :
    PopsSafely events ↔ Along step Serves initial events := by
  have agree : Along step Serves initial events ↔
      Along step (fun history event => history.step event ≠ none)
        (initial : QueueHistory α) events := by
    apply along_iff (fun history event _ => serves_iff history event)
      (fun _ _ _ _ _ _ => trivial) trivial
  constructor
  · intro safe
    rw [along_iff_forall]
    intro before event after reached split run
    cases event with
    | push item => trivial
    | size => trivial
    | stop => trivial
    | waitAndPop =>
        obtain ⟨history, run', outcome⟩ := safe before after split
        cases run.symm.trans run'
        rw [serves_iff]
        rcases outcome with waits | ⟨item, queue, taken, _⟩
        · simp [step, waits]
        · simp [step, taken]
  · intro serves before after split
    rw [agree, ← exec_isSome_iff, split] at serves
    obtain ⟨final, run⟩ := serves
    rw [exec_append] at run
    obtain ⟨history, reached, run⟩ := Option.bind_eq_some_iff.mp run
    obtain ⟨next, stepped, _⟩ := exec_cons_eq_some run
    refine ⟨history, reached, ?_⟩
    cases outcome : history.queue.waitAndPop with
    | waits => exact .inl rfl
    | frontOfEmpty =>
        simp only [step, outcome] at stepped
        cases stepped
    | item item queue =>
        refine .inr ⟨item, queue, rfl, ?_⟩
        -- the item is still queued before the call
        obtain ⟨places, ordered⟩ := ordered_exec reached
        have keeps := ordered.keepsOrder
        have sublist := Entries.sublist_of_places keeps.ordered keeps.kept
        have front : [item].Sublist history.queue.items := by
          rw [ThreadSafeQueue.items_of_waitAndPop outcome]
          exact List.singleton_sublist.mpr List.mem_cons_self
        exact ((List.Sublist.refl _).append front).trans sublist

/-- A call of `wait_and_pop` after `stop`, on a queue that nothing was pushed
to. -/
theorem not_pops_safely :
    ¬PopsSafely ([.stop, .waitAndPop] : List (QueueEvent Nat)) := by
  intro safe
  obtain ⟨history, run, outcome⟩ := safe [.stop] [] rfl
  cases run
  rcases outcome with waits | ⟨item, queue, taken, _⟩
  · cases waits
  · cases taken

end QueueHistory

end NanoRos
