import Kitchen.Proofs.Transitions

namespace Kitchen.Engine

variable {s t : State} {action : Action} {events : List Event} {call c : CallId} {id : OrderId}
  {i : Nat} {report : Report} {order : Order}

-- In a list with one entry replaced stands the new one, or what stood there before.
theorem getElem?_set_cases {l : List α} {j : Nat} {a b : α} (found : (l.set i a)[j]? = some b) :
    j = i ∧ b = a ∨ j ≠ i ∧ l[j]? = some b := by
  rw [List.getElem?_set] at found
  split at found
  next same =>
    split at found
    · cases found
      exact .inl ⟨same.symm, rfl⟩
    · cases found
  next differ => exact .inr ⟨Ne.symm differ, found⟩

-- What is put at the end is none of those before.
theorem nodup_map_concat {f : α → β} {l : List α} {a : α} (apart : (l.map f).Nodup)
    (new : ∀ b ∈ l, f b ≠ f a) : ((l ++ [a]).map f).Nodup := by
  rw [List.map_append, List.nodup_append]
  refine ⟨apart, by simp, ?_⟩
  intro other earlier mine last same
  obtain ⟨b, member, rfl⟩ := List.mem_map.mp earlier
  cases List.mem_singleton.mp last
  exact new b member same

-- What neither workers nor runners ever change.
structure Unmanned (s t : State) : Prop where
  running : t.running = s.running
  calls : t.calls = s.calls
  notes : t.notes = s.notes
  closed : t.board.closed = s.board.closed
  released : t.board.released = s.board.released
  next : t.board.nextOrder = s.board.nextOrder

theorem spread_unmanned (s : State) (order : Order) : Unmanned s (s.spread order).1 := by
  obtain ⟨queues, jobs, runners, spread⟩ := s.spread_frame order
  rw [spread]
  exact ⟨rfl, rfl, rfl, rfl, rfl, rfl⟩

theorem spread_workers (s : State) (order : Order) : (s.spread order).1.workers = s.workers := by
  obtain ⟨queues, jobs, runners, spread⟩ := s.spread_frame order
  rw [spread]

theorem spread_setWorker (s : State) (order : Order) (i : Nat) (worker : Worker) :
    ((s.spread order).1.setWorker i worker).workers = s.workers.set i worker := by
  rw [State.setWorker, spread_workers]

theorem spread_unassigned (s : State) (order : Order) :
    (s.spread order).1.board.unassigned = s.board.unassigned := by
  obtain ⟨queues, jobs, runners, spread⟩ := s.spread_frame order
  rw [spread]
  rfl

theorem spread_pending (s : State) (order : Order) :
    (s.spread order).1.board.pending = s.board.pending := by
  obtain ⟨queues, jobs, runners, spread⟩ := s.spread_frame order
  rw [spread]
  rfl

theorem spread_slots (s : State) (order : Order) : (s.spread order).1.board.slots =
    s.board.slots.modify order.id fun slot => { slot with state := .dispatched } := by
  obtain ⟨queues, jobs, runners, spread⟩ := s.spread_frame order
  rw [spread]
  rfl

theorem spread_results (s : State) (order : Order) : (s.spread order).1.results = s.results := by
  obtain ⟨queues, jobs, runners, spread⟩ := s.spread_frame order
  rw [spread]

theorem spread_buzzers (s : State) (order : Order) : (s.spread order).1.buzzers = s.buzzers := by
  obtain ⟨queues, jobs, runners, spread⟩ := s.spread_frame order
  rw [spread]

-- Spreading an order's jobs shows nothing but jobs that failed at once.
theorem spread_shows (s : State) (order : Order) (f : Event → Option α)
    (silent : ∀ job result, f (.jobResolved job result) = none) :
    (s.spread order).2.filterMap f = [] := by
  have all : ∀ (products : List String) (s : State) (position : Nat),
      (s.dispatchFrom order.id position products).2.filterMap f = [] := by
    intro products
    induction products with
    | nil => intro s position; rfl
    | cons product rest ih =>
      intro s position
      have first : (s.dispatchJob order.id position product).2.filterMap f = [] := by
        unfold State.dispatchJob
        split
        · rfl
        · rw [List.filterMap_cons, silent, List.filterMap_nil]
      rw [State.dispatchFrom, List.filterMap_append, first, ih, List.nil_append]
  exact all _ _ _

def Event.toClient : Event → Bool
  | .placed .. | .refused .. | .replied .. => true
  | _ => false

theorem spread_inside (s : State) (order : Order) :
    ∀ event ∈ (s.spread order).2, event.toClient = false := by
  have silent := spread_shows s order (fun event => if event.toClient then some event else none)
    fun _ _ => rfl
  intro event member
  have none := List.filterMap_eq_nil_iff.mp silent event member
  simpa using none

namespace WorkerMove

theorem inside (move : WorkerMove s i report old action t events) :
    ∀ event ∈ events, event.toClient = false := by
  cases move with
  | dispatch =>
    intro event member
    rcases List.mem_append.mp member with spread | last
    · exact spread_inside s _ event spread
    · cases List.mem_singleton.mp last
      rfl
  | _ => simp [Event.toClient]

-- What a worker does is its own step, the end of its wait for a client or of a station's look at what
-- came back.
theorem own (move : WorkerMove s i report old action t events) : action = .worker i ∨
    action = .pickupTimeout i ∨ ∃ outcome, action = .returned i outcome := by
  cases move with
  | collected due => exact due.imp (·.1) .inl
  | expired due => exact due.imp (·.1) .inl
  | accepted | refused | crash => exact .inr (.inr ⟨_, rfl⟩)
  | _ => exact .inl rfl

theorem unmanned (move : WorkerMove s i report old action t events) : Unmanned s t := by
  cases move with
  | dispatch =>
    obtain ⟨running, calls, notes, closed, released, next⟩ := spread_unmanned s _
    exact ⟨running, calls, notes, closed, released, next⟩
  | _ => exact ⟨rfl, rfl, rfl, rfl, rfl, rfl⟩

theorem workers (move : WorkerMove s i report old action t events) :
    ∃ worker, t.workers = s.workers.set i worker := by
  cases move with
  | dispatch => exact ⟨_, spread_setWorker ..⟩
  | _ => exact ⟨_, rfl⟩

end WorkerMove

namespace RunnerMove

theorem inside {calls : Nat} (move : RunnerMove s i station out calls old action t events) :
    ∀ event ∈ events, event.toClient = false := by
  cases move with
  | handOver =>
    intro event member
    rcases List.mem_cons.mp member with rfl | dropped
    · rfl
    · split at dropped
      · cases dropped
      · cases List.mem_singleton.mp dropped
        rfl
  | _ => simp [Event.toClient]

theorem unmanned {calls : Nat} (move : RunnerMove s i station out calls old action t events) :
    Unmanned s t := by
  cases move <;> exact ⟨rfl, rfl, rfl, rfl, rfl, rfl⟩

theorem workers {calls : Nat} (move : RunnerMove s i station out calls old action t events) :
    t.workers = s.workers ∧ t.board.unassigned = s.board.unassigned ∧
      t.board.pending = s.board.pending ∧ t.board.slots = s.board.slots ∧
      t.buzzers = s.buzzers ∧ t.results = s.results := by
  cases move <;> exact ⟨rfl, rfl, rfl, rfl, rfl, rfl⟩

theorem runners {calls : Nat} (move : RunnerMove s i station out calls old action t events) :
    ∃ runner, t.runners = s.runners.set i runner ∧ runner.station = station := by
  cases move <;> exact ⟨_, rfl, rfl⟩

end RunnerMove

namespace PagerMove

-- A pager call touches only buzzers, notes and itself.
theorem frame (move : PagerMove s call id use phase t events) :
    t.board = s.board ∧ t.workers = s.workers ∧ t.runners = s.runners ∧ t.jobs = s.jobs ∧
      t.results = s.results ∧ t.running = s.running := by
  cases move with
  | known => cases use <;> exact ⟨rfl, rfl, rfl, rfl, rfl, rfl⟩
  | silent => cases use <;> exact ⟨rfl, rfl, rfl, rfl, rfl, rfl⟩
  | @note readiness =>
    have noted : (s.note id readiness).board = s.board ∧
        (s.note id readiness).workers = s.workers ∧ (s.note id readiness).runners = s.runners ∧
        (s.note id readiness).jobs = s.jobs ∧ (s.note id readiness).results = s.results ∧
        (s.note id readiness).running = s.running := by
      unfold State.note
      split <;> exact ⟨rfl, rfl, rfl, rfl, rfl, rfl⟩
    cases use <;> exact noted
  | _ => exact ⟨rfl, rfl, rfl, rfl, rfl, rfl⟩

theorem calls (move : PagerMove s call id use phase t events) :
    (∃ later, t.calls = s.calls.insert call (.pager id use later)) ∨
      t.calls = s.calls.erase call := by
  cases move with
  | known => cases use <;> first | exact .inr rfl | exact .inl ⟨_, rfl⟩
  | silent => cases use <;> first | exact .inr rfl | exact .inl ⟨_, rfl⟩
  | @note readiness =>
    have noted : (s.note id readiness).calls = s.calls := by
      unfold State.note
      split <;> rfl
    rw [← noted]
    cases use <;> first | exact .inr rfl | exact .inl ⟨_, rfl⟩
  | read => exact .inr rfl
  | _ => exact .inl ⟨_, rfl⟩

theorem answers (move : PagerMove s call id use phase t events) : events = [] ∨
    (∃ value, events = [.replied call (.flag value)]) ∨
    (∃ value, events = [.replied call (.readiness value)]) ∨ events = [.replied call .done] := by
  cases move with
  | known | note | silent =>
    cases use <;>
      first | exact .inl rfl | exact .inr (.inl ⟨_, rfl⟩) | exact .inr (.inr (.inr rfl))
  | read => exact .inr (.inr (.inl ⟨_, rfl⟩))
  | _ => exact .inl rfl

end PagerMove

theorem calls_insert {target state : Call} (before : s.calls.get? call ≠ some target)
    (calls : t.calls = s.calls.insert call state) (after : state ≠ target) (c : CallId) :
    t.calls.get? c = some target ↔ s.calls.get? c = some target := by
  rw [calls, Table.get?_insert]
  split
  next same =>
    subst same
    exact ⟨fun found => absurd (Option.some.inj found) after, fun found => absurd found before⟩
  next => rfl

theorem calls_erase {target : Call} (before : s.calls.get? call ≠ some target)
    (calls : t.calls = s.calls.erase call) (c : CallId) :
    t.calls.get? c = some target ↔ s.calls.get? c = some target := by
  rw [calls, Table.get?_erase]
  split
  next same =>
    subst same
    exact ⟨by simp, fun found => absurd found before⟩
  next => rfl

namespace ShutdownMove

theorem frame (move : ShutdownMove s call stage t events) :
    t.board.nextOrder = s.board.nextOrder ∧ t.board.unassigned = s.board.unassigned ∧
      t.board.pending = s.board.pending ∧ t.board.queues = s.board.queues ∧
      t.board.slots = s.board.slots ∧ t.jobs = s.jobs ∧ t.buzzers = s.buzzers ∧
      t.results = s.results ∧ t.notes = s.notes ∧ t.running = s.running := by
  cases move <;> exact ⟨rfl, rfl, rfl, rfl, rfl, rfl, rfl, rfl, rfl, rfl⟩

theorem calls (move : ShutdownMove s call stage t events) :
    (∃ later, t.calls = s.calls.insert call (.shutdown later)) ∨
      t.calls = s.calls.erase call := by
  cases move with
  | finish => exact .inr rfl
  | _ => exact .inl ⟨_, rfl⟩

end ShutdownMove

def Action.ofClient : Action → Bool
  | .order _ _ | .collect _ _ | .shutdown _ | .pager _ _ _ | .client _ | .waitTimeout _ => true
  | _ => false

-- What a client does is a move of the client, or of its call of `shutdown`.
theorem Transition.ofClient (own : action.ofClient = true) (step : Transition s action t events) :
    ClientMove s action t events ∨ ∃ call stage, action = .client call ∧
      s.calls.get? call = some (.shutdown stage) ∧ ShutdownMove s call stage t events := by
  cases step with
  | worker _ move => rcases move.own with rfl | rfl | ⟨_, rfl⟩ <;> cases own
  | runner _ move => cases move <;> cases own
  | client move => exact .inl move
  | shutdown here move => exact .inr ⟨_, _, rfl, here, move⟩

end Kitchen.Engine
