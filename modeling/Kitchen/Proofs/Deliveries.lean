import Kitchen.Proofs.Collectors
import Kitchen.Proofs.Products

-- What clients get and what stations get back: no order is delivered twice, and what a run shows of
-- meals and of products given back is all that was delivered and given back.

namespace Kitchen.Engine

variable {s t : State} {action : Action} {actions : List Action} {events more : List Event}
  {call c : CallId} {id : OrderId} {i : Nat} {report : Report} {order : Order}
  {phase old : WorkerPhase} {was : RunnerPhase} {stations : List String}
  {meals : List (CallId × OrderId × List Item)}

def Emptied (s : State) (id : OrderId) : Prop :=
  ∃ heard, s.results.get? id = some ⟨.closed, heard⟩

namespace Emptied

theorem same (emptied : Emptied s id) (results : t.results = s.results) : Emptied t id := by
  rw [Emptied, results]
  exact emptied

theorem modify (emptied : Emptied s id) (results : t.results = s.results.modify changed change)
    (still : ∀ heard, change ⟨.closed, heard⟩ = ⟨.closed, heard⟩) : Emptied t id := by
  obtain ⟨heard, found⟩ := emptied
  refine ⟨heard, ?_⟩
  rw [results, Table.get?_modify]
  split
  · rw [found, Option.map_some, still]
  · exact found

theorem accept (emptied : Emptied s id) (orders : Orders s)
    (results : t.results = s.results.insert s.board.nextOrder .fresh) : Emptied t id := by
  obtain ⟨heard, found⟩ := emptied
  refine ⟨heard, ?_⟩
  rw [results, Table.get?_insert_of_ne]
  · exact found
  · rintro rfl
    have blank := congrArg View.result (orders.unknown _ (Nat.le_refl _))
    rw [State.view, found] at blank
    cases blank

theorem step (emptied : Emptied s id) (orders : Orders s) (step : Transition s action t events) :
    Emptied t id := by
  cases step with
  | worker _ move =>
    cases move with
    | dispatch => exact emptied.same (spread_results ..)
    | tell | deliver | crash => exact emptied.modify rfl fun _ => rfl
    | _ => exact emptied.same rfl
  | runner _ move => exact emptied.same move.workers.2.2.2.2.2
  | client move =>
    cases move with
    | place | placeWaking => exact emptied.accept orders rfl
    | getResult | getNothing =>
      obtain ⟨heard, found⟩ := emptied
      change ∃ heard, (s.results.insert _ _).get? id = _
      rw [Table.get?_insert]
      split
      · exact ⟨_, rfl⟩
      · exact ⟨heard, found⟩
    | usePager _ move => exact emptied.same move.frame.2.2.2.2.1
    | _ => exact emptied.same rfl
  | shutdown _ move => exact emptied.same move.frame.2.2.2.2.2.2.2.1

end Emptied

-- No order was delivered twice, and the signals of those that were are empty.
structure Delivered (meals : List (CallId × OrderId × List Item)) (s : State) : Prop where
  apart : (meals.map (·.2.1)).Nodup
  emptied : ∀ meal ∈ meals, Emptied s meal.2.1

theorem delivers_of (delivers : (call, id, items) ∈ s.delivers action) :
    action = .client call ∧ s.calls.get? call = some (.collecting id) ∧
      ∃ heard, s.results.get? id = some ⟨.holding (.meal items), heard⟩ := by
  unfold State.delivers at delivers
  split at delivers
  · split at delivers
    next here =>
      split at delivers
      next found =>
        cases List.mem_singleton.mp delivers
        exact ⟨rfl, here, _, found⟩
      next => cases delivers
    next => cases delivers
  · cases delivers

theorem delivers_short (s : State) (action : Action) :
    s.delivers action = [] ∨ ∃ meal, s.delivers action = [meal] := by
  unfold State.delivers
  split
  · split
    · split
      · exact .inr ⟨_, rfl⟩
      · exact .inl rfl
    · exact .inl rfl
  · exact .inl rfl

theorem emptied_of_delivers (delivers : (call, id, items) ∈ s.delivers action)
    (ran : s.step action = some (t, events)) : Emptied t id := by
  obtain ⟨rfl, here, heard, found⟩ := delivers_of delivers
  simp only [State.step, State.stepCall, here, State.receiveResult, found, Signal.wait?, Signal.take,
    Option.map_some, Option.some.injEq] at ran
  cases ran
  exact ⟨heard, Table.get?_insert_self ..⟩

theorem Delivered.next (delivered : Delivered meals s) (orders : Orders s)
    (ran : s.step action = some (t, events)) : Delivered (meals ++ s.delivers action) t := by
  refine ⟨?_, ?_⟩
  · rcases delivers_short s action with none | ⟨⟨call, id, items⟩, one⟩
    · rw [none, List.append_nil]
      exact delivered.apart
    · rw [one]
      apply nodup_map_concat delivered.apart
      intro meal member same
      obtain ⟨heard, empty⟩ := delivered.emptied meal member
      have last : (call, id, items) ∈ s.delivers action := by
        rw [one]
        exact .head _
      obtain ⟨_, _, _, full⟩ := delivers_of last
      rw [same, full] at empty
      cases empty
  · intro meal member
    rcases List.mem_append.mp member with earlier | new
    · exact (delivered.emptied meal earlier).step orders (transition_of_step ran)
    · exact emptied_of_delivers new ran

theorem Delivered.run (orders : Orders s) (run : Run s actions events t) :
    Delivered (s.deliveries actions) t := by
  induction run with
  | start => exact ⟨List.nodup_nil, by simp [State.deliveries, along]⟩
  | next before ran ih =>
    rw [deliveries_next before]
    exact ih.next (orders.run before) ran

-- Whoever waits for a result has begun a call to collect it.
def Asked (actions : List Action) (s : State) : Prop :=
  ∀ call id, s.calls.get? call = some (.collecting id) → .collect call id ∈ actions

theorem collecting_of_step (step : Transition s action t events)
    (here : t.calls.get? call = some (.collecting id)) :
    s.calls.get? call = some (.collecting id) ∨ action = .collect call id := by
  have insert : ∀ {c : CallId} {state : Call}, t.calls = s.calls.insert c state →
      (∀ id, state ≠ .collecting id) → s.calls.get? call = some (.collecting id) := by
    intro c state calls other
    rw [calls, Table.get?_insert] at here
    split at here
    · exact absurd (Option.some.inj here) (other id)
    · exact here
  have erase : ∀ {c : CallId}, t.calls = s.calls.erase c →
      s.calls.get? call = some (.collecting id) := by
    intro c calls
    rw [calls, Table.get?_erase] at here
    split at here
    · cases here
    · exact here
  have begin : ∀ {c : CallId} {other : OrderId}, t.calls = s.calls.insert c (.collecting other) →
      s.calls.get? call = some (.collecting id) ∨ Action.collect c other = .collect call id := by
    intro c other calls
    rw [calls, Table.get?_insert] at here
    split at here
    next same =>
      cases here
      exact .inr (by rw [same])
    next => exact .inl here
  cases step with
  | worker _ move | runner _ move =>
    rw [move.unmanned.calls] at here
    exact .inl here
  | client move =>
    cases move with
    | collectUnknown | collectEarly | waitOver | shutdownAgain | getResult | getNothing =>
      exact .inl (erase rfl)
    | collectReady | collectEnded => exact begin rfl
    | takePager | shutdown => exact .inl (insert rfl (by simp))
    | usePager _ move =>
      rcases move.calls with ⟨later, calls⟩ | calls
      · exact .inl (insert calls (by simp))
      · exact .inl (erase calls)
    | _ => exact .inl here
  | shutdown _ move =>
    rcases move.calls with ⟨later, calls⟩ | calls
    · exact .inl (insert calls (by simp))
    · exact .inl (erase calls)

theorem Asked.run (run : Run (.opened stations workers) actions events t) : Asked actions t := by
  induction run with
  | start => simp [Asked, State.opened]
  | next before ran ih =>
    intro call id here
    rcases collecting_of_step (transition_of_step ran) here with there | rfl
    · exact List.mem_append_left _ (ih call id there)
    · exact List.mem_append_right _ (List.mem_singleton_self _)

theorem asked_of_delivered (run : Run (.opened stations workers) actions events t)
    (delivered : (call, id, items) ∈ (State.opened stations workers).deliveries actions) :
    .collect call id ∈ actions := by
  induction run with
  | start => cases delivered
  | next before ran ih =>
    rw [deliveries_next before] at delivered
    rcases List.mem_append.mp delivered with earlier | new
    · exact List.mem_append_left _ (ih earlier)
    · obtain ⟨_, here, _⟩ := delivers_of new
      exact List.mem_append_left _ (Asked.run before call id here)

def Event.meal? : Event → Option (CallId × List Item)
  | .replied call (.collected (.meal items)) => some (call, items)
  | _ => none

def Event.returned? : Event → Option (String × Item)
  | .called station (.acceptReturn item) => some (station, item)
  | _ => none

def Event.foodless (event : Event) : Bool := event.meal?.isNone && event.returned?.isNone

-- What is shown of meals and of products given back is what was delivered and given back.
def Shows (s : State) (action : Action) (events : List Event) : Prop :=
  events.filterMap Event.meal? = (s.delivers action).map (fun meal => (meal.1, meal.2.2)) ∧
    events.filterMap Event.returned? = (s.givesBack action).map fun ware => (ware.2.maker, ware.2)

theorem shows_nothing (delivers : s.delivers action = []) (givesBack : s.givesBack action = [])
    (foodless : events.all Event.foodless = true) : Shows s action events := by
  have each : ∀ event ∈ events, event.meal? = none ∧ event.returned? = none := by
    intro event member
    have none := List.all_eq_true.mp foodless event member
    simpa only [Event.foodless, Bool.and_eq_true, Option.isNone_iff_eq_none] using none
  rw [Shows, delivers, givesBack]
  exact ⟨List.filterMap_eq_nil_iff.mpr fun event member => (each event member).1,
    List.filterMap_eq_nil_iff.mpr fun event member => (each event member).2⟩

theorem pager_foodless (move : PagerMove s call id use stage t events) :
    events.all Event.foodless = true := by
  rcases move.answers with rfl | ⟨_, rfl⟩ | ⟨_, rfl⟩ | rfl <;> rfl

theorem worker_shows (trays : Trays stations s) (stock : Stock stations s)
    (here : s.workers[i]? = some ⟨old, report⟩)
    (move : WorkerMove s i report old action t events) : Shows s action events := by
  have idle := givesBack_idle here move
  have still := (worker_idle move).2
  cases move with
  | claim seeks | leave seeks | rest seeks =>
    exact shows_nothing still (idle (by rintro _ _ _ _ rfl; cases seeks)) rfl
  | @dispatch order =>
    have known := stock.held _ (List.mem_of_getElem? here) order rfl
    rw [(spread_spread stock known).1]
    exact shows_nothing still (idle (by simp)) rfl
  | handBack known =>
    have maker := (trays i _ (State.phases_of here) _ (List.mem_cons_self ..)).1
    dsimp only at maker
    refine ⟨by rw [still]; rfl, ?_⟩
    simp only [State.givesBack, here, known, if_true, List.map_cons, List.map_nil, maker]
    rfl
  | skip unknown =>
    exact shows_nothing still (by simp [State.givesBack, here, unknown]) rfl
  | _ => exact shows_nothing still (idle (by simp)) rfl

theorem client_shows {heard : Bool} (waits : s.calls.get? call = some (.collecting id))
    (filled : s.results.get? id = some ⟨.holding outcome, heard⟩) :
    Shows s (.client call) [.replied call (.collected outcome)] := by
  refine ⟨?_, rfl⟩
  simp only [State.delivers, waits, filled]
  cases outcome <;> rfl

theorem Transition.shows (step : Transition s action t events) (trays : Trays stations s)
    (stock : Stock stations s) : Shows s action events := by
  cases step with
  | worker here move => exact worker_shows trays stock here move
  | runner _ move =>
    obtain ⟨delivers, givesBack⟩ := runner_idle move
    cases move with
    | handOver =>
      refine shows_nothing delivers givesBack ?_
      rw [List.all_cons]
      split <;> rfl
    | _ => exact shows_nothing delivers givesBack rfl
  | client move =>
    cases move with
    | getResult waits filled => exact client_shows waits filled
    | getNothing waits empty =>
      refine shows_nothing ?_ rfl rfl
      simp only [State.delivers, waits, empty]
    | usePager here move =>
      refine shows_nothing ?_ rfl (pager_foodless move)
      simp only [State.delivers, here]
    | _ => exact shows_nothing rfl rfl rfl
  | shutdown here move =>
    refine shows_nothing ?_ rfl ?_
    · simp only [State.delivers, here]
    · cases move with
      | joinRunner _ ended => rcases ended with ⟨_, rfl⟩ | ⟨_, rfl⟩ <;> rfl
      | _ => rfl

end Kitchen.Engine
