import Kitchen.Proofs.Outcomes

-- Who comes for an order. A meal that is on its way to the client, or will be, is awaited by
-- exactly one call.

namespace Kitchen.Engine

variable {s t : State} {action : Action} {actions : List Action} {events more : List Event}
  {call c : CallId} {id : OrderId} {i : Nat} {report : Report} {order : Order}
  {phase old : WorkerPhase} {was : RunnerPhase}

-- The order was picked up and its meal has not reached the client.
def Coming (s : State) (id : OrderId) : Prop :=
  s.board.orderState id = some .pickedUp ∨
  (∃ (i : Nat) (order : Order) (made : Tray),
    s.phases[i]? = some (.delivering order made) ∧ order.id = id) ∨
  ∃ (items : List Item) (heard : Bool), s.results.get? id = some ⟨.holding (.meal items), heard⟩

structure Collectors (s : State) : Prop where
  taken : ∀ call id, s.calls.get? call = some (.collecting id) → Taken s id
  alone : ∀ c d id, s.calls.get? c = some (.collecting id) →
    s.calls.get? d = some (.collecting id) → c = d
  comes : ∀ id, Coming s id → ∃ call, s.calls.get? call = some (.collecting id)

theorem pickedUp_modify (state : OrderState) (slots : t.board.slots = s.board.slots.modify changed
      fun slot => { slot with state }) (other : state ≠ .pickedUp)
    (still : t.board.orderState id = some .pickedUp) : s.board.orderState id = some .pickedUp := by
  rw [Board.orderState, slots, Table.get?_modify] at still
  split at still
  · cases found : s.board.slots.get? id with
    | none =>
      rw [found] at still
      cases still
    | some slot =>
      rw [found] at still
      exact absurd (Option.some.inj still) other
  · exact still

theorem pickedUp_erase (slots : t.board.slots = s.board.slots.erase changed)
    (still : t.board.orderState id = some .pickedUp) : s.board.orderState id = some .pickedUp := by
  rw [Board.orderState, slots, Table.get?_erase] at still
  split at still
  · cases still
  · exact still

namespace Coming

theorem back (coming : Coming t id)
    (slots : t.board.orderState id = some .pickedUp → s.board.orderState id = some .pickedUp)
    (crew : ∀ (i : Nat) (order : Order) (made : Tray), t.phases[i]? = some (.delivering order made) →
      order.id = id → Coming s id)
    (results : ∀ items heard, t.results.get? id = some ⟨.holding (.meal items), heard⟩ →
      Coming s id) : Coming s id := by
  rcases coming with picked | ⟨i, order, made, here, named⟩ | ⟨items, heard, found⟩
  · exact .inl (slots picked)
  · exact crew i order made here named
  · exact results items heard found

theorem set (coming : Coming t id)
    (slots : t.board.orderState id = some .pickedUp → s.board.orderState id = some .pickedUp)
    (crew : t.phases = s.phases.set i phase)
    (mine : ∀ order made, phase = .delivering order made → order.id = id → Coming s id)
    (results : ∀ items heard, t.results.get? id = some ⟨.holding (.meal items), heard⟩ →
      Coming s id) : Coming s id := by
  refine coming.back slots ?_ results
  intro j order made found named
  rcases getElem?_set_cases (crew ▸ found) with ⟨_, delivers⟩ | ⟨_, before⟩
  · exact mine order made delivers.symm named
  · exact .inr (.inl ⟨j, order, made, before, named⟩)

theorem map (coming : Coming t id)
    (slots : t.board.orderState id = some .pickedUp → s.board.orderState id = some .pickedUp)
    (f : WorkerPhase → WorkerPhase) (crew : t.phases = s.phases.map f)
    (only : ∀ phase order made, f phase = .delivering order made → phase = .delivering order made)
    (results : t.results = s.results) : Coming s id := by
  refine coming.back slots ?_ ?_
  · intro j order made found named
    rw [crew, List.getElem?_map, Option.map_eq_some_iff] at found
    obtain ⟨p, was, equal⟩ := found
    exact .inr (.inl ⟨j, order, made, only p order made equal ▸ was, named⟩)
  · rw [results]
    exact fun items heard found => .inr (.inr ⟨items, heard, found⟩)

theorem same (coming : Coming t id) (slots : t.board.slots = s.board.slots)
    (workers : t.workers = s.workers) (results : t.results = s.results) : Coming s id := by
  refine coming.map ?_ (fun phase => phase) ?_ (fun _ _ _ found => found) results
  · rw [Board.orderState, Board.orderState, slots]
    exact fun picked => picked
  · rw [State.phases, State.phases, workers, List.map_id']

theorem worker (orders : Orders s) (here : s.workers[i]? = some ⟨old, report⟩)
    (move : WorkerMove s i report old action t events) (coming : Coming t id) : Coming s id := by
  have place := State.phases_of here
  have stays : ∀ items heard, s.results.get? id = some ⟨.holding (.meal items), heard⟩ →
      Coming s id := fun items heard found => .inr (.inr ⟨items, heard, found⟩)
  cases move with
  | @dispatch order =>
    refine coming.set (pickedUp_modify .dispatched (spread_slots s order) (by simp))
      (State.phases_spread ..) (by simp) ?_
    change ∀ items heard, (s.spread order).1.results.get? id = _ → _
    rw [spread_results]
    exact stays
  | hold =>
    exact coming.set (pickedUp_modify .ready rfl (by simp)) (State.phases_setWorker ..) (by simp)
      stays
  | holdUnslotted =>
    refine coming.set ?_ (State.phases_setWorker ..) (by simp) stays
    intro still
    have before := pickedUp_modify (s := s.ready _) .expired rfl (by simp) still
    exact pickedUp_modify .ready rfl (by simp) before
  | fail =>
    exact coming.set (pickedUp_modify .failed rfl (by simp)) (State.phases_setWorker ..) (by simp)
      stays
  | expired =>
    exact coming.set (pickedUp_modify .expired rfl (by simp)) (State.phases_setWorker ..)
      (by simp) stays
  | collected _ came =>
    refine coming.set (pickedUp_erase rfl) (State.phases_setWorker ..) ?_ stays
    intro order made equal named
    cases equal
    exact .inl (named ▸ came)
  | @tell order ending | @crash order ending =>
    have fresh : s.results.get? order.id = some .fresh := (orders.had i _ _ place rfl).2
    refine coming.set (fun picked => picked) (State.phases_setWorker ..) (by simp) ?_
    intro items heard found
    change (s.results.modify order.id _).get? id = _ at found
    rw [Table.get?_modify] at found
    split at found
    next same =>
      rw [← same, fresh] at found
      cases found
    next => exact stays items heard found
  | @deliver order made =>
    refine coming.set (fun picked => picked) (State.phases_setWorker ..) (by simp) ?_
    intro items heard found
    change (s.results.modify order.id _).get? id = _ at found
    rw [Table.get?_modify] at found
    split at found
    next same => exact .inr (.inl ⟨i, order, made, place, same⟩)
    next => exact stays items heard found
  | _ => exact coming.set (fun picked => picked) (State.phases_setWorker ..) (by simp) stays

theorem accept {products : List String} (coming : Coming (s.accept products) id) : Coming s id := by
  refine coming.back ?_ (fun i order made found named => .inr (.inl ⟨i, order, made, found, named⟩)) ?_
  · intro still
    change ((s.board.slots.insert s.board.nextOrder ⟨.queued, true⟩).get? id).map _ = _ at still
    rw [Table.get?_insert] at still
    split at still
    · cases still
    · exact still
  · intro items heard found
    change (s.results.insert s.board.nextOrder .fresh).get? id = _ at found
    rw [Table.get?_insert] at found
    split at found
    · cases found
    · exact .inr (.inr ⟨items, heard, found⟩)

end Coming

theorem Orders.known (orders : Orders s) (present : s.board.slots.get? id = some slot) :
    id < s.board.nextOrder := by
  apply Nat.lt_of_not_le
  intro beyond
  have blank := congrArg View.slot (orders.unknown id beyond)
  rw [State.view, present] at blank
  cases blank

theorem Orders.over_of_answered {heard : Bool} (orders : Orders s)
    (found : s.results.get? id = some ⟨content, heard⟩) (spoke : content ≠ .waiting) :
    (s.view id).Over := by
  have used : (s.view id).result ≠ some .fresh := by
    intro fresh
    rw [State.view, found] at fresh
    cases fresh
    exact spoke rfl
  refine orders.past id ?_ ?_ ?_
  · apply Nat.lt_of_not_le
    intro beyond
    have blank := congrArg View.result (orders.unknown id beyond)
    rw [State.view, found] at blank
    cases blank
  · rintro order waits rfl
    exact used ((orders.queued order waits).unanswered rfl)
  · rintro i phase order here has rfl
    exact used ((orders.had i phase order here has).unanswered has)

theorem not_collecting {state : Call} (here : s.calls.get? call = some state)
    (other : ∀ id, state ≠ .collecting id) (id : OrderId) :
    s.calls.get? call ≠ some (.collecting id) := by
  rw [here]
  exact fun same => other id (Option.some.inj same)

theorem collecting_insert {state : Call} (before : ∀ id, s.calls.get? call ≠ some (.collecting id))
    (calls : t.calls = s.calls.insert call state) (after : ∀ id, state ≠ .collecting id)
    (c : CallId) (id : OrderId) :
    t.calls.get? c = some (.collecting id) ↔ s.calls.get? c = some (.collecting id) :=
  calls_insert (before id) calls (after id) c

theorem collecting_erase (before : ∀ id, s.calls.get? call ≠ some (.collecting id))
    (calls : t.calls = s.calls.erase call) (c : CallId) (id : OrderId) :
    t.calls.get? c = some (.collecting id) ↔ s.calls.get? c = some (.collecting id) :=
  calls_erase (before id) calls c

-- A call that uses a pager waits for no result, nor does the one that shuts down.
theorem PagerMove.collecting {use : PagerUse} {phase : PagerPhase}
    (here : s.calls.get? call = some (.pager id use phase))
    (move : PagerMove s call id use phase t events) (c : CallId) (other : OrderId) :
    t.calls.get? c = some (.collecting other) ↔ s.calls.get? c = some (.collecting other) := by
  have apart := not_collecting here (by simp)
  rcases move.calls with ⟨later, calls⟩ | calls
  · exact collecting_insert apart calls (by simp) c other
  · exact collecting_erase apart calls c other

theorem ShutdownMove.collecting {stage : ShutdownPhase}
    (here : s.calls.get? call = some (.shutdown stage))
    (move : ShutdownMove s call stage t events) (c : CallId) (id : OrderId) :
    t.calls.get? c = some (.collecting id) ↔ s.calls.get? c = some (.collecting id) := by
  have apart := not_collecting here (by simp)
  rcases move.calls with ⟨later, calls⟩ | calls
  · exact collecting_insert apart calls (by simp) c id
  · exact collecting_erase apart calls c id

namespace Collectors

theorem opened (stations : List String) (workers : Nat) : Collectors (.opened stations workers) := by
  refine ⟨by simp [State.opened], by simp [State.opened], ?_⟩
  rintro id (picked | ⟨i, order, made, here, _⟩ | ⟨items, heard, found⟩)
  · cases picked
  · cases State.phases_opened here
  · cases found

theorem keep (collectors : Collectors s) (taken : ∀ id, Taken s id → Taken t id)
    (calls : ∀ call id, t.calls.get? call = some (.collecting id) ↔
      s.calls.get? call = some (.collecting id))
    (comes : ∀ id, Coming t id → Coming s id) : Collectors t := by
  refine ⟨?_, ?_, ?_⟩
  · intro call id here
    exact taken id (collectors.taken call id ((calls call id).mp here))
  · intro c d id here there
    exact collectors.alone c d id ((calls c id).mp here) ((calls d id).mp there)
  · intro id coming
    obtain ⟨call, here⟩ := collectors.comes id (comes id coming)
    exact ⟨call, (calls call id).mpr here⟩

-- A client takes a result that nobody has taken before, so nobody else waits for it.
theorem begin (collectors : Collectors s) (unused : s.calls.get? call = none)
    (present : s.board.slots.get? id = some ⟨state, true⟩)
    (calls : t.calls = s.calls.insert call (.collecting id)) (mine : Taken t id)
    (taken : ∀ other, Taken s other → Taken t other)
    (comes : ∀ other, other ≠ id → Coming t other → Coming s other) : Collectors t := by
  -- Whoever waits for a result has taken it, and this one was there to be taken.
  have nobody : ∀ c, s.calls.get? c ≠ some (.collecting id) := by
    intro c here
    have gone := (collectors.taken c id here).2 _ present
    cases gone
  have place : ∀ c other, t.calls.get? c = some (.collecting other) →
      c = call ∧ other = id ∨ other ≠ id ∧ s.calls.get? c = some (.collecting other) := by
    intro c other here
    rw [calls, Table.get?_insert] at here
    split at here
    next same =>
      cases here
      exact .inl ⟨same.symm, rfl⟩
    next =>
      refine .inr ⟨?_, here⟩
      rintro rfl
      exact nobody c here
  refine ⟨?_, ?_, ?_⟩
  · intro c other here
    rcases place c other here with ⟨_, rfl⟩ | ⟨_, there⟩
    · exact mine
    · exact taken other (collectors.taken c other there)
  · intro c d other here there
    rcases place c other here with ⟨rfl, rfl⟩ | ⟨differ, atC⟩
    · rcases place d other there with ⟨rfl, _⟩ | ⟨differ, _⟩
      · rfl
      · exact absurd rfl differ
    · rcases place d other there with ⟨_, same⟩ | ⟨_, atD⟩
      · exact absurd same differ
      · exact collectors.alone c d other atC atD
  · intro other coming
    by_cases same : other = id
    · subst same
      exact ⟨call, by rw [calls, Table.get?_insert_self]⟩
    · obtain ⟨c, here⟩ := collectors.comes other (comes other same coming)
      refine ⟨c, ?_⟩
      rw [calls, Table.get?_insert_of_ne]
      · exact here
      · rintro rfl
        rw [unused] at here
        cases here

-- Nothing comes of an order any more when its result was taken out of the signal.
theorem not_coming {heard : Bool} (orders : Orders s)
    (filled : s.results.get? id = some ⟨content, heard⟩) (spoke : content ≠ .waiting) :
    ¬ Coming ((s.hearResult id heard).endCall call) id := by
  rintro (picked | ⟨i, order, made, here, rfl⟩ | ⟨items, still, found⟩)
  · obtain ⟨⟨ending, slot, _⟩, _⟩ := orders.over_of_answered filled spoke
    change (s.board.slots.get? id).map _ = _ at picked
    rcases slot with slot | slot
    · change s.board.slots.get? id = _ at slot
      rw [slot] at picked
      cases ending <;> cases picked
    · change s.board.slots.get? id = _ at slot
      rw [slot] at picked
      cases picked
  · have fresh : s.results.get? order.id = some .fresh := (orders.had i _ order here rfl).2.2
    rw [filled] at fresh
    cases fresh
    exact spoke rfl
  · change (s.results.insert id _).get? id = _ at found
    rw [Table.get?_insert_self] at found
    cases found

-- The call that waited for the result has it.
theorem finish {heard : Bool} (collectors : Collectors s) (orders : Orders s)
    (waits : s.calls.get? call = some (.collecting id))
    (filled : s.results.get? id = some ⟨content, heard⟩) (spoke : content ≠ .waiting) :
    Collectors ((s.hearResult id heard).endCall call) := by
  have place : ∀ c other, (s.calls.erase call).get? c = some (.collecting other) →
      s.calls.get? c = some (.collecting other) ∧ c ≠ call := by
    intro c other here
    rw [Table.get?_erase] at here
    split at here
    · cases here
    next differ => exact ⟨here, fun same => differ same.symm⟩
  refine ⟨?_, ?_, ?_⟩
  · intro c other here
    exact collectors.taken c other (place c other here).1
  · intro c d other here there
    exact collectors.alone c d other (place c other here).1 (place d other there).1
  · intro other coming
    have before : Coming s other := by
      refine coming.back (fun picked => picked)
        (fun j order made found named => .inr (.inl ⟨j, order, made, found, named⟩)) ?_
      intro items still found
      change (s.results.insert id _).get? other = _ at found
      rw [Table.get?_insert] at found
      split at found
      · cases found
      · exact .inr (.inr ⟨items, still, found⟩)
    have differ : other ≠ id := by
      rintro rfl
      exact not_coming orders filled spoke coming
    obtain ⟨c, here⟩ := collectors.comes other before
    refine ⟨c, ?_⟩
    change (s.calls.erase call).get? c = _
    rw [Table.get?_erase_of_ne]
    · exact here
    · rintro rfl
      rw [waits] at here
      cases here
      exact differ rfl

theorem client (collectors : Collectors s) (orders : Orders s) (step : Transition s action t events)
    (move : ClientMove s action t events) : Collectors t := by
  have taken : ∀ id, Taken s id → Taken t id := fun id taken => taken.step step
  have other : ∀ {call : CallId}, s.calls.get? call = none →
      ∀ id, s.calls.get? call ≠ some (.collecting id) := by
    intro call unused id here
    rw [unused] at here
    cases here
  cases move with
  | orderClosed | orderMissing => exact collectors
  | place =>
    exact collectors.keep taken (fun _ _ => .rfl) fun _ coming => coming.accept
  | placeWaking _ _ sleeper =>
    refine collectors.keep taken (fun _ _ => .rfl) ?_
    intro id coming
    have before : Coming (s.accept _) id := coming.set (fun picked => picked)
      (State.phases_setWorker ..) (by simp) fun items heard found => .inr (.inr ⟨items, heard, found⟩)
    exact before.accept
  | collectUnknown unused | collectEarly unused | shutdownAgain unused =>
    exact collectors.keep taken (collecting_erase (other unused) rfl)
      fun _ coming => coming.same rfl rfl rfl
  | takePager unused | shutdown unused =>
    exact collectors.keep taken (collecting_insert (other unused) rfl (by simp))
      fun _ coming => coming.same rfl rfl rfl
  | waitOver here =>
    exact collectors.keep taken (collecting_erase (not_collecting here (by simp)) rfl)
      fun _ coming => coming.same rfl rfl rfl
  | usePager here move =>
    obtain ⟨board, workers, _, _, results, _⟩ := move.frame
    exact collectors.keep taken (move.collecting here)
      fun _ coming => coming.same (by rw [board]) workers results
  | @collectReady call id unused present =>
    refine collectors.begin unused present rfl ?_ taken ?_
    · have won : id ∈ s.won (.collect call id) := by simp [State.won, present]
      exact taken_of_won orders won step
    · intro other differ coming
      refine coming.map ?_ (·.wakePickup id) (State.phases_notifyPickup _ id) ?_ rfl
      · intro picked
        change ((s.board.slots.insert id _).get? other).map _ = _ at picked
        rw [Table.get?_insert_of_ne _ _ (Ne.symm differ)] at picked
        exact picked
      · exact fun _ _ _ equal => WorkerPhase.wakePickup_eq equal (by simp)
  | @collectEnded _ call id unused present ended =>
    refine collectors.begin unused present rfl ⟨orders.known present, ?_⟩ taken ?_
    · intro slot found
      change (s.board.slots.erase id).get? id = _ at found
      rw [Table.get?_erase_self] at found
      cases found
    · intro other _ coming
      exact coming.back (pickedUp_erase rfl)
        (fun i order made here named => .inr (.inl ⟨i, order, made, here, named⟩))
        fun items heard found => .inr (.inr ⟨items, heard, found⟩)
  | getResult waits filled => exact collectors.finish orders waits filled (by simp)
  | getNothing waits empty => exact collectors.finish orders waits empty (by simp)

theorem step (collectors : Collectors s) (orders : Orders s) (step : Transition s action t events) :
    Collectors t := by
  have taken : ∀ id, Taken s id → Taken t id := fun id taken => taken.step step
  cases step with
  | worker here move =>
    refine collectors.keep taken ?_ fun _ => Coming.worker orders here move
    rw [move.unmanned.calls]
    exact fun _ _ => .rfl
  | runner here move =>
    obtain ⟨workers, _, _, slots, _, results⟩ := move.workers
    refine collectors.keep taken ?_ fun _ coming => coming.same slots workers results
    rw [move.unmanned.calls]
    exact fun _ _ => .rfl
  | client move => exact collectors.client orders (.client move) move
  | shutdown here move =>
    obtain ⟨_, _, _, _, slots, _, _, results, _⟩ := move.frame
    refine collectors.keep taken (move.collecting here) ?_
    intro id coming
    cases move with
    | wakeWorkers =>
      exact coming.map (fun picked => picked) (·.wake) (State.phases_wakeAllWorkers s)
        (fun _ _ _ equal => WorkerPhase.wake_eq equal (by simp)) rfl
    | _ => exact coming.same rfl rfl rfl

theorem run (collectors : Collectors s) (orders : Orders s) (run : Run s actions events t) :
    Collectors t := by
  induction run with
  | start => exact collectors
  | next before ran ih => exact ih.step (orders.run before) (transition_of_step ran)

end Collectors

end Kitchen.Engine
