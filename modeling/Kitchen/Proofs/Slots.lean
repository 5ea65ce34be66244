import Kitchen.Proofs.Collectors
import Kitchen.Proofs.Pending
import Kitchen.Proofs.Traces

namespace Kitchen

-- The order is in the kitchen, or its client has come and its worker does not know yet.
def OrderState.underWay : OrderState → Bool
  | .queued | .dispatched | .ready | .pickedUp => true
  | .failed | .expired => false

theorem OrderState.underWay_iff (state : OrderState) :
    state.underWay = true ↔ state ∈ [queued, dispatched, ready, pickedUp] := by
  cases state <;> decide

namespace Engine

-- From what to what one step can move an order's state, and whose step it is.
inductive Passage (s : State) (id : OrderId) : Action → Option OrderState → Option OrderState → Prop where
  | stay : Passage s id action state state
  | accept (new : s.board.nextOrder = id) : Passage s id (.order products woken) none (some .queued)
  | dispatch (here : s.workers[i]? = some ⟨.claimed order, report⟩) (mine : order.id = id) :
      Passage s id (.worker i) (some .queued) (some .dispatched)
  | finish (here : s.workers[i]? = some ⟨.awaiting order made 0, report⟩) (mine : order.id = id) :
      Passage s id (.worker i) (some .dispatched) (some .ready)
  | fail (here : s.workers[i]? = some ⟨.awaiting order made failed, report⟩) (spoiled : failed ≠ 0)
      (mine : order.id = id) : Passage s id (.worker i) (some .dispatched) (some .failed)
  | pickUp : Passage s id (.collect call id) (some .ready) (some .pickedUp)
  | expire (here : s.workers[i]? = some ⟨.holding order made false, report⟩) (mine : order.id = id) :
      Passage s id (.pickupTimeout i) (some .ready) (some .expired)
  | handOut (here : s.workers[i]? = some ⟨.holding order made true, report⟩) (mine : order.id = id)
      (due : action = .worker i ∨ action = .pickupTimeout i) :
      Passage s id action (some .pickedUp) none
  | takeFailed : Passage s id (.collect call id) (some .failed) none
  | takeExpired : Passage s id (.collect call id) (some .expired) none

variable {s t : State} {action : Action} {actions : List Action} {events more : List Event}
  {call : CallId} {id : OrderId} {i : Nat} {report : Report} {order : Order} {old : WorkerPhase}
  {state before after : Option OrderState}

namespace Passage

theorem gone (passage : Passage s id action before after) (known : id < s.board.nextOrder)
    (none : before = none) : after = .none := by
  cases passage with
  | stay => exact none
  | accept new => exact absurd new (Nat.ne_of_gt known)
  | handOut | takeFailed | takeExpired => rfl
  | _ => cases none

theorem settled (passage : Passage s id action before after) (known : id < s.board.nextOrder)
    (past : ∀ state, before = some state → state.underWay = false) :
    ∀ state, after = some state → state.underWay = false := by
  cases passage with
  | stay => exact past
  | accept new => exact absurd new (Nat.ne_of_gt known)
  | handOut | takeFailed | takeExpired => simp
  | dispatch | finish | fail | pickUp | expire => cases past _ rfl

theorem still (slots : t.board.slots = s.board.slots) (id : OrderId) :
    Passage s id action (s.board.orderState id) (t.board.orderState id) := by
  rw [Board.orderState, Board.orderState, slots]
  exact .stay

-- A step that moves one order.
theorem move {changed : OrderId} {v : View}
    (view : ∀ other, t.view other = if changed = other then v else s.view other)
    (mine : Passage s changed action (s.board.orderState changed) (v.slot.map (·.state)))
    (id : OrderId) : Passage s id action (s.board.orderState id) (t.board.orderState id) := by
  change Passage s id action _ ((t.view id).slot.map (·.state))
  rw [view]
  split
  next same => exact same ▸ mine
  next => exact .stay

theorem moveFrom {changed : OrderId} {v : View} {slot : Slot} (was : (s.view changed).slot = some slot)
    (view : ∀ other, t.view other = if changed = other then v else s.view other)
    (mine : Passage s changed action (some slot.state) (v.slot.map (·.state)))
    (id : OrderId) : Passage s id action (s.board.orderState id) (t.board.orderState id) := by
  refine Passage.move view ?_ id
  change Passage s _ _ ((s.view changed).slot.map (·.state)) _
  rw [was]
  exact mine

theorem worker (orders : Orders s) (here : s.workers[i]? = some ⟨old, report⟩)
    (move : WorkerMove s i report old action t events) (id : OrderId) :
    Passage s id action (s.board.orderState id) (t.board.orderState id) := by
  have place := State.phases_of here
  cases move with
  | @dispatch order =>
    obtain ⟨slot, _⟩ := orders.had i _ order place rfl
    refine Passage.moveFrom slot (fun other => (Orders.view_spread s order other).trans
      (Orders.view_setState s order.id other .dispatched)) ?_ id
    rw [slot]
    exact .dispatch here rfl
  | hold =>
    obtain ⟨slot, _⟩ := orders.had i _ _ place rfl
    refine Passage.moveFrom slot (Orders.view_ready s _) ?_ id
    rw [slot]
    exact .finish here rfl
  | @holdUnslotted order made done unslotted =>
    obtain ⟨slot, _⟩ := orders.had i _ order place rfl
    rw [State.view, unslotted] at slot
    cases slot
  | fail _ spoiled =>
    obtain ⟨slot, _⟩ := orders.had i _ _ place rfl
    refine Passage.moveFrom slot (Orders.view_spoil s _) ?_ id
    rw [slot]
    exact .fail here spoiled rfl
  | @collected _ notified order made due came =>
    have fits := orders.had i _ order place rfl
    refine Passage.move (Orders.view_pickUp s order.id) ?_ id
    rw [came]
    cases notified with
    | true => exact .handOut here rfl (due.imp_left (·.1))
    | false =>
      obtain ⟨slot, _⟩ := fits
      change s.board.slots.get? order.id = _ at slot
      simp [Board.orderState, slot] at came
  | @expired _ notified order made due late =>
    have fits := orders.had i _ order place rfl
    cases notified with
    | false =>
      obtain ⟨slot, _⟩ := fits
      refine Passage.moveFrom slot (Orders.view_expire s order.id) ?_ id
      rw [slot]
      rcases due with ⟨_, told, _⟩ | rfl
      · cases told
      · exact .expire here rfl
    | true =>
      obtain ⟨slot, _⟩ := fits
      change s.board.slots.get? order.id = _ at slot
      simp [Board.orderState, slot] at late
  | _ => exact .still rfl id

theorem accepted {products : List String} (orders : Orders s)
    (slots : t.board.slots = (s.accept products).board.slots) (id : OrderId) :
    Passage s id (.order products woken) (s.board.orderState id) (t.board.orderState id) := by
  unfold Board.orderState
  rw [slots]
  change Passage s id _ _ (((s.accept products).view id).slot.map (·.state))
  rw [Orders.accept_view]
  split
  next new =>
    have blank := orders.unknown id (Nat.le_of_eq new)
    change Passage s id _ ((s.view id).slot.map (·.state)) _
    rw [blank]
    exact .accept new
  next => exact .stay

theorem client (orders : Orders s) (move : ClientMove s action t events) (id : OrderId) :
    Passage s id action (s.board.orderState id) (t.board.orderState id) := by
  cases move with
  | place | placeWaking => exact .accepted orders rfl id
  | @collectReady call changed _ present =>
    refine Passage.move (Orders.view_collectReady s changed) ?_ id
    rw [Board.orderState, present]
    exact .pickUp
  | @collectEnded call state changed _ present ended =>
    change Passage s id _ _ (((s.board.slots.erase changed).get? id).map (·.state))
    rw [Table.get?_erase]
    split
    next same =>
      subst same
      rw [Board.orderState, present]
      rcases ended with rfl | rfl
      · exact .takeFailed
      · exact .takeExpired
    next => exact .stay
  | usePager _ move =>
    obtain ⟨board, _⟩ := move.frame
    exact .still (by rw [board]) id
  | _ => exact .still rfl id

end Passage

theorem Transition.passage (orders : Orders s) (step : Transition s action t events) (id : OrderId) :
    Passage s id action (s.board.orderState id) (t.board.orderState id) := by
  cases step with
  | worker here move => exact Passage.worker orders here move id
  | runner _ move =>
    obtain ⟨_, _, _, slots, _⟩ := move.workers
    exact .still slots id
  | client move => exact Passage.client orders move id
  | shutdown _ move =>
    obtain ⟨_, _, _, _, slots, _⟩ := move.frame
    exact .still slots id

theorem Transition.numbers (step : Transition s action t events) :
    t.board.nextOrder = s.board.nextOrder ∨
      t.board.nextOrder = s.board.nextOrder + 1 ∧
        t.board.orderState s.board.nextOrder = some .queued := by
  cases step with
  | worker _ move => exact .inl move.unmanned.next
  | runner _ move => exact .inl move.unmanned.next
  | client move =>
    cases move with
    | place | placeWaking =>
      refine .inr ⟨rfl, ?_⟩
      unfold Board.orderState
      simp [State.accept, State.setWorker]
    | usePager _ move =>
      obtain ⟨board, _⟩ := move.frame
      rw [board]
      exact .inl rfl
    | _ => exact .inl rfl
  | shutdown _ move => exact .inl move.frame.1

theorem Transition.nextOrder_le (step : Transition s action t events) :
    s.board.nextOrder ≤ t.board.nextOrder := by
  rcases step.numbers with same | ⟨more, _⟩
  · exact Nat.le_of_eq same.symm
  · rw [more]
    exact Nat.le_succ _

theorem Orders.place (orders : Orders s) (known : id < s.board.nextOrder) :
    (∃ order ∈ s.board.unassigned, order.id = id) ∨
      (∃ (i : Nat) (phase : WorkerPhase) (order : Order), s.phases[i]? = some phase ∧
        phase.order? = some order ∧ order.id = id) ∨ (s.view id).Over := by
  by_cases waits : ∃ order ∈ s.board.unassigned, order.id = id
  · exact .inl waits
  by_cases held : ∃ (i : Nat) (phase : WorkerPhase) (order : Order), s.phases[i]? = some phase ∧
      phase.order? = some order ∧ order.id = id
  · exact .inr (.inl held)
  refine .inr (.inr (orders.past id known ?_ ?_))
  · exact fun order member same => waits ⟨order, member, same⟩
  · exact fun i phase order here has same => held ⟨i, phase, order, here, has, same⟩

namespace View

-- What the place of an order says of its slot, whoever has it.

theorem Fits.slot_open {v : View} {phase : WorkerPhase} (fits : v.Fits phase)
    (opened : phase.open? = some order) : ∃ slot, v.slot = some slot ∧ slot.state.underWay = true ∧
      (slot.uncollected = false ↔ slot.state = .pickedUp) := by
  cases phase with
  | claimed | awaiting => exact ⟨_, fits.1, rfl, by simp⟩
  | holding _ _ told => cases told <;> exact ⟨_, fits.1, rfl, by simp⟩
  | _ => cases opened

theorem Ended.untaken {v : View} {slot : Slot} (ended : v.Ended ending) (found : v.slot = some slot) :
    slot.state.underWay = false ∧ slot.uncollected = true := by
  rcases ended.1 with there | away
  · rw [there] at found
    cases found
    cases ending <;> exact ⟨rfl, rfl⟩
  · rw [away] at found
    cases found

end View

-- While a worker or the queue owes the order an outcome, its slot is there and under way.
theorem Orders.slot_unsettled (orders : Orders s) (open' : s.unsettled id) :
    ∃ slot, s.board.slots.get? id = some slot ∧ slot.state.underWay = true ∧
      (slot.uncollected = false ↔ slot.state = .pickedUp) := by
  rcases open' with ⟨order, waits, rfl⟩ | ⟨i, phase, order, here, has, rfl⟩
  · exact (orders.queued order waits).slot_open rfl
  · exact (orders.had i phase order here (WorkerPhase.open?_order has)).slot_open has

-- Otherwise the slot that is still there is that of an order that ended without its client.
theorem Orders.slot_settled (orders : Orders s) (settled : ¬ s.unsettled id)
    (found : s.board.slots.get? id = some slot) :
    slot.state.underWay = false ∧ slot.uncollected = true := by
  have ended : ∀ ending, (s.view id).Ended ending →
      slot.state.underWay = false ∧ slot.uncollected = true :=
    fun ending ended => ended.untaken found
  rcases orders.place (orders.known found) with waits | ⟨i, phase, order, here, has, rfl⟩ | ⟨⟨_, past⟩, _⟩
  · exact absurd (.inl waits) settled
  · have fits := orders.had i phase order here has
    cases phase with
    | claimed | awaiting | holding =>
      exact absurd (.inr ⟨i, _, order, here, has, rfl⟩) settled
    | returning | handingBack => exact ended _ fits.1
    | delivering =>
      have away : s.board.slots.get? order.id = none := fits.1
      rw [away] at found
      cases found
    | _ => cases has
  · exact ended _ past

theorem pending_iff (orders : Orders s) (pending : Pending s) (id : OrderId) :
    id ∈ s.board.pending ↔ ∃ state, s.board.orderState id = some state ∧ state.underWay = true := by
  rw [pending id]
  constructor
  · intro unsettled
    obtain ⟨slot, found, underWay, _⟩ := orders.slot_unsettled unsettled
    exact ⟨slot.state, by rw [Board.orderState, found]; rfl, underWay⟩
  · rintro ⟨state, here, underWay⟩
    obtain ⟨slot, found, rfl⟩ := Option.map_eq_some_iff.mp here
    by_cases unsettled : s.unsettled id
    · exact unsettled
    · rw [(orders.slot_settled unsettled found).1] at underWay
      cases underWay

theorem Orders.uncollected_iff (orders : Orders s) (found : s.board.slots.get? id = some slot) :
    slot.uncollected = false ↔ slot.state = .pickedUp := by
  by_cases unsettled : s.unsettled id
  · obtain ⟨other, there, _, same⟩ := orders.slot_unsettled unsettled
    rw [found] at there
    cases there
    exact same
  · obtain ⟨past, untaken⟩ := orders.slot_settled unsettled found
    rw [untaken]
    constructor
    · simp
    · intro picked
      rw [picked] at past
      cases past

-- What is gone, and what is over, stays so.
theorem gone_run (orders : Orders s) (run : Run s actions events t) (known : id < s.board.nextOrder) :
    id < t.board.nextOrder ∧ (s.board.orderState id = none → t.board.orderState id = none) ∧
      ((∀ state, s.board.orderState id = some state → state.underWay = false) →
        ∀ state, t.board.orderState id = some state → state.underWay = false) := by
  induction run with
  | start => exact ⟨known, fun gone => gone, fun past => past⟩
  | next earlier ran ih =>
    obtain ⟨below, gone, settled⟩ := ih
    have step := transition_of_step ran
    have passage := step.passage (orders.run earlier) id
    refine ⟨Nat.lt_of_lt_of_le below step.nextOrder_le, ?_, ?_⟩
    · exact fun none => passage.gone below (gone none)
    · exact fun past => passage.settled below (settled past)

-- Pending are the orders whose state is under way; a slot is without its result exactly while its
-- worker has yet to hear that the client came; whatever waits or is not brought to an end has a slot
-- that takes a new state; and from step to step a state only goes on.
theorem slots_follow_orders (run : Run (.opened stations workers) actions events s) :
    (∀ id, id ∈ s.board.pending ↔
      ∃ state ∈ [OrderState.queued, .dispatched, .ready, .pickedUp],
        s.board.orderState id = some state) ∧
    (∀ id slot, s.board.slots.get? id = some slot →
      (slot.uncollected = false ↔ slot.state = .pickedUp)) ∧
    (∀ id, s.unsettled id → (∃ slot, s.board.slots.get? id = some slot) ∧
      ∀ state, (s.board.setState id state).orderState id = some state) ∧
    (∀ id, s.board.nextOrder ≤ id → s.board.slots.get? id = none ∧ id ∉ s.board.pending) ∧
    (∀ action t more, s.step action = some (t, more) → ∀ id,
      Passage s id action (s.board.orderState id) (t.board.orderState id)) ∧
    (∀ later more t, Run s later more t → ∀ id, id < s.board.nextOrder →
      (s.board.slots.get? id = none → t.board.slots.get? id = none) ∧
      (id ∉ s.board.pending → id ∉ t.board.pending)) := by
  have orders := (Orders.opened stations workers).run run
  have pending := (Pending.opened stations workers).run (Orders.opened stations workers) run
  refine ⟨?_, ?_, ?_, ?_, ?_, ?_⟩
  · intro id
    rw [pending_iff orders pending]
    constructor
    · rintro ⟨state, here, underWay⟩
      exact ⟨state, state.underWay_iff.mp underWay, here⟩
    · rintro ⟨state, listed, here⟩
      exact ⟨state, here, state.underWay_iff.mpr listed⟩
  · exact fun id slot found => orders.uncollected_iff found
  · intro id unsettled
    obtain ⟨slot, found, _⟩ := orders.slot_unsettled unsettled
    refine ⟨⟨slot, found⟩, ?_⟩
    intro state
    simp [Board.setState, Board.orderState, Table.get?_modify, found]
  · intro id beyond
    have none : s.board.slots.get? id = none := congrArg View.slot (orders.unknown id beyond)
    refine ⟨none, ?_⟩
    rw [pending_iff orders pending, Board.orderState, none]
    rintro ⟨state, here, _⟩
    cases here
  · exact fun action t more ran id => (transition_of_step ran).passage orders id
  · intro later more t after id known
    obtain ⟨_, gone, settled⟩ := gone_run orders after known
    refine ⟨?_, ?_⟩
    · intro none
      refine Option.map_eq_none_iff.mp (gone ?_)
      rw [Board.orderState, none]
      rfl
    · rw [pending_iff orders pending, pending_iff (orders.run after) (pending.run orders after)]
      rintro absent ⟨state, here, underWay⟩
      have past := settled (fun other there => Bool.eq_false_iff.mpr fun on => absent ⟨other, there, on⟩)
      rw [past state here] at underWay
      cases underWay

-- That day the first order is pending until its worker hears that the client came, whose step
-- removes its slot for good.
theorem closingDay_slots :
    0 ∈ ((State.opened ["burger"] 1).after (closingDay.take 13)).1.board.pending ∧
      Passage ((State.opened ["burger"] 1).after (closingDay.take 13)).1 0 (.worker 0)
        (some .pickedUp) none := by
  have possible : ((State.opened ["burger"] 1).play (closingDay.take 13)).isSome = true := by
    decide +kernel
  have taken : ((State.opened ["burger"] 1).after (closingDay.take 13)).1.board.orderState 0 =
      some .pickedUp := by
    decide +kernel
  have ran : ((State.opened ["burger"] 1).after (closingDay.take 13)).1.step (.worker 0) = some
      (((State.opened ["burger"] 1).after (closingDay.take 14)).1,
        [.noticed (.orderCollected 0 0)]) := by
    decide +kernel
  have gone : ((State.opened ["burger"] 1).after (closingDay.take 14)).1.board.orderState 0 = none := by
    decide +kernel
  obtain ⟨pending, _, _, _, passage, _⟩ := slots_follow_orders (run_after possible)
  refine ⟨(pending 0).mpr ⟨.pickedUp, by decide, taken⟩, ?_⟩
  have last := passage _ _ _ ran 0
  rw [taken, gone] at last
  exact last

end Engine

end Kitchen
