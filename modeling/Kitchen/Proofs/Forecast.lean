import Kitchen.Proofs.Refusals

namespace Kitchen.Engine

variable {s t : State} {action : Action} {actions : List Action} {events more : List Event}
  {call : CallId} {id : OrderId} {products stations : List String} {workers : Nat}

-- The call takes what is left for it: nobody is answered yet, the slot no longer has the result for
-- anybody else, and the call waits for it.
def State.consumes (s : State) (call : CallId) (id : OrderId) : Prop :=
  ∃ t slot, s.step (.collect call id) = some (t, []) ∧
    s.board.slots.get? id = some slot ∧ slot.uncollected = true ∧
    (∀ later, t.board.slots.get? id = some later → later.uncollected = false) ∧
    t.calls.get? call = some (.collecting id)

theorem takes_of_unanswered (ran : s.step (.collect call id) = some (t, [])) :
    (call, id) ∈ s.takes (.collect call id) := by
  have one : ∀ {state}, s.board.slots.get? id = some ⟨state, true⟩ → state.isCollectible = true →
      (call, id) ∈ s.takes (.collect call id) := by
    intro state present collectible
    rw [takes_eq present collectible]
    exact List.mem_singleton_self _
  cases begins_client rfl (transition_of_step ran) with
  | collectReady _ present => exact one present rfl
  | collectEnded _ present ended =>
    refine one present ?_
    rcases ended with rfl | rfl <;> rfl

theorem consumes_iff (orders : Orders s) (unused : s.calls.get? call = none) :
    s.consumes call id ↔ (call, id) ∈ s.takes (.collect call id) := by
  constructor
  · rintro ⟨t, slot, ran, _⟩
    exact takes_of_unanswered ran
  · intro took
    obtain ⟨t, ran, waits⟩ := collect_taking unused took
    obtain ⟨_, state, found, _⟩ := takes_of took
    have taken : Taken t id := taken_of_takes orders (transition_of_step ran) took
    exact ⟨t, ⟨state, true⟩, ran, found, rfl, taken.2, waits⟩

theorem takes_iff_collectible (orders : Orders s) : (call, id) ∈ s.takes (.collect call id) ↔
    ∃ state, s.board.orderState id = some state ∧ state.isCollectible = true := by
  constructor
  · intro took
    obtain ⟨_, state, found, collectible⟩ := takes_of took
    exact ⟨state, by rw [Board.orderState, found]; rfl, collectible⟩
  · rintro ⟨state, here, collectible⟩
    rw [takes_of_state orders here collectible]
    exact List.mem_singleton_self _

theorem taken_of_unknownPager (known : id < s.board.nextOrder)
    (ran : s.step (.collect call id) =
      some (t, [.replied call (.collected (.spoiled (.unknownPager id)))])) : Taken s id := by
  cases begins_client rfl (transition_of_step ran) with
  | collectUnknown _ gone => exact ⟨known, gone⟩

theorem taken_iff_consumed (run : Run (.opened stations workers) actions events s) :
    Taken s id ↔ ∃ earlier taker later shown m, actions = earlier ++ .collect taker id :: later ∧
      Run (.opened stations workers) earlier shown m ∧ m.consumes taker id := by
  have opened := Orders.opened stations workers
  have first : ¬ Taken (.opened stations workers) id := fun taken => Nat.not_lt_zero id taken.1
  rw [taken_run_iff opened run, or_iff_right first]
  constructor
  · rintro ⟨taker, took⟩
    obtain ⟨earlier, action, later, shown, _, m, n, split, before, ran, now⟩ := along_split run took
    obtain ⟨rfl, _⟩ := takes_of now
    have unused := (State.beginCall_some ran).1
    exact ⟨earlier, taker, later, shown, m, split, before,
      (consumes_iff (opened.run before) unused).mpr now⟩
  · rintro ⟨earlier, taker, later, shown, m, split, before, _, _, ran, _⟩
    refine ⟨taker, ?_⟩
    rw [split, State.takings, along_append before.play]
    exact List.mem_append_right _ (List.mem_append_left _ (takes_of_unanswered ran))

theorem outcome_of_collecting (run : Run (.opened stations workers) actions events s)
    (waits : s.calls.get? call = some (.collecting id))
    (ran : s.step (.client call) = some (t, more)) :
    ∃ outcome, more = [.replied call (.collected outcome)] ∧
      ∀ error, outcome = .spoiled error → error.isFulfillment = true := by
  obtain ⟨_, _, outcome, found, _, rfl, said⟩ := collected_of_step waits (transition_of_step ran)
  refine ⟨outcome, rfl, ?_⟩
  rintro error rfl
  rcases said with rfl | ⟨_, same⟩
  · exact (Ledger.run run).isFulfillment found
  · cases same
    rfl

-- The state of an order tells beforehand what a call that collects it comes to. It takes the result
-- exactly if the state is one in which an order can be collected; it comes too early exactly if the
-- order waits or its jobs are under way, and it is told that there is nothing exactly if the order
-- was picked up or is gone, which is so exactly if an earlier call took the result. A result that is
-- still to be taken is never that of an order that was picked up.
theorem collectible_predicts_collect (run : Run (.opened stations workers) actions events s)
    (placed : .placed products id ∈ events) (unused : s.calls.get? call = none) :
    (s.consumes call id ↔
      ∃ state, s.board.orderState id = some state ∧ state.isCollectible = true) ∧
    (s.step (.collect call id) =
        some (s, [.replied call (.collected (.spoiled (.notReady id)))]) ↔
      s.board.orderState id = some .queued ∨ s.board.orderState id = some .dispatched) ∧
    (s.step (.collect call id) =
        some (s, [.replied call (.collected (.spoiled (.unknownPager id)))]) ↔
      s.board.orderState id = some .pickedUp ∨ s.board.orderState id = none) ∧
    (s.board.orderState id = some .pickedUp ∨ s.board.orderState id = none ↔
      ∃ earlier taker later shown m, actions = earlier ++ .collect taker id :: later ∧
        Run (.opened stations workers) earlier shown m ∧ m.consumes taker id) ∧
    (∀ slot, s.board.slots.get? id = some slot → slot.uncollected = true →
      slot.state ≠ .pickedUp) ∧
    (∀ later more t, Run s later more t → t.calls.get? call = some (.collecting id) →
      ∀ u told, t.step (.client call) = some (u, told) →
        ∃ outcome, told = [.replied call (.collected outcome)] ∧
          ∀ error, outcome = .spoiled error → error.isFulfillment = true) := by
  have orders := (Orders.opened stations workers).run run
  have known : id < s.board.nextOrder := (Placed.run run).known_iff.mpr ⟨products, placed⟩
  have unchanged := State.endCall_of_unused unused
  have taken : Taken s id ↔ s.board.orderState id = some .pickedUp ∨ s.board.orderState id = none := by
    rw [taken_iff orders, and_iff_right known, or_comm]
  refine ⟨?_, ⟨?_, ?_⟩, ⟨?_, ?_⟩, ?_, ?_, ?_⟩
  · rw [consumes_iff orders unused, takes_iff_collectible orders]
  · intro ran
    exact (early_of_notReady orders (transition_of_step ran) (List.mem_singleton_self _)).1
  · intro early
    rw [collect_early orders unused early, unchanged]
  · intro ran
    exact taken.mp (taken_of_unknownPager known ran)
  · intro late
    rw [collect_late unused (taken.mpr late), unchanged]
  · rw [← taken, taken_iff_consumed run]
  · intro slot found uncollected picked
    rw [(orders.uncollected_iff found).mpr picked] at uncollected
    cases uncollected
  · intro later more t after waits u told ran
    exact outcome_of_collecting (run.append after) waits ran

-- That day the first order is ready when its client comes, the second is still to be claimed, and a
-- later call finds that the first was taken.
theorem closingDay_predicted :
    let s := ((State.opened ["burger"] 1).after (closingDay.take 12)).1
    let t := ((State.opened ["burger"] 1).after (closingDay.take 13)).1
    s.consumes 1 0 ∧
      s.step (.collect 1 1) = some (s, [.replied 1 (.collected (.spoiled (.notReady 1)))]) ∧
      t.step (.collect 3 0) = some (t, [.replied 3 (.collected (.spoiled (.unknownPager 0)))]) ∧
      ∃ earlier taker later shown m, closingDay.take 13 = earlier ++ .collect taker 0 :: later ∧
        Run (.opened ["burger"] 1) earlier shown m ∧ m.consumes taker 0 := by
  intro s t
  have before : Run (.opened ["burger"] 1) (closingDay.take 12) _ s := run_after (by decide +kernel)
  have after : Run (.opened ["burger"] 1) (closingDay.take 13) _ t := run_after (by decide +kernel)
  have first : .placed ["burger"] 0 ∈ ((State.opened ["burger"] 1).after (closingDay.take 12)).2 := by
    decide +kernel
  have second : .placed ["burger"] 1 ∈ ((State.opened ["burger"] 1).after (closingDay.take 12)).2 := by
    decide +kernel
  have again : .placed ["burger"] 0 ∈ ((State.opened ["burger"] 1).after (closingDay.take 13)).2 := by
    decide +kernel
  have free : s.calls.get? 1 = none := by decide +kernel
  have other : t.calls.get? 3 = none := by decide +kernel
  have picked : t.board.orderState 0 = some .pickedUp := by decide +kernel
  obtain ⟨ready, _⟩ := collectible_predicts_collect before first free
  obtain ⟨_, early, _⟩ := collectible_predicts_collect before second free
  obtain ⟨_, _, late, gone, _⟩ := collectible_predicts_collect after again other
  exact ⟨ready.mpr ⟨.ready, by decide +kernel, rfl⟩, early.mpr (by decide +kernel),
    late.mpr (.inl picked), gone.mp (.inl picked)⟩

end Kitchen.Engine
