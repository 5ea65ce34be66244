import Kitchen.Proofs.Collections
import Kitchen.Proofs.Conservation

namespace Kitchen.Engine

variable {s t : State} {action : Action} {actions : List Action} {events more : List Event}
  {call : CallId} {id : OrderId} {i : Nat} {report : Report} {order : Order} {item : Item}
  {outcome : Outcome} {phase : WorkerPhase}

-- Where its products are once a client was told of an order.

-- No worker has an order whose client was told.
theorem Emptied.unheld (emptied : Emptied s id) (orders : Orders s)
    (here : s.phases[i]? = some phase) (has : phase.order? = some order) : order.id ≠ id := by
  rintro rfl
  obtain ⟨heard, found⟩ := emptied
  have fresh : s.results.get? order.id = some .fresh := (orders.had i phase order here has).unanswered has
  rw [fresh] at found
  cases found

theorem Emptied.no_ware (emptied : Emptied s id) (orders : Orders s) (jobs : Jobs s)
    (single : Single s) : ∀ ware ∈ s.wares, ware.1 ≠ id := by
  intro ware inside
  have sought : ∀ {ref station}, Sought s ref station → ref.order ≠ id := by
    rintro ref station ⟨i, order, made, failed, here, named, _⟩
    rw [← named]
    exact emptied.unheld orders here rfl
  simp only [State.wares, List.mem_append] at inside
  rcases inside with ((hand | signal) | worker) | transit
  · obtain ⟨runner, member, mine⟩ := List.mem_flatMap.mp hand
    cases phase : runner.phase with
    | holding job item =>
      rw [phase] at mine
      cases List.mem_singleton.mp mine
      apply sought
      apply jobs.carried runner member job
      rw [phase]
      exact List.mem_singleton_self _
    | _ =>
      rw [phase] at mine
      cases mine
  · obtain ⟨⟨ref, content, heard⟩, member, mine⟩ := List.mem_flatMap.mp signal
    unfold jobWare at mine
    split at mine
    next item held =>
      cases List.mem_singleton.mp mine
      have found := Table.get?_of_mem single.1 member
      dsimp only at held
      rw [held] at found
      exact sought (jobs.answered ref item heard found)
    next => cases mine
  · obtain ⟨worker, member, mine⟩ := List.mem_flatMap.mp worker
    unfold WorkerPhase.wares at mine
    split at mine
    next order has =>
      obtain ⟨entry, _, rfl⟩ := List.mem_map.mp mine
      obtain ⟨i, here⟩ := List.getElem?_of_mem member
      exact emptied.unheld orders (State.phases_of here) has
    next => cases mine
  · obtain ⟨⟨other, content, heard⟩, member, mine⟩ := List.mem_flatMap.mp transit
    unfold resultWares at mine
    split at mine
    next items held =>
      obtain ⟨item, _, rfl⟩ := List.mem_map.mp mine
      have found := Table.get?_of_mem single.2 member
      rintro rfl
      obtain ⟨before, empty⟩ := emptied
      dsimp only at held
      rw [empty, held] at found
      cases found
    next => cases mine

-- What goes back is of orders that are written down as ended.
theorem ended_of_givenBack (run : Run (.opened stations workers) actions events s)
    (back : (id, item) ∈ (State.opened stations workers).givenBack actions) :
    ∃ entry ∈ book events, entry.id = id ∧ ∃ ending, entry.fate = .ended ending := by
  induction run with
  | start => cases back
  | @next _ _ _ middle _ action before ran ih =>
    rw [givenBack_next before] at back
    simp only [book_append, List.mem_append]
    rcases List.mem_append.mp back with earlier | new
    · obtain ⟨entry, member, mine⟩ := ih earlier
      exact ⟨entry, .inl member, mine⟩
    · unfold State.givesBack at new
      split at new
      · split at new
        next order ending product given rest report here =>
          split at new
          next =>
            cases List.mem_singleton.mp new
            have member := (Ledger.run before).held _ _ order (.ended ending) (State.phases_of here) rfl rfl
            exact ⟨_, .inl member, rfl, ending, rfl⟩
          next => cases new
        next => cases new
      · cases new

theorem verdict_of_delivered {items : List Item}
    (run : Run (.opened stations workers) actions events s)
    (delivered : (call, id, items) ∈ (State.opened stations workers).deliveries actions) :
    (call, id, .meal items) ∈ (State.opened stations workers).verdicts actions := by
  induction run with
  | start => cases delivered
  | next before ran ih =>
    rw [deliveries_next before] at delivered
    rw [verdicts_next before]
    rcases List.mem_append.mp delivered with earlier | new
    · exact List.mem_append_left _ (ih earlier)
    · obtain ⟨rfl, here, heard, filled⟩ := delivers_of new
      obtain ⟨content, _, outcome, found, _, rfl, said⟩ := collected_of_step here (transition_of_step ran)
      rw [filled] at found
      cases found
      rcases said with same | ⟨same, _⟩
      · cases same
        rw [answers_eq here ran]
        exact List.mem_append_right _ (List.mem_singleton_self _)
      · cases same

-- The stations that were asked to take a product back, each as often as it was asked.
def returnsOf (events : List Event) (item : Item) : List String :=
  (events.filterMap Event.returned?).filterMap fun (station, other) =>
    if other = item then some station else none

def Outcome.returnsTo (item : Item) : Outcome → List String
  | .meal _ => []
  | .spoiled _ => [item.maker]

theorem returnsOf_eq (run : Run (.opened stations workers) actions events s) (item : Item) :
    returnsOf events item = ((State.opened stations workers).givenBack actions).filterMap
      fun ware => if ware.2 = item then some item.maker else none := by
  unfold returnsOf
  rw [(shows_run run).2, List.filterMap_map]
  apply List.filterMap_congr
  intro ware _
  simp only [Function.comp_apply]
  split
  next same => rw [same]
  next => rfl

theorem filterMap_once {l : List Ware} (apart : (l.map (·.2)).Nodup) (member : (id, item) ∈ l) :
    l.filterMap (fun ware => if ware.2 = item then some item.maker else none) = [item.maker] := by
  induction l with
  | nil => cases member
  | cons ware rest ih =>
    rw [List.map_cons, List.nodup_cons] at apart
    obtain ⟨fresh, apart⟩ := apart
    have others : ∀ other ∈ rest, other.2 ≠ ware.2 := by
      intro other inside same
      apply fresh
      rw [← same]
      exact List.mem_map_of_mem inside
    rcases List.mem_cons.mp member with rfl | later
    · simpa [List.filterMap_cons] using others
    · have differ : ware.2 ≠ item := (others _ later).symm
      simp [differ, ih apart later]

-- Products of an order whose client was told: eaten ones went to no station, and of the others each
-- went back once, to the station that had made it.
theorem returnsOf_told (apart : stations.Nodup)
    (run : Run (.opened stations workers) actions events s)
    (returns : ∀ i, .returned i .crashed ∉ actions) {ref : JobRef}
    (told : (call, ref.order, outcome) ∈ (State.opened stations workers).verdicts actions)
    (made : (ref, item) ∈ (State.opened stations workers).production actions) :
    returnsOf events item = outcome.returnsTo item := by
  have stock := Stock.opened stations workers
  have opened := Orders.opened stations workers
  have orders := opened.run run
  have jobs := (Jobs.opened stations workers).run stock opened run
  have single := (Single.opened stations workers).run run
  have handled := Handled.run run returns
  have once := (Numbered.run stock apart (Numbered.opened stations workers) run).apart
  have perm := wares_run run returns
  obtain ⟨_, entry, written, named, fits⟩ := handled.told call ref.order outcome told
  rw [returnsOf_eq run]
  cases outcome with
  | meal items =>
    apply List.filterMap_eq_nil_iff.mpr
    rintro ⟨id, other⟩ back
    apply if_neg
    rintro rfl
    -- The product was made once, so the order for which it went back is this one.
    have among := perm.mem_iff.mp (List.mem_append_right _ back)
    obtain ⟨⟨from', same⟩, entered, equal⟩ := List.mem_map.mp among
    cases equal
    cases List.inj_on_of_nodup_map once entered made rfl
    obtain ⟨other, also, mine, ending, ended⟩ := ended_of_givenBack run back
    have fate := (Ledger.run run).same_fate written also (named.trans mine.symm)
    rw [fate, ended] at fits
    cases fits
  | spoiled error =>
    have entered : (ref.order, item) ∈ ordered ((State.opened stations workers).production actions) :=
      List.mem_map_of_mem (f := fun entry => (entry.1.order, entry.2)) made
    have place := perm.mem_iff.mpr entered
    have emptied : Emptied s ref.order := (handled.emptied _).mpr ⟨_, told, rfl⟩
    have back : (ref.order, item) ∈ (State.opened stations workers).givenBack actions := by
      rcases List.mem_append.mp place with inside | back
      · rcases List.mem_append.mp inside with ware | meal
        · exact absurd rfl (emptied.no_ware orders jobs single _ ware)
        · obtain ⟨⟨caller, id, items⟩, delivered, mine⟩ := List.mem_flatMap.mp meal
          obtain ⟨_, _, same⟩ := List.mem_map.mp mine
          cases same
          have other := verdict_of_delivered run delivered
          cases List.inj_on_of_nodup_map handled.single told other rfl
      · exact back
    have numbered : (((State.opened stations workers).givenBack actions).map (·.2)).Nodup := by
      have all := (perm.map (·.2)).nodup_iff.mpr (by rw [ordered, List.map_map]; exact once)
      rw [List.map_append] at all
      exact (List.nodup_append.mp all).2.1
    exact filterMap_once numbered back

-- At some time so far the order was ready, or had failed.
def State.ripened (first : State) (actions : List Action) (id : OrderId) : Prop :=
  ∃ earlier, earlier <+: actions ∧
    ((first.after earlier).1.board.orderState id = some .ready ∨
      (first.after earlier).1.board.orderState id = some .failed)

theorem ripened_next (run : Run s actions events t) (ran : t.step action = some (u, more))
    (id : OrderId) : s.ripened (actions ++ [action]) id ↔ s.ripened actions id ∨
      u.board.orderState id = some .ready ∨ u.board.orderState id = some .failed := by
  unfold State.ripened
  simp only [List.prefix_concat_iff, or_and_right, exists_or, exists_eq_left,
    after_of_run (Run.next run ran)]
  exact or_comm

theorem not_ripened_of_unknown (run : Run (.opened stations workers) actions events s)
    (new : s.board.nextOrder ≤ id) : ¬ (State.opened stations workers).ripened actions id := by
  induction run with
  | start =>
    rintro ⟨earlier, before, ripe⟩
    cases List.prefix_nil.mp before
    rcases ripe with ripe | ripe <;> cases ripe
  | next before ran ih =>
    have later := (transition_of_step ran).nextOrder_le
    have blank := ((Orders.opened stations workers).run (.next before ran)).unknown id new
    have none := congrArg (fun view => view.slot.map (·.state)) blank
    change Board.orderState _ id = .none at none
    rw [ripened_next before ran, none]
    simp [ih (Nat.le_trans later new)]

theorem ripened_iff (run : Run (.opened stations workers) actions events s)
    (known : id < s.board.nextOrder) : (State.opened stations workers).ripened actions id ↔
      s.board.orderState id ≠ some .queued ∧ s.board.orderState id ≠ some .dispatched := by
  induction run with
  | start => exact absurd known (Nat.not_lt_zero id)
  | @next _ _ _ middle last action before ran ih =>
    have step := transition_of_step ran
    rw [ripened_next before ran]
    by_cases early : id < middle.board.nextOrder
    · rw [ih early]
      have passage := step.passage ((Orders.opened stations workers).run before) id
      generalize middle.board.orderState id = first at passage
      generalize last.board.orderState id = later at passage
      cases passage with
      | stay =>
        constructor
        · rintro (ripe | rfl | rfl)
          · exact ripe
          · exact ⟨by simp, by simp⟩
          · exact ⟨by simp, by simp⟩
        · exact .inl
      | accept new => exact absurd new (Nat.ne_of_gt early)
      | _ => simp
    · -- The order was accepted just now.
      have new := Nat.not_lt.mp early
      have unripe := not_ripened_of_unknown before new
      rcases step.numbers with same | ⟨next, queued⟩
      · exact absurd (same ▸ known) early
      · rw [next] at known
        cases Nat.le_antisymm new (Nat.lt_succ_iff.mp known)
        simp [unripe, queued]

theorem collect_refused {error : OrderError} (unused : s.calls.get? call = none)
    (refused : s.collect call id = s.refuse call error) : s.step (.collect call id) =
      some (s.endCall call, [.replied call (.collected (.spoiled error))]) := by
  have free : s.calls.contains call = false := by simp [Table.contains, unused]
  simp [State.step, State.beginCall, free, refused, State.refuse, State.reply]

theorem collect_early (orders : Orders s) (unused : s.calls.get? call = none)
    (early : s.board.orderState id = some .queued ∨ s.board.orderState id = some .dispatched) :
    s.step (.collect call id) =
      some (s.endCall call, [.replied call (.collected (.spoiled (.notReady id)))]) := by
  apply collect_refused unused
  unfold State.collect
  cases found : s.board.slots.get? id with
  | none => simp [Board.orderState, found] at early
  | some slot =>
    obtain ⟨state, uncollected⟩ := slot
    simp only [Board.orderState, found, Option.map_some, Option.some.injEq] at early
    have untaken := orders.uncollected_iff found
    cases uncollected with
    | true => rcases early with rfl | rfl <;> rfl
    | false =>
      have picked : state = .pickedUp := untaken.mp rfl
      rw [picked] at early
      rcases early with early | early <;> cases early

theorem collect_nothing (unused : s.calls.get? call = none)
    (gone : ∀ slot, s.board.slots.get? id = some slot → slot.uncollected = false) :
    s.step (.collect call id) =
      some (s.endCall call, [.replied call (.collected (.spoiled (.unknownPager id)))]) := by
  apply collect_refused unused
  unfold State.collect
  cases found : s.board.slots.get? id with
  | none => rfl
  | some slot => simp [gone slot found]

theorem collect_late (unused : s.calls.get? call = none) (taken : Taken s id) :
    s.step (.collect call id) =
      some (s.endCall call, [.replied call (.collected (.spoiled (.unknownPager id)))]) :=
  collect_nothing unused taken.2

theorem collect_taking (unused : s.calls.get? call = none)
    (took : (call, id) ∈ s.takes (.collect call id)) :
    ∃ t, s.step (.collect call id) = some (t, []) ∧ t.calls.get? call = some (.collecting id) := by
  obtain ⟨_, state, found, collectible⟩ := takes_of took
  have free : s.calls.contains call = false := by simp [Table.contains, unused]
  simp only [State.step, State.beginCall, free, State.collect, found]
  cases state with
  | ready | failed | expired => exact ⟨_, rfl, Table.get?_insert_self ..⟩
  | _ => cases collectible

-- The worker alone brings the call to its answer, with the stations that take its products back.
def Soon (s : State) (i : Nat) (call : CallId) : Prop :=
  ∃ later more t, Run s later more t ∧
    (∀ action ∈ later, action = .worker i ∨ action = .returned i .accepted) ∧
    (t.step (.client call)).isSome = true

namespace Soon

theorem next (ran : s.step action = some (t, more))
    (mine : action = .worker i ∨ action = .returned i .accepted) (soon : Soon t i call) :
    Soon s i call := by
  obtain ⟨later, shown, last, run, alone, answers⟩ := soon
  refine ⟨action :: later, more ++ shown, last, ?_, ?_, answers⟩
  · have once : Run s [action] more t := .next .start ran
    exact once.append run
  · intro other member
    rcases List.mem_cons.mp member with rfl | among
    · exact mine
    · exact alone other among

theorem now (here : s.calls.get? call = some (.collecting id)) {signal : Signal Outcome}
    (found : s.results.get? id = some signal) (spoke : signal.content ≠ .waiting) :
    Soon s i call := by
  refine ⟨[], [], s, .start, by simp, ?_⟩
  obtain ⟨content, heard⟩ := signal
  cases content with
  | waiting => exact absurd rfl spoke
  | _ => simp [State.step, State.stepCall, here, State.receiveResult, found, Signal.wait?, Signal.take]

theorem tell (waits : s.calls.get? call = some (.collecting order.id))
    (fresh : s.results.get? order.id = some .fresh)
    (ran : s.step (.worker i) = some ((s.resolveResult order.id outcome).setPhase i phase, more)) :
    Soon s i call := by
  have filled : ((s.resolveResult order.id outcome).setPhase i phase).results.get? order.id =
      some ⟨.holding outcome, true⟩ := by
    simp [State.resolveResult, State.setPhase, Table.get?_modify, fresh, Signal.fresh, Signal.resolve]
  exact .next ran (.inl rfl) (.now waits filled (by simp))

theorem returning {ending : Ending} {rest : Tray}
    (waits : s.calls.get? call = some (.collecting order.id))
    (fresh : s.results.get? order.id = some .fresh)
    (here : s.workers[i]? = some ⟨.returning order ending rest, report⟩) : Soon s i call := by
  induction rest generalizing s with
  | nil =>
    have ran : s.step (.worker i) = some
        ((s.resolveResult order.id (.spoiled (ending.error order.id))).setPhase i .free, []) := by
      simp [State.step, State.stepWorker, here]
    exact .tell waits fresh ran
  | cons entry rest ih =>
    obtain ⟨product, item⟩ := entry
    have moved : ∀ {phase : WorkerPhase} {s : State}, s.workers[i]? = some ⟨phase, report⟩ →
        ∀ now, (s.setPhase i now).workers[i]? = some ⟨now, report⟩ := by
      intro phase s here now
      simp [State.setPhase, here]
    cases known : s.hasStation product with
    | false =>
      have ran : s.step (.worker i) = some (s.setPhase i (.returning order ending rest),
          [.noticed (.returnSkipped product order.id)]) := by
        simp [State.step, State.stepWorker, here, known]
      refine .next ran (.inl rfl) (ih ?_ ?_ ?_)
      · exact waits
      · exact fresh
      · exact moved here _
    | true =>
      have asked : s.step (.worker i) = some
          (s.setPhase i (.handingBack order ending product item rest),
            [.called product (.acceptReturn item)]) := by
        simp [State.step, State.stepWorker, here, known]
      have there := moved here (.handingBack order ending product item rest)
      refine .next asked (.inl rfl) (.next (by simp only [State.step, State.stepReturned, there]; rfl)
        (.inr rfl) (ih ?_ ?_ ?_))
      · exact waits
      · exact fresh
      · exact moved there _

theorem delivering {made : Tray} (waits : s.calls.get? call = some (.collecting order.id))
    (fresh : s.results.get? order.id = some .fresh)
    (here : s.workers[i]? = some ⟨.delivering order made, report⟩) : Soon s i call := by
  have ran : s.step (.worker i) = some
      ((s.resolveResult order.id (.meal (made.map (·.2)))).setPhase i .free, []) := by
    simp [State.step, State.stepWorker, here]
  exact .tell waits fresh ran

-- A worker that was told that the client came hands the order out.
theorem handOut {made : Tray} (orders : Orders s)
    (waits : s.calls.get? call = some (.collecting order.id))
    (here : s.workers[i]? = some ⟨.holding order made true, report⟩) : Soon s i call := by
  obtain ⟨slot, _, fresh⟩ := orders.had i _ order (State.phases_of here) rfl
  have picked : s.board.orderState order.id = some .pickedUp := by
    change (s.view order.id).slot.map (·.state) = _
    rw [slot]
    rfl
  have ran : s.step (.worker i) = some
      ((s.pickUp order.id).setWorker i ⟨.delivering order made, report.collect order⟩,
        [.noticed (.orderCollected order.id i)]) := by
    simp [State.step, State.stepWorker, here, State.wakeHolding, State.settlePickup, picked,
      State.pickUp, Report.collect]
  have inside := (List.getElem?_eq_some_iff.mp here).1
  have there : ((s.pickUp order.id).setWorker i
      ⟨.delivering order made, report.collect order⟩).workers[i]? =
        some ⟨.delivering order made, report.collect order⟩ := by
    simp [State.setWorker, State.pickUp, State.withBoard, inside]
  apply Soon.next ran (.inl rfl)
  apply Soon.delivering ?_ ?_ there
  · exact waits
  · exact fresh

theorem of_waiting (orders : Orders s) (waits : s.calls.get? call = some (.collecting id))
    (taken : Taken s id) : ∃ i, Soon s i call := by
  have untaken : ∀ {state}, (s.view id).slot ≠ some ⟨state, true⟩ := by
    intro state slot
    cases taken.2 _ slot
  rcases orders.place taken.1 with ⟨order, member, rfl⟩ | ⟨i, phase, order, place, has, rfl⟩ | past
  · exact absurd (orders.queued order member).1 untaken
  · have fits := orders.had i phase order place has
    have fresh : s.results.get? order.id = some .fresh := fits.unanswered has
    obtain ⟨⟨phase, report⟩, here, rfl⟩ := Option.map_eq_some_iff.mp (List.getElem?_map ▸ place)
    refine ⟨i, ?_⟩
    cases phase with
    | claimed | awaiting => exact absurd fits.1 untaken
    | holding held made told =>
      cases has
      cases told with
      | false => exact absurd fits.1 untaken
      | true => exact handOut orders waits here
    | returning held ending rest =>
      cases has
      exact returning waits fresh here
    | handingBack held ending product item rest =>
      cases has
      have ran : s.step (.returned i .accepted) =
          some (s.setPhase i (.returning order ending rest), []) := by
        simp [State.step, State.stepReturned, here]
      have there : (s.setPhase i (.returning order ending rest)).workers[i]? =
          some ⟨.returning order ending rest, report⟩ := by
        simp [State.setPhase, here]
      apply Soon.next ran (.inr rfl)
      apply Soon.returning ?_ ?_ there
      · exact waits
      · exact fresh
    | delivering held made =>
      cases has
      exact delivering waits fresh here
    | _ => cases has
  · refine ⟨0, ?_⟩
    rcases past.2 with ⟨outcome, found⟩ | found
    · exact now waits found (by simp)
    · exact now waits found (by simp)

end Soon

-- The first call after the order was ready or failed takes its result.
theorem takes_first (orders : Orders s) (known : id < s.board.nextOrder)
    (unqueued : s.board.orderState id ≠ some .queued)
    (undispatched : s.board.orderState id ≠ some .dispatched) (free : ¬ Taken s id) (call : CallId) :
    (call, id) ∈ s.takes (.collect call id) := by
  rw [taken_iff orders] at free
  cases here : s.board.orderState id with
  | none => exact absurd ⟨known, .inl here⟩ free
  | some state =>
    have collectible : state.isCollectible = true := by
      cases state with
      | queued => exact absurd here unqueued
      | dispatched => exact absurd here undispatched
      | pickedUp => exact absurd ⟨known, .inr here⟩ free
      | _ => rfl
    rw [takes_of_state orders here collectible]
    exact List.mem_singleton_self _

-- An order that was taken and written down is gone.
theorem gone_of_taken (orders : Orders s) (pending : Pending s) (taken : Taken s id)
    (settled : s.settled id) : s.board.orderState id = none := by
  rcases ((taken_iff orders).mp taken).2 with none | picked
  · exact none
  · exact absurd ((pending_iff orders pending id).mpr ⟨.pickedUp, picked, rfl⟩) settled.2

-- One call at most takes the result of an order. It waits for nobody but the order's worker and the
-- stations that take products back, and what it is told, what the worker's report says and where
-- the products are agree. Calls before the order was ready or failed are told to come again, and
-- those after the one that took the result are told that there is nothing.
theorem single_winner (apart : stations.Nodup)
    (run : Run (.opened stations workers) actions events s)
    (returns : ∀ i, .returned i .crashed ∉ actions) :
    let first := State.opened stations workers
    ((first.takings actions).map (·.2)).Nodup ∧
    (∀ call id, (call, id) ∈ first.takings actions →
      (∃ outcome, (call, id, outcome) ∈ first.verdicts actions) ∨
        s.calls.get? call = some (.collecting id) ∧ ∃ i, Soon s i call) ∧
    ((first.verdicts actions).map (·.2.1)).Nodup ∧
    (∀ call id outcome, (call, id, outcome) ∈ first.verdicts actions →
      (call, id) ∈ first.takings actions ∧
      ((∃ items, outcome = .meal items) ∨ outcome = .spoiled (.orderExpired id) ∨
        outcome = .spoiled (.fulfillmentFailure id)) ∧
      ((∃ items, outcome = .meal items) ↔ ∃ i, ⟨i, id, .collected⟩ ∈ book events) ∧
      (outcome = .spoiled (.orderExpired id) ↔ ∃ i, ⟨i, id, .ended .expired⟩ ∈ book events) ∧
      (outcome = .spoiled (.fulfillmentFailure id) ↔ ∃ i, ⟨i, id, .ended .failed⟩ ∈ book events) ∧
      (∀ ref item, (ref, item) ∈ first.production actions → ref.order = id →
        returnsOf events item = outcome.returnsTo item) ∧
      id ∉ s.board.pending ∧ s.board.orderState id = none) ∧
    -- The book has each order once, and the workers' reports have what the book has.
    ((book events).map (·.id)).Nodup ∧
    (∀ (i : Nat) (worker : Worker), s.workers[i]? = some worker → ∀ fate : Fate,
      (fate.list worker.report).map some =
        (listed (book events) i fate).map (productsOf events)) ∧
    (∀ call id, s.calls.get? call = none → id < s.board.nextOrder →
      (¬ first.ripened actions id → s.step (.collect call id) =
        some (s.endCall call, [.replied call (.collected (.spoiled (.notReady id)))])) ∧
      ((∃ winner, (winner, id) ∈ first.takings actions) → s.step (.collect call id) =
        some (s.endCall call, [.replied call (.collected (.spoiled (.unknownPager id)))])) ∧
      (first.ripened actions id → (∀ winner, (winner, id) ∉ first.takings actions) →
        (call, id) ∈ first.takings (actions ++ [.collect call id]) ∧
        ∃ t, s.step (.collect call id) = some (t, []) ∧
          t.calls.get? call = some (.collecting id))) := by
  intro first
  have orders := (Orders.opened stations workers).run run
  have pending := (Pending.opened stations workers).run (Orders.opened stations workers) run
  have ledger := Ledger.run run
  have handled := Handled.run run returns
  refine ⟨handled.once, ?_, handled.single, ?_, ledger.once, ledger.written, ?_⟩
  · intro call id took
    by_cases told : ∃ verdict ∈ first.verdicts actions, verdict.2.1 = id
    · obtain ⟨⟨caller, other, outcome⟩, member, rfl⟩ := told
      have also := (handled.told caller other outcome member).1
      cases List.inj_on_of_nodup_map handled.once took also rfl
      exact .inl ⟨outcome, member⟩
    · have waits := (handled.waits call id).mpr
        ⟨took, fun verdict member same => told ⟨verdict, member, same⟩⟩
      exact .inr ⟨waits, Soon.of_waiting orders waits ((handled.taken id).mpr ⟨call, took⟩)⟩
  · intro call id outcome told
    obtain ⟨took, ⟨worker, named, fate⟩, written, rfl, fits⟩ := handled.told call id outcome told
    have taken := (handled.taken named).mpr ⟨call, took⟩
    have only : ∀ {other}, (∃ i, ⟨i, named, other⟩ ∈ book events) ↔ fate = other := by
      intro other
      constructor
      · rintro ⟨i, also⟩
        exact ledger.same_fate written also rfl
      · rintro rfl
        exact ⟨worker, written⟩
    have settled := ledger.settled _ written
    obtain ⟨some, meal, expired, failed⟩ := fits.tells
    refine ⟨took, some, ?_, ?_, ?_, ?_, settled.2, gone_of_taken orders pending taken settled⟩
    · rw [only, meal]
    · rw [only, expired]
    · rw [only, failed]
    · rintro ref item made rfl
      exact returnsOf_told apart run returns told made
  · intro call id unused known
    refine ⟨?_, ?_, ?_⟩
    · intro unripe
      apply collect_early orders unused
      rw [ripened_iff run known] at unripe
      by_cases queued : s.board.orderState id = some .queued
      · exact .inl queued
      · exact .inr (Classical.not_not.mp fun other => unripe ⟨queued, other⟩)
    · exact fun won => collect_late unused ((handled.taken id).mpr won)
    · intro ripe free
      obtain ⟨unqueued, undispatched⟩ := (ripened_iff run known).mp ripe
      have untaken : ¬ Taken s id := by
        rw [handled.taken]
        rintro ⟨winner, took⟩
        exact free winner took
      have took := takes_first orders known unqueued undispatched untaken call
      rw [takings_next run]
      exact ⟨List.mem_append_right _ took, collect_taking unused took⟩

-- That day the first order is eaten, and the second has expired when its client comes: the first
-- burger goes to no station, and the second went back.
def lateDay : List Action := closingDay ++ [.client 2, .collect 3 1, .client 3]

theorem lateDay_verdicts :
    (State.opened ["burger"] 1).verdicts lateDay =
        [(1, 0, .meal [⟨"burger", 0, .burger⟩]), (3, 1, .spoiled (.orderExpired 1))] ∧
      returnsOf ((State.opened ["burger"] 1).after lateDay).2 ⟨"burger", 0, .burger⟩ = [] ∧
      returnsOf ((State.opened ["burger"] 1).after lateDay).2 ⟨"burger", 1, .burger⟩ = ["burger"] ∧
      ∃ i, ⟨i, 1, .ended .expired⟩ ∈ book ((State.opened ["burger"] 1).after lateDay).2 := by
  have possible : ((State.opened ["burger"] 1).play lateDay).isSome = true := by decide +kernel
  have told : (State.opened ["burger"] 1).verdicts lateDay =
      [(1, 0, .meal [⟨"burger", 0, .burger⟩]), (3, 1, .spoiled (.orderExpired 1))] := by
    decide +kernel
  have made : (State.opened ["burger"] 1).production lateDay =
      [(⟨0, 0⟩, ⟨"burger", 0, .burger⟩), (⟨1, 0⟩, ⟨"burger", 1, .burger⟩)] := by
    decide +kernel
  obtain ⟨_, _, _, verdict, _⟩ :=
    single_winner (by decide) (run_after possible) (by simp [lateDay, closingDay])
  rw [told, made] at verdict
  obtain ⟨_, _, _, _, _, eaten, _⟩ := verdict 1 0 _ (.head _)
  obtain ⟨_, _, _, expired, _, back, _⟩ := verdict 3 1 _ (.tail _ (.head _))
  refine ⟨told, ?_, ?_, expired.mp rfl⟩
  · exact eaten ⟨0, 0⟩ _ (.head _) rfl
  · exact back ⟨1, 0⟩ _ (.tail _ (.head _)) rfl

end Kitchen.Engine
