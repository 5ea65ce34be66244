import Kitchen.Proofs.Deliveries
import Kitchen.Proofs.Ledger

-- Which calls take an order's result, and what they are told. An order's result is taken once, by
-- the first call that finds it there, and that call alone is told what the worker wrote down.

namespace Kitchen.Engine

variable {s t : State} {action : Action} {actions : List Action} {events more : List Event}
  {call c : CallId} {id : OrderId} {outcome : Outcome}

def Event.answer? : Event → Option (CallId × Outcome)
  | .replied call (.collected outcome) => some (call, outcome)
  | _ => none

namespace State

def takes (s : State) : Action → List (CallId × OrderId)
  | .collect call id =>
    match s.board.slots.get? id with
    | some ⟨state, true⟩ => if state.isCollectible then [(call, id)] else []
    | _ => []
  | _ => []

def answers (s : State) : Action → List (CallId × OrderId × Outcome)
  | .client call =>
    match s.calls.get? call, s.step (.client call) with
    | some (.collecting id), some (_, events) =>
      (events.filterMap Event.answer?).map fun (caller, outcome) => (caller, id, outcome)
    | _, _ => []
  | _ => []

def takings (s : State) (actions : List Action) : List (CallId × OrderId) :=
  along State.takes s actions

def verdicts (s : State) (actions : List Action) : List (CallId × OrderId × Outcome) :=
  along State.answers s actions

end State

theorem takings_next (run : Run s actions events t) (action : Action) :
    s.takings (actions ++ [action]) = s.takings actions ++ t.takes action :=
  along_next State.takes run action

theorem verdicts_next (run : Run s actions events t) (action : Action) :
    s.verdicts (actions ++ [action]) = s.verdicts actions ++ t.answers action :=
  along_next State.answers run action

theorem takes_of (took : (call, id) ∈ s.takes action) : action = .collect call id ∧
    ∃ state, s.board.slots.get? id = some ⟨state, true⟩ ∧ state.isCollectible = true := by
  unfold State.takes at took
  split at took
  · split at took
    next state found =>
      split at took
      next collectible =>
        cases List.mem_singleton.mp took
        exact ⟨rfl, state, found, collectible⟩
      next => cases took
    next => cases took
  · cases took

theorem takes_eq {state : OrderState} (found : s.board.slots.get? id = some ⟨state, true⟩)
    (collectible : state.isCollectible = true) : s.takes (.collect call id) = [(call, id)] := by
  simp [State.takes, found, collectible]

theorem takes_short (s : State) (action : Action) :
    s.takes action = [] ∨ ∃ call id, s.takes action = [(call, id)] := by
  unfold State.takes
  split
  · split
    · split
      · exact .inr ⟨_, _, rfl⟩
      · exact .inl rfl
    · exact .inl rfl
  · exact .inl rfl

theorem takes_of_state {state : OrderState} (orders : Orders s)
    (here : s.board.orderState id = some state) (collectible : state.isCollectible = true) :
    s.takes (.collect call id) = [(call, id)] := by
  obtain ⟨⟨state, uncollected⟩, found, rfl⟩ := Option.map_eq_some_iff.mp here
  cases uncollected with
  | true => exact takes_eq found collectible
  | false =>
    have picked : state = .pickedUp := (orders.uncollected_iff found).mp rfl
    rw [picked] at collectible
    cases collectible

theorem taken_iff (orders : Orders s) : Taken s id ↔ id < s.board.nextOrder ∧
    (s.board.orderState id = none ∨ s.board.orderState id = some .pickedUp) := by
  unfold Taken Board.orderState
  apply and_congr_right
  intro known
  cases found : s.board.slots.get? id with
  | none => simp
  | some slot => simpa using orders.uncollected_iff found

theorem not_taken_of_takes (took : (call, id) ∈ s.takes action) : ¬ Taken s id := by
  obtain ⟨_, state, found, _⟩ := takes_of took
  intro taken
  cases taken.2 _ found

theorem taken_of_takes (orders : Orders s) (step : Transition s action t events)
    (took : (call, id) ∈ s.takes action) : Taken t id := by
  obtain ⟨rfl, state, found, collectible⟩ := takes_of took
  have known := orders.known found
  rcases step.ofClient rfl with move | ⟨_, _, other, _⟩
  · cases move with
    | collectUnknown _ gone => cases gone _ found
    | collectEarly _ present early =>
      cases found.symm.trans present
      rw [collectible] at early
      cases early
    | collectReady =>
      refine ⟨known, ?_⟩
      intro slot there
      cases (Table.get?_insert_self s.board.slots id _).symm.trans there
      rfl
    | collectEnded =>
      refine ⟨known, ?_⟩
      intro slot there
      cases (Table.get?_erase_self s.board.slots id).symm.trans there
  · cases other

-- An order's result is gone once a call has taken it, and only then.
theorem taken_step_iff (orders : Orders s) (step : Transition s action t events) :
    Taken t id ↔ Taken s id ∨ ∃ call, (call, id) ∈ s.takes action := by
  constructor
  · intro taken
    obtain ⟨below, gone⟩ := (taken_iff (orders.step step)).mp taken
    have known : id < s.board.nextOrder := by
      apply Nat.lt_of_not_le
      intro new
      rcases step.numbers with same | ⟨next, queued⟩
      · exact absurd below (Nat.not_lt.mpr (same ▸ new))
      · rw [next] at below
        have equal : s.board.nextOrder = id := Nat.le_antisymm new (Nat.lt_succ_iff.mp below)
        rw [← equal, queued] at gone
        rcases gone with gone | gone <;> cases gone
    have took : ∀ {call state}, s.board.orderState id = some state → state.isCollectible = true →
        action = .collect call id → ∃ call, (call, id) ∈ s.takes action := by
      rintro call state here collectible rfl
      refine ⟨call, ?_⟩
      rw [takes_of_state orders here collectible]
      exact List.mem_singleton_self _
    have passage := step.passage orders id
    generalize before : s.board.orderState id = first at passage
    generalize t.board.orderState id = last at passage gone
    cases passage with
    | stay => exact .inl ((taken_iff orders).mpr ⟨known, before ▸ gone⟩)
    | handOut => exact .inl ((taken_iff orders).mpr ⟨known, .inr before⟩)
    | pickUp => exact .inr (took before rfl rfl)
    | takeFailed => exact .inr (took before rfl rfl)
    | takeExpired => exact .inr (took before rfl rfl)
    | accept | dispatch | finish | fail | expire => rcases gone with gone | gone <;> cases gone
  · rintro (taken | ⟨call, took⟩)
    · exact taken.step step
    · exact taken_of_takes orders step took

theorem collected_of_step (here : s.calls.get? call = some (.collecting id))
    (step : Transition s (.client call) t events) :
    ∃ content heard outcome, s.results.get? id = some ⟨content, heard⟩ ∧
      t = (s.hearResult id heard).endCall call ∧ events = [.replied call (.collected outcome)] ∧
      (content = .holding outcome ∨
        content = .closed ∧ outcome = .spoiled (.fulfillmentFailure id)) := by
  rcases step.ofClient rfl with move | ⟨_, _, same, there, _⟩
  · cases move with
    | getResult waits filled =>
      cases here.symm.trans waits
      exact ⟨_, _, _, filled, rfl, rfl, .inl rfl⟩
    | getNothing waits empty =>
      cases here.symm.trans waits
      exact ⟨_, _, _, empty, rfl, rfl, .inr ⟨rfl, rfl⟩⟩
    | usePager there => cases here.symm.trans there
  · cases same
    cases here.symm.trans there

theorem answers_eq (here : s.calls.get? call = some (.collecting id))
    (ran : s.step (.client call) = some (t, [.replied call (.collected outcome)])) :
    s.answers (.client call) = [(call, id, outcome)] := by
  simp [State.answers, here, ran, Event.answer?]

-- Either somebody is told in this step, or nobody who waits moves.
theorem answers_cases (ran : s.step action = some (t, events)) :
    s.answers action = [] ∧
        (∀ call id, s.calls.get? call = some (.collecting id) → action ≠ .client call) ∨
      ∃ call id outcome, action = .client call ∧ s.calls.get? call = some (.collecting id) ∧
        events = [.replied call (.collected outcome)] ∧
        s.answers action = [(call, id, outcome)] := by
  by_cases waits : ∃ call id, s.calls.get? call = some (.collecting id) ∧ action = .client call
  · obtain ⟨call, id, here, rfl⟩ := waits
    obtain ⟨_, _, outcome, _, _, rfl, _⟩ := collected_of_step here (transition_of_step ran)
    exact .inr ⟨call, id, outcome, rfl, here, rfl, answers_eq here ran⟩
  · refine .inl ⟨?_, fun call id here same => waits ⟨call, id, here, same⟩⟩
    unfold State.answers
    split
    · split
      next here _ => exact absurd ⟨_, _, here, rfl⟩ waits
      next => rfl
    · rfl

-- A call waits for a result from the step in which it takes it to its own next step.
theorem collecting_step_iff (step : Transition s action t events) (call : CallId) (id : OrderId) :
    t.calls.get? call = some (.collecting id) ↔
      s.calls.get? call = some (.collecting id) ∧ action ≠ .client call ∨
        (call, id) ∈ s.takes action := by
  have still : (t.calls.get? call = some (.collecting id) ↔
        s.calls.get? call = some (.collecting id)) → s.takes action = [] →
      (s.calls.get? call = some (.collecting id) → action ≠ .client call) →
      (t.calls.get? call = some (.collecting id) ↔
        s.calls.get? call = some (.collecting id) ∧ action ≠ .client call ∨
          (call, id) ∈ s.takes action) := by
    intro same none apart
    rw [same, none]
    simpa using apart
  have unused : ∀ {c : CallId}, s.calls.get? c = none →
      ∀ id, s.calls.get? c ≠ some (.collecting id) := by
    intro c free id here
    rw [free] at here
    cases here
  have begin : ∀ {c : CallId} {other : OrderId} {state : OrderState},
      s.board.slots.get? other = some ⟨state, true⟩ → state.isCollectible = true →
      s.calls.get? c = none → t.calls = s.calls.insert c (.collecting other) →
      action = .collect c other → (t.calls.get? call = some (.collecting id) ↔
        s.calls.get? call = some (.collecting id) ∧ action ≠ .client call ∨
          (call, id) ∈ s.takes action) := by
    rintro c other state present collectible free calls rfl
    rw [takes_eq present collectible, calls, Table.get?_insert]
    split
    next mine =>
      subst mine
      simp [free, eq_comm]
    next differ =>
      have apart : call ≠ c := fun same => differ same.symm
      simp [apart]
  cases step with
  | worker _ move =>
    have quiet : s.takes action = [] ∧ action ≠ .client call := by
      rcases move.own with rfl | rfl | ⟨_, rfl⟩ <;> exact ⟨rfl, by simp⟩
    rw [move.unmanned.calls] at still ⊢
    exact still .rfl quiet.1 fun _ => quiet.2
  | runner _ move =>
    have quiet : s.takes action = [] ∧ action ≠ .client call := by
      cases move <;> exact ⟨rfl, by simp⟩
    rw [move.unmanned.calls] at still ⊢
    exact still .rfl quiet.1 fun _ => quiet.2
  | client move =>
    cases move with
    | collectReady free present => exact begin present rfl free rfl rfl
    | collectEnded free present ended =>
      refine begin present ?_ free rfl rfl
      rcases ended with rfl | rfl <;> rfl
    | collectUnknown free gone =>
      refine still (collecting_erase (unused free) rfl call id) ?_ (by simp)
      apply List.eq_nil_iff_forall_not_mem.mpr
      rintro ⟨caller, taken⟩ took
      obtain ⟨same, _, found, _⟩ := takes_of took
      cases same
      cases gone _ found
    | collectEarly free present early =>
      refine still (collecting_erase (unused free) rfl call id) ?_ (by simp)
      simp [State.takes, present, early]
    | @getResult c _ _ _ waits | @getNothing c _ _ waits =>
      change (s.calls.erase c).get? call = _ ↔ _
      rw [Table.get?_erase]
      split
      next mine =>
        subst mine
        simp [State.takes]
      next differ =>
        have apart : ¬ Action.client c = .client call := fun same => differ (Action.client.inj same)
        simp [State.takes, apart]
    | takePager free | shutdown free =>
      refine still (collecting_insert (unused free) rfl ?_ call id) rfl (by simp)
      simp
    | shutdownAgain free =>
      exact still (collecting_erase (unused free) rfl call id) rfl (by simp)
    | waitOver here =>
      have apart := not_collecting here (by simp)
      exact still (collecting_erase apart rfl call id) rfl (by simp)
    | usePager here move =>
      refine still (move.collecting here call id) rfl ?_
      rintro waits same
      cases same
      exact not_collecting here (by simp) id waits
    | _ => exact still .rfl rfl (by simp)
  | shutdown here move =>
    refine still (move.collecting here call id) rfl ?_
    rintro waits same
    cases same
    exact not_collecting here (by simp) id waits

-- A worker leaves the signals of results as they are, but for the one through which it speaks.
theorem emptied_resolve {order : Order} (fresh : s.results.get? order.id = some .fresh)
    (emptied : Emptied (s.resolveResult order.id outcome) id) : Emptied s id := by
  obtain ⟨heard, found⟩ := emptied
  simp only [State.resolveResult, Table.get?_modify] at found
  split at found
  next same =>
    rw [← same, fresh] at found
    cases found
  next => exact ⟨heard, found⟩

theorem emptied_hear {heard : Bool} {other : OrderId}
    (waits : s.calls.get? call = some (.collecting other))
    (emptied : Emptied ((s.hearResult other heard).endCall call) id) : Emptied s id ∨
      ∃ c, s.calls.get? c = some (.collecting id) ∧ Action.client call = .client c := by
  obtain ⟨before, found⟩ := emptied
  simp only [State.endCall, State.hearResult, Table.get?_insert] at found
  split at found
  next same => exact .inr ⟨call, same ▸ waits, rfl⟩
  next => exact .inl ⟨before, found⟩

-- Where no station crashes over a product, a signal is emptied by the call that waits for it.
theorem emptied_step_iff (orders : Orders s) (step : Transition s action t events)
    (returns : ∀ i, action ≠ .returned i .crashed) : Emptied t id ↔ Emptied s id ∨
      ∃ call, s.calls.get? call = some (.collecting id) ∧ action = .client call := by
  constructor
  · intro emptied
    cases step with
    | worker here move =>
      have place := State.phases_of here
      left
      cases move with
      | @dispatch order => exact emptied.same (spread_results s order).symm
      | tell => exact emptied_resolve (orders.had _ _ _ place rfl).2 emptied
      | deliver => exact emptied_resolve (orders.had _ _ _ place rfl).2.2 emptied
      | crash => exact absurd rfl (returns _)
      | _ => exact emptied
    | runner _ move => exact .inl (emptied.same move.workers.2.2.2.2.2.symm)
    | client move =>
      cases move with
      | place | placeWaking =>
        obtain ⟨heard, found⟩ := emptied
        simp only [State.accept, State.setWorker, Table.get?_insert] at found
        split at found
        · cases found
        · exact .inl ⟨heard, found⟩
      | getResult waits | getNothing waits => exact emptied_hear waits emptied
      | usePager _ move => exact .inl (emptied.same move.frame.2.2.2.2.1.symm)
      | _ => exact .inl emptied
    | shutdown _ move => exact .inl (emptied.same move.frame.2.2.2.2.2.2.2.1.symm)
  · rintro (emptied | ⟨call, here, rfl⟩)
    · exact emptied.step orders step
    · obtain ⟨_, heard, _, _, rfl, _⟩ := collected_of_step here step
      exact ⟨heard, Table.get?_insert_self ..⟩

structure Handled (takings : List (CallId × OrderId)) (verdicts : List (CallId × OrderId × Outcome))
    (events : List Event) (s : State) : Prop where
  once : (takings.map (·.2)).Nodup
  taken : ∀ id, Taken s id ↔ ∃ call, (call, id) ∈ takings
  waits : ∀ call id, s.calls.get? call = some (.collecting id) ↔
    (call, id) ∈ takings ∧ ∀ verdict ∈ verdicts, verdict.2.1 ≠ id
  single : (verdicts.map (·.2.1)).Nodup
  told : ∀ call id outcome, (call, id, outcome) ∈ verdicts → (call, id) ∈ takings ∧
    ∃ entry ∈ book events, entry.id = id ∧ entry.fate.fits id outcome
  emptied : ∀ id, Emptied s id ↔ ∃ verdict ∈ verdicts, verdict.2.1 = id

namespace Handled

variable {takings : List (CallId × OrderId)} {verdicts : List (CallId × OrderId × Outcome)}

theorem opened (stations : List String) (workers : Nat) :
    Handled [] [] [] (.opened stations workers) := by
  refine ⟨List.nodup_nil, ?_, ?_, List.nodup_nil, by simp, ?_⟩
  · intro id
    constructor
    · rintro ⟨below, _⟩
      exact absurd below (Nat.not_lt_zero id)
    · rintro ⟨call, took⟩
      cases took
  · intro call id
    constructor
    · intro found
      cases found
    · rintro ⟨took, _⟩
      cases took
  · intro id
    constructor
    · rintro ⟨heard, found⟩
      cases found
    · rintro ⟨verdict, member, _⟩
      cases member

theorem told_more (handled : Handled takings verdicts events s) (more : List Event)
    (told : (call, id, outcome) ∈ verdicts) : (call, id) ∈ takings ∧
      ∃ entry ∈ book (events ++ more), entry.id = id ∧ entry.fate.fits id outcome := by
  obtain ⟨took, entry, member, mine⟩ := handled.told call id outcome told
  rw [book_append]
  exact ⟨took, entry, List.mem_append_left _ member, mine⟩

-- Nobody who waits moves and nobody begins to.
theorem still (handled : Handled takings verdicts events s) (orders : Orders s)
    (step : Transition s action t more) (returns : ∀ i, action ≠ .returned i .crashed)
    (none : s.takes action = [])
    (apart : ∀ call id, s.calls.get? call = some (.collecting id) → action ≠ .client call) :
    Handled takings verdicts (events ++ more) t := by
  refine ⟨handled.once, ?_, ?_, handled.single, fun _ _ _ => handled.told_more more, ?_⟩
  · intro id
    rw [taken_step_iff orders step, none, handled.taken]
    simp
  · intro call id
    rw [collecting_step_iff step, none, ← handled.waits]
    simpa using apart call id
  · intro id
    rw [emptied_step_iff orders step returns, ← handled.emptied]
    constructor
    · rintro (emptied | ⟨call, here, same⟩)
      · exact emptied
      · exact absurd same (apart call id here)
    · exact .inl

-- A call takes a result that nobody has taken.
theorem take (handled : Handled takings verdicts events s) (orders : Orders s)
    (step : Transition s action t more) (one : s.takes action = [(call, id)]) :
    Handled (takings ++ [(call, id)]) verdicts (events ++ more) t := by
  have took : (call, id) ∈ s.takes action := one ▸ List.mem_singleton_self _
  have fresh : ∀ caller, (caller, id) ∉ takings :=
    fun caller before => not_taken_of_takes took ((handled.taken id).mpr ⟨caller, before⟩)
  obtain ⟨rfl, _⟩ := takes_of took
  refine ⟨?_, ?_, ?_, handled.single, ?_, ?_⟩
  · apply nodup_map_concat handled.once
    rintro ⟨caller, taken⟩ before rfl
    exact fresh caller before
  · intro other
    rw [taken_step_iff orders step, one, handled.taken]
    simp only [List.mem_append, exists_or]
  · intro caller other
    have still : ∀ verdict ∈ verdicts, verdict.2.1 ≠ id := by
      rintro ⟨asker, mine, outcome⟩ told rfl
      exact fresh asker (handled.told asker _ outcome told).1
    rw [collecting_step_iff step, one, handled.waits]
    simp only [ne_eq, reduceCtorEq, not_false_eq_true, and_true, List.mem_append, List.mem_singleton,
      Prod.mk.injEq]
    constructor
    · rintro (⟨before, untold⟩ | ⟨rfl, rfl⟩)
      · exact ⟨.inl before, untold⟩
      · exact ⟨.inr ⟨rfl, rfl⟩, still⟩
    · rintro ⟨before | mine, untold⟩
      · exact .inl ⟨before, untold⟩
      · exact .inr mine
  · intro caller other outcome told
    obtain ⟨before, written⟩ := handled.told_more more told
    exact ⟨List.mem_append_left _ before, written⟩
  · intro other
    rw [emptied_step_iff orders step (by simp), ← handled.emptied]
    simp

-- A call that waits is told what its order's worker wrote down.
theorem answer (handled : Handled takings verdicts events s) (orders : Orders s)
    (ledger : Ledger events s) (here : s.calls.get? call = some (.collecting id))
    (step : Transition s (.client call) t [.replied call (.collected outcome)]) :
    Handled takings (verdicts ++ [(call, id, outcome)])
      (events ++ [.replied call (.collected outcome)]) t := by
  obtain ⟨took, untold⟩ := (handled.waits call id).mp here
  -- Its signal is not empty: an empty one belongs to an order whose client was told.
  have filled : ∃ heard, s.results.get? id = some ⟨.holding outcome, heard⟩ := by
    obtain ⟨content, heard, said, found, _, same, from'⟩ := collected_of_step here step
    cases same
    rcases from' with rfl | ⟨rfl, _⟩
    · exact ⟨heard, found⟩
    · obtain ⟨verdict, member, mine⟩ := (handled.emptied id).mp ⟨heard, found⟩
      exact absurd mine (untold verdict member)
  have alone : ∀ {caller other}, s.calls.get? caller = some (.collecting other) →
      (other = id ↔ caller = call) := by
    intro caller other there
    constructor
    · rintro rfl
      have equal := List.inj_on_of_nodup_map handled.once ((handled.waits caller other).mp there).1 took rfl
      cases equal
      rfl
    · rintro rfl
      rw [here] at there
      cases there
      rfl
  refine ⟨handled.once, ?_, ?_, ?_, ?_, ?_⟩
  · intro other
    rw [taken_step_iff orders step, handled.taken]
    simp [State.takes]
  · intro caller other
    rw [collecting_step_iff step]
    simp only [State.takes, List.not_mem_nil, or_false, ne_eq, Action.client.injEq, List.mem_append,
      List.mem_singleton]
    constructor
    · rintro ⟨there, apart⟩
      obtain ⟨before, none⟩ := (handled.waits caller other).mp there
      refine ⟨before, ?_⟩
      rintro verdict (member | rfl)
      · exact none verdict member
      · exact fun same => apart ((alone there).mp same.symm).symm
    · rintro ⟨before, none⟩
      have there := (handled.waits caller other).mpr ⟨before, fun verdict member => none verdict (.inl member)⟩
      exact ⟨there, fun same => none _ (.inr rfl) ((alone there).mpr same.symm).symm⟩
  · exact nodup_map_concat handled.single untold
  · intro caller other said told
    rcases List.mem_append.mp told with before | last
    · exact handled.told_more _ before
    · cases List.mem_singleton.mp last
      obtain ⟨heard, found⟩ := filled
      obtain ⟨entry, member, mine⟩ := ledger.told id outcome heard found
      rw [book_append]
      exact ⟨took, entry, List.mem_append_left _ member, mine⟩
  · intro other
    rw [emptied_step_iff orders step (by simp), handled.emptied]
    simp only [List.mem_append, List.mem_singleton, Action.client.injEq]
    constructor
    · rintro (⟨verdict, member, mine⟩ | ⟨caller, there, rfl⟩)
      · exact ⟨verdict, .inl member, mine⟩
      · exact ⟨_, .inr rfl, ((alone there).mpr rfl).symm⟩
    · rintro ⟨verdict, member | rfl, mine⟩
      · exact .inl ⟨verdict, member, mine⟩
      · cases mine
        exact .inr ⟨call, here, rfl⟩

theorem next (handled : Handled takings verdicts events s) (orders : Orders s)
    (ledger : Ledger events s) (ran : s.step action = some (t, more))
    (returns : ∀ i, action ≠ .returned i .crashed) :
    Handled (takings ++ s.takes action) (verdicts ++ s.answers action) (events ++ more) t := by
  have step := transition_of_step ran
  rcases answers_cases ran with ⟨silent, apart⟩ | ⟨call, id, outcome, rfl, here, rfl, told⟩
  · rw [silent, List.append_nil]
    rcases takes_short s action with none | ⟨call, id, one⟩
    · rw [none, List.append_nil]
      exact handled.still orders step returns none apart
    · rw [one]
      exact handled.take orders step one
  · rw [told]
    exact (List.append_nil takings).symm ▸ handled.answer orders ledger here step

theorem run (run : Run (.opened stations workers) actions events t)
    (returns : ∀ i, .returned i .crashed ∉ actions) :
    Handled ((State.opened stations workers).takings actions)
      ((State.opened stations workers).verdicts actions) events t := by
  induction run with
  | start => exact opened stations workers
  | next before ran ih =>
    rw [takings_next before, verdicts_next before]
    refine (ih fun i member => returns i (List.mem_append_left _ member)).next
      ((Orders.opened stations workers).run before) (Ledger.run before) ran ?_
    rintro i rfl
    exact returns i (List.mem_append_right _ (List.mem_singleton_self _))

end Handled

end Kitchen.Engine
