import Kitchen.Proofs.Moves

namespace Kitchen.Engine

namespace State

variable {s t : State} {action : Action} {events : List Event} {call : CallId} {id : OrderId}
  {worker : Worker} {runner : Runner} {report : Report} {order : Order} {products : List String}

theorem setPhase_eq (here : s.workers[i]? = some ⟨old, report⟩) (phase : WorkerPhase) :
    s.setPhase i phase = s.setWorker i ⟨phase, report⟩ := by
  have same : s.workers.modify i (fun worker => { worker with phase }) =
      s.workers.set i ⟨phase, report⟩ := by
    apply List.ext_getElem?
    intro j
    rw [List.getElem?_modify, List.getElem?_set]
    by_cases equal : i = j
    · subst j
      obtain ⟨inside, same⟩ := List.getElem?_eq_some_iff.mp here
      simp [inside, same]
    · cases s.workers[j]? <;> simp [equal]
  simp only [setPhase, setWorker, same]

theorem toPhase (here : s.workers[i]? = some ⟨old, report⟩) (kept : t.workers = s.workers)
    (move : WorkerMove s i report old action (t.setWorker i ⟨phase, report⟩) events) :
    WorkerMove s i report old action (t.setPhase i phase) events := by
  rw [setPhase_eq (kept ▸ here)]
  exact move

theorem resolveJob_eq (s : State) (job : JobRef) (result : JobResult) :
    (s.resolveJob job result).2 = s.answerJob job result := by
  unfold resolveJob answerJob Table.modify
  cases s.jobs.get? job <;> rfl

theorem endCall_of_unused (unused : s.calls.get? call = none) : s.endCall call = s := by
  have absent (entries : List (CallId × Call)) (missing : Table.find call entries = none) :
      entries.filter (fun e => e.1 ≠ call) = entries := by
    induction entries with
    | nil => rfl
    | cons e rest ih =>
      simp only [Table.find] at missing
      split at missing
      · cases missing
      · next other => rw [List.filter_cons_of_pos (by simpa using other), ih missing]
  have same : s.calls.erase call = s.calls := by
    simp only [Table.erase, absent s.calls.entries unused]
  simp [endCall, same]

theorem claim_sound (here : s.workers[i]? = some ⟨phase, report⟩) (seeks : phase.seeks = true)
    (ran : s.claim i ⟨phase, report⟩ = (t, events)) :
    WorkerMove s i report phase (.worker i) t events := by
  unfold claim at ran
  split at ran
  next first =>
    cases ran
    exact toPhase here rfl (.claim seeks first)
  next nothing =>
    split at ran
    next closed =>
      cases ran
      exact toPhase here rfl (.leave seeks nothing closed)
    next unclosed =>
      cases ran
      exact toPhase here rfl (.rest seeks nothing (by simpa using unclosed))

-- What spreading an order's jobs leaves alone.

theorem dispatchJob_frame (s : State) (order : OrderId) (position : Nat) (product : String) :
    ∃ queues jobs runners, (s.dispatchJob order position product).1 =
      { s with board := { s.board with queues }, jobs, runners } := by
  unfold dispatchJob
  split
  · exact ⟨_, _, _, rfl⟩
  · exact ⟨_, _, _, rfl⟩

theorem dispatchFrom_frame (s : State) (order : OrderId) (position : Nat) (products : List String) :
    ∃ queues jobs runners, (s.dispatchFrom order position products).1 =
      { s with board := { s.board with queues }, jobs, runners } := by
  induction products generalizing s position with
  | nil => exact ⟨_, _, _, rfl⟩
  | cons product rest ih =>
    obtain ⟨queues, jobs, runners, first⟩ := dispatchJob_frame s order position product
    obtain ⟨queues', jobs', runners', later⟩ :=
      ih (s.dispatchJob order position product).1 (position + 1)
    refine ⟨queues', jobs', runners', ?_⟩
    rw [dispatchFrom, later, first]

theorem spread_frame (s : State) (order : Order) :
    ∃ queues jobs runners, (s.spread order).1 =
      { s with
        board := { (s.board.setState order.id .dispatched) with queues }
        jobs, runners } :=
  dispatchFrom_frame _ _ _ _

theorem dispatch_sound (here : s.workers[i]? = some ⟨.claimed order, report⟩)
    (ran : s.dispatch i order = (t, events)) :
    WorkerMove s i report (.claimed order) (.worker i) t events := by
  cases ran
  have kept : (s.spread order).1.workers = s.workers := by
    obtain ⟨queues, jobs, runners, spread⟩ := s.spread_frame order
    rw [spread]
  exact toPhase here kept .dispatch

theorem receiveJob_sound (here : s.workers[i]? = some ⟨.awaiting order made failed, report⟩)
    (wanted : order.products[made.length + failed]? = some product)
    (ran : s.receiveJob i ⟨.awaiting order made failed, report⟩ order made failed product =
      some (t, events)) :
    WorkerMove s i report (.awaiting order made failed) (.worker i) t events := by
  unfold receiveJob at ran
  dsimp only at ran
  split at ran
  · cases ran
  next signal found =>
    obtain ⟨content, heard⟩ := signal
    cases content with
    | waiting => cases ran
    | closed =>
      cases ran
      exact .hearNothing wanted found
    | holding result =>
      cases result with
      | made item =>
        cases ran
        exact toPhase here rfl (.receive wanted found)
      | broke error =>
        cases ran
        exact .hearBreak wanted found

theorem ready_state (slotted : s.board.slots.get? id = some slot) :
    (s.ready id).board.orderState id = some .ready := by
  simp [State.ready, buzz, withBoard, Board.setState, Board.orderState, Table.get?_modify, slotted]

theorem spoil_state (slotted : s.board.slots.get? id = some slot) :
    (s.spoil id).board.orderState id = some .failed := by
  simp [State.spoil, buzz, withBoard, Board.setState, Board.removePending, Board.orderState,
    Table.get?_modify, slotted]

theorem ready_unslotted (unslotted : s.board.slots.get? id = none) :
    (s.ready id).board.orderState id = none := by
  simp [State.ready, buzz, withBoard, Board.setState, Board.orderState, Table.get?_modify,
    unslotted]

theorem holdForPickup_sound (here : s.workers[i]? = some ⟨.awaiting order made 0, report⟩)
    (done : order.products[made.length]? = none)
    (ran : s.holdForPickup i ⟨.awaiting order made 0, report⟩ order made = (t, events)) :
    WorkerMove s i report (.awaiting order made 0) (.worker i) t events := by
  change (if (s.ready order.id).board.orderState order.id = some .ready then _ else _) = _ at ran
  cases found : s.board.slots.get? order.id with
  | some slot =>
    rw [if_pos (ready_state found)] at ran
    cases ran
    exact toPhase here rfl (.hold done found)
  | none =>
    have unknown := ready_unslotted found
    rw [if_neg (by simp [unknown])] at ran
    have settled : (s.ready order.id).settlePickup i ⟨.awaiting order made 0, report⟩ order made =
        (((s.ready order.id).expire order.id).setWorker i
          ⟨.returning order .expired made, report.abandon order⟩,
          [.noticed (.orderExpired order.id i made.length)]) := by
      unfold settlePickup
      rw [if_neg (by simp [unknown])]
      rfl
    obtain ⟨rfl, rfl⟩ := Prod.mk.inj ran
    change WorkerMove s i report _ _ ((s.ready order.id).settlePickup i _ order made).1
      (_ :: ((s.ready order.id).settlePickup i _ order made).2)
    rw [settled]
    exact .holdUnslotted done found

theorem settlePickup_sound
    (due : action = .worker i ∧ notified = true ∧ s.board.orderState order.id ≠ some .ready
      ∨ action = .pickupTimeout i)
    (ran : s.settlePickup i ⟨.holding order made notified, report⟩ order made = (t, events)) :
    WorkerMove s i report (.holding order made notified) action t events := by
  unfold settlePickup at ran
  split at ran
  next came =>
    cases ran
    exact .collected (due.imp_left fun told => ⟨told.1, told.2.1⟩) came
  next late =>
    cases ran
    exact .expired due late

theorem stepWorker_sound (ran : s.stepWorker i = some (t, events)) :
    Transition s (.worker i) t events := by
  unfold stepWorker at ran
  split at ran
  · cases ran
  next worker here =>
    obtain ⟨phase, report⟩ := worker
    refine .worker here ?_
    cases phase with
    | starting =>
      cases ran
      exact toPhase here rfl .start
    | free => exact claim_sound here rfl (Option.some.inj ran)
    | asleep notified =>
      cases notified with
      | true => exact claim_sound here rfl (Option.some.inj ran)
      | false => cases ran
    | claimed order => exact dispatch_sound here (Option.some.inj ran)
    | awaiting order made failed =>
      dsimp only at ran
      split at ran
      next product wanted => exact receiveJob_sound here wanted ran
      next done =>
        split at ran
        next sound =>
          subst failed
          exact holdForPickup_sound here done (Option.some.inj ran)
        next spoiled =>
          cases ran
          exact .fail done spoiled
    | holding order made notified =>
      cases notified with
      | false => cases ran
      | true =>
        replace ran := Option.some.inj ran
        unfold wakeHolding at ran
        split at ran
        next still =>
          cases ran
          exact toPhase here rfl (.holdOn still)
        next ended => exact settlePickup_sound (.inl ⟨rfl, rfl, ended⟩) ran
    | returning order ending rest =>
      cases rest with
      | nil =>
        cases ran
        exact toPhase here rfl .tell
      | cons entry rest =>
        obtain ⟨product, item⟩ := entry
        dsimp only at ran
        split at ran
        next known =>
          cases ran
          exact toPhase here rfl (.handBack known)
        next unknown =>
          cases ran
          exact toPhase here rfl (.skip (by simpa using unknown))
    | handingBack order ending product item rest => cases ran
    | delivering order made =>
      cases ran
      exact toPhase here rfl .deliver
    | finished => cases ran
    | dead => cases ran

theorem stepPickupTimeout_sound (ran : s.stepPickupTimeout i = some (t, events)) :
    Transition s (.pickupTimeout i) t events := by
  unfold stepPickupTimeout at ran
  split at ran
  · cases ran
  next worker here =>
    obtain ⟨phase, report⟩ := worker
    cases phase with
    | holding order made notified =>
      exact .worker here (settlePickup_sound (.inr rfl) (Option.some.inj ran))
    | _ => cases ran

theorem stepReturned_sound (ran : s.stepReturned i outcome = some (t, events)) :
    Transition s (.returned i outcome) t events := by
  unfold stepReturned at ran
  split at ran
  · cases ran
  next worker here =>
    obtain ⟨phase, report⟩ := worker
    cases phase with
    | handingBack order ending product item rest =>
      refine .worker here ?_
      cases outcome with
      | accepted => cases ran; exact toPhase here rfl .accepted
      | refused error => cases ran; exact toPhase here rfl .refused
      | crashed => cases ran; exact toPhase here rfl .crash
    | _ => cases ran

theorem nextJob_sound {calls : Nat} (seeks : phase.seeks = true)
    (ran : s.nextJob i ⟨station, phase, out, calls⟩ = (t, events)) :
    RunnerMove s i station out calls phase (.runner i) t events := by
  unfold nextJob at ran
  split at ran
  next job rest popped =>
    cases ran
    obtain ⟨queue, present, taken⟩ := Option.bind_eq_some_iff.mp popped
    exact .take seeks present taken
  next nothing =>
    split at ran
    next released =>
      cases ran
      exact .leave seeks nothing released
    next unreleased =>
      cases ran
      exact .rest seeks nothing (by simpa using unreleased)

theorem failStation_sound {calls : Nat}
    (ran : s.failStation i ⟨station, .failing job error, out, calls⟩ job error = (t, events)) :
    RunnerMove s i station out calls (.failing job error) (.runner i) t events := by
  unfold failStation at ran
  cases found : s.board.queues.get? station with
  | some queue =>
    have unchanged : (s.board.removeFromMenu station).queues.get? station = some queue := found
    simp only [unchanged] at ran
    cases ran
    exact .breakDown found
  | none =>
    have unchanged : (s.board.removeFromMenu station).queues.get? station = none := found
    simp only [unchanged] at ran
    cases ran
    exact .breakDownQueueless found

theorem stepRunner_sound (ran : s.stepRunner i = some (t, events)) :
    Transition s (.runner i) t events := by
  unfold stepRunner at ran
  split at ran
  · cases ran
  next runner here =>
    obtain ⟨station, phase, out, calls⟩ := runner
    refine .runner here ?_
    cases phase with
    | starting => cases ran; exact .start
    | idle => exact nextJob_sound rfl (Option.some.inj ran)
    | asleep notified =>
      cases notified with
      | true => exact nextJob_sound rfl (Option.some.inj ran)
      | false => cases ran
    | serving job =>
      dsimp only at ran
      split at ran
      next broken =>
        cases ran
        rw [resolveJob_eq]
        exact .refuse broken rfl
      next sound =>
        cases ran
        exact .ask (by simpa using sound)
    | producing job => cases ran
    | holding job item =>
      obtain ⟨rfl, rfl⟩ := Prod.mk.inj (Option.some.inj ran)
      change RunnerMove s i station out calls _ _ ((s.resolveJob job.slot (.made item)).2.setRunner i _)
        _
      rw [resolveJob_eq]
      exact .handOver
    | failing job error => exact failStation_sound (Option.some.inj ran)
    | sweeping jobs error =>
      cases jobs with
      | nil => cases ran; exact .swept
      | cons job rest =>
        cases ran
        rw [resolveJob_eq]
        exact .sweep
    | finished => cases ran
    | dead => cases ran

theorem stepProduced_sound (ran : s.stepProduced i outcome = some (t, events)) :
    Transition s (.produced i outcome) t events := by
  unfold stepProduced at ran
  split at ran
  · cases ran
  next runner here =>
    obtain ⟨station, phase, out, calls⟩ := runner
    cases phase with
    | producing job =>
      refine .runner here ?_
      cases outcome with
      | made product => cases ran; exact .make
      | broke error => cases ran; exact .fault
      | crashed => cases ran; exact .crash
    | _ => cases ran

theorem order_sound (ran : s.order products woken = some (t, events)) :
    ClientMove s (.order products woken) t events := by
  unfold State.order at ran
  split at ran
  next closed => cases ran; exact .orderClosed closed
  next unclosed =>
    replace unclosed : s.board.closed = false := by simpa using unclosed
    split at ran
    next product missing => cases ran; exact .orderMissing unclosed missing
    next onMenu =>
      obtain ⟨next, told, same⟩ := Option.map_eq_some_iff.mp ran
      cases same
      unfold notifyOne at told
      split at told
      · split at told
        · cases told
        next awake => cases told; exact .place unclosed onMenu (by simpa [accept] using awake)
      next index =>
        split at told
        next worker here =>
          split at told
          next sleeps =>
            obtain ⟨phase, report⟩ := worker
            cases told
            have asleep : phase = .asleep false := by simpa [isAsleep] using sleeps
            subst asleep
            exact .placeWaking unclosed onMenu here
          next => cases told
        next => cases told

theorem collect_sound (unused : s.calls.get? call = none) (ran : s.collect call id = (t, events)) :
    ClientMove s (.collect call id) t events := by
  unfold State.collect at ran
  split at ran
  next missing =>
    cases ran
    exact .collectUnknown unused (by simp [missing])
  next slot found =>
    split at ran
    next taken =>
      cases ran
      exact .collectUnknown unused (by simpa [found] using taken)
    next there =>
      obtain ⟨state, uncollected⟩ := slot
      obtain rfl : uncollected = true := by simpa using there
      cases state with
      | ready => cases ran; exact .collectReady unused found
      | failed => cases ran; exact .collectEnded unused found (.inl rfl)
      | expired => cases ran; exact .collectEnded unused found (.inr rfl)
      | queued => cases ran; exact .collectEarly unused found rfl
      | dispatched => cases ran; exact .collectEarly unused found rfl
      | pickedUp => cases ran; exact .collectEarly unused found rfl

theorem receiveResult_sound (waits : s.calls.get? call = some (.collecting id))
    (ran : s.receiveResult call id = some (t, events)) :
    ClientMove s (.client call) t events := by
  unfold receiveResult at ran
  split at ran
  · cases ran
  next signal found =>
    obtain ⟨content, heard⟩ := signal
    cases content with
    | waiting => cases ran
    | holding outcome => cases ran; exact .getResult waits found
    | closed => cases ran; exact .getNothing waits found

theorem stepPager_sound (ran : s.stepPager call id use phase = some (t, events)) :
    PagerMove s call id use phase t events := by
  cases phase with
  | checking =>
    cases noted : s.notes.get? id with
    | some readiness =>
      simp only [stepPager, noted] at ran
      cases use <;> cases ran <;> exact .known noted
    | none =>
      simp only [stepPager, noted] at ran
      cases ran
      exact .look noted
  | polling =>
    obtain ⟨⟨content, heard⟩, found, same⟩ := Option.map_eq_some_iff.mp ran
    cases content with
    | waiting => cases use <;> cases same <;> exact .silent found
    | holding readiness => cases same; exact .hear (.inl rfl) found
    | closed => cases same; exact .hearNothing (.inl rfl) found
  | waiting =>
    cases found : s.buzzers.get? id with
    | none => simp [stepPager, found] at ran
    | some signal =>
      obtain ⟨content, heard⟩ := signal
      simp only [stepPager, found] at ran
      cases content with
      | waiting => cases ran
      | holding readiness => cases ran; exact .hear (.inr rfl) found
      | closed => cases ran; exact .hearNothing (.inr rfl) found
  | noting readiness => cases use <;> cases ran <;> exact .note
  | reading => cases ran; exact .read

theorem stepShutdown_sound (ran : s.stepShutdown call phase = some (t, events)) :
    ShutdownMove s call phase t events := by
  cases phase with
  | closing => cases ran; exact .close
  | wakingWorkers => cases ran; exact .wakeWorkers
  | wakingStations => cases ran; exact .wakeStations
  | joiningWorkers reports =>
    cases here : s.workers[reports.length]? with
    | none =>
      simp only [stepShutdown, here] at ran
      cases ran
      exact .joined here
    | some worker =>
      obtain ⟨phase, report⟩ := worker
      simp only [stepShutdown, here] at ran
      cases phase with
      | finished => cases ran; exact .join here
      | dead => cases ran; exact .joinDead here
      | _ => cases ran
  | releasing reports => cases ran; exact .release
  | wakingReleased reports => cases ran; exact .wakeReleased
  | joiningRunners reports done =>
    cases here : s.runners[done]? with
    | none =>
      simp only [stepShutdown, here] at ran
      cases ran
      exact .runnersJoined here
    | some runner =>
      obtain ⟨station, phase, out, calls⟩ := runner
      simp only [stepShutdown, here] at ran
      cases phase with
      | finished => cases ran; exact .joinRunner here (.inl ⟨rfl, rfl⟩)
      | dead => cases ran; exact .joinRunner here (.inr ⟨rfl, rfl⟩)
      | _ => cases ran
  | stopping reports done =>
    cases here : s.runners[done]? with
    | none =>
      simp only [stepShutdown, here] at ran
      cases ran
      exact .finish here
    | some runner =>
      simp only [stepShutdown, here] at ran
      cases ran
      exact .stop here

theorem beginCall_some {begun : State × List Event} (ran : s.beginCall call begun = some (t, events)) :
    s.calls.get? call = none ∧ begun = (t, events) := by
  unfold beginCall at ran
  split at ran
  · cases ran
  next unused =>
    exact ⟨by simpa [Table.contains] using unused, Option.some.inj ran⟩

end State

theorem transition_of_step {s t : State} (ran : s.step action = some (t, events)) :
    Transition s action t events := by
  cases action with
  | order products woken => exact .client (State.order_sound ran)
  | collect call id =>
    obtain ⟨unused, begun⟩ := State.beginCall_some ran
    exact .client (State.collect_sound unused begun)
  | shutdown call =>
    obtain ⟨unused, begun⟩ := State.beginCall_some ran
    unfold State.beginShutdown at begun
    split at begun
    next running => cases begun; exact .client (.shutdown unused running)
    next taken => cases begun; exact .client (.shutdownAgain unused (by simpa using taken))
  | pager call id use =>
    simp only [State.step] at ran
    split at ran
    next issued =>
      obtain ⟨unused, begun⟩ := State.beginCall_some ran
      cases begun
      obtain ⟨buzzer, found⟩ := Option.isSome_iff_exists.mp issued
      exact .client (.takePager unused found)
    next => cases ran
  | client call =>
    change s.stepCall call = _ at ran
    unfold State.stepCall at ran
    split at ran
    next => cases ran
    next waits => exact .client (State.receiveResult_sound waits ran)
    next here => exact .shutdown here (State.stepShutdown_sound ran)
    next here => exact .client (.usePager here (State.stepPager_sound ran))
  | waitTimeout call =>
    simp only [State.step] at ran
    split at ran
    next here => cases ran; exact .client (.waitOver here)
    next => cases ran
  | worker i => exact State.stepWorker_sound ran
  | pickupTimeout i => exact State.stepPickupTimeout_sound ran
  | returned i outcome => exact State.stepReturned_sound ran
  | runner i => exact State.stepRunner_sound ran
  | produced i outcome => exact State.stepProduced_sound ran

end Kitchen.Engine
