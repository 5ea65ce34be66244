import Kitchen.Proofs.Descent
import Kitchen.Proofs.Sleepers
import Kitchen.Proofs.Traces

-- Somebody can always go on while anything is left to do, and what is left to do comes to an end.

namespace Kitchen.Engine

variable {s t : State} {action : Action} {actions : List Action} {events more : List Event}
  {call c : CallId} {id : OrderId} {i : Nat} {report : Report} {order : Order}
  {phase old : WorkerPhase} {was : RunnerPhase} {stations : List String} {workers j : Nat}

theorem Staffed.opened (stations : List String) (workers : Nat) :
    Staffed (.opened stations workers) := by
  intro runner member dead
  obtain ⟨station, _, rfl⟩ := List.mem_map.mp member
  cases dead

-- The station has killed its runner.
def State.lost (s : State) (j : Nat) : Prop :=
  ∃ runner, s.runners[j]? = some runner ∧ runner.phase = .dead

theorem wakeRunner_dead {runner : Runner} (dead : (State.wakeRunner runner).phase = .dead) :
    runner.phase = .dead := by
  obtain ⟨station, phase, out, calls⟩ := runner
  cases phase <;> first | rfl | cases dead

theorem lost_map (f : Runner → Runner) (runners : t.runners = s.runners.map f)
    (before : ∀ runner, (f runner).phase = .dead → runner.phase = .dead) (lost : t.lost j) :
    s.lost j := by
  obtain ⟨now, there, dead⟩ := lost
  rw [runners, List.getElem?_map] at there
  obtain ⟨runner, here, rfl⟩ := Option.map_eq_some_iff.mp there
  exact ⟨runner, here, before runner dead⟩

theorem lost_same (runners : t.runners = s.runners) (lost : t.lost j) : s.lost j := by
  rw [State.lost, ← runners]
  exact lost

-- Only a station that crashes while it produces kills its runner.
theorem lost_step (step : Transition s action t events) (lost : t.lost j) :
    s.lost j ∨ action = .produced j .crashed := by
  cases step with
  | worker _ move =>
    refine .inl ?_
    cases move with
    | @dispatch order =>
      obtain ⟨woken, runners⟩ := spread_runners s order
      refine lost_map _ runners ?_ lost
      intro runner dead
      split at dead
      · exact wakeRunner_dead dead
      · exact dead
    | _ => exact lost_same rfl lost
  | @runner i station was out calls _ _ _ here move =>
    have set : ∀ now, t.runners = s.runners.set i now → now.phase ≠ .dead → s.lost j := by
      intro now runners alive
      obtain ⟨runner, there, dead⟩ := lost
      rcases getElem?_set_cases (runners ▸ there) with ⟨_, rfl⟩ | ⟨_, before⟩
      · exact absurd dead alive
      · exact ⟨runner, before, dead⟩
    cases move with
    | crash =>
      obtain ⟨runner, there, dead⟩ := lost
      rcases getElem?_set_cases there with ⟨rfl, _⟩ | ⟨_, before⟩
      · exact .inr rfl
      · exact .inl ⟨runner, before, dead⟩
    | _ => exact .inl (set _ rfl (by simp))
  | client move =>
    refine .inl ?_
    cases move with
    | usePager _ move => exact lost_same move.frame.2.2.1 lost
    | _ => exact lost_same rfl lost
  | shutdown _ move =>
    refine .inl ?_
    cases move with
    | wakeStations | wakeReleased => exact lost_map _ rfl (fun _ => wakeRunner_dead) lost
    | _ => exact lost_same rfl lost

theorem lost_run (run : Run s actions events t) (lost : t.lost j) :
    s.lost j ∨ .produced j .crashed ∈ actions := by
  induction run with
  | start => exact .inl lost
  | next _ ran ih =>
    rcases lost_step (transition_of_step ran) lost with before | rfl
    · exact (ih before).imp_right (List.mem_append_left _)
    · exact .inr (by simp)

theorem lost_of_crash (run : Run s actions events t) (crashed : .produced j .crashed ∈ actions) :
    t.lost j := by
  induction run with
  | start => cases crashed
  | next _ ran ih =>
    have step := transition_of_step ran
    rcases List.mem_append.mp crashed with before | now
    · obtain ⟨runner, here, dead⟩ := ih before
      exact ⟨runner, step.outlasts.runners j runner here (by rw [dead]; rfl), dead⟩
    · cases List.mem_singleton.mp now
      cases step with
      | worker _ move =>
        cases move with
        | collected due | expired due => rcases due with ⟨due, _⟩ | due <;> cases due
      | runner here move =>
        cases move with
        | crash => exact ⟨_, List.getElem?_set_self (List.getElem?_eq_some_iff.mp here).1, rfl⟩
      | client move => cases move

theorem Staffed.step (staffed : Staffed s) (step : Transition s action t events)
    (produces : ∀ i, action ≠ .produced i .crashed) : Staffed t := by
  intro runner member dead
  obtain ⟨j, there⟩ := List.getElem?_of_mem member
  rcases lost_step step ⟨runner, there, dead⟩ with ⟨before, here, was⟩ | crashed
  · exact staffed before (List.mem_of_getElem? here) was
  · exact produces j crashed

theorem Staffed.run (staffed : Staffed s) (run : Run s actions events t)
    (produces : ∀ i, .produced i .crashed ∉ actions) : Staffed t := by
  induction run with
  | start => exact staffed
  | next _ ran ih =>
    refine (ih fun i member => produces i (List.mem_append_left _ member)).step
      (transition_of_step ran) ?_
    rintro i rfl
    exact produces i (by simp)

-- A worker, a runner, a station that answers, the end of the time a meal is kept, or the call
-- that shuts down.
def State.stirs (s : State) : Action → Prop
  | .worker _ | .pickupTimeout _ | .runner _ => True
  | .returned _ outcome => outcome ≠ .crashed
  | .produced _ outcome => outcome ≠ .crashed
  | .client call => ∃ stage, s.calls.get? call = some (.shutdown stage)
  | _ => False

def State.goesOn (s : State) : Prop :=
  ∃ action t events, s.stirs action ∧ s.step action = some (t, events)

theorem goesOn_of_isSome (stirs : s.stirs action) (can : (s.step action).isSome = true) :
    s.goesOn := by
  obtain ⟨⟨t, events⟩, ran⟩ := Option.isSome_iff_exists.mp can
  exact ⟨action, t, events, stirs, ran⟩

theorem still_worker (still : ¬ s.goesOn) (here : s.workers[i]? = some ⟨phase, report⟩) :
    phase = .asleep false ∨ phase = .finished ∨ phase = .dead ∨
      ∃ order made failed product, phase = .awaiting order made failed ∧
        order.products[made.length + failed]? = some product ∧
        ∀ signal, s.jobs.get? ⟨order.id, made.length + failed⟩ = some signal →
          signal.content = .waiting := by
  have idle : ∀ action, s.stirs action → (s.step action).isSome = true → False :=
    fun action stirs can => still (goesOn_of_isSome stirs can)
  cases phase with
  | starting => exact (idle (.worker i) trivial (by simp [State.step, State.stepWorker, here])).elim
  | free => exact (idle (.worker i) trivial (by simp [State.step, State.stepWorker, here])).elim
  | asleep notified =>
    cases notified with
    | false => exact .inl rfl
    | true => exact (idle (.worker i) trivial (by simp [State.step, State.stepWorker, here])).elim
  | claimed order =>
    exact (idle (.worker i) trivial (by simp [State.step, State.stepWorker, here])).elim
  | awaiting order made failed =>
    cases wanted : order.products[made.length + failed]? with
    | none =>
      refine (idle (.worker i) trivial ?_).elim
      simp only [State.step, State.stepWorker, here, wanted]
      split <;> rfl
    | some product =>
      refine .inr (.inr (.inr ⟨order, made, failed, product, rfl, wanted, ?_⟩))
      intro signal found
      obtain ⟨content, heard⟩ := signal
      cases content with
      | waiting => rfl
      | holding result =>
        refine (idle (.worker i) trivial ?_).elim
        simp [State.step, State.stepWorker, here, wanted, State.receiveJob, found, Signal.wait?,
          Signal.take]
      | closed =>
        refine (idle (.worker i) trivial ?_).elim
        simp [State.step, State.stepWorker, here, wanted, State.receiveJob, found, Signal.wait?,
          Signal.take]
  | holding order made notified =>
    exact (idle (.pickupTimeout i) trivial (by simp [State.step, State.stepPickupTimeout, here])).elim
  | returning order ending rest =>
    refine (idle (.worker i) trivial ?_).elim
    cases rest with
    | nil => simp [State.step, State.stepWorker, here]
    | cons entry rest =>
      simp only [State.step, State.stepWorker, here]
      split <;> rfl
  | handingBack order ending product item rest =>
    refine (idle (.returned i .accepted) ?_ ?_).elim
    · simp [State.stirs]
    · simp [State.step, State.stepReturned, here]
  | delivering order made =>
    exact (idle (.worker i) trivial (by simp [State.step, State.stepWorker, here])).elim
  | finished => exact .inr (.inl rfl)
  | dead => exact .inr (.inr (.inl rfl))

def Action.ofRunner (j : Nat) : Action → Bool
  | .runner i => i = j
  | .produced i outcome => i = j && outcome ≠ .crashed
  | _ => false

theorem runner_goes_on (here : s.runners[j]? = some runner) (awake : runner.phase ≠ .asleep false)
    (on : runner.phase.ended = false) :
    ∃ action, action.ofRunner j = true ∧ (s.step action).isSome = true := by
  obtain ⟨station, phase, out, calls⟩ := runner
  cases phase with
  | producing job =>
    refine ⟨.produced j (.made .burger), by simp [Action.ofRunner], ?_⟩
    simp [State.step, State.stepProduced, here]
  | asleep notified =>
    cases notified with
    | false => exact absurd rfl awake
    | true =>
      exact ⟨.runner j, by simp [Action.ofRunner], by simp [State.step, State.stepRunner, here]⟩
  | serving job =>
    refine ⟨.runner j, by simp [Action.ofRunner], ?_⟩
    simp only [State.step, State.stepRunner, here]
    split <;> rfl
  | sweeping jobs error =>
    refine ⟨.runner j, by simp [Action.ofRunner], ?_⟩
    cases jobs <;> simp [State.step, State.stepRunner, here]
  | finished | dead => cases on
  | _ => exact ⟨.runner j, by simp [Action.ofRunner], by simp [State.step, State.stepRunner, here]⟩

theorem stirs_of_ofRunner (own : action.ofRunner j = true) : s.stirs action := by
  cases action with
  | runner i => trivial
  | produced i outcome =>
    simp only [Action.ofRunner, Bool.and_eq_true, decide_eq_true_eq] at own
    exact own.2
  | _ => cases own

theorem still_runner (still : ¬ s.goesOn) (here : s.runners[i]? = some runner) :
    runner.phase = .asleep false ∨ runner.phase = .finished ∨ runner.phase = .dead := by
  by_cases asleep : runner.phase = .asleep false
  · exact .inl asleep
  · cases ended : runner.phase.ended with
    | true =>
      refine .inr ?_
      cases phase : runner.phase <;> rw [phase] at ended <;> simp_all [RunnerPhase.ended]
    | false =>
      obtain ⟨action, own, can⟩ := runner_goes_on here asleep ended
      exact absurd (goesOn_of_isSome (stirs_of_ofRunner own) can) still

def Call.order? : Call → Option OrderId
  | .collecting id | .pager id _ _ => some id
  | .shutdown _ => none

-- Calls under way are about orders that were accepted.
def Known (s : State) : Prop :=
  ∀ call under id, s.calls.get? call = some under → under.order? = some id → id < s.board.nextOrder

namespace Known

theorem opened (stations : List String) (workers : Nat) : Known (.opened stations workers) := by
  intro call under id here
  cases here

theorem same (known : Known s) (calls : t.calls = s.calls)
    (later : s.board.nextOrder ≤ t.board.nextOrder) : Known t := by
  intro call under id here about
  rw [calls] at here
  exact Nat.lt_of_lt_of_le (known call under id here about) later

theorem insert (known : Known s) (calls : t.calls = s.calls.insert call now)
    (next : t.board.nextOrder = s.board.nextOrder)
    (accepted : ∀ id, now.order? = some id → id < s.board.nextOrder) : Known t := by
  intro other under id here about
  rw [calls, Table.get?_insert] at here
  rw [next]
  split at here
  · cases here
    exact accepted id about
  · exact known other under id here about

theorem erase (known : Known s) (calls : t.calls = s.calls.erase call)
    (next : t.board.nextOrder = s.board.nextOrder) : Known t := by
  intro other under id here about
  rw [calls, Table.get?_erase] at here
  rw [next]
  split at here
  · cases here
  · exact known other under id here about

theorem step (known : Known s) (orders : Orders s) (step : Transition s action t events) :
    Known t := by
  have accepted : ∀ id, s.view id ≠ .blank → id < s.board.nextOrder := by
    intro id seen
    exact Nat.lt_of_not_le fun beyond => seen (orders.unknown id beyond)
  have slotted : ∀ {id : OrderId} {slot : Slot}, s.board.slots.get? id = some slot →
      id < s.board.nextOrder := by
    intro id slot found
    refine accepted id ?_
    intro blank
    cases found.symm.trans (congrArg View.slot blank)
  cases step with
  | worker _ move => exact known.same move.unmanned.calls (Nat.le_of_eq move.unmanned.next.symm)
  | runner _ move => exact known.same move.unmanned.calls (Nat.le_of_eq move.unmanned.next.symm)
  | shutdown here move =>
    have next := move.frame.1
    rcases move.calls with ⟨later, calls⟩ | calls
    · exact known.insert calls next (by simp [Call.order?])
    · exact known.erase calls next
  | client move =>
    cases move with
    | orderClosed | orderMissing => exact known
    | place | placeWaking => exact known.same rfl (Nat.le_succ _)
    | collectUnknown | collectEarly | getResult | getNothing | waitOver | shutdownAgain =>
      exact known.erase rfl rfl
    | collectReady _ present | collectEnded _ present =>
      refine known.insert rfl rfl ?_
      rintro _ ⟨⟩
      exact slotted present
    | takePager _ issued =>
      refine known.insert rfl rfl ?_
      rintro _ ⟨⟩
      refine accepted _ ?_
      intro blank
      cases issued.symm.trans (congrArg View.buzzer blank)
    | usePager here move =>
      have next : t.board.nextOrder = s.board.nextOrder := by rw [move.frame.1]
      rcases move.calls with ⟨later, calls⟩ | calls
      · refine known.insert calls next ?_
        rintro _ ⟨⟩
        exact known _ _ _ here rfl
      · exact known.erase calls next
    | shutdown => exact known.insert rfl rfl (by simp [Call.order?])

theorem run (known : Known s) (orders : Orders s) (run : Run s actions events t) : Known t := by
  induction run with
  | start => exact known
  | next before ran ih => exact ih.step (orders.run before) (transition_of_step ran)

end Known

-- Something is left to do: an accepted order has no outcome yet, a client call cannot go on by
-- itself, or the kitchen is being shut down.
def Due (s : State) : Prop :=
  (∃ id signal, s.results.get? id = some signal ∧ signal.sender = true) ∨
  (∃ call under, s.calls.get? call = some under ∧ s.step (.client call) = none) ∨
  ∃ call stage, s.calls.get? call = some (.shutdown stage)

theorem Stock.runner_of (stock : Stock stations s) (known : station ∈ stations) :
    ∃ (j : Nat) (runner : Runner), s.runners[j]? = some runner ∧ runner.station = station := by
  rw [← stock.staff] at known
  obtain ⟨runner, member, place⟩ := List.mem_map.mp known
  obtain ⟨j, here⟩ := List.getElem?_of_mem member
  exact ⟨j, runner, here, place⟩

theorem Stock.known_of_queue {found : JobQueue JobRef} (stock : Stock stations s)
    (present : s.board.queues.get? station = some found) : station ∈ stations :=
  stock.queues ▸ Table.mem_keys_iff.mpr ⟨found, present⟩

-- A job that is not answered is with a runner or on a queue.
theorem Jobs.located {ref : JobRef} {heard : Bool} (jobs : Jobs s) (stock : Stock stations s)
    (apart : stations.Nodup) (waiting : s.jobs.get? ref = some ⟨.waiting, heard⟩) :
    (∃ (j : Nat) (runner : Runner), s.runners[j]? = some runner ∧
      ∃ job ∈ runner.phase.jobs, job.slot = ref) ∨
    ∃ (station : String) (queue : JobQueue JobRef), s.board.queues.get? station = some queue ∧
      ∃ job ∈ queue.jobs, job.slot = ref := by
  have once := jobs.once ref
  rw [waiting] at once
  simp only [waits] at once
  by_cases carried : 0 < s.carried ref
  · obtain ⟨runner, member, some⟩ := exists_of_total_pos carried
    obtain ⟨j, here⟩ := List.getElem?_of_mem member
    exact .inl ⟨j, runner, here, List.mem_map.mp (List.count_pos_iff.mp some)⟩
  · have queued : 0 < s.queued ref := by omega
    obtain ⟨⟨station, queue⟩, member, some⟩ := exists_of_total_pos queued
    have keys : s.board.queues.keys.Nodup := stock.queues ▸ apart
    exact .inr ⟨station, queue, Table.get?_of_mem keys member,
      List.mem_map.mp (List.count_pos_iff.mp some)⟩

-- A worker waits for a job on the queue of a station that has killed its runner.
structure Stranded (s : State) (i : Nat) (order : Order) (made : Tray) (failed : Nat) : Prop where
  waits : s.phases[i]? = some (.awaiting order made failed)
  lost : ∃ (j : Nat) (runner : Runner) (queue : JobQueue JobRef),
    s.runners[j]? = some runner ∧ runner.phase = .dead ∧
      s.board.queues.get? runner.station = some queue ∧
      ∃ job ∈ queue.jobs, job.slot = ⟨order.id, made.length + failed⟩

-- A runner with nothing to do has an empty queue, unless it was killed.
theorem still_queue (sleepers : Sleepers s) (still : ¬ s.goesOn) (here : s.runners[j]? = some runner)
    (alive : runner.phase ≠ .dead) : s.idleQueue runner.station := by
  have member := List.mem_of_getElem? here
  rcases still_runner still here with asleep | finished | dead
  · exact (sleepers.runners runner member asleep).1
  · exact (sleepers.left runner member finished).2
  · exact absurd dead alive

-- The job that a worker waits for where nobody goes on is on no living runner's queue and with no
-- runner.
theorem stranded_of_still (stock : Stock stations s) (jobs : Jobs s) (sleepers : Sleepers s)
    (apart : stations.Nodup) (still : ¬ s.goesOn)
    (here : s.workers[i]? = some ⟨.awaiting order made failed, report⟩) :
    Stranded s i order made failed := by
  rcases still_worker still here with equal | equal | equal |
      ⟨_, _, _, product, equal, wanted, waiting⟩
  · cases equal
  · cases equal
  · cases equal
  · cases equal
    have short := (List.getElem?_eq_some_iff.mp wanted).1
    obtain ⟨signal, found⟩ := (jobs.posted i order made failed (State.phases_of here)).2 _
      (Nat.le_refl _) short
    obtain ⟨content, heard⟩ := signal
    obtain rfl : content = .waiting := waiting _ found
    rcases jobs.located stock apart found with ⟨j, runner, there, job, has, _⟩ |
        ⟨station, queue, present, job, has, same⟩
    · rcases still_runner still there with phase | phase | phase
      all_goals
        rw [phase] at has
        cases has
    · obtain ⟨j, runner, there, rfl⟩ := stock.runner_of (stock.known_of_queue present)
      refine ⟨State.phases_of here, j, runner, queue, there, ?_, present, job, has, same⟩
      refine Classical.byContradiction fun alive => ?_
      rw [still_queue sleepers still there alive queue present] at has
      cases has

-- Where the call that shuts down cannot go on, a stranded worker is the one that it is to join next.
theorem shutdown_blocked (stock : Stock stations s) (jobs : Jobs s) (closing : Closing s)
    (sleepers : Sleepers s) (apart : stations.Nodup) (still : ¬ s.goesOn)
    (here : s.calls.get? call = some (.shutdown stage)) :
    ∃ reports order made failed, stage = .joiningWorkers reports ∧
      Stranded s reports.length order made failed := by
  have can : (s.stepShutdown call stage).isSome = true → False := by
    intro can
    refine still (goesOn_of_isSome (show s.stirs (.client call) from ⟨stage, here⟩) ?_)
    simpa [State.step, State.stepCall, here] using can
  cases stage with
  | closing | wakingWorkers | wakingStations | releasing | wakingReleased => exact (can rfl).elim
  | joiningWorkers reports =>
    -- All workers were woken, so the next one to be joined has left or waits for a job.
    have nobody := sleepers.nobody closing here rfl (by simp)
    cases there : s.workers[reports.length]? with
    | none => exact (can (by simp [State.stepShutdown, there])).elim
    | some worker =>
      obtain ⟨phase, report⟩ := worker
      have member := List.mem_of_getElem? there
      rcases still_worker still there with rfl | rfl | rfl | ⟨order, made, failed, _, rfl, _⟩
      · exact absurd rfl (nobody _ member)
      · exact (can (by simp [State.stepShutdown, there])).elim
      · exact (can (by simp [State.stepShutdown, there])).elim
      · exact ⟨reports, order, made, failed, rfl,
          stranded_of_still stock jobs sleepers apart still there⟩
  | joiningRunners reports done =>
    have nobody := sleepers.no_runner closing here rfl (by simp)
    refine (can ?_).elim
    cases there : s.runners[done]? with
    | none => simp [State.stepShutdown, there]
    | some runner =>
      rcases still_runner still there with asleep | finished | dead
      · exact absurd asleep (nobody runner (List.mem_of_getElem? there))
      · simp [State.stepShutdown, there, finished]
      · simp [State.stepShutdown, there, dead]
  | stopping reports done =>
    refine (can ?_).elim
    cases there : s.runners[done]? <;> simp [State.stepShutdown, there]

structure Sound (stations : List String) (s : State) : Prop where
  orders : Orders s
  closing : Closing s
  stock : Stock stations s
  jobs : Jobs s
  sleepers : Sleepers s
  crewed : Crewed s
  staffed : Staffed s
  known : Known s

theorem sound (run : Run (.opened stations workers) actions events s)
    (returns : ∀ i, .returned i .crashed ∉ actions)
    (produces : ∀ i, .produced i .crashed ∉ actions) : Sound stations s where
  orders := (Orders.opened stations workers).run run
  closing := (Closing.opened stations workers).run run
  stock := (Stock.opened stations workers).run run
  jobs := (Jobs.opened stations workers).run (Stock.opened stations workers)
    (Orders.opened stations workers) run
  sleepers := (Sleepers.opened stations workers).run (Closing.opened stations workers) run
  crewed := (Crewed.opened stations workers).run run returns
  staffed := (Staffed.opened stations workers).run run produces
  known := (Known.opened stations workers).run (Orders.opened stations workers) run

namespace Sound

-- Where nobody goes on nobody waits for a job: it would be on the queue of a killed runner.
theorem nobody_awaits (sound : Sound stations s) (apart : stations.Nodup) (still : ¬ s.goesOn)
    (here : s.workers[i]? = some ⟨.awaiting order made failed, report⟩) : False := by
  obtain ⟨_, _, runner, _, there, dead, _⟩ :=
    stranded_of_still sound.stock sound.jobs sound.sleepers apart still here
  exact sound.staffed runner (List.mem_of_getElem? there) dead

theorem still_crew (sound : Sound stations s) (apart : stations.Nodup) (still : ¬ s.goesOn) :
    ∀ worker ∈ s.workers, worker.phase = .asleep false ∨ worker.phase = .finished := by
  intro worker member
  obtain ⟨i, here⟩ := List.getElem?_of_mem member
  obtain ⟨phase, report⟩ := worker
  rcases still_worker still here with asleep | finished | dead | ⟨_, _, _, _, equal, _⟩
  · exact .inl asleep
  · exact .inr finished
  · exact absurd dead (sound.crewed _ member)
  · subst equal
    exact (sound.nobody_awaits apart still here).elim

-- Where nobody goes on no order waits and no worker has one.
theorem still_orders (sound : Sound stations s) (apart : stations.Nodup) (still : ¬ s.goesOn)
    (crew : 0 < s.workers.length) : s.board.unassigned = [] ∧
      ∀ (i : Nat) (phase : WorkerPhase) (order : Order), s.phases[i]? = some phase →
        phase.order? ≠ some order := by
  have quiet := sound.still_crew apart still
  have told : s.told = 0 := by
    refine total_eq_zero ?_
    intro worker member
    rcases quiet worker member with phase | phase
    all_goals
      rw [phase]
      rfl
  refine ⟨?_, ?_⟩
  · have member := List.getElem_mem crew
    rcases quiet _ member with asleep | finished
    · -- Either the waiting orders are outnumbered by workers that were told, of whom there are none,
      -- or the call that shuts down is about to wake them and can do so.
      rcases sound.sleepers.workers _ member asleep with ⟨_, few⟩ | ⟨_, call, here⟩
      · rw [told] at few
        exact List.length_eq_zero_iff.mp (Nat.le_zero.mp few)
      · refine absurd (goesOn_of_isSome (show s.stirs (.client call) from ⟨_, here⟩) ?_) still
        simp [State.step, State.stepCall, here, State.stepShutdown]
    · exact (sound.closing.left _ member finished).2
  · intro i phase order here has
    obtain ⟨worker, member, rfl⟩ := List.mem_map.mp (List.mem_of_getElem? here)
    rcases quiet worker member with phase | phase
    all_goals
      rw [phase] at has
      cases has

-- Where nobody goes on every order that was accepted has its outcome, and every client that
-- waits for one can have it.
theorem still_over (sound : Sound stations s) (apart : stations.Nodup) (still : ¬ s.goesOn)
    (crew : 0 < s.workers.length) (known : id < s.board.nextOrder) : (s.view id).Over := by
  obtain ⟨nothing, free⟩ := sound.still_orders apart still crew
  refine sound.orders.past id known ?_ ?_
  · intro order member
    rw [nothing] at member
    cases member
  · intro i phase order here has
    exact absurd has (free i phase order here)

-- A client that waits for an order that is over can go on.
theorem can_go_on (past : (s.view id).Over) (here : s.calls.get? call = some under)
    (about : under.order? = some id) : (s.step (.client call)).isSome = true := by
  obtain ⟨⟨ending, _, buzzer⟩, answered⟩ := past
  cases under with
  | collecting other =>
    cases about
    rcases answered with ⟨outcome, found⟩ | found
    all_goals
      change s.results.get? id = _ at found
      simp [State.step, State.stepCall, here, State.receiveResult, found, Signal.wait?, Signal.take]
  | shutdown => cases about
  | pager other use stage =>
    cases about
    rcases buzzer with found | found
    all_goals
      change s.buzzers.get? id = _ at found
      simp only [State.step, State.stepCall, here]
      cases stage with
      | checking =>
        simp only [State.stepPager]
        split <;> rfl
      | polling | waiting => simp [State.stepPager, found, Signal.wait?, Signal.take]
      | noting | reading => rfl

-- The call that shuts down can go on where nobody else can.
theorem shutdown_goes_on (sound : Sound stations s) (apart : stations.Nodup)
    (here : s.calls.get? call = some (.shutdown stage)) : s.goesOn := by
  refine Classical.byContradiction fun still => ?_
  obtain ⟨_, _, _, _, _, _, _, runner, _, there, dead, _⟩ :=
    shutdown_blocked sound.stock sound.jobs sound.closing sound.sleepers apart still here
  exact sound.staffed runner (List.mem_of_getElem? there) dead

theorem goes_on (sound : Sound stations s) (apart : stations.Nodup) (crew : 0 < s.workers.length)
    (due : Due s) : s.goesOn := by
  refine Classical.byContradiction fun still => ?_
  rcases due with ⟨id, signal, found, speaks⟩ | ⟨call, under, here, blocked⟩ | ⟨call, stage, here⟩
  · have known : id < s.board.nextOrder := by
      refine Nat.lt_of_not_le fun beyond => ?_
      cases found.symm.trans (congrArg View.result (sound.orders.unknown id beyond))
    rcases (sound.still_over apart still crew known).2 with ⟨outcome, answered⟩ | answered
    all_goals
      cases found.symm.trans answered
      cases speaks
  · cases about : under.order? with
    | none =>
      cases under with
      | shutdown stage => exact still (sound.shutdown_goes_on apart here)
      | _ => cases about
    | some id =>
      have past := sound.still_over apart still crew (sound.known call under id here about)
      have can := can_go_on past here about
      rw [blocked] at can
      cases can
  · exact still (sound.shutdown_goes_on apart here)

end Sound

end Kitchen.Engine
