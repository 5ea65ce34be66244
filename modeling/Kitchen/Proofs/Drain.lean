import Kitchen.Proofs.Outcomes
import Kitchen.Proofs.Progress

namespace Kitchen.Engine

variable {s t : State} {action : Action} {actions : List Action} {events more : List Event}
  {call c : CallId} {id : OrderId} {i : Nat} {report : Report} {order : Order}
  {stations : List String} {workers : Nat}

-- Without new client calls only as many steps follow as the rank tells.
theorem quiet_run (apart : stations.Nodup) (stock : Stock stations s) (orders : Orders s)
    (jobs : Jobs s) (run : Run s actions events t)
    (quiet : ∀ action ∈ actions, action.begins = false) : actions.length + t.rank ≤ s.rank := by
  induction run with
  | start => simp
  | @next _ _ _ middle _ action before ran ih =>
    have first := ih fun other member => quiet other (List.mem_append_left _ member)
    have less := (transition_of_step ran).lowers (stock.run before) apart
      (jobs.run stock orders before) (quiet action (by simp))
    rw [List.length_append, List.length_singleton]
    omega

theorem callsRank_begin (unused : s.calls.get? call = none) (now : Call)
    (calls : t.calls = s.calls.insert call now) (crew : t.workers.length = s.workers.length)
    (staff : t.runners.length = s.runners.length) :
    t.callsRank = s.callsRank + now.rank s.workers.length s.runners.length := by
  rw [State.callsRank, State.callsRank, calls, crew, staff]
  exact Table.sum_insert_new unused now _

theorem adds_call {now : Call} (unused : s.calls.get? call = none) (outlasts : Outlasts s t)
    (calls : t.calls = s.calls.insert call now)
    (unassigned : t.board.unassigned = s.board.unassigned)
    (queues : t.board.queues = s.board.queues) (workers : t.workers = s.workers)
    (runners : t.runners = s.runners) :
    t.rank = s.rank + now.rank s.workers.length s.runners.length := by
  have called := callsRank_begin unused now calls outlasts.crew outlasts.staff
  have rest : t.waitingRank = s.waitingRank ∧ t.queuesRank = s.queuesRank ∧
      t.workersRank = s.workersRank ∧ t.runnersRank = s.runnersRank := by
    simp only [State.waitingRank, State.queuesRank, State.workersRank, State.runnersRank, unassigned,
      queues, workers, runners, and_self]
  rw [State.rank_eq, State.rank_eq]
  omega

-- In a closed kitchen a new client call adds little.
theorem client_adds (orders : Orders s) (closing : Closing s) (closed : s.board.closed = true)
    (begins : action.begins = true) (move : ClientMove s action t events) :
    t.rank ≤ s.rank + 6 := by
  have outlasts := move.outlasts
  cases move with
  | orderClosed => exact Nat.le_add_right _ _
  | orderMissing unclosed | place unclosed | placeWaking unclosed =>
    rw [closed] at unclosed
    cases unclosed
  | collectUnknown unused | collectEarly unused | shutdownAgain unused =>
    rw [State.endCall_of_unused unused]
    exact Nat.le_add_right _ _
  | @collectReady call id unused ready =>
    obtain ⟨i, order, made, report, here, _, told⟩ := notifyPickup_workers orders ready
    have moved := workersRank_set (t := ((s.withBoard fun b =>
      { b with slots := b.slots.insert id ⟨.pickedUp, false⟩ }).notifyPickup id).setCall call
        (.collecting id)) here told
    have called := callsRank_begin (t := ((s.withBoard fun b =>
      { b with slots := b.slots.insert id ⟨.pickedUp, false⟩ }).notifyPickup id).setCall call
        (.collecting id)) unused (.collecting id) rfl outlasts.crew outlasts.staff
    simp only [WorkerPhase.rank, Call.rank, Bool.false_eq_true, if_false, if_true] at moved called
    rw [State.rank_eq, State.rank_eq]
    change s.waitingRank + s.queuesRank + _ + s.runnersRank + _ ≤ _
    omega
  | collectEnded unused | takePager unused =>
    rw [adds_call unused outlasts rfl rfl rfl rfl rfl]
    exact Nat.add_le_add_left (by simp [Call.rank]) _
  | shutdown _ running =>
    rw [(closing.before running).1] at closed
    cases closed
  | _ => cases begins

theorem Transition.stays_closed (closed : s.board.closed = true)
    (step : Transition s action t events) : t.board.closed = true := by
  cases step with
  | worker _ move => exact move.unmanned.closed.trans closed
  | runner _ move => exact move.unmanned.closed.trans closed
  | client move =>
    cases move with
    | usePager _ move =>
      rw [move.frame.1]
      exact closed
    | _ => exact closed
  | shutdown _ move =>
    cases move with
    | close => rfl
    | _ => exact closed

theorem begins_client (begins : action.begins = true) (step : Transition s action t events) :
    ClientMove s action t events := by
  have own : action.ofClient = true := by cases action <;> first | rfl | cases begins
  refine (step.ofClient own).resolve_right ?_
  rintro ⟨_, _, rfl, _⟩
  cases begins

-- Once the kitchen is closed every run is bounded by the rank and the number of its client
-- calls.
theorem closed_run (apart : stations.Nodup) (stock : Stock stations s) (orders : Orders s)
    (jobs : Jobs s) (closing : Closing s) (closed : s.board.closed = true)
    (run : Run s actions events t) :
    t.board.closed = true ∧
      actions.length + t.rank ≤ s.rank + 7 * actions.countP (·.begins) := by
  induction run with
  | start => exact ⟨closed, by simp⟩
  | @next _ _ _ middle _ action before ran ih =>
    have step := transition_of_step ran
    refine ⟨step.stays_closed ih.1, ?_⟩
    rw [List.length_append, List.length_singleton, List.countP_append, List.countP_singleton]
    -- A client call raises the rank by no more than the seven for which it is counted.
    cases begins : action.begins with
    | true =>
      have more := client_adds (orders.run before) (closing.run before) ih.1 begins
        (begins_client begins step)
      simp only [if_true]
      omega
    | false =>
      have less := step.lowers (stock.run before) apart (jobs.run stock orders before) begins
      simp only [Bool.false_eq_true, if_false]
      omega

-- The stations that were stopped, and the reports that were handed out at the end.
structure Stopped (stations : List String) (s : State) (events : List Event) : Prop where
  stopping : ∀ call reports done, s.calls.get? call = some (.shutdown (.stopping reports done)) →
    ∀ j, j < done → ∀ station, stations[j]? = some station → .called station .stop ∈ events
  past : s.running = false → (∀ call stage, s.calls.get? call ≠ some (.shutdown stage)) →
    (∀ station ∈ stations, .called station .stop ∈ events) ∧
      ∃ call reports, .replied call (.reports reports) ∈ events ∧
        reports.length = s.workers.length

namespace Stopped

theorem mono (stopped : Stopped stations s events) (calls : Closing.Same s t)
    (running : t.running = s.running) (crew : t.workers.length = s.workers.length)
    (more : List Event) : Stopped stations t (events ++ more) := by
  refine ⟨?_, ?_⟩
  · intro call reports done here j below station found
    exact List.mem_append_left _
      (stopped.stopping call reports done ((calls call _).mp here) j below station found)
  · intro off none
    rw [running] at off
    obtain ⟨all, call, reports, told, length⟩ :=
      stopped.past off fun call stage here => none call stage ((calls call stage).mpr here)
    exact ⟨fun station member => List.mem_append_left _ (all station member), call, reports,
      List.mem_append_left _ told, length.trans crew.symm⟩

-- The call that shuts down goes on before it has stopped the first station, or with the next.
theorem proceed (closing : Closing s)
    (here : s.calls.get? call = some (.shutdown stage))
    (calls : t.calls = s.calls.insert call (.shutdown later)) (more : List Event)
    (next : ∀ reports done, later = .stopping reports done → ∀ j, j < done → ∀ station,
      stations[j]? = some station → .called station .stop ∈ events ++ more) :
    Stopped stations t (events ++ more) := by
  refine ⟨?_, ?_⟩
  · intro other reports done found
    rw [calls, Table.get?_insert] at found
    split at found
    · cases found
      exact next reports done rfl
    next differ => exact absurd (closing.single call other _ _ here found) differ
  · intro _ none
    exact absurd (by rw [calls, Table.get?_insert_self]) (none call later)

theorem shutdown (stopped : Stopped stations s events) (closing : Closing s)
    (stock : Stock stations s) (here : s.calls.get? call = some (.shutdown stage))
    (move : ShutdownMove s call stage t more) : Stopped stations t (events ++ more) := by
  cases move with
  | @stop done runner reports there =>
    refine proceed closing here rfl _ ?_
    rintro _ _ ⟨⟩ j below station found
    rcases Nat.lt_succ_iff_lt_or_eq.mp below with earlier | rfl
    · exact List.mem_append_left _ (stopped.stopping call _ _ here j earlier station found)
    · rw [← stock.staff, List.getElem?_map, there] at found
      cases found
      simp
  | runnersJoined =>
    refine proceed closing here rfl _ ?_
    rintro _ _ ⟨⟩ j below
    cases below
  | @finish done reports all =>
    refine ⟨fun other reports done found => absurd found (closing.gone here other _), ?_⟩
    intro _ _
    refine ⟨?_, call, reports, by simp, (closing.during call _ here).unmanned rfl⟩
    intro station member
    obtain ⟨j, found⟩ := List.getElem?_of_mem member
    refine List.mem_append_left _ (stopped.stopping call _ _ here j ?_ station found)
    have beyond := List.getElem?_eq_none_iff.mp all
    have inside := (List.getElem?_eq_some_iff.mp found).1
    rw [← stock.staff, List.length_map] at inside
    omega
  | _ => exact proceed closing here rfl _ (by simp)

theorem step (stopped : Stopped stations s events) (closing : Closing s)
    (stock : Stock stations s) (step : Transition s action t more) :
    Stopped stations t (events ++ more) := by
  have crew := step.outlasts.crew
  cases step with
  | worker _ move =>
    exact stopped.mono (fun _ _ => by rw [move.unmanned.calls]) move.unmanned.running crew more
  | runner _ move =>
    exact stopped.mono (fun _ _ => by rw [move.unmanned.calls]) move.unmanned.running crew more
  | client move =>
    by_cases no : ∀ call, action = .shutdown call → s.running = false
    · refine stopped.mono (Closing.same_client move no) ?_ crew more
      cases move with
      | usePager _ move => exact move.frame.2.2.2.2.2
      | shutdown _ running =>
        rw [no _ rfl] at running
        cases running
      | _ => rfl
    · cases move with
      | @shutdown call unused running =>
        obtain ⟨_, _, none⟩ := closing.before running
        refine ⟨?_, ?_⟩
        · intro other reports done found
          change (s.calls.insert call _).get? other = _ at found
          rw [Table.get?_insert] at found
          split at found
          · cases found
          · exact absurd found (none other _)
        · intro _ gone
          exact absurd (Table.get?_insert_self s.calls call _) (gone call .closing)
      | shutdownAgain _ taken => exact absurd (fun _ _ => taken) no
      | _ => exact absurd (by simp) no
  | shutdown here move => exact stopped.shutdown closing stock here move

theorem run (closing : Closing s) (stock : Stock stations s) (running : s.running = true)
    (run : Run s actions events t) : Stopped stations t events := by
  induction run with
  | start =>
    refine ⟨?_, ?_⟩
    · intro call reports done here
      exact absurd here ((closing.before running).2.2 call _)
    · intro off
      rw [running] at off
      cases off
  | next before ran ih =>
    exact ih.step (closing.run before) (stock.run before) (transition_of_step ran)

end Stopped

-- Where nobody goes on after the shutdown began, it has returned and everybody has left.
theorem rest_after_shutdown (sound : Sound stations s) (apart : stations.Nodup)
    (stopped : Stopped stations s events) (began : s.running = false) (still : ¬ s.goesOn) :
    (∀ worker ∈ s.workers, worker.phase = .finished) ∧
      (∀ runner ∈ s.runners, runner.phase = .finished) ∧
      (∀ station ∈ stations, .called station .stop ∈ events) ∧
      (∀ call stage, s.calls.get? call ≠ some (.shutdown stage)) ∧
      ∃ call reports, .replied call (.reports reports) ∈ events ∧
        reports.length = s.workers.length := by
  have returned : ∀ call stage, s.calls.get? call ≠ some (.shutdown stage) :=
    fun call stage here => still (sound.shutdown_goes_on apart here)
  obtain ⟨_, _, crew, staff⟩ := sound.closing.after began returned
  obtain ⟨all, told⟩ := stopped.past began returned
  refine ⟨?_, ?_, all, returned, told⟩
  · intro worker member
    have ended := crew worker member
    have living := sound.crewed worker member
    cases phase : worker.phase <;> simp_all [WorkerPhase.ended]
  · intro runner member
    have ended := staff runner member
    have living := sound.staffed runner member
    cases phase : runner.phase <;> simp_all [RunnerPhase.ended]

-- While something is left to do somebody goes on without the clients; every step that begins no
-- client call lowers the rank; and once the shutdown has begun every run comes to an end, which is
-- where everybody has left, every station was stopped and the reports were handed out.
theorem progress_and_drain (apart : stations.Nodup) (crewed : 0 < workers)
    (run : Run (.opened stations workers) actions events s)
    (returns : ∀ i, .returned i .crashed ∉ actions)
    (produces : ∀ i, .produced i .crashed ∉ actions) :
    (Due s → s.goesOn) ∧
    (∀ action t more, action.begins = false → s.step action = some (t, more) → t.rank < s.rank) ∧
    (s.running = false →
      (∀ later more t, Run s later more t → (∀ action ∈ later, action.begins = false) →
        later.length + t.rank ≤ s.rank) ∧
      (s.board.closed = true → ∀ later more t, Run s later more t →
        later.length + t.rank ≤ s.rank + 7 * later.countP (·.begins)) ∧
      (¬ s.goesOn →
        (∀ worker ∈ s.workers, worker.phase = .finished) ∧
        (∀ runner ∈ s.runners, runner.phase = .finished) ∧
        (∀ station ∈ stations, .called station .stop ∈ events) ∧
        (∀ call stage, s.calls.get? call ≠ some (.shutdown stage)) ∧
        ∃ call reports, .replied call (.reports reports) ∈ events ∧ reports.length = workers)) := by
  have sound := sound run returns produces
  have crew : s.workers.length = workers := by
    rw [run.crew.1]
    simp [State.opened]
  have stopped := Stopped.run (Closing.opened stations workers) (Stock.opened stations workers) rfl run
  refine ⟨?_, ?_, ?_⟩
  · exact sound.goes_on apart (crew ▸ crewed)
  · intro action t more quiet ran
    exact (transition_of_step ran).lowers sound.stock apart sound.jobs quiet
  · intro began
    refine ⟨?_, ?_, ?_⟩
    · intro later more t after quiet
      exact quiet_run apart sound.stock sound.orders sound.jobs after quiet
    · intro closed later more t after
      exact (closed_run apart sound.stock sound.orders sound.jobs sound.closing closed after).2
    · intro still
      rw [← crew]
      exact rest_after_shutdown sound apart stopped began still

-- While the call that shuts down is under way somebody goes on, and its last step lowers the rank.
theorem closingDay_drains :
    ((State.opened ["burger"] 1).after closingDay).1.goesOn ∧
      ((State.opened ["burger"] 1).after (closingDay ++ [.client 2])).1.rank <
        ((State.opened ["burger"] 1).after closingDay).1.rank := by
  obtain ⟨progress, lowers, _⟩ := progress_and_drain (by decide) (by decide)
    (run_after closingDay_possible) (by simp [closingDay]) (by simp [closingDay])
  exact ⟨progress (.inr (.inr ⟨2, _, closingDay_stopping⟩)), lowers _ _ _ rfl closingDay_last⟩

end Kitchen.Engine
