import Kitchen.Engine.Rank
import Kitchen.Proofs.Jobs

namespace Kitchen.Engine

variable {s t : State} {action : Action} {actions : List Action} {events : List Event}
  {call c : CallId} {id : OrderId} {i : Nat} {report : Report} {order : Order}
  {phase old : WorkerPhase} {was : RunnerPhase} {stations : List String}

def Action.begins : Action → Bool
  | .order _ _ | .collect _ _ | .shutdown _ | .pager _ _ _ => true
  | _ => false

namespace State

def waitingRank (s : State) : Nat :=
  total (s.board.unassigned.map fun order => WorkerPhase.claimedRank order.products.length)

def queuesRank (s : State) : Nat := s.board.queues.sum fun entry => entry.2.size * jobRank

def workersRank (s : State) : Nat := total (s.workers.map (·.phase.rank))

def runnersRank (s : State) : Nat := total (s.runners.map (·.phase.rank))

def callsRank (s : State) : Nat :=
  s.calls.sum fun entry => entry.2.rank s.workers.length s.runners.length

theorem rank_eq (s : State) : s.rank =
    s.waitingRank + s.queuesRank + s.workersRank + s.runnersRank + s.callsRank := rfl

end State

theorem workersRank_set (here : s.workers[i]? = some ⟨old, report⟩)
    (workers : t.workers = s.workers.set i ⟨phase, later⟩) :
    t.workersRank + old.rank = s.workersRank + phase.rank := by
  have moved := total_set (f := fun worker : Worker => worker.phase.rank) here ⟨phase, later⟩
  rw [State.workersRank, State.workersRank, workers]
  exact moved

theorem runnersRank_set {calls : Nat} {now : Runner}
    (here : s.runners[i]? = some ⟨station, was, out, calls⟩)
    (runners : t.runners = s.runners.set i now) :
    t.runnersRank + was.rank = s.runnersRank + now.phase.rank := by
  have moved := total_set (f := fun runner : Runner => runner.phase.rank) here now
  rw [State.runnersRank, State.runnersRank, runners]
  exact moved

theorem callsRank_same (calls : t.calls = s.calls) (outlasts : Outlasts s t) :
    t.callsRank = s.callsRank := by
  rw [State.callsRank, State.callsRank, calls, outlasts.crew, outlasts.staff]

theorem callsRank_insert {before now : Call} (here : s.calls.get? call = some before)
    (calls : t.calls = s.calls.insert call now) (outlasts : Outlasts s t) :
    t.callsRank + before.rank s.workers.length s.runners.length =
      s.callsRank + now.rank s.workers.length s.runners.length := by
  rw [State.callsRank, State.callsRank, calls, outlasts.crew, outlasts.staff]
  exact Table.sum_insert here now _

theorem callsRank_erase {before : Call} (here : s.calls.get? call = some before)
    (calls : t.calls = s.calls.erase call) (outlasts : Outlasts s t) :
    t.callsRank + before.rank s.workers.length s.runners.length ≤ s.callsRank := by
  rw [State.callsRank, State.callsRank, calls, outlasts.crew, outlasts.staff]
  exact Table.sum_erase here _

theorem wakeRunner_rank (runner : Runner) :
    (State.wakeRunner runner).phase.rank ≤ runner.phase.rank + 1 := by
  obtain ⟨station, phase, out, calls⟩ := runner
  cases phase with
  | asleep notified => cases notified <;> simp [State.wakeRunner, RunnerPhase.rank]
  | _ => exact Nat.le_succ _

-- Waking the runner of one station costs at most one.
theorem wakeStation_rank (stock : Stock stations s) (apart : stations.Nodup) (station : String) :
    (s.wakeStation station).runnersRank ≤ s.runnersRank + 1 := by
  have one : total (s.runners.map fun runner => if runner.station = station then 1 else 0) ≤ 1 := by
    have few := List.nodup_iff_count.mp apart station
    rw [← stock.staff] at few
    refine Nat.le_trans (Nat.le_of_eq ?_) few
    generalize s.runners = runners
    induction runners with
    | nil => rfl
    | cons first rest ih =>
      simp only [List.map_cons, total, List.count_cons, ih, beq_iff_eq]
      omega
  have each : (s.wakeStation station).runnersRank ≤ total (s.runners.map fun runner =>
      runner.phase.rank + if runner.station = station then 1 else 0) := by
    rw [State.runnersRank, State.wakeStation, List.map_map]
    refine total_mono ?_
    intro runner _
    simp only [Function.comp_apply]
    split
    · exact wakeRunner_rank runner
    · exact Nat.le_refl _
  rw [total_add] at each
  exact Nat.le_trans each (Nat.add_le_add_left one _)

theorem dispatchFrom_rank (stock : Stock stations s) (apart : stations.Nodup)
    (known : ∀ product ∈ products, product ∈ stations) (id : OrderId) (position : Nat) :
    (s.dispatchFrom id position products).1.queuesRank = s.queuesRank + products.length * jobRank ∧
      (s.dispatchFrom id position products).1.runnersRank ≤ s.runnersRank + products.length := by
  induction products generalizing s position with
  | nil => exact ⟨by simp [State.dispatchFrom], Nat.le_refl _⟩
  | cons product rest ih =>
    have here := known product (by simp)
    obtain ⟨queue, present⟩ := stock.queue here
    have there := (stock.hasStation_iff product).mpr here
    obtain ⟨queues, runners⟩ := ih (stock.dispatchJob here id position)
      (fun other member => known other (List.mem_cons_of_mem _ member)) (position + 1)
    have first : (s.dispatchJob id position product).1.queuesRank = s.queuesRank + jobRank ∧
        (s.dispatchJob id position product).1.runnersRank ≤ s.runnersRank + 1 := by
      unfold State.dispatchJob
      rw [present, there]
      constructor
      · have moved := Table.sum_insert present (queue.push id ⟨id, position⟩)
          fun entry => entry.2.size * jobRank
        simp only [JobQueue.size, JobQueue.push, List.length_append, List.length_singleton,
          Nat.add_mul, Nat.one_mul] at moved
        simp only [State.queuesRank, State.wakeStation, State.withBoard, JobQueue.size, JobQueue.push]
        omega
      · exact wakeStation_rank stock apart product
    refine ⟨?_, ?_⟩
    · refine queues.trans ?_
      rw [first.1, List.length_cons, Nat.succ_mul]
      omega
    · refine Nat.le_trans runners ?_
      rw [List.length_cons]
      omega

theorem lower_worker (here : s.workers[i]? = some ⟨old, report⟩) (outlasts : Outlasts s t)
    (workers : t.workers = s.workers.set i ⟨phase, later⟩)
    (unassigned : t.board.unassigned = s.board.unassigned)
    (queues : t.board.queues = s.board.queues) (runners : t.runners = s.runners)
    (calls : t.calls = s.calls) (less : phase.rank < old.rank) : t.rank < s.rank := by
  have moved := workersRank_set here workers
  have called := callsRank_same calls outlasts
  have rest : t.waitingRank = s.waitingRank ∧ t.queuesRank = s.queuesRank ∧
      t.runnersRank = s.runnersRank := by
    simp only [State.waitingRank, State.queuesRank, State.runnersRank, unassigned, queues, runners,
      and_self]
  rw [State.rank_eq, State.rank_eq]
  omega

theorem seeks_rank (seeks : old.seeks = true) : old.rank = 2 := by
  cases old with
  | free => rfl
  | asleep notified => cases notified <;> first | rfl | cases seeks
  | _ => cases seeks

theorem lower_claim (here : s.workers[i]? = some ⟨old, report⟩) (seeks : old.seeks = true)
    (first : s.board.unassigned = order :: t.board.unassigned) (outlasts : Outlasts s t)
    (workers : t.workers = s.workers.set i ⟨.claimed order, report⟩)
    (queues : t.board.queues = s.board.queues) (runners : t.runners = s.runners)
    (calls : t.calls = s.calls) : t.rank < s.rank := by
  have moved := workersRank_set here workers
  have called := callsRank_same calls outlasts
  have waited : s.waitingRank = (WorkerPhase.claimed order).rank + t.waitingRank := by
    rw [State.waitingRank, first]
    rfl
  have sought := seeks_rank seeks
  have rest : t.queuesRank = s.queuesRank ∧ t.runnersRank = s.runnersRank := by
    simp only [State.queuesRank, State.runnersRank, queues, runners, and_self]
  rw [State.rank_eq, State.rank_eq]
  omega

theorem lower_dispatch (stock : Stock stations s) (apart : stations.Nodup)
    (here : s.workers[i]? = some ⟨.claimed order, report⟩)
    (outlasts : Outlasts s ((s.spread order).1.setWorker i ⟨.awaiting order [] 0, report⟩)) :
    ((s.spread order).1.setWorker i ⟨.awaiting order [] 0, report⟩).rank < s.rank := by
  have known := stock.held _ (List.mem_of_getElem? here) order rfl
  obtain ⟨queues, runners⟩ :=
    dispatchFrom_rank (stock.setState order.id .dispatched) apart known order.id 0
  have moved := workersRank_set here (spread_setWorker s order i ⟨.awaiting order [] 0, report⟩)
  have called := callsRank_same (t := (s.spread order).1.setWorker i _)
    (spread_unmanned s order).calls outlasts
  have waited : ((s.spread order).1.setWorker i ⟨.awaiting order [] 0, report⟩).waitingRank =
      s.waitingRank := congrArg (fun orders : List Order => total (orders.map _))
        (spread_unassigned s order)
  replace queues : ((s.spread order).1.setWorker i ⟨.awaiting order [] 0, report⟩).queuesRank =
      s.queuesRank + order.products.length * jobRank := queues
  replace runners : ((s.spread order).1.setWorker i ⟨.awaiting order [] 0, report⟩).runnersRank ≤
      s.runnersRank + order.products.length := runners
  simp only [WorkerPhase.rank, WorkerPhase.claimedRank, jobRank, List.length_nil] at moved queues
  rw [State.rank_eq, State.rank_eq]
  omega

theorem worker_lowers (stock : Stock stations s) (apart : stations.Nodup) (jobs : Jobs s)
    (here : s.workers[i]? = some ⟨old, report⟩)
    (move : WorkerMove s i report old action t events) : t.rank < s.rank := by
  have outlasts := move.outlasts here
  have bound : ∀ order made failed, old = .awaiting order made failed →
      made.length + failed ≤ order.products.length := by
    rintro order made failed rfl
    exact (jobs.posted i order made failed (State.phases_of here)).1
  cases move with
  | claim seeks first => exact lower_claim here seeks first outlasts rfl rfl rfl rfl
  | leave seeks | rest seeks =>
    refine lower_worker here outlasts rfl rfl rfl rfl rfl ?_
    rw [seeks_rank seeks]
    decide
  | dispatch => exact lower_dispatch stock apart here outlasts
  | receive wanted | hearBreak wanted | hearNothing wanted =>
    refine lower_worker here outlasts rfl rfl rfl rfl rfl ?_
    have short := (List.getElem?_eq_some_iff.mp wanted).1
    simp only [WorkerPhase.rank, List.length_append, List.length_singleton]
    omega
  | hold done | holdUnslotted done | fail done =>
    refine lower_worker here outlasts rfl rfl rfl rfl rfl ?_
    have few := bound _ _ _ rfl
    simp only [WorkerPhase.rank, Bool.false_eq_true, if_false]
    omega
  | collected | expired =>
    refine lower_worker here outlasts rfl rfl rfl rfl rfl ?_
    simp only [WorkerPhase.rank]
    omega
  | holdOn =>
    refine lower_worker here outlasts rfl rfl rfl rfl rfl ?_
    simp [WorkerPhase.rank]
  | _ =>
    refine lower_worker here outlasts rfl rfl rfl rfl rfl ?_
    simp only [WorkerPhase.rank, List.length_cons]
    omega

theorem lower_runner {calls : Nat} {now : Runner}
    (here : s.runners[i]? = some ⟨station, was, out, calls⟩) (outlasts : Outlasts s t)
    (runners : t.runners = s.runners.set i now)
    (unassigned : t.board.unassigned = s.board.unassigned) (workers : t.workers = s.workers)
    (same : t.calls = s.calls)
    (less : t.queuesRank + now.phase.rank < s.queuesRank + was.rank) : t.rank < s.rank := by
  have moved := runnersRank_set here runners
  have called := callsRank_same same outlasts
  have rest : t.waitingRank = s.waitingRank ∧ t.workersRank = s.workersRank := by
    simp only [State.waitingRank, State.workersRank, unassigned, workers, and_self]
  rw [State.rank_eq, State.rank_eq]
  omega

theorem queuesRank_setQueue (present : s.board.queues.get? station = some queue)
    (rest : JobQueue JobRef) : (s.setQueue station rest).queuesRank + queue.size * jobRank =
      s.queuesRank + rest.size * jobRank :=
  Table.sum_insert present rest _

theorem queuesRank_take (present : s.board.queues.get? station = some queue)
    (popped : queue.pop? = some (job, rest)) :
    (s.setQueue station rest).queuesRank + jobRank = s.queuesRank := by
  have moved := queuesRank_setQueue present rest
  rw [JobQueue.size_pop popped, Nat.succ_mul] at moved
  omega

theorem queuesRank_drain (present : s.board.queues.get? station = some queue) :
    (s.setQueue station queue.drain.2).queuesRank + queue.drain.1.length * jobRank =
      s.queuesRank := by
  obtain ⟨perm, nothing⟩ := queue.drain_perm
  have moved := queuesRank_setQueue present queue.drain.2
  rw [JobQueue.size, JobQueue.size, nothing, ← perm.length_eq] at moved
  simpa using moved

theorem searches_rank (seeks : was.seeks = true) : was.rank = 2 := by
  cases was with
  | idle => rfl
  | asleep notified => cases notified <;> first | rfl | cases seeks
  | _ => cases seeks

theorem runner_lowers {calls : Nat} (here : s.runners[i]? = some ⟨station, was, out, calls⟩)
    (move : RunnerMove s i station out calls was action t events) : t.rank < s.rank := by
  have outlasts := (Transition.runner here move).outlasts
  cases move with
  | take seeks present popped =>
    refine lower_runner here outlasts rfl rfl rfl rfl ?_
    rw [searches_rank seeks, ← queuesRank_take present popped]
    change _ + 7 < _ + 6 + 2
    exact Nat.lt_succ_self _
  | leave seeks | rest seeks =>
    refine lower_runner here outlasts rfl rfl rfl rfl (Nat.add_lt_add_left ?_ _)
    rw [searches_rank seeks]
    simp [RunnerPhase.rank]
  | @breakDown queue job error present =>
    refine lower_runner here outlasts rfl rfl rfl rfl ?_
    have moved := queuesRank_drain present
    change (s.setQueue station queue.drain.2).queuesRank + _ < _
    simp only [RunnerPhase.rank, List.length_cons, jobRank] at moved ⊢
    omega
  | _ =>
    refine lower_runner here outlasts rfl rfl rfl rfl (Nat.add_lt_add_left ?_ _)
    simp [RunnerPhase.rank]

-- A call under way goes on, or ends, and nothing else changes.
theorem lower_call {before : Call} (here : s.calls.get? call = some before)
    (outlasts : Outlasts s t)
    (calls : (∃ now, t.calls = s.calls.insert call now ∧
        now.rank s.workers.length s.runners.length < before.rank s.workers.length s.runners.length) ∨
      t.calls = s.calls.erase call ∧ 0 < before.rank s.workers.length s.runners.length)
    (unassigned : t.board.unassigned = s.board.unassigned)
    (queues : t.board.queues = s.board.queues) (workers : t.workers = s.workers)
    (runners : t.runners = s.runners) : t.rank < s.rank := by
  have rest : t.waitingRank = s.waitingRank ∧ t.queuesRank = s.queuesRank ∧
      t.workersRank = s.workersRank ∧ t.runnersRank = s.runnersRank := by
    simp only [State.waitingRank, State.queuesRank, State.workersRank, State.runnersRank, unassigned,
      queues, workers, runners, and_self]
  rw [State.rank_eq, State.rank_eq]
  rcases calls with ⟨now, calls, less⟩ | ⟨calls, some⟩
  · have moved := callsRank_insert here calls outlasts
    omega
  · have moved := callsRank_erase here calls outlasts
    omega

theorem pager_lowers (here : s.calls.get? call = some (.pager id use stage))
    (move : PagerMove s call id use stage t events) : t.rank < s.rank := by
  obtain ⟨board, workers, runners, _⟩ := move.frame
  have outlasts := (ClientMove.usePager here move).outlasts
  refine lower_call here outlasts ?_ (by rw [board]) (by rw [board]) workers runners
  cases move with
  | known =>
    cases use <;> first | exact .inr ⟨rfl, by simp [Call.rank]⟩ | exact .inl ⟨_, rfl, by simp [Call.rank]⟩
  | silent =>
    cases use <;> first | exact .inr ⟨rfl, by simp [Call.rank]⟩ | exact .inl ⟨_, rfl, by simp [Call.rank]⟩
  | @note readiness =>
    have noted : (s.note id readiness).calls = s.calls := by
      unfold State.note
      split <;> rfl
    rw [← noted]
    cases use <;> first | exact .inr ⟨rfl, by simp [Call.rank]⟩ | exact .inl ⟨_, rfl, by simp [Call.rank]⟩
  | read => exact .inr ⟨rfl, by simp [Call.rank]⟩
  | look => exact .inl ⟨_, rfl, by simp [Call.rank]⟩
  | hear polls | hearNothing polls =>
    refine .inl ⟨_, rfl, ?_⟩
    rcases polls with rfl | rfl <;> simp [Call.rank]

theorem client_lowers (quiet : action.begins = false) (move : ClientMove s action t events) :
    t.rank < s.rank := by
  have outlasts := move.outlasts
  cases move with
  | getResult waits | getNothing waits =>
    exact lower_call waits outlasts (.inr ⟨rfl, by simp [Call.rank]⟩) rfl rfl rfl rfl
  | waitOver here =>
    exact lower_call here outlasts (.inr ⟨rfl, by simp [Call.rank]⟩) rfl rfl rfl rfl
  | usePager here move => exact pager_lowers here move
  | _ => cases quiet

theorem wakeAllWorkers_rank (s : State) :
    s.wakeAllWorkers.workersRank ≤ s.workersRank + s.workers.length := by
  have each : s.wakeAllWorkers.workersRank ≤ total (s.workers.map fun worker =>
      worker.phase.rank + 1) := by
    rw [State.workersRank, State.wakeAllWorkers, List.map_map]
    refine total_mono ?_
    rintro ⟨phase, report⟩ _
    cases phase with
    | asleep notified => cases notified <;> simp [State.wakeWorker, WorkerPhase.rank]
    | _ => exact Nat.le_succ _
  rw [total_add, total_one] at each
  exact each

theorem wakeAllStations_rank (s : State) :
    s.wakeAllStations.runnersRank ≤ s.runnersRank + s.runners.length := by
  have each : s.wakeAllStations.runnersRank ≤ total (s.runners.map fun runner =>
      runner.phase.rank + 1) := by
    rw [State.runnersRank, State.wakeAllStations, List.map_map]
    exact total_mono fun runner _ => wakeRunner_rank runner
  rw [total_add, total_one] at each
  exact each

-- The call pays for all whom it wakes.
theorem lower_wake {before now : Call} (here : s.calls.get? call = some before)
    (outlasts : Outlasts s t) (calls : t.calls = s.calls.insert call now)
    (unassigned : t.board.unassigned = s.board.unassigned)
    (queues : t.board.queues = s.board.queues)
    (less : t.workersRank + t.runnersRank + now.rank s.workers.length s.runners.length <
      s.workersRank + s.runnersRank + before.rank s.workers.length s.runners.length) :
    t.rank < s.rank := by
  have moved := callsRank_insert here calls outlasts
  have rest : t.waitingRank = s.waitingRank ∧ t.queuesRank = s.queuesRank := by
    simp only [State.waitingRank, State.queuesRank, unassigned, queues, and_self]
  rw [State.rank_eq, State.rank_eq]
  omega

theorem shutdown_lowers (here : s.calls.get? call = some (.shutdown stage))
    (move : ShutdownMove s call stage t events) : t.rank < s.rank := by
  have outlasts := move.outlasts
  cases move with
  | wakeWorkers =>
    refine lower_wake here outlasts rfl rfl rfl ?_
    have woken := wakeAllWorkers_rank s
    change s.wakeAllWorkers.workersRank + s.runnersRank + _ < _
    simp only [Call.rank]
    omega
  | wakeStations | wakeReleased =>
    refine lower_wake here outlasts rfl rfl rfl ?_
    have woken := wakeAllStations_rank s
    change s.workersRank + s.wakeAllStations.runnersRank + _ < _
    simp only [Call.rank, List.length_nil]
    omega
  | finish =>
    refine lower_call here outlasts (.inr ⟨rfl, ?_⟩) rfl rfl rfl rfl
    simp only [Call.rank]
    omega
  | join there | joinDead there =>
    refine lower_call here outlasts (.inl ⟨_, rfl, ?_⟩) rfl rfl rfl rfl
    have inside := (List.getElem?_eq_some_iff.mp there).1
    simp only [Call.rank, List.length_append, List.length_singleton]
    omega
  | joinRunner there | stop there =>
    refine lower_call here outlasts (.inl ⟨_, rfl, ?_⟩) rfl rfl rfl rfl
    have inside := (List.getElem?_eq_some_iff.mp there).1
    simp only [Call.rank]
    omega
  | close | joined | release | runnersJoined =>
    refine lower_call here outlasts (.inl ⟨_, rfl, ?_⟩) rfl rfl rfl rfl
    simp only [Call.rank]
    omega

-- Between client calls every step lowers the rank.
theorem Transition.lowers (stock : Stock stations s) (apart : stations.Nodup) (jobs : Jobs s)
    (quiet : action.begins = false) (step : Transition s action t events) : t.rank < s.rank := by
  cases step with
  | worker here move => exact worker_lowers stock apart jobs here move
  | runner here move => exact runner_lowers here move
  | client move => exact client_lowers quiet move
  | shutdown here move => exact shutdown_lowers here move

end Kitchen.Engine
