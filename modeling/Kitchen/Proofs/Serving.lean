import Kitchen.Proofs.Progress

namespace Kitchen.Engine

variable {s t : State} {action : Action} {actions : List Action} {events more : List Event}
  {call c : CallId} {id : OrderId} {i j n : Nat} {report : Report} {order : Order}
  {old : WorkerPhase} {was : RunnerPhase} {stations : List String} {ref : JobRef}
  {job : Job JobRef}

-- Spreading an order's jobs puts them behind those that a queue has.
theorem dispatchFrom_queue (s : State) (order : OrderId) (position : Nat) (products : List String)
    (station : String) : ∃ more : List (Job JobRef),
      (s.dispatchFrom order position products).1.board.queues.get? station =
        (s.board.queues.get? station).map
          (fun queue => ⟨queue.jobs ++ more, queue.nextSequence + more.length⟩) ∧
      (∀ job ∈ more, job.order = order ∧ job.slot.order = order) ∧
      more.length ≤ products.length := by
  induction products generalizing s position with
  | nil => exact ⟨[], by simp [State.dispatchFrom], by simp, Nat.le_refl _⟩
  | cons product rest ih =>
    have first : ∃ one : List (Job JobRef),
        (s.dispatchJob order position product).1.board.queues.get? station =
          (s.board.queues.get? station).map
            (fun queue => ⟨queue.jobs ++ one, queue.nextSequence + one.length⟩) ∧
        (∀ job ∈ one, job.order = order ∧ job.slot.order = order) ∧ one.length ≤ 1 := by
      unfold State.dispatchJob
      split
      next queue present _ =>
        by_cases here : product = station
        · subst here
          refine ⟨[⟨order, queue.nextSequence, ⟨order, position⟩⟩], ?_, ?_, Nat.le_refl _⟩
          · simp [State.wakeStation, State.withBoard, present, JobQueue.push]
          · simp
        · refine ⟨[], ?_, by simp, Nat.zero_le _⟩
          simp [State.wakeStation, State.withBoard, Table.get?_insert, here]
      next => exact ⟨[], by simp, by simp, Nat.zero_le _⟩
    obtain ⟨one, once, labelled, single⟩ := first
    obtain ⟨others, twice, alike, few⟩ := ih (s.dispatchJob order position product).1 (position + 1)
    refine ⟨one ++ others, ?_, ?_, ?_⟩
    · rw [State.dispatchFrom, twice, once, Option.map_map]
      congr 1
      funext queue
      simp [Nat.add_assoc]
    · intro job member
      exact (List.mem_append.mp member).elim (labelled job) (alike job)
    · rw [List.length_append, List.length_cons]
      omega

theorem spread_queue (s : State) (order : Order) (station : String) : ∃ more : List (Job JobRef),
    (s.spread order).1.board.queues.get? station = (s.board.queues.get? station).map
      (fun queue => ⟨queue.jobs ++ more, queue.nextSequence + more.length⟩) ∧
    (∀ job ∈ more, job.order = order.id ∧ job.slot.order = order.id) ∧
    more.length ≤ order.products.length :=
  dispatchFrom_queue _ _ _ _ _

theorem RunnerMove.queue {calls : Nat} (move : RunnerMove s i station out calls was action t events)
    (other : station ≠ elsewhere) : t.board.queues.get? elsewhere = s.board.queues.get? elsewhere := by
  cases move with
  | take | breakDown => exact Table.get?_insert_of_ne _ _ other
  | _ => rfl

def State.keeps (s : State) (job : Job JobRef) : Prop :=
  (∃ station queue, s.board.queues.get? station = some queue ∧ job ∈ queue.jobs) ∨
    ∃ runner ∈ s.runners, job ∈ runner.phase.jobs

def Labelled (s : State) : Prop := ∀ job, s.keeps job → job.order = job.slot.order

namespace Labelled

theorem opened (stations : List String) (workers : Nat) : Labelled (.opened stations workers) := by
  rintro job (⟨station, queue, found, member⟩ | ⟨runner, member, has⟩)
  · obtain ⟨_, _, same⟩ := List.mem_map.mp (Table.mem_of_get? found)
    cases same
    cases member
  · obtain ⟨_, _, rfl⟩ := List.mem_map.mp member
    cases has

theorem map (labelled : Labelled s) (f : Runner → Runner) (runners : t.runners = s.runners.map f)
    (same : ∀ runner, (f runner).phase.jobs = runner.phase.jobs)
    (queues : ∀ station queue, t.board.queues.get? station = some queue → ∀ job ∈ queue.jobs,
      s.keeps job ∨ job.order = job.slot.order) : Labelled t := by
  rintro job (⟨station, queue, found, member⟩ | ⟨runner, member, has⟩)
  · exact (queues station queue found job member).elim (labelled job) id
  · rw [runners] at member
    obtain ⟨before, was, rfl⟩ := List.mem_map.mp member
    rw [same] at has
    exact labelled job (.inr ⟨before, was, has⟩)

theorem same (labelled : Labelled s) (runners : t.runners = s.runners)
    (queues : t.board.queues = s.board.queues) : Labelled t := by
  refine labelled.map id (by rw [runners, List.map_id]) (fun _ => rfl) ?_
  rw [queues]
  exact fun station queue found job member => .inl (.inl ⟨station, queue, found, member⟩)

-- A runner's new jobs were its own or on its queue, and its queue only shrinks.
theorem set (labelled : Labelled s) (runners : t.runners = s.runners.set i now)
    (has : ∀ job ∈ now.phase.jobs, s.keeps job)
    (queues : ∀ station queue, t.board.queues.get? station = some queue → ∀ job ∈ queue.jobs,
      s.keeps job) : Labelled t := by
  rintro job (⟨station, queue, found, member⟩ | ⟨other, member, holds⟩)
  · exact labelled job (queues station queue found job member)
  · rw [runners] at member
    rcases List.mem_or_eq_of_mem_set member with old | rfl
    · exact labelled job (.inr ⟨other, old, holds⟩)
    · exact labelled job (has job holds)

theorem runner {calls : Nat} (labelled : Labelled s)
    (here : s.runners[i]? = some ⟨station, was, out, calls⟩)
    (move : RunnerMove s i station out calls was action t events) : Labelled t := by
  have mine : ∀ job ∈ was.jobs, s.keeps job :=
    fun job has => .inr ⟨_, List.mem_of_getElem? here, has⟩
  have queued : ∀ station queue, s.board.queues.get? station = some queue → ∀ job ∈ queue.jobs,
      s.keeps job := fun station queue found job member => .inl ⟨station, queue, found, member⟩
  have shrunk : ∀ (queue rest : JobQueue JobRef), s.board.queues.get? station = some queue →
      (∀ job ∈ rest.jobs, job ∈ queue.jobs) → ∀ other found,
      (s.board.queues.insert station rest).get? other = some found → ∀ job ∈ found.jobs,
        s.keeps job := by
    intro queue rest present fewer other found there job member
    rw [Table.get?_insert] at there
    split at there
    next same =>
      cases there
      exact queued station queue present job (fewer job member)
    next => exact queued other found there job member
  cases move with
  | take _ present popped =>
    have perm := JobQueue.pop_perm popped
    refine labelled.set rfl ?_ (shrunk _ _ present ?_)
    · intro job has
      cases List.mem_singleton.mp has
      exact queued _ _ present _ (perm.mem_iff.mpr (by simp))
    · exact fun job member => perm.mem_iff.mpr (List.mem_cons_of_mem _ member)
  | @breakDown queue job _ present =>
    obtain ⟨perm, nothing⟩ := queue.drain_perm
    refine labelled.set rfl ?_ (shrunk _ _ present ?_)
    · intro other has
      rcases List.mem_cons.mp has with rfl | swept
      · exact mine other (List.mem_singleton_self _)
      · exact queued _ _ present _ (perm.mem_iff.mp swept)
    · rw [nothing]
      simp
  | sweep =>
    exact labelled.set rfl (fun job has => mine job (List.mem_cons_of_mem _ has)) queued
  | ask | make | fault | breakDownQueueless => exact labelled.set rfl mine queued
  | _ => exact labelled.set rfl (by simp [RunnerPhase.jobs]) queued

theorem step (labelled : Labelled s) (step : Transition s action t events) : Labelled t := by
  cases step with
  | worker _ move =>
    cases move with
    | @dispatch order =>
      obtain ⟨woken, runners⟩ := spread_runners s order
      refine labelled.map _ runners ?_ ?_
      · intro runner
        split
        · exact wakeRunner_jobs runner
        · rfl
      · intro station queue found job member
        obtain ⟨more, grown, label, _⟩ := spread_queue s order station
        obtain ⟨before, present, rfl⟩ := Option.map_eq_some_iff.mp (grown.symm.trans found)
        rcases List.mem_append.mp member with old | new
        · exact .inl (.inl ⟨station, before, present, old⟩)
        · obtain ⟨order, slot⟩ := label job new
          exact .inr (order.trans slot.symm)
    | _ => exact labelled.same rfl rfl
  | runner here move => exact labelled.runner here move
  | client move =>
    cases move with
    | usePager _ move =>
      obtain ⟨board, _, runners, _⟩ := move.frame
      exact labelled.same runners (by rw [board])
    | _ => exact labelled.same rfl rfl
  | shutdown _ move =>
    cases move with
    | wakeStations | wakeReleased =>
      refine labelled.map State.wakeRunner rfl wakeRunner_jobs ?_
      exact fun station queue found job member => .inl (.inl ⟨station, queue, found, member⟩)
    | _ => exact labelled.same rfl rfl

theorem run (labelled : Labelled s) (run : Run s actions events t) : Labelled t := by
  induction run with
  | start => exact labelled
  | next _ ran ih => exact ih.step (transition_of_step ran)

end Labelled

def State.answered (s : State) (ref : JobRef) : Prop :=
  ∃ signal, s.jobs.get? ref = some signal ∧ signal.content ≠ .waiting

theorem answered_same (signals : t.jobs = s.jobs) (answered : s.answered ref) : t.answered ref := by
  rw [State.answered, signals]
  exact answered

theorem answered_hear {heard : Bool} (signals : t.jobs = s.jobs.insert other ⟨.closed, heard⟩)
    (answered : s.answered ref) : t.answered ref := by
  obtain ⟨signal, found, spoke⟩ := answered
  by_cases same : other = ref
  · exact ⟨⟨.closed, heard⟩, by rw [signals, same, Table.get?_insert_self], by simp⟩
  · exact ⟨signal, by rw [signals, Table.get?_insert_of_ne _ _ same, found], spoke⟩

theorem answered_change (change : Signal JobResult → Signal JobResult)
    (signals : t.jobs = s.jobs.modify other change)
    (keeps : ∀ signal, signal.content ≠ .waiting → (change signal).content ≠ .waiting)
    (answered : s.answered ref) : t.answered ref := by
  obtain ⟨signal, found, spoke⟩ := answered
  by_cases same : other = ref
  · refine ⟨change signal, ?_, keeps signal spoke⟩
    rw [signals, Table.get?_modify, if_pos same, found, Option.map_some]
  · exact ⟨signal, by rw [signals, Table.get?_modify, if_neg same, found], spoke⟩

theorem resolve_spoken (result : JobResult) (signal : Signal JobResult)
    (spoke : signal.content ≠ .waiting) : (signal.resolve result).2.content ≠ .waiting := by
  obtain ⟨content, heard⟩ := signal
  cases content with
  | waiting => exact absurd rfl spoke
  | holding | closed => simp [Signal.resolve]

theorem dropSender_spoken (signal : Signal JobResult) : signal.dropSender.content ≠ .waiting := by
  obtain ⟨content, heard⟩ := signal
  cases content <;> simp [Signal.dropSender]

-- An answer is not taken back: a worker that hears it leaves the signal closed, and the jobs that
-- are spread are new.
theorem answered_step (stock : Stock stations s) (jobs : Jobs s)
    (step : Transition s action t events) (answered : s.answered ref) : t.answered ref := by
  cases step with
  | worker here move =>
    cases move with
    | @dispatch order =>
      have known := stock.held _ (List.mem_of_getElem? here) order rfl
      obtain ⟨signal, found, spoke⟩ := answered
      refine ⟨signal, ?_, spoke⟩
      change (s.spread order).1.jobs.get? ref = _
      rw [(spread_spread stock known).2.signals, if_neg, found]
      intro within
      rw [jobs.unknown (State.phases_of here) within.1] at found
      cases found
    | receive | hearBreak | hearNothing => exact answered_hear rfl answered
    | _ => exact answered_same rfl answered
  | runner _ move =>
    cases move with
    | refuse | handOver | sweep => exact answered_change _ rfl (resolve_spoken _) answered
    | crash => exact answered_change _ rfl (fun signal _ => dropSender_spoken signal) answered
    | _ => exact answered_same rfl answered
  | client move =>
    cases move with
    | usePager _ move => exact answered_same move.frame.2.2.2.1 answered
    | _ => exact answered_same rfl answered
  | shutdown _ move => exact answered_same move.frame.2.2.2.2.2.1 answered

-- How many of its own steps a runner takes at most until the first of its jobs is answered.
def RunnerPhase.remaining : RunnerPhase → Nat
  | .serving _ => 4
  | .producing _ => 3
  | .failing _ _ => 2
  | .starting | .holding _ _ | .sweeping _ _ => 1
  | .idle | .asleep _ | .finished | .dead => 0

-- How many jobs of an order no younger than `id` the worker will spread.
def WorkerPhase.toSpread (id : OrderId) : WorkerPhase → Nat
  | .claimed order => if order.id ≤ id then order.products.length else 0
  | _ => 0

-- The jobs on the queue that may be served before one of `id`, and those that may still come.
def State.ahead (s : State) (queue : JobQueue JobRef) (id : OrderId) : Nat :=
  queue.before id + total (s.workers.map (·.phase.toSpread id))

-- The job is on the queue of runner `j` or with it, and answered after `n` of its steps at most.
inductive InLine (s : State) (j : Nat) (job : Job JobRef) (n : Nat) : Prop where
  | queued (here : s.runners[j]? = some runner)
      (present : s.board.queues.get? runner.station = some queue) (member : job ∈ queue.jobs)
      (soon : runner.phase.remaining + runner.phase.jobs.length + 6 * s.ahead queue job.order ≤ n)
  | carried (here : s.runners[j]? = some runner) (place : runner.phase.jobs[p]? = some job)
      (soon : runner.phase.remaining + p ≤ n)

-- A runner that was told something at most.
structure Alike (before now : Runner) : Prop where
  station : now.station = before.station
  jobs : now.phase.jobs = before.phase.jobs
  remaining : now.phase.remaining = before.phase.remaining

theorem wakeRunner_alike (runner : Runner) : Alike runner (State.wakeRunner runner) := by
  obtain ⟨station, phase, out, calls⟩ := runner
  cases phase <;> exact ⟨rfl, rfl, rfl⟩

theorem alike_same (runners : t.runners = s.runners) (runner : Runner)
    (here : s.runners[j]? = some runner) : ∃ now, t.runners[j]? = some now ∧ Alike runner now :=
  ⟨runner, by rw [runners, here], rfl, rfl, rfl⟩

theorem alike_map (f : Runner → Runner) (runners : t.runners = s.runners.map f)
    (alike : ∀ runner, Alike runner (f runner)) (runner : Runner)
    (here : s.runners[j]? = some runner) : ∃ now, t.runners[j]? = some now ∧ Alike runner now :=
  ⟨f runner, by rw [runners, List.getElem?_map, here, Option.map_some], alike runner⟩

theorem ahead_same (workers : t.workers = s.workers) (queue : JobQueue JobRef) (id : OrderId) :
    t.ahead queue id = s.ahead queue id := by
  rw [State.ahead, State.ahead, workers]

theorem ahead_map (f : Worker → Worker) (workers : t.workers = s.workers.map f)
    (same : ∀ worker, (f worker).phase.toSpread id = worker.phase.toSpread id)
    (queue : JobQueue JobRef) : t.ahead queue id = s.ahead queue id := by
  rw [State.ahead, State.ahead, workers, List.map_map]
  congr 2
  exact List.map_congr_left fun worker _ => same worker

theorem ahead_set (here : s.workers[i]? = some ⟨old, report⟩)
    (workers : t.workers = s.workers.set i now)
    (grows : longer.before id + now.phase.toSpread id ≤ queue.before id + old.toSpread id) :
    t.ahead longer id ≤ s.ahead queue id := by
  have moved := total_set (f := fun worker : Worker => worker.phase.toSpread id) here now
  rw [State.ahead, State.ahead, workers]
  dsimp only at moved
  omega

theorem Stock.runner_inj (stock : Stock stations s) (apart : stations.Nodup) {a b : Runner}
    (here : s.runners[i]? = some a) (there : s.runners[j]? = some b) (same : a.station = b.station) :
    i = j := by
  have inside := (List.getElem?_eq_some_iff.mp here).1
  rw [← stock.staff] at apart
  refine (List.getElem?_inj (by simpa using inside) apart).mp ?_
  rw [List.getElem?_map, List.getElem?_map, here, there, Option.map_some, Option.map_some, same]

namespace InLine

theorem keep (inLine : InLine s j job n)
    (runners : ∀ runner, s.runners[j]? = some runner →
      ∃ now, t.runners[j]? = some now ∧ Alike runner now)
    (queues : ∀ runner queue, s.runners[j]? = some runner →
      s.board.queues.get? runner.station = some queue → job ∈ queue.jobs →
      ∃ longer, t.board.queues.get? runner.station = some longer ∧ job ∈ longer.jobs ∧
        t.ahead longer job.order ≤ s.ahead queue job.order) : InLine t j job n := by
  cases inLine with
  | queued here present member soon =>
    obtain ⟨now, there, station, jobs, remaining⟩ := runners _ here
    obtain ⟨longer, found, has, few⟩ := queues _ _ here present member
    refine .queued there (station ▸ found) has ?_
    rw [remaining, jobs]
    omega
  | carried here place soon =>
    obtain ⟨now, there, station, jobs, remaining⟩ := runners _ here
    exact .carried there (jobs ▸ place) (remaining ▸ soon)

theorem same (inLine : InLine s j job n)
    (runners : ∀ runner, s.runners[j]? = some runner →
      ∃ now, t.runners[j]? = some now ∧ Alike runner now)
    (queues : t.board.queues = s.board.queues)
    (ahead : ∀ queue, t.ahead queue job.order ≤ s.ahead queue job.order) : InLine t j job n := by
  refine inLine.keep runners ?_
  rw [queues]
  exact fun runner queue _ present member => ⟨queue, present, member, ahead queue⟩

-- An order that is claimed now is younger than those that have jobs.
theorem claimed_younger (jobs : Jobs s) (orders : Orders s) (labelled : Labelled s)
    (present : s.board.queues.get? station = some queue) (member : job ∈ queue.jobs)
    (waits : order ∈ s.board.unassigned) : job.order < order.id := by
  have young := (jobs.young _ _ (jobs.waiting_queued present member)).1
  have label := labelled job (.inl ⟨station, queue, present, member⟩)
  have late := (orders.roster.queued_id waits).1
  lia

theorem worker (jobs : Jobs s) (orders : Orders s) (labelled : Labelled s)
    (inLine : InLine s j job n) (here : s.workers[i]? = some ⟨old, report⟩)
    (move : WorkerMove s i report old action t events) : InLine t j job n := by
  cases move with
  | @claim order _ _ _ first =>
    refine inLine.keep (alike_same rfl) ?_
    intro runner queue _ present member
    have waits : order ∈ s.board.unassigned := by simp [first]
    have younger := claimed_younger jobs orders labelled present member waits
    have none : (WorkerPhase.claimed order).toSpread job.order = 0 :=
      if_neg (Nat.not_le_of_lt younger)
    refine ⟨queue, present, member, ahead_set here rfl ?_⟩
    rw [none]
    exact Nat.add_le_add_left (Nat.zero_le _) _
  | @dispatch order =>
    obtain ⟨woken, runners⟩ := spread_runners s order
    refine inLine.keep (alike_map _ runners ?_) ?_
    · intro runner
      split
      · exact wakeRunner_alike runner
      · exact ⟨rfl, rfl, rfl⟩
    · intro runner queue _ present member
      obtain ⟨more, grown, label, few⟩ := spread_queue s order runner.station
      rw [present] at grown
      refine ⟨_, grown, List.mem_append_left _ member, ahead_set here (spread_setWorker ..) ?_⟩
      have counted : more.countP (·.order ≤ job.order) ≤ if order.id ≤ job.order then
          order.products.length else 0 := by
        split
        next => exact Nat.le_trans List.countP_le_length few
        next younger =>
          refine Nat.le_of_eq (List.countP_eq_zero.mpr ?_)
          intro other among
          simpa [(label other among).1] using younger
      simp only [JobQueue.before, List.countP_append, WorkerPhase.toSpread]
      omega
  | _ =>
    exact inLine.same (alike_same rfl) rfl
      fun queue => ahead_set here rfl (Nat.add_le_add_left (Nat.zero_le _) _)

theorem other {calls : Nat} (stock : Stock stations s) (apart : stations.Nodup)
    (inLine : InLine s j job n) (here : s.runners[i]? = some ⟨station, was, out, calls⟩)
    (move : RunnerMove s i station out calls was action t events) (differ : i ≠ j) :
    InLine t j job n := by
  obtain ⟨now, runners, _⟩ := move.runners
  refine inLine.keep ?_ ?_
  · intro runner there
    exact ⟨runner, by rw [runners, List.getElem?_set_ne differ, there], rfl, rfl, rfl⟩
  · intro runner queue there present member
    refine ⟨queue, ?_, member, Nat.le_of_eq (ahead_same move.workers.1 ..)⟩
    rw [move.queue fun same => differ (stock.runner_inj apart here there same), present]

theorem client (inLine : InLine s j job n) (move : ClientMove s action t events) :
    InLine t j job n := by
  cases move with
  | placeWaking _ _ sleeper =>
    exact inLine.same (alike_same rfl) rfl fun queue => ahead_set sleeper rfl (Nat.le_refl _)
  | @collectReady _ id =>
    refine inLine.same (alike_same rfl) rfl fun queue => Nat.le_of_eq ?_
    refine ahead_map (State.wakePickup id) rfl ?_ queue
    intro worker
    rw [State.wakePickup_phase]
    cases worker.phase <;> rfl
  | usePager _ move =>
    obtain ⟨board, workers, runners, _⟩ := move.frame
    exact inLine.same (alike_same runners) (by rw [board])
      fun queue => Nat.le_of_eq (ahead_same workers ..)
  | _ => exact inLine.same (alike_same rfl) rfl fun queue => Nat.le_refl _

theorem shutdown (inLine : InLine s j job n) (move : ShutdownMove s call stage t events) :
    InLine t j job n := by
  cases move with
  | wakeWorkers =>
    refine inLine.same (alike_same rfl) rfl fun queue => Nat.le_of_eq ?_
    refine ahead_map State.wakeWorker rfl ?_ queue
    intro worker
    rw [State.wakeWorker_phase]
    cases worker.phase <;> rfl
  | wakeStations | wakeReleased =>
    exact inLine.same (alike_map _ rfl wakeRunner_alike) rfl fun queue => Nat.le_refl _
  | _ => exact inLine.same (alike_same rfl) rfl fun queue => Nat.le_refl _

-- The runner's own move, while the job is on its queue.
theorem own_queued {calls : Nat} (here : s.runners[j]? = some ⟨station, was, out, calls⟩)
    (present : s.board.queues.get? station = some queue) (member : job ∈ queue.jobs)
    (soon : was.remaining + was.jobs.length + 6 * s.ahead queue job.order ≤ n)
    (move : RunnerMove s j station out calls was action t events)
    (safe : action ≠ .produced j .crashed) : ∃ m, m < n ∧ InLine t j job m := by
  have inside := (List.getElem?_eq_some_iff.mp here).1
  have mine := queue.before_pos member
  have many : queue.before job.order ≤ s.ahead queue job.order := Nat.le_add_right _ _
  have on : ∀ now : Runner, t.runners = s.runners.set j now → now.station = station →
      t.board.queues = s.board.queues → now.phase.remaining + now.phase.jobs.length <
        was.remaining + was.jobs.length → ∃ m, m < n ∧ InLine t j job m := by
    intro now runners place queues less
    have there : t.runners[j]? = some now := by rw [runners, List.getElem?_set_self inside]
    refine ⟨_, ?_, .queued there (by rw [place, queues, present]) member (Nat.le_refl _)⟩
    rw [ahead_same move.workers.1]
    omega
  cases move with
  | @take _ other rest _ _ there popped =>
    obtain rfl := Option.some.inj (present.symm.trans there)
    have now : (s.runners.set j ⟨station, .serving other, out, calls⟩)[j]? = _ :=
      List.getElem?_set_self inside
    rcases List.mem_cons.mp ((JobQueue.pop_perm popped).mem_iff.mp member) with rfl | left
    · refine ⟨4, by omega, .carried now (p := 0) rfl (Nat.le_refl _)⟩
    · -- The job that was taken is one of those before this one.
      have counted := JobQueue.before_pop popped (JobQueue.pop_oldest popped job member)
      refine ⟨_, ?_, .queued now (Table.get?_insert_self ..) left (Nat.le_refl _)⟩
      simp only [State.ahead, RunnerPhase.remaining, RunnerPhase.jobs, List.length_singleton] at soon ⊢
      change 4 + 1 + 6 * (rest.before job.order + total (s.workers.map _)) < n
      omega
  | leave _ nothing | rest _ nothing =>
    rw [present] at nothing
    rw [JobQueue.pop_none nothing] at member
    cases member
  | @breakDown queue' other _ there =>
    obtain rfl := Option.some.inj (present.symm.trans there)
    obtain ⟨p, place, few⟩ := JobQueue.drain_place member
    refine ⟨1 + (p + 1), ?_, .carried (List.getElem?_set_self inside) (p := p + 1) place
      (Nat.le_refl _)⟩
    simp only [RunnerPhase.remaining, RunnerPhase.jobs, List.length_singleton] at soon
    omega
  | breakDownQueueless absent =>
    rw [present] at absent
    cases absent
  | crash => exact absurd rfl safe
  | start | refuse | ask | handOver | sweep | swept | make | fault =>
    refine on _ rfl rfl rfl ?_
    simp [RunnerPhase.remaining, RunnerPhase.jobs]

-- The runner's own move, while it has the job.
theorem own_carried {calls p : Nat} (jobs : Jobs s)
    (here : s.runners[j]? = some ⟨station, was, out, calls⟩) (place : was.jobs[p]? = some job)
    (soon : was.remaining + p ≤ n) (move : RunnerMove s j station out calls was action t events)
    (safe : action ≠ .produced j .crashed) :
    t.answered job.slot ∨ ∃ m, m < n ∧ InLine t j job m := by
  have inside := (List.getElem?_eq_some_iff.mp here).1
  have waiting := jobs.waiting_carried (List.mem_of_getElem? here) (List.mem_of_getElem? place)
  have on : ∀ (now : Runner) (q : Nat), t.runners = s.runners.set j now →
      now.phase.jobs[q]? = some job → now.phase.remaining + q < was.remaining + p →
        ∃ m, m < n ∧ InLine t j job m := by
    intro now q runners still less
    have there : t.runners[j]? = some now := by rw [runners, List.getElem?_set_self inside]
    exact ⟨_, by omega, .carried there still (Nat.le_refl _)⟩
  have answer : ∀ result, t.jobs = s.jobs.modify job.slot (fun signal => (signal.resolve result).2) →
      t.answered job.slot := by
    intro result signals
    refine ⟨⟨.holding result, true⟩, ?_, by simp⟩
    rw [signals, Table.get?_modify, if_pos rfl, waiting]
    rfl
  have only : ∀ one, was.jobs = [one] → p = 0 ∧ one = job := by
    intro one single
    rw [single] at place
    cases p with
    | zero => exact ⟨rfl, Option.some.inj place⟩
    | succ p => cases place
  cases move with
  | refuse | handOver =>
    obtain ⟨_, rfl⟩ := only _ rfl
    exact .inl (answer _ rfl)
  | ask | make | fault =>
    refine .inr (on _ p rfl place ?_)
    simp only [RunnerPhase.remaining]
    omega
  | breakDown | breakDownQueueless =>
    obtain ⟨rfl, rfl⟩ := only _ rfl
    exact .inr (on _ 0 rfl rfl (by simp [RunnerPhase.remaining]))
  | sweep =>
    cases p with
    | zero =>
      cases Option.some.inj place
      exact .inl (answer _ rfl)
    | succ p =>
      refine .inr (on _ p rfl place ?_)
      simp only [RunnerPhase.remaining]
      omega
  | take seeks | leave seeks | rest seeks =>
    rw [Jobs.seeks_jobs seeks] at place
    cases place
  | start | swept => cases place
  | crash => exact absurd rfl safe

theorem own {calls : Nat} (jobs : Jobs s) (inLine : InLine s j job n)
    (here : s.runners[j]? = some ⟨station, was, out, calls⟩)
    (move : RunnerMove s j station out calls was action t events)
    (safe : action ≠ .produced j .crashed) :
    t.answered job.slot ∨ ∃ m, m < n ∧ InLine t j job m := by
  cases inLine with
  | queued there present member soon =>
    cases here.symm.trans there
    exact .inr (own_queued here present member soon move safe)
  | carried there place soon =>
    cases here.symm.trans there
    exact own_carried jobs here place soon move safe

theorem elsewhere_worker (move : WorkerMove s i report old action t events) :
    action.ofRunner j = false := by
  rcases move.own with rfl | rfl | ⟨_, rfl⟩ <;> rfl

theorem elsewhere_runner {calls : Nat} (move : RunnerMove s i station out calls was action t events)
    (differ : i ≠ j) : action.ofRunner j = false := by
  cases move <;> simp [Action.ofRunner, differ]

-- Nobody but the runner itself keeps the job longer in line, or gets it out of it.
theorem step (stock : Stock stations s) (jobs : Jobs s) (orders : Orders s) (labelled : Labelled s)
    (apart : stations.Nodup) (inLine : InLine s j job n) (step : Transition s action t events) :
    action.ofRunner j = false ∧ InLine t j job n ∨
      ∃ station was out calls, s.runners[j]? = some ⟨station, was, out, calls⟩ ∧
        RunnerMove s j station out calls was action t events := by
  cases step with
  | worker here move =>
    exact .inl ⟨elsewhere_worker move, inLine.worker jobs orders labelled here move⟩
  | @runner i _ _ _ _ _ _ _ here move =>
    by_cases mine : i = j
    · subst mine
      exact .inr ⟨_, _, _, _, here, move⟩
    · exact .inl ⟨elsewhere_runner move mine, inLine.other stock apart here move mine⟩
  | client move => exact .inl ⟨by cases move <;> rfl, inLine.client move⟩
  | shutdown _ move => exact .inl ⟨rfl, inLine.shutdown move⟩

-- As long as the station does not crash, the job is answered or as much nearer to it as the runner
-- took steps.
theorem run (stock : Stock stations s) (jobs : Jobs s) (orders : Orders s) (labelled : Labelled s)
    (apart : stations.Nodup) (inLine : InLine s j job n) (run : Run s actions events t)
    (safe : .produced j .crashed ∉ actions) :
    t.answered job.slot ∨ ∃ m, InLine t j job m ∧ m + actions.countP (·.ofRunner j) ≤ n := by
  induction run with
  | start => exact .inr ⟨n, inLine, by simp⟩
  | @next earlier _ _ middle _ action before ran ih =>
    have taken := transition_of_step ran
    have still := jobs.run stock orders before
    rw [List.countP_append, List.countP_singleton]
    rcases ih fun member => safe (List.mem_append_left _ member) with answered | ⟨m, waits, few⟩
    · exact .inl (answered_step (stock.run before) still taken answered)
    · rcases waits.step (stock.run before) still (orders.run before) (labelled.run before) apart
        taken with ⟨other, waits⟩ | ⟨station, was, out, calls, here, move⟩
      · refine .inr ⟨m, waits, ?_⟩
        rw [other, if_neg (by simp)]
        exact few
      · rcases waits.own still here move (by rintro rfl; exact safe (by simp)) with
          answered | ⟨k, less, waits⟩
        · exact .inl answered
        · refine .inr ⟨k, waits, ?_⟩
          split <;> omega

-- Nothing holds up a runner for which a job stands in line.
theorem goes_on (sleepers : Sleepers s) (inLine : InLine s j job n) (alive : ¬ s.lost j) :
    ∃ action, action.ofRunner j = true ∧ (s.step action).isSome = true := by
  cases inLine with
  | @queued runner queue here present member _ =>
    have among := List.mem_of_getElem? here
    have busy : ¬ s.idleQueue runner.station := by
      intro idle
      rw [idle queue present] at member
      cases member
    refine runner_goes_on here ?_ ?_
    · exact fun asleep => busy (sleepers.runners runner among asleep).1
    · cases phase : runner.phase with
      | finished => exact absurd (sleepers.left runner among phase).2 busy
      | dead => exact absurd ⟨runner, here, phase⟩ alive
      | _ => rfl
  | @carried runner p here place _ =>
    refine runner_goes_on here ?_ ?_
    · intro asleep
      rw [asleep] at place
      cases place
    · cases phase : runner.phase with
      | finished | dead =>
        rw [phase] at place
        cases place
      | _ => rfl

end InLine

-- A runner is there that answers the job. However the others go on, it needs no more than some number
-- of its own steps and is never held up, unless its station crashes.
def Serves (s : State) (j : Nat) (station : String) (ref : JobRef) : Prop :=
  (∃ runner, s.runners[j]? = some runner ∧ runner.station = station ∧ runner.phase.ended = false) ∧
    ∃ n, ∀ later more t, Run s later more t → .produced j .crashed ∉ later →
      t.answered ref ∨ later.countP (·.ofRunner j) ≤ n ∧
        ∃ action, action.ofRunner j = true ∧ (t.step action).isSome = true

theorem InLine.serves (stock : Stock stations s) (jobs : Jobs s) (orders : Orders s)
    (labelled : Labelled s) (closing : Closing s) (sleepers : Sleepers s) (apart : stations.Nodup)
    (inLine : InLine s j job n) (here : s.runners[j]? = some runner)
    (on : runner.phase.ended = false) : Serves s j runner.station job.slot := by
  refine ⟨⟨runner, here, rfl, on⟩, n, ?_⟩
  intro later more t run safe
  have alive : ¬ t.lost j := by
    intro lost
    rcases lost_run run lost with ⟨before, was, dead⟩ | crashed
    · cases here.symm.trans was
      rw [dead] at on
      cases on
    · exact safe crashed
  rcases inLine.run stock jobs orders labelled apart run safe with answered | ⟨m, waits, few⟩
  · exact .inl answered
  · exact .inr ⟨by omega, waits.goes_on (sleepers.run closing run) alive⟩

end Kitchen.Engine
