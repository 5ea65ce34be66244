import Kitchen.Proofs.Custody
import Kitchen.Proofs.Tallies

namespace Kitchen.Engine

variable {s t : State} {action : Action} {actions : List Action} {events more : List Event}
  {i calls : Nat} {out : Bool} {report : Report} {order : Order} {old : WorkerPhase} {was : RunnerPhase}
  {stations : List String} {workers : Nat} {station place : String} {ref : JobRef}

namespace State

def queuedJobs (s : State) (station : String) : List JobRef :=
  ((s.board.queues.get? station).map fun queue => queue.jobs.map (·.slot)).getD []

def heldJobs (s : State) (station : String) : List JobRef :=
  s.runners.flatMap fun runner =>
    if runner.station = station then runner.phase.jobs.map (·.slot) else []

def unanswered (s : State) (station : String) : List JobRef := s.queuedJobs station ++ s.heldJobs station

end State

theorem mem_queuedJobs : ref ∈ s.queuedJobs station ↔
    ∃ queue job, s.board.queues.get? station = some queue ∧ job ∈ queue.jobs ∧ job.slot = ref := by
  unfold State.queuedJobs
  cases s.board.queues.get? station <;> simp

theorem mem_heldJobs : ref ∈ s.heldJobs station ↔
    ∃ runner job, runner ∈ s.runners ∧ runner.station = station ∧ job ∈ runner.phase.jobs ∧
      job.slot = ref := by
  simp only [State.heldJobs, List.mem_flatMap, List.mem_ite_nil_right, List.mem_map]
  constructor
  · rintro ⟨runner, member, mine, job, has, slot⟩
    exact ⟨runner, job, member, mine, has, slot⟩
  · rintro ⟨runner, job, member, mine, has, slot⟩
    exact ⟨runner, member, mine, job, has, slot⟩

theorem count_queuedJobs (s : State) (station : String) (ref : JobRef) :
    (s.queuedJobs station).count ref ≤ s.queued ref := by
  unfold State.queuedJobs
  cases present : s.board.queues.get? station with
  | none => exact Nat.zero_le _
  | some queue =>
    exact le_total (f := fun entry : String × JobQueue JobRef => among ref entry.2.jobs)
      (Table.mem_of_get? present)

theorem count_heldJobs (s : State) (station : String) (ref : JobRef) :
    (s.heldJobs station).count ref ≤ s.carried ref := by
  rw [State.heldJobs, count_flatMap_total, State.carried]
  refine total_mono ?_
  intro runner _
  split
  · exact Nat.le_refl _
  · exact Nat.zero_le _

-- Somebody who waits for it wants it from this station.
theorem sought_of_unanswered (jobs : Jobs s) (member : ref ∈ s.unanswered station) :
    Sought s ref station := by
  rcases List.mem_append.mp member with queued | carried
  · obtain ⟨queue, job, present, there, rfl⟩ := mem_queuedJobs.mp queued
    exact jobs.queued station queue present job there
  · obtain ⟨runner, job, there, rfl, has, rfl⟩ := mem_heldJobs.mp carried
    exact jobs.carried runner there job has

theorem unanswered_nodup (jobs : Jobs s) (station : String) : (s.unanswered station).Nodup := by
  rw [List.nodup_iff_count_le_one]
  intro ref
  have queued := count_queuedJobs s station ref
  have carried := count_heldJobs s station ref
  have once := jobs.once ref
  have one : waits (s.jobs.get? ref) ≤ 1 := by
    unfold waits
    split <;> omega
  rw [State.unanswered, List.count_append]
  omega

-- An order has no more jobs at a station than it lists the product.
theorem unanswered_few (jobs : Jobs s) (all : Placed events s) (accepted : order ∈ placed events)
    (station : String) :
    (s.unanswered station).countP (·.order = order.id) ≤ order.products.count station := by
  have mine : (s.unanswered station).filter (·.order = order.id) ⊆ placesFor station order := by
    intro ref member
    obtain ⟨among, named⟩ := List.mem_filter.mp member
    replace named : ref.order = order.id := by simpa using named
    obtain ⟨i, other, made, failed, there, same, _, wanted⟩ := sought_of_unanswered jobs among
    cases all.unique (all.had i _ other there rfl) accepted (same.trans named)
    exact mem_placesFor.mpr ⟨named, wanted⟩
  have few := (List.subperm_of_subset ((unanswered_nodup jobs station).filter _) mine).length_le
  rwa [length_placesFor, ← List.countP_eq_length_filter] at few

-- The jobs that the station's runner sweeps up in this step.
def State.sweeps (station : String) (s : State) : Action → List JobRef
  | .runner index =>
    match s.runners[index]? with
    | some runner =>
      if runner.station = station ∧ runner.phase.unannounced = true then
        ((s.board.queues.get? station).map fun queue => queue.drain.1.map (·.slot)).getD []
      else []
    | none => []
  | _ => []

def State.swept (s : State) (station : String) (actions : List Action) : List JobRef :=
  along (State.sweeps station) s actions

theorem swept_next (run : Run s actions events t) (action : Action) :
    s.swept station (actions ++ [action]) = s.swept station actions ++ t.sweeps station action :=
  along_next (State.sweeps station) run action

-- Of the jobs that were queued for the station, those are on its queue that were not taken and not
-- swept up.
def Balance (station : String) (queued taken swept : Nat) (s : State) : Prop :=
  ∃ queue, s.board.queues.get? station = some queue ∧ queued = taken + swept + queue.size

namespace Balance

variable {queued taken swept : Nat}

theorem opened (known : station ∈ stations) (workers : Nat) :
    Balance station 0 0 0 (.opened stations workers) := by
  obtain ⟨queue, present⟩ := (Stock.opened stations workers).queue known
  obtain ⟨_, _, same⟩ := List.mem_map.mp (Table.mem_of_get? present)
  cases same
  exact ⟨.empty, present, rfl⟩

-- Nobody queues a job for the station, and none leaves its queue.
theorem still (balance : Balance station queued taken swept s)
    (same : t.board.queues.get? station = s.board.queues.get? station)
    (queues : s.posts action = []) (takes : s.starts station action = [])
    (sweeps : s.sweeps station action = []) :
    Balance station (queued + (s.posts action).countP (·.2 = station))
      (taken + (s.starts station action).length) (swept + (s.sweeps station action).length) t := by
  rw [queues, takes, sweeps, Balance, same]
  exact balance

theorem worker (balance : Balance station queued taken swept s) (stock : Stock stations s)
    (here : s.workers[i]? = some ⟨old, report⟩) (move : WorkerMove s i report old action t more) :
    Balance station (queued + (s.posts action).countP (·.2 = station))
      (taken + (s.starts station action).length) (swept + (s.sweeps station action).length) t := by
  have idle := Tallied.posts_idle here move
  have none : s.starts station action = [] ∧ s.sweeps station action = [] := by
    rcases move.own with rfl | rfl | ⟨_, rfl⟩ <;> exact ⟨rfl, rfl⟩
  obtain ⟨takes, sweeps⟩ := none
  cases move with
  | @dispatch order =>
    have known := stock.held _ (List.mem_of_getElem? here) order rfl
    obtain ⟨queue, present, before⟩ := balance
    obtain ⟨longer, found, size⟩ := dispatchFrom_size (stock.setState order.id .dispatched) known
      order.id 0 present
    refine ⟨longer, found, ?_⟩
    rw [countP_posts here, takes, sweeps, size, before]
    simp only [List.length_nil]
    omega
  | claim seeks | leave seeks | rest seeks =>
    exact balance.still rfl (idle (by rintro order rfl; cases seeks)) takes sweeps
  | _ => exact balance.still rfl (idle (by simp)) takes sweeps

theorem own (balance : Balance station queued taken swept s)
    (here : s.runners[i]? = some ⟨station, was, out, calls⟩)
    (move : RunnerMove s i station out calls was action t more) :
    Balance station queued (taken + (s.starts station action).length)
      (swept + (s.sweeps station action).length) t := by
  obtain ⟨queue, present, before⟩ := balance
  have quiet : t.board.queues.get? station = some queue → s.starts station action = [] →
      s.sweeps station action = [] →
      Balance station queued (taken + (s.starts station action).length)
        (swept + (s.sweeps station action).length) t := by
    intro found takes sweeps
    rw [takes, sweeps]
    exact ⟨queue, found, before⟩
  cases move with
  | @take _ job rest _ seeks there popped =>
    cases present.symm.trans there
    have size := JobQueue.size_pop popped
    have takes : s.starts station (.runner i) = [job.slot] := by
      simp [State.starts, here, seeks, present, popped]
    have sweeps : s.sweeps station (.runner i) = [] := by
      simp [State.sweeps, here, RunnerPhase.seeks_unannounced seeks]
    refine ⟨rest, Table.get?_insert_self .., ?_⟩
    rw [takes, sweeps, before, size]
    simp only [List.length_cons, List.length_nil]
    omega
  | breakDown there =>
    cases present.symm.trans there
    obtain ⟨all, nothing⟩ := queue.drain_perm
    have takes : s.starts station (.runner i) = [] := by
      simp [State.starts, here, RunnerPhase.seeks]
    have sweeps : s.sweeps station (.runner i) = queue.drain.1.map (·.slot) := by
      simp [State.sweeps, here, RunnerPhase.unannounced, present]
    refine ⟨_, Table.get?_insert_self .., ?_⟩
    rw [takes, sweeps, before, List.length_map, all.length_eq, JobQueue.size, JobQueue.size, nothing]
    simp only [List.length_nil]
    omega
  | breakDownQueueless absent =>
    rw [present] at absent
    cases absent
  | leave seeks nothing | rest seeks nothing =>
    refine quiet present ?_ ?_
    · simp [State.starts, here, nothing]
    · simp [State.sweeps, here, RunnerPhase.seeks_unannounced seeks]
  | make | fault | crash => exact quiet present rfl rfl
  | _ =>
    exact quiet present (by simp [State.starts, here, RunnerPhase.seeks])
      (by simp [State.sweeps, here, RunnerPhase.unannounced])

theorem runner (balance : Balance station queued taken swept s)
    (here : s.runners[i]? = some ⟨place, was, out, calls⟩)
    (move : RunnerMove s i place out calls was action t more) :
    Balance station (queued + (s.posts action).countP (·.2 = station))
      (taken + (s.starts station action).length) (swept + (s.sweeps station action).length) t := by
  have idle : s.posts action = [] := by cases move <;> rfl
  by_cases mine : place = station
  · subst mine
    rw [idle]
    exact balance.own here move
  · have others : s.starts station action = [] ∧ s.sweeps station action = [] := by
      cases move with
      | make | fault | crash => exact ⟨rfl, rfl⟩
      | _ => exact ⟨by simp [State.starts, here, mine], by simp [State.sweeps, here, mine]⟩
    exact balance.still (move.queue mine) idle others.1 others.2

theorem step (balance : Balance station queued taken swept s) (stock : Stock stations s)
    (step : Transition s action t more) :
    Balance station (queued + (s.posts action).countP (·.2 = station))
      (taken + (s.starts station action).length) (swept + (s.sweeps station action).length) t := by
  cases step with
  | worker here move => exact balance.worker stock here move
  | runner here move => exact balance.runner here move
  | client move =>
    have silent : s.posts action = [] ∧ s.starts station action = [] ∧ s.sweeps station action = [] := by
      cases move <;> exact ⟨rfl, rfl, rfl⟩
    obtain ⟨idle, takes, sweeps⟩ := silent
    cases move with
    | usePager _ move => exact balance.still (by rw [move.frame.1]) idle takes sweeps
    | _ => exact balance.still rfl idle takes sweeps
  | shutdown _ move => exact balance.still (by rw [move.frame.2.2.2.1]) rfl rfl rfl

theorem run (known : station ∈ stations) (run : Run (.opened stations workers) actions events s) :
    let first := State.opened stations workers
    Balance station ((first.posted actions).countP (·.2 = station)) (first.started station actions).length
      (first.swept station actions).length s := by
  intro first
  induction run with
  | start => exact opened known workers
  | next before ran ih =>
    rw [posted_next before, started_next before, swept_next before, List.countP_append,
      List.length_append, List.length_append]
    exact ih.step ((Stock.opened stations workers).run before) (transition_of_step ran)

end Balance

-- Each job that is not answered is awaited by the worker who has its order, and stands once at its
-- station or with the station's runner. An order has no more of them at a station than it lists the
-- product, and the backlog says for every station how many of its jobs are neither taken nor swept up.
structure Backlog (stations : List String) (first : State) (actions : List Action) (events : List Event)
    (s : State) : Prop where
  queued : ∀ (station : String) (queue : JobQueue JobRef), s.board.queues.get? station = some queue →
    ∀ job ∈ queue.jobs, job.order = job.slot.order ∧ Sought s job.slot station
  carried : ∀ runner ∈ s.runners, ∀ job ∈ runner.phase.jobs,
    job.order = job.slot.order ∧ Sought s job.slot runner.station
  once : ∀ station, (s.unanswered station).Nodup
  few : ∀ station, ∀ order ∈ placed events,
    (s.unanswered station).countP (·.order = order.id) ≤ order.products.count station
  listed : s.board.backlog.map (·.1) = stations
  size : ∀ (station : String) (size : Nat), (station, size) ∈ s.board.backlog →
    (first.posted actions).countP (·.2 = station) =
      (first.started station actions).length + (first.swept station actions).length + size

theorem Backlog.run (apart : stations.Nodup) (run : Run (.opened stations workers) actions events s) :
    Backlog stations (.opened stations workers) actions events s := by
  have steady := Steady.opened apart run
  have queues := steady.stock.queues
  have listed : s.board.backlog.map (·.1) = stations := by
    rw [← queues, Board.backlog, List.map_map]
    rfl
  refine ⟨?_, ?_, unanswered_nodup steady.jobs, ?_, listed, ?_⟩
  · intro station queue present job member
    exact ⟨steady.labelled job (.inl ⟨station, queue, present, member⟩),
      steady.jobs.queued station queue present job member⟩
  · intro runner member job has
    exact ⟨steady.labelled job (.inr ⟨runner, member, has⟩), steady.jobs.carried runner member job has⟩
  · exact fun station order accepted => unanswered_few steady.jobs (Placed.run run) accepted station
  · intro station size member
    obtain ⟨⟨place, queue⟩, there, same⟩ := List.mem_map.mp member
    cases same
    have known : station ∈ stations := queues ▸ List.mem_map_of_mem there
    obtain ⟨found, present, balance⟩ := Balance.run known run
    cases present.symm.trans (Table.get?_of_mem (queues ▸ apart) there)
    exact balance

-- The orders and the jobs of a kitchen are parted among its lists and its threads. Orders are numbered
-- as they are placed, those that nobody has claimed wait in turn and are claimed in turn, and what was
-- claimed is with exactly one worker or written down; the jobs that wait are those of orders whose
-- worker awaits them.
theorem orders_and_jobs_in_custody (apart : stations.Nodup)
    (run : Run (.opened stations workers) actions events s) :
    Custody events s ∧
    (∀ (products : List String) (woken : Option Nat) (t : State) (more : List Event),
      s.step (.order products woken) = some (t, more) →
        placed more = [⟨s.board.nextOrder, products⟩] ∧ t.board.nextOrder = s.board.nextOrder + 1 ∨
          placed more = [] ∧ (∃ error, .refused products error ∈ more) ∧ t = s) ∧
    (∀ id < s.firstWaiting,
      (∃ (i : Nat) (phase : WorkerPhase) (order : Order), s.phases[i]? = some phase ∧
          phase.open? = some order ∧ order.id = id ∧ id ∉ finalized events ∧
          ∀ (j : Nat) (other : WorkerPhase) (its : Order), s.phases[j]? = some other →
            other.open? = some its → its.id = id → j = i) ∨
        id ∈ finalized events ∧ id ∉ s.owed) ∧
    ((claims events).filter (· ∉ finalized events)).length ≤ workers ∧
    Backlog stations (.opened stations workers) actions events s := by
  have custody := Custody.run run
  have orders := (Orders.opened stations workers).run run
  have crew : s.workers.length = workers := by
    rw [run.crew.1, State.opened, List.length_replicate]
  exact ⟨custody, fun _ _ _ _ ran => number_of_order ran, fun _ claimed => custody.place orders claimed,
    crew ▸ custody.few, Backlog.run apart run⟩

-- In the rush both orders are claimed. The second is spread, and its first burger is being made when
-- the station breaks down and sweeps up the other.
def rushBreakdown : List Action :=
  rushHour ++ [.worker 1, .worker 1, .runner 0, .runner 0, .produced 0 (.broke (.failure "grease fire")),
    .runner 0]

theorem rushBreakdown_in_custody :
    let first := State.opened ["burger"] 2
    let rush := first.after rushBreakdown
    claims rush.2 = [0, 1] ∧ rush.1.owed = [0, 1] ∧ finalized rush.2 = [] ∧
    ((claims rush.2).filter (· ∉ finalized rush.2)).length ≤ 2 ∧
    first.started "burger" rushBreakdown = [⟨1, 0⟩] ∧ first.swept "burger" rushBreakdown = [⟨1, 1⟩] ∧
    rush.1.board.backlog = [("burger", 0)] ∧
    (first.posted rushBreakdown).countP (·.2 = "burger") = 1 + 1 + 0 ∧
    Sought rush.1 ⟨1, 1⟩ "burger" := by
  intro first rush
  have possible : (first.play rushBreakdown).isSome = true := by decide +kernel
  have apart : ["burger"].Nodup := by decide
  have started : first.started "burger" rushBreakdown = [⟨1, 0⟩] := by decide +kernel
  have swept : first.swept "burger" rushBreakdown = [⟨1, 1⟩] := by decide +kernel
  have none : rush.1.board.backlog = [("burger", 0)] := by decide +kernel
  have sweeping : (⟨"burger", .sweeping [⟨1, 0, ⟨1, 0⟩⟩, ⟨1, 1, ⟨1, 1⟩⟩] (.failure "grease fire"), true,
      1⟩ : Runner) ∈ rush.1.runners := by decide +kernel
  obtain ⟨custody, _, _, few, backlog⟩ := orders_and_jobs_in_custody apart (run_after possible)
  have claimed : claims rush.2 = List.range 2 := custody.claimed
  have size := backlog.size "burger" 0 (none ▸ .head _)
  rw [started, swept] at size
  refine ⟨claimed, by decide +kernel, by decide +kernel, few, started, swept, none, size, ?_⟩
  exact (backlog.carried _ sweeping ⟨1, 1, ⟨1, 1⟩⟩ (.tail _ (.head _))).2

end Kitchen.Engine
