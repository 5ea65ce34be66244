import Kitchen.Proofs.Jobs
import Kitchen.Proofs.Traces

-- Nobody sleeps while there is something for him to do and nobody about to tell him.

namespace Kitchen.Engine

variable {s t : State} {action : Action} {actions : List Action} {events : List Event}
  {call c : CallId} {id : OrderId} {i : Nat} {report : Report} {order : Order}
  {phase old : WorkerPhase} {was : RunnerPhase} {stations : List String}

-- One for a worker that was told and has not looked again.
def WorkerPhase.told : WorkerPhase → Nat
  | .asleep true => 1
  | _ => 0

def State.told (s : State) : Nat := total (s.workers.map (·.phase.told))

def State.idleQueue (s : State) (station : String) : Prop :=
  ∀ queue, s.board.queues.get? station = some queue → queue.jobs = []

structure Sleepers (s : State) : Prop where
  workers : ∀ worker ∈ s.workers, worker.phase = .asleep false →
    s.board.closed = false ∧ s.board.unassigned.length ≤ s.told ∨
    s.board.closed = true ∧ ∃ call, s.calls.get? call = some (.shutdown .wakingWorkers)
  runners : ∀ runner ∈ s.runners, runner.phase = .asleep false → s.idleQueue runner.station ∧
    (s.board.released = false ∨
      ∃ call reports, s.calls.get? call = some (.shutdown (.wakingReleased reports)))
  left : ∀ runner ∈ s.runners, runner.phase = .finished →
    s.board.released = true ∧ s.idleQueue runner.station

namespace Sleepers

theorem opened (stations : List String) (workers : Nat) : Sleepers (.opened stations workers) := by
  refine ⟨?_, ?_, ?_⟩
  · intro worker member asleep
    rw [List.eq_of_mem_replicate member] at asleep
    cases asleep
  all_goals
    intro runner member phase
    obtain ⟨station, _, rfl⟩ := List.mem_map.mp member
    cases phase

theorem alarm (calls : Closing.Same s t) (there : ∃ call, s.calls.get? call = some (.shutdown stage)) :
    ∃ call, t.calls.get? call = some (.shutdown stage) := by
  obtain ⟨call, here⟩ := there
  exact ⟨call, (calls call stage).mpr here⟩

-- Steps that wake nobody and give no worker or runner more to do.
theorem mono (sleepers : Sleepers s) (calls : Closing.Same s t)
    (closed : t.board.closed = s.board.closed) (released : t.board.released = s.board.released)
    (workers : ∀ worker ∈ t.workers, worker.phase = .asleep false →
      (∃ other ∈ s.workers, other.phase = .asleep false) ∧
        (s.board.unassigned.length ≤ s.told → t.board.unassigned.length ≤ t.told) ∨
      t.board.closed = false ∧ t.board.unassigned.length ≤ t.told)
    (runners : ∀ runner ∈ t.runners, runner.phase = .asleep false → t.idleQueue runner.station ∧
      (t.board.released = false ∨ ∃ other ∈ s.runners, other.phase = .asleep false))
    (left : ∀ runner ∈ t.runners, runner.phase = .finished →
      t.board.released = true ∧ t.idleQueue runner.station) : Sleepers t := by
  refine ⟨?_, ?_, left⟩
  · intro worker member asleep
    rcases workers worker member asleep with ⟨⟨other, was, slept⟩, fewer⟩ | now
    · rcases sleepers.workers other was slept with ⟨unclosed, enough⟩ | ⟨shut, there⟩
      · exact .inl ⟨closed.trans unclosed, fewer enough⟩
      · exact .inr ⟨closed.trans shut, alarm calls there⟩
    · exact .inl now
  · intro runner member asleep
    obtain ⟨idle, none | ⟨other, was, slept⟩⟩ := runners runner member asleep
    · exact ⟨idle, .inl none⟩
    · refine ⟨idle, ?_⟩
      rcases (sleepers.runners other was slept).2 with none | ⟨call, reports, there⟩
      · exact .inl (released.trans none)
      · exact .inr ⟨call, reports, (calls call _).mpr there⟩

-- The same where nothing happens to the runners and to what they wait for.
theorem crew (sleepers : Sleepers s) (calls : Closing.Same s t)
    (closed : t.board.closed = s.board.closed) (released : t.board.released = s.board.released)
    (queues : t.board.queues = s.board.queues) (runners : t.runners = s.runners)
    (workers : ∀ worker ∈ t.workers, worker.phase = .asleep false →
      (∃ other ∈ s.workers, other.phase = .asleep false) ∧
        (s.board.unassigned.length ≤ s.told → t.board.unassigned.length ≤ t.told) ∨
      t.board.closed = false ∧ t.board.unassigned.length ≤ t.told) : Sleepers t := by
  have idle : ∀ station, s.idleQueue station → t.idleQueue station := by
    intro station idle
    rw [State.idleQueue, queues]
    exact idle
  refine sleepers.mono calls closed released workers ?_ ?_
  · intro runner member asleep
    rw [runners] at member
    exact ⟨idle _ (sleepers.runners runner member asleep).1, .inr ⟨runner, member, asleep⟩⟩
  · intro runner member finished
    rw [runners] at member
    obtain ⟨free, empty⟩ := sleepers.left runner member finished
    exact ⟨released.trans free, idle _ empty⟩

theorem told_set (here : s.workers[i]? = some ⟨old, report⟩)
    (workers : t.workers = s.workers.set i now) :
    t.told + old.told = s.told + now.phase.told := by
  have moved := total_set (f := fun worker : Worker => worker.phase.told) here now
  rw [State.told, State.told, workers]
  exact moved

theorem told_map (f : Worker → Worker) (workers : t.workers = s.workers.map f)
    (same : ∀ worker, (f worker).phase.told = worker.phase.told) : t.told = s.told := by
  rw [State.told, State.told, workers, List.map_map]
  congr 1
  exact List.map_congr_left fun worker _ => same worker

-- A runner that still sleeps after jobs were spread got none of them.
theorem dispatchFrom_sleeping (s : State) (id : OrderId) (position : Nat) (products : List String) :
    ∀ runner ∈ (s.dispatchFrom id position products).1.runners, runner.phase = .asleep false →
      runner ∈ s.runners ∧
      (s.dispatchFrom id position products).1.board.queues.get? runner.station =
        s.board.queues.get? runner.station := by
  induction products generalizing s position with
  | nil => exact fun runner member _ => ⟨member, rfl⟩
  | cons product rest ih =>
    intro runner member asleep
    obtain ⟨middle, queue⟩ := ih (s.dispatchJob id position product).1 (position + 1) runner member asleep
    have first : runner ∈ s.runners ∧
        (s.dispatchJob id position product).1.board.queues.get? runner.station =
          s.board.queues.get? runner.station := by
      unfold State.dispatchJob at middle ⊢
      split at middle
      next =>
        obtain ⟨before, was, same⟩ := List.mem_map.mp middle
        split at same
        next =>
          subst same
          obtain ⟨station, phase, out, calls⟩ := before
          cases phase <;> cases asleep
        next other =>
          subst same
          exact ⟨was, Table.get?_insert_of_ne _ _ (Ne.symm other)⟩
      next => exact ⟨middle, rfl⟩
    exact ⟨first.1, queue.trans first.2⟩

theorem told_same (here : s.workers[i]? = some ⟨old, report⟩)
    (workers : t.workers = s.workers.set i now) (same : now.phase.told = old.told) :
    t.told = s.told := by
  have moved := told_set here workers
  omega

theorem told_woken (sleeper : s.workers[i]? = some ⟨.asleep false, report⟩)
    (workers : t.workers = s.workers.set i ⟨.asleep true, report⟩) : t.told = s.told + 1 :=
  told_set sleeper workers

theorem told_le (phase : WorkerPhase) : phase.told ≤ 1 := by
  cases phase with
  | asleep notified => cases notified <;> simp [WorkerPhase.told]
  | _ => exact Nat.zero_le _

theorem move (sleepers : Sleepers s) (workers : t.workers = s.workers.set i now) (calls : t.calls = s.calls)
    (board : t.board.closed = s.board.closed ∧ t.board.released = s.board.released ∧
      t.board.queues = s.board.queues ∧ t.runners = s.runners)
    (enough : s.board.unassigned.length ≤ s.told → t.board.unassigned.length ≤ t.told)
    (sleeps : now.phase = .asleep false →
      t.board.closed = false ∧ t.board.unassigned.length ≤ t.told) : Sleepers t := by
  obtain ⟨closed, released, queues, runners⟩ := board
  refine sleepers.crew (fun _ _ => by rw [calls]) closed released queues runners ?_
  intro worker member asleep
  rw [workers] at member
  rcases List.mem_or_eq_of_mem_set member with was | new
  · exact .inl ⟨⟨worker, was, asleep⟩, enough⟩
  · subst new
    exact .inr (sleeps asleep)

theorem claim (sleepers : Sleepers s) (here : s.workers[i]? = some ⟨old, report⟩)
    (first : s.board.unassigned = order :: t.board.unassigned)
    (workers : t.workers = s.workers.set i ⟨.claimed order, report⟩) (calls : t.calls = s.calls)
    (board : t.board.closed = s.board.closed ∧ t.board.released = s.board.released ∧
      t.board.queues = s.board.queues ∧ t.runners = s.runners) : Sleepers t := by
  refine sleepers.move workers calls board ?_ (by simp)
  intro enough
  have moved : t.told + old.told = s.told + 0 := told_set here workers
  have one := told_le old
  rw [first, List.length_cons] at enough
  omega

theorem stay (sleepers : Sleepers s) (here : s.workers[i]? = some ⟨old, report⟩)
    (workers : t.workers = s.workers.set i now) (calls : t.calls = s.calls)
    (board : t.board.closed = s.board.closed ∧ t.board.released = s.board.released ∧
      t.board.queues = s.board.queues ∧ t.runners = s.runners)
    (unassigned : t.board.unassigned = s.board.unassigned) (told : now.phase.told = old.told)
    (awake : now.phase ≠ .asleep false) : Sleepers t := by
  refine sleepers.move workers calls board ?_ (fun asleep => absurd asleep awake)
  rw [unassigned, told_same here workers told]
  exact id

theorem dispatch (sleepers : Sleepers s) (closing : Closing s)
    (here : s.workers[i]? = some ⟨.claimed order, report⟩) :
    Sleepers ((s.spread order).1.setWorker i ⟨.awaiting order [] 0, report⟩) := by
  obtain ⟨_, calls, _, closed, released, _⟩ := spread_unmanned s order
  have quiet := dispatchFrom_sleeping (s.withBoard (·.setState order.id .dispatched)) order.id 0
    order.products
  -- While an order is being spread no runner has left.
  have unreleased : s.board.released = false := by
    cases free : s.board.released with
    | false => rfl
    | true => cases closing.deserted free _ (List.mem_of_getElem? here)
  have told : ((s.spread order).1.setWorker i ⟨.awaiting order [] 0, report⟩).told = s.told :=
    told_same here (spread_setWorker ..) rfl
  refine sleepers.mono (fun _ _ => by rw [← calls]; rfl) closed released ?_ ?_ ?_
  · intro worker member asleep
    rw [spread_setWorker] at member
    rcases List.mem_or_eq_of_mem_set member with was | new
    · refine .inl ⟨⟨worker, was, asleep⟩, ?_⟩
      rw [told]
      exact fun enough => (spread_unassigned s order).symm ▸ enough
    · subst new
      cases asleep
  · intro runner member asleep
    obtain ⟨was, same⟩ := quiet runner member asleep
    refine ⟨?_, .inl (released.trans unreleased)⟩
    intro queue found
    exact (sleepers.runners runner was asleep).1 queue (same.symm.trans found)
  · intro runner member finished
    obtain ⟨woken, runners⟩ := spread_runners s order
    change runner ∈ (s.spread order).1.runners at member
    rw [runners] at member
    obtain ⟨before, was, rfl⟩ := List.mem_map.mp member
    have left : before.phase = .finished := by
      split at finished
      · obtain ⟨station, phase, out, calls⟩ := before
        cases phase <;> first | rfl | cases finished
      · exact finished
    rw [(sleepers.left before was left).1] at unreleased
    cases unreleased

theorem worker (sleepers : Sleepers s) (closing : Closing s)
    (here : s.workers[i]? = some ⟨old, report⟩)
    (move : WorkerMove s i report old action t events) : Sleepers t := by
  cases move with
  | claim _ first => exact sleepers.claim here first rfl rfl ⟨rfl, rfl, rfl, rfl⟩
  | leave _ nothing =>
    refine sleepers.move rfl rfl ⟨rfl, rfl, rfl, rfl⟩ ?_ (by simp)
    intro _
    simp [State.setWorker, nothing]
  | rest _ nothing unclosed =>
    refine sleepers.move rfl rfl ⟨rfl, rfl, rfl, rfl⟩ ?_ ?_
    · intro _
      simp [State.setWorker, nothing]
    · intro _
      exact ⟨unclosed, by simp [State.setWorker, nothing]⟩
  | dispatch => exact sleepers.dispatch closing here
  | _ => exact sleepers.stay here rfl rfl ⟨rfl, rfl, rfl, rfl⟩ rfl rfl (by simp)

theorem idle_runner {calls : Nat} (move : RunnerMove s i station out calls was action t events)
    (idle : s.idleQueue other) : t.idleQueue other := by
  have shrink : ∀ (queue rest : JobQueue JobRef), s.board.queues.get? station = some queue →
      (queue.jobs = [] → rest.jobs = []) → (s.setQueue station rest).idleQueue other := by
    intro queue rest present fewer found there
    change (s.board.queues.insert station rest).get? other = some found at there
    rw [Table.get?_insert] at there
    split at there
    next same =>
      subst same
      cases there
      exact fewer (idle queue present)
    next => exact idle found there
  cases move with
  | take _ present popped =>
    refine shrink _ _ present ?_
    intro empty
    have perm := JobQueue.pop_perm popped
    rw [empty] at perm
    cases perm.nil_eq
  | @breakDown queue _ _ present =>
    exact shrink queue queue.drain.2 present fun _ => queue.drain_perm.2
  | _ => exact idle

theorem runner {calls : Nat} (sleepers : Sleepers s)
    (move : RunnerMove s i station out calls was action t events) : Sleepers t := by
  obtain ⟨_, same, _, closed, released, _⟩ := move.unmanned
  obtain ⟨workers, unassigned, _⟩ := move.workers
  have told : t.told = s.told := by rw [State.told, State.told, workers]
  have idle : ∀ other, s.idleQueue other → t.idleQueue other := fun _ => idle_runner move
  have runners : ∀ now, t.runners = s.runners.set i now →
      (now.phase = .asleep false → s.idleQueue now.station ∧ s.board.released = false) →
      (now.phase = .finished → s.board.released = true ∧ s.idleQueue now.station) →
      Sleepers t := by
    intro now runners sleeps leaves
    refine sleepers.mono (fun _ _ => by rw [same]) closed released ?_ ?_ ?_
    · intro worker member asleep
      rw [workers] at member
      refine .inl ⟨⟨worker, member, asleep⟩, ?_⟩
      rw [told, unassigned]
      exact id
    · intro other member asleep
      rw [runners] at member
      rcases List.mem_or_eq_of_mem_set member with was | new
      · exact ⟨idle _ (sleepers.runners other was asleep).1, .inr ⟨other, was, asleep⟩⟩
      · subst new
        obtain ⟨empty, unreleased⟩ := sleeps asleep
        exact ⟨idle _ empty, .inl (released.trans unreleased)⟩
    · intro other member finished
      rw [runners] at member
      rcases List.mem_or_eq_of_mem_set member with was | new
      · obtain ⟨free, empty⟩ := sleepers.left other was finished
        exact ⟨released.trans free, idle _ empty⟩
      · subst new
        obtain ⟨free, empty⟩ := leaves finished
        exact ⟨released.trans free, idle _ empty⟩
  have empty : (s.board.queues.get? station).bind JobQueue.pop? = none → s.idleQueue station := by
    intro nothing queue found
    rw [found] at nothing
    exact JobQueue.pop_none nothing
  cases move with
  | leave _ nothing free => exact runners _ rfl (by simp) fun _ => ⟨free, empty nothing⟩
  | rest _ nothing unreleased => exact runners _ rfl (fun _ => ⟨empty nothing, unreleased⟩) (by simp)
  | _ => exact runners _ rfl (by simp) (by simp)

-- A client's step that tells no sleeping worker.
theorem around (sleepers : Sleepers s) (calls : Closing.Same s t)
    (closed : t.board.closed = s.board.closed) (released : t.board.released = s.board.released)
    (queues : t.board.queues = s.board.queues) (runners : t.runners = s.runners)
    (unassigned : t.board.unassigned = s.board.unassigned) (f : Worker → Worker)
    (workers : t.workers = s.workers.map f)
    (told : ∀ worker, (f worker).phase.told = worker.phase.told)
    (slept : ∀ worker, (f worker).phase = .asleep false → worker.phase = .asleep false) :
    Sleepers t := by
  refine sleepers.crew calls closed released queues runners ?_
  intro worker member asleep
  rw [workers] at member
  obtain ⟨before, was, rfl⟩ := List.mem_map.mp member
  refine .inl ⟨⟨before, was, slept before asleep⟩, ?_⟩
  rw [told_map f workers told, unassigned]
  exact id

theorem client (sleepers : Sleepers s) (move : ClientMove s action t events)
    (no : ∀ call, action = .shutdown call → s.running = false) : Sleepers t := by
  have same := Closing.same_client move no
  cases move with
  | place _ _ awake =>
    refine sleepers.mono same rfl rfl ?_ ?_ sleepers.left
    · intro worker member asleep
      have watched := List.any_eq_false.mp awake worker member
      simp [State.isAsleep, asleep] at watched
    · intro runner member asleep
      exact ⟨(sleepers.runners runner member asleep).1, .inr ⟨runner, member, asleep⟩⟩
  | @placeWaking products i report unclosed _ sleeper =>
    refine sleepers.mono same rfl rfl ?_ ?_ sleepers.left
    · intro worker member asleep
      rcases List.mem_or_eq_of_mem_set member with was | new
      · refine .inl ⟨⟨worker, was, asleep⟩, ?_⟩
        intro enough
        rw [told_woken (s := s) sleeper rfl]
        simp only [State.setWorker, State.accept, List.length_append, List.length_singleton]
        omega
      · subst new
        cases asleep
    · intro runner member asleep
      exact ⟨(sleepers.runners runner member asleep).1, .inr ⟨runner, member, asleep⟩⟩
  | @collectReady _ id =>
    refine sleepers.around same rfl rfl rfl rfl rfl (State.wakePickup id) rfl ?_ ?_
    · intro worker
      rw [State.wakePickup_phase]
      cases worker.phase <;> rfl
    · intro worker asleep
      rw [State.wakePickup_phase] at asleep
      cases phase : worker.phase <;> rw [phase] at asleep <;> first | exact asleep | cases asleep
  | usePager _ move =>
    obtain ⟨board, workers, runners, _⟩ := move.frame
    exact sleepers.around same (by rw [board]) (by rw [board]) (by rw [board]) runners
      (by rw [board]) id (by rw [workers, List.map_id]) (fun _ => rfl) (fun _ => id)
  | shutdown _ running =>
    rw [no _ rfl] at running
    cases running
  | _ =>
    exact sleepers.around same rfl rfl rfl rfl rfl id (List.map_id _).symm (fun _ => rfl)
      (fun _ => id)

-- Past the point where the workers are woken none of them sleeps untold.
theorem nobody (sleepers : Sleepers s) (closing : Closing s)
    (here : s.calls.get? call = some (.shutdown stage)) (shut : stage.closed = true)
    (past : stage ≠ .wakingWorkers) : ∀ worker ∈ s.workers, worker.phase ≠ .asleep false := by
  intro worker member asleep
  have fits := closing.during call stage here
  rcases sleepers.workers worker member asleep with ⟨unclosed, _⟩ | ⟨_, other, there⟩
  · rw [fits.closed, shut] at unclosed
    cases unclosed
  · obtain rfl := closing.single call other _ _ here there
    rw [here] at there
    cases there
    exact past rfl

-- Past the point where the released runners are woken none of them sleeps untold.
theorem no_runner (sleepers : Sleepers s) (closing : Closing s)
    (here : s.calls.get? call = some (.shutdown stage)) (free : stage.released = true)
    (past : ∀ reports, stage ≠ .wakingReleased reports) :
    ∀ runner ∈ s.runners, runner.phase ≠ .asleep false := by
  intro runner member asleep
  have fits := closing.during call stage here
  rcases (sleepers.runners runner member asleep).2 with unreleased | ⟨other, reports, there⟩
  · rw [fits.released, free] at unreleased
    cases unreleased
  · obtain rfl := closing.single call other _ _ here there
    rw [here] at there
    cases there
    exact past reports rfl

theorem wakeRunner_asleep (runner : Runner) :
    (State.wakeRunner runner).phase ≠ .asleep false := by
  obtain ⟨station, phase, out, calls⟩ := runner
  cases phase <;> simp [State.wakeRunner]

theorem wakeRunner_finished {runner : Runner}
    (finished : (State.wakeRunner runner).phase = .finished) : runner.phase = .finished := by
  obtain ⟨station, phase, out, calls⟩ := runner
  cases phase <;> first | rfl | cases finished

theorem shutdown (sleepers : Sleepers s) (closing : Closing s)
    (here : s.calls.get? call = some (.shutdown stage))
    (move : ShutdownMove s call stage t events) : Sleepers t := by
  have fits := closing.during call stage here
  have nobody := sleepers.nobody closing here
  have no_runner := sleepers.no_runner closing here
  have unreleased : stage.released = false → ∀ runner ∈ s.runners, runner.phase = .asleep false →
      s.idleQueue runner.station ∧ s.board.released = false := by
    intro yet runner member asleep
    exact ⟨(sleepers.runners runner member asleep).1, fits.released.trans yet⟩
  have kept : ∀ runner ∈ (s.runners.map State.wakeRunner), runner.phase = .finished →
      s.board.released = true ∧ s.idleQueue runner.station := by
    intro runner member finished
    obtain ⟨before, was, rfl⟩ := List.mem_map.mp member
    rw [wakeRunner_station]
    exact sleepers.left before was (wakeRunner_finished finished)
  cases move with
  | close =>
    refine ⟨?_, ?_, sleepers.left⟩
    · intro worker _ _
      exact .inr ⟨rfl, call, Table.get?_insert_self ..⟩
    · intro runner member asleep
      obtain ⟨idle, yet⟩ := unreleased rfl runner member asleep
      exact ⟨idle, .inl yet⟩
  | wakeWorkers =>
    refine ⟨?_, ?_, sleepers.left⟩
    · intro worker member asleep
      obtain ⟨before, was, rfl⟩ := List.mem_map.mp member
      rw [State.wakeWorker_phase] at asleep
      cases phase : before.phase <;> rw [phase] at asleep <;> cases asleep
    · intro runner member asleep
      obtain ⟨idle, yet⟩ := unreleased rfl runner member asleep
      exact ⟨idle, .inl yet⟩
  | wakeStations | wakeReleased =>
    refine ⟨fun worker member asleep => absurd asleep (nobody rfl (by simp) worker member), ?_, kept⟩
    intro runner member asleep
    obtain ⟨before, _, rfl⟩ := List.mem_map.mp member
    exact absurd asleep (wakeRunner_asleep before)
  | join | joinDead | joined =>
    refine ⟨fun worker member asleep => absurd asleep (nobody rfl (by simp) worker member), ?_,
      sleepers.left⟩
    intro runner member asleep
    obtain ⟨idle, yet⟩ := unreleased rfl runner member asleep
    exact ⟨idle, .inl yet⟩
  | release =>
    refine ⟨fun worker member asleep => absurd asleep (nobody rfl (by simp) worker member), ?_, ?_⟩
    · intro runner member asleep
      exact ⟨(sleepers.runners runner member asleep).1, .inr ⟨call, _, Table.get?_insert_self ..⟩⟩
    · intro runner member finished
      exact ⟨rfl, (sleepers.left runner member finished).2⟩
  | joinRunner | runnersJoined | stop | finish =>
    exact ⟨fun worker member asleep => absurd asleep (nobody rfl (by simp) worker member),
      fun runner member asleep => absurd asleep (no_runner rfl (by simp) runner member), sleepers.left⟩

theorem step (sleepers : Sleepers s) (closing : Closing s) (step : Transition s action t events) :
    Sleepers t := by
  cases step with
  | worker here move => exact sleepers.worker closing here move
  | runner _ move => exact sleepers.runner move
  | shutdown here move => exact sleepers.shutdown closing here move
  | client move =>
    by_cases no : ∀ call, action = .shutdown call → s.running = false
    · exact sleepers.client move no
    · cases move with
      | @shutdown call unused running =>
        obtain ⟨unclosed, unreleased, _⟩ := closing.before running
        refine ⟨?_, ?_, sleepers.left⟩
        · intro worker member asleep
          rcases sleepers.workers worker member asleep with waiting | ⟨shut, _⟩
          · exact .inl waiting
          · rw [unclosed] at shut
            cases shut
        · intro runner member asleep
          exact ⟨(sleepers.runners runner member asleep).1, .inl unreleased⟩
      | shutdownAgain _ taken => exact absurd (fun _ _ => taken) no
      | _ => exact absurd (by simp) no

theorem run (sleepers : Sleepers s) (closing : Closing s) (run : Run s actions events t) :
    Sleepers t := by
  induction run with
  | start => exact sleepers
  | next before ran ih => exact ih.step (closing.run before) (transition_of_step ran)

end Sleepers

theorem State.told_eq_countP (s : State) :
    s.told = s.workers.countP fun worker => worker.phase = .asleep true := by
  rw [State.told]
  induction s.workers with
  | nil => rfl
  | cons worker rest ih =>
    have one : worker.phase.told = if worker.phase = .asleep true then 1 else 0 := by
      cases worker.phase with
      | asleep told => cases told <;> rfl
      | _ => rfl
    rw [List.map_cons, total, ih, one, List.countP_cons, Nat.add_comm]
    simp

-- A worker that sleeps for want of an order, a runner that sleeps for want of a job and a worker
-- that sleeps until its client comes: none of them has been forgotten. A worker woken for an order
-- may find it gone, taken by one that was just free, so the orders are counted against all who were
-- told and have not looked.
theorem no_wakeup_lost (run : Run (.opened stations workers) actions events s) :
    (∀ worker ∈ s.workers, worker.phase = .asleep false →
      s.board.closed = true ∧ (∃ call, s.calls.get? call = some (.shutdown .wakingWorkers)) ∨
      s.board.closed = false ∧ s.board.unassigned.length ≤
        s.workers.countP fun other => other.phase = .asleep true) ∧
    (∀ runner ∈ s.runners, runner.phase = .asleep false →
      (∃ queue, s.board.queues.get? runner.station = some queue ∧ queue.jobs = []) ∧
      (s.board.released = false ∨
        ∃ call reports, s.calls.get? call = some (.shutdown (.wakingReleased reports)))) ∧
    (∀ worker ∈ s.workers, ∀ order made, worker.phase = .holding order made false →
      s.board.orderState order.id = some .ready) := by
  have sleepers := (Sleepers.opened stations workers).run (Closing.opened stations workers) run
  have orders := (Orders.opened stations workers).run run
  have stock := (Stock.opened stations workers).run run
  refine ⟨?_, ?_, ?_⟩
  · intro worker member asleep
    rw [← s.told_eq_countP]
    exact (sleepers.workers worker member asleep).symm
  · intro runner member asleep
    obtain ⟨idle, free⟩ := sleepers.runners runner member asleep
    have known : runner.station ∈ stations := stock.staff ▸ List.mem_map_of_mem member
    obtain ⟨queue, present⟩ := stock.queue known
    exact ⟨⟨queue, present, idle queue present⟩, free⟩
  · intro worker member order made holds
    obtain ⟨i, here⟩ := List.getElem?_of_mem member
    have fits := orders.had i worker.phase order (State.phases_of here) (by rw [holds]; rfl)
    rw [holds] at fits
    obtain ⟨slotted, _⟩ := fits
    change s.board.slots.get? order.id = _ at slotted
    rw [Board.orderState, slotted]
    rfl

-- Two workers and the runner sleep, and an order wakes the first: the second sleeps on untold, and
-- so does the runner.
def sleepyDay : List Action :=
  [.worker 0, .worker 1, .runner 0, .worker 0, .worker 1, .runner 0, .order ["burger"] (some 0)]

theorem sleepyDay_told :
    ((State.opened ["burger"] 2).after sleepyDay).1.board.unassigned.length ≤
        ((State.opened ["burger"] 2).after sleepyDay).1.workers.countP
          (fun other => other.phase = .asleep true) ∧
      ((State.opened ["burger"] 2).after sleepyDay).1.board.unassigned = [⟨0, ["burger"]⟩] := by
  have possible : ((State.opened ["burger"] 2).play sleepyDay).isSome = true := by decide +kernel
  have sleeps : ⟨.asleep false, .empty⟩ ∈ ((State.opened ["burger"] 2).after sleepyDay).1.workers := by
    decide +kernel
  have unclosed : ((State.opened ["burger"] 2).after sleepyDay).1.board.closed = false := by
    decide +kernel
  obtain ⟨crew, _, _⟩ := no_wakeup_lost (run_after possible)
  refine ⟨?_, by decide +kernel⟩
  rcases crew _ sleeps rfl with ⟨closed, _⟩ | ⟨_, enough⟩
  · rw [unclosed] at closed
    cases closed
  · exact enough

end Kitchen.Engine
