import Kitchen.Proofs.Serving
import Mathlib.Data.List.Nodup

namespace Kitchen.Engine

variable {s t : State} {action : Action} {actions : List Action} {events more : List Event}
  {call c : CallId} {id : OrderId} {i j : Nat} {report : Report} {order : Order} {made : Tray}
  {failed : Nat} {product : String} {was : RunnerPhase} {stations : List String} {workers : Nat}
  {stage : ShutdownPhase} {ref : JobRef}

-- The station broke down, and is still on the menu with its queue.
def RunnerPhase.unannounced : RunnerPhase → Bool
  | .failing _ _ => true
  | _ => false

theorem RunnerPhase.seeks_unannounced (seeks : was.seeks = true) : was.unannounced = false := by
  cases was <;> first | rfl | cases seeks

-- The station broke down, and it is still on the menu or not all of its jobs are answered.
def RunnerPhase.breaking : RunnerPhase → Bool
  | .failing _ _ | .sweeping _ _ => true
  | _ => false

def RunnerPhase.broken? : RunnerPhase → Option Bool
  | .producing _ | .holding _ _ => some false
  | .failing _ _ | .sweeping _ _ => some true
  | _ => none

structure Service (s : State) : Prop where
  menu : s.board.closed = false → ∀ runner ∈ s.runners,
    (runner.station ∈ s.board.menu ↔
      runner.outOfService = false ∨ runner.phase.unannounced = true)
  closed : s.board.closed = true → s.board.menu = []
  fits : ∀ runner ∈ s.runners, ∀ out, runner.phase.broken? = some out → runner.outOfService = out

namespace Service

theorem opened (stations : List String) (workers : Nat) : Service (.opened stations workers) := by
  refine ⟨?_, by simp [State.opened], ?_⟩
  · intro _ runner member
    obtain ⟨station, known, rfl⟩ := List.mem_map.mp member
    exact ⟨fun _ => .inl rfl, fun _ => known⟩
  · intro runner member out tells
    obtain ⟨station, _, rfl⟩ := List.mem_map.mp member
    cases tells

theorem map (service : Service s) (f : Runner → Runner) (runners : t.runners = s.runners.map f)
    (same : ∀ runner, (f runner).station = runner.station ∧
      (f runner).outOfService = runner.outOfService ∧
      (f runner).phase.unannounced = runner.phase.unannounced ∧
      (f runner).phase.broken? = runner.phase.broken?)
    (menu : t.board.menu = s.board.menu) (closed : t.board.closed = s.board.closed) :
    Service t := by
  refine ⟨?_, ?_, ?_⟩
  · intro unclosed runner member
    rw [runners] at member
    obtain ⟨before, among, rfl⟩ := List.mem_map.mp member
    obtain ⟨station, out, unannounced, _⟩ := same before
    rw [menu, station, out, unannounced]
    exact service.menu (closed.symm.trans unclosed) before among
  · intro shut
    rw [menu]
    exact service.closed (closed.symm.trans shut)
  · intro runner member out tells
    rw [runners] at member
    obtain ⟨before, among, rfl⟩ := List.mem_map.mp member
    obtain ⟨_, equal, _, phase⟩ := same before
    rw [equal]
    exact service.fits before among out (phase.symm.trans tells)

theorem same (service : Service s) (runners : t.runners = s.runners)
    (menu : t.board.menu = s.board.menu) (closed : t.board.closed = s.board.closed) : Service t :=
  service.map id (by rw [runners, List.map_id]) (fun _ => ⟨rfl, rfl, rfl, rfl⟩) menu closed

theorem wakeRunner_same (runner : Runner) : (State.wakeRunner runner).station = runner.station ∧
    (State.wakeRunner runner).outOfService = runner.outOfService ∧
    (State.wakeRunner runner).phase.unannounced = runner.phase.unannounced ∧
    (State.wakeRunner runner).phase.broken? = runner.phase.broken? := by
  obtain ⟨station, phase, out, calls⟩ := runner
  cases phase <;> exact ⟨rfl, rfl, rfl, rfl⟩

-- A runner's step takes no other station off the menu.
theorem set (service : Service s) (stock : Stock stations s) (apart : stations.Nodup)
    {runner now : Runner} (here : s.runners[i]? = some runner)
    (runners : t.runners = s.runners.set i now) (closed : t.board.closed = s.board.closed)
    (menu : ∀ station, station ∈ t.board.menu → station ∈ s.board.menu)
    (others : ∀ station, station ≠ runner.station → station ∈ s.board.menu → station ∈ t.board.menu)
    (mine : s.board.closed = false → (now.station ∈ t.board.menu ↔
      now.outOfService = false ∨ now.phase.unannounced = true))
    (fits : ∀ out, now.phase.broken? = some out → now.outOfService = out) : Service t := by
  refine ⟨?_, ?_, ?_⟩
  · intro unclosed other member
    rw [closed] at unclosed
    obtain ⟨k, there⟩ := List.getElem?_of_mem member
    rcases getElem?_set_cases (runners ▸ there) with ⟨_, rfl⟩ | ⟨differ, before⟩
    · exact mine unclosed
    · rw [← service.menu unclosed other (List.mem_of_getElem? before)]
      refine ⟨menu _, others _ ?_⟩
      exact fun same => differ (stock.runner_inj apart before here same)
  · intro shut
    have none := service.closed (closed.symm.trans shut)
    refine List.eq_nil_iff_forall_not_mem.mpr fun station listed => ?_
    have before := menu station listed
    rw [none] at before
    cases before
  · intro other member out tells
    rw [runners] at member
    rcases List.mem_or_eq_of_mem_set member with old | rfl
    · exact service.fits other old out tells
    · exact fits out tells

theorem runner {calls : Nat} (service : Service s) (stock : Stock stations s)
    (apart : stations.Nodup) (here : s.runners[i]? = some ⟨station, was, out, calls⟩)
    (move : RunnerMove s i station out calls was action t events) : Service t := by
  have member := List.mem_of_getElem? here
  have listed := fun unclosed => service.menu unclosed _ member
  have told := service.fits _ member
  have stay : ∀ now : Runner, t.runners = s.runners.set i now → t.board.menu = s.board.menu →
      t.board.closed = s.board.closed → now.station = station →
      (now.outOfService = false ∨ now.phase.unannounced = true ↔
        out = false ∨ was.unannounced = true) →
      (∀ out, now.phase.broken? = some out → now.outOfService = out) → Service t := by
    intro now runners menu closed place alike fits
    refine service.set stock apart here runners closed ?_ ?_ ?_ fits
    · exact fun _ listed => menu ▸ listed
    · exact fun _ _ listed => menu.symm ▸ listed
    · intro unclosed
      rw [menu, place, alike]
      exact listed unclosed
  -- The station leaves the menu, and the runner knows already that it is out of service.
  have leave : ∀ (job : Job JobRef) (error : StationError) (jobs : List (Job JobRef)),
      was = .failing job error →
      t.runners = s.runners.set i ⟨station, .sweeping jobs error, out, calls⟩ →
      t.board.menu = (s.board.removeFromMenu station).menu →
      t.board.closed = s.board.closed → Service t := by
    intro job error jobs failing runners menu closed
    have broken : out = true := told true (by rw [failing]; rfl)
    refine service.set stock apart here runners closed ?_ ?_ ?_ ?_
    · intro other listed
      rw [menu] at listed
      exact (List.mem_filter.mp listed).1
    · intro other differ listed
      rw [menu]
      exact List.mem_filter.mpr ⟨listed, by simpa using differ⟩
    · intro _
      rw [menu]
      simp [Board.removeFromMenu, broken, RunnerPhase.unannounced]
    · rintro _ ⟨⟩
      exact broken
  cases move with
  | take seeks | leave seeks | rest seeks =>
    refine stay _ rfl rfl rfl rfl ?_ (by simp [RunnerPhase.broken?])
    rw [RunnerPhase.seeks_unannounced seeks]
    rfl
  | ask sound =>
    refine stay _ rfl rfl rfl rfl Iff.rfl ?_
    rintro _ ⟨⟩
    exact sound
  | make =>
    refine stay _ rfl rfl rfl rfl Iff.rfl ?_
    rintro _ ⟨⟩
    exact told false rfl
  | fault =>
    have sound : out = false := told false rfl
    refine stay _ rfl rfl rfl rfl ?_ ?_
    · simp [RunnerPhase.unannounced, sound]
    · rintro _ ⟨⟩
      rfl
  | sweep =>
    refine stay _ rfl rfl rfl rfl Iff.rfl ?_
    rintro _ ⟨⟩
    exact told true rfl
  | breakDown => exact leave _ _ _ rfl rfl rfl rfl
  | breakDownQueueless => exact leave _ _ _ rfl rfl rfl rfl
  | start | refuse | handOver | swept | crash => exact stay _ rfl rfl rfl rfl Iff.rfl (by simp [RunnerPhase.broken?])

theorem step (service : Service s) (stock : Stock stations s) (apart : stations.Nodup)
    (step : Transition s action t events) : Service t := by
  cases step with
  | worker _ move =>
    cases move with
    | @dispatch order =>
      obtain ⟨queues, jobs, _, spread⟩ := s.spread_frame order
      obtain ⟨woken, runners⟩ := spread_runners s order
      refine service.map _ runners ?_ ?_ ?_
      · intro runner
        split
        · exact wakeRunner_same runner
        · exact ⟨rfl, rfl, rfl, rfl⟩
      all_goals
        rw [spread]
        rfl
    | _ => exact service.same rfl rfl rfl
  | runner here move => exact service.runner stock apart here move
  | client move =>
    cases move with
    | usePager _ move =>
      obtain ⟨board, _, runners, _⟩ := move.frame
      exact service.same runners (by rw [board]) (by rw [board])
    | _ => exact service.same rfl rfl rfl
  | shutdown _ move =>
    cases move with
    | close => exact ⟨by simp [State.setCall, State.withBoard], fun _ => rfl, service.fits⟩
    | wakeStations | wakeReleased => exact service.map State.wakeRunner rfl wakeRunner_same rfl rfl
    | _ => exact service.same rfl rfl rfl

theorem run (service : Service s) (stock : Stock stations s) (apart : stations.Nodup)
    (run : Run s actions events t) : Service t := by
  induction run with
  | start => exact service
  | next before ran ih => exact ih.step (stock.run before) apart (transition_of_step ran)

end Service

-- What every reachable state satisfies, whatever crashed.
structure Steady (stations : List String) (s : State) : Prop where
  stock : Stock stations s
  orders : Orders s
  jobs : Jobs s
  labelled : Labelled s
  closing : Closing s
  sleepers : Sleepers s
  service : Service s

theorem Steady.opened (apart : stations.Nodup) (run : Run (.opened stations workers) actions events s) :
    Steady stations s where
  stock := (Stock.opened stations workers).run run
  orders := (Orders.opened stations workers).run run
  jobs := (Jobs.opened stations workers).run (Stock.opened stations workers)
    (Orders.opened stations workers) run
  labelled := (Labelled.opened stations workers).run run
  closing := (Closing.opened stations workers).run run
  sleepers := (Sleepers.opened stations workers).run (Closing.opened stations workers) run
  service := (Service.opened stations workers).run (Stock.opened stations workers) apart run

theorem Steady.step (steady : Steady stations s) (apart : stations.Nodup)
    (step : Transition s action t events) : Steady stations t where
  stock := steady.stock.step step
  orders := steady.orders.step step
  jobs := steady.jobs.step steady.stock steady.orders step
  labelled := steady.labelled.step step
  closing := steady.closing.step step
  sleepers := steady.sleepers.step steady.closing step
  service := steady.service.step steady.stock apart step

namespace Steady

theorem runner_unique (steady : Steady stations s) (apart : stations.Nodup) {a b : Runner}
    (here : a ∈ s.runners) (there : b ∈ s.runners) (same : a.station = b.station) : a = b := by
  rw [← steady.stock.staff] at apart
  exact List.inj_on_of_nodup_map apart here there same

theorem serves_queued (steady : Steady stations s) (apart : stations.Nodup) {runner : Runner}
    {queue : JobQueue JobRef} {job : Job JobRef} (here : s.runners[j]? = some runner)
    (alive : runner.phase ≠ .dead) (present : s.board.queues.get? runner.station = some queue)
    (member : job ∈ queue.jobs) : Serves s j runner.station job.slot := by
  have inLine : InLine s j job _ := .queued here present member (Nat.le_refl _)
  apply inLine.serves steady.stock steady.jobs steady.orders steady.labelled steady.closing
    steady.sleepers apart here
  cases phase : runner.phase with
  | finished =>
    have idle := (steady.sleepers.left runner (List.mem_of_getElem? here) phase).2
    rw [idle queue present] at member
    cases member
  | dead => exact absurd phase alive
  | _ => rfl

theorem serves_carried (steady : Steady stations s) (apart : stations.Nodup) {runner : Runner}
    {job : Job JobRef} (here : s.runners[j]? = some runner) (has : job ∈ runner.phase.jobs) :
    Serves s j runner.station job.slot := by
  obtain ⟨p, place⟩ := List.getElem?_of_mem has
  have inLine : InLine s j job _ := .carried here place (Nat.le_refl _)
  apply inLine.serves steady.stock steady.jobs steady.orders steady.labelled steady.closing
    steady.sleepers apart here
  cases phase : runner.phase with
  | finished | dead =>
    rw [phase] at has
    cases has
  | _ => rfl

end Steady

def State.calm (s : State) : Prop := ∀ runner ∈ s.runners, runner.phase.breaking = false

-- What can be ordered can be made, and what is on a queue will be taken from it.
structure Manned (s : State) : Prop where
  menu : ∀ product ∈ s.board.menu, ∃ runner ∈ s.runners, runner.station = product ∧
    runner.outOfService = false ∧ runner.phase.ended = false
  queues : ∀ station queue, s.board.queues.get? station = some queue → ∀ job ∈ queue.jobs,
    ∃ j, Serves s j station job.slot

-- A dead runner is one too many exactly while it leaves something behind.
theorem manned_iff (steady : Steady stations s) (apart : stations.Nodup) (calm : s.calm) :
    Manned s ↔ ∀ runner ∈ s.runners, runner.phase = .dead →
      runner.station ∉ s.board.menu ∧ s.idleQueue runner.station := by
  constructor
  · intro manned runner member dead
    have alone : ∀ other ∈ s.runners, other.station = runner.station → other.phase.ended = true := by
      intro other among same
      rw [steady.runner_unique apart among member same, dead]
      rfl
    refine ⟨?_, ?_⟩
    · intro listed
      obtain ⟨other, among, same, _, on⟩ := manned.menu _ listed
      rw [alone other among same] at on
      cases on
    · intro queue present
      refine List.eq_nil_iff_forall_not_mem.mpr fun job has => ?_
      obtain ⟨_, ⟨other, there, same, on⟩, _⟩ := manned.queues _ queue present job has
      rw [alone other (List.mem_of_getElem? there) same] at on
      cases on
  · intro left
    refine ⟨?_, ?_⟩
    · intro product listed
      obtain ⟨j, runner, here, rfl⟩ := steady.stock.runner_of (steady.stock.menu product listed)
      have member := List.mem_of_getElem? here
      have unclosed : s.board.closed = false := by
        refine Bool.eq_false_iff.mpr fun closed => ?_
        rw [steady.service.closed closed] at listed
        cases listed
      refine ⟨runner, member, rfl, ?_, ?_⟩
      · rcases (steady.service.menu unclosed runner member).mp listed with sound | unannounced
        · exact sound
        · have quiet := calm runner member
          cases phase : runner.phase <;> simp_all [RunnerPhase.unannounced, RunnerPhase.breaking]
      · cases phase : runner.phase with
        | finished =>
          have released := (steady.sleepers.left runner member phase).1
          rw [steady.closing.closed_of_released released] at unclosed
          cases unclosed
        | dead => exact absurd listed (left runner member phase).1
        | _ => rfl
    · intro station queue present job has
      obtain ⟨j, runner, here, rfl⟩ := steady.stock.runner_of (steady.stock.known_of_queue present)
      refine ⟨j, steady.serves_queued apart here ?_ present has⟩
      intro dead
      rw [(left runner (List.mem_of_getElem? here) dead).2 queue present] at has
      cases has

-- What a worker waits for at a place of its order is made by the station that has the job.
theorem sought_wanted (orders : Orders s) (here : s.phases[i]? = some (.awaiting order made failed))
    (sought : Sought s ⟨order.id, position⟩ station) : order.products[position]? = some station := by
  obtain ⟨k, other, tray, less, there, named, _, wanted⟩ := sought
  obtain rfl := orders.roster.apart k i _ _ other order there here rfl rfl named
  cases here.symm.trans there
  exact wanted

-- A worker that waits is answered, or served by somebody, or stranded.
theorem awaiting_cases (steady : Steady stations s) (apart : stations.Nodup)
    (here : s.phases[i]? = some (.awaiting order made failed))
    (wanted : order.products[made.length + failed]? = some product) :
    s.answered ⟨order.id, made.length + failed⟩ ∨
      (∃ j, Serves s j product ⟨order.id, made.length + failed⟩) ∨
      Stranded s i order made failed := by
  have short := (List.getElem?_eq_some_iff.mp wanted).1
  obtain ⟨⟨content, heard⟩, found⟩ :=
    (steady.jobs.posted i order made failed here).2 _ (Nat.le_refl _) short
  by_cases waiting : content = .waiting
  · refine .inr ?_
    subst waiting
    rcases steady.jobs.located steady.stock apart found with ⟨j, runner, there, job, has, same⟩ |
        ⟨station, queue, present, job, has, same⟩
    · have sought := steady.jobs.carried runner (List.mem_of_getElem? there) job has
      obtain rfl := Option.some.inj
        (wanted.symm.trans (sought_wanted steady.orders here (same ▸ sought)))
      exact .inl ⟨j, same ▸ steady.serves_carried apart there has⟩
    · have sought := steady.jobs.queued station queue present job has
      obtain rfl := Option.some.inj
        (wanted.symm.trans (sought_wanted steady.orders here (same ▸ sought)))
      obtain ⟨j, runner, there, rfl⟩ := steady.stock.runner_of (steady.stock.known_of_queue present)
      by_cases dead : runner.phase = .dead
      · exact .inr ⟨here, j, runner, queue, there, dead, present, job, has, same⟩
      · exact .inl ⟨j, same ▸ steady.serves_queued apart there dead present has⟩
  · exact .inl ⟨_, found, waiting⟩

namespace Stranded

theorem waiting (steady : Steady stations s) (stranded : Stranded s i order made failed) :
    s.jobs.get? ⟨order.id, made.length + failed⟩ = some ⟨.waiting, true⟩ := by
  obtain ⟨_, _, _, _, _, _, present, job, has, same⟩ := stranded
  exact same ▸ steady.jobs.waiting_queued present has

-- Nobody answers a stranded worker's job, and nobody serves it.
theorem unserved (steady : Steady stations s) (apart : stations.Nodup)
    (stranded : Stranded s i order made failed)
    (wanted : order.products[made.length + failed]? = some product) :
    ¬ s.answered ⟨order.id, made.length + failed⟩ ∧
      ∀ j, ¬ Serves s j product ⟨order.id, made.length + failed⟩ := by
  have waiting := stranded.waiting steady
  obtain ⟨here, _, runner, queue, there, dead, present, job, has, same⟩ := stranded
  refine ⟨?_, ?_⟩
  · rintro ⟨signal, found, spoke⟩
    cases waiting.symm.trans found
    exact spoke rfl
  · rintro j ⟨⟨other, place, makes, on⟩, _⟩
    have sought := steady.jobs.queued runner.station queue present job has
    have equal := Option.some.inj
      (wanted.symm.trans (sought_wanted steady.orders here (same ▸ sought)))
    have one := steady.runner_unique apart (List.mem_of_getElem? place)
      (List.mem_of_getElem? there) (makes.trans equal)
    rw [one, dead] at on
    cases on

end Stranded

-- A worker whose job is not answered stays where it is.
theorem awaits_step {heard : Bool} (here : s.phases[i]? = some (.awaiting order made failed))
    (wanted : order.products[made.length + failed]? = some product)
    (waiting : s.jobs.get? ⟨order.id, made.length + failed⟩ = some ⟨.waiting, heard⟩)
    (step : Transition s action t events) : t.phases[i]? = some (.awaiting order made failed) := by
  have kept : t.workers = s.workers → t.phases[i]? = some (.awaiting order made failed) := by
    intro workers
    rw [State.phases, workers]
    exact here
  have told : ∀ f : WorkerPhase → WorkerPhase, t.phases = s.phases.map f →
      f (.awaiting order made failed) = .awaiting order made failed →
      t.phases[i]? = some (.awaiting order made failed) := by
    intro f crew same
    rw [crew, List.getElem?_map, here, Option.map_some, same]
  cases step with
  | @worker k _ _ _ _ _ there move =>
    by_cases mine : k = i
    · subst mine
      cases here.symm.trans (State.phases_of there)
      cases move with
      | claim seeks | leave seeks | rest seeks => cases seeks
      | receive _ answered | hearBreak _ answered | hearNothing _ answered =>
        cases waiting.symm.trans answered
      | hold done | holdUnslotted done | fail done => cases wanted.symm.trans done
    · obtain ⟨worker, workers⟩ := move.workers
      rw [State.phases, workers, List.map_set, List.getElem?_set_ne mine]
      exact here
  | runner _ move => exact kept move.workers.1
  | client move =>
    cases move with
    | @placeWaking _ k _ _ _ sleeper =>
      have other : k ≠ i := by
        rintro rfl
        cases here.symm.trans (State.phases_of sleeper)
      rw [State.phases_setWorker, List.getElem?_set_ne other]
      exact here
    | @collectReady _ id =>
      exact told (·.wakePickup id) (State.phases_notifyPickup _ id) rfl
    | usePager _ move => exact kept move.frame.2.1
    | _ => exact kept rfl
  | shutdown _ move =>
    cases move with
    | wakeWorkers => exact told (·.wake) (State.phases_wakeAllWorkers s) rfl
    | _ => exact kept rfl

namespace Stranded

theorem wanted (steady : Steady stations s) (stranded : Stranded s i order made failed) :
    ∃ product, order.products[made.length + failed]? = some product := by
  obtain ⟨here, _, runner, queue, _, _, present, job, has, same⟩ := stranded
  have sought := steady.jobs.queued runner.station queue present job has
  exact ⟨runner.station, sought_wanted steady.orders here (same ▸ sought)⟩

-- Only its runner takes a job from a queue, and a dead one takes nothing.
theorem step (steady : Steady stations s) (apart : stations.Nodup)
    (stranded : Stranded s i order made failed) (step : Transition s action t events) :
    Stranded t i order made failed := by
  have waiting := stranded.waiting steady
  obtain ⟨product, wanted⟩ := stranded.wanted steady
  obtain ⟨here, j, runner, queue, there, dead, present, job, has, same⟩ := stranded
  have ended : runner.phase.ended = true := by rw [dead]; rfl
  have still := step.outlasts.runners j runner there ended
  refine ⟨awaits_step here wanted waiting step, j, runner, ?_⟩
  have inLine : InLine s j job _ := .queued there present has (Nat.le_refl _)
  rcases inLine.step steady.stock steady.jobs steady.orders steady.labelled apart step with
    ⟨_, waits⟩ | ⟨_, _, _, _, place, move⟩
  · cases waits with
    | @queued other later now found member _ =>
      cases still.symm.trans now
      exact ⟨later, still, dead, found, job, member, same⟩
    | carried now place _ =>
      cases still.symm.trans now
      rw [dead] at place
      cases place
  · cases there.symm.trans place
    rw [move.active] at ended
    cases ended

theorem run (steady : Steady stations s) (apart : stations.Nodup)
    (stranded : Stranded s i order made failed) (run : Run s actions events t) :
    Steady stations t ∧ Stranded t i order made failed := by
  induction run with
  | start => exact ⟨steady, stranded⟩
  | next _ ran ih =>
    have step := transition_of_step ran
    exact ⟨ih.1.step apart step, ih.2.step ih.1 apart step⟩

theorem stuck (steady : Steady stations s) (stranded : Stranded s i order made failed) :
    s.step (.worker i) = none := by
  have waiting := stranded.waiting steady
  obtain ⟨product, wanted⟩ := stranded.wanted steady
  have place := stranded.waits
  rw [State.phases, List.getElem?_map] at place
  obtain ⟨⟨phase, report⟩, here, same⟩ := Option.map_eq_some_iff.mp place
  obtain rfl : phase = .awaiting order made failed := same
  simp [State.step, State.stepWorker, here, wanted, State.receiveJob, waiting, Signal.wait?,
    Signal.take]

-- The call that shuts down does not get past a worker that has not left.
theorem joins (closing : Closing s) (stranded : Stranded s i order made failed)
    (began : s.running = false) :
    ∃ call stage, s.calls.get? call = some (.shutdown stage) ∧ stage.unmanned = false := by
  obtain ⟨worker, member, phase⟩ := List.mem_map.mp (List.mem_of_getElem? stranded.waits)
  have on : worker.phase.ended ≠ true := by simp [phase, WorkerPhase.ended]
  by_cases under : ∃ call stage, s.calls.get? call = some (.shutdown stage)
  · obtain ⟨call, stage, here⟩ := under
    refine ⟨call, stage, here, Bool.eq_false_iff.mpr fun all => ?_⟩
    exact on (((closing.during call stage here).reports_eq all).2 worker member)
  · have after := closing.after began fun call stage here => under ⟨call, stage, here⟩
    exact absurd (after.2.2.1 worker member) on

end Stranded

-- A station that breaks down strands nobody; one that crashes leaves its product on the menu and its
-- queue as it is. Where no breakdown is being dealt with, the dead runners that left something are all
-- that is amiss. A worker's job is answered, or will be by its runner, unless it is on the queue of a
-- dead one; then the worker waits for ever, and the call that shuts down with it, which nothing else
-- can stop.
theorem stranded_only_by_crashes (apart : stations.Nodup)
    (run : Run (.opened stations workers) actions events s) :
    (s.calm → (Manned s ↔ ∀ runner ∈ s.runners, runner.phase = .dead →
      runner.station ∉ s.board.menu ∧ s.idleQueue runner.station)) ∧
    (∀ j, s.lost j ↔ .produced j .crashed ∈ actions) ∧
    (∀ i order made failed product, s.phases[i]? = some (.awaiting order made failed) →
      order.products[made.length + failed]? = some product →
      (Stranded s i order made failed ↔
        ¬ (s.answered ⟨order.id, made.length + failed⟩ ∨
          ∃ j, Serves s j product ⟨order.id, made.length + failed⟩))) ∧
    (∀ i order made failed, Stranded s i order made failed → ∀ later more t, Run s later more t →
      t.phases[i]? = some (.awaiting order made failed) ∧ t.step (.worker i) = none ∧
      (t.running = false →
        ∃ call stage, t.calls.get? call = some (.shutdown stage) ∧ stage.unmanned = false)) ∧
    (∀ call stage, s.calls.get? call = some (.shutdown stage) → ¬ s.goesOn →
      ∃ reports order made failed, stage = .joiningWorkers reports ∧
        Stranded s reports.length order made failed) := by
  have steady := Steady.opened apart run
  refine ⟨?_, ?_, ?_, ?_, ?_⟩
  · exact manned_iff steady apart
  · intro j
    constructor
    · intro lost
      rcases lost_run run lost with ⟨runner, here, dead⟩ | crashed
      · exact absurd dead (Staffed.opened stations workers runner (List.mem_of_getElem? here))
      · exact crashed
    · exact lost_of_crash run
  · intro i order made failed product here wanted
    constructor
    · intro stranded
      obtain ⟨unanswered, unserved⟩ := stranded.unserved steady apart wanted
      rintro (answered | ⟨j, serves⟩)
      · exact unanswered answered
      · exact unserved j serves
    · intro neither
      rcases awaiting_cases steady apart here wanted with answered | served | stranded
      · exact absurd (.inl answered) neither
      · exact absurd (.inr served) neither
      · exact stranded
  · intro i order made failed stranded later more t after
    obtain ⟨steady, stranded⟩ := stranded.run steady apart after
    exact ⟨stranded.waits, stranded.stuck steady, stranded.joins steady.closing⟩
  · intro call stage here still
    exact shutdown_blocked steady.stock steady.jobs steady.closing steady.sleepers apart still here

-- An order of two burgers, and the station crashes over the first: the worker hears nothing of that
-- one and waits for the second.
def crashDay : List Action :=
  [.worker 0, .runner 0, .order ["burger", "burger"] none, .worker 0, .worker 0, .runner 0,
    .runner 0, .produced 0 .crashed, .worker 0]

theorem crashDay_waits :
    ((State.opened ["burger"] 1).after crashDay).1.calm ∧
      Stranded ((State.opened ["burger"] 1).after crashDay).1 0 ⟨0, ["burger", "burger"]⟩ [] 1 := by
  have here : ((State.opened ["burger"] 1).after crashDay).1.phases[0]? =
      some (.awaiting ⟨0, ["burger", "burger"]⟩ [] 1) := by
    decide +kernel
  have there : ((State.opened ["burger"] 1).after crashDay).1.runners[0]? =
      some ⟨"burger", .dead, false, 1⟩ := by
    decide +kernel
  have present : ((State.opened ["burger"] 1).after crashDay).1.board.queues.get? "burger" =
      some ⟨[⟨0, 1, ⟨0, 1⟩⟩], 2⟩ := by
    decide +kernel
  refine ⟨?_, here, 0, _, _, there, rfl, present, _, .head _, rfl⟩
  unfold State.calm
  decide +kernel

theorem crashDay_stranded :
    Stranded ((State.opened ["burger"] 1).after crashDay).1 0 ⟨0, ["burger", "burger"]⟩ [] 1 ∧
      ¬ Manned ((State.opened ["burger"] 1).after crashDay).1 ∧
      ∀ j, ¬ Serves ((State.opened ["burger"] 1).after crashDay).1 j "burger" ⟨0, 1⟩ := by
  have possible : ((State.opened ["burger"] 1).play crashDay).isSome = true := by decide +kernel
  obtain ⟨calm, stranded⟩ := crashDay_waits
  obtain ⟨manned, _, awaiting, _⟩ := stranded_only_by_crashes (by decide) (run_after possible)
  have neither := (awaiting 0 _ _ _ "burger" stranded.waits rfl).mp stranded
  refine ⟨stranded, ?_, fun j serves => neither (.inr ⟨j, serves⟩)⟩
  rw [manned calm]
  intro idle
  obtain ⟨_, j, runner, queue, there, dead, present, job, has, _⟩ := stranded
  rw [(idle runner (List.mem_of_getElem? there) dead).2 queue present] at has
  cases has

-- The burger stays on the menu though nobody makes one any more, and the worker never leaves: the call
-- that shuts down can begin, and never returns.
theorem crash_strands : ∃ events s, Run (.opened ["burger"] 1) crashDay events s ∧ s.calm ∧
    "burger" ∈ s.board.menu ∧ (∀ runner ∈ s.runners, runner.phase = .dead) ∧ ¬ Manned s ∧
    (s.play [.shutdown 1, .client 1, .client 1, .client 1]).isSome = true ∧
    ∀ later more t, Run s later more t →
      t.phases[0]? = some (.awaiting ⟨0, ["burger", "burger"]⟩ [] 1) ∧ t.step (.worker 0) = none ∧
      (t.running = false →
        ∃ call stage, t.calls.get? call = some (.shutdown stage) ∧ stage.unmanned = false) := by
  have possible : ((State.opened ["burger"] 1).play crashDay).isSome = true := by decide +kernel
  have run := run_after possible
  have listed : "burger" ∈ ((State.opened ["burger"] 1).after crashDay).1.board.menu := by
    decide +kernel
  have dead : ∀ runner ∈ ((State.opened ["burger"] 1).after crashDay).1.runners,
      runner.phase = .dead := by
    decide +kernel
  obtain ⟨calm, stranded⟩ := crashDay_waits
  refine ⟨_, _, run, calm, listed, dead, ?_, by decide +kernel, ?_⟩
  · intro manned
    obtain ⟨runner, member, _, _, on⟩ := manned.menu "burger" listed
    rw [dead runner member] at on
    cases on
  · intro later more t after
    obtain ⟨steady, stranded⟩ := stranded.run (Steady.opened (by decide) run) (by decide) after
    exact ⟨stranded.waits, stranded.stuck steady, stranded.joins steady.closing⟩

end Kitchen.Engine
