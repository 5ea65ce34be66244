import Kitchen.Proofs.Frames
import Kitchen.Proofs.Orders

-- How far the call that shuts the kitchen down has come, and what it may count on there: the
-- threads it has joined have ended and stay so, and what they handed out is what it keeps.

namespace Kitchen.Engine

variable {s t : State} {action : Action} {events : List Event} {call c : CallId} {id : OrderId}
  {i : Nat} {report : Report} {reports : List Report} {order : Order} {stage : ShutdownPhase}

def WorkerPhase.ended : WorkerPhase → Bool
  | .finished | .dead => true
  | _ => false

def RunnerPhase.ended : RunnerPhase → Bool
  | .finished | .dead => true
  | _ => false

def Worker.tally (worker : Worker) : Report :=
  if worker.phase = .dead then .empty else worker.report

structure Outlasts (s t : State) : Prop where
  workers : ∀ (i : Nat) (worker : Worker), s.workers[i]? = some worker →
    worker.phase.ended = true → t.workers[i]? = some worker
  runners : ∀ (i : Nat) (runner : Runner), s.runners[i]? = some runner →
    runner.phase.ended = true → t.runners[i]? = some runner
  crew : t.workers.length = s.workers.length
  staff : t.runners.length = s.runners.length

namespace Outlasts

theorem same (workers : t.workers = s.workers) (runners : t.runners = s.runners) :
    Outlasts s t := by
  refine ⟨?_, ?_, by rw [workers], by rw [runners]⟩
  · intro i worker here _
    rw [workers, here]
  · intro i runner here _
    rw [runners, here]

theorem setWorker (here : s.workers[i]? = some old) (on : old.phase.ended = false)
    (workers : t.workers = s.workers.set i worker)
    (runners : ∀ (j : Nat) (runner : Runner), s.runners[j]? = some runner →
      runner.phase.ended = true → t.runners[j]? = some runner)
    (staff : t.runners.length = s.runners.length) : Outlasts s t := by
  refine ⟨?_, runners, by rw [workers, List.length_set], staff⟩
  intro j other found ended
  rw [workers, List.getElem?_set]
  split
  next same =>
    subst same
    rw [here] at found
    cases found
    rw [on] at ended
    cases ended
  next => exact found

theorem setRunner (here : s.runners[i]? = some old) (on : old.phase.ended = false)
    (runners : t.runners = s.runners.set i runner) (workers : t.workers = s.workers) :
    Outlasts s t := by
  refine ⟨?_, ?_, by rw [workers], by rw [runners, List.length_set]⟩
  · intro j other found _
    rw [workers, found]
  · intro j other found ended
    rw [runners, List.getElem?_set]
    split
    next same =>
      subst same
      rw [here] at found
      cases found
      rw [on] at ended
      cases ended
    next => exact found

theorem mapWorkers (f : Worker → Worker) (keeps : ∀ w, w.phase.ended = true → f w = w)
    (workers : t.workers = s.workers.map f) (runners : t.runners = s.runners) : Outlasts s t := by
  refine ⟨?_, ?_, by rw [workers, List.length_map], by rw [runners]⟩
  · intro i worker here ended
    rw [workers, List.getElem?_map, here]
    exact congrArg some (keeps worker ended)
  · intro i runner here _
    rw [runners, here]

theorem mapRunners (f : Runner → Runner) (keeps : ∀ r, r.phase.ended = true → f r = r)
    (runners : t.runners = s.runners.map f) (workers : t.workers = s.workers) : Outlasts s t := by
  refine ⟨?_, ?_, by rw [workers], by rw [runners, List.length_map]⟩
  · intro i worker here _
    rw [workers, here]
  · intro i runner here ended
    rw [runners, List.getElem?_map, here]
    exact congrArg some (keeps runner ended)

end Outlasts

theorem wakeWorker_ended (w : Worker) (ended : w.phase.ended = true) : State.wakeWorker w = w := by
  obtain ⟨phase, report⟩ := w
  cases phase <;> first | rfl | cases ended

theorem wakePickup_ended (id : OrderId) (w : Worker) (ended : w.phase.ended = true) :
    State.wakePickup id w = w := by
  obtain ⟨phase, report⟩ := w
  cases phase <;> first | rfl | cases ended

theorem wakeRunner_ended (r : Runner) (ended : r.phase.ended = true) : State.wakeRunner r = r := by
  obtain ⟨station, phase, out, calls⟩ := r
  cases phase <;> first | rfl | cases ended

theorem wakeRunner_ended_eq (runner : Runner) :
    (State.wakeRunner runner).phase.ended = runner.phase.ended := by
  obtain ⟨station, phase, out, calls⟩ := runner
  cases phase <;> rfl

theorem dispatchFrom_runners (s : State) (order : OrderId) (position : Nat)
    (products : List String) :
    ∃ woken : Runner → Bool, (s.dispatchFrom order position products).1.runners =
      s.runners.map fun runner => if woken runner then State.wakeRunner runner else runner := by
  induction products generalizing s position with
  | nil => exact ⟨fun _ => false, by simp [State.dispatchFrom]⟩
  | cons product rest ih =>
    have first : ∃ woken : Runner → Bool, (s.dispatchJob order position product).1.runners =
        s.runners.map fun runner => if woken runner then State.wakeRunner runner else runner := by
      unfold State.dispatchJob
      split
      · exact ⟨fun runner => runner.station = product, by simp [State.wakeStation, State.withBoard]⟩
      · exact ⟨fun _ => false, by simp⟩
    obtain ⟨woken, once⟩ := first
    obtain ⟨later, twice⟩ := ih (s.dispatchJob order position product).1 (position + 1)
    have again : ∀ runner, State.wakeRunner (State.wakeRunner runner) = State.wakeRunner runner := by
      rintro ⟨station, phase, out, calls⟩
      cases phase <;> rfl
    refine ⟨fun runner => woken runner ||
      later (if woken runner then State.wakeRunner runner else runner), ?_⟩
    simp only [State.dispatchFrom, twice, once, List.map_map, List.map_inj_left,
      Function.comp_apply]
    intro runner _
    by_cases before : woken runner = true
    · simp only [before, if_true, Bool.true_or]
      split
      · exact again runner
      · rfl
    · simp [before]

theorem spread_runners (s : State) (order : Order) :
    ∃ woken : Runner → Bool, (s.spread order).1.runners =
      s.runners.map fun runner => if woken runner then State.wakeRunner runner else runner :=
  dispatchFrom_runners _ _ _ _

theorem WorkerMove.active (move : WorkerMove s i report old action t events) : old.ended = false := by
  cases move with
  | claim seeks | leave seeks | rest seeks =>
    cases old <;> first | rfl | cases seeks
  | _ => rfl

theorem RunnerMove.active {calls : Nat}
    (move : RunnerMove s i station out calls old action t events) : old.ended = false := by
  cases move with
  | take seeks | leave seeks | rest seeks =>
    cases old <;> first | rfl | cases seeks
  | _ => rfl

theorem WorkerMove.outlasts (here : s.workers[i]? = some ⟨old, report⟩)
    (move : WorkerMove s i report old action t events) : Outlasts s t := by
  obtain ⟨worker, workers⟩ := move.workers
  have on := move.active
  cases move with
  | @dispatch order =>
    obtain ⟨woken, runners⟩ := spread_runners s order
    refine .setWorker here on workers ?_ ?_
    · intro j runner found ended
      change (s.spread order).1.runners[j]? = _
      rw [runners, List.getElem?_map, found, Option.map_some]
      congr 1
      split
      · exact wakeRunner_ended runner ended
      · rfl
    · change (s.spread order).1.runners.length = _
      rw [runners, List.length_map]
  | _ => exact .setWorker here on workers (fun _ _ found _ => found) rfl

theorem ClientMove.outlasts (move : ClientMove s action t events) : Outlasts s t := by
  cases move with
  | placeWaking _ _ sleeper =>
    exact .setWorker sleeper rfl rfl (fun _ _ found _ => found) rfl
  | @collectReady _ id =>
    exact .mapWorkers (State.wakePickup id) (wakePickup_ended id) rfl rfl
  | usePager _ move =>
    obtain ⟨_, workers, runners, _⟩ := move.frame
    exact .same workers runners
  | _ => exact .same rfl rfl

theorem ShutdownMove.outlasts (move : ShutdownMove s call stage t events) : Outlasts s t := by
  cases move with
  | wakeWorkers => exact .mapWorkers _ wakeWorker_ended rfl rfl
  | wakeStations | wakeReleased => exact .mapRunners _ wakeRunner_ended rfl rfl
  | _ => exact .same rfl rfl

theorem Transition.outlasts (step : Transition s action t events) : Outlasts s t := by
  cases step with
  | worker here move => exact move.outlasts here
  | runner here move =>
    obtain ⟨runner, runners, _⟩ := move.runners
    exact .setRunner here move.active runners move.workers.1
  | client move => exact move.outlasts
  | shutdown _ move => exact move.outlasts

namespace ShutdownPhase

def closed : ShutdownPhase → Bool
  | .closing => false
  | _ => true

def released : ShutdownPhase → Bool
  | .wakingReleased _ | .joiningRunners _ _ | .stopping _ _ => true
  | _ => false

def tallies : ShutdownPhase → List Report
  | .joiningWorkers reports | .releasing reports | .wakingReleased reports
  | .joiningRunners reports _ | .stopping reports _ => reports
  | _ => []

def unmanned : ShutdownPhase → Bool
  | .releasing _ | .wakingReleased _ | .joiningRunners _ _ | .stopping _ _ => true
  | _ => false

def left (runners : Nat) : ShutdownPhase → Nat
  | .joiningRunners _ done => done
  | .stopping _ _ => runners
  | _ => 0

-- What the call may count on at this point.
structure Fits (s : State) (stage : ShutdownPhase) : Prop where
  taken : s.running = false
  closed : s.board.closed = stage.closed
  released : s.board.released = stage.released
  joined : ∀ (j : Nat) (report : Report), stage.tallies[j]? = some report →
    ∃ worker, s.workers[j]? = some worker ∧ worker.phase.ended = true ∧ report = worker.tally
  unmanned : stage.unmanned = true → stage.tallies.length = s.workers.length
  left : ∀ j, j < stage.left s.runners.length →
    ∃ runner, s.runners[j]? = some runner ∧ runner.phase.ended = true

namespace Fits

-- Before it joins the first worker there is nothing to count on but the flags.
theorem early (taken : s.running = false) (closed : s.board.closed = stage.closed)
    (released : s.board.released = stage.released) (tallies : stage.tallies = [])
    (unmanned : stage.unmanned = false) (left : stage.left s.runners.length = 0) : stage.Fits s := by
  refine ⟨taken, closed, released, ?_, ?_, ?_⟩
  · simp [tallies]
  · simp [unmanned]
  · simp [left]

theorem mono (fits : stage.Fits s) (outlasts : Outlasts s t) (running : t.running = s.running)
    (closed : t.board.closed = s.board.closed) (released : t.board.released = s.board.released) :
    stage.Fits t := by
  refine ⟨running ▸ fits.taken, closed ▸ fits.closed, released ▸ fits.released, ?_, ?_, ?_⟩
  · intro j report found
    obtain ⟨worker, here, ended, same⟩ := fits.joined j report found
    exact ⟨worker, outlasts.workers j worker here ended, ended, same⟩
  · intro all
    rw [outlasts.crew]
    exact fits.unmanned all
  · intro j below
    rw [outlasts.staff] at below
    obtain ⟨runner, here, ended⟩ := fits.left j below
    exact ⟨runner, outlasts.runners j runner here ended, ended⟩

theorem join (fits : Fits s (.joiningWorkers reports))
    (here : s.workers[reports.length]? = some worker) (ended : worker.phase.ended = true)
    (call : CallId) :
    Fits (s.setCall call (.shutdown (.joiningWorkers (reports ++ [worker.tally]))))
      (.joiningWorkers (reports ++ [worker.tally])) := by
  refine ⟨fits.taken, fits.closed, fits.released, ?_,
    by simp [ShutdownPhase.unmanned], by simp [ShutdownPhase.left]⟩
  intro j report found
  change (reports ++ [worker.tally])[j]? = some report at found
  rw [List.getElem?_append] at found
  split at found
  · exact fits.joined j report found
  next beyond =>
    have last : j = reports.length := by
      have := (List.getElem?_eq_some_iff.mp found).1
      simp only [List.length_singleton] at this
      omega
    subst last
    simp only [Nat.sub_self, List.getElem?_cons_zero, Option.some.injEq] at found
    exact ⟨worker, here, ended, found.symm⟩

theorem joinRunner {done : Nat} (fits : Fits s (.joiningRunners reports done))
    (here : s.runners[done]? = some runner) (ended : runner.phase.ended = true) (call : CallId) :
    Fits (s.setCall call (.shutdown (.joiningRunners reports (done + 1))))
      (.joiningRunners reports (done + 1)) := by
  refine ⟨fits.taken, fits.closed, fits.released, fits.joined, fun _ => fits.unmanned rfl, ?_⟩
  intro j below
  rcases Nat.lt_succ_iff_lt_or_eq.mp below with earlier | last
  · exact fits.left j earlier
  · subst last
    exact ⟨runner, here, ended⟩

theorem joined_le (fits : stage.Fits s) : stage.tallies.length ≤ s.workers.length := by
  rcases Nat.eq_zero_or_pos stage.tallies.length with none | some
  · omega
  · have inside : stage.tallies.length - 1 < stage.tallies.length := by omega
    obtain ⟨worker, here, _⟩ := fits.joined _ _ (List.getElem?_eq_getElem inside)
    have := (List.getElem?_eq_some_iff.mp here).1
    omega

-- Once every worker was joined, the reports are all their reports.
theorem reports_eq (fits : stage.Fits s) (all : stage.unmanned = true) :
    stage.tallies = s.workers.map Worker.tally ∧ ∀ worker ∈ s.workers, worker.phase.ended = true := by
  have length := fits.unmanned all
  have found : ∀ (j : Nat) (worker : Worker), s.workers[j]? = some worker →
      worker.phase.ended = true ∧ stage.tallies[j]? = some worker.tally := by
    intro j worker here
    have inside : j < stage.tallies.length := by
      rw [length]
      exact (List.getElem?_eq_some_iff.mp here).1
    obtain ⟨other, there, ended, same⟩ := fits.joined j _ (List.getElem?_eq_getElem inside)
    rw [here] at there
    cases there
    exact ⟨ended, by rw [List.getElem?_eq_getElem inside, same]⟩
  constructor
  · apply List.ext_getElem?
    intro j
    rw [List.getElem?_map]
    cases here : s.workers[j]? with
    | none =>
      have beyond := List.getElem?_eq_none_iff.mp here
      exact List.getElem?_eq_none_iff.mpr (by omega)
    | some worker => exact (found j worker here).2
  · intro worker member
    obtain ⟨j, here⟩ := List.getElem?_of_mem member
    exact (found j worker here).1

end Fits

end ShutdownPhase

-- Nothing is closed while the kitchen runs; one call closes it, and once that call has returned
-- everybody has ended.
structure Closing (s : State) : Prop where
  before : s.running = true → s.board.closed = false ∧ s.board.released = false ∧
    ∀ call stage, s.calls.get? call ≠ some (.shutdown stage)
  during : ∀ call stage, s.calls.get? call = some (.shutdown stage) → stage.Fits s
  single : ∀ call other stage later, s.calls.get? call = some (.shutdown stage) →
    s.calls.get? other = some (.shutdown later) → call = other
  after : s.running = false → (∀ call stage, s.calls.get? call ≠ some (.shutdown stage)) →
    s.board.closed = true ∧ s.board.released = true ∧
      (∀ worker ∈ s.workers, worker.phase.ended = true) ∧
      ∀ runner ∈ s.runners, runner.phase.ended = true
  left : ∀ worker ∈ s.workers, worker.phase = .finished →
    s.board.closed = true ∧ s.board.unassigned = []

namespace Closing

theorem opened (stations : List String) (workers : Nat) : Closing (.opened stations workers) := by
  have none : ∀ call stage, (State.opened stations workers).calls.get? call ≠ some (.shutdown stage) := by
    intro call stage found
    cases found
  refine ⟨fun _ => ⟨rfl, rfl, none⟩, ?_, ?_, by simp [State.opened], ?_⟩
  · exact fun call stage found => absurd found (none call stage)
  · exact fun call other stage later found => absurd found (none call stage)
  intro worker member phase
  rw [List.eq_of_mem_replicate member] at phase
  cases phase

-- The same calls shut down before and after.
def Same (s t : State) : Prop := ∀ call stage, t.calls.get? call = some (.shutdown stage) ↔
  s.calls.get? call = some (.shutdown stage)

theorem same_insert (calls : t.calls = s.calls.insert call now)
    (was : ∀ stage, s.calls.get? call ≠ some (.shutdown stage)) (no : ∀ stage, now ≠ .shutdown stage) :
    Same s t := by
  intro other stage
  rw [calls, Table.get?_insert]
  split
  next same =>
    subst same
    constructor
    · intro equal
      exact absurd (Option.some.inj equal) (no stage)
    · intro equal
      exact absurd equal (was stage)
  next => exact Iff.rfl

theorem same_erase (calls : t.calls = s.calls.erase call)
    (was : ∀ stage, s.calls.get? call ≠ some (.shutdown stage)) : Same s t := by
  intro other stage
  rw [calls, Table.get?_erase]
  split
  next same =>
    subst same
    constructor
    · intro equal
      cases equal
    · intro equal
      exact absurd equal (was stage)
  next => exact Iff.rfl

theorem same_client (move : ClientMove s action t events)
    (no : ∀ call, action = .shutdown call → s.running = false) : Same s t := by
  have unused : ∀ {call : CallId}, s.calls.get? call = none →
      ∀ stage, s.calls.get? call ≠ some (.shutdown stage) := by
    intro call none stage equal
    rw [none] at equal
    cases equal
  have taken : ∀ {call : CallId} {now : Call}, s.calls.get? call = some now →
      (∀ stage, now ≠ .shutdown stage) → ∀ stage, s.calls.get? call ≠ some (.shutdown stage) := by
    intro call now here no stage equal
    rw [here] at equal
    exact no stage (Option.some.inj equal)
  cases move with
  | orderClosed | orderMissing | place | placeWaking => exact fun _ _ => Iff.rfl
  | collectUnknown free | collectEarly free | shutdownAgain free =>
    exact same_erase rfl (unused free)
  | collectReady free | collectEnded free | takePager free =>
    exact same_insert rfl (unused free) (by simp)
  | getResult waits | getNothing waits | waitOver waits => exact same_erase rfl (taken waits (by simp))
  | usePager here move =>
    rcases move.calls with ⟨later, calls⟩ | calls
    · exact same_insert calls (taken here (by simp)) (by simp)
    · exact same_erase calls (taken here (by simp))
  | shutdown free running =>
    rw [no _ rfl] at running
    cases running

theorem mono (closing : Closing s) (outlasts : Outlasts s t) (running : t.running = s.running)
    (closed : t.board.closed = s.board.closed) (released : t.board.released = s.board.released)
    (calls : Same s t)
    (left : ∀ worker ∈ t.workers, worker.phase = .finished →
      t.board.closed = true ∧ t.board.unassigned = []) : Closing t := by
  refine ⟨?_, ?_, ?_, ?_, left⟩
  · intro on
    rw [running] at on
    obtain ⟨unclosed, unreleased, none⟩ := closing.before on
    exact ⟨closed.trans unclosed, released.trans unreleased,
      fun call stage here => none call stage ((calls call stage).mp here)⟩
  · intro call stage here
    exact (closing.during call stage ((calls call stage).mp here)).mono outlasts running closed
      released
  · intro call other stage later here there
    exact closing.single call other stage later ((calls call stage).mp here)
      ((calls other later).mp there)
  · intro off none
    rw [running] at off
    obtain ⟨shut, free, workers, runners⟩ := closing.after off
      fun call stage here => none call stage ((calls call stage).mpr here)
    refine ⟨closed.trans shut, released.trans free, ?_, ?_⟩
    · intro worker member
      obtain ⟨j, here⟩ := List.getElem?_of_mem member
      have inside := (List.getElem?_eq_some_iff.mp here).1
      rw [outlasts.crew] at inside
      have ended := workers _ (List.getElem_mem inside)
      rw [outlasts.workers j _ (List.getElem?_eq_getElem inside) ended] at here
      cases here
      exact ended
    · intro runner member
      obtain ⟨j, here⟩ := List.getElem?_of_mem member
      have inside := (List.getElem?_eq_some_iff.mp here).1
      rw [outlasts.staff] at inside
      have ended := runners _ (List.getElem_mem inside)
      rw [outlasts.runners j _ (List.getElem?_eq_getElem inside) ended] at here
      cases here
      exact ended

theorem worker (closing : Closing s) (here : s.workers[i]? = some ⟨old, report⟩)
    (move : WorkerMove s i report old action t events) : Closing t := by
  obtain ⟨running, calls, _, closed, released, _⟩ := move.unmanned
  refine closing.mono (move.outlasts here) running closed released
    (fun _ _ => by rw [calls]) ?_
  -- A worker leaves only when nothing is left, and nothing comes back.
  have others : ∀ now, t.workers = s.workers.set i now →
      (now.phase = .finished → t.board.closed = true ∧ t.board.unassigned = []) →
      t.board.unassigned = s.board.unassigned → ∀ worker ∈ t.workers,
        worker.phase = .finished → t.board.closed = true ∧ t.board.unassigned = [] := by
    intro now workers mine same worker member finished
    rw [workers] at member
    rcases List.mem_or_eq_of_mem_set member with old | new
    · obtain ⟨shut, none⟩ := closing.left worker old finished
      exact ⟨closed.trans shut, same.trans none⟩
    · subst new
      exact mine finished
  cases move with
  | claim _ first =>
    intro worker member finished
    rcases List.mem_or_eq_of_mem_set member with old | new
    · obtain ⟨_, none⟩ := closing.left worker old finished
      rw [first] at none
      cases none
    · subst new
      cases finished
  | leave _ nothing shut => exact others _ rfl (fun _ => ⟨shut, nothing⟩) rfl
  | dispatch => exact others _ (spread_setWorker ..) (by simp) (spread_unassigned ..)
  | _ => exact others _ rfl (by simp) rfl

theorem runner {calls : Nat} (closing : Closing s)
    (here : s.runners[i]? = some ⟨station, old, out, calls⟩)
    (move : RunnerMove s i station out calls old action t events) : Closing t := by
  obtain ⟨running, same, _, closed, released, _⟩ := move.unmanned
  obtain ⟨workers, unassigned, _⟩ := move.workers
  refine closing.mono (Transition.runner here move).outlasts running closed released
    (fun _ _ => by rw [same]) ?_
  intro worker member finished
  rw [workers] at member
  rw [closed, unassigned]
  exact closing.left worker member finished

theorem client (closing : Closing s) (move : ClientMove s action t events)
    (no : ∀ call, action = .shutdown call → s.running = false) : Closing t := by
  have same := same_client move no
  have outlasts := move.outlasts
  cases move with
  | orderClosed | orderMissing => exact closing
  | place unclosed =>
    refine closing.mono outlasts rfl rfl rfl same ?_
    intro worker member finished
    obtain ⟨shut, _⟩ := closing.left worker member finished
    rw [unclosed] at shut
    cases shut
  | placeWaking unclosed =>
    refine closing.mono outlasts rfl rfl rfl same ?_
    intro worker member finished
    rcases List.mem_or_eq_of_mem_set member with old | new
    · obtain ⟨shut, _⟩ := closing.left worker old finished
      rw [unclosed] at shut
      cases shut
    · subst new
      cases finished
  | @collectReady _ id =>
    refine closing.mono outlasts rfl rfl rfl same ?_
    intro worker member finished
    obtain ⟨old, was, rfl⟩ := List.mem_map.mp member
    refine closing.left old was ?_
    rw [State.wakePickup_phase] at finished
    cases same : old.phase <;> simp_all [WorkerPhase.wakePickup]
  | usePager here move =>
    obtain ⟨board, workers, _, _, _, running⟩ := move.frame
    refine closing.mono outlasts running (by rw [board]) (by rw [board]) same ?_
    rw [board, workers]
    exact closing.left
  | shutdown _ running =>
    rw [no _ rfl] at running
    cases running
  | _ => exact closing.mono outlasts rfl rfl rfl same closing.left

theorem begun (closing : Closing s) (running : s.running = true) (call : CallId) :
    Closing ({ s with running := false }.setCall call (.shutdown .closing)) := by
  obtain ⟨unclosed, unreleased, none⟩ := closing.before running
  have only : ∀ other stage, ({ s with running := false }.setCall call
      (.shutdown .closing)).calls.get? other = some (.shutdown stage) →
      call = other ∧ stage = .closing := by
    intro other stage here
    change (s.calls.insert call _).get? other = _ at here
    rw [Table.get?_insert] at here
    split at here
    next same => cases here; exact ⟨same, rfl⟩
    next => exact absurd here (none other stage)
  refine ⟨?_, ?_, ?_, ?_, closing.left⟩
  · intro still
    cases still
  · intro other stage here
    obtain ⟨rfl, rfl⟩ := only other stage here
    exact .early rfl unclosed unreleased rfl rfl rfl
  · intro one other stage later here there
    exact (only one stage here).1.symm.trans (only other later there).1
  · intro _ gone
    exact absurd (Table.get?_insert_self s.calls call _) (gone call .closing)

-- The one call that shuts down goes on to a point whose conditions hold there.
theorem proceed (closing : Closing s) (here : s.calls.get? call = some (.shutdown stage))
    (calls : t.calls = s.calls.insert call (.shutdown later)) (fits : later.Fits t)
    (left : ∀ worker ∈ t.workers, worker.phase = .finished →
      t.board.closed = true ∧ t.board.unassigned = []) : Closing t := by
  have only : ∀ other next, t.calls.get? other = some (.shutdown next) →
      call = other ∧ next = later := by
    intro other next found
    rw [calls, Table.get?_insert] at found
    split at found
    next same => cases found; exact ⟨same, rfl⟩
    next differ => exact absurd (closing.single call other stage next here found) differ
  refine ⟨?_, ?_, ?_, ?_, left⟩
  · intro running
    rw [fits.taken] at running
    cases running
  · intro other next found
    obtain ⟨rfl, rfl⟩ := only other next found
    exact fits
  · intro one other p q found there
    exact (only one p found).1.symm.trans (only other q there).1
  · intro _ gone
    exact absurd (by rw [calls, Table.get?_insert_self]) (gone call later)

theorem gone (closing : Closing s) (here : s.calls.get? call = some (.shutdown stage))
    (other : CallId) (next : ShutdownPhase) :
    (s.calls.erase call).get? other ≠ some (.shutdown next) := by
  intro found
  rw [Table.get?_erase] at found
  split at found
  · cases found
  next differ => exact differ (closing.single call other _ next here found)

-- The one call that shuts down returns: everybody was joined.
theorem finish {done : Nat} (closing : Closing s)
    (here : s.calls.get? call = some (.shutdown (.stopping reports done))) :
    Closing (s.endCall call) := by
  have fits := closing.during call _ here
  refine ⟨?_, ?_, ?_, ?_, closing.left⟩
  · intro running
    cases running.symm.trans fits.taken
  · intro other next found
    exact absurd found (closing.gone here other next)
  · intro one other p q found
    exact absurd found (closing.gone here one p)
  · intro _ _
    refine ⟨fits.closed, fits.released, (fits.reports_eq rfl).2, ?_⟩
    intro runner member
    obtain ⟨j, there⟩ := List.getElem?_of_mem member
    obtain ⟨other, found, ended⟩ := fits.left j (List.getElem?_eq_some_iff.mp there).1
    change s.runners[j]? = _ at there
    rw [there] at found
    cases found
    exact ended

theorem shutdown (closing : Closing s) (here : s.calls.get? call = some (.shutdown stage))
    (move : ShutdownMove s call stage t events) : Closing t := by
  have fits := closing.during call stage here
  have outlasts := move.outlasts
  cases move with
  | close =>
    refine closing.proceed here rfl ?_ ?_
    · exact .early fits.taken rfl fits.released rfl rfl rfl
    · intro worker member finished
      exact ⟨rfl, (closing.left worker member finished).2⟩
  | wakeWorkers =>
    refine closing.proceed here rfl ?_ ?_
    · exact .early fits.taken fits.closed fits.released rfl rfl rfl
    · intro worker member finished
      obtain ⟨old, was, rfl⟩ := List.mem_map.mp member
      refine closing.left old was ?_
      obtain ⟨phase, report⟩ := old
      cases phase <;> first | exact finished | cases finished
  | wakeStations =>
    refine closing.proceed here rfl ?_ closing.left
    exact .early fits.taken fits.closed fits.released rfl rfl rfl
  | join there => exact closing.proceed here rfl (fits.join there rfl call) closing.left
  | joinDead there => exact closing.proceed here rfl (fits.join there rfl call) closing.left
  | @joined reports done =>
    refine closing.proceed here rfl ?_ closing.left
    refine ⟨fits.taken, fits.closed, fits.released, fits.joined, ?_, by simp [ShutdownPhase.left]⟩
    intro _
    have beyond := List.getElem?_eq_none_iff.mp done
    exact Nat.le_antisymm fits.joined_le beyond
  | release =>
    refine closing.proceed here rfl ?_ closing.left
    exact ⟨fits.taken, fits.closed, rfl, fits.joined, fun _ => fits.unmanned rfl,
      by simp [ShutdownPhase.left]⟩
  | wakeReleased =>
    refine closing.proceed here rfl ?_ closing.left
    exact ⟨fits.taken, fits.closed, fits.released, fits.joined, fun _ => fits.unmanned rfl,
      by simp [ShutdownPhase.left]⟩
  | @joinRunner done runner more reports there ended =>
    refine closing.proceed here rfl (fits.joinRunner there ?_ call) closing.left
    rcases ended with ⟨phase, _⟩ | ⟨phase, _⟩
    all_goals
      rw [phase]
      rfl
  | runnersJoined all =>
    refine closing.proceed here rfl ?_ closing.left
    refine ⟨fits.taken, fits.closed, fits.released, fits.joined, fun _ => fits.unmanned rfl, ?_⟩
    intro j below
    have beyond := List.getElem?_eq_none_iff.mp all
    exact fits.left j (Nat.lt_of_lt_of_le below beyond)
  | stop =>
    refine closing.proceed here rfl ?_ closing.left
    exact ⟨fits.taken, fits.closed, fits.released, fits.joined, fun _ => fits.unmanned rfl, fits.left⟩
  | finish => exact closing.finish here

theorem step (closing : Closing s) (step : Transition s action t events) : Closing t := by
  cases step with
  | worker here move => exact closing.worker here move
  | runner here move => exact closing.runner here move
  | shutdown here move => exact closing.shutdown here move
  | client move =>
    by_cases no : ∀ call, action = .shutdown call → s.running = false
    · exact closing.client move no
    · cases move with
      | shutdown _ running => exact closing.begun running _
      | shutdownAgain _ taken => exact absurd (fun _ _ => taken) no
      | _ => exact absurd (by simp) no

theorem run (closing : Closing s) (run : Run s actions events t) : Closing t := by
  induction run with
  | start => exact closing
  | next _ ran ih => exact ih.step (transition_of_step ran)

end Closing

-- The call that released the stations is under way, or has returned.
theorem Closing.released_by (closing : Closing s) (released : s.board.released = true) :
    (∃ call stage, s.calls.get? call = some (.shutdown stage) ∧ stage.released = true) ∨
      s.running = false ∧ ∀ call stage, s.calls.get? call ≠ some (.shutdown stage) := by
  cases running : s.running with
  | true =>
    rw [(closing.before running).2.1] at released
    cases released
  | false =>
    by_cases under : ∃ call stage, s.calls.get? call = some (.shutdown stage)
    · obtain ⟨call, stage, here⟩ := under
      exact .inl ⟨call, stage, here, (closing.during call stage here).released ▸ released⟩
    · exact .inr ⟨rfl, fun call stage here => under ⟨call, stage, here⟩⟩

-- Once the stations are released every worker has ended.
theorem Closing.deserted (closing : Closing s) (released : s.board.released = true) :
    ∀ worker ∈ s.workers, worker.phase.ended = true := by
  rcases closing.released_by released with ⟨call, stage, here, free⟩ | ⟨off, returned⟩
  · refine ((closing.during call stage here).reports_eq ?_).2
    cases stage <;> first | rfl | cases free
  · exact (closing.after off returned).2.2.1

theorem Closing.closed_of_released (closing : Closing s) (released : s.board.released = true) :
    s.board.closed = true := by
  rcases closing.released_by released with ⟨call, stage, here, free⟩ | ⟨off, returned⟩
  · rw [(closing.during call stage here).closed]
    cases stage <;> first | rfl | cases free
  · exact (closing.after off returned).1

theorem Run.crew (run : Run s actions events t) :
    t.workers.length = s.workers.length ∧ t.runners.length = s.runners.length := by
  induction run with
  | start => exact ⟨rfl, rfl⟩
  | next _ ran ih =>
    have outlasts := (transition_of_step ran).outlasts
    exact ⟨outlasts.crew.trans ih.1, outlasts.staff.trans ih.2⟩

-- A call of `shutdown` that goes on makes the move of its point.
theorem shutdown_of_step (here : s.calls.get? call = some (.shutdown stage))
    (ran : s.step (.client call) = some (t, events)) : ShutdownMove s call stage t events := by
  rcases (transition_of_step ran).ofClient rfl with move | ⟨_, _, same, there, move⟩
  · cases move with
    | getResult waits | getNothing waits | usePager waits => cases here.symm.trans waits
  · cases same
    cases here.symm.trans there
    exact move

theorem stage_of_reports (move : ShutdownMove s call stage t events)
    (answer : .replied call (.reports reports) ∈ events) :
    t = s.endCall call ∧ ∃ done, stage = .stopping reports done ∧ s.runners[done]? = none := by
  cases move with
  | finish all =>
    simp only [List.mem_cons, reduceCtorEq, Event.replied.injEq, Reply.reports.injEq, true_and,
      List.not_mem_nil, or_false, false_or] at answer
    subst answer
    exact ⟨rfl, _, rfl, all⟩
  | joinRunner _ ended =>
    rcases ended with ⟨_, rfl⟩ | ⟨_, rfl⟩ <;> simp at answer
  | _ => simp at answer

def Crewed (s : State) : Prop := ∀ worker ∈ s.workers, worker.phase ≠ .dead

def Staffed (s : State) : Prop := ∀ runner ∈ s.runners, runner.phase ≠ .dead

theorem Crewed.opened (stations : List String) (workers : Nat) :
    Crewed (.opened stations workers) := by
  intro worker member dead
  rw [List.eq_of_mem_replicate member] at dead
  cases dead

theorem Crewed.set (crewed : Crewed s) (workers : t.workers = s.workers.set i now)
    (alive : now.phase ≠ .dead) : Crewed t := by
  intro worker member
  rw [workers] at member
  rcases List.mem_or_eq_of_mem_set member with old | new
  · exact crewed worker old
  · exact new ▸ alive

theorem Crewed.map (crewed : Crewed s) (f : Worker → Worker) (workers : t.workers = s.workers.map f)
    (alive : ∀ worker, worker.phase ≠ .dead → (f worker).phase ≠ .dead) : Crewed t := by
  intro worker member
  rw [workers] at member
  obtain ⟨old, was, rfl⟩ := List.mem_map.mp member
  exact alive old (crewed old was)

theorem Crewed.same (crewed : Crewed s) (workers : t.workers = s.workers) : Crewed t := by
  rw [Crewed, workers]
  exact crewed

-- Only a station that crashes while it takes a product back kills a worker.
theorem Crewed.step (crewed : Crewed s) (step : Transition s action t events)
    (returns : ∀ i, action ≠ .returned i .crashed) : Crewed t := by
  cases step with
  | worker here move =>
    cases move with
    | dispatch => exact crewed.set (spread_setWorker ..) (by simp)
    | crash => exact absurd rfl (returns _)
    | _ => exact crewed.set rfl (by simp)
  | runner _ move => exact crewed.same move.workers.1
  | client move =>
    cases move with
    | placeWaking => exact Crewed.set (s := s.accept _) crewed rfl (by simp)
    | @collectReady _ id =>
      refine crewed.map (State.wakePickup id) rfl ?_
      intro worker alive dead
      rw [State.wakePickup_phase] at dead
      exact alive (WorkerPhase.wakePickup_eq dead (by simp))
    | usePager _ move => exact crewed.same move.frame.2.1
    | _ => exact crewed.same rfl
  | shutdown _ move =>
    cases move with
    | wakeWorkers =>
      refine crewed.map State.wakeWorker rfl ?_
      intro worker alive dead
      rw [State.wakeWorker_phase] at dead
      exact alive (WorkerPhase.wake_eq dead (by simp))
    | _ => exact crewed.same rfl

theorem Crewed.run (crewed : Crewed s) (run : Run s actions events t)
    (returns : ∀ i, .returned i .crashed ∉ actions) : Crewed t := by
  induction run with
  | start => exact crewed
  | next _ ran ih =>
    refine (ih fun i member => returns i (List.mem_append_left _ member)).step
      (transition_of_step ran) ?_
    rintro i rfl
    exact returns i (by simp)

end Kitchen.Engine
