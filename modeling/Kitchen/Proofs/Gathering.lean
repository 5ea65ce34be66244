import Kitchen.Proofs.Resolutions
import Kitchen.Proofs.Stranding

-- What a worker has of its order: of each place that it has heard of, the product that the place's job
-- gave, if the job gave one, and nothing else.

namespace Kitchen.Engine

variable {s t : State} {action : Action} {actions : List Action} {events : List Event}
  {call : CallId} {id : OrderId} {i j n : Nat} {report : Report} {order other : Order}
  {made more : Tray} {failed less position : Nat} {phase old : WorkerPhase} {was : RunnerPhase}
  {stations : List String} {workers : Nat} {ref : JobRef}
  {spoken now : JobRef → List (Option JobResult)}

def share (spoken : JobRef → List (Option JobResult)) (order : Order) (position : Nat) :
    Option (String × Item) :=
  match order.products[position]?, spoken ⟨order.id, position⟩ with
  | some product, [some (.made item)] => some (product, item)
  | _, _ => none

-- What the jobs of the first `n` places gave.
def gathered (spoken : JobRef → List (Option JobResult)) (order : Order) (n : Nat) : Tray :=
  (List.range n).filterMap (share spoken order)

theorem share_eq_some : share spoken order position = some (product, item) ↔
    order.products[position]? = some product ∧
      spoken ⟨order.id, position⟩ = [some (.made item)] := by
  unfold share
  split
  next found told => simp_all
  next differ =>
    constructor
    · intro none
      cases none
    · rintro ⟨found, told⟩
      exact absurd told (differ product item found)

theorem gathered_succ (spoken : JobRef → List (Option JobResult)) (order : Order) (n : Nat) :
    gathered spoken order (n + 1) = gathered spoken order n ++ (share spoken order n).toList := by
  rw [gathered, List.range_succ, List.filterMap_append]
  cases gave : share spoken order n <;> simp [gathered, gave]

theorem gathered_le (spoken : JobRef → List (Option JobResult)) (order : Order) (n : Nat) :
    (gathered spoken order n).length ≤ n := by
  have short := List.length_filterMap_le (share spoken order) (List.range n)
  rwa [List.length_range] at short

-- Where every place gave a product, each stands at its place.
theorem gathered_full (full : (gathered spoken order n).length = n) (inside : position < n) :
    ∃ product item, share spoken order position = some (product, item) ∧
      (gathered spoken order n)[position]? = some (product, item) := by
  induction n with
  | zero => exact absurd inside (Nat.not_lt_zero _)
  | succ n ih =>
    have few := gathered_le spoken order n
    rw [gathered_succ, List.length_append] at full
    rw [gathered_succ]
    cases gave : share spoken order n with
    | none =>
      rw [gave] at full
      simp only [Option.toList_none, List.length_nil] at full
      omega
    | some entry =>
      rw [gave] at full
      simp only [Option.toList_some, List.length_singleton] at full
      have before : (gathered spoken order n).length = n := by omega
      by_cases last : position = n
      · subst last
        refine ⟨entry.1, entry.2, gave, ?_⟩
        rw [List.getElem?_append_right (by omega)]
        simp [before]
      · obtain ⟨product, item, shared, there⟩ := ih before (by omega)
        refine ⟨product, item, shared, ?_⟩
        rw [List.getElem?_append_left (by omega)]
        exact there

theorem gathered_short (short : (gathered spoken order n).length < n) :
    ∃ position, position < n ∧ share spoken order position = none := by
  induction n with
  | zero => exact absurd short (Nat.not_lt_zero _)
  | succ n ih =>
    cases gave : share spoken order n with
    | none => exact ⟨n, Nat.lt_succ_self n, gave⟩
    | some entry =>
      rw [gathered_succ, gave, List.length_append] at short
      obtain ⟨position, inside, none⟩ := ih (by simpa using short)
      exact ⟨position, by omega, none⟩

-- What is said of the first `n` places settles what they give.
theorem gathered_congr (settled : ∀ position, position < n →
    now ⟨order.id, position⟩ = spoken ⟨order.id, position⟩) :
    gathered now order n = gathered spoken order n := by
  refine List.filterMap_congr fun position inside => ?_
  rw [share, share, settled position (List.mem_range.mp inside)]

-- The order and the places of it that a worker has heard of.
def WorkerPhase.heard? : WorkerPhase → Option (Order × Nat)
  | .awaiting order made failed => some (order, made.length + failed)
  | .holding order _ _ | .delivering order _ => some (order, order.products.length)
  | _ => none

def WorkerPhase.complete : WorkerPhase → Prop
  | .holding order made _ | .delivering order made => made.length = order.products.length
  | _ => True

structure Gathers (spoken : JobRef → List (Option JobResult)) (phase : WorkerPhase) : Prop where
  told : ∀ order n, phase.heard? = some (order, n) → phase.tray = gathered spoken order n ∧
    ∀ position, position < n → spoken ⟨order.id, position⟩ ≠ []
  complete : phase.complete

theorem Gathers.mono (gathers : Gathers spoken phase)
    (stays : ∀ ref, spoken ref ≠ [] → now ref = spoken ref) : Gathers now phase := by
  refine ⟨?_, gathers.complete⟩
  intro order n heard
  obtain ⟨tray, told⟩ := gathers.told order n heard
  have same := fun position inside => stays _ (told position inside)
  refine ⟨tray.trans (gathered_congr same).symm, ?_⟩
  intro position inside
  rw [same position inside]
  exact told position inside

theorem Gathers.idle (unheard : phase.heard? = none) (complete : phase.complete) :
    Gathers spoken phase := by
  refine ⟨fun order n heard => ?_, complete⟩
  rw [unheard] at heard
  cases heard

-- A worker hears of the next place.
theorem Gathers.hear (gathers : Gathers spoken (.awaiting order made failed))
    (told : spoken ⟨order.id, made.length + failed⟩ ≠ [])
    (tray : more = made ++ (share spoken order (made.length + failed)).toList)
    (next : more.length + less = made.length + failed + 1) :
    Gathers spoken (.awaiting order more less) := by
  refine ⟨?_, trivial⟩
  rintro _ _ ⟨⟩
  obtain ⟨before, heard⟩ := gathers.told order _ rfl
  refine ⟨?_, ?_⟩
  · rw [next, gathered_succ, ← before]
    exact tray
  · intro position inside
    by_cases last : position = made.length + failed
    · exact last ▸ told
    · exact heard position (by omega)

-- A signal that is closed before its worker has heard of the job stands for a job that was abandoned.
structure Gathering (spoken : JobRef → List (Option JobResult)) (s : State) : Prop where
  gathers : ∀ (i : Nat) (phase : WorkerPhase), s.phases[i]? = some phase → Gathers spoken phase
  unheard : ∀ (i : Nat) (order : Order) (made : Tray) (failed : Nat),
    s.phases[i]? = some (.awaiting order made failed) → ∀ position heard,
      made.length + failed ≤ position →
      s.jobs.get? ⟨order.id, position⟩ = some ⟨.closed, heard⟩ →
      spoken ⟨order.id, position⟩ = [none]

namespace Gathering

theorem opened (stations : List String) (workers : Nat) :
    Gathering (said [] []) (.opened stations workers) := by
  refine ⟨?_, by simp [State.opened]⟩
  intro i phase found
  cases State.phases_opened found
  exact .idle rfl trivial

theorem map (all : Gathering spoken s) (f : WorkerPhase → WorkerPhase)
    (crew : t.phases = s.phases.map f) (signals : t.jobs = s.jobs)
    (same : ∀ phase, (f phase).heard? = phase.heard? ∧ (f phase).tray = phase.tray ∧
      ((f phase).complete ↔ phase.complete))
    (only : ∀ phase order made failed, f phase = .awaiting order made failed →
      phase = .awaiting order made failed) : Gathering spoken t := by
  refine ⟨?_, ?_⟩
  · intro i phase found
    rw [crew, List.getElem?_map] at found
    obtain ⟨before, there, rfl⟩ := Option.map_eq_some_iff.mp found
    have gathers := all.gathers i before there
    obtain ⟨heard, tray, complete⟩ := same before
    exact ⟨heard ▸ tray ▸ gathers.told, complete.mpr gathers.complete⟩
  · intro i order made failed found
    rw [crew, List.getElem?_map] at found
    obtain ⟨before, there, equal⟩ := Option.map_eq_some_iff.mp found
    rw [signals]
    exact all.unheard i order made failed (only before order made failed equal ▸ there)

theorem same (all : Gathering spoken s) (workers : t.workers = s.workers) (signals : t.jobs = s.jobs) :
    Gathering spoken t :=
  all.map id (by rw [State.phases, State.phases, workers, List.map_id]) signals
    (fun _ => ⟨rfl, rfl, Iff.rfl⟩) (fun _ _ _ _ => id)

-- A worker goes on to something else than waiting.
theorem set (all : Gathering spoken s) (crew : t.phases = s.phases.set i phase)
    (signals : t.jobs = s.jobs) (gathers : Gathers spoken phase)
    (busy : ∀ order made failed, phase ≠ .awaiting order made failed) : Gathering spoken t := by
  refine ⟨?_, ?_⟩
  · intro j q found
    rcases getElem?_set_cases (crew ▸ found) with ⟨_, rfl⟩ | ⟨_, before⟩
    · exact gathers
    · exact all.gathers j q before
  · intro j order made failed found
    rcases getElem?_set_cases (crew ▸ found) with ⟨_, mine⟩ | ⟨_, before⟩
    · exact absurd mine.symm (busy order made failed)
    · rw [signals]
      exact all.unheard j order made failed before

-- A worker hears of the place for which it waits. The others wait for jobs of other orders.
theorem hear {heard : Bool} (all : Gathering spoken s) (orders : Orders s)
    (here : s.phases[i]? = some (.awaiting order made failed))
    (crew : t.phases = s.phases.set i (.awaiting order more less))
    (signals : t.jobs = s.jobs.insert ⟨order.id, made.length + failed⟩ ⟨.closed, heard⟩)
    (told : spoken ⟨order.id, made.length + failed⟩ ≠ [])
    (tray : more = made ++ (share spoken order (made.length + failed)).toList)
    (next : more.length + less = made.length + failed + 1) : Gathering spoken t := by
  refine ⟨?_, ?_⟩
  · intro j q found
    rcases getElem?_set_cases (crew ▸ found) with ⟨_, rfl⟩ | ⟨_, before⟩
    · exact (all.gathers i _ here).hear told tray next
    · exact all.gathers j q before
  · intro j other gone lost found position heard beyond closed
    rw [signals, Table.get?_insert] at closed
    rcases getElem?_set_cases (crew ▸ found) with ⟨_, mine⟩ | ⟨differ, before⟩
    · cases mine
      rw [if_neg (by simp only [JobRef.mk.injEq]; omega)] at closed
      exact all.unheard i order made failed here position heard (by omega) closed
    · split at closed
      next same =>
        have alike := (congrArg JobRef.order same).symm
        exact absurd (orders.roster.apart j i _ _ other order before here rfl rfl alike) differ
      next => exact all.unheard j other gone lost before position heard beyond closed

-- Of an order that was just spread nothing is known yet.
theorem dispatch (all : Gathering spoken s) (jobs : Jobs s)
    (here : s.phases[i]? = some (.claimed order))
    (spread : Spread s t order.id 0 order.products)
    (crew : t.phases = s.phases.set i (.awaiting order [] 0)) : Gathering spoken t := by
  refine ⟨?_, ?_⟩
  · intro j q found
    rcases getElem?_set_cases (crew ▸ found) with ⟨_, rfl⟩ | ⟨_, before⟩
    · refine ⟨?_, trivial⟩
      rintro _ _ ⟨⟩
      exact ⟨rfl, fun position inside => absurd inside (Nat.not_lt_zero _)⟩
    · exact all.gathers j q before
  · intro j other made failed found position heard beyond closed
    rw [spread.signals] at closed
    split at closed
    · cases closed
    next outside =>
      rcases getElem?_set_cases (crew ▸ found) with ⟨_, mine⟩ | ⟨_, before⟩
      · cases mine
        rw [jobs.unknown here rfl] at closed
        cases closed
      · exact all.unheard j other made failed before position heard beyond closed

theorem worker (all : Gathering spoken s) (said : Said spoken s) (jobs : Jobs s) (orders : Orders s)
    (stock : Stock stations s) (there : s.workers[i]? = some ⟨old, report⟩)
    (move : WorkerMove s i report old action t events) : Gathering spoken t := by
  have here := State.phases_of there
  have gathers := all.gathers i old here
  cases move with
  | @dispatch order =>
    have known := stock.held _ (List.mem_of_getElem? there) order rfl
    obtain ⟨_, signals, queued, carried, queue⟩ := spread_spread stock known
    exact all.dispatch jobs here ⟨signals, queued, carried, queue⟩ (State.phases_spread ..)
  | receive wanted job =>
    have told := Spoken.held (job ▸ said _)
    refine all.hear orders here (State.phases_setWorker ..) rfl (by simp [told]) ?_ (by simp; omega)
    rw [share_eq_some.mpr ⟨wanted, told⟩]
    rfl
  | hearBreak wanted job =>
    have told := Spoken.held (job ▸ said _)
    refine all.hear orders here (State.phases_setWorker ..) rfl (by simp [told]) ?_ rfl
    simp [share, told]
  | hearNothing wanted job =>
    have told := all.unheard i _ _ _ here _ _ (Nat.le_refl _) job
    refine all.hear orders here (State.phases_setWorker ..) rfl (by simp [told]) ?_ rfl
    simp [share, told]
  | hold done =>
    obtain ⟨tray, told⟩ := gathers.told _ _ rfl
    have whole := Nat.le_antisymm (jobs.posted i _ _ 0 here).1 (List.getElem?_eq_none_iff.mp done)
    refine all.set (State.phases_setWorker ..) rfl ⟨?_, whole⟩ (by simp)
    rintro _ _ ⟨⟩
    rw [← whole]
    exact ⟨tray, told⟩
  | holdOn | collected =>
    refine all.set (State.phases_setWorker ..) rfl ⟨?_, gathers.complete⟩ (by simp)
    rintro _ _ ⟨⟩
    exact gathers.told _ _ rfl
  | _ => exact all.set (State.phases_setWorker ..) rfl (.idle rfl trivial) (by simp)

-- A runner speaks of jobs of which nothing was said, so that no worker has heard of them.
theorem runner {calls : Nat} {dropped : List JobRef} {more : List Event}
    (all : Gathering (said events dropped) s) (spoke : Said (said events dropped) s) (jobs : Jobs s)
    (here : s.runners[i]? = some ⟨station, was, out, calls⟩)
    (move : RunnerMove s i station out calls was action t more) :
    Gathering (said (events ++ more) (dropped ++ s.abandons action)) t := by
  have crew : t.phases = s.phases := by rw [State.phases, State.phases, move.workers.1]
  rcases runner_speaks jobs here move with ⟨silent, signals⟩ |
      ⟨job, has, word, content, speaks, signals, fits⟩
  · rw [said_silent silent]
    exact all.same move.workers.1 signals
  · have nothing := spoke.nothing_said (jobs.waiting_carried (List.mem_of_getElem? here) has)
    have others : ∀ ref, job.slot ≠ ref →
        said (events ++ more) (dropped ++ s.abandons action) ref = said events dropped ref := by
      intro ref differ
      refine said_quiet ?_
      rw [← words, speaks, if_neg differ]
    refine ⟨?_, ?_⟩
    · intro j phase found
      refine (all.gathers j phase (crew ▸ found)).mono ?_
      intro ref told
      refine others ref ?_
      rintro rfl
      exact told nothing
    · intro j order made failed found position heard beyond closed
      rw [signals] at closed
      split at closed
      next same =>
        rw [← same, said_first nothing, ← words, speaks, if_pos rfl]
        cases word <;> cases fits
        · rfl
        · cases closed
      next differ =>
        rw [others _ differ]
        exact all.unheard j order made failed (crew ▸ found) position heard beyond closed

theorem client (all : Gathering spoken s) (move : ClientMove s action t events) :
    Gathering spoken t := by
  cases move with
  | @placeWaking products i report _ _ sleeper =>
    have before : Gathering spoken (s.accept products) := all.same rfl rfl
    exact before.set (State.phases_setWorker ..) rfl (.idle rfl trivial) (by simp)
  | @collectReady _ id =>
    refine all.map (·.wakePickup id) (State.phases_notifyPickup _ id) rfl ?_
      (fun _ _ _ _ equal => WorkerPhase.wakePickup_eq equal (by simp))
    intro phase
    cases phase <;> exact ⟨rfl, rfl, Iff.rfl⟩
  | usePager _ move => exact all.same move.frame.2.1 move.frame.2.2.2.1
  | _ => exact all.same rfl rfl

theorem shutdown (all : Gathering spoken s) (move : ShutdownMove s call stage t events) :
    Gathering spoken t := by
  cases move with
  | wakeWorkers =>
    refine all.map (·.wake) (State.phases_wakeAllWorkers s) rfl ?_
      (fun _ _ _ _ equal => WorkerPhase.wake_eq equal (by simp))
    intro phase
    cases phase <;> exact ⟨rfl, rfl, Iff.rfl⟩
  | _ => exact all.same rfl rfl

theorem step {dropped : List JobRef} {more : List Event} (all : Gathering (said events dropped) s)
    (spoke : Said (said events dropped) s) (steady : Steady stations s)
    (step : Transition s action t more) :
    Gathering (said (events ++ more) (dropped ++ s.abandons action)) t := by
  have silent : s.abandons action = [] → resolutions more = [] →
      Gathering (said events dropped) t →
      Gathering (said (events ++ more) (dropped ++ s.abandons action)) t := by
    intro quiet nothing still
    rw [said_silent (words_nothing quiet nothing)]
    exact still
  cases step with
  | worker here move =>
    exact silent (worker_abandons move) (worker_resolves steady.stock here move)
      (all.worker spoke steady.jobs steady.orders steady.stock here move)
  | runner here move => exact all.runner spoke steady.jobs here move
  | client move => exact silent (client_abandons move) (client_resolves move) (all.client move)
  | shutdown _ move => exact silent rfl (shutdown_resolves move) (all.shutdown move)

theorem run (apart : stations.Nodup) (run : Run (.opened stations workers) actions events t) :
    Gathering (said events ((State.opened stations workers).abandoned actions)) t := by
  induction run with
  | start => exact opened stations workers
  | next before ran ih =>
    rw [abandoned_next before]
    exact ih.step (Said.run before) (Steady.opened apart before) (transition_of_step ran)

end Gathering

end Kitchen.Engine
