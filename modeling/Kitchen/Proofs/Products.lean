import Kitchen.Proofs.Jobs
import Kitchen.Proofs.Traces

-- Where the products are. What a station made is in its runner's hand, in the signal of its job,
-- with a worker, on its way to one client, with a client, or back at a station, and in one of these
-- places only.

namespace Kitchen.Engine

variable {s t : State} {action : Action} {actions : List Action} {events more : List Event}
  {call c : CallId} {id : OrderId} {i : Nat} {report : Report} {order : Order}
  {phase old : WorkerPhase} {was : RunnerPhase} {stations : List String}

abbrev Ware := OrderId × Item

-- The product that a runner has made and not handed over.
def RunnerPhase.hand : RunnerPhase → List Ware
  | .holding job item => [(job.slot.order, item)]
  | _ => []

def jobWare (entry : JobRef × Signal JobResult) : List Ware :=
  match entry.2.content with
  | .holding (.made item) => [(entry.1.order, item)]
  | _ => []

-- The products that a worker has, with their names.
def WorkerPhase.tray : WorkerPhase → Tray
  | .awaiting _ made _ | .holding _ made _ | .delivering _ made => made
  | .returning _ _ rest | .handingBack _ _ _ _ rest => rest
  | _ => []

def WorkerPhase.wares (phase : WorkerPhase) : List Ware :=
  match phase.order? with
  | some order => phase.tray.map fun entry => (order.id, entry.2)
  | none => []

-- The products on their way to the client who collects the order.
def resultWares (entry : OrderId × Signal Outcome) : List Ware :=
  match entry.2.content with
  | .holding (.meal items) => items.map fun item => (entry.1, item)
  | _ => []

namespace State

def inHands (s : State) : List Ware := s.runners.flatMap (·.phase.hand)

def inSignals (s : State) : List Ware := s.jobs.entries.flatMap jobWare

def withWorkers (s : State) : List Ware := s.workers.flatMap (·.phase.wares)

def inTransit (s : State) : List Ware := s.results.entries.flatMap resultWares

-- All products inside the kitchen.
def wares (s : State) : List Ware := s.inHands ++ s.inSignals ++ s.withWorkers ++ s.inTransit

def makes (s : State) : Action → List (JobRef × Item)
  | .produced index (.made product) =>
    match s.runners[index]? with
    | some ⟨station, .producing job, _, calls⟩ => [(job.slot, ⟨station, calls - 1, product⟩)]
    | _ => []
  | _ => []

def delivers (s : State) : Action → List (CallId × OrderId × List Item)
  | .client call =>
    match s.calls.get? call with
    | some (.collecting id) =>
      match s.results.get? id with
      | some ⟨.holding (.meal items), _⟩ => [(call, id, items)]
      | _ => []
    | _ => []
  | _ => []

def givesBack (s : State) : Action → List Ware
  | .worker index =>
    match s.workers[index]? with
    | some ⟨.returning order _ ((product, item) :: _), _⟩ =>
      if s.hasStation product then [(order.id, item)] else []
    | _ => []
  | _ => []

def production (s : State) (actions : List Action) : List (JobRef × Item) :=
  along State.makes s actions

def deliveries (s : State) (actions : List Action) : List (CallId × OrderId × List Item) :=
  along State.delivers s actions

def givenBack (s : State) (actions : List Action) : List Ware := along State.givesBack s actions

end State

theorem production_next (run : Run s actions events t) (action : Action) :
    s.production (actions ++ [action]) = s.production actions ++ t.makes action :=
  along_next State.makes run action

theorem deliveries_next (run : Run s actions events t) (action : Action) :
    s.deliveries (actions ++ [action]) = s.deliveries actions ++ t.delivers action :=
  along_next State.delivers run action

theorem givenBack_next (run : Run s actions events t) (action : Action) :
    s.givenBack (actions ++ [action]) = s.givenBack actions ++ t.givesBack action :=
  along_next State.givesBack run action

def ordered (made : List (JobRef × Item)) : List Ware := made.map fun entry => (entry.1.order, entry.2)

def eaten (meals : List (CallId × OrderId × List Item)) : List Ware :=
  meals.flatMap fun meal => meal.2.2.map fun item => (meal.2.1, item)

variable {ware : Ware}

def State.amount (s : State) (ware : Ware) : Nat :=
  total (s.runners.map fun runner => runner.phase.hand.count ware) +
    s.jobs.sum (fun entry => (jobWare entry).count ware) +
    total (s.workers.map fun worker => worker.phase.wares.count ware) +
    s.results.sum (fun entry => (resultWares entry).count ware)

theorem count_wares (s : State) (ware : Ware) : s.wares.count ware = s.amount ware := by
  simp only [State.wares, State.inHands, State.inSignals, State.withWorkers, State.inTransit,
    List.count_append, count_flatMap_total]
  rfl

-- Workers have only what the stations make, each under the name of its station.
def Trays (stations : List String) (s : State) : Prop :=
  ∀ (i : Nat) (phase : WorkerPhase), s.phases[i]? = some phase →
    ∀ entry ∈ phase.tray, entry.2.maker = entry.1 ∧ entry.1 ∈ stations

namespace Trays

theorem opened (stations : List String) (workers : Nat) :
    Trays stations (.opened stations workers) := by
  intro i phase found
  cases State.phases_opened found
  simp [WorkerPhase.tray]

theorem set (trays : Trays stations s) (here : s.phases[i]? = some old)
    (crew : t.phases = s.phases.set i phase)
    (known : ∀ entry ∈ phase.tray,
      entry ∈ old.tray ∨ entry.2.maker = entry.1 ∧ entry.1 ∈ stations) : Trays stations t := by
  intro j q found entry member
  rcases getElem?_set_cases (crew ▸ found) with ⟨_, rfl⟩ | ⟨_, there⟩
  · rcases known entry member with before | right
    · exact trays i old here entry before
    · exact right
  · exact trays j q there entry member

theorem map (trays : Trays stations s) (f : WorkerPhase → WorkerPhase)
    (crew : t.phases = s.phases.map f) (same : ∀ phase, (f phase).tray = phase.tray) :
    Trays stations t := by
  intro j q found entry member
  rw [crew, List.getElem?_map, Option.map_eq_some_iff] at found
  obtain ⟨p, was, rfl⟩ := found
  rw [same] at member
  exact trays j p was entry member

theorem same (trays : Trays stations s) (workers : t.workers = s.workers) : Trays stations t := by
  have crew : t.phases = s.phases := by rw [State.phases, State.phases, workers]
  rw [Trays, crew]
  exact trays

end Trays

theorem wake_tray (phase : WorkerPhase) : phase.wake.tray = phase.tray := by
  cases phase <;> rfl

theorem wakePickup_tray (id : OrderId) (phase : WorkerPhase) :
    (phase.wakePickup id).tray = phase.tray := by
  cases phase <;> rfl

theorem Jobs.maker {heard : Bool} (jobs : Jobs s) (orders : Orders s)
    (here : s.phases[i]? = some (.awaiting order made failed))
    (wanted : order.products[made.length + failed]? = some product)
    (job : s.jobs.get? ⟨order.id, made.length + failed⟩ = some ⟨.holding (.made item), heard⟩) :
    item.maker = product := by
  obtain ⟨j, other, tray, missed, there, named, _, sought⟩ := jobs.answered _ _ _ job
  have mine := orders.roster.apart i j _ _ order other here there rfl rfl named.symm
  subst mine
  rw [here] at there
  cases there
  exact Option.some.inj (sought.symm.trans wanted)

theorem Trays.worker (trays : Trays stations s) (stock : Stock stations s) (orders : Orders s)
    (jobs : Jobs s) (here : s.workers[i]? = some ⟨old, report⟩)
    (move : WorkerMove s i report old action t events) : Trays stations t := by
  have place := State.phases_of here
  have kept : ∀ {u : State} {phase : WorkerPhase} {later : Report},
      u.workers = s.workers.set i ⟨phase, later⟩ → u.phases = s.phases.set i phase := by
    intro u phase later workers
    rw [State.phases, workers, List.map_set]
    rfl
  cases move with
  | dispatch => exact trays.set place (kept (spread_setWorker ..)) (by simp [WorkerPhase.tray])
  | receive wanted job =>
    refine trays.set place (kept rfl) ?_
    intro entry member
    rcases List.mem_append.mp member with before | new
    · exact .inl before
    · cases List.mem_singleton.mp new
      exact .inr ⟨jobs.maker orders place wanted job,
        stock.held _ (List.mem_of_getElem? here) _ rfl _ (List.mem_of_getElem? wanted)⟩
  | handBack | skip =>
    exact trays.set place (kept rfl) fun entry member => .inl (List.mem_cons_of_mem _ member)
  | claim | leave | rest | start | tell | deliver | crash =>
    exact trays.set place (kept rfl) (by simp [WorkerPhase.tray])
  | _ => exact trays.set place (kept rfl) fun _ member => .inl member

theorem Trays.step (trays : Trays stations s) (stock : Stock stations s) (orders : Orders s)
    (jobs : Jobs s) (step : Transition s action t events) : Trays stations t := by
  cases step with
  | worker here move => exact trays.worker stock orders jobs here move
  | runner _ move => exact trays.same move.workers.1
  | client move =>
    cases move with
    | placeWaking _ _ sleeper =>
      exact trays.set (State.phases_of sleeper) (State.phases_setWorker ..) (by simp [WorkerPhase.tray])
    | @collectReady _ id =>
      exact trays.map (·.wakePickup id) (State.phases_notifyPickup _ id) (wakePickup_tray id)
    | usePager _ move => exact trays.same move.frame.2.1
    | _ => exact trays.same rfl
  | shutdown _ move =>
    cases move with
    | wakeWorkers => exact trays.map (·.wake) (State.phases_wakeAllWorkers s) wake_tray
    | _ => exact trays.same rfl

theorem Trays.run (trays : Trays stations s) (stock : Stock stations s) (orders : Orders s)
    (jobs : Jobs s) (run : Run s actions events t) : Trays stations t := by
  induction run with
  | start => exact trays
  | next before ran ih =>
    exact ih.step (stock.run before) (orders.run before) (jobs.run stock orders before)
      (transition_of_step ran)

def State.signalled (s : State) (ware : Ware) : Nat :=
  s.jobs.sum fun entry => (jobWare entry).count ware

def State.sent (s : State) (ware : Ware) : Nat :=
  s.results.sum fun entry => (resultWares entry).count ware

theorem amount_worker (here : s.workers[i]? = some ⟨old, report⟩)
    (workers : t.workers = s.workers.set i ⟨phase, later⟩) (runners : t.runners = s.runners)
    (signals : t.signalled ware + a = s.signalled ware + b)
    (results : t.sent ware + c = s.sent ware + d)
    (balance : phase.wares.count ware + b + d + gone = old.wares.count ware + a + c) :
    t.amount ware + gone = s.amount ware := by
  have moved := total_set (f := fun worker : Worker => worker.phase.wares.count ware) here
    ⟨phase, later⟩
  simp only [State.signalled, State.sent] at signals results moved
  simp only [State.amount, workers, runners]
  omega

theorem amount_keep (here : s.workers[i]? = some ⟨old, report⟩)
    (workers : t.workers = s.workers.set i ⟨phase, later⟩) (runners : t.runners = s.runners)
    (signals : t.jobs = s.jobs) (results : t.results = s.results)
    (same : phase.wares = old.wares) : t.amount ware = s.amount ware := by
  have moved : t.amount ware + 0 = s.amount ware := by
    refine amount_worker (a := 0) (b := 0) (c := 0) (d := 0) here workers runners ?_ ?_ ?_
    · rw [State.signalled, State.signalled, signals]
    · rw [State.sent, State.sent, results]
    · rw [same]
  exact moved

theorem signalled_hear {heard : Bool} (found : s.jobs.get? ref = some ⟨content, heard⟩)
    (ware : Ware) : (s.hearJob ref heard).signalled ware +
      (jobWare (ref, ⟨content, heard⟩)).count ware = s.signalled ware := by
  have moved := Table.sum_insert found ⟨.closed, heard⟩ fun entry => (jobWare entry).count ware
  exact moved

theorem sent_resolve (fresh : s.results.get? id = some .fresh) (outcome : Outcome) (ware : Ware) :
    (s.resolveResult id outcome).sent ware =
      s.sent ware + (resultWares (id, ⟨.holding outcome, true⟩)).count ware := by
  have moved := Table.sum_modify fresh (fun signal => (signal.resolve outcome).2)
    fun entry => (resultWares entry).count ware
  exact moved

theorem signalled_dispatchFrom (s : State) (id : OrderId) (position : Nat)
    (products : List String)
    (absent : ∀ place, position ≤ place → s.jobs.get? ⟨id, place⟩ = none) (ware : Ware) :
    (s.dispatchFrom id position products).1.signalled ware = s.signalled ware := by
  induction products generalizing s position with
  | nil => rfl
  | cons product rest ih =>
    have here := absent position (Nat.le_refl _)
    have one : ∃ signal, (s.dispatchJob id position product).1.jobs =
        s.jobs.insert ⟨id, position⟩ signal ∧ jobWare (⟨id, position⟩, signal) = [] := by
      unfold State.dispatchJob
      split <;> exact ⟨_, rfl, rfl⟩
    obtain ⟨signal, jobs, empty⟩ := one
    have first : (s.dispatchJob id position product).1.signalled ware = s.signalled ware := by
      rw [State.signalled, jobs, Table.sum_insert_new here, empty]
      rfl
    rw [← first]
    refine ih (s.dispatchJob id position product).1 (position + 1) ?_
    intro place later
    rw [jobs, Table.get?_insert_of_ne]
    · exact absent place (by omega)
    · intro same
      cases same
      omega

theorem wakeRunner_hand (runner : Runner) :
    (State.wakeRunner runner).phase.hand = runner.phase.hand := by
  obtain ⟨station, phase, out, calls⟩ := runner
  cases phase <;> rfl

theorem amount_spread (jobs : Jobs s) (here : s.phases[i]? = some (.claimed order))
    (ware : Ware) : (s.spread order).1.amount ware = s.amount ware := by
  have absent : ∀ place, 0 ≤ place → s.jobs.get? ⟨order.id, place⟩ = none := by
    intro place _
    cases found : s.jobs.get? ⟨order.id, place⟩ with
    | none => rfl
    | some signal => exact absurd rfl ((jobs.young _ signal found).2 i order here)
  have signals := signalled_dispatchFrom (s.withBoard (·.setState order.id .dispatched)) order.id 0
    order.products absent ware
  obtain ⟨woken, runners⟩ := spread_runners s order
  have hands : (s.runners.map fun runner => if woken runner then State.wakeRunner runner else runner).map
      (fun runner => runner.phase.hand.count ware) =
      s.runners.map fun runner => runner.phase.hand.count ware := by
    rw [List.map_map]
    refine List.map_congr_left ?_
    intro runner _
    simp only [Function.comp_apply]
    split
    · rw [wakeRunner_hand]
    · rfl
  simp only [State.amount, spread_workers, spread_results, runners, hands]
  simp only [State.signalled] at signals
  rw [State.spread, signals]
  rfl

theorem seeks_wares (seeks : phase.seeks = true) : phase.wares = [] := by
  cases phase <;> first | rfl | cases seeks

-- Only a worker that goes through the products of an ended order gives one back.
theorem givesBack_idle (here : s.workers[i]? = some ⟨old, report⟩)
    (move : WorkerMove s i report old action t events)
    (idle : ∀ order ending entry rest, old ≠ .returning order ending (entry :: rest)) :
    s.givesBack action = [] := by
  have quiet : s.givesBack (.worker i) = [] := by
    simp only [State.givesBack, here]
    split
    next found =>
      cases found
      exact absurd rfl (idle _ _ _ _)
    next => rfl
  rcases move.own with rfl | rfl | ⟨_, rfl⟩ <;> first | exact quiet | rfl

-- Workers neither make products nor hand them to clients themselves.
theorem worker_idle (move : WorkerMove s i report old action t events) :
    s.makes action = [] ∧ s.delivers action = [] := by
  rcases move.own with rfl | rfl | ⟨_, rfl⟩ <;> exact ⟨rfl, rfl⟩

theorem runner_idle {calls : Nat} (move : RunnerMove s i station out calls was action t events) :
    s.delivers action = [] ∧ s.givesBack action = [] := by
  cases move <;> exact ⟨rfl, rfl⟩

theorem client_idle (move : ClientMove s action t events) :
    s.makes action = [] ∧ s.givesBack action = [] := by
  cases move <;> exact ⟨rfl, rfl⟩

theorem worker_amount (trays : Trays stations s) (stock : Stock stations s) (orders : Orders s)
    (jobs : Jobs s) (here : s.workers[i]? = some ⟨old, report⟩)
    (move : WorkerMove s i report old action t events) (lives : action ≠ .returned i .crashed)
    (ware : Ware) : t.amount ware + (s.givesBack action).count ware = s.amount ware := by
  have place := State.phases_of here
  have idle := givesBack_idle here move
  cases move with
  | claim seeks | leave seeks | rest seeks =>
    rw [idle (by rintro _ _ _ _ rfl; cases seeks)]
    exact amount_keep here rfl rfl rfl rfl (seeks_wares seeks).symm
  | @dispatch order =>
    rw [idle (by simp), ← amount_spread jobs place ware]
    rw [← spread_workers s order] at here
    exact amount_keep here rfl rfl rfl rfl rfl
  | receive _ job =>
    rw [idle (by simp)]
    refine amount_worker here rfl rfl (b := 0) (signalled_hear job ware) (c := 0) (d := 0) rfl ?_
    simp only [WorkerPhase.wares, WorkerPhase.tray, WorkerPhase.order?, jobWare, List.map_append,
      List.count_append, List.map_cons, List.map_nil, List.count_nil]
  | hearBreak _ job | hearNothing _ job =>
    rw [idle (by simp)]
    exact amount_worker here rfl rfl (b := 0) (signalled_hear job ware) (c := 0) (d := 0) rfl rfl
  | handBack known =>
    refine amount_worker here rfl rfl (a := 0) (b := 0) rfl (c := 0) (d := 0) rfl ?_
    simp only [State.givesBack, here, known, if_true, WorkerPhase.wares, WorkerPhase.tray,
      WorkerPhase.order?, List.map_cons, List.count_cons, List.count_nil]
    omega
  | skip unknown =>
    have known := (trays i _ place _ (List.mem_cons_self ..)).2
    rw [← stock.hasStation_iff, unknown] at known
    cases known
  | tell =>
    rw [idle (by simp)]
    have fits := orders.had i _ _ place rfl
    exact amount_worker here rfl rfl (a := 0) (b := 0) rfl (c := 0) (sent_resolve fits.2 _ ware) rfl
  | deliver =>
    rw [idle (by simp)]
    have fits := orders.had i _ _ place rfl
    refine amount_worker here rfl rfl (a := 0) (b := 0) rfl (c := 0)
      (sent_resolve fits.2.2 _ ware) ?_
    simp only [WorkerPhase.wares, WorkerPhase.tray, WorkerPhase.order?, resultWares, List.map_map,
      List.count_nil, Function.comp_def]
    omega
  | crash => exact absurd rfl lives
  | _ =>
    rw [idle (by simp)]
    exact amount_keep here rfl rfl rfl rfl rfl

theorem amount_runner {before now : Runner} (here : s.runners[i]? = some before)
    (runners : t.runners = s.runners.set i now) (workers : t.workers = s.workers)
    (results : t.results = s.results) (signals : t.signalled ware + a = s.signalled ware + b)
    (balance : now.phase.hand.count ware + b = before.phase.hand.count ware + a + extra) :
    t.amount ware = s.amount ware + extra := by
  have moved := total_set (f := fun runner : Runner => runner.phase.hand.count ware) here now
  simp only [State.signalled] at signals moved
  simp only [State.amount, workers, runners, results]
  omega

-- A job that a runner has is answered: its signal held nothing before.
theorem signalled_carried (jobs : Jobs s) (member : runner ∈ s.runners)
    (has : job ∈ runner.phase.jobs) (change : Signal JobResult → Signal JobResult) (ware : Ware) :
    State.signalled { s with jobs := s.jobs.modify job.slot change } ware =
      s.signalled ware + (jobWare (job.slot, change ⟨.waiting, true⟩)).count ware := by
  have moved := Table.sum_modify (jobs.waiting_carried member has) change
    fun entry => (jobWare entry).count ware
  exact moved

theorem seeks_hand (seeks : was.seeks = true) : was.hand = [] := by
  cases was <;> first | rfl | cases seeks

theorem runner_amount {calls : Nat} (jobs : Jobs s)
    (here : s.runners[i]? = some ⟨station, was, out, calls⟩)
    (move : RunnerMove s i station out calls was action t events) (ware : Ware) :
    t.amount ware = s.amount ware + (ordered (s.makes action)).count ware := by
  have member := List.mem_of_getElem? here
  cases move with
  | take seeks | leave seeks | rest seeks =>
    refine amount_runner here rfl rfl rfl (a := 0) (b := 0) rfl ?_
    rw [seeks_hand seeks]
    rfl
  | refuse _ result =>
    subst result
    exact amount_runner here rfl rfl rfl (a := 0)
      (signalled_carried jobs member (List.mem_singleton_self _) _ ware) rfl
  | handOver =>
    refine amount_runner here rfl rfl rfl (a := 0)
      (signalled_carried jobs member (List.mem_singleton_self _) _ ware) ?_
    simp [RunnerPhase.hand, jobWare, Signal.resolve, State.makes, ordered]
  | sweep =>
    exact amount_runner here rfl rfl rfl (a := 0)
      (signalled_carried jobs member (List.mem_cons_self ..) _ ware) rfl
  | crash =>
    refine amount_runner here rfl rfl rfl (a := 0)
      (signalled_carried jobs member (List.mem_singleton_self _) _ ware) rfl
  | make =>
    refine amount_runner here rfl rfl rfl (a := 0) (b := 0) rfl ?_
    simp [RunnerPhase.hand, State.makes, here, ordered]
  | _ => exact amount_runner here rfl rfl rfl (a := 0) (b := 0) rfl rfl

theorem amount_map (f : Worker → Worker) (g : Runner → Runner)
    (workers : t.workers = s.workers.map f) (runners : t.runners = s.runners.map g)
    (same : ∀ worker, (f worker).phase.wares = worker.phase.wares)
    (alike : ∀ runner, (g runner).phase.hand = runner.phase.hand)
    (signals : t.jobs = s.jobs) (results : t.results = s.results) :
    t.amount ware = s.amount ware := by
  simp only [State.amount, workers, runners, signals, results, List.map_map, Function.comp_def, same,
    alike]

theorem wakeWorker_wares (worker : Worker) :
    (State.wakeWorker worker).phase.wares = worker.phase.wares := by
  obtain ⟨phase, report⟩ := worker
  cases phase <;> rfl

theorem wakePickup_wares (id : OrderId) (worker : Worker) :
    (State.wakePickup id worker).phase.wares = worker.phase.wares := by
  rw [State.wakePickup_phase]
  cases worker.phase <;> rfl

theorem shutdown_amount (move : ShutdownMove s call stage t events) (ware : Ware) :
    t.amount ware = s.amount ware := by
  cases move with
  | wakeWorkers =>
    exact amount_map _ id rfl (List.map_id _).symm wakeWorker_wares (fun _ => rfl) rfl rfl
  | wakeStations | wakeReleased =>
    exact amount_map id _ (List.map_id _).symm rfl (fun _ => rfl) wakeRunner_hand rfl rfl
  | _ => rfl

-- The client takes all that is there for it.
theorem amount_heard {heard : Bool} (waits : s.calls.get? call = some (.collecting id))
    (filled : s.results.get? id = some ⟨content, heard⟩) :
    ((s.hearResult id heard).endCall call).amount ware +
      (eaten (s.delivers (.client call))).count ware = s.amount ware := by
  have moved := Table.sum_insert filled ⟨.closed, heard⟩ fun entry => (resultWares entry).count ware
  have took : eaten (s.delivers (.client call)) = resultWares (id, ⟨content, heard⟩) := by
    simp only [State.delivers, waits, filled]
    cases content with
    | holding outcome => cases outcome <;> simp [eaten, resultWares]
    | _ => rfl
  rw [took]
  simp only [State.amount, State.hearResult, State.endCall]
  simp only [resultWares, List.count_nil] at moved
  simp only [resultWares]
  omega

theorem client_amount (orders : Orders s) (move : ClientMove s action t events) (ware : Ware) :
    t.amount ware + (eaten (s.delivers action)).count ware = s.amount ware := by
  have accepted : ∀ products, (s.accept products).amount ware = s.amount ware := by
    intro products
    have blank := orders.unknown s.board.nextOrder (Nat.le_refl _)
    have absent : s.results.get? s.board.nextOrder = none := congrArg View.result blank
    have moved := Table.sum_insert_new absent .fresh fun entry => (resultWares entry).count ware
    simp only [State.amount, State.accept, moved]
    rfl
  cases move with
  | place => exact accepted _
  | placeWaking _ _ sleeper =>
    rw [← accepted]
    exact amount_keep sleeper rfl rfl rfl rfl rfl
  | collectReady =>
    exact amount_map _ id rfl (List.map_id _).symm (wakePickup_wares _) (fun _ => rfl) rfl rfl
  | getResult waits filled =>
    exact amount_heard waits filled
  | getNothing waits empty =>
    exact amount_heard waits empty
  | usePager here move =>
    obtain ⟨_, workers, runners, jobs, results, _⟩ := move.frame
    simp only [State.amount, workers, runners, jobs, results, State.delivers, here]
    rfl
  | _ => rfl

-- A step loses no product, and only a station makes one.
theorem Transition.wares (step : Transition s action t events) (trays : Trays stations s)
    (stock : Stock stations s) (orders : Orders s) (jobs : Jobs s)
    (lives : ∀ i, action ≠ .returned i .crashed) :
    (t.wares ++ eaten (s.delivers action) ++ s.givesBack action).Perm
      (s.wares ++ ordered (s.makes action)) := by
  rw [List.perm_iff_count]
  intro ware
  simp only [List.count_append, count_wares]
  cases step with
  | worker here move =>
    rw [(worker_idle move).1, (worker_idle move).2]
    exact worker_amount trays stock orders jobs here move (lives _) ware
  | runner here move =>
    rw [(runner_idle move).1, (runner_idle move).2]
    exact runner_amount jobs here move ware
  | client move =>
    rw [(client_idle move).1, (client_idle move).2]
    exact client_amount orders move ware
  | shutdown here move =>
    have balance := shutdown_amount move ware
    simp only [State.delivers, here]
    exact balance

end Kitchen.Engine
