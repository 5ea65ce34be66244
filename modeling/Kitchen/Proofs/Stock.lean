import Kitchen.Proofs.Closing
import Kitchen.Proofs.Orders
import Kitchen.Proofs.Totals

-- Each station keeps its queue and its runner, and only what a station makes is ever ordered.

namespace Kitchen.Engine

variable {s t : State} {action : Action} {actions : List Action} {events : List Event}
  {call c : CallId} {id : OrderId} {i : Nat} {report : Report} {order : Order}
  {phase old : WorkerPhase} {was : RunnerPhase} {stations : List String}

structure Stock (stations : List String) (s : State) : Prop where
  menu : ∀ product ∈ s.board.menu, product ∈ stations
  queues : s.board.queues.keys = stations
  staff : s.runners.map (·.station) = stations
  waiting : ∀ order ∈ s.board.unassigned, ∀ product ∈ order.products, product ∈ stations
  held : ∀ worker ∈ s.workers, ∀ order, worker.phase.order? = some order →
    ∀ product ∈ order.products, product ∈ stations

namespace Stock

theorem hasStation_iff (stock : Stock stations s) (product : String) :
    s.hasStation product = true ↔ product ∈ stations := by
  rw [← stock.staff]
  simp [State.hasStation]

theorem queue (stock : Stock stations s) (known : product ∈ stations) :
    ∃ queue, s.board.queues.get? product = some queue := by
  rw [← stock.queues] at known
  exact Table.mem_keys_iff.mp known

theorem opened (stations : List String) (workers : Nat) :
    Stock stations (.opened stations workers) := by
  refine ⟨fun _ => id, ?_, ?_, by simp [State.opened], ?_⟩
  · simp [State.opened, Table.keys, Function.comp_def]
  · simp [State.opened, Function.comp_def]
  · intro worker member order has
    rw [List.eq_of_mem_replicate member] at has
    cases has

theorem dispatchJob (stock : Stock stations s) (known : product ∈ stations) (order : OrderId)
    (position : Nat) : Stock stations (s.dispatchJob order position product).1 := by
  obtain ⟨queue, present⟩ := stock.queue known
  have there := (stock.hasStation_iff product).mpr known
  unfold State.dispatchJob
  rw [present, there]
  refine ⟨stock.menu, ?_, ?_, stock.waiting, stock.held⟩
  · exact (Table.keys_insert present _).trans stock.queues
  · rw [← stock.staff]
    simp only [State.wakeStation, State.withBoard, List.map_map]
    refine List.map_congr_left ?_
    rintro ⟨station, phase, out, calls⟩ _
    simp only [Function.comp_apply]
    split
    · cases phase <;> rfl
    · rfl

theorem dispatchFrom (stock : Stock stations s) (known : ∀ product ∈ products, product ∈ stations)
    (order : OrderId) (position : Nat) :
    Stock stations (s.dispatchFrom order position products).1 := by
  induction products generalizing s position with
  | nil => exact stock
  | cons product rest ih =>
    exact ih (stock.dispatchJob (known product (by simp)) order position)
      (fun other member => known other (List.mem_cons_of_mem _ member)) (position + 1)

theorem setState (stock : Stock stations s) (id : OrderId) (state : OrderState) :
    Stock stations (s.withBoard (·.setState id state)) :=
  ⟨stock.menu, stock.queues, stock.staff, stock.waiting, stock.held⟩

theorem spread (stock : Stock stations s) (known : ∀ product ∈ order.products, product ∈ stations) :
    Stock stations (s.spread order).1 :=
  (stock.setState order.id .dispatched).dispatchFrom known _ _

theorem set (stock : Stock stations s) (here : s.workers[i]? = some ⟨old, report⟩)
    (workers : t.workers = s.workers.set i now) (menu : t.board.menu = s.board.menu)
    (queues : t.board.queues = s.board.queues) (runners : t.runners = s.runners)
    (unassigned : t.board.unassigned = s.board.unassigned)
    (keeps : ∀ order, now.phase.order? = some order → old.order? = some order) :
    Stock stations t := by
  refine ⟨menu ▸ stock.menu, queues ▸ stock.queues, runners ▸ stock.staff,
    unassigned ▸ stock.waiting, ?_⟩
  intro worker member order has
  rw [workers] at member
  rcases List.mem_or_eq_of_mem_set member with before | new
  · exact stock.held worker before order has
  · subst new
    exact stock.held _ (List.mem_of_getElem? here) order (keeps order has)

theorem claim (stock : Stock stations s) (first : s.board.unassigned = order :: rest)
    (workers : t.workers = s.workers.set i ⟨.claimed order, report⟩)
    (menu : t.board.menu = s.board.menu) (queues : t.board.queues = s.board.queues)
    (runners : t.runners = s.runners) (unassigned : t.board.unassigned = rest) :
    Stock stations t := by
  refine ⟨menu ▸ stock.menu, queues ▸ stock.queues, runners ▸ stock.staff, ?_, ?_⟩
  · intro other member
    rw [unassigned] at member
    exact stock.waiting other (by simp [first, member])
  · intro worker member other has
    rw [workers] at member
    rcases List.mem_or_eq_of_mem_set member with before | new
    · exact stock.held worker before other has
    · subst new
      cases has
      exact stock.waiting order (by simp [first])

theorem worker (stock : Stock stations s) (here : s.workers[i]? = some ⟨old, report⟩)
    (move : WorkerMove s i report old action t events) : Stock stations t := by
  cases move with
  | claim _ first => exact stock.claim first rfl rfl rfl rfl rfl
  | @dispatch order =>
    have known := stock.held _ (List.mem_of_getElem? here) order rfl
    have queued := stock.spread known
    refine ⟨queued.menu, queued.queues, queued.staff, queued.waiting, ?_⟩
    intro worker member other has
    rcases List.mem_or_eq_of_mem_set member with before | new
    · exact queued.held worker before other has
    · subst new
      cases has
      exact known
  | _ => exact stock.set here rfl rfl rfl rfl rfl (by simp [WorkerPhase.order?])

theorem runner {calls : Nat} (stock : Stock stations s)
    (here : s.runners[i]? = some ⟨station, was, out, calls⟩)
    (move : RunnerMove s i station out calls was action t events) : Stock stations t := by
  obtain ⟨now, runners, same⟩ := move.runners
  obtain ⟨workers, unassigned, _⟩ := move.workers
  have staff : t.runners.map (·.station) = stations := by
    rw [runners, List.map_set, same, ← stock.staff]
    apply List.ext_getElem?
    intro j
    rw [List.getElem?_set]
    split
    next mine =>
      subst mine
      obtain ⟨inside, there⟩ := List.getElem?_eq_some_iff.mp here
      simp [inside, there]
    next => rfl
  have others : ∀ order ∈ t.board.unassigned, ∀ product ∈ order.products, product ∈ stations := by
    rw [unassigned]
    exact stock.waiting
  have hands : ∀ worker ∈ t.workers, ∀ order, worker.phase.order? = some order →
      ∀ product ∈ order.products, product ∈ stations := by
    rw [workers]
    exact stock.held
  cases move with
  | take _ present =>
    exact ⟨stock.menu, (Table.keys_insert present _).trans stock.queues, staff, others, hands⟩
  | breakDown present =>
    refine ⟨?_, (Table.keys_insert present _).trans stock.queues, staff, others, hands⟩
    intro product member
    exact stock.menu product (List.mem_filter.mp member).1
  | breakDownQueueless =>
    refine ⟨?_, stock.queues, staff, others, hands⟩
    intro product member
    exact stock.menu product (List.mem_filter.mp member).1
  | _ => exact ⟨stock.menu, stock.queues, staff, others, hands⟩

theorem accept (stock : Stock stations s)
    (onMenu : State.firstMissing s.board.menu products = none) :
    Stock stations (s.accept products) := by
  refine ⟨stock.menu, stock.queues, stock.staff, ?_, stock.held⟩
  intro order member product wanted
  rcases List.mem_append.mp member with before | new
  · exact stock.waiting order before product wanted
  · cases List.mem_singleton.mp new
    have listed := List.find?_eq_none.mp onMenu product wanted
    exact stock.menu product (by simpa using listed)

theorem client (stock : Stock stations s) (move : ClientMove s action t events) :
    Stock stations t := by
  cases move with
  | place _ onMenu => exact stock.accept onMenu
  | placeWaking _ onMenu sleeper =>
    exact (stock.accept onMenu).set sleeper rfl rfl rfl rfl rfl (by simp [WorkerPhase.order?])
  | @collectReady _ id =>
    refine ⟨stock.menu, stock.queues, stock.staff, stock.waiting, ?_⟩
    intro worker member order has
    obtain ⟨before, was, rfl⟩ := List.mem_map.mp member
    rw [State.wakePickup_phase, WorkerPhase.wakePickup_order] at has
    exact stock.held before was order has
  | usePager _ move =>
    obtain ⟨board, workers, runners, _⟩ := move.frame
    exact ⟨board ▸ stock.menu, board ▸ stock.queues, runners ▸ stock.staff, board ▸ stock.waiting,
      workers ▸ stock.held⟩
  | _ => exact ⟨stock.menu, stock.queues, stock.staff, stock.waiting, stock.held⟩

theorem wakeAllStations_staff (s : State) :
    s.wakeAllStations.runners.map (·.station) = s.runners.map (·.station) := by
  simp only [State.wakeAllStations, List.map_map]
  refine List.map_congr_left ?_
  rintro ⟨station, phase, out, calls⟩ _
  cases phase <;> rfl

theorem shutdown (stock : Stock stations s) (move : ShutdownMove s call stage t events) :
    Stock stations t := by
  cases move with
  | close => exact ⟨by simp [State.setCall, State.withBoard], stock.queues, stock.staff, stock.waiting, stock.held⟩
  | wakeWorkers =>
    refine ⟨stock.menu, stock.queues, stock.staff, stock.waiting, ?_⟩
    intro worker member order has
    obtain ⟨before, was, rfl⟩ := List.mem_map.mp member
    rw [State.wakeWorker_phase, WorkerPhase.wake_order] at has
    exact stock.held before was order has
  | wakeStations | wakeReleased =>
    exact ⟨stock.menu, stock.queues, (wakeAllStations_staff s).trans stock.staff, stock.waiting,
      stock.held⟩
  | _ => exact ⟨stock.menu, stock.queues, stock.staff, stock.waiting, stock.held⟩

theorem step (stock : Stock stations s) (step : Transition s action t events) :
    Stock stations t := by
  cases step with
  | worker here move => exact stock.worker here move
  | runner here move => exact stock.runner here move
  | client move => exact stock.client move
  | shutdown _ move => exact stock.shutdown move

theorem run (stock : Stock stations s) (run : Run s actions events t) : Stock stations t := by
  induction run with
  | start => exact stock
  | next _ ran ih => exact ih.step (transition_of_step ran)

end Stock

end Kitchen.Engine
