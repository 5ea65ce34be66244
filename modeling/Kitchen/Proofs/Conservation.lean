import Kitchen.Proofs.Deliveries
import Kitchen.Proofs.Provenance

namespace Kitchen.Engine

variable {s t : State} {action : Action} {actions : List Action} {events more : List Event}
  {call c : CallId} {id : OrderId} {i : Nat} {report : Report} {order : Order}
  {phase old : WorkerPhase} {was : RunnerPhase} {stations : List String}

def Single (s : State) : Prop := s.jobs.keys.Nodup ∧ s.results.keys.Nodup

namespace Single

theorem opened (stations : List String) (workers : Nat) : Single (.opened stations workers) :=
  ⟨List.nodup_nil, List.nodup_nil⟩

theorem dispatchFrom (apart : s.jobs.keys.Nodup) (id : OrderId) (position : Nat)
    (products : List String) : (s.dispatchFrom id position products).1.jobs.keys.Nodup := by
  induction products generalizing s position with
  | nil => exact apart
  | cons product rest ih =>
    have first : (s.dispatchJob id position product).1.jobs.keys.Nodup := by
      unfold State.dispatchJob
      split <;> exact Table.nodup_insert apart _ _
    exact ih first (position + 1)

theorem spread (apart : s.jobs.keys.Nodup) (order : Order) : (s.spread order).1.jobs.keys.Nodup :=
  dispatchFrom (s := s.withBoard (·.setState order.id .dispatched)) apart order.id 0 order.products

theorem step (single : Single s) (step : Transition s action t events) : Single t := by
  obtain ⟨jobs, results⟩ := single
  cases step with
  | worker _ move =>
    cases move with
    | dispatch =>
      refine ⟨spread jobs _, ?_⟩
      rw [State.setWorker, spread_results]
      exact results
    | receive | hearBreak | hearNothing => exact ⟨Table.nodup_insert jobs _ _, results⟩
    | tell | deliver | crash => exact ⟨jobs, Table.nodup_modify results _ _⟩
    | _ => exact ⟨jobs, results⟩
  | runner _ move =>
    cases move with
    | refuse | handOver | sweep | crash => exact ⟨Table.nodup_modify jobs _ _, results⟩
    | _ => exact ⟨jobs, results⟩
  | client move =>
    cases move with
    | place | placeWaking | getResult | getNothing => exact ⟨jobs, Table.nodup_insert results _ _⟩
    | usePager _ move =>
      obtain ⟨_, _, _, sameJobs, sameResults, _⟩ := move.frame
      exact ⟨sameJobs ▸ jobs, sameResults ▸ results⟩
    | _ => exact ⟨jobs, results⟩
  | shutdown _ move =>
    obtain ⟨_, _, _, _, _, sameJobs, _, sameResults, _⟩ := move.frame
    exact ⟨sameJobs ▸ jobs, sameResults ▸ results⟩

theorem run (single : Single s) (run : Run s actions events t) : Single t := by
  induction run with
  | start => exact single
  | next _ ran ih => exact ih.step (transition_of_step ran)

end Single

theorem jobWare_eq_nil (nothing : ∀ item heard, signal ≠ ⟨.holding (.made item), heard⟩) (ref : JobRef) :
    jobWare (ref, signal) = [] := by
  obtain ⟨content, heard⟩ := signal
  cases content with
  | holding result =>
    cases result with
    | made item => exact absurd rfl (nothing item heard)
    | broke => rfl
  | _ => rfl

theorem resultWares_eq_nil (nothing : ∀ items heard, signal ≠ ⟨.holding (.meal items), heard⟩)
    (id : OrderId) : resultWares (id, signal) = [] := by
  obtain ⟨content, heard⟩ := signal
  cases content with
  | holding outcome =>
    cases outcome with
    | meal items => exact absurd rfl (nothing items heard)
    | spoiled => rfl
  | _ => rfl

-- Where everybody has left and no client waits for a result, no product is inside.
theorem wares_of_rest (jobs : Jobs s) (collectors : Collectors s) (single : Single s)
    (crew : ∀ worker ∈ s.workers, worker.phase.ended = true)
    (staff : ∀ runner ∈ s.runners, runner.phase.ended = true)
    (idle : ∀ call id, s.calls.get? call ≠ some (.collecting id)) : s.wares = [] := by
  have hands : s.inHands = [] := by
    rw [State.inHands, List.flatMap_eq_nil_iff]
    intro runner member
    have ended := staff runner member
    cases phase : runner.phase <;> simp_all [RunnerPhase.ended, RunnerPhase.hand]
  have signals : s.inSignals = [] := by
    rw [State.inSignals, List.flatMap_eq_nil_iff]
    rintro ⟨ref, signal⟩ member
    refine jobWare_eq_nil ?_ ref
    rintro item heard rfl
    -- The worker that seeks a made product has not left.
    obtain ⟨i, order, made, failed, here, _⟩ :=
      jobs.answered ref item heard (Table.get?_of_mem single.1 member)
    obtain ⟨worker, there, awaits⟩ := List.mem_map.mp (List.mem_of_getElem? here)
    have ended := crew worker there
    rw [awaits] at ended
    cases ended
  have workers : s.withWorkers = [] := by
    rw [State.withWorkers, List.flatMap_eq_nil_iff]
    intro worker member
    have ended := crew worker member
    cases phase : worker.phase <;> simp_all [WorkerPhase.ended, WorkerPhase.wares, WorkerPhase.order?]
  have transit : s.inTransit = [] := by
    rw [State.inTransit, List.flatMap_eq_nil_iff]
    rintro ⟨id, signal⟩ member
    refine resultWares_eq_nil ?_ id
    rintro items heard rfl
    -- A meal that was sent has a call that waits for it.
    obtain ⟨call, here⟩ := collectors.comes id
      (.inr (.inr ⟨items, heard, Table.get?_of_mem single.2 member⟩))
    exact idle call id here
  rw [State.wares, hands, signals, workers, transit]
  rfl

theorem wares_opened (stations : List String) (workers : Nat) :
    (State.opened stations workers).wares = [] := by
  have hands : (State.opened stations workers).inHands = [] := by
    rw [State.inHands, List.flatMap_eq_nil_iff]
    intro runner member
    obtain ⟨station, _, rfl⟩ := List.mem_map.mp member
    rfl
  have workers : (State.opened stations workers).withWorkers = [] := by
    rw [State.withWorkers, List.flatMap_eq_nil_iff]
    intro worker member
    rw [List.eq_of_mem_replicate member]
    rfl
  rw [State.wares, hands, workers]
  rfl

-- Over a whole run, what the stations made is in the kitchen, eaten or given back.
theorem wares_run (run : Run (.opened stations workers) actions events s)
    (returns : ∀ i, .returned i .crashed ∉ actions) :
    (s.wares ++ eaten ((State.opened stations workers).deliveries actions) ++
        (State.opened stations workers).givenBack actions).Perm
      (ordered ((State.opened stations workers).production actions)) := by
  have stock := Stock.opened stations workers
  have orders := Orders.opened stations workers
  have jobs := Jobs.opened stations workers
  induction run with
  | start =>
    rw [wares_opened]
    exact .refl _
  | @next _ _ _ middle _ action before ran ih =>
    have step := (transition_of_step ran).wares
      ((Trays.opened stations workers).run stock orders jobs before)
      (stock.run before) (orders.run before) (jobs.run stock orders before)
      fun i same => returns i (by rw [← same]; simp)
    have earlier := ih fun i member => returns i (List.mem_append_left _ member)
    -- The balance of the step is added to that of the run before it, product by product.
    rw [List.perm_iff_count] at step earlier ⊢
    intro ware
    have now := step ware
    have sofar := earlier ware
    simp only [production_next before, deliveries_next before, givenBack_next before, eaten, ordered,
      List.flatMap_append, List.map_append, List.count_append] at now sofar ⊢
    omega

theorem shows_run (run : Run (.opened stations workers) actions events s) :
    events.filterMap Event.meal? = ((State.opened stations workers).deliveries actions).map
      (fun meal => (meal.1, meal.2.2)) ∧
    events.filterMap Event.returned? = ((State.opened stations workers).givenBack actions).map
      fun ware => (ware.2.maker, ware.2) := by
  have stock := Stock.opened stations workers
  have orders := Orders.opened stations workers
  have jobs := Jobs.opened stations workers
  induction run with
  | start => exact ⟨rfl, rfl⟩
  | next before ran ih =>
    obtain ⟨meals, returned⟩ := (transition_of_step ran).shows
      ((Trays.opened stations workers).run stock orders jobs before) (stock.run before)
    rw [deliveries_next before, givenBack_next before, List.filterMap_append, List.filterMap_append,
      List.map_append, List.map_append, ih.1, ih.2, meals, returned]
    exact ⟨rfl, rfl⟩

-- A product that went back was made for a place that wants what the station makes.
theorem wanted_of_returned (run : Run (.opened stations workers) actions events s)
    (returns : ∀ i, .returned i .crashed ∉ actions)
    (returned : .called station (.acceptReturn item) ∈ events) :
    ∃ ref, (ref, item) ∈ (State.opened stations workers).production actions ∧
      Wanted events ref station := by
  have shown : (station, item) ∈ events.filterMap Event.returned? :=
    List.mem_filterMap.mpr ⟨_, returned, rfl⟩
  rw [(shows_run run).2] at shown
  obtain ⟨⟨id, other⟩, back, same⟩ := List.mem_map.mp shown
  cases same
  have member := (wares_run run returns).mem_iff.mp (List.mem_append_right _ back)
  obtain ⟨⟨ref, made⟩, entered, same⟩ := List.mem_map.mp member
  cases same
  exact ⟨ref, entered, wanted_of_made run entered⟩

-- How many of the products that clients got a station made.
def served (station : String) (events : List Event) : Nat :=
  ((events.filterMap Event.meal?).flatMap (·.2)).countP (·.maker = station)

def takenBack (station : String) (events : List Event) : Nat :=
  (events.filterMap Event.returned?).countP (·.1 = station)

theorem balance (run : Run (.opened stations workers) actions events s)
    (returns : ∀ i, .returned i .crashed ∉ actions) (nothing : s.wares = []) (station : String) :
    ((State.opened stations workers).production actions).countP (·.2.maker = station) =
      served station events + takenBack station events := by
  have perm := wares_run run returns
  rw [nothing, List.nil_append] at perm
  have counts := perm.countP_eq fun ware => ware.2.maker = station
  rw [served, takenBack, (shows_run run).1, (shows_run run).2]
  simp only [ordered, eaten, List.countP_append, List.countP_map, List.countP_flatMap,
    Function.comp_def, List.flatMap_map] at counts ⊢
  omega

-- In every state each product that was made is in one place, with the order for which it was made:
-- with its runner, in the signal of its job, with the worker that has the order, on its way to the
-- one call that collects it, with that client, or back at the station that the order names. Once
-- the call that shuts down has returned and nobody collects, the clients and the stations have them
-- all.
theorem products_conserved (apart : stations.Nodup)
    (run : Run (.opened stations workers) actions events s)
    (returns : ∀ i, .returned i .crashed ∉ actions) :
    let first := State.opened stations workers
    let places := s.inHands ++ s.inSignals ++ s.withWorkers ++ s.inTransit ++
      eaten (first.deliveries actions) ++ first.givenBack actions
    places.Perm (ordered (first.production actions)) ∧ (places.map (·.2)).Nodup ∧
    -- A meal on its way, and one that has come, belongs to one call that asked for the order.
    (∀ id items heard, s.results.get? id = some ⟨.holding (.meal items), heard⟩ →
      ∃ call, .collect call id ∈ actions ∧
        ∀ other, s.calls.get? other = some (.collecting id) ↔ other = call) ∧
    (∀ call id items, (call, id, items) ∈ first.deliveries actions → .collect call id ∈ actions) ∧
    ((first.deliveries actions).map (·.2.1)).Nodup ∧
    events.filterMap Event.meal? =
      (first.deliveries actions).map (fun meal => (meal.1, meal.2.2)) ∧
    -- Stations are asked to take back what they made for a place of an order that wants it.
    events.filterMap Event.returned? =
      (first.givenBack actions).map (fun ware => (ware.2.maker, ware.2)) ∧
    (∀ station item, .called station (.acceptReturn item) ∈ events →
      ∃ ref, (ref, item) ∈ first.production actions ∧ Wanted events ref station) ∧
    (s.running = false → (∀ call stage, s.calls.get? call ≠ some (.shutdown stage)) →
      (∀ call id, s.calls.get? call ≠ some (.collecting id)) →
      s.wares = [] ∧ ∀ station, (first.production actions).countP (·.2.maker = station) =
        served station events + takenBack station events) := by
  intro first places
  have stock := Stock.opened stations workers
  have opened := Orders.opened stations workers
  have orders := opened.run run
  have jobs := (Jobs.opened stations workers).run stock opened run
  have collectors := (Collectors.opened stations workers).run opened run
  have single := (Single.opened stations workers).run run
  have asked := Asked.run run
  have perm := wares_run run returns
  obtain ⟨meals, returned⟩ := shows_run run
  refine ⟨perm, ?_, ?_, ?_, ?_, meals, returned, ?_, ?_⟩
  · -- Products bear the numbers of the calls that made them, so none of them is there twice.
    have numbered := Numbered.run stock apart (Numbered.opened stations workers) run
    have once := numbered.apart
    refine ((perm.map (·.2)).nodup_iff).mpr ?_
    rw [ordered, List.map_map]
    exact once
  · intro id items heard found
    obtain ⟨call, here⟩ := collectors.comes id (.inr (.inr ⟨items, heard, found⟩))
    refine ⟨call, asked call id here, ?_⟩
    intro other
    constructor
    · exact fun there => collectors.alone other call id there here
    · rintro rfl
      exact here
  · exact fun call id items delivered => asked_of_delivered run delivered
  · exact (Delivered.run opened run).apart
  · exact fun station item => wanted_of_returned run returns
  · intro began returned idle
    obtain ⟨_, _, crew, staff⟩ := ((Closing.opened stations workers).run run).after began returned
    have nothing := wares_of_rest jobs collectors single crew staff idle
    exact ⟨nothing, balance run returns nothing⟩

-- Of the two burgers of that day one was eaten and one came back.
theorem closingDay_conserved :
    ((State.opened ["burger"] 1).production (closingDay ++ [.client 2])).length = 2 ∧
    ((State.opened ["burger"] 1).production (closingDay ++ [.client 2])).countP
        (·.2.maker = "burger") =
      served "burger" ((State.opened ["burger"] 1).after (closingDay ++ [.client 2])).2 +
        takenBack "burger" ((State.opened ["burger"] 1).after (closingDay ++ [.client 2])).2 := by
  have possible : ((State.opened ["burger"] 1).play (closingDay ++ [.client 2])).isSome = true := by
    decide +kernel
  have empty : ((State.opened ["burger"] 1).after (closingDay ++ [.client 2])).1.calls = .empty := by
    decide +kernel
  obtain ⟨_, _, _, _, _, _, _, _, rest⟩ :=
    products_conserved (by decide) (run_after possible) (by simp [closingDay])
  refine ⟨by decide +kernel, (rest (by decide +kernel) ?_ ?_).2 "burger"⟩
  · intro call stage
    rw [empty]
    simp
  · intro call id
    rw [empty]
    simp

end Kitchen.Engine
