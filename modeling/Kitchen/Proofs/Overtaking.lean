import Kitchen.Proofs.Lines
import Kitchen.Proofs.Provenance
import Mathlib.Data.List.Perm.Subperm

namespace Kitchen.Engine

variable {s t : State} {action : Action} {actions later : List Action} {events more : List Event}
  {id : OrderId} {i j position : Nat} {order other : Order} {old phase : WorkerPhase}
  {stations : List String} {workers : Nat} {station : String} {ref : JobRef} {job : Job JobRef}
  {queue rest : JobQueue JobRef}

def State.firstWaiting (s : State) : Nat := s.board.nextOrder - s.board.unassigned.length

theorem held_of_step (step : Transition s action t events) (found : t.phases[j]? = some phase)
    (has : phase.order? = some order) :
    (∃ before, s.phases[j]? = some before ∧ before.order? = some order) ∨
      order ∈ s.board.unassigned ∧ action = .worker j ∧ phase = .claimed order := by
  have same : t.workers = s.workers → ∃ before, s.phases[j]? = some before ∧
      before.order? = some order := by
    intro workers
    rw [State.phases, workers] at found
    exact ⟨phase, found, has⟩
  have map : ∀ f : WorkerPhase → WorkerPhase, t.phases = s.phases.map f →
      (∀ phase, (f phase).order? = phase.order?) →
      ∃ before, s.phases[j]? = some before ∧ before.order? = some order := by
    intro f crew alike
    rw [crew, List.getElem?_map] at found
    obtain ⟨before, there, rfl⟩ := Option.map_eq_some_iff.mp found
    exact ⟨before, there, alike before ▸ has⟩
  have set : ∀ {i : Nat} {old now : WorkerPhase}, s.phases[i]? = some old →
      t.phases = s.phases.set i now → (now.order? = some order → old.order? = some order) →
      ∃ before, s.phases[j]? = some before ∧ before.order? = some order := by
    intro i old now here crew keeps
    rcases getElem?_set_cases (crew ▸ found) with ⟨rfl, rfl⟩ | ⟨_, before⟩
    · exact ⟨old, here, keeps has⟩
    · exact ⟨phase, before, has⟩
  cases step with
  | worker here move =>
    have place := State.phases_of here
    cases move with
    | claim _ first =>
      rcases getElem?_set_cases (State.phases_setWorker .. ▸ found) with ⟨rfl, rfl⟩ | ⟨_, before⟩
      · cases has
        rw [first]
        exact .inr ⟨.head _, rfl, rfl⟩
      · exact .inl ⟨phase, before, has⟩
    | dispatch => exact .inl (set place (State.phases_spread ..) id)
    | leave | rest | start | tell | deliver | crash =>
      exact .inl (set place (State.phases_setWorker ..) (by simp [WorkerPhase.order?]))
    | _ => exact .inl (set place (State.phases_setWorker ..) id)
  | runner _ move => exact .inl (same move.workers.1)
  | client move =>
    cases move with
    | placeWaking _ _ sleeper =>
      exact .inl (set (State.phases_of sleeper) (State.phases_setWorker ..) id)
    | @collectReady _ id =>
      exact .inl (map (·.wakePickup id) (State.phases_notifyPickup _ id)
        (WorkerPhase.wakePickup_order id))
    | usePager _ move => exact .inl (same move.frame.2.1)
    | _ => exact .inl (same rfl)
  | shutdown _ move =>
    cases move with
    | wakeWorkers => exact .inl (map (·.wake) (State.phases_wakeAllWorkers s) WorkerPhase.wake_order)
    | _ => exact .inl (same rfl)

theorem firstWaiting_le (orders : Orders s) (step : Transition s action t events) :
    s.firstWaiting ≤ t.firstWaiting := by
  have few := orders.roster.few
  have same : t.board.nextOrder = s.board.nextOrder → t.board.unassigned = s.board.unassigned →
      s.firstWaiting ≤ t.firstWaiting := by
    intro next unassigned
    have equal : s.firstWaiting = t.firstWaiting := by
      rw [State.firstWaiting, State.firstWaiting, next, unassigned]
    exact Nat.le_of_eq equal
  cases step with
  | worker _ move =>
    cases move with
    | claim _ first =>
      simp only [State.firstWaiting, State.withBoard, State.setWorker, first, List.length_cons]
      lia
    | dispatch => exact same (spread_unmanned ..).next (spread_unassigned ..)
    | _ => exact same rfl rfl
  | runner _ move => exact same move.unmanned.next move.workers.2.1
  | client move =>
    cases move with
    | place | placeWaking =>
      simp only [State.firstWaiting, State.accept, State.setWorker, List.length_append,
        List.length_singleton]
      lia
    | usePager _ move => exact same (by rw [move.frame.1]) (by rw [move.frame.1])
    | _ => exact same rfl rfl
  | shutdown _ move => exact same move.frame.1 move.frame.2.1

-- Workers that have an order that is not younger than `id` had it before.
structure Elders (first : State) (id : OrderId) (s : State) : Prop where
  claimed : id < s.firstWaiting
  held : ∀ (j : Nat) (phase : WorkerPhase) (order : Order), s.phases[j]? = some phase →
    phase.order? = some order → order.id ≤ id →
    ∃ before, first.phases[j]? = some before ∧ before.order? = some order

theorem Elders.step (elders : Elders first id s) (orders : Orders s)
    (step : Transition s action t events) : Elders first id t := by
  refine ⟨Nat.lt_of_lt_of_le elders.claimed (firstWaiting_le orders step), ?_⟩
  intro j phase order found has old
  rcases held_of_step step found has with ⟨before, there, had⟩ | ⟨waits, _⟩
  · exact elders.held j before order there had old
  · have young := (orders.roster.queued_id waits).1
    have claimed := elders.claimed
    rw [State.firstWaiting] at claimed
    lia

theorem Elders.run (elders : Elders first id s) (orders : Orders s) (run : Run s actions events t) :
    Elders first id t := by
  induction run with
  | start => exact elders
  | next before ran ih => exact ih.step (orders.run before) (transition_of_step ran)

theorem Elders.start (claimed : id < s.firstWaiting) : Elders s id s :=
  ⟨claimed, fun _ phase _ found has _ => ⟨phase, found, has⟩⟩

-- The orders that the other workers have.
def State.others (s : State) (i : Nat) : List Order :=
  (s.phases.eraseIdx i).filterMap WorkerPhase.order?

theorem mem_others : order ∈ s.others i ↔
    ∃ j phase, j ≠ i ∧ s.phases[j]? = some phase ∧ phase.order? = some order := by
  simp only [State.others, List.mem_filterMap, List.mem_eraseIdx_iff_getElem?]
  constructor
  · rintro ⟨phase, ⟨j, differ, found⟩, has⟩
    exact ⟨j, phase, differ, found, has⟩
  · rintro ⟨j, phase, differ, found, has⟩
    exact ⟨phase, ⟨j, differ, found⟩, has⟩

-- A worker claims the oldest order that waits.
theorem claimed_of_step (ran : s.step (.worker i) = some (t, events))
    (claimed : t.phases[i]? = some (.claimed order)) :
    ∃ rest, s.board.unassigned = order :: rest ∧ ∀ j, j ≠ i → t.phases[j]? = s.phases[j]? := by
  have moved : ∀ {old phase : WorkerPhase}, s.phases[i]? = some old → t.phases = s.phases.set i phase →
      phase = .claimed order ∧ ∀ j, j ≠ i → t.phases[j]? = s.phases[j]? := by
    intro old phase here crew
    refine ⟨?_, fun j differ => by rw [crew, List.getElem?_set_ne (Ne.symm differ)]⟩
    rw [crew, List.getElem?_set_self (List.getElem?_eq_some_iff.mp here).1] at claimed
    exact Option.some.inj claimed
  generalize same : Action.worker i = action at ran
  cases transition_of_step ran with
  | worker here move =>
    have place := State.phases_of here
    cases move with
    | claim _ first =>
      cases same
      obtain ⟨mine, others⟩ := moved place (State.phases_setWorker ..)
      cases mine
      exact ⟨_, first, others⟩
    | dispatch =>
      cases same
      cases (moved place (State.phases_spread ..)).1
    | collected due | expired due =>
      rcases due with ⟨rfl, _⟩ | rfl
      · cases same
        cases (moved place (State.phases_setWorker ..)).1
      · cases same
    | accepted | refused | crash => cases same
    | _ =>
      cases same
      cases (moved place (State.phases_setWorker ..)).1
  | runner _ move => cases move <;> cases same
  | client move => cases move <;> cases same
  | shutdown => cases same

def State.starts (station : String) (s : State) : Action → List JobRef
  | .runner index =>
    match s.runners[index]? with
    | some runner =>
      if runner.station = station ∧ runner.phase.seeks = true then
        (((s.board.queues.get? station).bind JobQueue.pop?).map (·.1.slot)).toList
      else []
    | none => []
  | _ => []

def State.started (s : State) (station : String) (actions : List Action) : List JobRef :=
  along (State.starts station) s actions

theorem started_next (run : Run s actions events t) (action : Action) :
    s.started station (actions ++ [action]) = s.started station actions ++ t.starts station action :=
  along_next (State.starts station) run action

theorem starts_cases (station : String) (step : Transition s action t events) : s.starts station action = [] ∨
    ∃ queue job rest, s.board.queues.get? station = some queue ∧ queue.pop? = some (job, rest) ∧
      s.starts station action = [job.slot] ∧ t.board.queues.get? station = some rest ∧
      ∃ runner ∈ t.runners, job ∈ runner.phase.jobs := by
  cases step with
  | worker _ move =>
    refine .inl ?_
    rcases move.own with rfl | rfl | ⟨_, rfl⟩ <;> rfl
  | @runner i place out calls was _ _ _ here move =>
    cases move with
    | @take queue job rest _ seeks present popped =>
      by_cases mine : place = station
      · subst mine
        refine .inr ⟨queue, job, rest, present, popped, ?_, Table.get?_insert_self .., ?_⟩
        · simp [State.starts, here, seeks, present, popped]
        · have inside := (List.getElem?_eq_some_iff.mp here).1
          exact ⟨_, List.mem_of_getElem? (List.getElem?_set_self inside), .head _⟩
      · exact .inl (by simp [State.starts, here, mine])
    | leave seeks nothing | rest seeks nothing =>
      refine .inl ?_
      simp only [State.starts, here]
      split
      next mine =>
        rw [← mine.1, nothing]
        rfl
      next => rfl
    | make | fault | crash => exact .inl rfl
    | _ => exact .inl (by simp [State.starts, here, RunnerPhase.seeks])
  | client move => exact .inl (by cases move <;> rfl)
  | shutdown => exact .inl rfl

theorem not_stands {runner : Runner} {other : Job JobRef} (jobs : Jobs s) (member : runner ∈ s.runners)
    (has : job ∈ runner.phase.jobs) (same : other.slot = job.slot) : ¬ s.stands station other := by
  rintro ⟨queue, found, there⟩
  have once := jobs.once job.slot
  have carried : among job.slot runner.phase.jobs ≤ s.carried job.slot :=
    le_total (f := fun runner : Runner => among job.slot runner.phase.jobs) member
  have queued : among job.slot queue.jobs ≤ s.queued job.slot :=
    le_total (f := fun entry : String × JobQueue JobRef => among job.slot entry.2.jobs)
      (Table.mem_of_get? found)
  have one := among_pos has
  have two := among_pos there
  rw [same] at two
  rw [jobs.waiting_carried member has] at once
  simp only [waits] at once
  omega

-- What a runner took from a queue does not come back.
structure Started (started : List JobRef) (s : State) : Prop where
  apart : started.Nodup
  known : ∀ ref ∈ started, ∃ signal, s.jobs.get? ref = some signal
  gone : ∀ job station, s.stands station job → job.slot ∉ started

theorem Started.step {started : List JobRef} (all : Started started s) (steady : Steady stations s)
    (later : Steady stations t) (step : Transition s action t events) :
    Started (started ++ s.starts station action) t := by
  have known : ∀ ref ∈ started, ∃ signal, t.jobs.get? ref = some signal := by
    intro ref member
    obtain ⟨signal, found⟩ := all.known ref member
    exact kept_step steady.stock step ref signal found
  have gone : ∀ job station, t.stands station job → job.slot ∉ started := by
    intro job place stands among
    rcases stood_of_step steady step stands with stood | new
    · exact all.gone job place stood among
    · obtain ⟨signal, posted⟩ := all.known _ among
      exact new _ signal posted rfl
  rcases starts_cases station step with none |
      ⟨queue, job, rest, present, popped, one, _, runner, member, has⟩
  · rw [none, List.append_nil]
    exact ⟨all.apart, known, gone⟩
  · have queued : job ∈ queue.jobs := (JobQueue.pop_perm popped).mem_iff.mpr (.head _)
    have fresh := all.gone job station ⟨queue, present, queued⟩
    rw [one]
    refine ⟨?_, ?_, ?_⟩
    · refine List.nodup_append.mpr ⟨all.apart, by simp, ?_⟩
      rintro ref earlier _ mine rfl
      cases List.mem_singleton.mp mine
      exact fresh earlier
    · intro ref among
      rcases List.mem_append.mp among with earlier | mine
      · exact known ref earlier
      · cases List.mem_singleton.mp mine
        exact ⟨_, later.jobs.waiting_carried member has⟩
    · intro other place stands among
      rcases List.mem_append.mp among with earlier | mine
      · exact gone other place stands earlier
      · exact not_stands later.jobs member has (List.mem_singleton.mp mine) stands

theorem Started.run (apart : stations.Nodup) (before : Run (.opened stations workers) actions events s)
    (run : Run s later more t) : Started (s.started station later) t := by
  induction run with
  | start => exact ⟨List.nodup_nil, by simp [State.started, along], by simp [State.started, along]⟩
  | next since ran ih =>
    rw [started_next since]
    have steady := Steady.opened apart (before.append since)
    exact ih.step steady (steady.step apart (transition_of_step ran)) (transition_of_step ran)

-- The places of an order at which a station is wanted.
def placesFor (station : String) (order : Order) : List JobRef :=
  order.products.zipIdx.filterMap fun (product, position) =>
    if product = station then some ⟨order.id, position⟩ else none

theorem mem_placesFor : ref ∈ placesFor station order ↔
    ref.order = order.id ∧ order.products[ref.position]? = some station := by
  simp only [placesFor, List.mem_filterMap, Prod.exists, List.mem_zipIdx_iff_getElem?]
  constructor
  · rintro ⟨product, position, found, same⟩
    split at same
    next mine =>
      cases same
      exact ⟨rfl, mine ▸ found⟩
    next => cases same
  · rintro ⟨named, wants⟩
    exact ⟨station, ref.position, wants, by simp [← named]⟩

theorem length_placesFor (station : String) (order : Order) :
    (placesFor station order).length = order.products.count station := by
  have counted : order.products.count station = order.products.zipIdx.countP (·.1 = station) := by
    rw [List.count, ← List.zipIdx_map_fst 0 order.products, List.countP_map]
    simp [Function.comp_def, List.zipIdx_map_fst, Bool.beq_eq_decide_eq]
  rw [counted, placesFor, List.length_filterMap_eq_countP]
  congr 1
  funext entry
  by_cases mine : entry.1 = station <;> simp [mine]

-- The order up to a place.
def upTo (order : Order) (position : Nat) : Order :=
  { order with products := order.products.take position }

theorem mem_placesFor_upTo : ref ∈ placesFor station (upTo order position) ↔
    ref ∈ placesFor station order ∧ ref.position < position := by
  rw [mem_placesFor, mem_placesFor, upTo, List.getElem?_take]
  split <;> simp_all

-- Whoever is taken while a job stands on the queue comes before it: an earlier place of its order, or a
-- place of an older order, which was claimed when its order was.
theorem sooner_of_start {first : State} (steady : Steady stations s) (all : Placed events s)
    (lines : Lines s) (elders : Elders first order.id s) (claimed : first.phases[i]? = some (.claimed order))
    (accepted : order ∈ placed events) (step : Transition s action t more)
    (stands : t.stands station job) (slot : job.slot = ⟨order.id, position⟩)
    (takes : ref ∈ s.starts station action) : ref ∈ placesFor station (upTo order position) ∨
      ∃ other ∈ first.others i, ref ∈ placesFor station other := by
  rcases starts_cases station step with none | ⟨queue, taken, rest, present, popped, one, left, _⟩
  · rw [none] at takes
    cases takes
  · rw [one] at takes
    cases List.mem_singleton.mp takes
    obtain ⟨queue', found, member⟩ := stands
    cases left.symm.trans found
    obtain ⟨j, other, made, failed, there, named, _, wants⟩ := steady.jobs.queued station queue present
      taken ((JobQueue.pop_perm popped).mem_iff.mpr (.head _))
    have place := mem_placesFor.mpr ⟨named.symm, wants⟩
    have first := lines.taken steady present popped job member
    rw [slot, ← named] at first
    rcases first with older | ⟨alike, before⟩
    · obtain ⟨phase, earlier, had⟩ := elders.held j _ other there rfl (Nat.le_of_lt older)
      refine .inr ⟨other, mem_others.mpr ⟨j, phase, ?_, earlier, had⟩, place⟩
      rintro rfl
      cases claimed.symm.trans earlier
      cases had
      exact absurd older (Nat.lt_irrefl _)
    · cases all.unique (all.had j _ other there rfl) accepted alike
      exact .inl (mem_placesFor_upTo.mpr ⟨place, before⟩)

theorem sooner_of_run {first : State} (apart : stations.Nodup)
    (before : Run (.opened stations workers) actions events s) (elders : Elders first order.id s)
    (claimed : first.phases[i]? = some (.claimed order)) (accepted : order ∈ placed events)
    (stands : s.stands station job) (slot : job.slot = ⟨order.id, position⟩)
    (run : Run s later more t) (still : t.stands station job) :
    ∀ ref ∈ s.started station later, ref ∈ placesFor station (upTo order position) ∨
      ∃ other ∈ first.others i, ref ∈ placesFor station other := by
  have steady := Steady.opened apart before
  obtain ⟨queue, found, member⟩ := stands
  have posted := steady.jobs.waiting_queued found member
  induction run with
  | start => simp [State.started, along]
  | next since ran ih =>
    have whole := before.append since
    have later := Steady.opened apart whole
    have step := transition_of_step ran
    -- A job that had a signal before stood on the queue before.
    rcases stood_of_step later step still with stood | new
    · intro ref takes
      rw [started_next since] at takes
      rcases List.mem_append.mp takes with earlier | now
      · exact ih stood ref earlier
      · refine sooner_of_start later (Placed.run whole) (Lines.run apart whole)
          (elders.run steady.orders since) claimed ?_ step still slot now
        rw [placed_append]
        exact List.mem_append_left _ accepted
    · obtain ⟨signal, there⟩ := kept_run steady.stock since _ _ posted
      exact absurd rfl (new _ signal there)

-- What is taken while a job of an order stands on the queue, from the step on in which a worker claimed
-- the order.
theorem taken_since_claim {c first : State} (apart : stations.Nodup)
    (before : Run (.opened stations workers) actions events c)
    (claims : c.step (.worker i) = some (first, shown))
    (claimed : first.phases[i]? = some (.claimed order)) (since : Run first earlier seen s)
    (stands : s.stands station job) (slot : job.slot = ⟨order.id, position⟩)
    (run : Run s later more t) (still : t.stands station job) :
    let older := first.others i
    let started := s.started station later
    older.length ≤ workers - 1 ∧ (∀ other ∈ older, other.id < order.id) ∧
    (∀ ref ∈ started,
      ref.order = order.id ∧ ref.position < position ∧ order.products[ref.position]? = some station ∨
      ∃ other ∈ older, ref.order = other.id ∧ other.products[ref.position]? = some station) ∧
    started.Nodup ∧
    started.length ≤ (order.products.take position).count station +
      total (older.map fun other => other.products.count station) := by
  intro older started
  have begun : Run (.opened stations workers) _ _ first := .next before claims
  have orders := (Orders.opened stations workers).run before
  have now := (Orders.opened stations workers).run begun
  have all := Placed.run begun
  have whole := begun.append since
  have sooner := sooner_of_run apart whole
    ((Elders.start (now.roster.claimed i _ order claimed rfl)).run now since) claimed
    (by rw [placed_append]; exact List.mem_append_left _ (all.had i _ order claimed rfl)) stands slot run
    still
  have served : Started (s.started station later) t := Started.run apart whole run
  have distinct := served.apart
  obtain ⟨rest, unassigned, others⟩ := claimed_of_step claims claimed
  refine ⟨?_, ?_, ?_, distinct, ?_⟩
  · have crew : first.phases.length = workers := by
      rw [State.phases, List.length_map, begun.crew.1, State.opened, List.length_replicate]
    have inside := (List.getElem?_eq_some_iff.mp claimed).1
    have few := List.length_filterMap_le WorkerPhase.order? (first.phases.eraseIdx i)
    rwa [List.length_eraseIdx_of_lt inside, crew] at few
  · intro other member
    obtain ⟨j, phase, differ, found, has⟩ := mem_others.mp member
    have old := orders.roster.claimed j phase other (others j differ ▸ found) has
    have queued : order ∈ c.board.unassigned := by
      rw [unassigned]
      exact .head _
    have young := (orders.roster.queued_id queued).1
    lia
  · intro ref member
    rcases sooner ref member with mine | ⟨other, among, place⟩
    · obtain ⟨place, less⟩ := mem_placesFor_upTo.mp mine
      obtain ⟨named, wants⟩ := mem_placesFor.mp place
      exact .inl ⟨named, less, wants⟩
    · exact .inr ⟨other, among, mem_placesFor.mp place⟩
  · have covered : started ⊆ placesFor station (upTo order position) ++
        older.flatMap (placesFor station) := by
      intro ref member
      rcases sooner ref member with mine | ⟨other, among, place⟩
      · exact List.mem_append_left _ mine
      · exact List.mem_append_right _ (List.mem_flatMap.mpr ⟨other, among, place⟩)
    have few := (List.subperm_of_subset distinct covered).length_le
    rw [List.length_append, length_placesFor, length_flatMap_total] at few
    simp only [length_placesFor] at few
    exact few

-- Every order that a worker has was claimed by it.
theorem claim_of_had (run : Run (.opened stations workers) actions events s)
    (found : s.phases[i]? = some phase) (has : phase.order? = some order) :
    ∃ earlier since shown seen told c first, actions = earlier ++ [.worker i] ++ since ∧
      Run (.opened stations workers) earlier shown c ∧ c.step (.worker i) = some (first, seen) ∧
      Run first since told s ∧ order ∈ c.board.unassigned ∧
      first.phases[i]? = some (.claimed order) := by
  induction run generalizing phase with
  | start =>
    cases State.phases_opened found
    cases has
  | @next actions events more middle last action before ran ih =>
    rcases held_of_step (transition_of_step ran) found has with ⟨old, there, had⟩ | ⟨waits, rfl, rfl⟩
    · obtain ⟨earlier, since, shown, seen, told, c, first, rfl, opening, claims, after, rest⟩ := ih there had
      exact ⟨earlier, since ++ [action], shown, seen, told ++ more, c, first, by simp, opening,
        claims, .next after ran, rest⟩
    · exact ⟨actions, [], events, more, [], middle, last, by simp, before, ran, .start, waits, found⟩

-- While a job stands on its station's queue, the station's runner takes only jobs for earlier places of
-- its order and for places of the orders that the other workers had when its order was claimed. Those
-- are older, and fewer than there are workers; no job is taken twice, so that what is taken is bounded by
-- the product lists of these orders, whatever is ordered later.
theorem no_younger_order_overtakes (apart : stations.Nodup)
    (before : Run (.opened stations workers) actions events s) (stands : s.stands station job)
    (run : Run s later more t) (still : t.stands station job) :
    let first := State.opened stations workers
    let started := s.started station later
    ∃ order ∈ placed events, order.id = job.slot.order ∧
      order.products[job.slot.position]? = some station ∧
      ∃ (i : Nat) (earlier : List Action) (older : List Order), earlier ++ [.worker i] <+: actions ∧
        order ∈ (first.after earlier).1.board.unassigned ∧
        (first.after (earlier ++ [.worker i])).1.phases[i]? = some (.claimed order) ∧
        (first.after (earlier ++ [.worker i])).1.others i = older ∧
        older.length ≤ workers - 1 ∧ (∀ other ∈ older, other.id < order.id) ∧
        (∀ ref ∈ started,
          ref.order = order.id ∧ ref.position < job.slot.position ∧
            order.products[ref.position]? = some station ∨
          ∃ other ∈ older, ref.order = other.id ∧ other.products[ref.position]? = some station) ∧
        started.Nodup ∧
        started.length ≤ (order.products.take job.slot.position).count station +
          total (older.map fun other => other.products.count station) := by
  intro first started
  obtain ⟨queue, found, member⟩ := stands
  obtain ⟨i, order, made, failed, there, named, _, wants⟩ :=
    (Steady.opened apart before).jobs.queued station queue found job member
  have accepted := (Placed.run before).had i _ order there rfl
  obtain ⟨earlier, since, _, _, _, c, now, rfl, opening, claims, after, waits, claimed⟩ :=
    claim_of_had before there rfl
  have begun := Run.next opening claims
  refine ⟨order, accepted, named, wants, i, earlier, now.others i, List.prefix_append .., ?_⟩
  rw [after_of_run opening, after_of_run begun]
  refine ⟨waits, claimed, rfl, ?_⟩
  exact taken_since_claim apart opening claims claimed after ⟨queue, found, member⟩
    (by rw [named]) run still

-- Two workers and two orders of two burgers. The second worker spreads its order first, and still the
-- station makes all that the other order wants before the last burger of this one.
def rushHour : List Action :=
  [.worker 0, .worker 1, .runner 0, .order ["burger", "burger"] none,
    .order ["burger", "burger"] none, .worker 0]

def rushService : List Action :=
  [.worker 0, .runner 0, .runner 0, .produced 0 (.made .burger), .runner 0, .runner 0, .runner 0,
    .produced 0 (.made .burger), .runner 0, .runner 0]

theorem rushHour_served :
    let spread := (State.opened ["burger"] 2).after (rushHour ++ [.worker 1, .worker 1])
    spread.1.started "burger" rushService = [⟨0, 0⟩, ⟨0, 1⟩, ⟨1, 0⟩] ∧
    ∃ order ∈ placed spread.2, order.id = 1 ∧ ∃ older : List Order, older.length ≤ 1 ∧
      (∀ other ∈ older, other.id < 1) ∧
      3 ≤ (order.products.take 1).count "burger" +
        total (older.map fun other => other.products.count "burger") := by
  intro spread
  have before : ((State.opened ["burger"] 2).play (rushHour ++ [.worker 1, .worker 1])).isSome = true := by
    decide +kernel
  have stands : spread.1.stands "burger" ⟨1, 1, ⟨1, 1⟩⟩ :=
    ⟨⟨[⟨1, 0, ⟨1, 0⟩⟩, ⟨1, 1, ⟨1, 1⟩⟩], 2⟩, by decide +kernel, .tail _ (.head _)⟩
  have run : (spread.1.play rushService).isSome = true := by decide +kernel
  have still : (spread.1.after rushService).1.stands "burger" ⟨1, 1, ⟨1, 1⟩⟩ :=
    ⟨⟨[⟨1, 1, ⟨1, 1⟩⟩], 4⟩, by decide +kernel, .head _⟩
  have started : spread.1.started "burger" rushService = [⟨0, 0⟩, ⟨0, 1⟩, ⟨1, 0⟩] := by decide +kernel
  obtain ⟨order, accepted, named, _, _, _, older, _, _, _, _, fewer, young, _, _, few⟩ :=
    no_younger_order_overtakes (by decide) (run_after before) stands (run_after run) still
  replace named : order.id = 1 := named
  rw [started] at few
  rw [named] at young
  exact ⟨started, order, accepted, named, older, fewer, young, few⟩

end Kitchen.Engine
