import Kitchen.Proofs.Popping
import Kitchen.Proofs.Stock

-- Where each job is until it is answered. Its signal waits exactly as long as the job is on one
-- queue or with one runner, and until then a worker waits for it at a place not past it.

namespace Kitchen.Engine

variable {s t : State} {action : Action} {actions : List Action} {events : List Event}
  {call c : CallId} {id : OrderId} {i : Nat} {report : Report} {order : Order}
  {phase old : WorkerPhase} {was : RunnerPhase} {stations : List String} {ref : JobRef}

def RunnerPhase.jobs : RunnerPhase → List (Job JobRef)
  | .serving job | .producing job | .holding job _ | .failing job _ => [job]
  | .sweeping jobs _ => jobs
  | _ => []

def among (ref : JobRef) (jobs : List (Job JobRef)) : Nat := (jobs.map (·.slot)).count ref

theorem among_perm (same : jobs.Perm others) : among ref jobs = among ref others :=
  (same.map _).count_eq ref

theorem among_cons (job : Job JobRef) (jobs : List (Job JobRef)) :
    among ref (job :: jobs) = among ref [job] + among ref jobs := by
  simp only [among, List.map_cons, List.map_nil, List.count_cons, List.count_nil]
  omega

theorem among_append (jobs others : List (Job JobRef)) :
    among ref (jobs ++ others) = among ref jobs + among ref others := by
  simp [among]

theorem among_self (job : Job JobRef) : among job.slot [job] = 1 := by
  simp [among]

theorem among_pos (member : job ∈ jobs) : 0 < among job.slot jobs :=
  List.count_pos_iff.mpr (List.mem_map_of_mem member)

def State.queued (s : State) (ref : JobRef) : Nat :=
  s.board.queues.sum fun entry => among ref entry.2.jobs

def State.carried (s : State) (ref : JobRef) : Nat :=
  total (s.runners.map fun runner => among ref runner.phase.jobs)

def waits : Option (Signal JobResult) → Nat
  | some ⟨.waiting, _⟩ => 1
  | _ => 0

-- A worker waits for the job, or for one before it, and the station makes what is wanted there.
def Sought (s : State) (ref : JobRef) (station : String) : Prop :=
  ∃ (i : Nat) (order : Order) (made : Tray) (failed : Nat),
    s.phases[i]? = some (.awaiting order made failed) ∧ order.id = ref.order ∧
      made.length + failed ≤ ref.position ∧ order.products[ref.position]? = some station

structure Jobs (s : State) : Prop where
  once : ∀ ref, s.queued ref + s.carried ref = waits (s.jobs.get? ref)
  queued : ∀ (station : String) (queue : JobQueue JobRef),
    s.board.queues.get? station = some queue → ∀ job ∈ queue.jobs, Sought s job.slot station
  carried : ∀ runner ∈ s.runners, ∀ job ∈ runner.phase.jobs, Sought s job.slot runner.station
  answered : ∀ (ref : JobRef) (item : Item) (heard : Bool),
    s.jobs.get? ref = some ⟨.holding (.made item), heard⟩ → Sought s ref item.maker
  heard : ∀ (ref : JobRef) (signal : Signal JobResult),
    s.jobs.get? ref = some signal → signal.heard = true
  young : ∀ (ref : JobRef) (signal : Signal JobResult), s.jobs.get? ref = some signal →
    ref.order < (s.board.nextOrder - s.board.unassigned.length : Nat) ∧
      ∀ (i : Nat) (order : Order), s.phases[i]? = some (.claimed order) → order.id ≠ ref.order
  posted : ∀ (i : Nat) (order : Order) (made : Tray) (failed : Nat),
    s.phases[i]? = some (.awaiting order made failed) →
      made.length + failed ≤ order.products.length ∧
      ∀ position, made.length + failed ≤ position → position < order.products.length →
        ∃ signal, s.jobs.get? ⟨order.id, position⟩ = some signal
  handed : ∀ runner ∈ s.runners, ∀ (job : Job JobRef) (item : Item),
    runner.phase = .holding job item → item.maker = runner.station

theorem Sought.set (sought : Sought s ref station) (here : s.phases[i]? = some old)
    (crew : t.phases = s.phases.set i phase)
    (keeps : ∀ order made failed, old = .awaiting order made failed → order.id = ref.order →
      made.length + failed ≤ ref.position → order.products[ref.position]? = some station →
      ∃ more less, phase = .awaiting order more less ∧ more.length + less ≤ ref.position) :
    Sought t ref station := by
  obtain ⟨j, order, made, failed, there, named, before, wanted⟩ := sought
  by_cases mine : i = j
  · subst mine
    rw [here] at there
    cases there
    obtain ⟨more, less, rfl, later⟩ := keeps order made failed rfl named before wanted
    refine ⟨i, order, more, less, ?_, named, later, wanted⟩
    rw [crew, List.getElem?_set_self (List.getElem?_eq_some_iff.mp here).1]
  · refine ⟨j, order, made, failed, ?_, named, before, wanted⟩
    rw [crew, List.getElem?_set_ne mine, there]

theorem Sought.map (sought : Sought s ref station) (f : WorkerPhase → WorkerPhase)
    (crew : t.phases = s.phases.map f)
    (keeps : ∀ order made failed, f (.awaiting order made failed) = .awaiting order made failed) :
    Sought t ref station := by
  obtain ⟨j, order, made, failed, there, rest⟩ := sought
  refine ⟨j, order, made, failed, ?_, rest⟩
  rw [crew, List.getElem?_map, there, Option.map_some, keeps]

theorem wakeRunner_jobs (runner : Runner) :
    (State.wakeRunner runner).phase.jobs = runner.phase.jobs := by
  obtain ⟨station, phase, out, calls⟩ := runner
  cases phase <;> rfl

theorem wakeRunner_station (runner : Runner) :
    (State.wakeRunner runner).station = runner.station := by
  obtain ⟨station, phase, out, calls⟩ := runner
  cases phase <;> rfl

theorem wakeRunner_holding (holds : (State.wakeRunner runner).phase = .holding job item) :
    runner.phase = .holding job item := by
  obtain ⟨station, phase, out, calls⟩ := runner
  cases phase <;> first | exact holds | cases holds

theorem carried_map (f : Runner → Runner) (runners : t.runners = s.runners.map f)
    (same : ∀ runner, (f runner).phase.jobs = runner.phase.jobs) (ref : JobRef) :
    t.carried ref = s.carried ref := by
  rw [State.carried, State.carried, runners, List.map_map]
  congr 1
  refine List.map_congr_left ?_
  intro runner _
  rw [Function.comp_apply, same]

-- The places from `position` on, `count` of them, of one order.
def Within (id : OrderId) (position count : Nat) (ref : JobRef) : Prop :=
  ref.order = id ∧ position ≤ ref.position ∧ ref.position < position + count

instance (id : OrderId) (position count : Nat) (ref : JobRef) :
    Decidable (Within id position count ref) :=
  inferInstanceAs (Decidable (_ ∧ _ ∧ _))

-- One new signal and one new job for each place, on the queue of what is wanted there.
structure Spread (s t : State) (id : OrderId) (position : Nat) (products : List String) : Prop where
  signals : ∀ ref, t.jobs.get? ref =
    if Within id position products.length ref then some .fresh else s.jobs.get? ref
  queued : ∀ ref, t.queued ref =
    s.queued ref + if Within id position products.length ref then 1 else 0
  carried : ∀ ref, t.carried ref = s.carried ref
  queue : ∀ (station : String) (queue : JobQueue JobRef),
    t.board.queues.get? station = some queue → ∀ job ∈ queue.jobs,
      (∃ before, s.board.queues.get? station = some before ∧ job ∈ before.jobs) ∨
      Within id position products.length job.slot ∧
        products[job.slot.position - position]? = some station

theorem spread_one (stock : Stock stations s) (known : product ∈ stations) (id : OrderId)
    (position : Nat) : (s.dispatchJob id position product).2 = [] ∧
      Spread s (s.dispatchJob id position product).1 id position [product] := by
  obtain ⟨queue, present⟩ := stock.queue known
  have there := (stock.hasStation_iff product).mpr known
  have single : ∀ ref, Within id position [product].length ref ↔ (⟨id, position⟩ : JobRef) = ref := by
    rintro ⟨o, p⟩
    simp only [Within, List.length_singleton, JobRef.mk.injEq]
    lia
  unfold State.dispatchJob
  rw [present, there]
  refine ⟨rfl, ?_, ?_, ?_, ?_⟩
  · intro ref
    simp only [single]
    exact Table.get?_insert ..
  · intro ref
    have moved := Table.sum_insert present (queue.push id ⟨id, position⟩)
      fun entry => among ref entry.2.jobs
    have more : among ref (queue.push id ⟨id, position⟩).jobs =
        among ref queue.jobs + if Within id position [product].length ref then 1 else 0 := by
      rw [JobQueue.push, among_append]
      simp only [single, among, List.map_cons, List.map_nil, List.count_singleton, beq_iff_eq]
    simp only [State.queued, State.wakeStation, State.withBoard] at moved ⊢
    rw [more] at moved
    omega
  · refine carried_map _ rfl ?_
    intro runner
    split
    · exact wakeRunner_jobs runner
    · rfl
  · intro station other found job member
    change (s.board.queues.insert product _).get? station = some other at found
    rw [Table.get?_insert] at found
    split at found
    next same =>
      subst same
      cases found
      rcases List.mem_append.mp member with old | new
      · exact .inl ⟨queue, present, old⟩
      · cases List.mem_singleton.mp new
        exact .inr ⟨(single _).mpr rfl, by simp⟩
    next => exact .inl ⟨other, found, member⟩

theorem Spread.trans (first : Spread s m id position [product])
    (later : Spread m t id (position + 1) rest) : Spread s t id position (product :: rest) := by
  have split : ∀ ref, Within id position (product :: rest).length ref ↔
      Within id position 1 ref ∨ Within id (position + 1) rest.length ref := by
    intro ref
    simp only [Within, List.length_cons]
    lia
  have apart : ∀ ref, Within id position 1 ref → ¬ Within id (position + 1) rest.length ref := by
    intro ref
    simp only [Within]
    lia
  -- The first place is not among the later ones, so nothing is counted twice.
  refine ⟨?_, ?_, ?_, ?_⟩
  · intro ref
    rw [later.signals, first.signals]
    simp only [split, List.length_singleton]
    by_cases one : Within id position 1 ref
    · simp [one]
    · simp [one]
  · intro ref
    rw [later.queued, first.queued]
    simp only [split, List.length_singleton]
    by_cases one : Within id position 1 ref
    · simp [one, apart ref one]
    · simp [one]
  · intro ref
    rw [later.carried, first.carried]
  · intro station queue found job member
    rcases later.queue station queue found job member with ⟨middle, there, had⟩ | ⟨within, wanted⟩
    · rcases first.queue station middle there job had with before | ⟨within, wanted⟩
      · exact .inl before
      · refine .inr ⟨(split _).mpr (.inl within), ?_⟩
        obtain ⟨_, low, high⟩ := within
        have equal : job.slot.position - position = 0 := by
          simp only [List.length_singleton] at high
          omega
        rw [equal] at wanted ⊢
        exact wanted
    · refine .inr ⟨(split _).mpr (.inr within), ?_⟩
      obtain ⟨_, low, _⟩ := within
      have equal : job.slot.position - position = job.slot.position - (position + 1) + 1 := by omega
      rw [equal, List.getElem?_cons_succ]
      exact wanted

theorem spread_from (stock : Stock stations s) (known : ∀ product ∈ products, product ∈ stations)
    (id : OrderId) (position : Nat) : (s.dispatchFrom id position products).2 = [] ∧
      Spread s (s.dispatchFrom id position products).1 id position products := by
  induction products generalizing s position with
  | nil =>
    have nowhere : ∀ ref, ¬ Within id position ([] : List String).length ref := by
      intro ref
      simp only [Within, List.length_nil]
      omega
    refine ⟨rfl, ?_, ?_, fun _ => rfl, ?_⟩
    · intro ref
      rw [if_neg (nowhere ref)]
      rfl
    · intro ref
      rw [if_neg (nowhere ref)]
      rfl
    · intro station queue found job member
      exact .inl ⟨queue, found, member⟩
  | cons product rest ih =>
    have here := known product (by simp)
    obtain ⟨quiet, first⟩ := spread_one stock here id position
    obtain ⟨silent, later⟩ := ih (stock.dispatchJob here id position)
      (fun other member => known other (List.mem_cons_of_mem _ member)) (position + 1)
    exact ⟨List.append_eq_nil_iff.mpr ⟨quiet, silent⟩, first.trans later⟩

theorem spread_spread (stock : Stock stations s)
    (known : ∀ product ∈ order.products, product ∈ stations) :
    (s.spread order).2 = [] ∧ Spread s (s.spread order).1 order.id 0 order.products := by
  obtain ⟨quiet, signals, queued, carried, queue⟩ :=
    spread_from (stock.setState order.id .dispatched) known order.id 0
  exact ⟨quiet, signals, queued, carried, queue⟩

namespace Jobs

theorem opened (stations : List String) (workers : Nat) : Jobs (.opened stations workers) := by
  have idle : ∀ runner ∈ (State.opened stations workers).runners, runner.phase = .starting := by
    intro runner member
    obtain ⟨station, _, rfl⟩ := List.mem_map.mp member
    rfl
  refine ⟨?_, ?_, ?_, by simp [State.opened], by simp [State.opened], by simp [State.opened], ?_, ?_⟩
  · intro ref
    have queued : (State.opened stations workers).queued ref = 0 := by
      refine total_eq_zero ?_
      intro entry member
      obtain ⟨station, _, rfl⟩ := List.mem_map.mp member
      rfl
    have carried : (State.opened stations workers).carried ref = 0 := by
      refine total_eq_zero ?_
      intro runner member
      rw [idle runner member]
      rfl
    rw [queued, carried]
    rfl
  · intro station queue found job member
    obtain ⟨other, _, same⟩ := List.mem_map.mp (Table.mem_of_get? found)
    cases same
    cases member
  · intro runner member job has
    rw [idle runner member] at has
    cases has
  · intro i order made failed found
    cases State.phases_opened found
  · intro runner member job item holds
    rw [idle runner member] at holds
    cases holds

def Kept (s t : State) : Prop :=
  ∀ ref signal, s.jobs.get? ref = some signal → ∃ signal, t.jobs.get? ref = some signal

theorem still_posted (jobs : Jobs s) (kept : Kept s t)
    (found : s.phases[i]? = some (.awaiting order made failed)) :
    made.length + failed ≤ order.products.length ∧
      ∀ position, made.length + failed ≤ position → position < order.products.length →
        ∃ signal, t.jobs.get? ⟨order.id, position⟩ = some signal := by
  obtain ⟨bound, posted⟩ := jobs.posted i order made failed found
  refine ⟨bound, ?_⟩
  intro position low high
  obtain ⟨signal, there⟩ := posted position low high
  exact kept _ signal there

-- No signal changes, jobs only change hands, and nobody stops waiting for one.
theorem mono (jobs : Jobs s) (signals : t.jobs = s.jobs)
    (count : ∀ ref, t.queued ref + t.carried ref = s.queued ref + s.carried ref)
    (queued : ∀ (station : String) (queue : JobQueue JobRef),
      t.board.queues.get? station = some queue → ∀ job ∈ queue.jobs, Sought s job.slot station)
    (carried : ∀ runner ∈ t.runners, ∀ job ∈ runner.phase.jobs, Sought s job.slot runner.station)
    (handed : ∀ runner ∈ t.runners, ∀ (job : Job JobRef) (item : Item),
      runner.phase = .holding job item → item.maker = runner.station)
    (seek : ∀ ref station, Sought s ref station → Sought t ref station)
    (later : s.board.nextOrder - s.board.unassigned.length ≤
      (t.board.nextOrder - t.board.unassigned.length : Nat))
    (fresh : ∀ (i : Nat) (order : Order), t.phases[i]? = some (.claimed order) →
      s.phases[i]? = some (.claimed order) ∨
        (s.board.nextOrder - s.board.unassigned.length : Nat) ≤ order.id)
    (posts : ∀ (i : Nat) (order : Order) (made : Tray) (failed : Nat),
      t.phases[i]? = some (.awaiting order made failed) →
        s.phases[i]? = some (.awaiting order made failed)) : Jobs t := by
  refine ⟨?_, ?_, ?_, ?_, ?_, ?_, ?_, handed⟩
  · intro ref
    rw [count, signals]
    exact jobs.once ref
  · intro station queue found job member
    exact seek _ _ (queued station queue found job member)
  · intro runner member job has
    exact seek _ _ (carried runner member job has)
  · intro ref item heard found
    rw [signals] at found
    exact seek _ _ (jobs.answered ref item heard found)
  · rw [signals]
    exact jobs.heard
  · intro ref signal found
    rw [signals] at found
    obtain ⟨bound, apart⟩ := jobs.young ref signal found
    refine ⟨Nat.lt_of_lt_of_le bound later, ?_⟩
    intro i order claimed
    rcases fresh i order claimed with before | new
    · exact apart i order before
    · lia
  · intro i order made failed found
    rw [signals]
    exact jobs.posted i order made failed (posts i order made failed found)

-- A worker's step that touches no job: it was not waiting for one, or has waited for its last.
theorem move (jobs : Jobs s) (here : s.phases[i]? = some old)
    (crew : t.phases = s.phases.set i phase) (signals : t.jobs = s.jobs)
    (queues : t.board.queues = s.board.queues) (runners : t.runners = s.runners)
    (later : s.board.nextOrder - s.board.unassigned.length ≤
      (t.board.nextOrder - t.board.unassigned.length : Nat))
    (done : ∀ order made failed, old = .awaiting order made failed →
      order.products[made.length + failed]? = none)
    (fresh : ∀ order, phase = .claimed order →
      (s.board.nextOrder - s.board.unassigned.length : Nat) ≤ order.id)
    (idle : ∀ order made failed, phase ≠ .awaiting order made failed) : Jobs t := by
  refine jobs.mono signals ?_ ?_ ?_ ?_ ?_ later ?_ ?_
  · intro ref
    rw [State.queued, State.queued, State.carried, State.carried, queues, runners]
  · rw [queues]
    exact jobs.queued
  · rw [runners]
    exact jobs.carried
  · rw [runners]
    exact jobs.handed
  · intro ref station sought
    refine sought.set here crew ?_
    intro order made failed equal _ before wanted
    have past := List.getElem?_eq_none_iff.mp (done order made failed equal)
    have short := (List.getElem?_eq_some_iff.mp wanted).1
    omega
  · intro j order found
    rcases getElem?_set_cases (crew ▸ found) with ⟨_, mine⟩ | ⟨_, before⟩
    · exact .inr (fresh order mine.symm)
    · exact .inl before
  · intro j order made failed found
    rcases getElem?_set_cases (crew ▸ found) with ⟨_, mine⟩ | ⟨_, before⟩
    · exact absurd mine.symm (idle order made failed)
    · exact before

theorem waiting (jobs : Jobs s) (flies : 0 < s.queued ref + s.carried ref) :
    s.jobs.get? ref = some ⟨.waiting, true⟩ := by
  have once := jobs.once ref
  cases found : s.jobs.get? ref with
  | none =>
    rw [found] at once
    simp only [waits] at once
    omega
  | some signal =>
    have listens := jobs.heard ref signal found
    obtain ⟨content, heard⟩ := signal
    cases listens
    rw [found] at once
    cases content with
    | waiting => rfl
    | holding | closed =>
      simp only [waits] at once
      omega

theorem waiting_queued (jobs : Jobs s) (found : s.board.queues.get? station = some queue)
    (member : job ∈ queue.jobs) : s.jobs.get? job.slot = some ⟨.waiting, true⟩ := by
  refine jobs.waiting ?_
  have part : among job.slot queue.jobs ≤ s.queued job.slot :=
    le_total (f := fun entry : String × JobQueue JobRef => among job.slot entry.2.jobs)
      (Table.mem_of_get? found)
  have one := among_pos member
  omega

theorem waiting_carried (jobs : Jobs s) (member : runner ∈ s.runners)
    (has : job ∈ runner.phase.jobs) : s.jobs.get? job.slot = some ⟨.waiting, true⟩ := by
  refine jobs.waiting ?_
  have part : among job.slot runner.phase.jobs ≤ s.carried job.slot :=
    le_total (f := fun runner : Runner => among job.slot runner.phase.jobs) member
  have one := among_pos has
  omega

-- Whatever else is sought still is when a worker has heard the job it waited for.
theorem seek_hear (here : s.phases[i]? = some (.awaiting order made failed))
    (crew : t.phases = s.phases.set i (.awaiting order more less))
    (next : more.length + less = made.length + failed + 1)
    (differ : ref ≠ ⟨order.id, made.length + failed⟩) (sought : Sought s ref station) :
    Sought t ref station := by
  refine sought.set here crew ?_
  intro _ _ _ equal named before _
  cases equal
  refine ⟨more, less, rfl, ?_⟩
  have apart : made.length + failed ≠ ref.position := by
    intro same
    apply differ
    obtain ⟨o, p⟩ := ref
    simp only at named same
    rw [named, same]
  omega

-- A worker hears the job it waits for and goes on to the next. Nobody seeks the job that was heard:
-- it is not on a queue nor with a runner, since its signal waits no more.
theorem hear {heard : Bool} (jobs : Jobs s)
    (here : s.phases[i]? = some (.awaiting order made failed))
    (wanted : order.products[made.length + failed]? = some product)
    (job : s.jobs.get? ⟨order.id, made.length + failed⟩ = some ⟨content, heard⟩)
    (spoke : content ≠ .waiting)
    (crew : t.phases = s.phases.set i (.awaiting order more less))
    (next : more.length + less = made.length + failed + 1)
    (signals : t.jobs = s.jobs.insert ⟨order.id, made.length + failed⟩ ⟨.closed, heard⟩)
    (queues : t.board.queues = s.board.queues) (runners : t.runners = s.runners)
    (number : t.board.nextOrder = s.board.nextOrder)
    (unassigned : t.board.unassigned = s.board.unassigned) : Jobs t := by
  have short := (List.getElem?_eq_some_iff.mp wanted).1
  have silent : s.jobs.get? ⟨order.id, made.length + failed⟩ ≠ some ⟨.waiting, true⟩ := by
    intro equal
    rw [job] at equal
    cases equal
    exact spoke rfl
  refine ⟨?_, ?_, ?_, ?_, ?_, ?_, ?_, runners ▸ jobs.handed⟩
  · intro ref
    have once := jobs.once ref
    rw [State.queued, State.carried, queues, runners, signals, Table.get?_insert]
    split
    next same =>
      subst same
      rw [job] at once
      cases content with
      | waiting => exact absurd rfl spoke
      | holding | closed => exact once
    next => exact once
  · intro station queue found other member
    rw [queues] at found
    refine seek_hear here crew next ?_ (jobs.queued station queue found other member)
    intro same
    exact silent (same ▸ jobs.waiting_queued found member)
  · intro runner member other has
    rw [runners] at member
    refine seek_hear here crew next ?_ (jobs.carried runner member other has)
    intro same
    exact silent (same ▸ jobs.waiting_carried member has)
  · intro ref item heard found
    rw [signals, Table.get?_insert] at found
    split at found
    next => cases found
    next differ =>
      exact seek_hear here crew next (Ne.symm differ) (jobs.answered ref item heard found)
  · intro ref signal found
    rw [signals, Table.get?_insert] at found
    split at found
    next same =>
      cases found
      exact jobs.heard _ ⟨content, heard⟩ job
    next => exact jobs.heard ref signal found
  · intro ref signal found
    have before : ∃ old, s.jobs.get? ref = some old := by
      rw [signals, Table.get?_insert] at found
      split at found
      next same => exact ⟨_, same ▸ job⟩
      next => exact ⟨signal, found⟩
    obtain ⟨old, was⟩ := before
    obtain ⟨bound, apart⟩ := jobs.young ref old was
    rw [number, unassigned]
    refine ⟨bound, ?_⟩
    intro j other claimed
    rcases getElem?_set_cases (crew ▸ claimed) with ⟨_, new⟩ | ⟨_, found⟩
    · cases new
    · exact apart j other found
  · have still : Kept s t := by
      intro ref signal found
      rw [signals, Table.get?_insert]
      split
      · exact ⟨_, rfl⟩
      · exact ⟨signal, found⟩
    intro j other gone lost found
    rcases getElem?_set_cases (crew ▸ found) with ⟨_, new⟩ | ⟨_, before⟩
    · cases new
      obtain ⟨_, posted⟩ := jobs.still_posted still here
      exact ⟨by omega, fun position low high => posted position (by omega) high⟩
    · exact jobs.still_posted still before

-- An order that was claimed and not spread has no jobs.
theorem unknown (jobs : Jobs s) (here : s.phases[i]? = some (.claimed order))
    (named : ref.order = order.id) : s.jobs.get? ref = none := by
  cases found : s.jobs.get? ref with
  | none => rfl
  | some signal => exact absurd named.symm ((jobs.young ref signal found).2 i order here)

-- A worker spreads the jobs of the order it claimed and waits for the first.
theorem dispatch (jobs : Jobs s) (roster : Roster s.board.nextOrder s.board.unassigned s.phases)
    (here : s.phases[i]? = some (.claimed order)) (spread : Spread s t order.id 0 order.products)
    (crew : t.phases = s.phases.set i (.awaiting order [] 0)) (f : Runner → Runner)
    (runners : t.runners = s.runners.map f)
    (same : ∀ runner, (f runner).phase.jobs = runner.phase.jobs ∧
      (f runner).station = runner.station)
    (holds : ∀ (runner : Runner) (job : Job JobRef) (item : Item),
      (f runner).phase = .holding job item → runner.phase = .holding job item)
    (number : t.board.nextOrder = s.board.nextOrder)
    (unassigned : t.board.unassigned = s.board.unassigned) : Jobs t := by
  obtain ⟨signals, queued, carried, queue⟩ := spread
  have inside := (List.getElem?_eq_some_iff.mp here).1
  have now : t.phases[i]? = some (.awaiting order [] 0) := by
    rw [crew, List.getElem?_set_self inside]
  have seek : ∀ (ref : JobRef) (station : String), Sought s ref station → Sought t ref station :=
    fun ref station sought => sought.set here crew (by simp)
  refine ⟨?_, ?_, ?_, ?_, ?_, ?_, ?_, ?_⟩
  · intro ref
    have once := jobs.once ref
    rw [queued, carried, signals]
    by_cases within : Within order.id 0 order.products.length ref
    · rw [jobs.unknown here within.1] at once
      simp only [within, if_true, waits, Signal.fresh] at once ⊢
      omega
    · simp only [within, if_false]
      exact once
  · intro station entry found job member
    rcases queue station entry found job member with ⟨before, there, had⟩ | ⟨within, wanted⟩
    · exact seek _ _ (jobs.queued station before there job had)
    · exact ⟨i, order, [], 0, now, within.1.symm, Nat.zero_le _, wanted⟩
  · intro runner member job has
    rw [runners] at member
    obtain ⟨before, was, rfl⟩ := List.mem_map.mp member
    rw [(same before).1] at has
    rw [(same before).2]
    exact seek _ _ (jobs.carried before was job has)
  · intro ref item heard found
    rw [signals] at found
    split at found
    · cases found
    · exact seek _ _ (jobs.answered ref item heard found)
  · intro ref signal found
    rw [signals] at found
    split at found
    · cases found; rfl
    · exact jobs.heard ref signal found
  · intro ref signal found
    rw [number, unassigned]
    rw [signals] at found
    split at found
    next within =>
      -- The new signals are of an order that only this worker had claimed, and it goes on to wait.
      have claimed := roster.claimed i _ order here rfl
      refine ⟨within.1 ▸ claimed, ?_⟩
      intro j other there equal
      rcases getElem?_set_cases (crew ▸ there) with ⟨_, new⟩ | ⟨differ, before⟩
      · cases new
      · exact differ (roster.apart j i _ _ other order before here rfl rfl (equal.trans within.1))
    next =>
      obtain ⟨bound, apart⟩ := jobs.young ref signal found
      refine ⟨bound, ?_⟩
      intro j other there
      rcases getElem?_set_cases (crew ▸ there) with ⟨_, new⟩ | ⟨_, before⟩
      · cases new
      · exact apart j other before
  · have still : Kept s t := by
      intro ref signal found
      rw [signals]
      split
      · exact ⟨_, rfl⟩
      · exact ⟨signal, found⟩
    intro j other made failed there
    rcases getElem?_set_cases (crew ▸ there) with ⟨rfl, new⟩ | ⟨_, before⟩
    · cases new
      refine ⟨Nat.zero_le _, ?_⟩
      intro position _ short
      refine ⟨.fresh, ?_⟩
      rw [signals, if_pos ⟨rfl, Nat.zero_le _, by simpa using short⟩]
    · exact jobs.still_posted still before
  · intro runner member job item has
    rw [runners] at member
    obtain ⟨before, was, rfl⟩ := List.mem_map.mp member
    rw [(same before).2]
    exact jobs.handed before was job item (holds before job item has)

theorem seeks_awaiting (seeks : old.seeks = true) (order : Order) (made : Tray) (failed : Nat)
    (equal : old = .awaiting order made failed) :
    order.products[made.length + failed]? = none := by
  rw [equal] at seeks
  cases seeks

theorem worker (jobs : Jobs s) (stock : Stock stations s) (orders : Orders s)
    (there : s.workers[i]? = some ⟨old, report⟩)
    (move : WorkerMove s i report old action t events) : Jobs t := by
  have here := State.phases_of there
  have roster := orders.roster
  cases move with
  | claim seeks first =>
    refine jobs.move here (State.phases_setWorker ..) rfl rfl rfl ?_ (seeks_awaiting seeks) ?_ (by simp)
    · simp only [State.withBoard, State.setWorker, first, List.length_cons]
      lia
    · intro other equal
      cases equal
      exact (roster.queued_id (by simp [first])).1
  | leave seeks | rest seeks =>
    exact jobs.move here (State.phases_setWorker ..) rfl rfl rfl (Nat.le_refl _)
      (seeks_awaiting seeks) (by simp) (by simp)
  | @dispatch order =>
    have known := stock.held _ (List.mem_of_getElem? there) order rfl
    obtain ⟨_, signals, queued, carried, queue⟩ := spread_spread stock known
    obtain ⟨woken, runners⟩ := spread_runners s order
    refine jobs.dispatch roster here ⟨signals, queued, carried, queue⟩ (State.phases_spread ..) _
      runners ?_ ?_ (spread_unmanned s order).next (spread_unassigned s order)
    · intro runner
      split
      · exact ⟨wakeRunner_jobs runner, wakeRunner_station runner⟩
      · exact ⟨rfl, rfl⟩
    · intro runner job item has
      split at has
      · exact wakeRunner_holding has
      · exact has
  | receive wanted job =>
    exact jobs.hear here wanted job (by simp) (State.phases_setWorker ..) (by simp; omega) rfl rfl rfl rfl rfl
  | hearBreak wanted job | hearNothing wanted job =>
    exact jobs.hear here wanted job (by simp) (State.phases_setWorker ..) rfl rfl rfl rfl rfl rfl
  | hold done | holdUnslotted done | fail done =>
    refine jobs.move here (State.phases_setWorker ..) rfl rfl rfl (Nat.le_refl _) ?_ (by simp) (by simp)
    rintro _ _ _ ⟨⟩
    exact done
  | _ =>
    exact jobs.move here (State.phases_setWorker ..) rfl rfl rfl (Nat.le_refl _) (by simp) (by simp) (by simp)

-- A runner gets jobs from its queue, or only moves on with those it has.
theorem shift (jobs : Jobs s) (here : s.runners[i]? = some runner)
    (runners : t.runners = s.runners.set i now) (place : now.station = runner.station)
    (workers : t.workers = s.workers) (signals : t.jobs = s.jobs)
    (number : t.board.nextOrder = s.board.nextOrder)
    (unassigned : t.board.unassigned = s.board.unassigned)
    (count : ∀ ref, t.queued ref + among ref now.phase.jobs =
      s.queued ref + among ref runner.phase.jobs)
    (queued : ∀ (station : String) (queue : JobQueue JobRef),
      t.board.queues.get? station = some queue → ∀ job ∈ queue.jobs, Sought s job.slot station)
    (carried : ∀ job ∈ now.phase.jobs, Sought s job.slot runner.station)
    (handed : ∀ (job : Job JobRef) (item : Item), now.phase = .holding job item →
      item.maker = runner.station) : Jobs t := by
  have crew : t.phases = s.phases := by rw [State.phases, State.phases, workers]
  refine jobs.mono signals ?_ queued ?_ ?_ ?_ ?_ ?_ ?_
  · intro ref
    have moved := total_set (f := fun runner : Runner => among ref runner.phase.jobs) here now
    have balance := count ref
    simp only [State.carried, runners]
    omega
  · intro other member job has
    rw [runners] at member
    rcases List.mem_or_eq_of_mem_set member with old | new
    · exact jobs.carried other old job has
    · subst new
      rw [place]
      exact carried job has
  · intro other member job item has
    rw [runners] at member
    rcases List.mem_or_eq_of_mem_set member with old | new
    · exact jobs.handed other old job item has
    · subst new
      rw [place]
      exact handed job item has
  · intro ref station sought
    rw [Sought, crew]
    exact sought
  · exact Nat.le_of_eq (by rw [number, unassigned])
  · rw [crew]
    exact fun _ _ found => .inl found
  · rw [crew]
    exact fun _ _ _ _ found => found

-- An answered job left its runner, and its signal waits no more.
theorem once_answer (jobs : Jobs s) (here : s.runners[i]? = some runner)
    (has : runner.phase.jobs = job :: rest) (runners : t.runners = s.runners.set i now)
    (left : now.phase.jobs = rest) (queues : t.board.queues = s.board.queues)
    (signal : ∀ ref, t.jobs.get? ref =
      if job.slot = ref then some ⟨content, true⟩ else s.jobs.get? ref)
    (said : content ≠ .waiting) (ref : JobRef) :
    t.queued ref + t.carried ref = waits (t.jobs.get? ref) := by
  have waiting := jobs.waiting_carried (List.mem_of_getElem? here) (has ▸ List.mem_cons_self ..)
  have once := jobs.once ref
  have moved := total_set (f := fun runner : Runner => among ref runner.phase.jobs) here now
  simp only [has, left] at moved
  rw [among_cons] at moved
  rw [signal]
  simp only [State.queued, State.carried, queues, runners] at once moved ⊢
  split
  next same =>
    subst same
    rw [waiting] at once
    rw [among_self] at moved
    cases content with
    | waiting => exact absurd rfl said
    | holding | closed =>
      simp only [waits] at once ⊢
      omega
  next differ =>
    have none : among ref [job] = 0 := by simp [among, differ]
    omega

-- A runner answers one of its jobs, or is killed over it.
theorem answer (jobs : Jobs s) (here : s.runners[i]? = some runner)
    (has : runner.phase.jobs = job :: rest)
    (runners : t.runners = s.runners.set i now) (place : now.station = runner.station)
    (left : now.phase.jobs = rest) (free : ∀ job item, now.phase ≠ .holding job item)
    (workers : t.workers = s.workers)
    (signals : t.jobs = s.jobs.modify job.slot change)
    (spoke : change ⟨.waiting, true⟩ = ⟨content, true⟩) (said : content ≠ .waiting)
    (made : ∀ item, content = .holding (.made item) → item.maker = runner.station)
    (queues : t.board.queues = s.board.queues)
    (number : t.board.nextOrder = s.board.nextOrder)
    (unassigned : t.board.unassigned = s.board.unassigned) : Jobs t := by
  have crew : t.phases = s.phases := by rw [State.phases, State.phases, workers]
  have member := List.mem_of_getElem? here
  have mine : job ∈ runner.phase.jobs := by simp [has]
  have waiting := jobs.waiting_carried member mine
  have seek : ∀ ref station, Sought s ref station → Sought t ref station := by
    intro ref station sought
    rw [Sought, crew]
    exact sought
  have signal : ∀ ref, t.jobs.get? ref =
      if job.slot = ref then some ⟨content, true⟩ else s.jobs.get? ref := by
    intro ref
    rw [signals, Table.get?_modify]
    split
    next same => rw [← same, waiting, Option.map_some, spoke]
    next => rfl
  refine ⟨jobs.once_answer here has runners left queues signal said, ?_, ?_, ?_, ?_, ?_, ?_, ?_⟩
  · intro station queue found
    rw [queues] at found
    exact fun job member => seek _ _ (jobs.queued station queue found job member)
  · intro other among job holds
    rw [runners] at among
    rcases List.mem_or_eq_of_mem_set among with old | new
    · exact seek _ _ (jobs.carried other old job holds)
    · subst new
      rw [place]
      refine seek _ _ (jobs.carried runner member job ?_)
      rw [has]
      exact List.mem_cons_of_mem _ (left ▸ holds)
  · intro ref item heard found
    rw [signal] at found
    split at found
    next same =>
      cases found
      rw [made item rfl, ← same]
      exact seek _ _ (jobs.carried runner member job mine)
    next => exact seek _ _ (jobs.answered ref item heard found)
  · intro ref other found
    rw [signal] at found
    split at found
    · cases found; rfl
    · exact jobs.heard ref other found
  · intro ref other found
    rw [number, unassigned, crew]
    rw [signal] at found
    split at found
    next same => exact same ▸ jobs.young _ _ waiting
    next => exact jobs.young ref other found
  · have still : Kept s t := by
      intro ref other found
      rw [signal]
      split
      · exact ⟨_, rfl⟩
      · exact ⟨other, found⟩
    intro j order tray failed found
    exact jobs.still_posted still (crew ▸ found)
  · intro other among job item holds
    rw [runners] at among
    rcases List.mem_or_eq_of_mem_set among with old | new
    · exact jobs.handed other old job item holds
    · subst new
      exact absurd holds (free job item)

theorem count_setQueue (present : s.board.queues.get? station = some queue)
    (rest : JobQueue JobRef) (ref : JobRef) :
    (s.setQueue station rest).queued ref + among ref queue.jobs =
      s.queued ref + among ref rest.jobs :=
  Table.sum_insert present rest _

theorem count_take (present : s.board.queues.get? station = some queue)
    (popped : queue.pop? = some (job, rest)) (ref : JobRef) :
    (s.setQueue station rest).queued ref + among ref [job] = s.queued ref + 0 := by
  have moved := count_setQueue present rest ref
  rw [among_perm (JobQueue.pop_perm popped), among_cons] at moved
  omega

theorem count_drain (present : s.board.queues.get? station = some queue) (ref : JobRef) :
    (s.setQueue station queue.drain.2).queued ref + among ref queue.drain.1 = s.queued ref := by
  obtain ⟨perm, nothing⟩ := queue.drain_perm
  have moved := count_setQueue present queue.drain.2 ref
  rw [nothing, ← among_perm perm] at moved
  exact moved

theorem queued_setQueue (jobs : Jobs s) (present : s.board.queues.get? station = some queue)
    (fewer : ∀ job ∈ rest.jobs, job ∈ queue.jobs) (other : String) (found : JobQueue JobRef)
    (there : (s.setQueue station rest).board.queues.get? other = some found) :
    ∀ job ∈ found.jobs, Sought s job.slot other := by
  intro job member
  change (s.board.queues.insert station rest).get? other = some found at there
  rw [Table.get?_insert] at there
  split at there
  next same =>
    subst same
    cases there
    exact jobs.queued station queue present job (fewer job member)
  next => exact jobs.queued other found there job member

theorem seeks_jobs (seeks : was.seeks = true) : was.jobs = [] := by
  cases was <;> first | rfl | cases seeks

theorem runner {calls : Nat} (jobs : Jobs s)
    (here : s.runners[i]? = some ⟨station, was, out, calls⟩)
    (move : RunnerMove s i station out calls was action t events) : Jobs t := by
  have mine := fun job => jobs.carried _ (List.mem_of_getElem? here) job
  cases move with
  | take seeks present popped =>
    have perm := JobQueue.pop_perm popped
    refine jobs.shift here rfl rfl rfl rfl rfl rfl ?_ (jobs.queued_setQueue present ?_) ?_ (by simp)
    · intro ref
      rw [show (⟨station, was, out, calls⟩ : Runner).phase.jobs = [] from seeks_jobs seeks]
      exact count_take present popped ref
    · exact fun other member => perm.mem_iff.mpr (List.mem_cons_of_mem _ member)
    · intro other member
      cases List.mem_singleton.mp member
      exact jobs.queued station _ present _ (perm.mem_iff.mpr (by simp))
  | leave seeks | rest seeks =>
    refine jobs.shift here rfl rfl rfl rfl rfl rfl ?_ jobs.queued (by simp [RunnerPhase.jobs]) (by simp)
    intro ref
    rw [show (⟨station, was, out, calls⟩ : Runner).phase.jobs = [] from seeks_jobs seeks]
    rfl
  | refuse _ result =>
    subst result
    exact jobs.answer here rfl rfl rfl rfl (by simp) rfl rfl rfl (by simp) (by simp) rfl rfl rfl
  | @handOver job item =>
    refine jobs.answer here rfl rfl rfl rfl (by simp) rfl rfl rfl (by simp) ?_ rfl rfl rfl
    rintro _ ⟨⟩
    exact jobs.handed _ (List.mem_of_getElem? here) job item rfl
  | @breakDown queue job error present =>
    obtain ⟨perm, nothing⟩ := queue.drain_perm
    refine jobs.shift here rfl rfl rfl rfl rfl rfl ?_ (jobs.queued_setQueue present ?_) ?_ (by simp)
    · intro ref
      have moved := count_drain present ref
      have split : among ref (job :: queue.drain.1) = _ := among_cons job queue.drain.1
      simp only [RunnerPhase.jobs] at split ⊢
      change (s.setQueue station queue.drain.2).queued ref + _ = _
      omega
    · rw [nothing]
      simp
    · intro other member
      rcases List.mem_cons.mp member with rfl | swept
      · exact mine other (List.mem_singleton_self _)
      · exact jobs.queued station queue present other (perm.mem_iff.mp swept)
  | breakDownQueueless =>
    exact jobs.shift here rfl rfl rfl rfl rfl rfl (fun _ => rfl) jobs.queued mine (by simp)
  | sweep => exact jobs.answer here rfl rfl rfl rfl (by simp) rfl rfl rfl (by simp) (by simp) rfl rfl rfl
  | crash => exact jobs.answer here rfl rfl rfl rfl (by simp) rfl rfl rfl (by simp) (by simp) rfl rfl rfl
  | make =>
    refine jobs.shift here rfl rfl rfl rfl rfl rfl (fun _ => rfl) jobs.queued mine ?_
    rintro _ _ ⟨⟩
    rfl
  | _ => exact jobs.shift here rfl rfl rfl rfl rfl rfl (fun _ => rfl) jobs.queued mine (by simp)

-- Whoever is only told something keeps the jobs he has or waits for.
theorem wake (jobs : Jobs s) (f : WorkerPhase → WorkerPhase) (crew : t.phases = s.phases.map f)
    (keeps : ∀ order made failed, f (.awaiting order made failed) = .awaiting order made failed)
    (only : ∀ phase order made failed, f phase = .awaiting order made failed →
      phase = .awaiting order made failed)
    (claims : ∀ phase order, f phase = .claimed order → phase = .claimed order)
    (g : Runner → Runner) (runners : t.runners = s.runners.map g)
    (same : ∀ runner, (g runner).phase.jobs = runner.phase.jobs ∧
      (g runner).station = runner.station)
    (holds : ∀ (runner : Runner) (job : Job JobRef) (item : Item),
      (g runner).phase = .holding job item → runner.phase = .holding job item)
    (signals : t.jobs = s.jobs) (queues : t.board.queues = s.board.queues)
    (later : s.board.nextOrder - s.board.unassigned.length ≤
      (t.board.nextOrder - t.board.unassigned.length : Nat)) : Jobs t := by
  refine jobs.mono signals ?_ (queues ▸ jobs.queued) ?_ ?_ ?_ later ?_ ?_
  · intro ref
    rw [carried_map g runners (fun runner => (same runner).1), State.queued, State.queued, queues]
  · intro runner member job has
    rw [runners] at member
    obtain ⟨before, was, rfl⟩ := List.mem_map.mp member
    rw [(same before).1] at has
    rw [(same before).2]
    exact jobs.carried before was job has
  · intro runner member job item has
    rw [runners] at member
    obtain ⟨before, was, rfl⟩ := List.mem_map.mp member
    rw [(same before).2]
    exact jobs.handed before was job item (holds before job item has)
  · exact fun ref station sought => sought.map f crew keeps
  · intro i order found
    rw [crew, List.getElem?_map] at found
    obtain ⟨phase, there, equal⟩ := Option.map_eq_some_iff.mp found
    exact .inl (claims phase order equal ▸ there)
  · intro i order made failed found
    rw [crew, List.getElem?_map] at found
    obtain ⟨phase, there, equal⟩ := Option.map_eq_some_iff.mp found
    exact only phase order made failed equal ▸ there

-- Nothing that jobs are about has changed.
theorem same (jobs : Jobs s) (workers : t.workers = s.workers) (runners : t.runners = s.runners)
    (signals : t.jobs = s.jobs) (queues : t.board.queues = s.board.queues)
    (later : s.board.nextOrder - s.board.unassigned.length ≤
      (t.board.nextOrder - t.board.unassigned.length : Nat)) : Jobs t := by
  have crew : t.phases = s.phases := by rw [State.phases, State.phases, workers]
  exact jobs.wake id (by rw [crew, List.map_id]) (fun _ _ _ => rfl) (fun _ _ _ _ => id)
    (fun _ _ => id) id (by rw [runners, List.map_id]) (fun _ => ⟨rfl, rfl⟩) (fun _ _ _ => id)
    signals queues later

theorem client (jobs : Jobs s) (move : ClientMove s action t events) : Jobs t := by
  have accept : ∀ products, Jobs (s.accept products) := by
    intro products
    refine jobs.same rfl rfl rfl rfl ?_
    simp only [State.accept, List.length_append, List.length_singleton]
    lia
  cases move with
  | place => exact accept _
  | @placeWaking products i report _ _ sleeper =>
    have here : (s.accept products).phases[i]? = some (.asleep false) := State.phases_of sleeper
    exact (accept products).move here (State.phases_setWorker ..) rfl rfl rfl (Nat.le_refl _) (by simp)
      (by simp) (by simp)
  | @collectReady _ id =>
    have crew := State.phases_notifyPickup (s.withBoard fun b =>
      { b with slots := b.slots.insert id ⟨.pickedUp, false⟩ }) id
    exact jobs.wake (·.wakePickup id) crew (fun _ _ _ => rfl)
      (fun _ _ _ _ equal => WorkerPhase.wakePickup_eq equal (by simp))
      (fun _ _ equal => WorkerPhase.wakePickup_eq equal (by simp)) _ (List.map_id _).symm
      (fun _ => ⟨rfl, rfl⟩) (fun _ _ _ => fun h => h) rfl rfl (Nat.le_refl _)
  | usePager _ move =>
    obtain ⟨board, workers, runners, signals, _⟩ := move.frame
    exact jobs.same workers runners signals (by rw [board]) (Nat.le_of_eq (by rw [board]))
  | _ => exact jobs.same rfl rfl rfl rfl (Nat.le_refl _)

theorem shutdown (jobs : Jobs s) (move : ShutdownMove s call stage t events) : Jobs t := by
  cases move with
  | wakeWorkers =>
    exact jobs.wake (·.wake) (State.phases_wakeAllWorkers s) (fun _ _ _ => rfl)
      (fun _ _ _ _ equal => WorkerPhase.wake_eq equal (by simp))
      (fun _ _ equal => WorkerPhase.wake_eq equal (by simp)) _ (List.map_id _).symm
      (fun _ => ⟨rfl, rfl⟩) (fun _ _ _ => fun h => h) rfl rfl (Nat.le_refl _)
  | wakeStations | wakeReleased =>
    exact jobs.wake _ (List.map_id _).symm (fun _ _ _ => rfl) (fun _ _ _ _ => fun h => h)
      (fun _ _ => fun h => h) State.wakeRunner rfl
      (fun runner => ⟨wakeRunner_jobs runner, wakeRunner_station runner⟩)
      (fun _ _ _ => wakeRunner_holding) rfl rfl (Nat.le_refl _)
  | _ => exact jobs.same rfl rfl rfl rfl (Nat.le_refl _)

theorem step (jobs : Jobs s) (stock : Stock stations s) (orders : Orders s)
    (step : Transition s action t events) : Jobs t := by
  cases step with
  | worker here move => exact jobs.worker stock orders here move
  | runner here move => exact jobs.runner here move
  | client move => exact jobs.client move
  | shutdown _ move => exact jobs.shutdown move

theorem run (jobs : Jobs s) (stock : Stock stations s) (orders : Orders s)
    (run : Run s actions events t) : Jobs t := by
  induction run with
  | start => exact jobs
  | next before ran ih =>
    exact ih.step (stock.run before) (orders.run before) (transition_of_step ran)

end Jobs

end Kitchen.Engine
