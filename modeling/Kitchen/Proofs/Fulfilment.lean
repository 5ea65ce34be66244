import Kitchen.Proofs.Deliveries
import Kitchen.Proofs.Gathering

-- What comes of an order whose jobs are under way. Its worker listens to one job after the other,
-- while others bring the jobs to their ends in whatever order, before it listens or while it does.
-- What it has in the end, and what it does with it, follows from how each job ended.

namespace Kitchen

namespace Report

def missing (report : Report) (products : List String) : Report :=
  { report with failedProducts := report.failedProducts ++ products }

theorem missing_nil (report : Report) : report.missing [] = report := by
  simp [missing]

theorem missing_missing (report : Report) (products more : List String) :
    (report.missing products).missing more = report.missing (products ++ more) := by
  simp [missing]

end Report

namespace Engine

variable {s t : State} {action : Action} {actions : List Action} {events more : List Event}
  {i j n position : Nat} {report before : Report} {order : Order} {made rest : Tray} {failed : Nat}
  {phase old : WorkerPhase} {product : String} {outcome : Option JobResult}
  {outcomes : List (Option JobResult)} {pairs : List (String × Option JobResult)}
  {calls : List (String × Item)} {first : State} {stations : List String} {workers : Nat}

-- What the jobs of an order came to.

-- The signal of a job that came to a result, or whose sender was dropped.
def signalOf : Option JobResult → Signal JobResult
  | some result => (Signal.fresh.resolve result).2
  | none => Signal.fresh.dropSender

-- What was ordered, place by place, with what the job of the place came to.
def entries (order : Order) (outcomes : List (Option JobResult)) :
    List (String × Option JobResult) :=
  order.products.zip outcomes

-- What was made, under the names under which it was ordered.
def yielded (pairs : List (String × Option JobResult)) : Tray :=
  pairs.filterMap fun
    | (product, some (.made item)) => some (product, item)
    | _ => none

-- The names of what was not made.
def missed (pairs : List (String × Option JobResult)) : List String :=
  pairs.filterMap fun
    | (_, some (.made _)) => none
    | (product, _) => some product

def Spoiled (outcomes : List (Option JobResult)) : Prop :=
  ∃ outcome ∈ outcomes, ∀ item, outcome ≠ some (.made item)

theorem yielded_append (pairs others : List (String × Option JobResult)) :
    yielded (pairs ++ others) = yielded pairs ++ yielded others :=
  List.filterMap_append

theorem missed_append (pairs others : List (String × Option JobResult)) :
    missed (pairs ++ others) = missed pairs ++ missed others :=
  List.filterMap_append

theorem yielded_missed (pairs : List (String × Option JobResult)) :
    (yielded pairs).length + (missed pairs).length = pairs.length := by
  induction pairs with
  | nil => rfl
  | cons entry rest ih =>
    obtain ⟨product, outcome⟩ := entry
    rw [List.length_cons]
    rcases outcome with _ | (item | error)
    all_goals
      simp only [yielded, missed, List.filterMap_cons, List.length_cons] at ih ⊢
      omega

theorem mem_missed : product ∈ missed pairs ↔
    ∃ outcome, (product, outcome) ∈ pairs ∧ ∀ item, outcome ≠ some (.made item) := by
  simp only [missed, List.mem_filterMap]
  constructor
  · rintro ⟨⟨name, outcome⟩, member, none⟩
    rcases outcome with _ | (item | error) <;> cases none <;> exact ⟨_, member, by simp⟩
  · rintro ⟨outcome, member, failed⟩
    refine ⟨_, member, ?_⟩
    rcases outcome with _ | (item | error)
    · rfl
    · exact absurd rfl (failed item)
    · rfl

theorem mem_yielded {item : Item} :
    (product, item) ∈ yielded pairs ↔ (product, some (.made item)) ∈ pairs := by
  simp only [yielded, List.mem_filterMap]
  constructor
  · rintro ⟨⟨name, outcome⟩, member, same⟩
    rcases outcome with _ | (made | error) <;> cases same
    exact member
  · exact fun member => ⟨_, member, rfl⟩

theorem length_entries (aligned : outcomes.length = order.products.length) :
    (entries order outcomes).length = order.products.length := by
  simp [entries, aligned]

theorem entry_at (aligned : outcomes.length = order.products.length)
    (inside : n < order.products.length) : ∃ product outcome,
      order.products[n]? = some product ∧ outcomes[n]? = some outcome := by
  have reached : n < outcomes.length := by
    rw [aligned]
    exact inside
  exact ⟨_, _, List.getElem?_eq_getElem inside, List.getElem?_eq_getElem reached⟩

theorem take_entries (wanted : order.products[n]? = some product)
    (came : outcomes[n]? = some outcome) : (entries order outcomes).take (n + 1) =
      (entries order outcomes).take n ++ [(product, outcome)] := by
  have entry : (entries order outcomes)[n]? = some (product, outcome) :=
    List.getElem?_zip_eq_some.mpr ⟨wanted, came⟩
  rw [List.take_add_one, entry, Option.toList_some]

theorem spoiled_iff (aligned : outcomes.length = order.products.length) :
    Spoiled outcomes ↔ missed (entries order outcomes) ≠ [] := by
  constructor
  · rintro ⟨outcome, member, failed⟩ none
    obtain ⟨p, found⟩ := List.getElem?_of_mem member
    have inside := (List.getElem?_eq_some_iff.mp found).1
    rw [aligned] at inside
    obtain ⟨product, _, wanted, _⟩ := entry_at aligned inside
    have entry : (product, outcome) ∈ entries order outcomes :=
      List.mem_of_getElem? (List.getElem?_zip_eq_some.mpr ⟨wanted, found⟩)
    have listed := mem_missed.mpr ⟨outcome, entry, failed⟩
    rw [none] at listed
    cases listed
  · intro some
    obtain ⟨product, member⟩ := List.exists_mem_of_ne_nil _ some
    obtain ⟨outcome, entry, failed⟩ := mem_missed.mp member
    exact ⟨outcome, (List.of_mem_zip entry).2, failed⟩

-- How a worker carries out an order while others go about their business.

def Action.ofWorker (i : Nat) (action : Action) : Prop :=
  action = .worker i ∨ ∃ end', action = .returned i end'

-- The order's jobs are under way, or something of it goes back because a job failed.
def WorkerPhase.fulfils (order : Order) : WorkerPhase → Prop
  | .awaiting other _ _ | .returning other .failed _ | .handingBack other .failed .. => other = order
  | _ => False

-- The worker has posted the jobs of its order and has not listened to any of them. Each is still
-- unanswered, or came to its end already.
structure Begins (i : Nat) (order : Order) (outcomes : List (Option JobResult)) (before : Report)
    (s : State) : Prop where
  here : s.workers[i]? = some ⟨.awaiting order [] 0, before⟩
  aligned : outcomes.length = order.products.length
  slot : ∃ slot, s.board.slots.get? order.id = some slot
  jobs : ∀ (position : Nat) outcome, outcomes[position]? = some outcome →
    s.jobs.get? ⟨order.id, position⟩ = some .fresh ∨
      s.jobs.get? ⟨order.id, position⟩ = some (signalOf outcome)
  stations : ∀ product item, (product, item) ∈ yielded (entries order outcomes) →
    s.hasStation product = true

-- What others do: they leave the worker alone, and the order as long as its worker waits for jobs; at
-- any time they can bring any of its jobs to the end to which it comes.
structure Aside (i : Nat) (order : Order) (outcomes : List (Option JobResult)) (s t : State) :
    Prop where
  worker : t.workers[i]? = s.workers[i]?
  slot : (∃ made failed report, s.workers[i]? = some ⟨.awaiting order made failed, report⟩) →
    (∃ slot, s.board.slots.get? order.id = some slot) →
      ∃ slot, t.board.slots.get? order.id = some slot
  jobs : ∀ (position : Nat) outcome, outcomes[position]? = some outcome →
    t.jobs.get? ⟨order.id, position⟩ = s.jobs.get? ⟨order.id, position⟩ ∨
      s.jobs.get? ⟨order.id, position⟩ = some .fresh ∧
        t.jobs.get? ⟨order.id, position⟩ = some (signalOf outcome)
  stations : ∀ product, t.hasStation product = s.hasStation product

-- From the posting of the jobs on, with the calls by which the worker gave products back.
inductive Fulfils (i : Nat) (order : Order) (outcomes : List (Option JobResult)) (before : Report)
    (first : State) : List (String × Item) → State → Prop where
  | start (begins : Begins i order outcomes before first) :
      Fulfils i order outcomes before first [] first
  | others {calls : List (String × Item)} {s t : State}
      (past : Fulfils i order outcomes before first calls s)
      (aside : Aside i order outcomes s t) : Fulfils i order outcomes before first calls t
  | own {calls : List (String × Item)} {s t : State} {phase : WorkerPhase} {report : Report}
      {action : Action} {more : List Event}
      (past : Fulfils i order outcomes before first calls s)
      (here : s.workers[i]? = some ⟨phase, report⟩) (busy : phase.fulfils order)
      (mine : action.ofWorker i)
      (ran : s.step action = some (t, more)) :
      Fulfils i order outcomes before first (calls ++ more.filterMap Event.returned?) t

theorem Transition.of_worker (step : Transition s action t events)
    (here : s.workers[i]? = some ⟨phase, report⟩)
    (mine : action.ofWorker i) :
    WorkerMove s i report phase action t events := by
  cases step with
  | @worker k _ _ _ _ _ there move =>
    have same : k = i := by
      rcases mine with rfl | ⟨_, rfl⟩ <;> rcases move.own with own | own | ⟨_, own⟩ <;> cases own <;>
        rfl
    subst same
    cases here.symm.trans there
    exact move
  | runner _ move => rcases mine with rfl | ⟨_, rfl⟩ <;> cases move
  | client move =>
    rcases mine with rfl | ⟨_, rfl⟩ <;> cases move
  | shutdown => rcases mine with mine | ⟨_, mine⟩ <;> cases mine

-- The job for which it waits came to an end: the worker hears of it.
theorem hear_step (here : s.workers[i]? = some ⟨.awaiting order made failed, report⟩)
    (wanted : order.products[made.length + failed]? = some product)
    (job : s.jobs.get? ⟨order.id, made.length + failed⟩ = some (signalOf outcome)) :
    ∃ more, more.filterMap Event.returned? = [] ∧ s.step (.worker i) = some
      ((s.hearJob ⟨order.id, made.length + failed⟩ true).setWorker i
        ⟨.awaiting order (made ++ yielded [(product, outcome)])
          (failed + (missed [(product, outcome)]).length),
          report.missing (missed [(product, outcome)])⟩, more) := by
  rcases outcome with _ | (item | error)
  · refine ⟨[.noticed (.productAbandoned i order.id product)], rfl, ?_⟩
    simp only [State.step, State.stepWorker, here, wanted, State.receiveJob, job]
    simp [signalOf, Signal.wait?, Signal.take, Signal.dropSender, Signal.fresh, yielded, missed,
      State.countFailure, State.hearJob, Report.missing]
  · refine ⟨[], rfl, ?_⟩
    have kept : (s.hearJob ⟨order.id, made.length + failed⟩ true).workers[i]? =
        some ⟨.awaiting order made failed, report⟩ := here
    rw [show missed [(product, some (.made item))] = [] from rfl, Report.missing_nil,
      ← State.setPhase_eq kept]
    simp only [State.step, State.stepWorker, here, wanted, State.receiveJob, job]
    rfl
  · refine ⟨[.noticed (.productFailed i order.id product error)], rfl, ?_⟩
    simp only [State.step, State.stepWorker, here, wanted, State.receiveJob, job]
    simp [signalOf, Signal.wait?, Signal.take, Signal.resolve, Signal.fresh, yielded, missed,
      State.countFailure, State.hearJob, Report.missing]

-- Where the worker is once it has listened to the first `n` jobs.

def listening (order : Order) (outcomes : List (Option JobResult)) (n : Nat) : WorkerPhase :=
  .awaiting order (yielded ((entries order outcomes).take n))
    (missed ((entries order outcomes).take n)).length

def noted (order : Order) (outcomes : List (Option JobResult)) (before : Report) (n : Nat) : Report :=
  before.missing (missed ((entries order outcomes).take n))

-- It has received the first `n` jobs and none of the others.
structure Heard (order : Order) (outcomes : List (Option JobResult)) (s : State) (n : Nat) :
    Prop where
  short : n ≤ order.products.length
  slot : ∃ slot, s.board.slots.get? order.id = some slot
  past : ∀ position, position < n → s.jobs.get? ⟨order.id, position⟩ = some ⟨.closed, true⟩
  ahead : ∀ (position : Nat) outcome, n ≤ position → outcomes[position]? = some outcome →
    s.jobs.get? ⟨order.id, position⟩ = some .fresh ∨
      s.jobs.get? ⟨order.id, position⟩ = some (signalOf outcome)

theorem place_eq (aligned : outcomes.length = order.products.length)
    (short : n ≤ order.products.length) :
    (yielded ((entries order outcomes).take n)).length +
      (missed ((entries order outcomes).take n)).length = n := by
  rw [yielded_missed, List.length_take, length_entries aligned, Nat.min_eq_left short]

theorem take_all (aligned : outcomes.length = order.products.length) :
    (entries order outcomes).take order.products.length = entries order outcomes := by
  rw [← length_entries aligned, List.take_length]

theorem listen_step (aligned : outcomes.length = order.products.length)
    (here : s.workers[i]? = some ⟨listening order outcomes n, noted order outcomes before n⟩)
    (wanted : order.products[n]? = some product) (came : outcomes[n]? = some outcome)
    (job : s.jobs.get? ⟨order.id, n⟩ = some (signalOf outcome)) :
    ∃ more, more.filterMap Event.returned? = [] ∧ s.step (.worker i) = some
      ((s.hearJob ⟨order.id, n⟩ true).setWorker i
        ⟨listening order outcomes (n + 1), noted order outcomes before (n + 1)⟩, more) := by
  have place := place_eq aligned (Nat.le_of_lt (List.getElem?_eq_some_iff.mp wanted).1)
  obtain ⟨more, quiet, ran⟩ := hear_step here (place.symm ▸ wanted) (place.symm ▸ job)
  refine ⟨more, quiet, ?_⟩
  rw [ran, place, noted, Report.missing_missing]
  simp only [listening, noted, take_entries wanted came, yielded_append, missed_append,
    List.length_append]

-- It does not go on before.
theorem unheard_step (aligned : outcomes.length = order.products.length)
    (here : s.workers[i]? = some ⟨listening order outcomes n, report⟩)
    (wanted : order.products[n]? = some product)
    (job : s.jobs.get? ⟨order.id, n⟩ = some .fresh) : s.step (.worker i) = none := by
  have place := place_eq aligned (Nat.le_of_lt (List.getElem?_eq_some_iff.mp wanted).1)
  rw [listening] at here
  simp only [State.step, State.stepWorker, here, place, wanted, State.receiveJob, job]
  rfl

-- Of the other jobs nothing changes.
theorem jobs_after (apart : n ≠ position) (worker : Worker) :
    ((s.hearJob ⟨order.id, n⟩ true).setWorker i worker).jobs.get? ⟨order.id, position⟩ =
      s.jobs.get? ⟨order.id, position⟩ :=
  Table.get?_insert_of_ne _ _ fun same => apart (congrArg JobRef.position same)

theorem Heard.next (heard : Heard order outcomes s n) (inside : n < order.products.length)
    (worker : Worker) : Heard order outcomes ((s.hearJob ⟨order.id, n⟩ true).setWorker i worker)
      (n + 1) := by
  refine ⟨inside, heard.slot, ?_, ?_⟩
  · intro position below
    by_cases last : n = position
    · subst last
      exact Table.get?_insert_self ..
    · rw [jobs_after last]
      exact heard.past position (by omega)
  · intro position outcome beyond found
    rw [jobs_after (by omega)]
    exact heard.ahead position outcome (by omega) found

-- With every job received, the order is ready or has failed.

theorem ready_step (aligned : outcomes.length = order.products.length)
    (here : s.workers[i]? = some ⟨listening order outcomes order.products.length,
      noted order outcomes before order.products.length⟩)
    (slot : ∃ slot, s.board.slots.get? order.id = some slot) (clean : ¬ Spoiled outcomes) :
    s.step (.worker i) = some ((s.ready order.id).setWorker i
      ⟨.holding order (yielded (entries order outcomes)) false, before⟩,
      [.noticed (.orderReady order.id i)]) := by
  have none : missed (entries order outcomes) = [] := by
    by_contra some
    exact clean ((spoiled_iff aligned).mpr some)
  have place := place_eq aligned (Nat.le_refl order.products.length)
  obtain ⟨slot, found⟩ := slot
  have kept : (s.ready order.id).workers[i]? =
      some ⟨listening order outcomes order.products.length, before⟩ := by
    rw [noted, take_all aligned, none, Report.missing_nil] at here
    exact here
  rw [listening, noted] at here
  rw [← State.setPhase_eq kept]
  rw [take_all aligned, none] at here place
  have whole : order.products[(yielded (entries order outcomes)).length + 0]? = .none := by
    rw [List.getElem?_eq_none_iff]
    exact Nat.le_of_eq place.symm
  simp only [State.step, State.stepWorker, here, List.length_nil, whole, if_true, State.holdForPickup]
  change some (if (s.ready order.id).board.orderState order.id = some .ready then _ else _) = _
  rw [if_pos (State.ready_state found)]
  rfl

theorem fail_step (aligned : outcomes.length = order.products.length)
    (here : s.workers[i]? = some ⟨listening order outcomes order.products.length,
      noted order outcomes before order.products.length⟩)
    (spoiled : Spoiled outcomes) :
    s.step (.worker i) = some ((s.spoil order.id).setWorker i
      ⟨.returning order .failed (yielded (entries order outcomes)),
        (before.missing (missed (entries order outcomes))).spoil order⟩,
      [.noticed (.orderFailed order.id i (yielded (entries order outcomes)).length)]) := by
  have some' := (spoiled_iff aligned).mp spoiled
  have place := place_eq aligned (Nat.le_refl order.products.length)
  rw [listening, noted] at here
  rw [take_all aligned] at here place
  have whole : order.products[(yielded (entries order outcomes)).length +
      (missed (entries order outcomes)).length]? = .none := by
    rw [List.getElem?_eq_none_iff]
    exact Nat.le_of_eq place.symm
  have lost : (missed (entries order outcomes)).length ≠ 0 := by
    rw [ne_eq, List.length_eq_zero_iff]
    exact some'
  simp only [State.step, State.stepWorker, here, whole, if_neg lost]
  rfl

def spoilt (order : Order) (outcomes : List (Option JobResult)) (before : Report) : Report :=
  (before.missing (missed (entries order outcomes))).spoil order

-- How far the worker is, its report, and the calls by which it gave products back.
inductive Stage (order : Order) (outcomes : List (Option JobResult)) (before : Report) (s : State) :
    List (String × Item) → WorkerPhase → Report → Prop where
  | listening {n : Nat} (heard : Heard order outcomes s n) :
      Stage order outcomes before s [] (listening order outcomes n) (noted order outcomes before n)
  | ready (clean : ¬ Spoiled outcomes) :
      Stage order outcomes before s [] (.holding order (yielded (entries order outcomes)) false) before
  | returning {calls : List (String × Item)} {rest : Tray} (spoiled : Spoiled outcomes)
      (split : calls ++ rest = yielded (entries order outcomes)) :
      Stage order outcomes before s calls (.returning order .failed rest) (spoilt order outcomes before)
  | handing {calls : List (String × Item)} {rest : Tray} {product : String} {item : Item}
      (spoiled : Spoiled outcomes) (split : calls ++ rest = yielded (entries order outcomes)) :
      Stage order outcomes before s calls (.handingBack order .failed product item rest)
        (spoilt order outcomes before)
  | told (spoiled : Spoiled outcomes) :
      Stage order outcomes before s (yielded (entries order outcomes)) .free
        (spoilt order outcomes before)
  | crashed {calls : List (String × Item)} {rest : Tray} (spoiled : Spoiled outcomes)
      (split : calls ++ rest = yielded (entries order outcomes)) :
      Stage order outcomes before s calls .dead (spoilt order outcomes before)

theorem Heard.aside (heard : Heard order outcomes s n)
    (aligned : outcomes.length = order.products.length)
    (here : s.workers[i]? = some ⟨listening order outcomes n, report⟩)
    (aside : Aside i order outcomes s t) : Heard order outcomes t n := by
  refine ⟨heard.short, aside.slot ⟨_, _, _, here⟩ heard.slot, ?_, ?_⟩
  · intro position below
    obtain ⟨_, _, _, came⟩ := entry_at aligned (Nat.lt_of_lt_of_le below heard.short)
    rcases aside.jobs position _ came with same | ⟨fresh, _⟩
    · rw [same]
      exact heard.past position below
    · cases (heard.past position below).symm.trans fresh
  · intro position outcome beyond found
    rcases aside.jobs position outcome found with same | ⟨_, ended⟩
    · rw [same]
      exact heard.ahead position outcome beyond found
    · exact .inr ended

-- What is told of a worker by its phase.

theorem Stage.of_returning
    (stage : Stage order outcomes before s calls (.returning order .failed rest) report) :
    report = spoilt order outcomes before ∧ calls ++ rest = yielded (entries order outcomes) := by
  generalize backs : WorkerPhase.returning order .failed rest = phase at stage
  cases stage with
  | returning _ split =>
    cases backs
    exact ⟨rfl, split⟩
  | _ => cases backs

theorem Stage.of_handing {item : Item}
    (stage : Stage order outcomes before s calls (.handingBack order .failed product item rest) report) :
    report = spoilt order outcomes before ∧ calls ++ rest = yielded (entries order outcomes) := by
  generalize gives : WorkerPhase.handingBack order .failed product item rest = phase at stage
  cases stage with
  | handing _ split =>
    cases gives
    exact ⟨rfl, split⟩
  | _ => cases gives

theorem Stage.of_free (stage : Stage order outcomes before s calls .free report) :
    report = spoilt order outcomes before ∧ calls = yielded (entries order outcomes) := by
  generalize idle : WorkerPhase.free = phase at stage
  cases stage with
  | told => exact ⟨rfl, rfl⟩
  | _ => cases idle

-- Others change nothing about it.
theorem Stage.aside (stage : Stage order outcomes before s calls phase report)
    (aligned : outcomes.length = order.products.length)
    (here : s.workers[i]? = some ⟨phase, report⟩) (aside : Aside i order outcomes s t) :
    Stage order outcomes before t calls phase report := by
  cases stage with
  | listening heard => exact .listening (heard.aside aligned here aside)
  | ready clean => exact .ready clean
  | returning spoiled split => exact .returning spoiled split
  | handing spoiled split => exact .handing spoiled split
  | told spoiled => exact .told spoiled
  | crashed spoiled split => exact .crashed spoiled split

-- The worker listens to the next job, or has heard of all.
theorem Heard.own (heard : Heard order outcomes s n)
    (aligned : outcomes.length = order.products.length)
    (here : s.workers[i]? = some ⟨listening order outcomes n, noted order outcomes before n⟩)
    (ran : s.step (.worker i) = some (t, more)) :
    more.filterMap Event.returned? = [] ∧ ∃ phase report, t.workers[i]? = some ⟨phase, report⟩ ∧
      Stage order outcomes before t [] phase report := by
  have inside := (List.getElem?_eq_some_iff.mp here).1
  by_cases whole : n = order.products.length
  · subst whole
    by_cases spoiled : Spoiled outcomes
    · rw [fail_step aligned here spoiled] at ran
      cases ran
      exact ⟨rfl, _, _, List.getElem?_set_self inside, .returning spoiled rfl⟩
    · rw [ready_step aligned here heard.slot spoiled] at ran
      cases ran
      exact ⟨rfl, _, _, List.getElem?_set_self inside, .ready spoiled⟩
  · have below : n < order.products.length := Nat.lt_of_le_of_ne heard.short whole
    obtain ⟨_, _, wanted, came⟩ := entry_at aligned below
    rcases heard.ahead n _ (Nat.le_refl n) came with fresh | ended
    · rw [unheard_step aligned here wanted fresh] at ran
      cases ran
    · obtain ⟨shown, quiet, heeds⟩ := listen_step aligned here wanted came ended
      rw [heeds] at ran
      cases ran
      exact ⟨quiet, _, _, List.getElem?_set_self inside, .listening (heard.next below _)⟩

theorem Stage.own (stage : Stage order outcomes before s calls phase report)
    (aligned : outcomes.length = order.products.length)
    (here : s.workers[i]? = some ⟨phase, report⟩) (busy : phase.fulfils order)
    (stations : ∀ product item, (product, item) ∈ yielded (entries order outcomes) →
      s.hasStation product = true)
    (mine : action.ofWorker i)
    (ran : s.step action = some (t, more)) : ∃ phase report, t.workers[i]? = some ⟨phase, report⟩ ∧
      Stage order outcomes before t (calls ++ more.filterMap Event.returned?) phase report := by
  have move := (transition_of_step ran).of_worker here mine
  have inside := (List.getElem?_eq_some_iff.mp here).1
  cases stage with
  | listening heard =>
    rcases mine with rfl | ⟨end', rfl⟩
    · obtain ⟨quiet, next⟩ := heard.own aligned here ran
      rw [quiet]
      exact next
    · rw [Engine.listening] at here
      simp [State.step, State.stepReturned, here] at ran
  | ready | told | crashed => cases busy
  | returning spoiled split =>
    cases move with
    | claim seeks | leave seeks | rest seeks => cases seeks
    | @handBack _ _ product item rest =>
      refine ⟨_, _, List.getElem?_set_self inside, .handing spoiled ?_⟩
      rw [← split, List.append_assoc]
      rfl
    | skip unknown =>
      have known := stations _ _ (split ▸ List.mem_append_right _ (.head _))
      rw [unknown] at known
      cases known
    | tell =>
      rw [List.append_nil] at split
      subst split
      refine ⟨_, _, List.getElem?_set_self inside, ?_⟩
      rw [List.filterMap_nil, List.append_nil]
      exact .told spoiled
  | handing spoiled split =>
    cases move with
    | claim seeks | leave seeks | rest seeks => cases seeks
    | accepted | refused =>
      refine ⟨_, _, List.getElem?_set_self inside, .returning spoiled ?_⟩
      change calls ++ [] ++ _ = _
      rwa [List.append_nil]
    | crash =>
      refine ⟨_, _, List.getElem?_set_self inside, ?_⟩
      rw [List.filterMap_nil, List.append_nil]
      exact .crashed spoiled split

theorem WorkerMove.runners_of_fulfils (move : WorkerMove s i report phase action t events)
    (busy : phase.fulfils order) : t.runners = s.runners := by
  cases move with
  | dispatch => cases busy
  | _ => rfl

theorem Fulfils.stage (past : Fulfils i order outcomes before first calls s) :
    outcomes.length = order.products.length ∧
    (∀ product item, (product, item) ∈ yielded (entries order outcomes) →
      s.hasStation product = true) ∧
    ∃ phase report, s.workers[i]? = some ⟨phase, report⟩ ∧
      Stage order outcomes before s calls phase report := by
  induction past with
  | start begins =>
    refine ⟨begins.aligned, begins.stations, _, _, begins.here, ?_⟩
    have heard : Heard order outcomes first 0 :=
      ⟨Nat.zero_le _, begins.slot, fun _ below => absurd below (Nat.not_lt_zero _),
        fun position outcome _ => begins.jobs position outcome⟩
    have stage : Stage order outcomes before first [] (listening order outcomes 0)
        (noted order outcomes before 0) := .listening heard
    rwa [listening, noted, List.take_zero, show missed [] = [] from rfl, Report.missing_nil] at stage
  | others _ aside ih =>
    obtain ⟨aligned, stations, phase, report, here, stage⟩ := ih
    refine ⟨aligned, ?_, phase, report, aside.worker ▸ here, stage.aside aligned here aside⟩
    intro product item member
    rw [aside.stations]
    exact stations product item member
  | own _ here busy mine ran ih =>
    obtain ⟨aligned, stations, phase, report, there, stage⟩ := ih
    cases here.symm.trans there
    refine ⟨aligned, ?_, stage.own aligned here busy stations mine ran⟩
    have runners := ((transition_of_step ran).of_worker here mine).runners_of_fulfils busy
    intro product item member
    rw [State.hasStation, runners]
    exact stations product item member

-- Once every job is at its end, the worker alone gets through its wait.
theorem listens_out (aligned : outcomes.length = order.products.length)
    (here : s.workers[i]? = some ⟨listening order outcomes n, noted order outcomes before n⟩)
    (short : n ≤ order.products.length) (ended : ∀ (position : Nat) outcome, n ≤ position →
      outcomes[position]? = some outcome →
        s.jobs.get? ⟨order.id, position⟩ = some (signalOf outcome)) :
    ∃ later more t, Run s later more t ∧ (∀ action ∈ later, action = .worker i) ∧
      t.workers[i]? = some ⟨listening order outcomes order.products.length,
        noted order outcomes before order.products.length⟩ := by
  obtain ⟨left, total⟩ := Nat.exists_eq_add_of_le short
  induction left generalizing s n with
  | zero =>
    rw [Nat.add_zero] at total
    exact ⟨[], [], s, .start, by simp, total ▸ here⟩
  | succ left ih =>
    have below : n < order.products.length := by omega
    obtain ⟨_, _, wanted, came⟩ := entry_at aligned below
    have inside := (List.getElem?_eq_some_iff.mp here).1
    obtain ⟨more, _, ran⟩ := listen_step aligned here wanted came (ended n _ (Nat.le_refl n) came)
    have still : ∀ (position : Nat) outcome, n + 1 ≤ position →
        outcomes[position]? = some outcome →
        ((s.hearJob ⟨order.id, n⟩ true).setWorker i ⟨listening order outcomes (n + 1),
          noted order outcomes before (n + 1)⟩).jobs.get? ⟨order.id, position⟩ =
            some (signalOf outcome) := by
      intro position outcome beyond found
      rw [jobs_after (by omega)]
      exact ended position outcome (by omega) found
    obtain ⟨later, shown, t, run, alone, arrived⟩ :=
      ih (List.getElem?_set_self inside) below still (by omega)
    have once : Run s [.worker i] more _ := .next .start ran
    refine ⟨.worker i :: later, more ++ shown, t, once.append run, ?_, arrived⟩
    intro action member
    rcases List.mem_cons.mp member with rfl | among
    · rfl
    · exact alone action among

-- What the worker has and does once it has heard of every job: the products that were made, in the
-- order in which they were ordered, the names of the others, and the order is ready or has failed.
structure Concludes (i : Nat) (order : Order) (outcomes : List (Option JobResult)) (before : Report)
    (s : State) (made : Tray) (failed : Nat) (report : Report) : Prop where
  made : made = yielded (entries order outcomes)
  failed : failed = (missed (entries order outcomes)).length
  report : report = before.missing (missed (entries order outcomes))
  received : ∀ position, position < order.products.length →
    s.jobs.get? ⟨order.id, position⟩ = some ⟨.closed, true⟩
  decides : ∃ t more, s.step (.worker i) = some (t, more) ∧
    (t.board.orderState order.id = some .failed ↔ Spoiled outcomes) ∧
    (t.board.orderState order.id = some .ready ↔ ¬ Spoiled outcomes) ∧
    (Spoiled outcomes → t.workers[i]? = some
      ⟨.returning order .failed (yielded (entries order outcomes)), spoilt order outcomes before⟩) ∧
    (¬ Spoiled outcomes → t.workers[i]? = some
      ⟨.holding order (yielded (entries order outcomes)) false, before⟩)

theorem Heard.concludes (heard : Heard order outcomes s order.products.length)
    (aligned : outcomes.length = order.products.length)
    (here : s.workers[i]? = some ⟨listening order outcomes order.products.length,
      noted order outcomes before order.products.length⟩) :
    Concludes i order outcomes before s
      (yielded ((entries order outcomes).take order.products.length))
      (missed ((entries order outcomes).take order.products.length)).length
      (noted order outcomes before order.products.length) := by
  have inside := (List.getElem?_eq_some_iff.mp here).1
  obtain ⟨slot, found⟩ := heard.slot
  refine ⟨by rw [take_all aligned], by rw [take_all aligned], by rw [noted, take_all aligned],
    heard.past, ?_⟩
  by_cases spoiled : Spoiled outcomes
  · have failed : ∀ worker, ((s.spoil order.id).setWorker i worker).board.orderState order.id =
        some .failed := fun _ => State.spoil_state found
    refine ⟨_, _, fail_step aligned here spoiled, ?_, ?_, ?_, ?_⟩
    · simp [failed, spoiled]
    · simp [failed, spoiled]
    · exact fun _ => List.getElem?_set_self inside
    · exact fun clean => absurd spoiled clean
  · have ready : ∀ worker, ((s.ready order.id).setWorker i worker).board.orderState order.id =
        some .ready := fun _ => State.ready_state found
    refine ⟨_, _, ready_step aligned here heard.slot spoiled, ?_, ?_, ?_, ?_⟩
    · simp [ready, spoiled]
    · simp [ready, spoiled]
    · exact fun spoilt => absurd spoilt spoiled
    · exact fun _ => List.getElem?_set_self inside

-- A worker that waits has heard of as many jobs as it has products and failures.
theorem Fulfils.heard (past : Fulfils i order outcomes before first calls s)
    (here : s.workers[i]? = some ⟨.awaiting order made failed, report⟩) : ∃ n,
      made.length + failed = n ∧ Heard order outcomes s n ∧
        made = yielded ((entries order outcomes).take n) ∧
        failed = (missed ((entries order outcomes).take n)).length ∧
        report = noted order outcomes before n := by
  obtain ⟨aligned, _, phase, report', there, stage⟩ := past.stage
  cases there.symm.trans here
  generalize waits : WorkerPhase.awaiting order made failed = phase at stage
  cases stage with
  | @listening n heard =>
    cases waits
    exact ⟨n, place_eq aligned heard.short, heard, rfl, rfl, rfl⟩
  | _ => cases waits

-- It goes on exactly if the job for which it waits is at its end.
theorem listens_iff (aligned : outcomes.length = order.products.length)
    (heard : Heard order outcomes s n) (below : n < order.products.length)
    (here : s.workers[i]? = some ⟨listening order outcomes n, noted order outcomes before n⟩) :
    (s.step (.worker i)).isSome = true ↔ s.jobs.get? ⟨order.id, n⟩ ≠ some .fresh := by
  obtain ⟨_, outcome, wanted, came⟩ := entry_at aligned below
  rcases heard.ahead n _ (Nat.le_refl n) came with fresh | ended
  · rw [unheard_step aligned here wanted fresh, fresh]
    simp
  · obtain ⟨more, _, ran⟩ := listen_step aligned here wanted came ended
    rw [ran, ended]
    cases outcome <;> simp [signalOf, Signal.resolve, Signal.dropSender, Signal.fresh]

theorem Concludes.same {other : Order} {t : State} {before' report' : Report} {made' : Tray}
    {failed' : Nat} (one : Concludes i order outcomes before s made failed report)
    (two : Concludes j other outcomes before' t made' failed' report')
    (alike : other.products = order.products) : made = made' ∧ failed = failed' ∧
      ∃ names, report = before.missing names ∧ report' = before'.missing names := by
  have equal : entries other outcomes = entries order outcomes := by rw [entries, alike, entries]
  refine ⟨?_, ?_, missed (entries order outcomes), one.report, ?_⟩
  · rw [one.made, two.made, equal]
  · rw [one.failed, two.failed, equal]
  · rw [two.report, equal]

theorem Fulfils.concludes (past : Fulfils i order outcomes before first calls s)
    (here : s.workers[i]? = some ⟨.awaiting order made failed, report⟩)
    (whole : made.length + failed = order.products.length) :
    Concludes i order outcomes before s made failed report := by
  obtain ⟨n, place, heard, rfl, rfl, rfl⟩ := past.heard here
  cases place.symm.trans whole
  exact heard.concludes past.stage.1 here

end Engine

end Kitchen
