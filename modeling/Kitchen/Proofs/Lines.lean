import Kitchen.Proofs.Stranding

-- In which order a station serves its jobs. A queue has the jobs of one order in the order of their
-- places, so that what a runner takes from it comes before all that it leaves there: it is of an older
-- order, or of the same order and an earlier place.

namespace Kitchen.Engine

variable {s t : State} {action : Action} {actions : List Action} {events more : List Event}
  {id : OrderId} {i position : Nat} {order : Order} {stations : List String} {workers : Nat}
  {ref : JobRef} {queue rest : JobQueue JobRef} {job : Job JobRef}

-- The job is served before the other wherever both are to be served by one station.
def Sooner (job other : Job JobRef) : Prop :=
  job.order < other.order ∨ job.order = other.order ∧ job.slot.position < other.slot.position

structure Lined (queue : JobQueue JobRef) : Prop where
  apart : queue.jobs.Pairwise fun a b =>
    a.sequence < b.sequence ∧ (a.order = b.order → a.slot.position < b.slot.position)
  below : ∀ job ∈ queue.jobs, job.sequence < queue.nextSequence

namespace Lined

theorem empty : Lined .empty := ⟨.nil, by simp [JobQueue.empty]⟩

theorem push (lined : Lined queue)
    (last : ∀ job ∈ queue.jobs, job.order = id → job.slot.position < ref.position) :
    Lined (queue.push id ref) := by
  refine ⟨?_, ?_⟩
  · refine List.pairwise_append.mpr ⟨lined.apart, List.pairwise_singleton .., ?_⟩
    intro job member new mine
    cases List.mem_singleton.mp mine
    exact ⟨lined.below job member, last job member⟩
  · intro job member
    rcases List.mem_append.mp member with before | mine
    · exact Nat.lt_succ_of_lt (lined.below job before)
    · cases List.mem_singleton.mp mine
      exact Nat.lt_succ_self _

-- The greatest job is sooner than all others: of two jobs of one order it has the lower sequence
-- number, so it came first.
theorem pop (lined : Lined queue) (popped : queue.pop? = some (job, rest)) :
    Lined rest ∧ ∀ other ∈ rest.jobs, Sooner job other := by
  have first := JobQueue.pop_first popped
  obtain ⟨front, back, whole, rfl⟩ := JobQueue.pop_split popped
  have apart := lined.apart
  rw [whole] at apart
  obtain ⟨inFront, inBack, between⟩ := List.pairwise_append.mp apart
  obtain ⟨behind, inBack⟩ := List.pairwise_cons.mp inBack
  refine ⟨⟨?_, ?_⟩, ?_⟩
  · refine List.pairwise_append.mpr ⟨inFront, inBack, ?_⟩
    exact fun a early b late => between a early b (List.mem_cons_of_mem _ late)
  · intro other member
    refine lined.below other ?_
    rw [whole]
    simp only [List.mem_append, List.mem_cons] at member ⊢
    tauto
  · intro other member
    have least := first other (by rw [whole]; simp only [List.mem_append, List.mem_cons] at member ⊢; tauto)
    rcases least with older | ⟨same, early⟩
    · exact .inl older
    · rcases List.mem_append.mp member with before | after
      · have later := (between other before job (.head _)).1
        lia
      · exact .inr ⟨same, (behind other after).2 same⟩

theorem drained (queue : JobQueue JobRef) : Lined queue.drain.2 := by
  obtain ⟨_, nothing⟩ := queue.drain_perm
  refine ⟨?_, ?_⟩
  · rw [nothing]
    exact .nil
  · rw [nothing]
    simp

end Lined

def Lines (s : State) : Prop :=
  ∀ station queue, s.board.queues.get? station = some queue → Lined queue

-- The order's jobs that are on a queue are for places before `position`.
def Spreading (s : State) (id : OrderId) (position : Nat) : Prop :=
  ∀ station queue, s.board.queues.get? station = some queue →
    ∀ job ∈ queue.jobs, job.order = id → job.slot.position < position

theorem lines_dispatchJob (lines : Lines s) (spreading : Spreading s id position) (product : String) :
    Lines (s.dispatchJob id position product).1 ∧
      Spreading (s.dispatchJob id position product).1 id (position + 1) := by
  unfold State.dispatchJob
  split
  next queue present _ =>
    have pushed : Lined (queue.push id ⟨id, position⟩) :=
      (lines product queue present).push (spreading product queue present)
    refine ⟨?_, ?_⟩
    · intro station found there
      change (s.board.queues.insert product _).get? station = some found at there
      rw [Table.get?_insert] at there
      split at there
      · cases there
        exact pushed
      · exact lines station found there
    · intro station found there job member named
      change (s.board.queues.insert product _).get? station = some found at there
      rw [Table.get?_insert] at there
      split at there
      · cases there
        rcases List.mem_append.mp member with before | mine
        · exact Nat.lt_succ_of_lt (spreading product queue present job before named)
        · cases List.mem_singleton.mp mine
          exact Nat.lt_succ_self _
      · exact Nat.lt_succ_of_lt (spreading station found there job member named)
  next =>
    refine ⟨lines, ?_⟩
    exact fun station found there job member named =>
      Nat.lt_succ_of_lt (spreading station found there job member named)

theorem lines_dispatchFrom (lines : Lines s) (spreading : Spreading s id position)
    (products : List String) : Lines (s.dispatchFrom id position products).1 := by
  induction products generalizing s position with
  | nil => exact lines
  | cons product rest ih =>
    obtain ⟨first, further⟩ := lines_dispatchJob lines spreading product
    exact ih first further

namespace Lines

theorem opened (stations : List String) (workers : Nat) : Lines (.opened stations workers) := by
  intro station queue found
  obtain ⟨_, _, same⟩ := List.mem_map.mp (Table.mem_of_get? found)
  cases same
  exact .empty

theorem same (lines : Lines s) (queues : t.board.queues = s.board.queues) : Lines t := by
  intro station queue found
  rw [queues] at found
  exact lines station queue found

theorem set (lines : Lines s) (queues : t.board.queues = s.board.queues.insert changed rest)
    (lined : Lined rest) : Lines t := by
  intro station queue found
  rw [queues, Table.get?_insert] at found
  split at found
  · cases found
    exact lined
  · exact lines station queue found

theorem spread (lines : Lines s) (jobs : Jobs s) (labelled : Labelled s)
    (here : s.phases[i]? = some (.claimed order)) : Lines (s.spread order).1 := by
  have marked : Lines (s.withBoard (·.setState order.id .dispatched)) := lines.same rfl
  refine lines_dispatchFrom marked ?_ _
  intro station queue found job member named
  have label := labelled job (.inl ⟨station, queue, found, member⟩)
  have waiting := jobs.waiting_queued found member
  rw [jobs.unknown here (label.symm.trans named)] at waiting
  cases waiting

theorem step (lines : Lines s) (steady : Steady stations s) (step : Transition s action t events) :
    Lines t := by
  cases step with
  | worker here move =>
    cases move with
    | dispatch => exact lines.spread steady.jobs steady.labelled (State.phases_of here)
    | _ => exact lines.same rfl
  | runner _ move =>
    cases move with
    | take _ present popped => exact lines.set rfl ((lines _ _ present).pop popped).1
    | breakDown => exact lines.set rfl (.drained _)
    | _ => exact lines.same rfl
  | client move =>
    cases move with
    | usePager _ move => exact lines.same (by rw [move.frame.1])
    | _ => exact lines.same rfl
  | shutdown _ move => exact lines.same move.frame.2.2.2.1

theorem run (apart : stations.Nodup) (run : Run (.opened stations workers) actions events t) :
    Lines t := by
  induction run with
  | start => exact opened stations workers
  | next before ran ih => exact ih.step (Steady.opened apart before) (transition_of_step ran)

-- What is taken from a queue is of an older order than what is left there, or of the same order and an
-- earlier place.
theorem taken (lines : Lines s) (steady : Steady stations s)
    (present : s.board.queues.get? station = some queue) (popped : queue.pop? = some (job, rest)) :
    ∀ other ∈ rest.jobs, job.slot.order < other.slot.order ∨
      job.slot.order = other.slot.order ∧ job.slot.position < other.slot.position := by
  intro other among
  have perm := JobQueue.pop_perm popped
  have labels : ∀ other ∈ queue.jobs, other.order = other.slot.order :=
    fun other has => steady.labelled other (.inl ⟨station, queue, present, has⟩)
  rw [← labels job (perm.mem_iff.mpr (.head _)),
    ← labels other (perm.mem_iff.mpr (List.mem_cons_of_mem _ among))]
  exact ((lines station queue present).pop popped).2 other among

end Lines

theorem kept_step (stock : Stock stations s) (step : Transition s action t events) : Jobs.Kept s t := by
  have same : t.jobs = s.jobs → Jobs.Kept s t := by
    intro signals ref signal found
    exact ⟨signal, signals ▸ found⟩
  have hear : ∀ {told : JobRef} {after : Signal JobResult}, t.jobs = s.jobs.insert told after →
      Jobs.Kept s t := by
    intro told after signals ref signal found
    rw [signals, Table.get?_insert]
    split
    · exact ⟨_, rfl⟩
    · exact ⟨signal, found⟩
  have change : ∀ {told : JobRef} {f : Signal JobResult → Signal JobResult},
      t.jobs = s.jobs.modify told f → Jobs.Kept s t := by
    intro told f signals ref signal found
    rw [signals, Table.get?_modify, found]
    split
    · exact ⟨_, rfl⟩
    · exact ⟨signal, rfl⟩
  cases step with
  | worker here move =>
    cases move with
    | @dispatch order =>
      have known := stock.held _ (List.mem_of_getElem? here) order rfl
      intro ref signal found
      change ∃ signal, (s.spread order).1.jobs.get? ref = some signal
      rw [(spread_spread stock known).2.signals]
      split
      · exact ⟨_, rfl⟩
      · exact ⟨signal, found⟩
    | receive | hearBreak | hearNothing => exact hear rfl
    | _ => exact same rfl
  | runner _ move =>
    cases move with
    | refuse | handOver | sweep | crash => exact change rfl
    | _ => exact same rfl
  | client move =>
    cases move with
    | usePager _ move => exact same move.frame.2.2.2.1
    | _ => exact same rfl
  | shutdown _ move => exact same move.frame.2.2.2.2.2.1

theorem kept_run (stock : Stock stations s) (run : Run s actions events t) : Jobs.Kept s t := by
  induction run with
  | start => exact fun ref signal found => ⟨signal, found⟩
  | next before ran ih =>
    intro ref signal found
    obtain ⟨still, there⟩ := ih ref signal found
    exact kept_step (stock.run before) (transition_of_step ran) ref still there

def State.stands (s : State) (station : String) (job : Job JobRef) : Prop :=
  ∃ queue, s.board.queues.get? station = some queue ∧ job ∈ queue.jobs

-- What stands on a queue stood there before, or is of an order of which no job was known.
theorem stood_of_step (steady : Steady stations s) (step : Transition s action t events)
    (stands : t.stands station job) : s.stands station job ∨
      ∀ ref signal, s.jobs.get? ref = some signal → job.slot.order ≠ ref.order := by
  obtain ⟨queue, found, member⟩ := stands
  have same : t.board.queues = s.board.queues → s.stands station job :=
    fun queues => ⟨queue, queues ▸ found, member⟩
  have fewer : ∀ {place : String} {earlier rest : JobQueue JobRef},
      s.board.queues.get? place = some earlier → (∀ job ∈ rest.jobs, job ∈ earlier.jobs) →
      t.board.queues = s.board.queues.insert place rest → s.stands station job := by
    intro place earlier rest present less queues
    rw [queues, Table.get?_insert] at found
    split at found
    next same =>
      cases found
      exact ⟨earlier, same ▸ present, less job member⟩
    next => exact ⟨queue, found, member⟩
  cases step with
  | worker here move =>
    cases move with
    | @dispatch order =>
      obtain ⟨more, grown, label, _⟩ := spread_queue s order station
      obtain ⟨before, present, rfl⟩ := Option.map_eq_some_iff.mp (grown.symm.trans found)
      rcases List.mem_append.mp member with old | new
      · exact .inl ⟨before, present, old⟩
      · refine .inr fun ref signal posted named => ?_
        rw [steady.jobs.unknown (State.phases_of here) (named.symm.trans (label job new).2)] at posted
        cases posted
    | _ => exact .inl (same rfl)
  | runner _ move =>
    cases move with
    | take _ present popped =>
      refine .inl (fewer present ?_ rfl)
      exact fun other left => (JobQueue.pop_perm popped).mem_iff.mpr (List.mem_cons_of_mem _ left)
    | @breakDown earlier _ _ present =>
      refine .inl (fewer present ?_ rfl)
      rw [earlier.drain_perm.2]
      simp
    | _ => exact .inl (same rfl)
  | client move =>
    cases move with
    | usePager _ move => exact .inl (same (by rw [move.frame.1]))
    | _ => exact .inl (same rfl)
  | shutdown _ move => exact .inl (same move.frame.2.2.2.1)

end Kitchen.Engine
