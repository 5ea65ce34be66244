import Kitchen.Proofs.Lines
import Mathlib.Data.List.Sort

namespace Kitchen

namespace Job

variable {σ : Type} {a b c : Job σ}

def Ahead (a b : Job σ) : Prop := b.compare a = .lt

theorem ahead_iff :
    a.Ahead b ↔ a.order < b.order ∨ a.order = b.order ∧ a.sequence < b.sequence :=
  compare_eq_lt

theorem compare_eq_eq : a.compare b = .eq ↔ a.order = b.order ∧ a.sequence = b.sequence := by
  rw [compare, Ordering.then_eq_eq, Nat.compare_eq_eq, Nat.compare_eq_eq]
  constructor
  · rintro ⟨order, sequence⟩
    exact ⟨order.symm, sequence.symm⟩
  · rintro ⟨order, sequence⟩
    exact ⟨order.symm, sequence.symm⟩

theorem compare_swap (a b : Job σ) : (a.compare b).swap = b.compare a := by
  rw [compare, compare, Ordering.swap_then, Nat.compare_swap, Nat.compare_swap]

theorem same_iff : a.same b = true ↔ a.compare b = .eq := by
  rw [compare_eq_eq, same, Bool.and_eq_true, beq_iff_eq, beq_iff_eq]

theorem Ahead.asymm (first : a.Ahead b) : ¬ b.Ahead a := by
  rw [ahead_iff] at first ⊢
  lia

theorem compare_trans (less : a.compare b = .lt) (more : b.compare c = .lt) : a.compare c = .lt := by
  rw [compare_eq_lt] at less more ⊢
  lia

-- The order is that of what is older, where only that counts.
def noYounger (a b : Job σ) : Bool := a.order ≤ b.order

theorem noYounger_trans (a b c : Job σ) (one : a.noYounger b = true) (two : b.noYounger c = true) :
    a.noYounger c = true := by
  simp only [noYounger, decide_eq_true_eq] at one two ⊢
  exact Nat.le_trans one two

theorem noYounger_total (a b : Job σ) : (a.noYounger b || b.noYounger a) = true := by
  simp only [noYounger, Bool.or_eq_true, decide_eq_true_eq]
  exact Nat.le_total ..

end Job

namespace JobQueue

variable {σ : Type} {jobs : List (Job σ)} {job : Job σ} {q rest : JobQueue σ}

def sorted (jobs : List (Job σ)) : List (Job σ) := jobs.mergeSort Job.noYounger

@[simp] theorem sorted_nil : sorted ([] : List (Job σ)) = [] := List.mergeSort_nil

-- Sorting is stable: `sorted` puts a job before all that came later, except older ones.
theorem sorted_ahead (apart : jobs.Pairwise (·.sequence < ·.sequence)) :
    (sorted jobs).Pairwise Job.Ahead := by
  induction jobs with
  | nil => simp
  | cons first later ih =>
    obtain ⟨earlier, others⟩ := List.pairwise_cons.mp apart
    obtain ⟨front, back, whole, parts, older⟩ :=
      List.mergeSort_cons Job.noYounger_trans Job.noYounger_total first later
    have still : (front ++ back).Pairwise Job.Ahead := parts ▸ ih others
    have among : ∀ job ∈ front ++ back, first.sequence < job.sequence := by
      intro job member
      rw [← parts, List.mem_mergeSort] at member
      exact earlier job member
    have ordered := List.pairwise_mergeSort Job.noYounger_trans Job.noYounger_total (first :: later)
    rw [whole] at ordered
    obtain ⟨inFront, inBack, between⟩ := List.pairwise_append.mp still
    have behind := (List.pairwise_cons.mp (List.pairwise_append.mp ordered).2.1).1
    unfold sorted
    rw [whole]
    refine List.pairwise_append.mpr ⟨inFront, List.pairwise_cons.mpr ⟨?_, inBack⟩, ?_⟩
    · intro job member
      have after := behind job member
      have came := among job (List.mem_append_right _ member)
      simp only [Job.noYounger, decide_eq_true_eq] at after
      rw [Job.ahead_iff]
      lia
    · intro job member other place
      rcases List.mem_cons.mp place with rfl | place
      · have before := older job member
        simp only [Job.noYounger, Bool.not_eq_true', decide_eq_false_iff_not, Nat.not_le] at before
        exact Job.ahead_iff.mpr (.inl before)
      · exact between job member other place

-- Jobs stand as they came, under numbers that were given out in turn.
structure Sequenced (q : JobQueue σ) : Prop where
  apart : q.jobs.Pairwise (·.sequence < ·.sequence)
  below : ∀ job ∈ q.jobs, job.sequence < q.nextSequence

-- The pending jobs, the next first.
def inOrder (q : JobQueue σ) : List (Job σ) := sorted q.jobs

namespace Sequenced

theorem empty : Sequenced (.empty : JobQueue σ) := ⟨.nil, by simp [JobQueue.empty]⟩

-- There is one order in which the jobs can go.
theorem eq_inOrder (sequenced : Sequenced q) (perm : jobs.Perm q.jobs)
    (ahead : jobs.Pairwise Job.Ahead) : jobs = q.inOrder := by
  have settled := sorted_ahead sequenced.apart
  refine List.Perm.eq_of_pairwise ?_ ahead settled (perm.trans (List.mergeSort_perm ..).symm)
  intro a b _ _ first second
  exact absurd second first.asymm

theorem push (sequenced : Sequenced q) (order : OrderId) (slot : σ) :
    Sequenced (q.push order slot) := by
  refine ⟨?_, ?_⟩
  · refine List.pairwise_append.mpr ⟨sequenced.apart, List.pairwise_singleton .., ?_⟩
    intro job member new mine
    cases List.mem_singleton.mp mine
    exact sequenced.below job member
  · intro job member
    rcases List.mem_append.mp member with before | mine
    · exact Nat.lt_succ_of_lt (sequenced.below job before)
    · cases List.mem_singleton.mp mine
      exact Nat.lt_succ_self _

-- A new job goes behind all that are not of a younger order.
theorem ahead_insert (new : Job σ) (ahead : jobs.Pairwise Job.Ahead)
    (came : ∀ job ∈ jobs, job.sequence < new.sequence) :
    (jobs.orderedInsert (fun a b => a.order < b.order) new).Pairwise Job.Ahead := by
  induction jobs with
  | nil => exact List.pairwise_singleton ..
  | cons first later ih =>
    obtain ⟨behind, others⟩ := List.pairwise_cons.mp ahead
    rw [List.orderedInsert]
    split
    next older =>
      refine List.pairwise_cons.mpr ⟨?_, ahead⟩
      intro job member
      rcases List.mem_cons.mp member with rfl | member
      · exact Job.ahead_iff.mpr (.inl older)
      · have after := Job.ahead_iff.mp (behind job member)
        rw [Job.ahead_iff]
        lia
    next younger =>
      refine List.pairwise_cons.mpr ⟨?_, ih others fun job member => came job (.tail _ member)⟩
      intro job member
      rcases List.mem_cons.mp ((List.perm_orderedInsert ..).mem_iff.mp member) with rfl | member
      · have first := came first (.head _)
        rw [Job.ahead_iff]
        lia
      · exact behind job member

theorem inOrder_push (sequenced : Sequenced q) (order : OrderId) (slot : σ) :
    (q.push order slot).inOrder = q.inOrder.orderedInsert (fun a b => a.order < b.order)
      ⟨order, q.nextSequence, slot⟩ := by
  refine ((sequenced.push order slot).eq_inOrder ?_ ?_).symm
  · exact (List.perm_orderedInsert ..).trans
      (((List.mergeSort_perm ..).cons _).trans (List.perm_append_singleton ..).symm)
  · refine ahead_insert _ (sorted_ahead sequenced.apart) ?_
    intro job member
    exact sequenced.below job (List.mem_mergeSort.mp member)

-- The first goes, and the others stay in their order.
theorem pop (sequenced : Sequenced q) (popped : q.pop? = some (job, rest)) :
    Sequenced rest ∧ rest.nextSequence = q.nextSequence ∧ q.inOrder = job :: rest.inOrder := by
  have perm := pop_perm popped
  have least := pop_first popped
  obtain ⟨front, back, whole, rfl⟩ := pop_split popped
  have apart := sequenced.apart
  rw [whole] at apart
  have fewer : (front ++ back).Sublist (front ++ job :: back) :=
    List.Sublist.append_left (List.sublist_cons_self ..) _
  have still : Sequenced ⟨front ++ back, q.nextSequence⟩ := by
    refine ⟨apart.sublist fewer, ?_⟩
    intro other member
    exact sequenced.below other (whole ▸ fewer.subset member)
  refine ⟨still, rfl, (sequenced.eq_inOrder ?_ ?_).symm⟩
  · exact ((List.mergeSort_perm ..).cons job).trans perm.symm
  · refine List.pairwise_cons.mpr ⟨?_, sorted_ahead still.apart⟩
    intro other member
    have among : other ∈ front ++ back := List.mem_mergeSort.mp member
    have first := least other (whole ▸ fewer.subset among)
    -- No two jobs bear one number.
    have differ : job.sequence ≠ other.sequence := by
      obtain ⟨_, behind, before⟩ := List.pairwise_append.mp apart
      rcases List.mem_append.mp among with place | place
      · exact Nat.ne_of_gt (before other place job (.head _))
      · exact Nat.ne_of_lt ((List.pairwise_cons.mp behind).1 other place)
    rw [Job.ahead_iff]
    lia

-- What is popped goes before all that stay.
theorem pop_ahead (sequenced : Sequenced q) (popped : q.pop? = some (job, rest))
    {other : Job σ} (member : other ∈ rest.jobs) : job.Ahead other := by
  obtain ⟨_, _, whole⟩ := sequenced.pop popped
  have ahead : q.inOrder.Pairwise Job.Ahead := sorted_ahead sequenced.apart
  rw [whole] at ahead
  exact (List.pairwise_cons.mp ahead).1 other (List.mem_mergeSort.mpr member)

theorem drainUpTo (n : Nat) (sequenced : Sequenced q) (enough : q.size ≤ n) :
    JobQueue.drainUpTo n q = (q.inOrder, ⟨[], q.nextSequence⟩) := by
  induction n generalizing q with
  | zero =>
    obtain ⟨jobs, next⟩ := q
    cases List.length_eq_zero_iff.mp (Nat.le_zero.mp enough)
    simp [JobQueue.drainUpTo, inOrder]
  | succ n ih =>
    unfold JobQueue.drainUpTo
    split
    next none =>
      obtain ⟨jobs, next⟩ := q
      cases pop_none none
      simp [inOrder]
    next job rest popped =>
      obtain ⟨still, next, whole⟩ := sequenced.pop popped
      have fewer := size_pop popped
      rw [ih still (by omega), next, whole]

theorem drain (sequenced : Sequenced q) : q.drain = (q.inOrder, ⟨[], q.nextSequence⟩) :=
  sequenced.drainUpTo _ (Nat.le_refl _)

-- No two of the pending jobs are equally great, so that it makes no difference which of the greatest
-- a queue would take.
theorem pop_of_greatest (sequenced : Sequenced q) (member : job ∈ q.jobs)
    (greatest : ∀ other ∈ q.jobs, job.compare other ≠ .lt) : ∃ rest, q.pop? = some (job, rest) := by
  cases popped : q.pop? with
  | none =>
    rw [pop_none popped] at member
    cases member
  | some taken =>
    obtain ⟨first, rest⟩ := taken
    have perm := pop_perm popped
    rcases List.mem_cons.mp (perm.mem_iff.mp member) with rfl | later
    · exact ⟨rest, rfl⟩
    · have behind : first.Ahead job := sequenced.pop_ahead popped later
      exact absurd behind (greatest first (perm.mem_iff.mpr (.head _)))

end Sequenced

inductive Use (σ : Type) where
  | push (order : OrderId) (slot : σ)
  | pop
  | drain
  | size
  | isEmpty
deriving DecidableEq, Repr

inductive Yield (σ : Type) where
  | nothing
  | popped (job : Option (Job σ))
  | drained (jobs : List (Job σ))
  | size (value : Nat)
  | empty (value : Bool)
deriving DecidableEq, Repr

def use (q : JobQueue σ) : Use σ → Yield σ × JobQueue σ
  | .push order slot => (.nothing, q.push order slot)
  | .pop =>
    match q.pop? with
    | some (job, rest) => (.popped (some job), rest)
    | none => (.popped none, q)
  | .drain => (.drained q.drain.1, q.drain.2)
  | .size => (.size q.size, q)
  | .isEmpty => (.empty q.isEmpty, q)

def replay {α : Type} (use : α → Use σ → Yield σ × α) (a : α) : List (Use σ) → List (Yield σ) × α
  | [] => ([], a)
  | next :: later =>
    let (first, after) := use a next
    let (others, last) := replay use after later
    (first :: others, last)

end JobQueue

-- A sorted list in the place of a queue. A new job goes behind all that are not of a younger order.
structure Roll (σ : Type) where
  jobs : List (Job σ)
  -- How many jobs ever came.
  arrivals : Nat

namespace Roll

variable {σ : Type}

def empty : Roll σ := ⟨[], 0⟩

def use (r : Roll σ) : JobQueue.Use σ → JobQueue.Yield σ × Roll σ
  | .push order slot =>
    (.nothing, ⟨r.jobs.orderedInsert (fun a b => a.order < b.order) ⟨order, r.arrivals, slot⟩,
      r.arrivals + 1⟩)
  | .pop => (.popped r.jobs.head?, { r with jobs := r.jobs.tail })
  | .drain => (.drained r.jobs, { r with jobs := [] })
  | .size => (.size r.jobs.length, r)
  | .isEmpty => (.empty r.jobs.isEmpty, r)

end Roll

namespace JobQueue

variable {σ : Type} {job other : Job σ} {q rest : JobQueue σ} {next : Use σ} {uses : List (Use σ)}

def roll (q : JobQueue σ) : Roll σ := ⟨q.inOrder, q.nextSequence⟩

theorem roll_empty : (.empty : JobQueue σ).roll = .empty := by
  simp [roll, inOrder, JobQueue.empty, Roll.empty]

theorem length_inOrder (q : JobQueue σ) : q.inOrder.length = q.size := List.length_mergeSort ..

theorem isEmpty_inOrder (q : JobQueue σ) : q.inOrder.isEmpty = q.isEmpty := by
  rw [isEmpty, Bool.eq_iff_iff, List.isEmpty_iff_length_eq_zero, List.isEmpty_iff_length_eq_zero,
    length_inOrder, size]

-- One use keeps the numbers in turn, and does to the list what it does to the queue.
theorem Sequenced.use (sequenced : Sequenced q) (next : Use σ) :
    Sequenced (q.use next).2 ∧ q.roll.use next = ((q.use next).1, (q.use next).2.roll) := by
  cases next with
  | push order slot =>
    refine ⟨sequenced.push order slot, ?_⟩
    simp only [JobQueue.use, Roll.use, roll, sequenced.inOrder_push]
    rfl
  | pop =>
    simp only [JobQueue.use, Roll.use, roll]
    split
    next job rest popped =>
      obtain ⟨still, next, whole⟩ := sequenced.pop popped
      exact ⟨still, by simp [whole, next]⟩
    next none =>
      have nothing : q.inOrder = [] := by rw [inOrder, pop_none none, sorted_nil]
      exact ⟨sequenced, by simp [nothing]⟩
  | drain =>
    simp only [JobQueue.use, Roll.use, roll, sequenced.drain]
    exact ⟨⟨.nil, by simp⟩, by simp [inOrder]⟩
  | size => exact ⟨sequenced, by simp only [JobQueue.use, Roll.use, roll, length_inOrder]⟩
  | isEmpty => exact ⟨sequenced, by simp only [JobQueue.use, Roll.use, roll, isEmpty_inOrder]⟩

-- Any sequence of uses gives the same of the queue as of the list.
theorem Sequenced.replay (sequenced : Sequenced q) (uses : List (Use σ)) :
    Sequenced (JobQueue.replay JobQueue.use q uses).2 ∧ JobQueue.replay Roll.use q.roll uses =
      ((JobQueue.replay JobQueue.use q uses).1, (JobQueue.replay JobQueue.use q uses).2.roll) := by
  induction uses generalizing q with
  | nil => exact ⟨sequenced, rfl⟩
  | cons next later ih =>
    obtain ⟨still, once⟩ := sequenced.use next
    obtain ⟨last, same⟩ := ih still
    refine ⟨last, ?_⟩
    simp only [JobQueue.replay, once, same]

-- Popping a queue until nothing is left gives what draining it gives.
theorem Sequenced.pop_all (sequenced : Sequenced q) :
    JobQueue.replay JobQueue.use q (List.replicate q.size .pop) =
      (q.inOrder.map fun job => .popped (some job), ⟨[], q.nextSequence⟩) := by
  generalize count : q.size = n
  induction n generalizing q with
  | zero =>
    obtain ⟨jobs, next⟩ := q
    cases List.length_eq_zero_iff.mp count
    simp [JobQueue.replay, inOrder]
  | succ n ih =>
    rw [List.replicate_succ, JobQueue.replay]
    cases popped : q.pop? with
    | none =>
      rw [size, pop_none popped] at count
      cases count
    | some taken =>
      obtain ⟨job, rest⟩ := taken
      obtain ⟨still, next, whole⟩ := sequenced.pop popped
      have fewer := size_pop popped
      simp only [JobQueue.use, popped, ih still (by omega), whole, next, List.map_cons]

-- Nothing is lost.

-- The jobs that these uses bring, the first with the number `n`.
def arrivals (n : Nat) : List (Use σ) → List (Job σ)
  | [] => []
  | .push order slot :: later => ⟨order, n, slot⟩ :: arrivals (n + 1) later
  | _ :: later => arrivals n later

theorem arrivals_cons (n : Nat) (next : Use σ) (later : List (Use σ)) :
    arrivals n (next :: later) =
      arrivals n [next] ++ arrivals (n + (arrivals n [next]).length) later := by
  cases next <;> rfl

theorem arrivals_numbered (n : Nat) (uses : List (Use σ)) :
    (arrivals n uses).map (·.sequence) = List.range' n (arrivals n uses).length := by
  induction uses generalizing n with
  | nil => rfl
  | cons next later ih =>
    cases next with
    | push order slot => simp [arrivals, ih, List.range'_succ]
    | _ => exact ih n

theorem arrivals_apart (uses : List (Use σ)) : ((arrivals 0 uses).map (·.sequence)).Nodup := by
  rw [arrivals_numbered]
  exact List.nodup_range'

def Yield.jobs : Yield σ → List (Job σ)
  | .popped job => job.toList
  | .drained jobs => jobs
  | _ => []

-- The jobs that left, in turn.
def departures (yields : List (Yield σ)) : List (Job σ) := yields.flatMap Yield.jobs

-- What was there and what came has left or is still there, in the order in which it came.
structure Kept (came left : List (Job σ)) (q : JobQueue σ) : Prop where
  perm : (left ++ q.jobs).Perm came
  rest : q.jobs.Sublist came

theorem Sequenced.use_kept (sequenced : Sequenced q) (next : Use σ) :
    Kept (q.jobs ++ arrivals q.nextSequence [next]) (q.use next).1.jobs (q.use next).2 ∧
      (q.use next).2.nextSequence = q.nextSequence + (arrivals q.nextSequence [next]).length := by
  have same : Kept (q.jobs ++ []) [] q := by
    rw [List.append_nil]
    exact ⟨.refl _, .refl _⟩
  cases next with
  | push order slot => exact ⟨⟨.refl _, .refl _⟩, rfl⟩
  | pop =>
    simp only [JobQueue.use, arrivals]
    split
    next job rest popped =>
      obtain ⟨front, back, whole, rfl⟩ := pop_split popped
      refine ⟨⟨?_, ?_⟩, rfl⟩
      · rw [List.append_nil]
        exact (pop_perm popped).symm
      · rw [List.append_nil, whole]
        exact List.Sublist.append_left (List.sublist_cons_self ..) _
    next => exact ⟨same, rfl⟩
  | drain =>
    simp only [JobQueue.use, arrivals, sequenced.drain]
    refine ⟨⟨?_, List.nil_sublist _⟩, rfl⟩
    rw [List.append_nil, List.append_nil]
    exact List.mergeSort_perm ..
  | size | isEmpty => exact ⟨same, rfl⟩

theorem Sequenced.replay_kept (sequenced : Sequenced q) (uses : List (Use σ)) :
    Kept (q.jobs ++ arrivals q.nextSequence uses)
        (departures (JobQueue.replay JobQueue.use q uses).1) (JobQueue.replay JobQueue.use q uses).2 ∧
      (JobQueue.replay JobQueue.use q uses).2.nextSequence =
        q.nextSequence + (arrivals q.nextSequence uses).length := by
  induction uses generalizing q with
  | nil =>
    rw [arrivals, List.append_nil]
    exact ⟨⟨.refl _, .refl _⟩, rfl⟩
  | cons next later ih =>
    obtain ⟨⟨perm, rest⟩, numbers⟩ := sequenced.use_kept next
    obtain ⟨⟨others, last⟩, more⟩ := ih (sequenced.use next).1
    rw [numbers] at others last more
    rw [arrivals_cons, ← List.append_assoc]
    refine ⟨⟨?_, last.trans (rest.append_right _)⟩, ?_⟩
    · change ((q.use next).1.jobs ++ departures _ ++ _).Perm _
      rw [List.append_assoc]
      refine (others.append_left _).trans ?_
      rw [← List.append_assoc]
      exact perm.append_right _
    · rw [List.length_append, ← Nat.add_assoc]
      exact more

-- Of the jobs of one queue no two are equal.
theorem compare_arrivals (one : job ∈ arrivals 0 uses) (two : other ∈ arrivals 0 uses) :
    job.compare other = .eq ↔ job = other := by
  constructor
  · intro equal
    exact List.inj_on_of_nodup_map (arrivals_apart uses) one two (Job.compare_eq_eq.mp equal).2
  · intro equal
    subst equal
    exact Job.compare_eq_eq.mpr ⟨rfl, rfl⟩

-- A queue is a stably sorted list, whatever is done with it. It gives what such a list gives; what is
-- popped is of the oldest order and came first of its jobs, and is the only one that nothing is
-- greater than; draining gives the jobs in the order in which they would be popped; each job that came
-- has left once or is there, and its number is not given out again; and the comparison of its jobs is
-- a strict order in which each is equal to itself alone.
theorem queue_is_stably_sorted (uses : List (Use σ)) :
    let came : List (Job σ) := arrivals 0 uses
    let yields := (replay use .empty uses).1
    let q := (replay use .empty uses).2
    replay Roll.use .empty uses = (yields, ⟨q.jobs.mergeSort fun a b => a.order ≤ b.order, came.length⟩) ∧
    (q.pop? = none ↔ q.jobs = []) ∧
    (∀ job rest, q.pop? = some (job, rest) → job ∈ q.jobs ∧ rest.nextSequence = q.nextSequence ∧
      q.jobs.Perm (job :: rest.jobs) ∧ ∀ other ∈ rest.jobs,
        job.order < other.order ∨ job.order = other.order ∧ job.sequence < other.sequence) ∧
    (∀ job ∈ q.jobs, (∀ other ∈ q.jobs, job.compare other ≠ .lt) →
      ∃ rest, q.pop? = some (job, rest)) ∧
    q.drain = (q.jobs.mergeSort fun a b => a.order ≤ b.order, ⟨[], came.length⟩) ∧
    replay use q (List.replicate q.size .pop) =
      (q.drain.1.map fun job => .popped (some job), q.drain.2) ∧
    came.map (·.sequence) = List.range came.length ∧
    (departures yields ++ q.jobs).Perm came ∧ (departures yields ++ q.jobs).Nodup ∧
    q.jobs.Sublist came ∧ q.nextSequence = came.length ∧
    q.size = came.length - (departures yields).length ∧
    ∀ a ∈ came, ∀ b ∈ came, (a.compare b = .eq ↔ a = b) ∧ (a.same b = true ↔ a = b) ∧
      a.partialCompare b = some (a.compare b) ∧ b.compare a = (a.compare b).swap ∧
      ∀ c ∈ came, a.compare b = .lt → b.compare c = .lt → a.compare c = .lt := by
  intro came yields q
  have begun : Sequenced (.empty : JobQueue σ) := .empty
  obtain ⟨sequenced, same⟩ := begun.replay uses
  obtain ⟨⟨perm, rest⟩, numbers⟩ := begun.replay_kept uses
  have next : q.nextSequence = came.length := by
    rw [numbers]
    exact Nat.zero_add _
  have drained : q.drain = (q.inOrder, ⟨[], came.length⟩) := next ▸ sequenced.drain
  have apart : came.Nodup := (arrivals_apart uses).of_map
  refine ⟨?_, ?_, ?_, ?_, drained, ?_, ?_, perm, perm.nodup_iff.mpr apart, rest, next, ?_, ?_⟩
  · rw [← roll_empty, same, roll, next]
    rfl
  · constructor
    · exact pop_none
    · intro nothing
      rw [pop?, nothing]
      rfl
  · intro job rest popped
    obtain ⟨_, kept, _⟩ := sequenced.pop popped
    have perm := pop_perm popped
    refine ⟨perm.mem_iff.mpr (.head _), kept, perm, ?_⟩
    intro other member
    exact Job.ahead_iff.mp (sequenced.pop_ahead popped member)
  · exact fun job member greatest => sequenced.pop_of_greatest member greatest
  · rw [sequenced.drain]
    exact sequenced.pop_all
  · rw [arrivals_numbered, List.range_eq_range']
  · have whole := perm.length_eq
    rw [List.length_append] at whole
    exact (Nat.sub_eq_of_eq_add (Nat.add_comm _ _ ▸ whole.symm)).symm
  · intro a one b two
    refine ⟨compare_arrivals one two, ?_, rfl, (Job.compare_swap a b).symm, ?_⟩
    · rw [Job.same_iff, compare_arrivals one two]
    · exact fun _ _ => Job.compare_trans

-- Two jobs of order 2 among three of order 5; the first of them is popped before the second comes.
def mixedUses : List (Use Nat) := [.push 5 0, .push 2 1, .push 5 2, .pop, .push 2 3, .push 5 4]

theorem mixedUses_sorted :
    let q := (replay use .empty mixedUses).2
    (∃ rest, q.pop? = some (⟨2, 3, 3⟩, rest) ∧ ∀ other ∈ rest.jobs,
      2 < other.order ∨ 2 = other.order ∧ 3 < other.sequence) ∧
    (q.jobs.mergeSort fun a b => a.order ≤ b.order) =
      [⟨2, 3, 3⟩, ⟨5, 0, 0⟩, ⟨5, 2, 2⟩, ⟨5, 4, 4⟩] ∧
    ¬ (⟨5, 0, 0⟩ : Job Nat).compare ⟨5, 2, 2⟩ = .eq := by
  intro q
  obtain ⟨_, _, popped, greatest, drained, _, _, _, _, _, _, _, compared⟩ :=
    queue_is_stably_sorted mixedUses
  have sorted : q.drain.1 = [⟨2, 3, 3⟩, ⟨5, 0, 0⟩, ⟨5, 2, 2⟩, ⟨5, 4, 4⟩] := by decide
  obtain ⟨rest, first⟩ := greatest ⟨2, 3, 3⟩ (by decide) (by decide)
  refine ⟨⟨rest, first, (popped _ rest first).2.2.2⟩, ?_, ?_⟩
  · rw [← sorted]
    exact (congrArg Prod.fst drained).symm
  · obtain ⟨equal, _⟩ := compared ⟨5, 0, 0⟩ (by decide) ⟨5, 2, 2⟩ (by decide)
    rw [equal]
    decide

end JobQueue

end Kitchen
