namespace Kitchen

abbrev OrderId := Nat

-- `slot` is where the result goes.
structure Job (σ : Type) where
  order : OrderId
  sequence : Nat
  slot : σ
deriving DecidableEq, Repr

namespace Job

variable {σ : Type}

-- The greater job is served first.
def compare (a b : Job σ) : Ordering :=
  (Ord.compare b.order a.order).then (Ord.compare b.sequence a.sequence)

def partialCompare (a b : Job σ) : Option Ordering := some (a.compare b)

-- Jobs are told apart by their place, not by their slot.
def same (a b : Job σ) : Bool := a.order == b.order && a.sequence == b.sequence

end Job

structure JobQueue (σ : Type) where
  -- In the order in which they came.
  jobs : List (Job σ)
  nextSequence : Nat
deriving DecidableEq, Repr

namespace JobQueue

variable {σ : Type}

def empty : JobQueue σ := ⟨[], 0⟩

def push (q : JobQueue σ) (order : OrderId) (slot : σ) : JobQueue σ :=
  ⟨q.jobs ++ [⟨order, q.nextSequence, slot⟩], q.nextSequence + 1⟩

def size (q : JobQueue σ) : Nat := q.jobs.length

def isEmpty (q : JobQueue σ) : Bool := q.jobs.isEmpty

-- The greatest of a list and the others, left in their order.
def takeGreatest : List (Job σ) → Option (Job σ × List (Job σ))
  | [] => none
  | job :: rest =>
    match takeGreatest rest with
    | none => some (job, [])
    | some (best, others) =>
      if job.compare best = .lt then some (best, job :: others) else some (job, rest)

def pop? (q : JobQueue σ) : Option (Job σ × JobQueue σ) :=
  (takeGreatest q.jobs).map fun (job, others) => (job, { q with jobs := others })

theorem takeGreatest_none {jobs : List (Job σ)} (none : takeGreatest jobs = none) : jobs = [] := by
  cases jobs with
  | nil => rfl
  | cons first later =>
    unfold takeGreatest at none
    split at none
    · cases none
    · split at none <;> cases none

-- The others stay as they stood.
theorem takeGreatest_split {jobs others : List (Job σ)} {job : Job σ}
    (taken : takeGreatest jobs = some (job, others)) :
    ∃ front back, jobs = front ++ job :: back ∧ others = front ++ back := by
  induction jobs generalizing job others with
  | nil => cases taken
  | cons first later ih =>
    unfold takeGreatest at taken
    split at taken
    next none =>
      cases taken
      exact ⟨[], later, rfl, (takeGreatest_none none).symm⟩
    next best left some =>
      split at taken
      · cases taken
        obtain ⟨front, back, whole, rest⟩ := ih some
        exact ⟨first :: front, back, by rw [whole]; rfl, by rw [rest]; rfl⟩
      · cases taken
        exact ⟨[], later, rfl, rfl⟩

theorem pop_split {q rest : JobQueue σ} {job : Job σ} (popped : q.pop? = some (job, rest)) :
    ∃ front back, q.jobs = front ++ job :: back ∧ rest = ⟨front ++ back, q.nextSequence⟩ := by
  obtain ⟨⟨taken, others⟩, found, same⟩ := Option.map_eq_some_iff.mp popped
  cases same
  obtain ⟨front, back, whole, left⟩ := takeGreatest_split found
  exact ⟨front, back, whole, by rw [left]⟩

theorem size_pop {q rest : JobQueue σ} {job : Job σ} (popped : q.pop? = some (job, rest)) :
    q.size = rest.size + 1 := by
  obtain ⟨front, back, whole, rfl⟩ := pop_split popped
  simp only [size, whole, List.length_append, List.length_cons]
  omega

def drainUpTo : Nat → JobQueue σ → List (Job σ) × JobQueue σ
  | 0, q => ([], q)
  | n + 1, q =>
    match q.pop? with
    | none => ([], q)
    | some (job, rest) =>
      let (jobs, after) := drainUpTo n rest
      (job :: jobs, after)

def drain (q : JobQueue σ) : List (Job σ) × JobQueue σ := drainUpTo q.size q

end JobQueue

end Kitchen
