import Kitchen.JobQueue
import Mathlib.Data.List.Perm.Basic

-- What a queue gives out and what it keeps: a job that no other precedes, and the others.

namespace Kitchen

namespace Job

variable {σ : Type} {a b : Job σ}

theorem compare_eq_lt : a.compare b = .lt ↔
    b.order < a.order ∨ b.order = a.order ∧ b.sequence < a.sequence := by
  rw [compare, Ordering.then_eq_lt, Nat.compare_eq_lt, Nat.compare_eq_lt, Nat.compare_eq_eq]

end Job

namespace JobQueue

variable {σ : Type} {jobs others : List (Job σ)} {job : Job σ} {q rest : JobQueue σ} {id : OrderId}

theorem takeGreatest_first (taken : takeGreatest jobs = some (job, others)) : ∀ other ∈ jobs,
    job.order < other.order ∨ job.order = other.order ∧ job.sequence ≤ other.sequence := by
  induction jobs generalizing job others with
  | nil => cases taken
  | cons first later ih =>
    unfold takeGreatest at taken
    split at taken
    next none =>
      cases taken
      rw [takeGreatest_none none]
      intro other member
      cases List.mem_singleton.mp member
      exact .inr ⟨rfl, Nat.le_refl _⟩
    next best left some =>
      have first := ih some
      split at taken
      next less =>
        cases taken
        have sooner := Job.compare_eq_lt.mp less
        intro other member
        rcases List.mem_cons.mp member with rfl | member
        · lia
        · exact first other member
      next least =>
        cases taken
        rw [Job.compare_eq_lt] at least
        intro other member
        rcases List.mem_cons.mp member with rfl | member
        · exact .inr ⟨rfl, Nat.le_refl _⟩
        · have after := first other member
          lia

theorem pop_first (popped : q.pop? = some (job, rest)) : ∀ other ∈ q.jobs,
    job.order < other.order ∨ job.order = other.order ∧ job.sequence ≤ other.sequence := by
  obtain ⟨⟨taken, others⟩, found, same⟩ := Option.map_eq_some_iff.mp popped
  cases same
  exact takeGreatest_first found

theorem pop_oldest (popped : q.pop? = some (job, rest)) :
    ∀ other ∈ q.jobs, job.order ≤ other.order := by
  intro other member
  have first := pop_first popped other member
  lia

theorem pop_perm (popped : q.pop? = some (job, rest)) : q.jobs.Perm (job :: rest.jobs) := by
  obtain ⟨front, back, whole, rfl⟩ := pop_split popped
  rw [whole]
  exact List.perm_middle

theorem pop_none (none : q.pop? = none) : q.jobs = [] :=
  takeGreatest_none (Option.map_eq_none_iff.mp none)

theorem drainUpTo_perm (n : Nat) (q : JobQueue σ) (enough : q.size ≤ n) :
    (drainUpTo n q).1.Perm q.jobs ∧ (drainUpTo n q).2.jobs = [] := by
  induction n generalizing q with
  | zero =>
    have nothing : q.jobs = [] := List.length_eq_zero_iff.mp (Nat.le_zero.mp enough)
    exact ⟨by rw [nothing]; exact .refl _, nothing⟩
  | succ n ih =>
    unfold drainUpTo
    split
    next none =>
      have nothing := pop_none none
      exact ⟨by rw [nothing], nothing⟩
    next job rest popped =>
      have fewer := size_pop popped
      obtain ⟨perm, nothing⟩ := ih rest (by omega)
      exact ⟨(perm.cons job).trans (pop_perm popped).symm, nothing⟩

theorem drain_perm (q : JobQueue σ) : q.drain.1.Perm q.jobs ∧ q.drain.2.jobs = [] :=
  drainUpTo_perm _ q (Nat.le_refl _)

def before (q : JobQueue σ) (id : OrderId) : Nat := q.jobs.countP (·.order ≤ id)

theorem before_pos (member : job ∈ q.jobs) : 0 < q.before job.order :=
  List.countP_pos_iff.mpr ⟨job, member, by simp⟩

theorem before_pop (popped : q.pop? = some (job, rest)) (older : job.order ≤ id) :
    q.before id = rest.before id + 1 := by
  rw [before, (pop_perm popped).countP_eq, List.countP_cons_of_pos (by simpa using older)]
  rfl

-- A drained queue has each job after jobs of orders no younger only.
theorem drainUpTo_place (n : Nat) (q : JobQueue σ) (enough : q.size ≤ n) (member : job ∈ q.jobs) :
    ∃ p, (drainUpTo n q).1[p]? = some job ∧ p < q.before job.order := by
  induction n generalizing q with
  | zero =>
    rw [List.length_eq_zero_iff.mp (Nat.le_zero.mp enough)] at member
    cases member
  | succ n ih =>
    unfold drainUpTo
    split
    next none =>
      rw [pop_none none] at member
      cases member
    next first rest popped =>
      have fewer := size_pop popped
      have counted := before_pop popped (pop_oldest popped job member)
      rcases List.mem_cons.mp ((pop_perm popped).mem_iff.mp member) with rfl | later
      · exact ⟨0, rfl, by omega⟩
      · obtain ⟨p, place, few⟩ := ih rest (by omega) later
        exact ⟨p + 1, place, by omega⟩

theorem drain_place (member : job ∈ q.jobs) : ∃ p, q.drain.1[p]? = some job ∧ p < q.before job.order :=
  drainUpTo_place _ q (Nat.le_refl _) member

end JobQueue

end Kitchen
