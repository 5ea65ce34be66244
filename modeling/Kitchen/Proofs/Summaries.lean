import Kitchen.Number.Total
import Kitchen.Report
import Mathlib.Algebra.BigOperators.Group.List.Basic

-- The totals over the workers are a sum over their reports, in which only the lengths of the lists count.

namespace Kitchen

def Report.lengths (r : Report) : Nat × Nat × Nat × Nat :=
  (r.collected.length, r.abandoned.length, r.failed.length, r.failedProducts.length)

namespace Summary

instance : Zero Summary := ⟨zero⟩

instance : Add Summary where
  add s t := ⟨s.workers + t.workers, s.collected + t.collected, s.abandoned + t.abandoned,
    s.failed + t.failed, s.failedProducts + t.failedProducts⟩

theorem zero_def : (0 : Summary) = ⟨0, 0, 0, 0, 0⟩ := rfl

theorem add_def (s t : Summary) : s + t =
    ⟨s.workers + t.workers, s.collected + t.collected, s.abandoned + t.abandoned,
      s.failed + t.failed, s.failedProducts + t.failedProducts⟩ := rfl

instance : AddCommMonoid Summary where
  add_assoc s t u := by simp only [add_def, Nat.add_assoc]
  zero_add s := by simp only [add_def, zero_def, Nat.zero_add]
  add_zero s := by simp only [add_def, zero_def, Nat.add_zero]
  add_comm s t := by simp only [add_def, Nat.add_comm]
  nsmul := nsmulRec

def ofReport (r : Report) : Summary :=
  ⟨1, r.collected.length, r.abandoned.length, r.failed.length, r.failedProducts.length⟩

theorem foldl_add (reports : List Report) (s : Summary) :
    reports.foldl add { s with workers := s.workers + reports.length } =
      s + (reports.map ofReport).sum := by
  induction reports generalizing s with
  | nil => exact (add_zero s).symm
  | cons r rest ih =>
    have first : add { s with workers := s.workers + (rest.length + 1) } r =
        { s + ofReport r with workers := (s + ofReport r).workers + rest.length } := by
      simp only [add, add_def, ofReport, Nat.add_assoc, Nat.add_comm 1]
    rw [List.length_cons, List.foldl_cons, first, ih, List.map_cons, List.sum_cons, add_assoc]

theorem ofReports_eq_sum (reports : List Report) :
    ofReports reports = (reports.map ofReport).sum := by
  have start : { zero with workers := reports.length } =
      { zero with workers := zero.workers + reports.length } := by rw [zero, Nat.zero_add]
  rw [ofReports, start, foldl_add]
  exact zero_add _

theorem ofReports_append (reports others : List Report) :
    ofReports (reports ++ others) = ofReports reports + ofReports others := by
  simp only [ofReports_eq_sum, List.map_append, List.sum_append]

theorem ofReports_perm {reports others : List Report} (perm : reports.Perm others) :
    ofReports reports = ofReports others := by
  rw [ofReports_eq_sum, ofReports_eq_sum]
  exact (perm.map ofReport).sum_eq

theorem handled_add (s t : Summary) : (s + t).handled = s.handled + t.handled := by
  simp only [handled, add_def]
  omega

-- Each total counts one of the lists.
theorem ofReports_totals (reports : List Report) : ofReports reports =
    ⟨reports.length, total (reports.map fun r => r.collected.length),
      total (reports.map fun r => r.abandoned.length),
      total (reports.map fun r => r.failed.length),
      total (reports.map fun r => r.failedProducts.length)⟩ := by
  rw [ofReports_eq_sum]
  induction reports with
  | nil => rfl
  | cons r rest ih =>
    rw [List.map_cons, List.sum_cons, add_def, ih]
    simp only [ofReport, List.map_cons, List.length_cons, total, Nat.add_comm 1]

theorem workers_ofReports (reports : List Report) : (ofReports reports).workers = reports.length := by
  rw [ofReports_totals]

theorem handled_ofReports (reports : List Report) :
    (ofReports reports).handled = total (reports.map Report.handled) := by
  rw [ofReports_eq_sum]
  induction reports with
  | nil => rfl
  | cons r rest ih =>
    rw [List.map_cons, List.sum_cons, handled_add, ih, List.map_cons, total]
    rfl

theorem ofReports_lengths {reports others : List Report}
    (same : reports.map Report.lengths = others.map Report.lengths) :
    ofReports reports = ofReports others := by
  have counted : ∀ l : List Report, l.map ofReport =
      (l.map Report.lengths).map fun (a, b, c, d) => ⟨1, a, b, c, d⟩ := by
    intro l
    rw [List.map_map]
    rfl
  rw [ofReports_eq_sum, ofReports_eq_sum, counted, counted, same]

end Summary

end Kitchen
