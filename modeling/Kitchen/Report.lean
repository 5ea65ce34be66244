namespace Kitchen

structure Report where
  collected : List (List String)
  abandoned : List (List String)
  failed : List (List String)
  failedProducts : List String
deriving DecidableEq, Repr

namespace Report

def empty : Report := ⟨[], [], [], []⟩

def handled (r : Report) : Nat := r.collected.length + r.abandoned.length + r.failed.length

def append (a b : Report) : Report :=
  ⟨a.collected ++ b.collected, a.abandoned ++ b.abandoned, a.failed ++ b.failed,
    a.failedProducts ++ b.failedProducts⟩

def joined (reports : List Report) : Report := reports.foldl append empty

end Report

structure Summary where
  workers : Nat
  collected : Nat
  abandoned : Nat
  failed : Nat
  failedProducts : Nat
deriving DecidableEq, Repr

namespace Summary

def zero : Summary := ⟨0, 0, 0, 0, 0⟩

def add (s : Summary) (r : Report) : Summary :=
  { s with
    collected := s.collected + r.collected.length
    abandoned := s.abandoned + r.abandoned.length
    failed := s.failed + r.failed.length
    failedProducts := s.failedProducts + r.failedProducts.length }

def ofReports (reports : List Report) : Summary :=
  reports.foldl add { zero with workers := reports.length }

def handled (s : Summary) : Nat := s.collected + s.abandoned + s.failed

end Summary

end Kitchen
