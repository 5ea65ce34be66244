namespace Kitchen

structure Numeral where
  negative : Bool
  digits : Nat
  exponent : Int
  plain : Bool
deriving DecidableEq, Repr

namespace Numeral

def ofNat (n : Nat) : Numeral := ⟨false, n, 0, true⟩

-- The integer that is written; a minus sign before zero makes no integer.
def toInt? (n : Numeral) : Option Int :=
  if !n.plain then none
  else if n.negative then if n.digits = 0 then none else some (-n.digits)
  else some n.digits

def toNat? (n : Numeral) : Option Nat :=
  match n.toInt? with
  | some (.ofNat value) => some value
  | _ => none

theorem toNat?_ofNat (n : Nat) : (ofNat n).toNat? = some n := rfl

end Numeral

def digitValue (c : Char) : Nat := c.toNat - '0'.toNat

def ofDigits (digits : List Char) : Nat := digits.foldl (fun n c => 10 * n + digitValue c) 0

end Kitchen
