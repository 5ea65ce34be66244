namespace Kitchen.Radix

def value? (c : Char) : Option Nat :=
  if c.isDigit then some (c.toNat - '0'.toNat)
  else if 'a' ≤ c && c ≤ 'f' then some (c.toNat - 'a'.toNat + 10)
  else if 'A' ≤ c && c ≤ 'F' then some (c.toNat - 'A'.toNat + 10)
  else none

def isDigit (radix : Nat) (c : Char) : Bool :=
  match value? c with
  | some n => n < radix
  | none => false

def number? (radix : Nat) (digits : List Char) : Option Nat :=
  digits.foldlM (fun n c => if isDigit radix c then (value? c).map (radix * n + ·) else none) 0

-- The character of a number, unless the number is half of a surrogate pair or too large.
def char? (n : Nat) : Option Char :=
  if n < 0xd800 || (0xdfff < n && n < 0x110000) then some (Char.ofNat n) else none

def readChar (length : Nat) (text : List Char) : Option (Char × List Char) :=
  if (text.take length).length = length then
    ((number? 16 (text.take length)).bind char?).map (·, text.drop length)
  else none

end Kitchen.Radix
