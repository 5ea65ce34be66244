import Kitchen.Number.Numeral

-- Binary floating-point numbers of 64 bits, by exact arithmetic on natural numbers: the number
-- nearest to a decimal, the nearest whole number, and the decimal with the fewest digits that is
-- read back as the same number.

namespace Kitchen

inductive Binary64 where
  -- The number `± mantissa × 2 ^ exponent`; the mantissa has at most 53 bits.
  | finite (negative : Bool) (mantissa : Nat) (exponent : Int)
  | infinite (negative : Bool)
  | nan
deriving DecidableEq, Repr

namespace Binary64

def leastMantissa : Nat := 4503599627370496

def fullMantissa : Nat := 9007199254740992

def zero (negative : Bool) : Binary64 := .finite negative 0 (-1074)

-- A quotient of natural numbers, rounded to the nearest one, a half to the even one.
def divNearest (num den : Nat) : Nat :=
  let q := num / den
  let r := num % den
  if 2 * r < den then q
  else if 2 * r = den then q + q % 2
  else q + 1

def scaled (num den : Nat) (exponent : Int) : Nat × Nat :=
  match exponent with
  | .ofNat e => (num, den * Nat.pow 2 e)
  | .negSucc e => (num * Nat.pow 2 (e + 1), den)

def mantissaAt (num den : Nat) (exponent : Int) : Nat :=
  let (n, d) := scaled num den exponent
  divNearest n d

-- The number nearest to a positive quotient, a half to the even mantissa; what is too large
-- becomes infinite.
def ofQuotient (negative : Bool) (num den : Nat) : Binary64 :=
  let bits : Int := num.log2 - den.log2
  let low : Int := if bits - 53 < -1074 then -1074 else bits - 53
  let (n, d) := scaled num den low
  let exponent := if n / d < fullMantissa then low else low + 1
  let mantissa := mantissaAt num den exponent
  let (mantissa, exponent) :=
    if mantissa = fullMantissa then (leastMantissa, exponent + 1) else (mantissa, exponent)
  if exponent > 971 then .infinite negative else .finite negative mantissa exponent

-- The number nearest to `± digits × 10 ^ exponent`. Far outside the range of the format the
-- power of ten is not computed.
def ofDecimal (negative : Bool) (digits : Nat) (exponent : Int) : Binary64 :=
  if digits = 0 then zero negative
  else
    let size : Int := exponent + (Nat.toDigits 10 digits).length
    if size > 400 then .infinite negative
    else if size < -400 then zero negative
    else
      match exponent with
      | .ofNat e => ofQuotient negative (digits * Nat.pow 10 e) 1
      | .negSucc e => ofQuotient negative digits (Nat.pow 10 (e + 1))

def isZero : Binary64 → Bool
  | .finite _ mantissa _ => mantissa = 0
  | _ => false

def quotient (mantissa : Nat) (exponent : Int) : Nat × Nat :=
  match exponent with
  | .ofNat e => (mantissa * Nat.pow 2 e, 1)
  | .negSucc e => (mantissa, Nat.pow 2 (e + 1))

def scaledBy (x : Binary64) (factor : Nat × Nat) : Binary64 :=
  match x with
  | .finite negative mantissa exponent =>
    if mantissa = 0 then x
    else
      let (num, den) := quotient mantissa exponent
      ofQuotient negative (num * factor.1) (den * factor.2)
  | x => x

-- The nearest whole number, a half away from zero, held between zero and `most`.
def toNat (most : Nat) : Binary64 → Nat
  | .finite true _ _ | .infinite true | .nan => 0
  | .infinite false => most
  | .finite false mantissa exponent =>
    let (num, den) := quotient mantissa exponent
    min ((2 * num + den) / (2 * den)) most

structure Decimal where
  digits : Nat
  exponent : Int
deriving DecidableEq, Repr

def Decimal.above (x : Decimal) (a b : Nat) : Bool :=
  match x.exponent with
  | .ofNat e => a ≤ x.digits * Nat.pow 10 e * b
  | .negSucc e => a * Nat.pow 10 (e + 1) ≤ x.digits * b

def Decimal.below (x : Decimal) (a b : Nat) : Bool :=
  match x.exponent with
  | .ofNat e => x.digits * Nat.pow 10 e * b ≤ a
  | .negSucc e => x.digits * b ≤ a * Nat.pow 10 (e + 1)

-- The numbers that are read as one: the ends of their row, as quotients, and whether the ends
-- belong to it.
structure Row where
  low : Nat × Nat
  high : Nat × Nat
  closed : Bool
deriving DecidableEq, Repr

-- The row of a positive number. Below a power of two the numbers lie twice as close.
def row (mantissa : Nat) (exponent : Int) : Row :=
  let quarter : Int := exponent - 2
  let below := if mantissa = leastMantissa && exponent > -1074 then 1 else 2
  ⟨quotient (4 * mantissa - below) quarter, quotient (4 * mantissa + 2) quarter, mantissa % 2 = 0⟩

def Row.contains (r : Row) (x : Decimal) : Bool :=
  if r.closed then x.above r.low.1 r.low.2 && x.below r.high.1 r.high.2
  else !x.below r.low.1 r.low.2 && !x.above r.high.1 r.high.2

def decimalSize (num den : Nat) : Int :=
  if den ≤ num then (Nat.toDigits 10 (num / den)).length
  else
    let zeros := (Nat.toDigits 10 (den / num)).length - 1
    if num * Nat.pow 10 zeros = den then 1 - (zeros : Int) else -(zeros : Int)

def gridBelow (num den : Nat) (exponent : Int) : Nat :=
  match exponent with
  | .ofNat e => num / (den * Nat.pow 10 e)
  | .negSucc e => num * Nat.pow 10 (e + 1) / den

def upperNearer (num den lower : Nat) (exponent : Int) : Bool :=
  match exponent with
  | .ofNat e => (2 * lower + 1) * Nat.pow 10 e * den ≤ 2 * num
  | .negSucc e => (2 * lower + 1) * den ≤ 2 * num * Nat.pow 10 (e + 1)

def decimalOf (r : Row) (num den : Nat) (size : Int) (digits : Nat) : Option Decimal :=
  let exponent := size - digits
  let lower : Decimal := ⟨gridBelow num den exponent, exponent⟩
  let upper : Decimal := ⟨lower.digits + 1, exponent⟩
  match r.contains lower, r.contains upper with
  | true, true => some (if upperNearer num den lower.digits exponent then upper else lower)
  | true, false => some lower
  | false, true => some upper
  | false, false => none

-- The decimal with the fewest digits that is read back; 17 are always enough.
def shortest (mantissa : Nat) (exponent : Int) : Decimal :=
  let (num, den) := quotient mantissa exponent
  let size := decimalSize num den
  ((List.range 17).findSome? fun n => decimalOf (row mantissa exponent) num den size (n + 1)).getD
    ⟨0, 0⟩

def reduceUpTo : Nat → Decimal → Decimal
  | 0, x => x
  | n + 1, x =>
    if x.digits % 10 = 0 && x.digits ≠ 0 then reduceUpTo n ⟨x.digits / 10, x.exponent + 1⟩ else x

def Decimal.reduce (x : Decimal) : Decimal := reduceUpTo (Nat.toDigits 10 x.digits).length x

def Decimal.positional (x : Decimal) : List Char :=
  let digits := Nat.toDigits 10 x.digits
  match x.exponent with
  | .ofNat e => digits ++ List.replicate e '0'
  | .negSucc e =>
    let places := e + 1
    if places < digits.length then
      digits.take (digits.length - places) ++ '.' :: digits.drop (digits.length - places)
    else '0' :: '.' :: (List.replicate (places - digits.length) '0' ++ digits)

def signed (negative : Bool) (text : List Char) : String :=
  String.ofList (if negative then '-' :: text else text)

-- The fewest digits that are read back, never with an exponent.
def text : Binary64 → String
  | .nan => "NaN"
  | .infinite negative => signed negative ['i', 'n', 'f']
  | .finite negative mantissa exponent =>
    if mantissa = 0 then signed negative ['0']
    else signed negative (shortest mantissa exponent).reduce.positional

def pointedText (x : Binary64) : String :=
  match x with
  | .finite .. => if x.text.toList.contains '.' then x.text else x.text ++ ".0"
  | _ => x.text

end Binary64

end Kitchen
