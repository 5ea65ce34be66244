import Kitchen.Config.Datum
import Kitchen.Number.Radix
import Kitchen.Number.Reading

-- Integers and floating-point numbers in TOML. Single underscores may stand between digits.

namespace Kitchen.Toml

open Config (Datum)

def moreDigits (isDigit : Char → Bool) : List Char → Option (List Char × List Char)
  | '_' :: c :: rest =>
    if isDigit c then (moreDigits isDigit rest).map fun (digits, rest) => (c :: digits, rest)
    else none
  | c :: rest =>
    if isDigit c then (moreDigits isDigit rest).map fun (digits, rest) => (c :: digits, rest)
    else if c = '_' then none
    else some ([], c :: rest)
  | [] => some ([], [])

def readDigits (isDigit : Char → Bool) : List Char → Option (List Char × List Char)
  | c :: rest =>
    if isDigit c then (moreDigits isDigit rest).map fun (digits, rest) => (c :: digits, rest)
    else none
  | [] => none

def readRadix (radix : Nat) (text : List Char) : Option (Datum × List Char) := do
  let (digits, rest) ← readDigits (Radix.isDigit radix) text
  let n ← Radix.number? radix digits
  let i ← Number.inRange? n
  some (.int i, rest)

-- The digits before a point: one zero alone, or no zero in front.
def readWhole : List Char → Option (List Char × List Char)
  | '0' :: rest => some (['0'], rest)
  | text => readDigits Char.isDigit text

def readFraction : List Char → Option (Option (List Char) × List Char)
  | '.' :: rest => (readDigits Char.isDigit rest).map fun (digits, rest) => (some digits, rest)
  | text => some (none, text)

def readExponent : List Char → Option (Option Int × List Char)
  | [] => some (none, [])
  | c :: rest =>
    if c = 'e' || c = 'E' then
      let (negative, rest) := Number.splitSign rest
      (readDigits Char.isDigit rest).map fun (digits, rest) =>
        let n : Int := ofDigits digits
        (some (if negative then -n else n), rest)
    else some (none, c :: rest)

-- Numbers too large are refused, but not numbers too small.
def real? (x : Binary64) : Option Datum := if x = .infinite false then none else some (.real x)

def readDecimal (negative : Bool) (text : List Char) : Option (Datum × List Char) := do
  let (whole, rest) ← readWhole text
  let (fraction, rest) ← readFraction rest
  let (exponent, rest) ← readExponent rest
  match fraction, exponent with
  | none, none =>
    let n : Int := ofDigits whole
    let i ← Number.inRange? (if negative then -n else n)
    some (.int i, rest)
  | _, _ =>
    let places := fraction.getD []
    let x := .ofDecimal negative (ofDigits (whole ++ places)) (exponent.getD 0 - places.length)
    (real? x).map (·, rest)

-- A number; only one without a sign may have the mark of a radix.
def readNumber (text : List Char) : Option (Datum × List Char) :=
  match text with
  | '0' :: 'x' :: rest => readRadix 16 rest
  | '0' :: 'o' :: rest => readRadix 8 rest
  | '0' :: 'b' :: rest => readRadix 2 rest
  | text =>
    let (negative, rest) := Number.splitSign text
    match rest with
    | 'i' :: 'n' :: 'f' :: rest => some (.real (.infinite negative), rest)
    | 'n' :: 'a' :: 'n' :: rest => some (.real .nan, rest)
    | rest => readDecimal negative rest

end Kitchen.Toml
