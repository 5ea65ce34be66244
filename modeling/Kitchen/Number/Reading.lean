import Kitchen.Config.Settings
import Kitchen.Number.Binary64

namespace Kitchen.Number

def minInt : Int := -9223372036854775808

def maxInt : Int := 9223372036854775807

def digits? (text : List Char) : Option Nat :=
  if text.isEmpty || !text.all Char.isDigit then none else some (ofDigits text)

-- A sign, if there is one: true for minus.
def splitSign : List Char → Bool × List Char
  | '-' :: rest => (true, rest)
  | '+' :: rest => (false, rest)
  | text => (false, text)

def inRange? (n : Int) : Option Int := if minInt ≤ n ∧ n ≤ maxInt then some n else none

def int? (text : String) : Option Int :=
  let (negative, rest) := splitSign text.toList
  (digits? rest).bind fun n => inRange? (if negative then -n else n)

def word? (text : String) : Option Nat :=
  let rest := match text.toList with
    | '+' :: rest => rest
    | rest => rest
  (digits? rest).bind fun n => if n ≤ maxWord then some n else none

def lower (text : List Char) : List Char := text.map Char.toLower

def exponent? : List Char → Option Int
  | [] => some 0
  | mark :: rest =>
    if mark = 'e' || mark = 'E' then
      let (negative, rest) := splitSign rest
      (digits? rest).map fun n => if negative then -(n : Int) else n
    else none

-- Digits with a point among or beside them, or none, then an exponent or none.
def unsignedReal? (negative : Bool) (text : List Char) : Option Binary64 :=
  let whole := text.takeWhile Char.isDigit
  let rest := text.dropWhile Char.isDigit
  let (places, rest) := match rest with
    | '.' :: rest => (rest.takeWhile Char.isDigit, rest.dropWhile Char.isDigit)
    | rest => ([], rest)
  if whole.isEmpty && places.isEmpty then none
  else
    (exponent? rest).map fun e =>
      .ofDecimal negative (ofDigits (whole ++ places)) (e - places.length)

-- A floating-point number, or the name of one that is not finite.
def real? (text : String) : Option Binary64 :=
  let (negative, rest) := splitSign text.toList
  let name := lower rest
  if name = ['i', 'n', 'f'] || name = ['i', 'n', 'f', 'i', 'n', 'i', 't', 'y'] then
    some (.infinite negative)
  else if name = ['n', 'a', 'n'] then some .nan
  else unsignedReal? negative rest

end Kitchen.Number
