import Kitchen.Number.Numeral
import Kitchen.Text.Span

-- Dates and times in TOML, and their one text: a `T` between date and time, a `Z` for the zone of
-- reference, no zeros at the end of a fraction.

namespace Kitchen.Toml

def readPair (low high : Nat) : List Char → Option (List Char × List Char)
  | a :: b :: rest =>
    if a.isDigit && b.isDigit && low ≤ ofDigits [a, b] && ofDigits [a, b] ≤ high then
      some ([a, b], rest)
    else none
  | _ => none

def isLeap (year : Nat) : Bool := year % 4 = 0 && (year % 100 ≠ 0 || year % 400 = 0)

def daysOf (year month : Nat) : Nat :=
  if month = 2 then if isLeap year then 29 else 28
  else if month = 4 || month = 6 || month = 9 || month = 11 then 30
  else 31

def readDate : List Char → Option (List Char × List Char)
  | a :: b :: c :: d :: '-' :: rest => do
    let year := [a, b, c, d]
    if !year.all Char.isDigit then none
    else
      let (month, rest) ← readPair 1 12 rest
      match rest with
      | '-' :: rest =>
        let (day, rest) ← readPair 1 (daysOf (ofDigits year) (ofDigits month)) rest
        some (year ++ '-' :: (month ++ '-' :: day), rest)
      | _ => none
  | _ => none

-- A fraction of a second, if there is one; nine digits of it count.
def readSecondPart : List Char → List Char × List Char
  | '.' :: c :: rest =>
    if c.isDigit then
      let digits := (c :: rest).takeWhile Char.isDigit
      let text := match Span.dropTrailingZeros (digits.take 9) with
        | [] => []
        | digits => '.' :: digits
      (text, (c :: rest).dropWhile Char.isDigit)
    else ([], '.' :: c :: rest)
  | text => ([], text)

def readTime (text : List Char) : Option (List Char × List Char) := do
  let (hour, rest) ← readPair 0 23 text
  match rest with
  | ':' :: rest =>
    let (minute, rest) ← readPair 0 59 rest
    match rest with
    | ':' :: rest =>
      let (second, rest) ← readPair 0 60 rest
      let (part, rest) := readSecondPart rest
      some (hour ++ ':' :: (minute ++ ':' :: (second ++ part)), rest)
    | _ => none
  | _ => none

def readOffset : List Char → Option (List Char × List Char)
  | [] => some ([], [])
  | c :: rest =>
    if c = 'Z' || c = 'z' then some (['Z'], rest)
    else if c = '+' || c = '-' then do
      let (hour, rest) ← readPair 0 23 rest
      match rest with
      | ':' :: rest =>
        let (minute, rest) ← readPair 0 59 rest
        let sign := if ofDigits (hour ++ minute) = 0 then '+' else c
        some (sign :: (hour ++ ':' :: minute), rest)
      | _ => none
    else some ([], c :: rest)

def readTimeAfter (date : List Char) (text : List Char) : Option (List Char × List Char) :=
  match text with
  | c :: rest =>
    if c = 'T' || c = 't' || c = ' ' then
      match readTime rest with
      | some (time, rest) =>
        (readOffset rest).map fun (offset, rest) => (date ++ 'T' :: (time ++ offset), rest)
      | none => some (date, text)
    else some (date, text)
  | [] => some (date, [])

def readMoment (text : List Char) : Option (String × List Char) :=
  match readDate text with
  | some (date, rest) =>
    (readTimeAfter date rest).map fun (text, rest) => (String.ofList text, rest)
  | none => (readTime text).map fun (text, rest) => (String.ofList text, rest)

end Kitchen.Toml
