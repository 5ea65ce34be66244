-- Lengths of time in nanoseconds, and their shortest text: a whole number of the largest unit
-- that fits, then what is left as a decimal fraction without closing zeros.

namespace Kitchen

structure Span where
  nanos : Nat
deriving DecidableEq, Repr

namespace Span

def ofSeconds (seconds nanos : Nat) : Span := ⟨seconds * 1000000000 + nanos⟩

def ofMillis (millis : Nat) : Span := ⟨millis * 1000000⟩

def millis (s : Span) : Nat := s.nanos / 1000000

def dropTrailingZeros (digits : List Char) : List Char :=
  (digits.reverse.dropWhile (· = '0')).reverse

def fractionDigits (places fraction : Nat) : List Char :=
  let digits := (toString fraction).toList
  List.replicate (places - digits.length) '0' ++ digits

def write (whole fraction places : Nat) (mark : String) : String :=
  match dropTrailingZeros (fractionDigits places fraction) with
  | [] => toString whole ++ mark
  | digits => toString whole ++ "." ++ String.ofList digits ++ mark

def text (s : Span) : String :=
  if 1000000000 ≤ s.nanos then write (s.nanos / 1000000000) (s.nanos % 1000000000) 9 "s"
  else if 1000000 ≤ s.nanos then write (s.nanos / 1000000) (s.nanos % 1000000) 6 "ms"
  else if 1000 ≤ s.nanos then write (s.nanos / 1000) (s.nanos % 1000) 3 "µs"
  else write s.nanos 0 0 "ns"

end Span

end Kitchen
