import Kitchen.Config.Settings
import Kitchen.Number.Binary64

-- The floating-point number that a numeral in a JSON document names. It is got in two steps, and
-- each of them rounds: first the leading digits that fit in 64 bits, then a power of ten. A long
-- numeral may so miss the nearest number by little.

namespace Kitchen.Numeral

-- The leading digits that fit in 64 bits, and how many follow them.
def leading (digits : Nat) : Nat × Nat :=
  if digits ≤ maxWord then (digits, 0)
  else
    let (kept, dropped) := leading (digits / 10)
    (kept, dropped + 1)
termination_by digits
decreasing_by
  have : maxWord = 18446744073709551615 := rfl
  omega

def roundedPower (exponent : Nat) : Nat × Nat :=
  match Binary64.ofDecimal false 1 exponent with
  | .finite _ mantissa exponent => Binary64.quotient mantissa exponent
  | _ => (0, 1)

def finite? (x : Binary64) : Option Binary64 :=
  match x with
  | .finite .. => some x
  | _ => none

-- A number of at most 64 bits times a power of ten; `none` is too large. The greatest power that
-- is a floating-point number itself is the 308th. After two divisions by it nothing is left.
def timesPower : Nat → Binary64 → Int → Option Binary64
  | _, x, .ofNat e =>
    if x.isZero then some x
    else if e ≤ 308 then finite? (x.scaledBy (roundedPower e))
    else none
  | divisions, x, .negSucc e =>
    if e + 1 ≤ 308 then some (x.scaledBy (roundedPower (e + 1)).swap)
    else
      match divisions with
      | 0 => some (.zero false)
      | divisions + 1 =>
        timesPower divisions (x.scaledBy (roundedPower 308).swap) (308 - (e + 1 : Int))

def withSign (negative : Bool) : Binary64 → Binary64
  | .finite _ mantissa exponent => .finite negative mantissa exponent
  | x => x

def real? (n : Numeral) : Option Binary64 :=
  let (kept, dropped) := leading n.digits
  (timesPower 2 (.ofDecimal false kept 0) (n.exponent + dropped)).map (withSign n.negative)

end Kitchen.Numeral
