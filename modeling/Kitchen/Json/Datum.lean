import Kitchen.Config.Datum
import Kitchen.Json.Real
import Kitchen.Json.Reader
import Kitchen.Number.Reading

namespace Kitchen.Config.Datum

def jsonDepth : Nat := 127

-- An integer of 64 bits is one, and every other number a floating-point number.
def ofNumeral? (n : Numeral) : Option Datum :=
  match n.toInt?.bind Number.inRange? with
  | some i => some (.int i)
  | none => n.real?.map .real

mutual

def ofJson? : Json → Option Datum
  | .null => some .null
  | .bool value => some (.bool value)
  | .num n => ofNumeral? n
  | .str value => some (.text value)
  | .arr items => (ofJsonItems? items).map .array
  | .obj members => (ofJsonMembers? members).map fun entries => .table entries
  | .broken => none

def ofJsonItems? : List Json → Option (List Datum)
  | [] => some []
  | item :: rest =>
    match ofJson? item with
    | some item => (ofJsonItems? rest).map (item :: ·)
    | none => none

def ofJsonMembers? : List (String × Json) → Option (List (String × Datum))
  | [] => some []
  | (key, value) :: rest =>
    match ofJson? value with
    | some value => (ofJsonMembers? rest).map ((key, value) :: ·)
    | none => none

end

def readJson? (text : String) : Option Datum :=
  match Json.parse? text with
  | some value => if value.depth ≤ jsonDepth then ofJson? value else none
  | none => none

end Kitchen.Config.Datum
