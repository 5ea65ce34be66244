import Kitchen.Config.Settings
import Kitchen.Json.Basic

namespace Kitchen.Encoding

-- The outer `none` refuses a key that an object has more than once.
def single? (key : String) (members : List (String × Json)) : Option (Option Json) :=
  match members.filter (·.1 = key) with
  | [] => some none
  | [(_, value)] => some (some value)
  | _ => none

def fields? (names : List String) : Json → Option (List (Option Json))
  | .obj members => names.mapM (single? · members)
  | .arr items =>
    if items.length ≤ names.length then
      some (items.map some ++ List.replicate (names.length - items.length) none)
    else none
  | _ => none

def optional {α : Type} (decode : Json → Option α) (default : α) : Option Json → Option α
  | none => some default
  | some value => decode value

def required {α : Type} (decode : Json → Option α) (field : Option Json) : Option α :=
  field.bind decode

def word? (value : Json) : Option Nat :=
  match value.nat? with
  | some n => if n ≤ maxWord then some n else none
  | none => none

def list? {α : Type} (decode : Json → Option α) (value : Json) : Option (List α) :=
  value.items?.bind (·.mapM decode)

end Kitchen.Encoding
