import Kitchen.Config.Datum
import Kitchen.Number.Radix
import Kitchen.Number.Reading

-- The nodes of a YAML document, and what they say. A plain scalar may be a number or one of a few
-- words; every other scalar is a text.

namespace Kitchen.Yaml

open Config (Datum Scalar)

inductive Tag where
  | none
  | core (name : String)
  | own
deriving DecidableEq, Repr

inductive Node where
  | scalar (plain : Bool) (tag : Tag) (text : String)
  | sequence (items : List Node)
  | mapping (entries : List (Node × Node))
deriving Repr, Inhabited

namespace Node

def empty : Node := .scalar true .none ""

def plainText (text : String) : Node := .scalar true .none text

def quotedText (text : String) : Node := .scalar false .none text

def withTag (tag : Tag) : Node → Node
  | .scalar plain .none text => .scalar plain tag text
  | node => node

end Node

-- An integer of 64 bits in a radix, perhaps with a sign.
def radixInt? (radix : Nat) (text : List Char) : Option Int :=
  let (negative, digits) := Number.splitSign text
  if digits.isEmpty then none
  else
    (Radix.number? radix digits).bind fun n =>
      Number.inRange? (if negative then -(n : Int) else n)

-- An integer: with the mark of a radix, or decimal. A plus sign may stand before a sign.
def int? (text : String) : Option Int :=
  (match text.toList with
    | '0' :: 'x' :: rest => radixInt? 16 rest
    | '0' :: 'o' :: rest => radixInt? 8 rest
    | '+' :: rest => Number.int? (String.ofList rest)
    | _ => none).or (Number.int? text)

-- Names of numbers that are not finite. No setting takes them.
def endless : List String :=
  [".inf", ".Inf", ".INF", "+.inf", "+.Inf", "+.INF", "-.inf", "-.Inf", "-.INF",
    ".nan", ".NaN", ".NAN"]

def real? (text : String) : Option Binary64 :=
  if text.toList.any Char.isDigit then Number.real? text else none

-- What a plain scalar says; `none` for the name of a number that is not finite.
def plainScalar? (text : String) : Option Scalar :=
  match int? text with
  | some i => some (.int i)
  | none =>
    if text = "" || text = "~" || text = "null" then some .null
    else if text = "true" then some (.bool true)
    else if text = "false" then some (.bool false)
    else if endless.contains text then none
    else
      match real? text with
      | some x => some (.real x)
      | none => some (.text text)

-- What a plain scalar says under a tag. A text that does not fit its tag says nothing.
def taggedScalar? (name text : String) : Option Scalar :=
  match name with
  | "bool" =>
    if text = "true" then some (.bool true)
    else if text = "false" then some (.bool false)
    else some .null
  | "int" => some (((Number.int? text).map Scalar.int).getD .null)
  | "float" =>
    if endless.contains text then none else some (((real? text).map Scalar.real).getD .null)
  | "null" => some .null
  | _ => some (.text text)

def scalar? (plain : Bool) (tag : Tag) (text : String) : Option Scalar :=
  match plain, tag with
  | true, .none => plainScalar? text
  | true, .core name => taggedScalar? name text
  | _, _ => some (.text text)

-- The text of a key. Only a text, a number or a truth value is one.
def key? : Node → Option String
  | .scalar plain tag text =>
    match scalar? plain tag text with
    | some (.text text) => some text
    | some (.int i) => some (toString i)
    | some (.bool b) => some (toString b)
    | some (.real _) => some text
    | _ => none
  | _ => none

namespace Node

mutual

def toDatum? : Node → Option Datum
  | .scalar plain tag text => (scalar? plain tag text).map .scalar
  | .sequence items => (toItems? items).map .array
  | .mapping entries => (toEntries? entries).map .table

def toItems? : List Node → Option (List Datum)
  | [] => some []
  | item :: rest =>
    match item.toDatum? with
    | some item => (toItems? rest).map (item :: ·)
    | none => none

def toEntries? : List (Node × Node) → Option (List (String × Datum))
  | [] => some []
  | (key, value) :: rest =>
    match key? key, value.toDatum? with
    | some key, some value => (toEntries? rest).map ((key, value) :: ·)
    | _, _ => none

end

end Node

end Kitchen.Yaml
