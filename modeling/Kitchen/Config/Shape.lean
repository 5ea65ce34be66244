import Kitchen.Config.Settings
import Kitchen.Config.Tree
import Kitchen.Number.Reading
import Kitchen.Text.Quoted

namespace Kitchen.Config

inductive Found where
  | text (value : String)
  | integer (value : Int)
  -- An integer that is refused for its size.
  | wide (value : Int)
  | boolean (value : Bool)
  | real (value : Binary64)
  | unit
  | sequence
  | map
deriving DecidableEq, Repr

def Found.wording : Found → String
  | .text value => "string " ++ Text.quoted value
  | .integer value => "integer `" ++ toString value ++ "`"
  | .wide value => "64-bit integer `" ++ toString value ++ "`"
  | .boolean value => "boolean `" ++ toString value ++ "`"
  | .real value => "floating point `" ++ value.pointedText ++ "`"
  | .unit => "unit value"
  | .sequence => "sequence"
  | .map => "map"

inductive Expected where
  | integer
  | word
  | boolean
  | text
  | logging
deriving DecidableEq, Repr

def Expected.wording : Expected → String
  | .integer => "an integer"
  | .word => "an unsigned 64 bit or less integer"
  | .boolean => "a boolean"
  | .text => "a string"
  | .logging => "struct LoggingConfig"

-- A value of the wrong kind, perhaps with its key and its source.
structure Mismatch where
  found : Found
  expected : Expected
  key : Option String
  origin : Option String
deriving DecidableEq, Repr

namespace Mismatch

def atKey : Option String → String
  | some key => " for key `" ++ key ++ "`"
  | none => ""

def inOrigin : Option String → String
  | some origin => " in " ++ origin
  | none => ""

def message (m : Mismatch) : String :=
  "invalid type: " ++ m.found.wording ++ ", expected " ++ m.expected.wording ++ atKey m.key ++
    inOrigin m.origin

end Mismatch

namespace Tree

def wordOfText? (text : String) : Option Nat :=
  let small := Text.lower text
  if small = "true" || small = "on" || small = "yes" then some 1
  else if small = "false" || small = "off" || small = "no" then some 0
  else Number.word? text

def toWord (key : String) : Tree → Except Mismatch Nat
  | .scalar origin value =>
    match value with
    | .int i => if 0 ≤ i then .ok i.toNat else .error ⟨.wide i, .word, key, origin⟩
    | .bool b => .ok (if b then 1 else 0)
    | .real x => .ok (x.toNat maxWord)
    | .text text =>
      match wordOfText? text with
      | some n => .ok n
      | none => .error ⟨.text text, .integer, key, origin⟩
    | .null => .error ⟨.unit, .integer, key, origin⟩
  | .array origin _ => .error ⟨.sequence, .integer, key, origin⟩
  | .table origin _ => .error ⟨.map, .integer, key, origin⟩

def boolOfText? (small : String) : Option Bool :=
  if small = "1" || small = "true" || small = "on" || small = "yes" then some true
  else if small = "0" || small = "false" || small = "off" || small = "no" then some false
  else none

def toBool (key : String) : Tree → Except Mismatch Bool
  | .scalar origin value =>
    match value with
    | .bool b => .ok b
    | .int i => .ok (i ≠ 0)
    | .real x => .ok (!x.isZero)
    | .text text =>
      match boolOfText? (Text.lower text) with
      | some b => .ok b
      | none => .error ⟨.text (Text.lower text), .boolean, key, origin⟩
    | .null => .error ⟨.unit, .boolean, key, origin⟩
  | .array origin _ => .error ⟨.sequence, .boolean, key, origin⟩
  | .table origin _ => .error ⟨.map, .boolean, key, origin⟩

def toText (key : String) : Tree → Except Mismatch String
  | .scalar origin value =>
    match value with
    | .text text => .ok text
    | .bool b => .ok (toString b)
    | .int i => .ok (toString i)
    | .real x => .ok x.text
    | .null => .error ⟨.unit, .text, key, origin⟩
  | .array origin _ => .error ⟨.sequence, .text, key, origin⟩
  | .table origin _ => .error ⟨.map, .text, key, origin⟩

def foundScalar : Scalar → Found
  | .null => .unit
  | .bool b => .boolean b
  | .int i => .integer i
  | .real x => .real x
  | .text text => .text text

-- How a value changes the record it is in; none changes nothing.
def change {α σ : Type} (decode : Tree → Except Mismatch α) (set : α → σ → σ) :
    Option Tree → Except Mismatch (σ → σ)
  | some value => (decode value).map set
  | none => .ok id

def changed {σ : Type} (start : σ) (changes : List (String × Except Mismatch (σ → σ))) :
    Except Mismatch σ :=
  changes.foldlM (fun s entry => entry.2.map (· s)) start

def logChanges (level json : String) (levelValue jsonValue : Option Tree) :
    List (String × Except Mismatch (LogSettings → LogSettings)) :=
  [("level", change (toText level) (fun level s => { s with level }) levelValue),
    ("json", change (toBool json) (fun json s => { s with json }) jsonValue)]

def toLogSettings (machine : Machine) : Tree → Except Mismatch LogSettings
  | .table _ entries =>
    changed .default (machine.walk ["logging", "settings"]
      (logChanges "logging.level" "logging.json" (Table.find "level" entries)
        (Table.find "json" entries)))
  | .array _ items => changed .default (logChanges "logging[0]" "logging[1]" items[0]? items[1]?)
  | .scalar _ value => .error ⟨foundScalar value, .logging, none, none⟩

def changes (machine : Machine) (root : Tree) :
    List (String × Except Mismatch (Settings → Settings)) :=
  [("workers", change (toWord "workers") (fun workers s => { s with workers })
      (Table.find "workers" root.entries)),
    ("client_timeout_ms",
      change (toWord "client_timeout_ms") (fun clientTimeoutMs s => { s with clientTimeoutMs })
        (Table.find "client_timeout_ms" root.entries)),
    ("logging", change (toLogSettings machine) (fun logging s => { s with logging })
      (Table.find "logging" root.entries))]

-- Settings from the entries of the root, as its map is walked. Entries of other names count for
-- nothing.
def toSettings (machine : Machine) (root : Tree) : Except Mismatch Settings :=
  changed .default (machine.walk ["settings"] (changes machine root))

end Tree

end Kitchen.Config
