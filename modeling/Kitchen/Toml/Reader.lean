import Kitchen.Toml.Moment
import Kitchen.Toml.Node
import Kitchen.Toml.Number
import Kitchen.Toml.Text

namespace Kitchen.Toml

open Config (Datum)

-- How deep arrays and tables in braces may stand in each other, and how long a key with points
-- may be.
def room : Nat := 79

def isBareChar (c : Char) : Bool := c.isAlphanum || c = '_' || c = '-'

def readName (text : List Char) : Option (String × List Char) :=
  match text with
  | '"' :: _ | '\'' :: _ => readShortString text
  | text =>
    match text.takeWhile isBareChar with
    | [] => none
    | name => some (String.ofList name, text.dropWhile isBareChar)

-- Names with points between them and blanks around them. Each round takes a character.
def readNames : Nat → List Char → Option (List String × List Char)
  | 0, _ => none
  | fuel + 1, text =>
    match readName (skipBlanks text) with
    | none => none
    | some (name, rest) =>
      match skipBlanks rest with
      | '.' :: rest => (readNames fuel rest).map fun (names, rest) => (name :: names, rest)
      | rest => some ([name], rest)

structure Key where
  path : List String
  name : String
deriving Repr

def Key.ofNames? (names : List String) : Option Key :=
  if names.length ≤ room then names.getLast?.map fun name => ⟨names.dropLast, name⟩ else none

def readKey (text : List Char) : Option (Key × List Char) := do
  let (names, rest) ← readNames (text.length + 1) text
  let key ← Key.ofNames? names
  some (key, rest)

abbrev ValueReader := List Char → Option (Datum × List Char)

-- The items of an array after its bracket. Each round takes a character.
def readItems (value : ValueReader) : Nat → List Char → Option (List Datum × List Char)
  | 0, _ => none
  | fuel + 1, text =>
    match skipGap text with
    | ']' :: rest => some ([], rest)
    | text =>
      match value text with
      | none => none
      | some (item, rest) =>
        match skipGap rest with
        | ']' :: rest => some ([item], rest)
        | ',' :: rest => (readItems value fuel rest).map fun (items, rest) => (item :: items, rest)
        | _ => none

def readPairing (value : ValueReader) (text : List Char) : Option ((Key × Datum) × List Char) :=
  match readKey text with
  | some (key, '=' :: rest) =>
    (value (skipBlanks rest)).map fun (value, rest) => ((key, value), rest)
  | _ => none

-- The entries of a table in braces that has some. Each round takes a character.
def readEntries (value : ValueReader) : Nat → Nodes → List Char → Option (Nodes × List Char)
  | 0, _, _ => none
  | fuel + 1, entries, text =>
    match readPairing value text with
    | none => none
    | some ((key, datum), rest) =>
      match Node.define key.path key.name (.datum datum) .header entries with
      | none => none
      | some entries =>
        match skipBlanks rest with
        | '}' :: rest => some (entries, rest)
        | ',' :: rest => readEntries value fuel entries rest
        | _ => none

def readSimple (text : List Char) : Option (Datum × List Char) :=
  match text with
  | '"' :: _ | '\'' :: _ => (readString text).map fun (value, rest) => (.text value, rest)
  | 't' :: 'r' :: 'u' :: 'e' :: rest => some (.bool true, rest)
  | 'f' :: 'a' :: 'l' :: 's' :: 'e' :: rest => some (.bool false, rest)
  | text =>
    match readMoment text with
    | some (moment, rest) => some (.text moment, rest)
    | none => readNumber text

def readValue : Nat → List Char → Option (Datum × List Char)
  | 0, '[' :: _ | 0, '{' :: _ => none
  | room + 1, '[' :: rest =>
    (readItems (readValue room) (rest.length + 1) rest).map fun (items, rest) =>
      (.array items, rest)
  | room + 1, '{' :: rest =>
    match skipBlanks rest with
    | '}' :: rest => some (.table [], rest)
    | rest =>
      (readEntries (readValue room) rest.length [] rest).map fun (entries, rest) =>
        (.table (Node.toEntries entries), rest)
  | _, text => readSimple text

structure Draft where
  root : Nodes
  present : List String

namespace Draft

def define (d : Draft) (key : Key) (value : Datum) : Option Draft :=
  (Node.underHeader (Node.define key.path key.name (.datum value)) d.present d.root).map fun root =>
    { d with root }

def openTable (d : Draft) (key : Key) : Option Draft :=
  (Node.underHeader (Node.openTable key.name) key.path d.root).map fun root =>
    ⟨root, key.path ++ [key.name]⟩

def openItem (d : Draft) (key : Key) : Option Draft :=
  (Node.underHeader (Node.openItem key.name) key.path d.root).map fun root =>
    ⟨root, key.path ++ [key.name]⟩

def readHeader (d : Draft) (text : List Char) : Option (Draft × List Char) :=
  match text with
  | '[' :: rest =>
    match readKey rest with
    | some (key, ']' :: ']' :: rest) => (d.openItem key).map (·, rest)
    | _ => none
  | text =>
    match readKey text with
    | some (key, ']' :: rest) => (d.openTable key).map (·, rest)
    | _ => none

def readExpression (d : Draft) (text : List Char) : Option (Draft × List Char) :=
  match text with
  | [] => some (d, [])
  | '[' :: rest => d.readHeader rest
  | c :: rest =>
    if c = '#' || c = '\n' || c = '\r' then some (d, c :: rest)
    else
      match readPairing (readValue room) (c :: rest) with
      | some ((key, value), rest) => (d.define key value).map (·, rest)
      | none => none

-- Reads lines to the end of the text. Each line takes a character.
def readLines : Nat → Draft → List Char → Option Draft
  | _, d, [] => some d
  | 0, _, _ => none
  | fuel + 1, d, text =>
    match d.readExpression (skipBlanks text) with
    | none => none
    | some (d, rest) =>
      match lineEnd? rest with
      | some rest => readLines fuel d rest
      | none => none

end Draft

def withoutMark : List Char → List Char
  | '\ufeff' :: rest => rest
  | text => text

-- What a document says. A byte order mark in front does not count.
def read? (text : String) : Option Datum :=
  let text := withoutMark text.toList
  (Draft.readLines text.length ⟨[], []⟩ text).map fun d =>
    .table (Node.toEntries d.root)

end Kitchen.Toml
