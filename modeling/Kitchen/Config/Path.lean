import Kitchen.Config.Tree
import Kitchen.Number.Reading

namespace Kitchen.Config

inductive PathStep where
  | name (key : String)
  -- A place in an array; a negative one counts from the end.
  | index (place : Int)
deriving DecidableEq, Repr

structure Path where
  root : String
  steps : List PathStep
deriving DecidableEq, Repr

namespace Path

def isNameChar (c : Char) : Bool := c.isAlphanum || c = ' ' || c = '_' || c = '-'

def takeName (text : List Char) : Option (String × List Char) :=
  match text.takeWhile isNameChar with
  | [] => none
  | name => some (String.ofList name, text.dropWhile isNameChar)

def isSpace (c : Char) : Bool := c = ' ' || c = '\t'

def takeIndex (text : List Char) : Option (Int × List Char) :=
  let text := text.dropWhile isSpace
  let (negative, text) := match text with
    | '-' :: rest => (true, rest)
    | text => (false, text)
  match Number.digits? (text.takeWhile Char.isDigit) with
  | none => none
  | some n =>
    (Number.inRange? (if negative then -n else n)).map fun place =>
      (place, (text.dropWhile Char.isDigit).dropWhile isSpace)

def takeStep : List Char → Option (PathStep × List Char)
  | '.' :: rest => (takeName rest).map fun (key, rest) => (.name key, rest)
  | '[' :: rest =>
    match takeIndex rest with
    | some (place, ']' :: rest) => some (.index place, rest)
    | _ => none
  | _ => none

-- The steps that a text is. Each takes a character, so that its length is fuel enough.
def takeSteps : Nat → List Char → Option (List PathStep)
  | _, [] => some []
  | 0, _ => none
  | fuel + 1, text =>
    match takeStep text with
    | none => none
    | some (step, rest) => (takeSteps fuel rest).map (step :: ·)

def parse? (text : String) : Option Path :=
  match takeName text.toList with
  | none => none
  | some (root, rest) => (takeSteps rest.length rest).map fun steps => ⟨root, steps⟩

end Path

namespace Tree

-- The place in an array of this length; `none` before its start.
def place? (place : Int) (length : Nat) : Option Nat :=
  match place with
  | .ofNat n => some n
  | .negSucc n => if n + 1 ≤ length then some (length - (n + 1)) else none

def arrayItems : Tree → List Tree
  | .array _ items => items
  | _ => []

def arrayOrigin : Tree → Option String
  | .array origin _ => origin
  | _ => none

def padded (items : List Tree) (length : Nat) : List Tree :=
  items ++ List.replicate (length - items.length) null

def changeItem (place : Int) (change : Tree → Tree) (under : Tree) : Tree :=
  let items := under.arrayItems
  match place? place items.length with
  | none => .array under.arrayOrigin items
  | some n => .array under.arrayOrigin ((padded items (n + 1)).modify n change)

def changeEntry (key : String) (change : Tree → Tree) (under : Tree) : Tree :=
  setEntry key (change ((Table.find key under.entries).getD null)) under

def setAt (value : Tree) : List PathStep → Tree → Tree
  | [], _ => value
  | [.name key], under => layEntry key value under
  | .name key :: rest, under => changeEntry key (setAt value rest) under
  | .index place :: rest, under => changeItem place (setAt value rest) under

-- Where a key leads: along the path that it is, or to the entry of its name if it is none.
def rootOf (key : String) : String :=
  match Path.parse? key with
  | some path => path.root
  | none => key

def stepsOf (key : String) : List PathStep :=
  match Path.parse? key with
  | some path => path.steps
  | none => []

def setKey (root : Tree) (key : String) (value : Tree) : Tree :=
  setAt value (.name (rootOf key) :: stepsOf key) root

def laySource (root : Tree) (source : Entries) : Tree :=
  source.foldl (fun root (key, value) => setKey root key value) root

-- No step leads before the start of its array, nor farther than an array can be made.
def reaches (room : Nat) : List PathStep → Tree → Bool
  | [], _ => true
  | .name key :: rest, under => reaches room rest ((Table.find key under.entries).getD null)
  | .index place :: rest, under =>
    match place? place under.arrayItems.length with
    | none => false
    | some n =>
      (n < under.arrayItems.length || n < room) &&
        reaches room rest (under.arrayItems[n]?.getD null)

-- Every entry of a source can be set, one after another.
def safe (room : Nat) (root : Tree) : Entries → Bool
  | [] => true
  | (key, value) :: rest =>
    reaches room (.name (rootOf key) :: stepsOf key) root && safe room (setKey root key value) rest

end Tree

end Kitchen.Config
