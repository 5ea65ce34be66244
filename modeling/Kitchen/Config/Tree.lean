import Kitchen.Config.Datum
import Kitchen.Config.Machine
import Kitchen.Table
import Kitchen.Text.Case

namespace Kitchen.Config

-- A value with its source. A table that was put together from several has none.
inductive Tree where
  | scalar (origin : Option String) (value : Scalar)
  | array (origin : Option String) (items : List Tree)
  | table (origin : Option String) (entries : List (String × Tree))
deriving Repr, Inhabited

abbrev Entries := List (String × Tree)

namespace Tree

def null : Tree := .scalar none .null

def emptyTable : Tree := .table none []

def entries : Tree → Entries
  | .table _ entries => entries
  | _ => []

-- A table keeps its source when its entries change; any other value loses it.
def tableOrigin : Tree → Option String
  | .table origin _ => origin
  | _ => none

mutual

-- A value read from a source. The entries of every table are in the order in which its map is
-- walked.
def ofDatum (machine : Machine) (origin : String) (place : List String) : Datum → Tree
  | .scalar value => .scalar (some origin) value
  | .array items => .array (some origin) (ofItems machine origin place 0 items)
  | .table entries =>
    .table (some origin) (machine.walk place (ofEntries machine origin place [] entries))

def ofItems (machine : Machine) (origin : String) (place : List String) (n : Nat) :
    List Datum → List Tree
  | [] => []
  | item :: rest =>
    ofDatum machine origin (toString n :: place) item ::
      ofItems machine origin place (n + 1) rest

def ofEntries (machine : Machine) (origin : String) (place : List String) (done : Entries) :
    List (String × Datum) → Entries
  | [] => done
  | (key, value) :: rest =>
    ofEntries machine origin place
      (Table.put key (ofDatum machine origin (key :: place) value) done) rest

end

def setEntry (key : String) (value : Tree) (under : Tree) : Tree :=
  .table under.tableOrigin (Table.put key value under.entries)

mutual

-- Lays the value of one key over a table. A table is laid entry by entry over what is there, its
-- keys in small letters; anything else takes its place. What is no table gives way to one.
def layEntry (key : String) (value : Tree) (under : Tree) : Tree :=
  match value with
  | .table _ entries =>
    let target := (Table.find key under.entries).getD emptyTable
    setEntry key (layEntries entries target) under
  | value => setEntry key value under

def layEntries (above : Entries) (under : Tree) : Tree :=
  match above with
  | [] => under
  | (key, value) :: rest => layEntries rest (layEntry (Text.lower key) value under)

end

end Tree

-- Keys keep their letters until their entries are set.
def inSmall {α : Type} (entries : List (String × α)) : List (String × α) :=
  entries.map fun entry => (Text.lower entry.1, entry.2)

end Kitchen.Config
