import Kitchen.Config.Datum
import Kitchen.Table

-- The tables of a TOML document while it is read: which may still grow, and how. Nothing is
-- defined twice.

namespace Kitchen.Toml

open Config (Datum)

inductive Origin where
  | header
  -- A table that only stands on the way to one of a header.
  | between
  | dotted
deriving DecidableEq, Repr

inductive Node where
  | datum (value : Datum)
  | table (origin : Origin) (entries : List (String × Node))
  -- An array of tables: the last one, which can grow, and those before it, the latest first.
  | series (last : List (String × Node)) (before : List (List (String × Node)))
deriving Repr, Inhabited

abbrev Nodes := List (String × Node)

namespace Node

-- Changes the table at a path. A table that is missing on the way is made; a value in the way
-- is a fault, and so is a table that may not be entered.
def change (made : Origin) (enters : Origin → Bool) (last : Origin → Nodes → Option Nodes) :
    List String → Origin → Nodes → Option Nodes
  | [], origin, entries => last origin entries
  | key :: path, _, entries =>
    match Table.find key entries with
    | none =>
      (change made enters last path made []).map fun inner =>
        Table.put key (.table made inner) entries
    | some (.table origin inner) =>
      if enters origin then
        (change made enters last path origin inner).map fun inner =>
          Table.put key (.table origin inner) entries
      else none
    | some (.series inner before) =>
      (change made enters last path .header inner).map fun inner =>
        Table.put key (.series inner before) entries
    | some (.datum _) => none

def underHeader (last : Origin → Nodes → Option Nodes) (path : List String) (root : Nodes) :
    Option Nodes :=
  change .between (fun _ => true) last path .header root

def openTable (key : String) (_ : Origin) (entries : Nodes) : Option Nodes :=
  match Table.find key entries with
  | none => some (Table.put key (.table .header []) entries)
  | some (.table .between inner) => some (Table.put key (.table .header inner) entries)
  | _ => none

def openItem (key : String) (_ : Origin) (entries : Nodes) : Option Nodes :=
  match Table.find key entries with
  | none => some (Table.put key (.series [] []) entries)
  | some (.series last before) => some (Table.put key (.series [] (last :: before)) entries)
  | _ => none

-- Defines a key in a table. A key with points defines only in tables that such keys made.
def define (path : List String) (key : String) (value : Node) (origin : Origin) (entries : Nodes) :
    Option Nodes :=
  change .dotted (· ≠ .header)
    (fun origin entries =>
      if !path.isEmpty && origin ≠ .dotted then none
      else if (Table.find key entries).isSome then none
      else some (Table.put key value entries))
    path origin entries

mutual

def toDatum : Node → Datum
  | .datum value => value
  | .table _ entries => .table (toEntries entries)
  | .series last before =>
    .array ((Datum.table (toEntries last) :: toItems before).reverse)

def toEntries : List (String × Node) → List (String × Datum)
  | [] => []
  | (key, node) :: rest => (key, node.toDatum) :: toEntries rest

def toItems : List (List (String × Node)) → List Datum
  | [] => []
  | entries :: rest => .table (toEntries entries) :: toItems rest

end

end Node

end Kitchen.Toml
