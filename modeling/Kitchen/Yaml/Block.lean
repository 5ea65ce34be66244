import Kitchen.Yaml.Flow

-- Nodes that take lines of their own. The items of a collection begin in one column, and what
-- belongs to an item stands deeper.

namespace Kitchen.Yaml

def readKey (fuel : Nat) (indent : Int) (c : Cursor) : Option (Node × Cursor) := do
  let (p, inner) ← c.properties
  let inner := { inner with text := inner.text.dropWhile isBlank }
  let (key, next) ←
    if !p.isEmpty && inner.isAt ':' then some (Node.empty, inner)
    else if startsPlain false inner.text then
      let (line, rest) := takePlain false [] inner.text
      some (.plainText (String.ofList line), inner.after rest)
    else readBare fuel false indent inner
  let (key, next) := p.apply (key, next)
  match next.text.dropWhile isBlank with
  | ':' :: rest =>
    if startsBlank rest && onOneLine c.text rest then some (key, next.after rest) else none
  | _ => none

-- What comes after an item: the place, if nothing else stands on the item's line.
def afterItem (c : Cursor) : Option Cursor :=
  let (c, _) := c.skip
  if c.isEnd || c.fresh then some c else none

mutual

-- A node. Each level takes a character, so that a few times the length of the text is fuel
-- enough.
def readNode : Nat → Int → Cursor → Option (Node × Cursor)
  | 0, _, _ => none
  | fuel + 1, indent, c =>
    if c.fresh && c.isAt '-' then
      (readSequence fuel c.column c).map fun (items, c) => (.sequence items, c)
    else if c.fresh && (c.isAt '?' || c.isAt ':' || (readKey fuel indent c).isSome) then
      (readMapping fuel c.column c).map fun (entries, c) => (.mapping entries, c)
    else
      match c.properties with
      | none => none
      | some (p, c) =>
        (if p.isEmpty then readContent fuel indent c else readInner fuel indent c).map p.apply

def readInner : Nat → Int → Cursor → Option (Node × Cursor)
  | 0, _, _ => none
  | fuel + 1, indent, c =>
    let (c, broke) := c.skip
    if c.isEnd then some (.empty, c)
    else if !broke then readNode fuel indent { c with fresh := false }
    else if indent < c.column then readNode fuel indent c
    else if indent = c.column && c.fresh && c.isAt '-' then
      (readSequence fuel c.column c).map fun (items, c) => (.sequence items, c)
    else some (.empty, c)

def readContent : Nat → Int → Cursor → Option (Node × Cursor)
  | 0, _, _ => none
  | fuel + 1, indent, c =>
    match c.text with
    | '|' :: rest =>
      (readBlock false indent rest).map fun (value, rest) => (.quotedText value, c.after rest)
    | '>' :: rest =>
      (readBlock true indent rest).map fun (value, rest) => (.quotedText value, c.after rest)
    | _ => readBare fuel false indent c

def readSequence : Nat → Nat → Cursor → Option (List Node × Cursor)
  | 0, _, _ => none
  | fuel + 1, column, c =>
    match readItem fuel column false c.afterMark with
    | none => none
    | some (item, c) =>
      match afterItem c with
      | none => none
      | some c =>
        if !c.isEnd && column < c.column then none
        else if c.column = column && c.isAt '-' then
          (readSequence fuel column c).map fun (items, c) => (item :: items, c)
        else some ([item], c)

-- What belongs to a mark in a column: a node that stands deeper, or nothing. After a key a
-- sequence may stand in the same column.
def readItem : Nat → Nat → Bool → Cursor → Option (Node × Cursor)
  | 0, _, _, _ => none
  | fuel + 1, column, keyed, c =>
    let (c, broke) := c.skip
    if c.isEnd then some (.empty, c)
    else if !broke || column < c.column then readNode fuel column c
    else if keyed && c.column = column && c.fresh && c.isAt '-' then
      (readSequence fuel column c).map fun (items, c) => (.sequence items, c)
    else some (.empty, c)

def readEntry : Nat → Nat → Cursor → Option ((Node × Node) × Cursor)
  | 0, _, _ => none
  | fuel + 1, column, c =>
    if c.isAt '?' then
      match readItem fuel column false c.afterMark with
      | none => none
      | some (key, c) =>
        match afterItem c with
        | none => none
        | some c =>
          if c.column = column && c.isAt ':' then
            (readItem fuel column true c.afterMark).map fun (value, c) => ((key, value), c)
          else some ((key, .empty), c)
    else if c.isAt ':' then
      (readItem fuel column true c.afterMark).map fun (value, c) => ((.empty, value), c)
    else
      match readKey fuel column c with
      | none => none
      | some (key, c) => (readItem fuel column true c).map fun (value, c) => ((key, value), c)

def readMapping : Nat → Nat → Cursor → Option (List (Node × Node) × Cursor)
  | 0, _, _ => none
  | fuel + 1, column, c =>
    match readEntry fuel column c with
    | none => none
    | some (entry, c) =>
      match afterItem c with
      | none => none
      | some c =>
        if c.isEnd || c.column < column then some ([entry], c)
        else if c.column = column then
          (readMapping fuel column c).map fun (entries, c) => (entry :: entries, c)
        else none

end

def readWhole (column : Nat) (fresh : Bool) (text : List Char) : Option Node :=
  let (c, _) := (Cursor.mk text column fresh []).skip
  if c.isEnd then some .empty
  else
    match readNode (8 * text.length + 8) (-1) c with
    | some (node, c) => if c.skip.1.isEnd then some node else none
    | none => none

end Kitchen.Yaml
