import Kitchen.Yaml.Cursor

-- Nodes that may stand within a line: scalars, names and collections in brackets. Inside a
-- collection of a block they stand deeper than `indent`.

namespace Kitchen.Yaml

-- Whether a node in these brackets may have a colon right after it when it is a key.
def isClosed (text : List Char) : Bool :=
  match text with
  | c :: _ => c = '"' || c = '\'' || c = '[' || c = '{'
  | [] => false

-- Whether a colon sets off a value in brackets here.
def Cursor.isAtValue (closed : Bool) (c : Cursor) : Bool :=
  match c.text with
  | ':' :: rest => closed || endsKey true rest
  | _ => false

def onOneLine (before after : List Char) : Bool :=
  !(before.take (before.length - after.length)).contains '\n'

mutual

-- A node in brackets. Each level takes a character, so that a few times the length of the text
-- is fuel enough.
def readFlow : Nat → Int → Cursor → Option (Node × Cursor)
  | 0, _, _ => none
  | fuel + 1, indent, c =>
    match c.properties with
    | none => none
    | some (p, c) =>
      match c.skipInside indent with
      | none => none
      | some c =>
        if !p.isEmpty && (c.isAtMark || c.isAtValue false) then some (p.apply (.empty, c))
        else (readBare fuel true indent c).map p.apply

def readBare : Nat → Bool → Int → Cursor → Option (Node × Cursor)
  | 0, _, _, _ => none
  | fuel + 1, inside, indent, c =>
    match c.text with
    | '*' :: rest => c.alias? rest
    | '[' :: rest =>
      (readFlowItems fuel indent (c.after rest)).map fun (items, c) => (.sequence items, c)
    | '{' :: rest =>
      (readFlowEntries fuel indent (c.after rest)).map fun (entries, c) => (.mapping entries, c)
    | text =>
      match readQuoted indent text with
      | some (value, rest) => some (.quotedText value, c.after rest)
      | none =>
        (readPlain inside indent text).map fun (value, rest) => (.plainText value, c.after rest)

def readFlowValue : Nat → Int → Cursor → Option (Node × Cursor)
  | 0, _, _ => none
  | fuel + 1, indent, c =>
    match c.skipInside indent with
    | none => none
    | some c => if c.isAtMark then some (.empty, c) else readFlow fuel indent c

def readFlowItems : Nat → Int → Cursor → Option (List Node × Cursor)
  | 0, _, _ => none
  | fuel + 1, indent, c =>
    match c.skipInside indent with
    | none => none
    | some c =>
      match c.text with
      | ']' :: rest => some ([], c.after rest)
      | _ =>
        match readFlowItem fuel indent c with
        | none => none
        | some (item, c) =>
          match c.skipInside indent with
          | none => none
          | some c =>
            match c.text with
            | ']' :: rest => some ([item], c.after rest)
            | ',' :: rest =>
              (readFlowItems fuel indent (c.after rest)).map fun (items, c) => (item :: items, c)
            | _ => none

-- An item of a sequence: a node, or a mapping of one key.
def readFlowItem : Nat → Int → Cursor → Option (Node × Cursor)
  | 0, _, _ => none
  | fuel + 1, indent, c =>
    if c.isAt '?' then (readFlowEntry fuel indent c).map fun (entry, c) => (.mapping [entry], c)
    else if c.isAtValue false then
      (readFlowEntry fuel indent c).map fun (entry, c) => (.mapping [entry], c)
    else
      match readFlow fuel indent c with
      | none => none
      | some (item, next) =>
        match next.skipInside indent with
        | none => none
        | some later =>
          if next.isAtValue (isClosed c.text) || later.isAtValue false then
            if onOneLine c.text later.text then
              (readFlowValue fuel indent (later.after (later.text.drop 1))).map fun (value, c) =>
                (.mapping [(item, value)], c)
            else none
          else some (item, next)

def readFlowEntry : Nat → Int → Cursor → Option ((Node × Node) × Cursor)
  | 0, _, _ => none
  | fuel + 1, indent, c =>
    let marked := c.isAt '?'
    match (if marked then c.after (c.text.drop 1) else c).skipInside indent with
    | none => none
    | some c =>
      let key :=
        if c.isAtMark || c.isAtValue false then some (Node.empty, c) else readFlow fuel indent c
      match key with
      | none => none
      | some (key, next) =>
        match next.skipInside indent with
        | none => none
        | some later =>
          if next.isAtValue (isClosed c.text) || later.isAtValue false then
            (readFlowValue fuel indent (later.after (later.text.drop 1))).map fun (value, c) =>
              ((key, value), c)
          else some ((key, .empty), later)

def readFlowEntries : Nat → Int → Cursor → Option (List (Node × Node) × Cursor)
  | 0, _, _ => none
  | fuel + 1, indent, c =>
    match c.skipInside indent with
    | none => none
    | some c =>
      match c.text with
      | '}' :: rest => some ([], c.after rest)
      | _ =>
        match readFlowEntry fuel indent c with
        | none => none
        | some (entry, c) =>
          match c.skipInside indent with
          | none => none
          | some c =>
            match c.text with
            | '}' :: rest => some ([entry], c.after rest)
            | ',' :: rest =>
              (readFlowEntries fuel indent (c.after rest)).map fun (entries, c) =>
                (entry :: entries, c)
            | _ => none

end

end Kitchen.Yaml
