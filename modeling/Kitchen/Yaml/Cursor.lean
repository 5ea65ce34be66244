import Kitchen.Table
import Kitchen.Yaml.Node
import Kitchen.Yaml.Scalar

namespace Kitchen.Yaml

structure Cursor where
  text : List Char
  column : Nat
  -- Only spaces and the marks of other items stand before it on its line, so that a collection
  -- may begin here.
  fresh : Bool
  -- Nodes that can be named, the latest first.
  anchors : List (String × Node)
deriving Repr

namespace Cursor

def after (c : Cursor) (text : List Char) : Cursor := { c with text, fresh := false }

def afterMark (c : Cursor) : Cursor :=
  { c with text := c.text.drop 1, column := c.column + 1, fresh := true }

def isEnd (c : Cursor) : Bool := c.text.isEmpty

def isAt (mark : Char) (c : Cursor) : Bool :=
  match c.text with
  | d :: rest => d = mark && startsBlank rest
  | [] => false

end Cursor

inductive Gap where
  | tight
  | blank
  | comment
deriving DecidableEq, Repr

-- Skips blanks, comments and line breaks. A comment follows a blank.
def skipFrom (gap : Gap) (column : Nat) (fresh broke : Bool) :
    List Char → List Char × Nat × Bool × Bool
  | [] => ([], column, fresh, broke)
  | c :: rest =>
    if c = '\n' then skipFrom .blank 0 true true rest
    else if gap = .comment then skipFrom .comment column fresh broke rest
    else if c = ' ' then skipFrom .blank (if fresh then column + 1 else column) fresh broke rest
    else if c = '\t' then skipFrom .blank column false broke rest
    else if c = '#' && gap = .blank then skipFrom .comment column fresh broke rest
    else (c :: rest, column, fresh, broke)

namespace Cursor

-- The next place that is no gap, and whether it is on a later line.
def skip (c : Cursor) : Cursor × Bool :=
  let start := if c.fresh && c.column = 0 then Gap.blank else .tight
  let (text, column, fresh, broke) := skipFrom start c.column c.fresh false c.text
  ({ c with text, column, fresh }, broke)

-- Whether nothing is written where a node in brackets could stand.
def isAtMark (c : Cursor) : Bool :=
  match c.text with
  | d :: _ => d = ',' || d = ']' || d = '}'
  | [] => false

-- The next place inside brackets. On a later line it stands deeper than `indent`; a closing
-- bracket may stand just there.
def skipInside (indent : Int) (c : Cursor) : Option Cursor :=
  let (c, broke) := c.skip
  let column : Int := if c.isAtMark then c.column + 1 else c.column
  if broke && !c.isEnd && column ≤ indent then none else some { c with fresh := false }

end Cursor

structure Properties where
  anchor : Option String
  tag : Option Tag
deriving DecidableEq, Repr

namespace Properties

def isNameChar (c : Char) : Bool := !isBlank c && c ≠ '\n' && !isFlowMark c

def takeName (text : List Char) : Option (String × List Char) :=
  match text.takeWhile isNameChar with
  | [] => none
  | name => some (String.ofList name, text.dropWhile isNameChar)

-- A tag after its mark: one that is known everywhere, or any other.
def takeTag (text : List Char) : Option (Tag × List Char) :=
  match text with
  | '!' :: rest => (takeName rest).map fun (name, rest) => (.core name, rest)
  | '<' :: rest =>
    match rest.dropWhile fun c => c ≠ '>' && !isBlank c && c ≠ '\n' with
    | '>' :: rest => some (.own, rest)
    | _ => none
  | text =>
    let name := text.takeWhile isNameChar
    if name.contains '!' then none else some (.own, text.dropWhile isNameChar)

def isEnded (text : List Char) : Bool := endsKey true text

-- Reads anchors and tags with blanks between them, up to the end of the line. There are at most
-- two.
def read : Nat → Properties → List Char → Option (Properties × List Char)
  | 0, p, text => some (p, text)
  | fuel + 1, p, text =>
    match text.dropWhile isBlank with
    | '&' :: rest =>
      match p.anchor, takeName rest with
      | none, some (name, rest) =>
        if isEnded rest then read fuel { p with anchor := some name } rest else none
      | _, _ => none
    | '!' :: rest =>
      match p.tag, takeTag rest with
      | none, some (tag, rest) =>
        if isEnded rest then read fuel { p with tag := some tag } rest else none
      | _, _ => none
    | _ => some (p, text)

def isEmpty (p : Properties) : Bool := p.anchor.isNone && p.tag.isNone

def apply (p : Properties) (found : Node × Cursor) : Node × Cursor :=
  let node := found.1.withTag (p.tag.getD .none)
  match p.anchor with
  | some name => (node, { found.2 with anchors := (name, node) :: found.2.anchors })
  | none => (node, found.2)

end Properties

namespace Cursor

def properties (c : Cursor) : Option (Properties × Cursor) :=
  (Properties.read 2 ⟨none, none⟩ c.text).map fun (p, text) =>
    (p, if p.isEmpty then c else c.after text)

def alias? (c : Cursor) (text : List Char) : Option (Node × Cursor) := do
  let (name, rest) ← Properties.takeName text
  let node ← Table.find name c.anchors
  some (node, c.after rest)

end Cursor

end Kitchen.Yaml
