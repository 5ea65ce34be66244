import Kitchen.Yaml.Block

-- The documents of a YAML stream. A line of three hyphens begins one and a line of three points
-- ends it; what is written before any such line is a document too.

namespace Kitchen.Yaml

-- The lines of a document, the last first, and where the first of them begins.
structure Sheet where
  -- It begins after its mark, on the same line.
  marked : Bool
  lines : List (List Char)
deriving Repr

structure Stream where
  -- The latest first.
  sheets : List Sheet
  -- The latest one goes on.
  isOpen : Bool
  instructed : Bool
deriving Repr

def afterLineMark? (mark : Char) : List Char → Option (List Char)
  | a :: b :: c :: rest =>
    if a = mark && b = mark && c = mark && startsBlank rest then some rest else none
  | _ => none

def isVoid (line : List Char) : Bool :=
  match line.dropWhile isBlank with
  | [] => true
  | c :: _ => c = '#'

namespace Stream

def begin (s : Stream) (sheet : Sheet) : Stream := ⟨sheet :: s.sheets, true, false⟩

def extend (s : Stream) (line : List Char) : Stream :=
  match s.sheets with
  | sheet :: rest => { s with sheets := { sheet with lines := line :: sheet.lines } :: rest }
  | [] => s

def add (s : Stream) (line : List Char) : Option Stream :=
  match afterLineMark? '-' line, afterLineMark? '.' line with
  | some rest, _ => some (s.begin ⟨true, [rest]⟩)
  | _, some rest =>
    if isVoid rest && !s.instructed then some { s with isOpen := false } else none
  | none, none =>
    if s.isOpen then some (s.extend line)
    else if isVoid line then some s
    else if line.head? = some '%' then some { s with instructed := true }
    else if s.instructed then none
    else some (s.begin ⟨false, [line]⟩)

def ofLines? (lines : List (List Char)) : Option Stream :=
  match lines.foldlM add ⟨[], false, false⟩ with
  | some s => if s.instructed then none else some s
  | none => none

end Stream

def Sheet.read (s : Sheet) : Option Node :=
  let text := joinLines s.lines.reverse
  if s.marked then readWhole 3 false text else readWhole 0 true text

def evenBreaks : List Char → List Char
  | '\r' :: '\n' :: rest => '\n' :: evenBreaks rest
  | '\r' :: rest => '\n' :: evenBreaks rest
  | c :: rest => c :: evenBreaks rest
  | [] => []

def nodes? (text : String) : Option (List Node) :=
  match Stream.ofLines? (linesOf (evenBreaks text.toList)) with
  | some s => s.sheets.reverse.mapM Sheet.read
  | none => none

-- What a stream says. Without a document it says as much as an empty table; with several it is
-- refused.
def read? (text : String) : Option Config.Datum :=
  match nodes? text with
  | some [] => some (.table [])
  | some [node] => node.toDatum?
  | _ => none

end Kitchen.Yaml
