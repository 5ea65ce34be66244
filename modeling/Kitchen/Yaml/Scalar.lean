import Kitchen.Number.Radix

-- Scalars in YAML: plain, quoted, and blocks of lines. Line breaks inside them are folded: one
-- becomes a space, and of more the first does not count.

namespace Kitchen.Yaml

def isBlank (c : Char) : Bool := c = ' ' || c = '\t'

def isFlowMark (c : Char) : Bool := c = ',' || c = '[' || c = ']' || c = '{' || c = '}'

def startsBlank : List Char → Bool
  | [] => true
  | c :: _ => isBlank c || c = '\n'

def endsKey (flow : Bool) (text : List Char) : Bool :=
  startsBlank text || (flow && match text with
    | c :: _ => isFlowMark c
    | [] => false)

def isMark (c : Char) : Bool :=
  isFlowMark c || ['-', '?', ':', '#', '&', '*', '!', '|', '>', '\'', '"', '%', '@', '`'].contains c

def startsPlain (flow : Bool) : List Char → Bool
  | [] => false
  | c :: rest =>
    if c = '-' || c = '?' || c = ':' then !endsKey flow rest
    else !isMark c && !isBlank c && c ≠ '\n'

-- The part of a plain scalar on one line, without the blanks at its end, and the rest.
def takePlain (flow : Bool) (blanks : List Char) : List Char → List Char × List Char
  | [] => ([], blanks.reverse)
  | c :: rest =>
    if isBlank c then takePlain flow (c :: blanks) rest
    else if c = '\n' || (c = ':' && endsKey flow rest) || (c = '#' && !blanks.isEmpty) ||
        (flow && isFlowMark c) then
      ([], blanks.reverse ++ c :: rest)
    else
      let (more, rest) := takePlain flow [] rest
      (blanks.reverse ++ c :: more, rest)

structure Resumption where
  breaks : Nat
  spaces : Nat
  text : List Char
deriving Repr

def resume (breaks spaces : Nat) (counting : Bool) : List Char → Resumption
  | [] => ⟨breaks, spaces, []⟩
  | c :: rest =>
    if c = '\n' then resume (breaks + 1) 0 true rest
    else if c = ' ' then resume breaks (if counting then spaces + 1 else spaces) counting rest
    else if c = '\t' then resume breaks spaces false rest
    else ⟨breaks, spaces, c :: rest⟩

def folded (breaks : Nat) : List Char :=
  if breaks = 1 then [' '] else List.replicate (breaks - 1) '\n'

-- Further lines of a plain scalar: they stand deeper than `indent`. Each takes a character.
def morePlain (flow : Bool) (indent : Int) : Nat → List Char → List Char × List Char
  | 0, text => ([], text)
  | fuel + 1, text =>
    match text.dropWhile isBlank with
    | '\n' :: rest =>
      let next := resume 1 0 true rest
      let (line, rest) := takePlain flow [] next.text
      if (next.spaces : Int) ≤ indent || next.text.head? = some '#' || line.isEmpty then ([], text)
      else
        let (more, rest) := morePlain flow indent fuel rest
        (folded next.breaks ++ line ++ more, rest)
    | _ => ([], text)

def readPlain (flow : Bool) (indent : Int) (text : List Char) : Option (String × List Char) :=
  if startsPlain flow text then
    let (line, rest) := takePlain flow [] text
    let (more, rest) := morePlain flow indent rest.length rest
    some (String.ofList (line ++ more), rest)
  else none

-- Line breaks in a quoted scalar. The next line has to stand deeper than `indent`.
def foldQuoted (indent : Int) (text : List Char) : Option (Nat × List Char) :=
  let next := resume 0 0 true text
  if (next.spaces : Int) ≤ indent then none else some (next.breaks, next.text)

-- A scalar in single quotation marks, after the first of them. Each round takes a character.
def readSingle (indent : Int) : Nat → List Char → Option (List Char × List Char)
  | 0, _ | _, [] => none
  | fuel + 1, c :: rest =>
    if c = '\'' then
      match rest with
      | '\'' :: rest => (readSingle indent fuel rest).map fun (text, rest) => ('\'' :: text, rest)
      | rest => some ([], rest)
    else
      match (c :: rest).dropWhile isBlank with
      | '\n' :: rest =>
        match foldQuoted indent ('\n' :: rest) with
        | some (breaks, rest) =>
          (readSingle indent fuel rest).map fun (text, rest) => (folded breaks ++ text, rest)
        | none => none
      | _ => (readSingle indent fuel rest).map fun (text, rest) => (c :: text, rest)

def shortEscape? : Char → Option Char
  | '0' => some '\x00'
  | 'a' => some '\x07'
  | 'b' => some '\x08'
  | 't' => some '\t'
  | '\t' => some '\t'
  | 'n' => some '\n'
  | 'v' => some '\x0b'
  | 'f' => some '\x0c'
  | 'r' => some '\r'
  | 'e' => some '\x1b'
  | ' ' => some ' '
  | '"' => some '"'
  | '/' => some '/'
  | '\\' => some '\\'
  | 'N' => some '\u0085'
  | '_' => some '\u00a0'
  | 'L' => some '\u2028'
  | 'P' => some '\u2029'
  | _ => none

def readEscape : List Char → Option (Char × List Char)
  | 'x' :: rest => Radix.readChar 2 rest
  | 'u' :: rest => Radix.readChar 4 rest
  | 'U' :: rest => Radix.readChar 8 rest
  | c :: rest => (shortEscape? c).map (·, rest)
  | [] => none

-- A scalar in double quotation marks, after the first of them. A line break with the mark of an
-- escape before it does not count. Each round takes a character.
def readDouble (indent : Int) : Nat → List Char → Option (List Char × List Char)
  | 0, _ | _, [] => none
  | fuel + 1, c :: rest =>
    if c = '"' then some ([], rest)
    else if c = '\\' then
      match rest with
      | '\n' :: rest =>
        match foldQuoted indent ('\n' :: rest) with
        | some (breaks, rest) =>
          (readDouble indent fuel rest).map fun (text, rest) =>
            (List.replicate (breaks - 1) '\n' ++ text, rest)
        | none => none
      | rest =>
        match readEscape rest with
        | some (c, rest) => (readDouble indent fuel rest).map fun (text, rest) => (c :: text, rest)
        | none => none
    else
      match (c :: rest).dropWhile isBlank with
      | '\n' :: rest =>
        match foldQuoted indent ('\n' :: rest) with
        | some (breaks, rest) =>
          (readDouble indent fuel rest).map fun (text, rest) => (folded breaks ++ text, rest)
        | none => none
      | _ => (readDouble indent fuel rest).map fun (text, rest) => (c :: text, rest)

def readQuoted (indent : Int) (text : List Char) : Option (String × List Char) :=
  match text with
  | '\'' :: rest =>
    (readSingle indent rest.length rest).map fun (text, rest) => (String.ofList text, rest)
  | '"' :: rest =>
    (readDouble indent rest.length rest).map fun (text, rest) => (String.ofList text, rest)
  | _ => none

inductive Ending where
  | dropped
  | single
  | kept
deriving DecidableEq, Repr

structure BlockHead where
  indent : Option Nat
  ending : Option Ending
deriving DecidableEq, Repr

def BlockHead.read (h : BlockHead) : List Char → Option (BlockHead × List Char)
  | c :: rest =>
    if c = '+' && h.ending.isNone then BlockHead.read { h with ending := some .kept } rest
    else if c = '-' && h.ending.isNone then BlockHead.read { h with ending := some .dropped } rest
    else if '1' ≤ c && c ≤ '9' && h.indent.isNone then
      BlockHead.read { h with indent := some (c.toNat - '0'.toNat) } rest
    else if startsBlank (c :: rest) then some (h, c :: rest)
    else none
  | [] => some (h, [])

-- The line after a block's mark; nothing but a comment may stand there.
def endOfHead? (text : List Char) : Option (List Char) :=
  match text.dropWhile isBlank with
  | [] => some []
  | '\n' :: rest => some rest
  | '#' :: rest => some ((rest.dropWhile (· ≠ '\n')).drop 1)
  | _ => none

def linesOf : List Char → List (List Char)
  | [] => []
  | c :: rest =>
    if c = '\n' then [] :: linesOf rest
    else
      match linesOf rest with
      | [] => [[c]]
      | line :: lines => (c :: line) :: lines

def isEmptyLine (line : List Char) : Bool := line.all (· = ' ')

def indentOf (line : List Char) : Nat := (line.takeWhile (· = ' ')).length

-- The lines of a block: those as deep as it, and empty ones.
def takeBlock (indent : Nat) : List (List Char) → List (List Char) × List (List Char)
  | [] => ([], [])
  | line :: lines =>
    if isEmptyLine line || indent ≤ indentOf line then
      let (block, rest) := takeBlock indent lines
      (line.drop indent :: block, rest)
    else ([], line :: lines)

def joinLines : List (List Char) → List Char
  | [] => []
  | [line] => line
  | line :: lines => line ++ '\n' :: joinLines lines

def startsSpaced (line : List Char) : Bool :=
  match line with
  | c :: _ => isBlank c
  | [] => false

-- Lines with the breaks between them folded, except around lines that begin with a blank.
-- `breaks` counts the breaks after the line before, which is `spaced` or not.
def foldLines (spaced : Bool) (breaks : Nat) : List (List Char) → List Char
  | [] => []
  | line :: lines =>
    if line.isEmpty then foldLines spaced (breaks + 1) lines
    else
      let here := startsSpaced line
      let gap := if spaced || here then List.replicate breaks '\n' else folded breaks
      gap ++ line ++ foldLines here 1 lines

-- The first line begins the text, and empty lines before it count in full.
def foldBlock (lines : List (List Char)) : List Char :=
  match lines.dropWhile List.isEmpty with
  | [] => []
  | line :: rest =>
    List.replicate (lines.takeWhile List.isEmpty).length '\n' ++ line ++
      foldLines (startsSpaced line) 1 rest

def blockText (fold : Bool) (ending : Ending) (lines : List (List Char)) : List Char :=
  let empties := (lines.reverse.takeWhile List.isEmpty).length
  let lines := lines.take (lines.length - empties)
  let body := if fold then foldBlock lines else joinLines lines
  match ending with
  | .dropped => body
  | .single => if lines.isEmpty then [] else body ++ ['\n']
  | .kept =>
    body ++ List.replicate (if lines.isEmpty then empties else empties + 1) '\n'

-- A block scalar after its mark. Its lines stand deeper than `indent`; the rest begins with a
-- line break.
def readBlock (fold : Bool) (indent : Int) (text : List Char) : Option (String × List Char) := do
  let (head, rest) ← BlockHead.read ⟨none, none⟩ text
  let rest ← endOfHead? rest
  let lines := linesOf rest
  let depth := match head.indent with
    | some n => indent.toNat + n
    | none =>
      let first := ((lines.find? fun line => !isEmptyLine line).map indentOf).getD 0
      max first (max (indent + 1).toNat 1)
  let (block, rest) := takeBlock depth lines
  some (String.ofList (blockText fold (head.ending.getD .single) block), '\n' :: joinLines rest)

end Kitchen.Yaml
