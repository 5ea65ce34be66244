-- One-shot signals, seen between the whole calls of their two parties.

namespace Kitchen

namespace Signal

inductive Content (α : Type) where
  | waiting
  | holding (value : α)
  | closed
deriving DecidableEq, Repr

inductive Status (α : Type) where
  | resolved (value : α)
  | pending
  | abandoned
deriving DecidableEq, Repr

end Signal

structure Signal (α : Type) where
  content : Signal.Content α
  heard : Bool
deriving DecidableEq, Repr

namespace Signal

variable {α : Type}

def fresh : Signal α := ⟨.waiting, true⟩

def sender (s : Signal α) : Bool :=
  match s.content with
  | .waiting => true
  | _ => false

-- The value is sent and the sender goes, with nobody looking in between; true if somebody can
-- still receive it. A sender that was used or dropped sends nothing.
def resolve (s : Signal α) (value : α) : Bool × Signal α :=
  match s.content with
  | .waiting =>
    if s.heard then (true, { s with content := .holding value })
    else (false, { s with content := .closed })
  | _ => (false, s)

def dropSender (s : Signal α) : Signal α :=
  match s.content with
  | .waiting => { s with content := .closed }
  | _ => s

def dropReceiver (s : Signal α) : Signal α := { s with heard := false }

def take (s : Signal α) : Status α × Signal α :=
  match s.content with
  | .waiting => (.pending, s)
  | .holding value => (.resolved value, { s with content := .closed })
  | .closed => (.abandoned, s)

-- `none` while the wait blocks; the inner `none` says that no value will come.
def wait? (s : Signal α) : Option (Option α × Signal α) :=
  match s.take with
  | (.resolved value, after) => some (some value, after)
  | (.abandoned, after) => some (none, after)
  | (.pending, _) => none

end Signal

end Kitchen
