import Kitchen.Signal

namespace Kitchen

-- A channel with one place and two ends. A value that is there is received even if its sender is
-- gone, and is lost with its receiver.
structure Channel (α : Type) where
  place : Option α
  sender : Bool
  receiver : Bool
deriving DecidableEq, Repr

namespace Channel

variable {α : Type}

inductive Sent where
  | passed
  | refused
  | full
deriving DecidableEq, Repr

def fresh : Channel α := ⟨none, true, true⟩

def send (c : Channel α) (value : α) : Sent × Channel α :=
  if c.receiver then
    match c.place with
    | none => (.passed, { c with place := some value })
    | some _ => (.full, c)
  else (.refused, c)

def receive (c : Channel α) : Signal.Status α × Channel α :=
  match c.place with
  | some value => (.resolved value, { c with place := none })
  | none => (if c.sender then .pending else .abandoned, c)

def dropSender (c : Channel α) : Channel α := { c with sender := false }

def dropReceiver (c : Channel α) : Channel α := { c with place := none, receiver := false }

end Channel

-- A one-shot signal as it is made of a channel. To resolve it is to send and then to drop the
-- sender; whoever looks in between finds the sender used and still there.
structure Oneshot (α : Type) where
  channel : Channel α
  used : Bool
deriving DecidableEq, Repr

namespace Oneshot

variable {α : Type}

def fresh : Oneshot α := ⟨.fresh, false⟩

def unused (o : Oneshot α) : Bool := o.channel.sender && !o.used

-- Somebody is about to drop the sender with which he has sent.
def resolving (o : Oneshot α) : Bool := o.channel.sender && o.used

def send? (o : Oneshot α) (value : α) : Option (Bool × Oneshot α) :=
  match o.channel.send value with
  | (.passed, channel) => some (true, ⟨channel, true⟩)
  | (.refused, channel) => some (false, ⟨channel, true⟩)
  | (.full, _) => none

def dropSender (o : Oneshot α) : Oneshot α := { o with channel := o.channel.dropSender }

def resolve? (o : Oneshot α) (value : α) : Option (Bool × Oneshot α) :=
  (o.send? value).map fun (heard, after) => (heard, after.dropSender)

def dropReceiver (o : Oneshot α) : Oneshot α := { o with channel := o.channel.dropReceiver }

def take (o : Oneshot α) : Signal.Status α × Oneshot α :=
  let (status, channel) := o.channel.receive
  (status, { o with channel })

def wait? (o : Oneshot α) : Option (Option α × Oneshot α) :=
  match o.take with
  | (.resolved value, after) => some (some value, after)
  | (.abandoned, after) => some (none, after)
  | (.pending, _) => none

end Oneshot

end Kitchen
