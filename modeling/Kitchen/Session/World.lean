import Kitchen.Session.Site

-- Several kitchens under one clock. Time stands still while anything can happen, and jumps to the
-- next moment at which something does.

namespace Kitchen.Session

open Engine

structure Alarm where
  site : Nat
  call : CallId
  due : Nat
deriving DecidableEq, Repr

structure World where
  -- In nanoseconds.
  now : Nat
  sites : List Site
  nextCall : CallId
  replies : Table CallId Reply
  alarms : List Alarm
  notices : List Notice
deriving Repr

namespace World

def record (w : World) (event : Event) : World :=
  match event with
  | .replied call reply =>
    { w with
      replies := w.replies.insert call reply
      alarms := w.alarms.filter (·.call ≠ call) }
  | .noticed notice => { w with notices := w.notices ++ [notice] }
  | _ => w

def update (w : World) (index : Nat) (advanced : Site × List Event) : World :=
  advanced.2.foldl record { w with sites := w.sites.set index advanced.1 }

def perform (w : World) (index : Nat) (action : Action) : Option World :=
  (w.sites[index]?).bind fun site => (site.perform w.now action).map (w.update index)

def ring (w : World) : Option World :=
  w.alarms.findSome? fun alarm =>
    if alarm.due ≤ w.now then w.perform alarm.site (.waitTimeout alarm.call) else none

def advance (w : World) : Option World :=
  (List.range w.sites.length).findSome? (fun index =>
      (w.sites[index]?).bind fun site => (site.advance w.now).map (w.update index))
    <|> w.ring

-- More than the number of things that can happen without a client.
def rank (w : World) : Nat := total (w.sites.map (·.rank)) + w.alarms.length + 1

def settleUpTo : Nat → World → World
  | 0, w => w
  | n + 1, w =>
    match w.advance with
    | some next => settleUpTo n next
    | none => w

def settle (w : World) : World := settleUpTo w.rank w

def nextTime? (w : World) : Option Nat :=
  (w.sites.filterMap (·.nextTime?) ++ w.alarms.map (·.due)).min?

def jumpTo (w : World) (time : Nat) : World := ({ w with now := max w.now time }).settle

def waitUpTo (stop : World → Bool) (limit : Option Nat) : Nat → World → World
  | 0, w => w
  | n + 1, w =>
    if stop w then w
    else
      match w.nextTime?, limit with
      | some time, some last =>
        if time ≤ last then waitUpTo stop limit n (w.jumpTo time) else w.jumpTo last
      | some time, none => waitUpTo stop limit n (w.jumpTo time)
      | none, some last => w.jumpTo last
      | none, none => w

-- Lets time pass until `stop` holds, or the clock shows `limit`, or nothing will happen.
def waitUntil (w : World) (stop : World → Bool) (limit : Option Nat) : World :=
  waitUpTo stop limit (w.rank + 1) w

def beginCall (w : World) (index : Nat) (action : CallId → Action) : CallId × World :=
  let call := w.nextCall
  let w := { w with nextCall := call + 1 }
  (call, ((w.perform index (action call)).getD w).settle)

def answered (w : World) (call : CallId) : Bool := w.replies.contains call

-- Waits until a call has answered; `none` if it never will.
def await (w : World) (call : CallId) : Option Reply × World :=
  let w := w.waitUntil (·.answered call) none
  (w.replies.get? call, w)

def setAlarm (w : World) (site : Nat) (call : CallId) (millis : Nat) : World :=
  if w.answered call then w
  else { w with alarms := w.alarms ++ [⟨site, call, w.now + (Span.ofMillis millis).nanos⟩] }

end World

end Kitchen.Session
