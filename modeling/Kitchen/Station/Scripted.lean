import Kitchen.Engine.State
import Kitchen.Station.Simulated
import Kitchen.Number.Total

-- A simulated station on a stage: a gate can hold every call back until it is let through, and a
-- script can say how each call ends. What the script leaves open is left to the station itself.

namespace Kitchen

open Engine (Production Acceptance)

structure Gate where
  guarded : Bool
  permits : Nat
deriving DecidableEq, Repr

namespace Gate

def pass? (g : Gate) : Option Gate :=
  if !g.guarded then some g
  else if g.permits = 0 then none
  else some { g with permits := g.permits - 1 }

-- More permits, or with no count an open gate for good.
def release (g : Gate) : Option Nat → Gate
  | some count => { g with permits := g.permits + count }
  | none => { g with guarded := false }

end Gate

inductive ProduceCue where
  | play
  | fail (reason : String)
  | invalid (expected : String)
  | make (product : Product)
  | crash
deriving DecidableEq, Repr

inductive ReturnCue where
  | play
  | fail (reason : String)
  | crash
deriving DecidableEq, Repr

namespace ScriptedStation

inductive Stage where
  | atGate
  -- Waits until the machine is not busy.
  | atMachine
  | working (attempt due : Nat)
deriving DecidableEq, Repr

structure Visit where
  caller : Nat
  number : Nat
  stage : Stage
deriving DecidableEq, Repr

structure ReturnVisit where
  caller : Nat
  number : Nat
  product : Product
deriving DecidableEq, Repr

end ScriptedStation

open ScriptedStation in
structure ScriptedStation where
  machine : SimulatedStation
  gate : Gate
  returnGate : Gate
  script : List ProduceCue
  returnScript : List ReturnCue
  entered : Nat
  returnsEntered : Nat
  starts : Nat
  stops : Nat
  visits : List Visit
  returnVisits : List ReturnVisit
deriving DecidableEq, Repr

namespace ScriptedStation

def new (machine : SimulatedStation) (gated gatedReturns : Bool) (script : List ProduceCue)
    (returnScript : List ReturnCue) : ScriptedStation :=
  ⟨machine, ⟨gated, 0⟩, ⟨gatedReturns, 0⟩, script, returnScript, 0, 0, 0, 0, [], []⟩

def start (s : ScriptedStation) : ScriptedStation :=
  { s with machine := s.machine.start, starts := s.starts + 1 }

def stop (s : ScriptedStation) : ScriptedStation :=
  { s with machine := s.machine.stop, stops := s.stops + 1 }

def enter (s : ScriptedStation) (caller : Nat) : ScriptedStation :=
  { s with entered := s.entered + 1, visits := s.visits ++ [⟨caller, s.entered, .atGate⟩] }

def enterReturn (s : ScriptedStation) (caller : Nat) (product : Product) : ScriptedStation :=
  { s with
    returnsEntered := s.returnsEntered + 1
    returnVisits := s.returnVisits ++ [⟨caller, s.returnsEntered, product⟩] }

def openGates (s : ScriptedStation) : ScriptedStation :=
  { s with gate := s.gate.release none, returnGate := s.returnGate.release none }

def leave (s : ScriptedStation) (visit : Visit) : ScriptedStation :=
  { s with visits := s.visits.filter (·.number ≠ visit.number) }

def moveTo (s : ScriptedStation) (visit : Visit) (stage : Stage) : ScriptedStation :=
  { s with
    visits := s.visits.map fun v => if v.number = visit.number then { v with stage } else v }

def isWorking (visit : Visit) : Bool :=
  match visit.stage with
  | .working _ _ => true
  | _ => false

abbrev Moved (ε : Type) := Option (Option (Nat × ε) × ScriptedStation)

def moveVisit (s : ScriptedStation) (now : Nat) (visit : Visit) : Moved Production :=
  match visit.stage with
  | .atGate =>
    s.gate.pass?.map fun gate =>
      let passed := { s with gate }
      let ended (outcome : Production) := (some (visit.caller, outcome), passed.leave visit)
      match s.script[visit.number]? with
      | some (.fail reason) => ended (.broke (.failure reason))
      | some (.invalid expected) => ended (.broke (.invalidProduct expected))
      | some (.make product) => ended (.made product)
      | some .crash => ended .crashed
      | some .play | none => (none, passed.moveTo visit .atMachine)
  | .atMachine =>
    if s.visits.any isWorking then none
    else
      let (attempt, machine) := s.machine.beginAttempt
      some (none, { s with machine }.moveTo visit (.working attempt (now + s.machine.delay.nanos)))
  | .working attempt due =>
    if due ≤ now then
      let (result, machine) := s.machine.endAttempt attempt
      let outcome := match result with
        | .ok product => .made product
        | .error error => .broke error
      some (some (visit.caller, outcome), { s with machine }.leave visit)
    else none

def moveProduction (s : ScriptedStation) (now : Nat) : Moved Production :=
  s.visits.findSome? (s.moveVisit now)

def moveReturnVisit (s : ScriptedStation) (visit : ReturnVisit) : Moved Acceptance :=
  s.returnGate.pass?.map fun returnGate =>
    let passed := { s with
      returnGate, returnVisits := s.returnVisits.filter (·.number ≠ visit.number) }
    match s.returnScript[visit.number]? with
    | some (.fail reason) => (some (visit.caller, .refused (.failure reason)), passed)
    | some .crash => (some (visit.caller, .crashed), passed)
    | some .play | none =>
      let (result, machine) := s.machine.acceptReturn visit.product
      let outcome := match result with
        | .ok () => .accepted
        | .error error => .refused error
      (some (visit.caller, outcome), { passed with machine })

def moveReturn (s : ScriptedStation) : Moved Acceptance :=
  s.returnVisits.findSome? s.moveReturnVisit

def nextTime? (s : ScriptedStation) : Option Nat :=
  (s.visits.filterMap fun visit =>
    match visit.stage with
    | .working _ due => some due
    | _ => none).min?

def rank (s : ScriptedStation) : Nat :=
  total (s.visits.map fun visit =>
    match visit.stage with
    | .atGate => 3
    | .atMachine => 2
    | .working _ _ => 1) + s.returnVisits.length

end ScriptedStation

end Kitchen
