import Kitchen.Engine.Launch
import Kitchen.Engine.Rank
import Kitchen.Station.Scripted

-- A kitchen on its premises: the engine, the machines behind its stations, and the clock by
-- which waiting workers give up on their clients.

namespace Kitchen.Session

open Engine

structure Site where
  -- `none` if the kitchen did not start.
  engine : Option State
  -- The owner has not dropped the kitchen.
  owned : Bool
  timeout : Span
  stations : Table String String
  machines : Table String ScriptedStation
  deadlines : Table Nat Nat
deriving Repr

namespace Site

def machineOf? (site : Site) (station : String) : Option String := site.stations.get? station

def onMachine (site : Site) (station : String) (change : ScriptedStation → ScriptedStation) :
    Site :=
  match site.machineOf? station with
  | some machine => { site with machines := site.machines.modify machine change }
  | none => site

def actor : Action → Nat
  | .worker index | .pickupTimeout index | .returned index _ | .runner index
  | .produced index _ => index
  | _ => 0

-- What an event of a step of `caller` means for the machines and the clock.
def hear (now caller : Nat) (site : Site) (event : Event) : Site :=
  match event with
  | .called station .start => site.onMachine station (·.start)
  | .called station .produce => site.onMachine station (·.enter caller)
  | .called station (.acceptReturn item) =>
    site.onMachine station (·.enterReturn caller item.product)
  | .called station .stop => site.onMachine station (·.stop)
  | .noticed (.orderReady _ worker) =>
    { site with deadlines := site.deadlines.insert worker (now + site.timeout.nanos) }
  | _ => site

abbrev Advanced := Option (Site × List Event)

def perform (site : Site) (now : Nat) (action : Action) : Advanced :=
  match site.engine with
  | none => none
  | some engine =>
    (engine.step action).map fun (next, events) =>
      (events.foldl (hear now (actor action)) { site with engine := some next }, events)

def launch (settings : Settings) (stations : Table String String)
    (machines : Table String ScriptedStation) : Except StartError Unit × Site × List Event :=
  let site : Site := ⟨none, true, settings.clientTimeout, stations, machines, .empty⟩
  match Engine.launch settings stations.keys with
  | .error error => (.error error, site, [])
  | .ok (engine, events) =>
    (.ok (), events.foldl (hear 0 0) { site with engine := some engine }, events)

def afterMove {ε : Type} (site : Site) (now : Nat) (machine : String)
    (report : Nat → ε → Action) : ScriptedStation.Moved ε → Advanced
  | none => none
  | some (ended, moved) =>
    let site := { site with machines := site.machines.insert machine moved }
    match ended with
    | none => some (site, [])
    | some (caller, outcome) => site.perform now (report caller outcome)

def expire (site : Site) (now : Nat) : Advanced :=
  site.deadlines.entries.findSome? fun (worker, due) =>
    if due ≤ now then site.perform now (.pickupTimeout worker) else none

def advance (site : Site) (now : Nat) : Advanced :=
  match site.engine with
  | none => none
  | some engine =>
    (List.range engine.workers.length).findSome? (fun i => site.perform now (.worker i))
      <|> (List.range engine.runners.length).findSome? (fun i => site.perform now (.runner i))
      <|> engine.calls.keys.findSome? (fun call => site.perform now (.client call))
      <|> site.machines.entries.findSome? (fun (name, machine) =>
        site.afterMove now name .produced (machine.moveProduction now))
      <|> site.machines.entries.findSome? (fun (name, machine) =>
        site.afterMove now name .returned machine.moveReturn)
      <|> site.expire now

def isHolding (engine : State) (worker : Nat) : Bool :=
  match engine.workers[worker]? with
  | some ⟨.holding _ _ _, _⟩ => true
  | _ => false

def nextTime? (site : Site) : Option Nat :=
  match site.engine with
  | none => none
  | some engine =>
    let pickups := site.deadlines.entries.filterMap fun (worker, due) =>
      if isHolding engine worker then some due else none
    (pickups ++ site.machines.entries.filterMap (·.2.nextTime?)).min?

-- More than the number of things that can happen here without a client.
def rank (site : Site) : Nat :=
  (match site.engine with
    | some engine => 4 * engine.rank
    | none => 0) + total (site.machines.entries.map (·.2.rank))

def open? (site : Site) : Option State := if site.owned then site.engine else none

end Site

end Kitchen.Session
