import Kitchen.Session.World
import Kitchen.Text.Quoted

namespace Kitchen.Session

open Engine

inductive Counter where
  | entered
  | returnsEntered
  | starts
  | stops
  | attempts
  | produced
  | returned
  | rejected
deriving DecidableEq, Repr

def Counter.read (s : ScriptedStation) : Counter → Nat
  | .entered => s.entered
  | .returnsEntered => s.returnsEntered
  | .starts => s.starts
  | .stops => s.stops
  | .attempts => s.machine.attempts
  | .produced => s.machine.produced
  | .returned => s.machine.returned
  | .rejected => s.machine.rejected

inductive Condition where
  | state (order : OrderId) (state : Option OrderState)
  | backlog (station : String) (jobs : Nat)
  | menu (names : List String)
  | closed (value : Bool)
  | counter (station : String) (counter : Counter) (value : Nat)
deriving DecidableEq, Repr

-- Kitchens, pagers and threads go by their numbers, in the order in which they came.
inductive Step where
  | order (site : Nat) (products : List String)
  | collect (site pager : Nat)
  | id (pager : Nat)
  | usePager (pager : Nat) (use : PagerUse)
  | waitTimeout (pager millis : Nat)
  | menu (site : Nat)
  | pending (site : Nat)
  | backlog (site : Nat)
  | isClosed (site : Nat)
  | clientTimeout (site : Nat)
  | orderState (site : Nat) (order : OrderId)
  | describe (site : Nat)
  | shutdown (site : Nat)
  | drop (site : Nat)
  | stations (site : Nat)
  | counts (site : Nat)
  | snapshot (site : Nat)
  | release (site : Nat) (station : String) (count : Option Nat)
  | releaseReturns (site : Nat) (station : String) (count : Option Nat)
  | await (site : Nat) (conditions : List Condition)
  | sleep (millis : Nat)
  | spawn (step : Step)
  | join (thread : Nat)
deriving Repr, Inhabited

structure Snapshot where
  menu : List String
  pending : List OrderId
  backlog : List (String × Nat)
  closed : Bool
  states : List (OrderId × OrderState)
deriving DecidableEq, Repr

inductive Obstacle where
  | noSystem
  | noPager
  | badStep
  | noThread
  -- The answer would never come.
  | stuck
deriving DecidableEq, Repr

inductive Answer where
  | nothing
  | number (value : Nat)
  | flag (value : Bool)
  | text (value : String)
  | names (values : List String)
  | ids (values : List OrderId)
  | backlog (values : List (String × Nat))
  | state (value : Option OrderState)
  | readiness (value : Option Readiness)
  | placed (pager : Nat) (id : OrderId)
  | refused (error : OrderError)
  | meal (products : List Product)
  | reports (reports : List Report)
  | stations (values : List (String × ScriptedStation))
  | counts (values : List (String × ScriptedStation))
  | snapshot (value : Snapshot)
  | noSnapshot
  | thread (number : Nat)
  | timedOut
  | obstacle (value : Obstacle)
deriving Repr

inductive Thread where
  | calling (call : CallId)
  -- An order that was accepted; its pager gets its number when the thread is joined.
  | placed (site : Nat) (id : OrderId)
  | later (step : Step)
  | ended (answer : Answer)
  | joined
deriving Repr

structure Stage where
  world : World
  pagers : List (Nat × OrderId)
  threads : List Thread
deriving Repr

namespace Stage

abbrev Taken := Answer × Stage

def site? (s : Stage) (index : Nat) : Option Site := s.world.sites[index]?

def open? (s : Stage) (index : Nat) : Option (Site × State) :=
  (s.site? index).bind fun site => site.open?.map (site, ·)

def sorted (names : List String) : List String := names.mergeSort (· ≤ ·)

def blocked (s : Stage) (obstacle : Obstacle) : Taken := (.obstacle obstacle, s)

def observe (s : Stage) (index : Nat) (view : Site → State → Answer) : Taken :=
  match s.open? index with
  | some (site, engine) => (view site engine, s)
  | none => s.blocked .noSystem

def answerOf : Reply → Answer
  | .collected (.meal items) => .meal (items.map (·.product))
  | .collected (.spoiled error) => .refused error
  | .reports reports => .reports reports
  | .flag value => .flag value
  | .readiness value => .readiness value
  | .done => .nothing

def finish (s : Stage) (call : CallId) : Taken :=
  let (reply, world) := s.world.await call
  match reply with
  | some reply => (answerOf reply, { s with world })
  | none => ({ s with world } : Stage).blocked .stuck

def begin (s : Stage) (index : Nat) (action : CallId → Action) : CallId × Stage :=
  let (call, world) := s.world.beginCall index action
  (call, { s with world })

-- The call that a step makes and that may have to wait, if the step is such a one.
def beginStep? (s : Stage) : Step → Option (Except Obstacle (CallId × Stage))
  | .collect site pager =>
    some <|
      match s.pagers[pager]?, s.open? site with
      | none, _ => .error .noPager
      | _, none => .error .noSystem
      | some (_, id), some _ => .ok (s.begin site fun call => .collect call id)
  | .usePager pager use =>
    some <|
      match s.pagers[pager]? with
      | none => .error .badStep
      | some (site, id) => .ok (s.begin site fun call => .pager call id use)
  | .waitTimeout pager millis =>
    some <|
      match s.pagers[pager]? with
      | none => .error .badStep
      | some (site, id) =>
        let (call, s) := s.begin site fun call => .pager call id .waitTimeout
        .ok (call, { s with world := s.world.setAlarm site call millis })
  | .shutdown site =>
    some <|
      match s.open? site with
      | none => .error .noSystem
      | some _ => .ok (s.begin site .shutdown)
  | _ => none

def firstAsleep (engine : State) : Option Nat := engine.workers.findIdx? State.isAsleep

def place (s : Stage) (site : Nat) (products : List String) : Except Answer OrderId × Stage :=
  match s.open? site with
  | none => (.error (.obstacle .noSystem), s)
  | some (_, engine) =>
    let missing := State.firstMissing engine.board.menu products
    let woken := if engine.board.closed || missing.isSome then none else firstAsleep engine
    let world := ((s.world.perform site (.order products woken)).getD s.world).settle
    let s := { s with world }
    if engine.board.closed then (.error (.refused .closed), s)
    else
      match missing with
      | some product => (.error (.refused (.invalidProduct product)), s)
      | none => (.ok engine.board.nextOrder, s)

def addPager (s : Stage) (site : Nat) (id : OrderId) : Taken :=
  (.placed s.pagers.length id, { s with pagers := s.pagers ++ [(site, id)] })

def Condition.holds (site : Option Site) (engine : Option State) : Condition → Bool
  | .state order state =>
    match engine with
    | some engine => engine.board.orderState order == state
    | none => false
  | .backlog station jobs =>
    match engine with
    | some engine => (engine.board.queues.get? station).map JobQueue.size == some jobs
    | none => false
  | .menu names =>
    match engine with
    | some engine => sorted engine.board.menu == names
    | none => false
  | .closed value =>
    match engine with
    | some engine => engine.board.closed == value
    | none => false
  | .counter station counter value =>
    match site.bind fun site => (site.machineOf? station).bind site.machines.get? with
    | some machine => counter.read machine == value
    | none => false

def holds (index : Nat) (conditions : List Condition) (w : World) : Bool :=
  let site := w.sites[index]?
  conditions.all (Condition.holds site (site.bind (·.open?)))

def patience : Span := .ofSeconds 5 0

def snapshotOf (s : Stage) (engine : State) : Snapshot where
  menu := sorted engine.board.menu
  pending := engine.board.pending
  backlog := engine.board.backlog
  closed := engine.board.closed
  states := s.pagers.filterMap fun (_, id) => (engine.board.orderState id).map (id, ·)

def machinesOf (s : Stage) (index : Nat) : List (String × ScriptedStation) :=
  match s.site? index with
  | some site => site.machines.entries
  | none => []

def onMachine (s : Stage) (index : Nat) (station : String)
    (change : ScriptedStation → ScriptedStation) : Stage :=
  let sites := s.world.sites.modify index (·.onMachine station change)
  { s with world := { s.world with sites }.settle }

def onSite (s : Stage) (index : Nat) (change : Site → Site) : Stage :=
  { s with world := { s.world with sites := s.world.sites.modify index change } }

def disown (s : Stage) (index : Nat) : Stage :=
  s.onSite index fun site => { site with owned := false }

-- Nothing of a kitchen stays once its owner and its threads are gone.
def discard (s : Stage) (index : Nat) : Stage :=
  let s := s.onSite index fun site =>
    { site with engine := site.engine.map fun engine =>
        if engine.deserted then engine.discard else engine }
  { s with world := s.world.settle }

def describe (site : Site) (engine : State) : String :=
  "System \x7b stations: " ++ Text.quotedList site.stations.keys ++ ", client_timeout: " ++
    site.timeout.text ++ ", closed: " ++ toString engine.board.closed ++ " \x7d"

def setThread (s : Stage) (number : Nat) (thread : Thread) : Stage :=
  { s with threads := s.threads.set number thread }

def addThread (s : Stage) (thread : Thread) : Taken :=
  (.thread s.threads.length, { s with threads := s.threads ++ [thread] })

-- A step that answers by itself. `joined` takes the step of a thread that waited for its turn.
def take (s : Stage) : Step → Taken
  | .order site products =>
    match s.place site products with
    | (.ok id, s) => s.addPager site id
    | (.error answer, s) => (answer, s)
  | .id pager =>
    match s.pagers[pager]? with
    | some (_, id) => (.number id, s)
    | none => s.blocked .badStep
  | .menu site => s.observe site fun _ engine => .names (sorted engine.board.menu)
  | .pending site => s.observe site fun _ engine => .ids engine.board.pending
  | .backlog site => s.observe site fun _ engine => .backlog engine.board.backlog
  | .isClosed site => s.observe site fun _ engine => .flag engine.board.closed
  | .clientTimeout site => s.observe site fun site _ => .number site.timeout.millis
  | .orderState site order => s.observe site fun _ engine => .state (engine.board.orderState order)
  | .describe site => s.observe site fun site engine => .text (describe site engine)
  | .drop site =>
    match s.open? site with
    | none => s.blocked .noSystem
    | some (_, engine) =>
      let s := s.disown site
      if engine.running then
        let (call, s) := s.begin site .shutdown
        let (_, world) := s.world.await call
        (.nothing, ({ s with world } : Stage).discard site)
      else (.nothing, s.discard site)
  | .stations site => (.stations (s.machinesOf site), s)
  | .counts site => (.counts (s.machinesOf site), s)
  | .snapshot site =>
    match s.open? site with
    | some (_, engine) => (.snapshot (s.snapshotOf engine), s)
    | none => (.noSnapshot, s)
  | .release site station count =>
    (.nothing, s.onMachine site station fun m => { m with gate := m.gate.release count })
  | .releaseReturns site station count =>
    (.nothing,
      s.onMachine site station fun m => { m with returnGate := m.returnGate.release count })
  | .await site conditions =>
    let world := s.world.waitUntil (holds site conditions) (some (s.world.now + patience.nanos))
    (if holds site conditions world then .flag true else .timedOut, { s with world })
  | .sleep millis =>
    let last := s.world.now + (Span.ofMillis millis).nanos
    (.nothing, { s with world := s.world.waitUntil (fun _ => false) (some last) })
  | .spawn step =>
    match s.beginStep? step with
    | some (.ok (call, s)) => s.addThread (.calling call)
    | some (.error obstacle) => s.addThread (.ended (.obstacle obstacle))
    | none =>
      match step with
      | .order site products =>
        match s.place site products with
        | (.ok id, s) => s.addThread (.placed site id)
        | (.error answer, s) => s.addThread (.ended answer)
      | step => s.addThread (.later step)
  | step =>
    match s.beginStep? step with
    | some (.ok (call, s)) => s.finish call
    | some (.error obstacle) => s.blocked obstacle
    | none => s.blocked .badStep

def join (s : Stage) (number : Nat) : Taken :=
  let done := s.setThread number .joined
  match s.threads[number]? with
  | none | some .joined => s.blocked .noThread
  | some (.calling call) => done.finish call
  | some (.placed site id) => done.addPager site id
  | some (.later step) => done.take step
  | some (.ended answer) => (answer, done)

def play (s : Stage) : Step → Taken
  | .join thread => s.join thread
  | step => s.take step

def playAll (s : Stage) : List Step → List Answer × Stage
  | [] => ([], s)
  | step :: rest =>
    let (answer, next) := s.play step
    let (answers, last) := next.playAll rest
    (answer :: answers, last)

end Stage

-- Whether a list of names comes no later than another: the first difference decides.
def notAfter : List String → List String → Bool
  | [], _ => true
  | _ :: _, [] => false
  | a :: rest, b :: others => if a = b then notAfter rest others else a ≤ b

def sortedLists (lists : List (List String)) : List (List String) := lists.mergeSort notAfter

-- One report of all, with sorted lists if there was more than one worker: which of them had
-- which order is left to chance.
def merged (reports : List Report) : Report :=
  let all := Report.joined reports
  if reports.length ≤ 1 then all
  else
    ⟨sortedLists all.collected, sortedLists all.abandoned, sortedLists all.failed,
      all.failedProducts.mergeSort (· ≤ ·)⟩

structure Premises where
  settings : Settings
  stations : Table String String
  machines : Table String ScriptedStation
deriving Repr

structure Transcript where
  starts : List (Except StartError Unit)
  answers : List Answer
  final : List (List (String × ScriptedStation))
  notices : List Notice

def openSite (w : World) (premises : Premises) : Except StartError Unit × World :=
  let (start, site, events) := Site.launch premises.settings premises.stations premises.machines
  (start, events.foldl World.record { w with sites := w.sites ++ [site] })

def openSites (w : World) : List Premises → List (Except StartError Unit) × World
  | [] => ([], w)
  | premises :: rest =>
    let (start, next) := openSite w premises
    let (starts, last) := openSites next rest
    (start :: starts, last)

def closeDown (s : Stage) : Stage :=
  let opened := s.world.sites.map fun site =>
    { site with machines := ⟨site.machines.entries.map fun (name, m) => (name, m.openGates)⟩ }
  let s := { s with world := { s.world with sites := opened }.settle }
  (List.range opened.length).foldl (fun s index => (s.play (.drop index)).2) s

def run (premises : List Premises) (steps : List Step) : Transcript :=
  let (starts, world) := openSites ⟨0, [], 0, .empty, [], []⟩ premises
  let (answers, stage) := Stage.playAll ⟨world.settle, [], []⟩ steps
  let last := closeDown stage
  ⟨starts, answers, (List.range premises.length).map last.machinesOf, last.world.notices⟩

end Kitchen.Session
