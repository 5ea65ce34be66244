import Kitchen.Error
import Kitchen.Order
import Kitchen.Product
import Kitchen.Report
import Kitchen.Signal
import Kitchen.Table

namespace Kitchen.Engine

-- A product with the call that made it: the `call`-th that the runner of `maker` made.
structure Item where
  maker : String
  call : Nat
  product : Product
deriving DecidableEq, Repr

structure JobRef where
  order : OrderId
  position : Nat
deriving DecidableEq, Repr

inductive JobResult where
  | made (item : Item)
  | broke (error : StationError)
deriving DecidableEq, Repr

inductive Outcome where
  | meal (items : List Item)
  | spoiled (error : OrderError)
deriving DecidableEq, Repr

structure Slot where
  state : OrderState
  uncollected : Bool
deriving DecidableEq, Repr

-- All that the one lock guards.
structure Board where
  closed : Bool
  -- Every worker is gone.
  released : Bool
  nextOrder : OrderId
  menu : List String
  pending : List OrderId
  unassigned : List Order
  queues : Table String (JobQueue JobRef)
  slots : Table OrderId Slot
deriving DecidableEq, Repr

namespace Board

def orderState (b : Board) (id : OrderId) : Option OrderState := (b.slots.get? id).map (·.state)

def setState (b : Board) (id : OrderId) (state : OrderState) : Board :=
  { b with slots := b.slots.modify id fun slot => { slot with state } }

def removePending (b : Board) (id : OrderId) : Board :=
  { b with pending := b.pending.filter (· ≠ id) }

def removeFromMenu (b : Board) (product : String) : Board :=
  { b with menu := b.menu.filter (· ≠ product) }

def backlog (b : Board) : List (String × Nat) :=
  b.queues.entries.map fun (product, queue) => (product, queue.size)

end Board

inductive Ending where
  | expired
  | failed
deriving DecidableEq, Repr

def Ending.error (ending : Ending) (id : OrderId) : OrderError :=
  match ending with
  | .expired => .orderExpired id
  | .failed => .fulfillmentFailure id

abbrev Tray := List (String × Item)

inductive WorkerPhase where
  | starting
  | free
  | asleep (notified : Bool)
  | claimed (order : Order)
  -- Waits for the job at position `made.length + failed`.
  | awaiting (order : Order) (made : Tray) (failed : Nat)
  | holding (order : Order) (made : Tray) (notified : Bool)
  -- About to give the first of `rest` back, or to tell the client once there is none.
  | returning (order : Order) (ending : Ending) (rest : Tray)
  | handingBack (order : Order) (ending : Ending) (product : String) (item : Item) (rest : Tray)
  | delivering (order : Order) (made : Tray)
  | finished
  | dead
deriving DecidableEq, Repr

structure Worker where
  phase : WorkerPhase
  report : Report
deriving DecidableEq, Repr

inductive RunnerPhase where
  | starting
  | idle
  | asleep (notified : Bool)
  | serving (job : Job JobRef)
  | producing (job : Job JobRef)
  | holding (job : Job JobRef) (item : Item)
  -- The station broke down and the others do not know yet.
  | failing (job : Job JobRef) (error : StationError)
  | sweeping (jobs : List (Job JobRef)) (error : StationError)
  | finished
  | dead
deriving DecidableEq, Repr

structure Runner where
  station : String
  phase : RunnerPhase
  outOfService : Bool
  calls : Nat
deriving DecidableEq, Repr

-- Where the call of `shutdown` that took the threads has come to.
inductive ShutdownPhase where
  | closing
  | wakingWorkers
  | wakingStations
  | joiningWorkers (reports : List Report)
  | releasing (reports : List Report)
  | wakingReleased (reports : List Report)
  | joiningRunners (reports : List Report) (done : Nat)
  | stopping (reports : List Report) (done : Nat)
deriving DecidableEq, Repr

inductive PagerUse where
  | isReady
  | wait
  | waitTimeout
  | readiness
deriving DecidableEq, Repr

inductive PagerPhase where
  | checking
  | polling
  | waiting
  | noting (readiness : Readiness)
  | reading
deriving DecidableEq, Repr

inductive Call where
  -- Took the order's result and waits for it to be filled.
  | collecting (id : OrderId)
  | shutdown (phase : ShutdownPhase)
  | pager (id : OrderId) (use : PagerUse) (phase : PagerPhase)
deriving DecidableEq, Repr

abbrev CallId := Nat

structure State where
  board : Board
  workers : List Worker
  runners : List Runner
  jobs : Table JobRef (Signal JobResult)
  buzzers : Table OrderId (Signal Readiness)
  results : Table OrderId (Signal Outcome)
  notes : Table OrderId Readiness
  -- No call of `shutdown` has taken the threads.
  running : Bool
  calls : Table CallId Call
deriving DecidableEq, Repr

inductive Reply where
  | collected (outcome : Outcome)
  | reports (reports : List Report)
  | flag (value : Bool)
  | readiness (value : Option Readiness)
  | done
deriving DecidableEq, Repr

inductive Notice where
  | started (workers stations timeoutMillis : Nat)
  | orderAccepted (id : OrderId)
  | orderRejected (product : String)
  | orderDispatched (id : OrderId) (jobs : Nat)
  | orderReady (id : OrderId) (worker : Nat)
  | orderCollected (id : OrderId) (worker : Nat)
  | orderExpired (id : OrderId) (worker returned : Nat)
  | orderFailed (id : OrderId) (worker returned : Nat)
  | workerStarted (worker : Nat)
  | workerStopped (worker handled : Nat)
  | orderClaimed (worker : Nat) (id : OrderId) (products : List String)
  | productFailed (worker : Nat) (id : OrderId) (product : String) (error : StationError)
  | productAbandoned (worker : Nat) (id : OrderId) (product : String)
  | workerDied (worker : Nat)
  | runnerStarted (station : String)
  | runnerStopped (station : String)
  | runnerDied
  | deliveryDropped (station : String) (id : OrderId)
  | stationFailed (station : String) (id : OrderId) (swept : Nat) (error : StationError)
  | returnSkipped (station : String) (id : OrderId)
  | returnRejected (station : String) (id : OrderId) (error : StationError)
  | shutdownRepeated
  | shutdownComplete (summary : Summary)
deriving DecidableEq, Repr

inductive StationCall where
  | start
  | produce
  | acceptReturn (item : Item)
  | stop
deriving DecidableEq, Repr

inductive Event where
  | placed (products : List String) (id : OrderId)
  | refused (products : List String) (error : OrderError)
  | replied (call : CallId) (reply : Reply)
  | called (station : String) (call : StationCall)
  | jobResolved (job : JobRef) (result : JobResult)
  | noticed (notice : Notice)
deriving DecidableEq, Repr

inductive Production where
  | made (product : Product)
  | broke (error : StationError)
  | crashed
deriving DecidableEq, Repr

inductive Acceptance where
  | accepted
  | refused (error : StationError)
  | crashed
deriving DecidableEq, Repr

-- One atomic step of somebody. A crash of a station never comes back and kills the thread.
inductive Action where
  -- A client orders; the sleeping worker `woken`, if any, is told.
  | order (products : List String) (woken : Option Nat)
  | collect (call : CallId) (id : OrderId)
  | shutdown (call : CallId)
  | pager (call : CallId) (id : OrderId) (use : PagerUse)
  | client (call : CallId)
  | waitTimeout (call : CallId)
  | worker (index : Nat)
  | pickupTimeout (index : Nat)
  | returned (index : Nat) (outcome : Acceptance)
  | runner (index : Nat)
  | produced (index : Nat) (outcome : Production)
deriving DecidableEq, Repr

namespace State

def opened (stations : List String) (workers : Nat) : State where
  board :=
    { closed := false
      released := false
      nextOrder := 0
      menu := stations
      pending := []
      unassigned := []
      queues := ⟨stations.map fun station => (station, .empty)⟩
      slots := .empty }
  workers := List.replicate workers ⟨.starting, .empty⟩
  runners := stations.map fun station => ⟨station, .starting, false, 0⟩
  jobs := .empty
  buzzers := .empty
  results := .empty
  notes := .empty
  running := true
  calls := .empty

def hasStation (s : State) (station : String) : Bool := s.runners.any (·.station = station)

def setWorker (s : State) (index : Nat) (worker : Worker) : State :=
  { s with workers := s.workers.set index worker }

def setPhase (s : State) (index : Nat) (phase : WorkerPhase) : State :=
  { s with workers := s.workers.modify index fun worker => { worker with phase } }

def setRunner (s : State) (index : Nat) (runner : Runner) : State :=
  { s with runners := s.runners.set index runner }

def setCall (s : State) (call : CallId) (state : Call) : State :=
  { s with calls := s.calls.insert call state }

def endCall (s : State) (call : CallId) : State := { s with calls := s.calls.erase call }

def withBoard (s : State) (change : Board → Board) : State := { s with board := change s.board }

end State

end Kitchen.Engine
