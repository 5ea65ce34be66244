import Kitchen.Engine.State

-- The steps of a kitchen. Each is one critical section, one passing of a signal, or one call of
-- a station, so that a run is any sequence of steps in any order. `step` answers `none` where
-- the step is not possible: its thread sleeps, waits, is gone, or is somewhere else.

namespace Kitchen.Engine

abbrev Stepped := Option (State × List Event)

namespace State

def wakeWorker (worker : Worker) : Worker :=
  match worker.phase with
  | .asleep _ => { worker with phase := .asleep true }
  | _ => worker

def isAsleep (worker : Worker) : Bool := worker.phase = .asleep false

-- Tells one sleeping worker, the one that `woken` names; `none` is right only where nobody
-- sleeps.
def notifyOne (s : State) (woken : Option Nat) : Option State :=
  match woken with
  | none => if s.workers.any isAsleep then none else some s
  | some index =>
    match s.workers[index]? with
    | some worker => if isAsleep worker then some (s.setWorker index (wakeWorker worker)) else none
    | none => none

def wakeAllWorkers (s : State) : State := { s with workers := s.workers.map wakeWorker }

def wakeRunner (runner : Runner) : Runner :=
  match runner.phase with
  | .asleep _ => { runner with phase := .asleep true }
  | _ => runner

def wakeStation (s : State) (station : String) : State :=
  { s with
    runners := s.runners.map fun runner =>
      if runner.station = station then wakeRunner runner else runner }

def wakeAllStations (s : State) : State := { s with runners := s.runners.map wakeRunner }

def wakePickup (id : OrderId) (worker : Worker) : Worker :=
  match worker.phase with
  | .holding order made _ =>
    if order.id = id then { worker with phase := .holding order made true } else worker
  | _ => worker

def notifyPickup (s : State) (id : OrderId) : State :=
  { s with workers := s.workers.map (wakePickup id) }

def firstMissing (menu products : List String) : Option String :=
  products.find? fun product => !menu.contains product

def accept (s : State) (products : List String) : State :=
  let id := s.board.nextOrder
  { s with
    board :=
      { s.board with
        nextOrder := id + 1
        pending := s.board.pending ++ [id]
        unassigned := s.board.unassigned ++ [⟨id, products⟩]
        slots := s.board.slots.insert id ⟨.queued, true⟩ }
    buzzers := s.buzzers.insert id .fresh
    results := s.results.insert id .fresh }

def order (s : State) (products : List String) (woken : Option Nat) : Stepped :=
  if s.board.closed then some (s, [.refused products .closed])
  else
    match firstMissing s.board.menu products with
    | some product =>
      some (s, [.refused products (.invalidProduct product), .noticed (.orderRejected product)])
    | none =>
      let id := s.board.nextOrder
      ((s.accept products).notifyOne woken).map fun next =>
        (next, [.placed products id, .noticed (.orderAccepted id)])

def reply (s : State) (call : CallId) (answer : Reply) : State × List Event :=
  (s.endCall call, [.replied call answer])

def refuse (s : State) (call : CallId) (error : OrderError) : State × List Event :=
  s.reply call (.collected (.spoiled error))

-- Takes the order's result if it is there to be taken. Taking the result of a ready order
-- keeps its slot for the worker, who is told; nobody else needs the slot of one that ended.
def collect (s : State) (call : CallId) (id : OrderId) : State × List Event :=
  match s.board.slots.get? id with
  | none => s.refuse call (.unknownPager id)
  | some slot =>
    if !slot.uncollected then s.refuse call (.unknownPager id)
    else
      match slot.state with
      | .ready =>
        let taken := s.withBoard fun b => { b with slots := b.slots.insert id ⟨.pickedUp, false⟩ }
        ((taken.notifyPickup id).setCall call (.collecting id), [])
      | .failed | .expired =>
        let taken := s.withBoard fun b => { b with slots := b.slots.erase id }
        (taken.setCall call (.collecting id), [])
      | .queued | .dispatched | .pickedUp => s.refuse call (.notReady id)

-- Waits for the result that `collect` took. A result that never comes counts as a failure.
def receiveResult (s : State) (call : CallId) (id : OrderId) : Stepped :=
  match s.results.get? id with
  | none => none
  | some signal =>
    signal.wait?.map fun (outcome, after) =>
      { s with results := s.results.insert id after }.reply call
        (.collected (outcome.getD (.spoiled (.fulfillmentFailure id))))

def pagerDone (s : State) (call : CallId) (id : OrderId) (use : PagerUse) : State × List Event :=
  match use with
  | .isReady | .waitTimeout => s.reply call (.flag true)
  | .wait => s.reply call .done
  | .readiness => (s.setCall call (.pager id use .reading), [])

def pagerPolled (s : State) (call : CallId) (id : OrderId) (use : PagerUse)
    (status : Signal.Status Readiness) : State × List Event :=
  match status with
  | .resolved readiness => (s.setCall call (.pager id use (.noting readiness)), [])
  | .abandoned => (s.setCall call (.pager id use (.noting .malfunction)), [])
  | .pending =>
    match use with
    | .isReady => s.reply call (.flag false)
    | .wait | .waitTimeout => (s.setCall call (.pager id use .waiting), [])
    | .readiness => (s.setCall call (.pager id use .reading), [])

def stepPager (s : State) (call : CallId) (id : OrderId) (use : PagerUse) : PagerPhase → Stepped
  | .checking =>
    match s.notes.get? id with
    | some _ => some (s.pagerDone call id use)
    | none => some (s.setCall call (.pager id use .polling), [])
  | .polling =>
    (s.buzzers.get? id).map fun buzzer =>
      let (status, after) := buzzer.take
      { s with buzzers := s.buzzers.insert id after }.pagerPolled call id use status
  | .waiting =>
    match s.buzzers.get? id with
    | none => none
    | some buzzer =>
      buzzer.wait?.map fun (heard, after) =>
        ({ s with buzzers := s.buzzers.insert id after }.setCall call
          (.pager id use (.noting (heard.getD .malfunction))), [])
  | .noting readiness =>
    -- The first note stays.
    let noted := match s.notes.get? id with
      | some _ => s
      | none => { s with notes := s.notes.insert id readiness }
    some (noted.pagerDone call id use)
  | .reading => some (s.reply call (.readiness (s.notes.get? id)))

def beginShutdown (s : State) (call : CallId) : State × List Event :=
  if s.running then ({ s with running := false }.setCall call (.shutdown .closing), [])
  else
    let (next, events) := s.reply call (.reports [])
    (next, .noticed .shutdownRepeated :: events)

def stepShutdown (s : State) (call : CallId) : ShutdownPhase → Stepped
  | .closing =>
    some ((s.withBoard fun b => { b with closed := true, menu := [] }).setCall call
      (.shutdown .wakingWorkers), [])
  | .wakingWorkers => some (s.wakeAllWorkers.setCall call (.shutdown .wakingStations), [])
  | .wakingStations => some (s.wakeAllStations.setCall call (.shutdown (.joiningWorkers [])), [])
  | .joiningWorkers reports =>
    match s.workers[reports.length]? with
    | none => some (s.setCall call (.shutdown (.releasing reports)), [])
    | some worker =>
      match worker.phase with
      | .finished =>
        some (s.setCall call (.shutdown (.joiningWorkers (reports ++ [worker.report]))), [])
      | .dead =>
        some (s.setCall call (.shutdown (.joiningWorkers (reports ++ [.empty]))),
          [.noticed (.workerDied reports.length)])
      | _ => none
  | .releasing reports =>
    some ((s.withBoard fun b => { b with released := true }).setCall call
      (.shutdown (.wakingReleased reports)), [])
  | .wakingReleased reports =>
    some (s.wakeAllStations.setCall call (.shutdown (.joiningRunners reports 0)), [])
  | .joiningRunners reports done =>
    match s.runners[done]? with
    | none => some (s.setCall call (.shutdown (.stopping reports 0)), [])
    | some runner =>
      match runner.phase with
      | .finished => some (s.setCall call (.shutdown (.joiningRunners reports (done + 1))), [])
      | .dead =>
        some (s.setCall call (.shutdown (.joiningRunners reports (done + 1))),
          [.noticed .runnerDied])
      | _ => none
  | .stopping reports done =>
    match s.runners[done]? with
    | some runner =>
      some (s.setCall call (.shutdown (.stopping reports (done + 1))),
        [.called runner.station .stop])
    | none =>
      let (next, events) := s.reply call (.reports reports)
      some (next, .noticed (.shutdownComplete (.ofReports reports)) :: events)

def stepCall (s : State) (call : CallId) : Stepped :=
  match s.calls.get? call with
  | none => none
  | some (.collecting id) => s.receiveResult call id
  | some (.shutdown phase) => s.stepShutdown call phase
  | some (.pager id use phase) => s.stepPager call id use phase

-- Takes the oldest unassigned order, sleeps while there is none, leaves once there will be
-- none.
def claim (s : State) (index : Nat) (worker : Worker) : State × List Event :=
  match s.board.unassigned with
  | order :: rest =>
    ((s.withBoard fun b => { b with unassigned := rest }).setPhase index (.claimed order),
      [.noticed (.orderClaimed index order.id order.products)])
  | [] =>
    if s.board.closed then
      (s.setPhase index .finished, [.noticed (.workerStopped index worker.report.handled)])
    else (s.setPhase index (.asleep false), [])

def dispatchJob (s : State) (order : OrderId) (position : Nat) (product : String) :
    State × List Event :=
  let job : JobRef := ⟨order, position⟩
  match s.board.queues.get? product, s.hasStation product with
  | some queue, true =>
    let queued := s.withBoard fun b =>
      { b with queues := b.queues.insert product (queue.push order job) }
    ({ queued with jobs := queued.jobs.insert job .fresh }.wakeStation product, [])
  | _, _ =>
    let result : JobResult := .broke (.failure s!"no station makes '{product}'")
    ({ s with jobs := s.jobs.insert job (Signal.fresh.resolve result).2 },
      [.jobResolved job result])

def dispatchFrom (s : State) (order : OrderId) (position : Nat) :
    List String → State × List Event
  | [] => (s, [])
  | product :: rest =>
    let (next, events) := s.dispatchJob order position product
    let (last, more) := next.dispatchFrom order (position + 1) rest
    (last, events ++ more)

def dispatch (s : State) (index : Nat) (order : Order) : State × List Event :=
  let (queued, events) :=
    (s.withBoard (·.setState order.id .dispatched)).dispatchFrom order.id 0 order.products
  (queued.setPhase index (.awaiting order [] 0),
    events ++ [.noticed (.orderDispatched order.id order.products.length)])

def countFailure (s : State) (index : Nat) (worker : Worker) (product : String)
    (phase : WorkerPhase) : State :=
  let report := { worker.report with failedProducts := worker.report.failedProducts ++ [product] }
  s.setWorker index ⟨phase, report⟩

def receiveJob (s : State) (index : Nat) (worker : Worker) (order : Order) (made : Tray)
    (failed : Nat) (product : String) : Stepped :=
  let job : JobRef := ⟨order.id, made.length + failed⟩
  match s.jobs.get? job with
  | none => none
  | some signal =>
    signal.wait?.map fun (heard, after) =>
      let taken := { s with jobs := s.jobs.insert job after }
      match heard with
      | some (.made item) =>
        (taken.setPhase index (.awaiting order (made ++ [(product, item)]) failed), [])
      | some (.broke error) =>
        (taken.countFailure index worker product (.awaiting order made (failed + 1)),
          [.noticed (.productFailed index order.id product error)])
      | none =>
        (taken.countFailure index worker product (.awaiting order made (failed + 1)),
          [.noticed (.productAbandoned index order.id product)])

def buzz (s : State) (id : OrderId) (readiness : Readiness) : State :=
  { s with buzzers := s.buzzers.modify id fun buzzer => (buzzer.resolve readiness).2 }

-- The wait for the client is over. Who moved the order out of `ready` first decides.
def settlePickup (s : State) (index : Nat) (worker : Worker) (order : Order) (made : Tray) :
    State × List Event :=
  if s.board.orderState order.id = some .pickedUp then
    let next := s.withBoard fun b =>
      { b with slots := b.slots.erase order.id }.removePending order.id
    let report := { worker.report with collected := worker.report.collected ++ [order.products] }
    (next.setWorker index ⟨.delivering order made, report⟩,
      [.noticed (.orderCollected order.id index)])
  else
    let next := s.withBoard fun b => (b.setState order.id .expired).removePending order.id
    let report := { worker.report with abandoned := worker.report.abandoned ++ [order.products] }
    (next.setWorker index ⟨.returning order .expired made, report⟩,
      [.noticed (.orderExpired order.id index made.length)])

def holdForPickup (s : State) (index : Nat) (worker : Worker) (order : Order) (made : Tray) :
    State × List Event :=
  let next := (s.withBoard (·.setState order.id .ready)).buzz order.id .ready
  let notice : Event := .noticed (.orderReady order.id index)
  if next.board.orderState order.id = some .ready then
    (next.setPhase index (.holding order made false), [notice])
  else
    let (settled, events) := next.settlePickup index worker order made
    (settled, notice :: events)

-- A worker that was told while it held an order; it waits on if the order is still ready.
def wakeHolding (s : State) (index : Nat) (worker : Worker) (order : Order) (made : Tray) :
    State × List Event :=
  if s.board.orderState order.id = some .ready then
    (s.setPhase index (.holding order made false), [])
  else s.settlePickup index worker order made

def failOrder (s : State) (index : Nat) (worker : Worker) (order : Order) (made : Tray) :
    State × List Event :=
  let next := (s.withBoard fun b => (b.setState order.id .failed).removePending order.id).buzz
    order.id .malfunction
  let report := { worker.report with failed := worker.report.failed ++ [order.products] }
  (next.setWorker index ⟨.returning order .failed made, report⟩,
    [.noticed (.orderFailed order.id index made.length)])

def resolveResult (s : State) (id : OrderId) (outcome : Outcome) : State :=
  { s with results := s.results.modify id fun signal => (signal.resolve outcome).2 }

def stepWorker (s : State) (index : Nat) : Stepped :=
  match s.workers[index]? with
  | none => none
  | some worker =>
    match worker.phase with
    | .starting => some (s.setPhase index .free, [.noticed (.workerStarted index)])
    | .free | .asleep true => some (s.claim index worker)
    | .claimed order => some (s.dispatch index order)
    | .awaiting order made failed =>
      match order.products[made.length + failed]? with
      | some product => s.receiveJob index worker order made failed product
      | none =>
        if failed = 0 then some (s.holdForPickup index worker order made)
        else some (s.failOrder index worker order made)
    | .holding order made true => some (s.wakeHolding index worker order made)
    | .returning order ending ((product, item) :: rest) =>
      if s.hasStation product then
        some (s.setPhase index (.handingBack order ending product item rest),
          [.called product (.acceptReturn item)])
      else
        some (s.setPhase index (.returning order ending rest),
          [.noticed (.returnSkipped product order.id)])
    | .returning order ending [] =>
      some ((s.resolveResult order.id (.spoiled (ending.error order.id))).setPhase index .free, [])
    | .delivering order made =>
      some ((s.resolveResult order.id (.meal (made.map (·.2)))).setPhase index .free, [])
    | .asleep false | .holding _ _ false | .handingBack .. | .finished | .dead => none

-- The time in which the client can come may be over whenever the worker waits.
def stepPickupTimeout (s : State) (index : Nat) : Stepped :=
  match s.workers[index]? with
  | none => none
  | some worker =>
    match worker.phase with
    | .holding order made _ => some (s.settlePickup index worker order made)
    | _ => none

-- A station has dealt with a product that came back, or crashed over it.
def stepReturned (s : State) (index : Nat) (outcome : Acceptance) : Stepped :=
  match s.workers[index]? with
  | none => none
  | some worker =>
    match worker.phase with
    | .handingBack order ending product _ rest =>
      match outcome with
      | .accepted => some (s.setPhase index (.returning order ending rest), [])
      | .refused error =>
        some (s.setPhase index (.returning order ending rest),
          [.noticed (.returnRejected product order.id error)])
      | .crashed =>
        -- The worker held the only sender of the result.
        let dropped := { s with results := s.results.modify order.id Signal.dropSender }
        some (dropped.setPhase index .dead, [])
    | _ => none

-- Takes the next job, sleeps while there is none, leaves once there will be none.
def nextJob (s : State) (index : Nat) (runner : Runner) : State × List Event :=
  match (s.board.queues.get? runner.station).bind JobQueue.pop? with
  | some (job, rest) =>
    ((s.withBoard fun b => { b with queues := b.queues.insert runner.station rest }).setRunner index
      { runner with phase := .serving job }, [])
  | none =>
    if s.board.released then
      (s.setRunner index { runner with phase := .finished },
        [.noticed (.runnerStopped runner.station)])
    else (s.setRunner index { runner with phase := .asleep false }, [])

def resolveJob (s : State) (job : JobRef) (result : JobResult) : Bool × State :=
  match s.jobs.get? job with
  | none => (false, s)
  | some signal =>
    let (heard, after) := signal.resolve result
    (heard, { s with jobs := s.jobs.insert job after })

-- The station broke down for good: its product leaves the menu and its queue is emptied.
def failStation (s : State) (index : Nat) (runner : Runner) (job : Job JobRef)
    (error : StationError) : State × List Event :=
  let board := s.board.removeFromMenu runner.station
  let (swept, queues) := match board.queues.get? runner.station with
    | some queue => (queue.drain.1, board.queues.insert runner.station queue.drain.2)
    | none => ([], board.queues)
  ({ s with board := { board with queues } }.setRunner index
      { runner with phase := .sweeping (job :: swept) error },
    [.noticed (.stationFailed runner.station job.order swept.length error)])

def stepRunner (s : State) (index : Nat) : Stepped :=
  match s.runners[index]? with
  | none => none
  | some runner =>
    match runner.phase with
    | .starting =>
      some (s.setRunner index { runner with phase := .idle },
        [.noticed (.runnerStarted runner.station)])
    | .idle | .asleep true => some (s.nextJob index runner)
    | .serving job =>
      if runner.outOfService then
        let result : JobResult :=
          .broke (.failure s!"station for '{runner.station}' is out of service")
        some ((s.resolveJob job.slot result).2.setRunner index { runner with phase := .idle },
          [.jobResolved job.slot result])
      else
        some (s.setRunner index { runner with phase := .producing job, calls := runner.calls + 1 },
          [.called runner.station .produce])
    | .holding job item =>
      let (heard, next) := s.resolveJob job.slot (.made item)
      some (next.setRunner index { runner with phase := .idle },
        .jobResolved job.slot (.made item) ::
          if heard then [] else [.noticed (.deliveryDropped runner.station job.order)])
    | .failing job error => some (s.failStation index runner job error)
    | .sweeping (job :: rest) error =>
      some ((s.resolveJob job.slot (.broke error)).2.setRunner index
          { runner with phase := .sweeping rest error },
        [.jobResolved job.slot (.broke error)])
    | .sweeping [] _ => some (s.setRunner index { runner with phase := .idle }, [])
    | .asleep false | .producing _ | .finished | .dead => none

-- A station has made a product, broken down or crashed.
def stepProduced (s : State) (index : Nat) (outcome : Production) : Stepped :=
  match s.runners[index]? with
  | none => none
  | some runner =>
    match runner.phase with
    | .producing job =>
      match outcome with
      | .made product =>
        let item : Item := ⟨runner.station, runner.calls - 1, product⟩
        some (s.setRunner index { runner with phase := .holding job item }, [])
      | .broke error =>
        let failing := { runner with phase := .failing job error, outOfService := true }
        some (s.setRunner index failing, [])
      | .crashed =>
        -- The runner held the only sender of the job.
        some ({ s with jobs := s.jobs.modify job.slot Signal.dropSender }.setRunner index
          { runner with phase := .dead }, [])
    | _ => none

-- Begins a client call under a name that no other call bears.
def beginCall (s : State) (call : CallId) (begun : State × List Event) : Stepped :=
  if s.calls.contains call then none else some begun

def step (s : State) : Action → Stepped
  | .order products woken => s.order products woken
  | .collect call id => s.beginCall call (s.collect call id)
  | .shutdown call => s.beginCall call (s.beginShutdown call)
  | .pager call id use =>
    if s.buzzers.contains id then s.beginCall call (s.setCall call (.pager id use .checking), [])
    else none
  | .client call => s.stepCall call
  | .waitTimeout call =>
    match s.calls.get? call with
    | some (.pager _ .waitTimeout .waiting) => some (s.reply call (.flag false))
    | _ => none
  | .worker index => s.stepWorker index
  | .pickupTimeout index => s.stepPickupTimeout index
  | .returned index outcome => s.stepReturned index outcome
  | .runner index => s.stepRunner index
  | .produced index outcome => s.stepProduced index outcome

end State

inductive Run (first : State) : List Action → List Event → State → Prop where
  | start : Run first [] [] first
  | next {actions : List Action} {events more : List Event} {middle last : State}
      {action : Action} :
      Run first actions events middle → middle.step action = some (last, more) →
        Run first (actions ++ [action]) (events ++ more) last

end Kitchen.Engine
