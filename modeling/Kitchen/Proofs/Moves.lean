import Kitchen.Engine.Step

namespace Kitchen

namespace Report

def miss (report : Report) (product : String) : Report :=
  { report with failedProducts := report.failedProducts ++ [product] }

def collect (report : Report) (order : Order) : Report :=
  { report with collected := report.collected ++ [order.products] }

def abandon (report : Report) (order : Order) : Report :=
  { report with abandoned := report.abandoned ++ [order.products] }

def spoil (report : Report) (order : Order) : Report :=
  { report with failed := report.failed ++ [order.products] }

end Report

namespace Engine

def WorkerPhase.seeks : WorkerPhase → Bool
  | .free | .asleep true => true
  | _ => false

def RunnerPhase.seeks : RunnerPhase → Bool
  | .idle | .asleep true => true
  | _ => false

namespace State

-- The order's jobs are on their stations' queues, or failed at once.
def spread (s : State) (order : Order) : State × List Event :=
  (s.withBoard (·.setState order.id .dispatched)).dispatchFrom order.id 0 order.products

def ready (s : State) (id : OrderId) : State :=
  (s.withBoard (·.setState id .ready)).buzz id .ready

def expire (s : State) (id : OrderId) : State :=
  s.withBoard fun b => (b.setState id .expired).removePending id

def spoil (s : State) (id : OrderId) : State :=
  (s.withBoard fun b => (b.setState id .failed).removePending id).buzz id .malfunction

def pickUp (s : State) (id : OrderId) : State :=
  s.withBoard fun b => { b with slots := b.slots.erase id }.removePending id

def hearJob (s : State) (job : JobRef) (heard : Bool) : State :=
  { s with jobs := s.jobs.insert job ⟨.closed, heard⟩ }

def answerJob (s : State) (job : JobRef) (result : JobResult) : State :=
  { s with jobs := s.jobs.modify job fun signal => (signal.resolve result).2 }

def setQueue (s : State) (station : String) (queue : JobQueue JobRef) : State :=
  s.withBoard fun b => { b with queues := b.queues.insert station queue }

def hearBuzzer (s : State) (id : OrderId) (heard : Bool) : State :=
  { s with buzzers := s.buzzers.insert id ⟨.closed, heard⟩ }

def hearResult (s : State) (id : OrderId) (heard : Bool) : State :=
  { s with results := s.results.insert id ⟨.closed, heard⟩ }

-- The first note stays.
def note (s : State) (id : OrderId) (readiness : Readiness) : State :=
  match s.notes.get? id with
  | some _ => s
  | none => { s with notes := s.notes.insert id readiness }

end State

inductive WorkerMove (s : State) (i : Nat) (report : Report) :
    WorkerPhase → Action → State → List Event → Prop where
  | start : WorkerMove s i report .starting (.worker i) (s.setWorker i ⟨.free, report⟩)
      [.noticed (.workerStarted i)]
  | claim (seeks : phase.seeks = true) (first : s.board.unassigned = order :: rest) :
      WorkerMove s i report phase (.worker i)
        ((s.withBoard fun b => { b with unassigned := rest }).setWorker i ⟨.claimed order, report⟩)
        [.noticed (.orderClaimed i order.id order.products)]
  | leave (seeks : phase.seeks = true) (nothing : s.board.unassigned = [])
      (closed : s.board.closed = true) :
      WorkerMove s i report phase (.worker i) (s.setWorker i ⟨.finished, report⟩)
        [.noticed (.workerStopped i report.handled)]
  | rest (seeks : phase.seeks = true) (nothing : s.board.unassigned = [])
      (unclosed : s.board.closed = false) :
      WorkerMove s i report phase (.worker i) (s.setWorker i ⟨.asleep false, report⟩) []
  | dispatch : WorkerMove s i report (.claimed order) (.worker i)
      ((s.spread order).1.setWorker i ⟨.awaiting order [] 0, report⟩)
      ((s.spread order).2 ++ [.noticed (.orderDispatched order.id order.products.length)])
  | receive (wanted : order.products[made.length + failed]? = some product)
      (job : s.jobs.get? ⟨order.id, made.length + failed⟩ = some ⟨.holding (.made item), heard⟩) :
      WorkerMove s i report (.awaiting order made failed) (.worker i)
        ((s.hearJob ⟨order.id, made.length + failed⟩ heard).setWorker i
          ⟨.awaiting order (made ++ [(product, item)]) failed, report⟩) []
  | hearBreak (wanted : order.products[made.length + failed]? = some product)
      (job : s.jobs.get? ⟨order.id, made.length + failed⟩ = some ⟨.holding (.broke error), heard⟩) :
      WorkerMove s i report (.awaiting order made failed) (.worker i)
        ((s.hearJob ⟨order.id, made.length + failed⟩ heard).setWorker i
          ⟨.awaiting order made (failed + 1), report.miss product⟩)
        [.noticed (.productFailed i order.id product error)]
  | hearNothing (wanted : order.products[made.length + failed]? = some product)
      (job : s.jobs.get? ⟨order.id, made.length + failed⟩ = some ⟨.closed, heard⟩) :
      WorkerMove s i report (.awaiting order made failed) (.worker i)
        ((s.hearJob ⟨order.id, made.length + failed⟩ heard).setWorker i
          ⟨.awaiting order made (failed + 1), report.miss product⟩)
        [.noticed (.productAbandoned i order.id product)]
  | hold (done : order.products[made.length]? = none)
      (slotted : s.board.slots.get? order.id = some slot) :
      WorkerMove s i report (.awaiting order made 0) (.worker i)
        ((s.ready order.id).setWorker i ⟨.holding order made false, report⟩)
        [.noticed (.orderReady order.id i)]
  | holdUnslotted (done : order.products[made.length]? = none)
      (unslotted : s.board.slots.get? order.id = none) :
      WorkerMove s i report (.awaiting order made 0) (.worker i)
        (((s.ready order.id).expire order.id).setWorker i
          ⟨.returning order .expired made, report.abandon order⟩)
        [.noticed (.orderReady order.id i), .noticed (.orderExpired order.id i made.length)]
  | fail (done : order.products[made.length + failed]? = none) (spoiled : failed ≠ 0) :
      WorkerMove s i report (.awaiting order made failed) (.worker i)
        ((s.spoil order.id).setWorker i ⟨.returning order .failed made, report.spoil order⟩)
        [.noticed (.orderFailed order.id i made.length)]
  | holdOn (still : s.board.orderState order.id = some .ready) :
      WorkerMove s i report (.holding order made true) (.worker i)
        (s.setWorker i ⟨.holding order made false, report⟩) []
  | collected (due : action = .worker i ∧ notified = true ∨ action = .pickupTimeout i)
      (came : s.board.orderState order.id = some .pickedUp) :
      WorkerMove s i report (.holding order made notified) action
        ((s.pickUp order.id).setWorker i ⟨.delivering order made, report.collect order⟩)
        [.noticed (.orderCollected order.id i)]
  | expired (due : action = .worker i ∧ notified = true ∧ s.board.orderState order.id ≠ some .ready
        ∨ action = .pickupTimeout i)
      (late : s.board.orderState order.id ≠ some .pickedUp) :
      WorkerMove s i report (.holding order made notified) action
        ((s.expire order.id).setWorker i
          ⟨.returning order .expired made, report.abandon order⟩)
        [.noticed (.orderExpired order.id i made.length)]
  | handBack (known : s.hasStation product = true) :
      WorkerMove s i report (.returning order ending ((product, item) :: rest)) (.worker i)
        (s.setWorker i ⟨.handingBack order ending product item rest, report⟩)
        [.called product (.acceptReturn item)]
  | skip (unknown : s.hasStation product = false) :
      WorkerMove s i report (.returning order ending ((product, item) :: rest)) (.worker i)
        (s.setWorker i ⟨.returning order ending rest, report⟩)
        [.noticed (.returnSkipped product order.id)]
  | tell : WorkerMove s i report (.returning order ending []) (.worker i)
      ((s.resolveResult order.id (.spoiled (ending.error order.id))).setWorker i ⟨.free, report⟩) []
  | deliver : WorkerMove s i report (.delivering order made) (.worker i)
      ((s.resolveResult order.id (.meal (made.map (·.2)))).setWorker i ⟨.free, report⟩) []
  | accepted : WorkerMove s i report (.handingBack order ending product item rest)
      (.returned i .accepted) (s.setWorker i ⟨.returning order ending rest, report⟩) []
  | refused : WorkerMove s i report (.handingBack order ending product item rest)
      (.returned i (.refused error)) (s.setWorker i ⟨.returning order ending rest, report⟩)
      [.noticed (.returnRejected product order.id error)]
  | crash : WorkerMove s i report (.handingBack order ending product item rest)
      (.returned i .crashed)
      ({ s with results := s.results.modify order.id Signal.dropSender }.setWorker i
        ⟨.dead, report⟩) []

inductive RunnerMove (s : State) (i : Nat) (station : String) (out : Bool) (calls : Nat) :
    RunnerPhase → Action → State → List Event → Prop where
  | start : RunnerMove s i station out calls .starting (.runner i)
      (s.setRunner i ⟨station, .idle, out, calls⟩) [.noticed (.runnerStarted station)]
  | take (seeks : phase.seeks = true) (present : s.board.queues.get? station = some queue)
      (popped : queue.pop? = some (job, rest)) :
      RunnerMove s i station out calls phase (.runner i)
        ((s.setQueue station rest).setRunner i ⟨station, .serving job, out, calls⟩) []
  | leave (seeks : phase.seeks = true)
      (nothing : (s.board.queues.get? station).bind JobQueue.pop? = none)
      (released : s.board.released = true) :
      RunnerMove s i station out calls phase (.runner i)
        (s.setRunner i ⟨station, .finished, out, calls⟩) [.noticed (.runnerStopped station)]
  | rest (seeks : phase.seeks = true)
      (nothing : (s.board.queues.get? station).bind JobQueue.pop? = none)
      (unreleased : s.board.released = false) :
      RunnerMove s i station out calls phase (.runner i)
        (s.setRunner i ⟨station, .asleep false, out, calls⟩) []
  | refuse (broken : out = true)
      (result : answer = .broke (.failure s!"station for '{station}' is out of service")) :
      RunnerMove s i station out calls (.serving job) (.runner i)
        ((s.answerJob job.slot answer).setRunner i ⟨station, .idle, out, calls⟩)
        [.jobResolved job.slot answer]
  | ask (sound : out = false) :
      RunnerMove s i station out calls (.serving job) (.runner i)
        (s.setRunner i ⟨station, .producing job, out, calls + 1⟩) [.called station .produce]
  | handOver : RunnerMove s i station out calls (.holding job item) (.runner i)
      ((s.answerJob job.slot (.made item)).setRunner i ⟨station, .idle, out, calls⟩)
      (.jobResolved job.slot (.made item) ::
        if (s.resolveJob job.slot (.made item)).1 then []
        else [.noticed (.deliveryDropped station job.order)])
  | breakDown (present : s.board.queues.get? station = some queue) :
      RunnerMove s i station out calls (.failing job error) (.runner i)
        (((s.withBoard (·.removeFromMenu station)).setQueue station queue.drain.2).setRunner i
          ⟨station, .sweeping (job :: queue.drain.1) error, out, calls⟩)
        [.noticed (.stationFailed station job.order queue.drain.1.length error)]
  | breakDownQueueless (absent : s.board.queues.get? station = none) :
      RunnerMove s i station out calls (.failing job error) (.runner i)
        ((s.withBoard (·.removeFromMenu station)).setRunner i
          ⟨station, .sweeping [job] error, out, calls⟩)
        [.noticed (.stationFailed station job.order 0 error)]
  | sweep : RunnerMove s i station out calls (.sweeping (job :: rest) error) (.runner i)
      ((s.answerJob job.slot (.broke error)).setRunner i ⟨station, .sweeping rest error, out, calls⟩)
      [.jobResolved job.slot (.broke error)]
  | swept : RunnerMove s i station out calls (.sweeping [] error) (.runner i)
      (s.setRunner i ⟨station, .idle, out, calls⟩) []
  | make : RunnerMove s i station out calls (.producing job) (.produced i (.made product))
      (s.setRunner i ⟨station, .holding job ⟨station, calls - 1, product⟩, out, calls⟩) []
  | fault : RunnerMove s i station out calls (.producing job) (.produced i (.broke error))
      (s.setRunner i ⟨station, .failing job error, true, calls⟩) []
  | crash : RunnerMove s i station out calls (.producing job) (.produced i .crashed)
      ({ s with jobs := s.jobs.modify job.slot Signal.dropSender }.setRunner i
        ⟨station, .dead, out, calls⟩) []

inductive PagerMove (s : State) (call : CallId) (id : OrderId) (use : PagerUse) :
    PagerPhase → State → List Event → Prop where
  | known (noted : s.notes.get? id = some readiness) :
      PagerMove s call id use .checking (s.pagerDone call id use).1 (s.pagerDone call id use).2
  | look (unnoted : s.notes.get? id = none) :
      PagerMove s call id use .checking (s.setCall call (.pager id use .polling)) []
  | hear (polls : phase = .polling ∨ phase = .waiting)
      (buzzed : s.buzzers.get? id = some ⟨.holding readiness, heard⟩) :
      PagerMove s call id use phase
        ((s.hearBuzzer id heard).setCall call (.pager id use (.noting readiness))) []
  | hearNothing (polls : phase = .polling ∨ phase = .waiting)
      (buzzed : s.buzzers.get? id = some ⟨.closed, heard⟩) :
      PagerMove s call id use phase
        ((s.hearBuzzer id heard).setCall call (.pager id use (.noting .malfunction))) []
  | silent (buzzed : s.buzzers.get? id = some ⟨.waiting, heard⟩) :
      PagerMove s call id use .polling
        ({ s with buzzers := s.buzzers.insert id ⟨.waiting, heard⟩ }.pagerPolled call id use
          .pending).1
        (s.pagerPolled call id use .pending).2
  | note : PagerMove s call id use (.noting readiness) ((s.note id readiness).pagerDone call id use).1
      (s.pagerDone call id use).2
  | read : PagerMove s call id use .reading (s.endCall call)
      [.replied call (.readiness (s.notes.get? id))]

-- The call of `shutdown` that took the threads.
inductive ShutdownMove (s : State) (call : CallId) : ShutdownPhase → State → List Event → Prop where
  | close : ShutdownMove s call .closing
      ((s.withBoard fun b => { b with closed := true, menu := [] }).setCall call
        (.shutdown .wakingWorkers)) []
  | wakeWorkers : ShutdownMove s call .wakingWorkers
      (s.wakeAllWorkers.setCall call (.shutdown .wakingStations)) []
  | wakeStations : ShutdownMove s call .wakingStations
      (s.wakeAllStations.setCall call (.shutdown (.joiningWorkers []))) []
  | join (here : s.workers[reports.length]? = some ⟨.finished, report⟩) :
      ShutdownMove s call (.joiningWorkers reports)
        (s.setCall call (.shutdown (.joiningWorkers (reports ++ [report])))) []
  | joinDead (here : s.workers[reports.length]? = some ⟨.dead, report⟩) :
      ShutdownMove s call (.joiningWorkers reports)
        (s.setCall call (.shutdown (.joiningWorkers (reports ++ [.empty]))))
        [.noticed (.workerDied reports.length)]
  | joined (done : s.workers[reports.length]? = none) :
      ShutdownMove s call (.joiningWorkers reports)
        (s.setCall call (.shutdown (.releasing reports))) []
  | release : ShutdownMove s call (.releasing reports)
      ((s.withBoard fun b => { b with released := true }).setCall call
        (.shutdown (.wakingReleased reports))) []
  | wakeReleased : ShutdownMove s call (.wakingReleased reports)
      (s.wakeAllStations.setCall call (.shutdown (.joiningRunners reports 0))) []
  | joinRunner (here : s.runners[done]? = some runner)
      (ended : runner.phase = .finished ∧ more = []
        ∨ runner.phase = .dead ∧ more = [.noticed .runnerDied]) :
      ShutdownMove s call (.joiningRunners reports done)
        (s.setCall call (.shutdown (.joiningRunners reports (done + 1)))) more
  | runnersJoined (all : s.runners[done]? = none) :
      ShutdownMove s call (.joiningRunners reports done)
        (s.setCall call (.shutdown (.stopping reports 0))) []
  | stop (here : s.runners[done]? = some runner) :
      ShutdownMove s call (.stopping reports done)
        (s.setCall call (.shutdown (.stopping reports (done + 1)))) [.called runner.station .stop]
  | finish (all : s.runners[done]? = none) :
      ShutdownMove s call (.stopping reports done) (s.endCall call)
        [.noticed (.shutdownComplete (.ofReports reports)), .replied call (.reports reports)]

-- Everything else that a client does or waits for.
inductive ClientMove (s : State) : Action → State → List Event → Prop where
  | orderClosed (closed : s.board.closed = true) :
      ClientMove s (.order products woken) s [.refused products .closed]
  | orderMissing (unclosed : s.board.closed = false)
      (missing : State.firstMissing s.board.menu products = some product) :
      ClientMove s (.order products woken) s
        [.refused products (.invalidProduct product), .noticed (.orderRejected product)]
  | place (unclosed : s.board.closed = false)
      (onMenu : State.firstMissing s.board.menu products = none)
      (awake : s.workers.any State.isAsleep = false) :
      ClientMove s (.order products none) (s.accept products)
        [.placed products s.board.nextOrder, .noticed (.orderAccepted s.board.nextOrder)]
  | placeWaking (unclosed : s.board.closed = false)
      (onMenu : State.firstMissing s.board.menu products = none)
      (sleeper : s.workers[i]? = some ⟨.asleep false, report⟩) :
      ClientMove s (.order products (some i))
        ((s.accept products).setWorker i ⟨.asleep true, report⟩)
        [.placed products s.board.nextOrder, .noticed (.orderAccepted s.board.nextOrder)]
  | collectUnknown {id : OrderId} (unused : s.calls.get? call = none)
      (gone : ∀ slot, s.board.slots.get? id = some slot → slot.uncollected = false) :
      ClientMove s (.collect call id) (s.endCall call)
        [.replied call (.collected (.spoiled (.unknownPager id)))]
  | collectEarly {id : OrderId} (unused : s.calls.get? call = none)
      (present : s.board.slots.get? id = some ⟨state, true⟩)
      (early : state.isCollectible = false) :
      ClientMove s (.collect call id) (s.endCall call)
        [.replied call (.collected (.spoiled (.notReady id)))]
  | collectReady {id : OrderId} (unused : s.calls.get? call = none)
      (present : s.board.slots.get? id = some ⟨.ready, true⟩) :
      ClientMove s (.collect call id)
        (((s.withBoard fun b => { b with slots := b.slots.insert id ⟨.pickedUp, false⟩ }).notifyPickup
          id).setCall call (.collecting id)) []
  | collectEnded {id : OrderId} (unused : s.calls.get? call = none)
      (present : s.board.slots.get? id = some ⟨state, true⟩)
      (ended : state = .failed ∨ state = .expired) :
      ClientMove s (.collect call id)
        ((s.withBoard fun b => { b with slots := b.slots.erase id }).setCall call (.collecting id))
        []
  | getResult {id : OrderId} (waits : s.calls.get? call = some (.collecting id))
      (filled : s.results.get? id = some ⟨.holding outcome, heard⟩) :
      ClientMove s (.client call) ((s.hearResult id heard).endCall call)
        [.replied call (.collected outcome)]
  | getNothing {id : OrderId} (waits : s.calls.get? call = some (.collecting id))
      (empty : s.results.get? id = some ⟨.closed, heard⟩) :
      ClientMove s (.client call) ((s.hearResult id heard).endCall call)
        [.replied call (.collected (.spoiled (.fulfillmentFailure id)))]
  | takePager {id : OrderId} (unused : s.calls.get? call = none) (issued : s.buzzers.get? id = some buzzer) :
      ClientMove s (.pager call id use) (s.setCall call (.pager id use .checking)) []
  | usePager {id : OrderId} (here : s.calls.get? call = some (.pager id use phase))
      (move : PagerMove s call id use phase t events) : ClientMove s (.client call) t events
  | waitOver {id : OrderId} (here : s.calls.get? call = some (.pager id .waitTimeout .waiting)) :
      ClientMove s (.waitTimeout call) (s.endCall call) [.replied call (.flag false)]
  | shutdown (unused : s.calls.get? call = none) (running : s.running = true) :
      ClientMove s (.shutdown call) ({ s with running := false }.setCall call (.shutdown .closing))
        []
  | shutdownAgain (unused : s.calls.get? call = none) (taken : s.running = false) :
      ClientMove s (.shutdown call) (s.endCall call)
        [.noticed .shutdownRepeated, .replied call (.reports [])]

inductive Transition (s : State) : Action → State → List Event → Prop where
  | worker (here : s.workers[i]? = some ⟨phase, report⟩)
      (move : WorkerMove s i report phase action t events) : Transition s action t events
  | runner (here : s.runners[i]? = some ⟨station, phase, out, calls⟩)
      (move : RunnerMove s i station out calls phase action t events) : Transition s action t events
  | client (move : ClientMove s action t events) : Transition s action t events
  | shutdown (here : s.calls.get? call = some (.shutdown phase))
      (move : ShutdownMove s call phase t events) : Transition s (.client call) t events

end Engine

end Kitchen
