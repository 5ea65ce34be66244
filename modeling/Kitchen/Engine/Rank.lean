import Kitchen.Engine.State
import Kitchen.Number.Total

-- How much a kitchen still has to do by itself: a number that every step of a worker, a runner, a
-- station or a call under way lowers, so that between two client calls only so many steps follow.

namespace Kitchen.Engine

namespace RunnerPhase

def rank : RunnerPhase → Nat
  | .starting => 3
  | .idle => 2
  | .asleep notified => if notified then 2 else 1
  | .serving _ => 7
  | .producing _ => 6
  | .holding _ _ => 3
  | .failing _ _ => 5
  | .sweeping jobs _ => 3 + jobs.length
  | .finished | .dead => 0

end RunnerPhase

-- The weight of a job in a queue, more than what serving it costs.
def jobRank : Nat := 6

namespace WorkerPhase

def claimedRank (products : Nat) : Nat := 7 + products * (jobRank + 4)

def rank : WorkerPhase → Nat
  | .starting => 3
  | .free => 2
  | .asleep notified => if notified then 2 else 1
  | .claimed order => claimedRank order.products.length
  | .awaiting order made failed =>
    6 + 2 * order.products.length + (order.products.length - (made.length + failed))
  | .holding _ made notified => 5 + 2 * made.length + if notified then 1 else 0
  | .returning _ _ rest => 3 + 2 * rest.length
  | .handingBack _ _ _ _ rest => 4 + 2 * rest.length
  | .delivering _ _ => 3
  | .finished | .dead => 0

end WorkerPhase

def Call.rank (workers runners : Nat) : Call → Nat
  | .collecting _ => 1
  | .pager _ _ phase =>
    match phase with
    | .checking => 5
    | .polling => 4
    | .waiting => 3
    | .noting _ => 2
    | .reading => 1
  | .shutdown phase =>
    match phase with
    | .closing => 8 + 2 * workers + 4 * runners
    | .wakingWorkers => 7 + 2 * workers + 4 * runners
    | .wakingStations => 6 + workers + 4 * runners
    | .joiningWorkers reports => 5 + (workers - reports.length) + 3 * runners
    | .releasing _ => 4 + 3 * runners
    | .wakingReleased _ => 3 + 3 * runners
    | .joiningRunners _ done => 2 + runners + (runners - done)
    | .stopping _ done => 1 + (runners - done)

namespace State

def rank (s : State) : Nat :=
  total (s.board.unassigned.map fun order => WorkerPhase.claimedRank order.products.length)
    + total (s.board.queues.entries.map fun (_, queue) => queue.size * jobRank)
    + total (s.workers.map fun worker => worker.phase.rank)
    + total (s.runners.map fun runner => runner.phase.rank)
    + total (s.calls.entries.map fun (_, call) => call.rank s.workers.length s.runners.length)

end State

end Kitchen.Engine
