import Kitchen.Error
import Kitchen.JobQueue
import Kitchen.Product
import Kitchen.Signal

namespace Kitchen.Bench

-- Queues, slots and taken jobs go by their numbers, in the order in which they came.
inductive QueueStep where
  | push (queue : Nat) (order : OrderId)
  | pop (queue : Nat)
  | drain (queue : Nat)
  | size (queue : Nat)
  | isEmpty (queue : Nat)
  | dropQueue (queue : Nat)
  | resolve (job : Nat) (result : Except StationError Product)
  | dropJob (job : Nat)
  | poll (slot : Nat)
  | dropReceiver (slot : Nat)
  | compare (a b : Nat)

inductive QueueAnswer where
  | nothing
  | slot (number : Nat)
  | job (number : Nat) (order : OrderId)
  | drained (orders : List OrderId) (jobs : Nat)
  | size (value : Nat)
  | flag (value : Bool)
  | status (value : Signal.Status (Except StationError Product))
  | compared (order : Ordering) (same : Bool)
  | noQueue
  | noJob
  | noReceiver

structure QueueBench where
  queues : List (Option (JobQueue Nat))
  slots : List (Signal (Except StationError Product))
  jobs : List (Option (Job Nat))

namespace QueueBench

def new (queues : Nat) : QueueBench := ⟨List.replicate queues (some .empty), [], []⟩

def queue? (b : QueueBench) (number : Nat) : Option (JobQueue Nat) := b.queues[number]?.join

def job? (b : QueueBench) (number : Nat) : Option (Job Nat) := b.jobs[number]?.join

def setQueue (b : QueueBench) (number : Nat) (queue : Option (JobQueue Nat)) : QueueBench :=
  { b with queues := b.queues.set number queue }

def abandon (b : QueueBench) (jobs : List (Job Nat)) : QueueBench :=
  jobs.foldl (fun b job => { b with slots := b.slots.modify job.slot Signal.dropSender }) b

def onQueue (b : QueueBench) (number : Nat)
    (use : JobQueue Nat → QueueAnswer × QueueBench) : QueueAnswer × QueueBench :=
  match b.queue? number with
  | some queue => use queue
  | none => (.noQueue, b)

def takeStep (b : QueueBench) : QueueStep → QueueAnswer × QueueBench
  | .push number order =>
    b.onQueue number fun queue =>
      let slot := b.slots.length
      (.slot slot,
        { b.setQueue number (some (queue.push order slot)) with slots := b.slots ++ [.fresh] })
  | .pop number =>
    b.onQueue number fun queue =>
      match queue.pop? with
      | none => (.nothing, b)
      | some (job, rest) =>
        (.job b.jobs.length job.order,
          { b.setQueue number (some rest) with jobs := b.jobs ++ [some job] })
  | .drain number =>
    b.onQueue number fun queue =>
      let (jobs, rest) := queue.drain
      let taken := b.jobs ++ jobs.map some
      (.drained (jobs.map (·.order)) taken.length,
        { b.setQueue number (some rest) with jobs := taken })
  | .size number => b.onQueue number fun queue => (.size queue.size, b)
  | .isEmpty number => b.onQueue number fun queue => (.flag queue.isEmpty, b)
  | .dropQueue number =>
    b.onQueue number fun queue => (.nothing, (b.abandon queue.jobs).setQueue number none)
  | .resolve number result =>
    match b.job? number with
    | none => (.noJob, b)
    | some job =>
      let b := { b with jobs := b.jobs.set number none }
      match b.slots[job.slot]? with
      | none => (.flag false, b)
      | some slot =>
        let (heard, slot) := slot.resolve result
        (.flag heard, { b with slots := b.slots.set job.slot slot })
  | .dropJob number =>
    match b.job? number with
    | none => (.nothing, b)
    | some job => (.nothing, { b.abandon [job] with jobs := b.jobs.set number none })
  | .poll number =>
    match b.slots[number]? with
    | none => (.noReceiver, b)
    | some slot =>
      if slot.heard then
        let (status, slot) := slot.take
        (.status status, { b with slots := b.slots.set number slot })
      else (.noReceiver, b)
  | .dropReceiver number =>
    (.nothing, { b with slots := b.slots.modify number Signal.dropReceiver })
  | .compare a b' =>
    match b.job? a, b.job? b' with
    | some first, some second => (.compared (first.compare second) (first.same second), b)
    | _, _ => (.noJob, b)

def run (b : QueueBench) : List QueueStep → List QueueAnswer
  | [] => []
  | step :: rest =>
    let (answer, next) := b.takeStep step
    answer :: next.run rest

end QueueBench

end Kitchen.Bench
