import Kitchen.Channel

namespace Kitchen.Bench

-- Signals go by their numbers, in the order in which they were made.
inductive SignalStep (α : Type) where
  | new
  | resolve (signal : Nat) (value : α)
  | dropSender (signal : Nat)
  | dropReceiver (signal : Nat)
  | tryTake (signal : Nat)
  | waitTimeout (signal : Nat)
  | wait (signal : Nat)
  | spawnWait (signal : Nat)
  | join (signal : Nat)
deriving Repr

inductive SignalAnswer (α : Type) where
  | signal (number : Nat)
  | nothing
  | heard (value : Bool)
  | status (value : Signal.Status α)
  | waited (value : Option α)
  | noSender
  | noReceiver
  | noThread
  | wouldBlock
  | noSignal
deriving Repr

inductive Waiter (α : Type) where
  | absent
  | waiting
  | ended (value : Option α)
deriving Repr

structure Line (α : Type) where
  signal : Oneshot α
  waiter : Waiter α
deriving Repr

namespace Line

variable {α : Type}

def settle (l : Line α) : Line α :=
  match l.waiter, l.signal.wait? with
  | .waiting, some (value, signal) => ⟨signal, .ended value⟩
  | _, _ => l

def takeStep (l : Line α) : SignalStep α → SignalAnswer α × Line α
  | .new => (.nothing, l)
  | .resolve _ value =>
    if l.signal.unused then
      match l.signal.resolve? value with
      | some (heard, signal) => (.heard heard, { l with signal }.settle)
      | none => (.wouldBlock, l)
    else (.noSender, l)
  | .dropSender _ => (.nothing, { l with signal := l.signal.dropSender }.settle)
  | .dropReceiver _ => (.nothing, { l with signal := l.signal.dropReceiver })
  | .tryTake _ | .waitTimeout _ =>
    if l.signal.channel.receiver then
      let (status, signal) := l.signal.take
      (.status status, { l with signal })
    else (.noReceiver, l)
  | .wait _ =>
    if l.signal.channel.receiver then
      match l.signal.wait? with
      | some (value, signal) => (.waited value, { l with signal })
      | none => (.wouldBlock, l)
    else (.noReceiver, l)
  | .spawnWait _ =>
    if l.signal.channel.receiver then (.nothing, { l with waiter := .waiting }.settle)
    else (.noReceiver, l)
  | .join _ =>
    if l.signal.channel.receiver then
      match l.waiter with
      | .absent => (.noThread, l)
      | .waiting => (.wouldBlock, l)
      | .ended value => (.waited value, { l with waiter := .absent })
    else (.noReceiver, l)

end Line

def SignalStep.signal? {α : Type} : SignalStep α → Option Nat
  | .new => none
  | .resolve signal _ | .dropSender signal | .dropReceiver signal | .tryTake signal
  | .waitTimeout signal | .wait signal | .spawnWait signal | .join signal => some signal

def stepSignals {α : Type} (lines : List (Line α)) (step : SignalStep α) :
    SignalAnswer α × List (Line α) :=
  match step.signal? with
  | none => (.signal lines.length, lines ++ [⟨.fresh, .absent⟩])
  | some number =>
    match lines[number]? with
    | none => (.noSignal, lines)
    | some line =>
      let (answer, line) := line.takeStep step
      (answer, lines.set number line)

def runSignals {α : Type} (lines : List (Line α)) : List (SignalStep α) → List (SignalAnswer α)
  | [] => []
  | step :: rest =>
    let (answer, next) := stepSignals lines step
    answer :: runSignals next rest

end Kitchen.Bench
