import Kitchen.JobQueue

namespace Kitchen

-- Queued, dispatched, then ready or failed; ready ends as picked up or expired.
inductive OrderState where
  | queued
  | dispatched
  | ready
  | failed
  | pickedUp
  | expired
deriving DecidableEq, Repr

namespace OrderState

def isCollectible : OrderState → Bool
  | .ready | .failed | .expired => true
  | _ => false

def name : OrderState → String
  | .queued => "queued"
  | .dispatched => "dispatched"
  | .ready => "ready"
  | .failed => "failed"
  | .pickedUp => "picked_up"
  | .expired => "expired"

def all : List OrderState := [.queued, .dispatched, .ready, .failed, .pickedUp, .expired]

def ofName? (text : String) : Option OrderState := all.find? (·.name = text)

end OrderState

inductive Readiness where
  | ready
  | malfunction
deriving DecidableEq, Repr

namespace Readiness

def name : Readiness → String
  | .ready => "ready"
  | .malfunction => "malfunction"

def display : Readiness → String
  | .ready => "READY"
  | .malfunction => "MACHINE MALFUNCTION"

def ofName? (text : String) : Option Readiness := [ready, malfunction].find? (·.name = text)

end Readiness

structure Order where
  id : OrderId
  products : List String
deriving DecidableEq, Repr

end Kitchen
