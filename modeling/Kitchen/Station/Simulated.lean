import Kitchen.Error
import Kitchen.Product
import Kitchen.Text.Span

namespace Kitchen

structure Simulated (κ : Type) where
  kind : κ
  delay : Span
  -- From this attempt on, counted from zero, every attempt fails.
  failOnAttempt : Option Nat
  attempts : Nat
  produced : Nat
  returned : Nat
  rejected : Nat
  started : Bool
  stopped : Bool
deriving DecidableEq, Repr

abbrev SimulatedStation := Simulated Product.Kind

namespace Simulated

variable {κ π : Type} [Goods κ π]

def new (kind : κ) (delay : Span) (failOnAttempt : Option Nat) : Simulated κ :=
  ⟨kind, delay, failOnAttempt, 0, 0, 0, 0, false, false⟩

-- An attempt begins; it has the number of attempts before it.
def beginAttempt (s : Simulated κ) : Nat × Simulated κ :=
  (s.attempts, { s with attempts := s.attempts + 1 })

def failsOn (s : Simulated κ) (attempt : Nat) : Bool :=
  match s.failOnAttempt with
  | some first => first ≤ attempt
  | none => false

def breakdown (s : Simulated κ) (attempt : Nat) : StationError :=
  .failure s!"{Goods.typeName s.kind} station broke down on attempt {attempt}"

def endAttempt (s : Simulated κ) (attempt : Nat) : Except StationError π × Simulated κ :=
  if s.failsOn attempt then (.error (s.breakdown attempt), s)
  else (.ok (Goods.make s.kind attempt), { s with produced := s.produced + 1 })

def produce (s : Simulated κ) : Except StationError π × Simulated κ :=
  let (attempt, begun) := s.beginAttempt
  begun.endAttempt attempt

def acceptReturn (s : Simulated κ) (product : π) : Except StationError Unit × Simulated κ :=
  if Goods.isKind product s.kind then (.ok (), { s with returned := s.returned + 1 })
  else (.error (.invalidProduct (Goods.typeName s.kind)), { s with rejected := s.rejected + 1 })

def start (s : Simulated κ) : Simulated κ := { s with started := true }

def stop (s : Simulated κ) : Simulated κ := { s with stopped := true }

def describe (s : Simulated κ) : String :=
  let limit := match s.failOnAttempt with
    | some first => s!"Some({first})"
    | none => "None"
  "SimulatedStation \x7b type_name: \"" ++ Goods.typeName s.kind ++ "\", delay: " ++ s.delay.text ++
    ", fail_on_attempt: " ++ limit ++ ", attempts: " ++ toString s.attempts ++ ", returned: " ++
    toString s.returned ++ " \x7d"

end Simulated

end Kitchen
