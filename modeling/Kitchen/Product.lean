namespace Kitchen

-- Kinds of things that a station can be built to make: the name of each kind, what the attempts at it
-- make, and which things are of it.
class Goods (κ : Type) (π : outParam Type) where
  typeName : κ → String
  make : κ → Nat → π
  isKind : π → κ → Bool
  isKind_make (kind : κ) (attempt : Nat) : isKind (make kind attempt) kind = true
  -- A thing is of one kind at most.
  isKind_unique {thing : π} {a b : κ} : isKind thing a = true → isKind thing b = true → a = b

inductive Product where
  | burger
  | fries
  | applePie
  | ticket (serial : Nat)
  | foreign (text : String)
deriving DecidableEq, Repr

inductive Product.Kind where
  | burger
  | fries
  | applePie
  | ticket
deriving DecidableEq, Repr

namespace Product

def isKind : Product → Kind → Bool
  | .burger, .burger => true
  | .fries, .fries => true
  | .applePie, .applePie => true
  | .ticket _, .ticket => true
  | _, _ => false

def serial? : Product → Option Nat
  | .ticket serial => some serial
  | _ => none

namespace Kind

def make (kind : Kind) (attempt : Nat) : Product :=
  match kind with
  | .burger => .burger
  | .fries => .fries
  | .applePie => .applePie
  | .ticket => .ticket attempt

def typeName : Kind → String
  | .burger => "cyrk_core::test_utils::Burger"
  | .fries => "cyrk_core::test_utils::Fries"
  | .applePie => "cyrk_core::test_utils::ApplePie"
  | .ticket => "Ticket"

end Kind

theorem isKind_make (kind : Kind) (attempt : Nat) : (kind.make attempt).isKind kind = true := by
  cases kind <;> rfl

theorem isKind_unique {product : Product} {a b : Kind} (one : product.isKind a = true)
    (two : product.isKind b = true) : a = b := by
  revert one two
  cases product <;> cases a <;> cases b <;> simp [isKind]

instance : Goods Kind Product where
  typeName := Kind.typeName
  make := Kind.make
  isKind := isKind
  isKind_make := isKind_make
  isKind_unique := isKind_unique

end Product

end Kitchen
