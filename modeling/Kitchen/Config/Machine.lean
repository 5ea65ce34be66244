namespace Kitchen.Config

-- What loading leaves to the machine it runs on: in which order the map at a place is walked, and
-- how many items an array can have.
structure Machine where
  rank : List String → String → Nat
  room : Nat

namespace Machine

def before (m : Machine) (place : List String) (a b : String) : Bool :=
  m.rank place a < m.rank place b || (m.rank place a = m.rank place b && a ≤ b)

def walk {α : Type} (m : Machine) (place : List String) (entries : List (String × α)) :
    List (String × α) :=
  entries.mergeSort fun a b => m.before place a.1 b.1

-- Shorter keys come first, in maps of every place.
def plain : Machine := ⟨fun _ key => key.length, 16777216⟩

end Machine

end Kitchen.Config
