namespace Kitchen

def total : List Nat → Nat
  | [] => 0
  | n :: rest => n + total rest

end Kitchen
