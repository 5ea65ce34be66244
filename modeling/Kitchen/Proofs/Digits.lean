import Kitchen.Config.Environment
import Kitchen.Json.Reader

namespace Kitchen

variable {text : List Char} {c : Char}

theorem ofDigits_toDigits (n : Nat) : ofDigits (Nat.toDigits 10 n) = n :=
  Nat.ofDigitChars_toDigits (by decide) (by decide)

theorem isDigit_toDigits (n : Nat) : ∀ c ∈ Nat.toDigits 10 n, c.isDigit = true :=
  fun _ there => Nat.isDigit_of_mem_toDigits (by decide) (by decide) there

theorem toDigits_ne_nil (n : Nat) : Nat.toDigits 10 n ≠ [] :=
  List.ne_nil_of_length_pos Nat.length_toDigits_pos

-- Only zero is written with a zero in front.
theorem toDigits_zero_first {n : Nat} {rest : List Char} (first : Nat.toDigits 10 n = '0' :: rest) :
    n = 0 := by
  induction n using Nat.strongRecOn generalizing rest with
  | ind n ih =>
    by_cases small : n < 10
    · rw [Nat.toDigits_of_lt_base small] at first
      have digit : n.digitChar = '0' := (List.cons.inj first).1
      have only : ∀ n < 10, n.digitChar = '0' → n = 0 := by decide
      exact only n small digit
    · rw [Nat.toDigits_of_base_le (by decide) (by omega)] at first
      cases more : Nat.toDigits 10 (n / 10) with
      | nil => exact absurd more (toDigits_ne_nil _)
      | cons c others =>
        rw [more] at first
        obtain rfl : c = '0' := (List.cons.inj first).1
        have := ih (n / 10) (by omega) more
        omega

namespace Number

end Number

namespace Config.Variables

end Config.Variables

end Kitchen
