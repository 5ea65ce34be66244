import Kitchen.Json.Datum
import Kitchen.Proofs.Digits
import Mathlib.Data.List.Nodup
import Mathlib.Data.List.Perm.Basic

namespace Kitchen.Json

variable {text rest tail : List Char} {c : Char}

-- The value has a text: no half of a surrogate pair is in it, and a number without an exponent is
-- an integer.
mutual

def Sound : Json → Prop
  | .num n => n.plain = true → n.exponent = 0
  | .arr items => SoundItems items
  | .obj members => SoundMembers members
  | .broken => False
  | _ => True

def SoundItems : List Json → Prop
  | [] => True
  | item :: rest => item.Sound ∧ SoundItems rest

def SoundMembers : List (String × Json) → Prop
  | [] => True
  | (_, value) :: rest => value.Sound ∧ SoundMembers rest

end

theorem number?_hexDigits {n : Nat} (small : n < 0x20) :
    Radix.number? 16 ['0', '0', hexDigit (n / 16), hexDigit (n % 16)] = some n := by
  revert n
  decide

-- A character is written by a mark and a letter, by its number, or as it is.
theorem escape_cases (c : Char) :
    (∃ letter, escape c = ['\\', letter] ∧ letter ≠ 'u' ∧ shortEscape? letter = some c) ∨
      (c.toNat < 0x20 ∧
        escape c = ['\\', 'u', '0', '0', hexDigit (c.toNat / 16), hexDigit (c.toNat % 16)]) ∨
      (escape c = [c] ∧ c ≠ '"' ∧ c ≠ '\\' ∧ ¬c.toNat < 0x20) := by
  unfold escape
  by_cases short : c ∈ ['"', '\\', '\x08', '\x0c', '\n', '\r', '\t']
  · left
    simp only [List.mem_cons, List.not_mem_nil, or_false] at short
    rcases short with rfl | rfl | rfl | rfl | rfl | rfl | rfl <;> exact ⟨_, rfl, by decide, rfl⟩
  · right
    simp only [List.mem_cons, List.not_mem_nil, or_false, not_or] at short
    obtain ⟨quote, mark, back, form, line, turn, tab⟩ := short
    rw [if_neg quote, if_neg mark, if_neg back, if_neg form, if_neg line, if_neg turn, if_neg tab]
    by_cases control : c.toNat < 0x20
    · exact .inl ⟨control, if_pos control⟩
    · exact .inr ⟨if_neg control, quote, mark, control⟩

-- What a written character is read as.
inductive Reads (c : Char) : Unit → Prop where
  | char : Reads c (.char c)
  | code (control : c.toNat < 0x20) : Reads c (.code c.toNat)

theorem readUnits_escape (c : Char) (rest : List Char) :
    ∃ unit, Reads c unit ∧ readUnits (escape c ++ rest) =
      (readUnits rest).map fun (units, rest) => (unit :: units, rest) := by
  rcases escape_cases c with ⟨letter, written, other, short⟩ | ⟨control, written⟩ |
    ⟨written, quote, mark, shown⟩
  · refine ⟨.char c, .char, ?_⟩
    rw [written]
    simp [readUnits, other, short]
  · refine ⟨.code c.toNat, .code control, ?_⟩
    rw [written]
    simp [readUnits, number?_hexDigits control]
  · refine ⟨.char c, .char, ?_⟩
    rw [written]
    simp [readUnits, mark, shown]

theorem joinUnits_cons {unit : Unit} (reads : Reads c unit) (units : List Unit) :
    joinUnits (unit :: units) = (joinUnits units).map (c :: ·) := by
  cases reads with
  | char => rfl
  | code control =>
    have high : isHighHalf c.toNat = false := by simp [isHighHalf]; omega
    have low : isLowHalf c.toNat = false := by simp [isLowHalf]; omega
    cases units with
    | nil => simp [joinUnits, high, low]
    | cons next units => cases next <;> simp [joinUnits, high, low]

theorem readUnits_text (text rest : List Char) :
    ∃ units, readUnits (text.flatMap escape ++ '"' :: rest) = some (units, rest) ∧
      joinUnits units = some text := by
  induction text with
  | nil => exact ⟨[], rfl, rfl⟩
  | cons c text ih =>
    obtain ⟨units, read, joined⟩ := ih
    obtain ⟨unit, reads, first⟩ := readUnits_escape c (text.flatMap escape ++ '"' :: rest)
    refine ⟨unit :: units, ?_, ?_⟩
    · rw [List.flatMap_cons, List.append_assoc, first, read]
      rfl
    · rw [joinUnits_cons reads, joined]
      rfl

theorem readString_quote (text : String) (rest : List Char) :
    readString (text.toList.flatMap escape ++ '"' :: rest) = some (some text, rest) := by
  obtain ⟨units, read, joined⟩ := readUnits_text text.toList rest
  simp [readString, read, joined]

-- The text goes on with nothing that would belong to a number.
def Ends (rest : List Char) : Prop :=
  ∀ c ∈ rest.head?, c.isDigit = false ∧ c ≠ '.' ∧ c ≠ 'e' ∧ c ≠ 'E'

theorem takeDigits_append {digits : List Char} (all : ∀ c ∈ digits, c.isDigit = true)
    (stop : ∀ c ∈ rest.head?, c.isDigit = false) : takeDigits (digits ++ rest) = (digits, rest) := by
  have none : rest.takeWhile Char.isDigit = [] ∧ rest.dropWhile Char.isDigit = rest := by
    cases rest with
    | nil => exact ⟨rfl, rfl⟩
    | cons c others => simp [stop c rfl]
  rw [takeDigits, List.takeWhile_append_of_pos all, List.dropWhile_append_of_pos all, none.1, none.2,
    List.append_nil]

theorem readWhole_toDigits (n : Nat) (stop : ∀ c ∈ rest.head?, c.isDigit = false) :
    readWhole (Nat.toDigits 10 n ++ rest) = some (Nat.toDigits 10 n, rest) := by
  unfold readWhole
  rw [takeDigits_append (isDigit_toDigits n) stop]
  split
  next same => exact absurd (Prod.mk.inj same).1 (toDigits_ne_nil n)
  next same =>
    obtain ⟨digits, rfl⟩ := Prod.mk.inj same
    rw [digits]
  next other same =>
    obtain ⟨digits, rfl⟩ := Prod.mk.inj same
    have zero := toDigits_zero_first digits
    subst zero
    cases digits
    exact absurd rfl (by assumption)
  · rfl

theorem readFraction_none (stop : ∀ c ∈ rest.head?, c ≠ '.') :
    readFraction rest = some (none, rest) := by
  unfold readFraction
  split
  next same => exact absurd rfl (stop _ (by simp))
  · rfl

theorem readExponent_none (stop : ∀ c ∈ rest.head?, c ≠ 'e' ∧ c ≠ 'E') :
    readExponent rest = some (none, rest) := by
  cases rest with
  | nil => rfl
  | cons c others =>
    obtain ⟨small, capital⟩ := stop c rfl
    simp [readExponent, small, capital]

theorem readSign_digits {digits : List Char} (all : ∀ c ∈ digits, c.isDigit = true)
    (some : digits ≠ []) : readSign (digits ++ rest) = (false, digits ++ rest) := by
  cases digits with
  | nil => exact absurd rfl some
  | cons c others =>
    have digit := all c List.mem_cons_self
    unfold readSign
    split
    next same =>
      cases same
      exact absurd digit (by decide)
    next same =>
      cases same
      exact absurd digit (by decide)
    · rfl

theorem readExponent_digits {signed : List Char} {negative : Bool} {n : Nat}
    (sign : readSign signed = (negative, Nat.toDigits 10 n ++ rest))
    (stop : ∀ c ∈ rest.head?, c.isDigit = false) :
    readExponent ('e' :: signed) = some (some (if negative then -(n : Int) else n), rest) := by
  have digits := takeDigits_append (isDigit_toDigits n) stop
  rw [readExponent, if_pos (by decide), sign]
  dsimp only
  rw [digits]
  split
  next same => exact absurd (Prod.mk.inj same).1 (toDigits_ne_nil n)
  next same =>
    obtain ⟨rfl, rfl⟩ := Prod.mk.inj same
    rw [ofDigits_toDigits]

theorem readExponent_some (e : Int) (stop : ∀ c ∈ rest.head?, c.isDigit = false) :
    readExponent ('e' :: ((toString e).toList ++ rest)) = some (some e, rest) := by
  cases e with
  | ofNat n =>
    have written : (toString (Int.ofNat n)).toList = Nat.toDigits 10 n := Nat.toList_repr
    rw [written]
    exact readExponent_digits (readSign_digits (isDigit_toDigits n) (toDigits_ne_nil n)) stop
  | negSucc n =>
    have written : (toString (Int.negSucc n)).toList = '-' :: Nat.toDigits 10 (n + 1) := by
      rw [Int.toString_eq_repr, Int.repr, String.toList_append, Nat.toList_repr]
      rfl
    have sign : readSign ('-' :: (Nat.toDigits 10 (n + 1) ++ rest)) =
        (true, Nat.toDigits 10 (n + 1) ++ rest) := rfl
    rw [written]
    exact readExponent_digits sign stop

theorem readNumeral_digits (negative : Bool) (n : Nat) (ends : Ends rest) :
    readNumeral negative (Nat.toDigits 10 n ++ rest) = some (⟨negative, n, 0, true⟩, rest) := by
  have whole := readWhole_toDigits n fun c first => (ends c first).1
  have fraction := readFraction_none fun c first => (ends c first).2.1
  have exponent := readExponent_none fun c first => (ends c first).2.2
  simp [readNumeral, whole, fraction, exponent, ofDigits_toDigits]

theorem readNumeral_exponent (negative : Bool) (n : Nat) (e : Int) (ends : Ends rest) :
    readNumeral negative (Nat.toDigits 10 n ++ 'e' :: ((toString e).toList ++ rest)) =
      some (⟨negative, n, e, false⟩, rest) := by
  have whole : readWhole (Nat.toDigits 10 n ++ 'e' :: ((toString e).toList ++ rest)) =
      some (Nat.toDigits 10 n, 'e' :: ((toString e).toList ++ rest)) :=
    readWhole_toDigits n (by simp)
  have fraction : readFraction ('e' :: ((toString e).toList ++ rest)) =
      some (none, 'e' :: ((toString e).toList ++ rest)) :=
    readFraction_none (by simp)
  have exponent := readExponent_some e fun c first => (ends c first).1
  simp only [readNumeral, whole, fraction, exponent, Option.bind_eq_bind, Option.bind_some,
    Option.getD_none, Option.getD_some, List.append_nil, ofDigits_toDigits]
  simp

theorem writeNumeral_eq (n : Numeral) : writeNumeral n =
    (if n.negative then ['-'] else []) ++ (Nat.toDigits 10 n.digits ++
      if n.plain then [] else 'e' :: (toString n.exponent).toList) := by
  rw [writeNumeral, Nat.toString_eq_repr, Nat.toList_repr]
  cases n.negative <;> cases n.plain <;> simp

def Opens (c : Char) : Prop := c.isDigit = true ∨ c ∈ ['"', '[', '{', '-', 't', 'f', 'n']

theorem write_first (value : Json) : ∃ c rest, value.write = c :: rest ∧ Opens c := by
  cases value with
  | bool flag => cases flag <;> exact ⟨_, _, rfl, .inr (by decide)⟩
  | num n =>
    rw [write, writeNumeral_eq]
    cases n.negative with
    | true => exact ⟨_, _, rfl, .inr (by decide)⟩
    | false =>
      cases digits : Nat.toDigits 10 n.digits with
      | nil => exact absurd digits (toDigits_ne_nil _)
      | cons c others =>
        exact ⟨c, _, rfl, .inl (isDigit_toDigits n.digits c (by simp [digits]))⟩
  | null | str | arr | obj | broken => exact ⟨_, _, rfl, .inr (by decide)⟩

theorem skipSpace_first (space : isSpace c = false) (rest : List Char) :
    skipSpace (c :: rest) = c :: rest := by
  simp [skipSpace, space]

theorem Opens.not_space (opens : Opens c) : isSpace c = false := by
  rcases opens with digit | mark
  · refine Bool.eq_false_iff.mpr fun space => ?_
    simp only [isSpace, Bool.or_eq_true, decide_eq_true_eq] at space
    rcases space with ((rfl | rfl) | rfl) | rfl <;> exact absurd digit (by decide)
  · simp only [List.mem_cons, List.not_mem_nil, or_false] at mark
    rcases mark with rfl | rfl | rfl | rfl | rfl | rfl | rfl <;> decide

theorem readValue_minus (fuel : Nat) (rest : List Char) :
    readValue (fuel + 1) ('-' :: rest) =
      (readNumeral true rest).map fun (n, rest) => (.num n, rest) := rfl

theorem readValue_mark (fuel : Nat) (rest : List Char) :
    readValue (fuel + 1) ('"' :: rest) = (readString rest).map fun (value, rest) =>
      (match value with
        | some value => .str value
        | none => .broken, rest) := rfl

theorem readValue_bracket (fuel : Nat) (rest : List Char) :
    readValue (fuel + 1) ('[' :: rest) =
      match skipSpace rest with
      | ']' :: rest => some (.arr [], rest)
      | rest => (readItems fuel rest).map fun (items, rest) => (.arr items, rest) := rfl

theorem readValue_brace (fuel : Nat) (rest : List Char) :
    readValue (fuel + 1) ('\x7b' :: rest) =
      match skipSpace rest with
      | '\x7d' :: rest => some (.obj [], rest)
      | rest => (readMembers fuel rest).map fun (members, rest) => (ofMembers members, rest) := rfl

theorem readValue_digit {fuel : Nat} (digit : c.isDigit = true) (rest : List Char) :
    readValue (fuel + 1) (c :: rest) =
      (readNumeral false (c :: rest)).map fun (n, rest) => (.num n, rest) := by
  have plain : Opens c := .inl digit
  rw [readValue, skipSpace_first plain.not_space]
  split
  all_goals
    rename_i same
    cases same
  all_goals first | exact absurd digit (by decide) | rw [if_pos digit]

theorem readNumeral_write (n : Numeral) (sound : (Json.num n).Sound) (ends : Ends rest) :
    readNumeral n.negative ((Nat.toDigits 10 n.digits ++
      if n.plain then [] else 'e' :: (toString n.exponent).toList) ++ rest) = some (n, rest) := by
  obtain ⟨negative, digits, exponent, plain⟩ := n
  cases plain with
  | true =>
    have none : exponent = 0 := sound rfl
    subst none
    simpa using readNumeral_digits negative digits ends
  | false =>
    have read := readNumeral_exponent negative digits exponent ends
    simpa only [Bool.false_eq_true, if_false, List.append_assoc, List.cons_append] using read

theorem readValue_numeral {fuel : Nat} (n : Numeral) (sound : (Json.num n).Sound)
    (ends : Ends rest) :
    readValue (fuel + 1) (writeNumeral n ++ rest) = some (.num n, rest) := by
  have read := readNumeral_write n sound ends
  rw [writeNumeral_eq, List.append_assoc]
  cases negative : n.negative with
  | true =>
    rw [negative] at read
    rw [if_pos rfl, List.cons_append, List.nil_append, readValue_minus, read]
    rfl
  | false =>
    rw [negative] at read
    rw [if_neg Bool.false_ne_true, List.nil_append]
    cases digits : Nat.toDigits 10 n.digits with
    | nil => exact absurd digits (toDigits_ne_nil _)
    | cons c others =>
      have digit := isDigit_toDigits n.digits c (by simp [digits])
      rw [digits] at read
      rw [List.cons_append, List.cons_append, readValue_digit digit]
      rw [List.cons_append, List.cons_append] at read
      rw [read]
      rfl

theorem readValue_string {fuel : Nat} (text : String) (rest : List Char) :
    readValue (fuel + 1) (quote text.toList ++ rest) = some (.str text, rest) := by
  rw [quote, List.cons_append, List.append_assoc, List.singleton_append, readValue_mark,
    readString_quote]
  rfl

-- How deep the recursion goes that reads a value.
mutual

def cost : Json → Nat
  | .arr items => costItems items + 1
  | .obj members => costMembers members + 1
  | _ => 1

def costItems : List Json → Nat
  | [] => 0
  | item :: rest => max item.cost (costItems rest) + 1

def costMembers : List (String × Json) → Nat
  | [] => 0
  | (_, value) :: rest => max value.cost (costMembers rest) + 1

end

-- Members as they are read, each key from its text.
def keyed (members : List (String × Json)) : List (Option String × Json) :=
  members.map fun member => (some member.1, member.2)

-- Each function reads what its counterpart wrote, with fuel enough.
structure Faithful (fuel : Nat) : Prop where
  value : ∀ (v : Json) rest, v.Sound → v.cost ≤ fuel → Ends rest →
    readValue fuel (v.write ++ rest) = some (v, rest)
  items : ∀ items rest, items ≠ [] → SoundItems items → costItems items ≤ fuel →
    readItems fuel (writeItems items ++ ']' :: rest) = some (items, rest)
  members : ∀ members rest, members ≠ [] → SoundMembers members → costMembers members ≤ fuel →
    readMembers fuel (writeMembers members ++ '\x7d' :: rest) =
      some (keyed members, rest)

theorem Opens.not_close (opens : Opens c) : c ≠ ']' ∧ c ≠ '\x7d' := by
  refine ⟨?_, ?_⟩ <;> rintro rfl <;> rcases opens with digit | mark
  all_goals first | exact absurd digit (by decide) | exact absurd mark (by decide)

theorem writeItems_first {items : List Json} (some : items ≠ []) (rest : List Char) :
    ∃ c others, writeItems items ++ rest = c :: others ∧ Opens c := by
  rcases items with _ | ⟨item, _ | ⟨next, items⟩⟩
  · exact absurd rfl some
  all_goals
    obtain ⟨c, others, written, opens⟩ := write_first item
    simp only [writeItems, written]
    exact ⟨c, _, rfl, opens⟩

theorem writeMembers_first {members : List (String × Json)} (some : members ≠ [])
    (rest : List Char) : ∃ others, writeMembers members ++ rest = '"' :: others := by
  rcases members with _ | ⟨⟨key, value⟩, _ | ⟨next, members⟩⟩
  · exact absurd rfl some
  all_goals exact ⟨_, rfl⟩

theorem mapM_keyed {read : Option String × Json → Option (String × Json)}
    (reads : ∀ key value, read (some key, value) = some (key, value))
    (members : List (String × Json)) : (keyed members).mapM read = some members := by
  induction members with
  | nil => rfl
  | cons first rest ih =>
    have split : keyed (first :: rest) = (some first.1, first.2) :: keyed rest := rfl
    rw [split, List.mapM_cons, reads, ih]
    rfl

theorem ofMembers_keyed (members : List (String × Json)) :
    ofMembers (keyed members) = .obj members := by
  rw [ofMembers, mapM_keyed fun _ _ => rfl]

theorem readValue_items {fuel : Nat} {items : List Json} (some : items ≠ [])
    (read : readItems fuel (writeItems items ++ ']' :: rest) = Option.some (items, rest)) :
    readValue (fuel + 1) ((Json.arr items).write ++ rest) = Option.some (.arr items, rest) := by
  obtain ⟨c, others, written, opens⟩ := writeItems_first some (']' :: rest)
  rw [write, List.cons_append, List.append_assoc, List.singleton_append, readValue_bracket]
  rw [written] at read ⊢
  rw [skipSpace_first opens.not_space]
  split
  next same =>
    cases same
    exact absurd rfl opens.not_close.1
  · rw [read]
    rfl

theorem readValue_members {fuel : Nat} {members : List (String × Json)} (some : members ≠ [])
    (read : readMembers fuel (writeMembers members ++ '\x7d' :: rest) =
      Option.some (keyed members, rest)) :
    readValue (fuel + 1) ((Json.obj members).write ++ rest) = Option.some (.obj members, rest) := by
  obtain ⟨others, written⟩ := writeMembers_first some ('\x7d' :: rest)
  rw [write, List.cons_append, List.append_assoc, List.singleton_append, readValue_brace]
  rw [written] at read ⊢
  rw [skipSpace_first (by decide)]
  split
  next same => cases same
  · rw [read, Option.map_some]
    dsimp only
    rw [ofMembers_keyed]

theorem Faithful.readValue {fuel : Nat} (faithful : Faithful fuel) (v : Json) (rest : List Char)
    (sound : v.Sound) (enough : v.cost ≤ fuel + 1) (ends : Ends rest) :
    Json.readValue (fuel + 1) (v.write ++ rest) = some (v, rest) := by
  cases v with
  | null => rfl
  | bool flag => cases flag <;> rfl
  | num n => exact readValue_numeral n sound ends
  | str text => exact readValue_string text rest
  | arr items =>
    by_cases none : items = []
    · subst none
      rfl
    · exact readValue_items none
        (faithful.items items rest none sound (Nat.le_of_succ_le_succ enough))
  | obj members =>
    by_cases none : members = []
    · subst none
      rfl
    · exact readValue_members none
        (faithful.members members rest none sound (Nat.le_of_succ_le_succ enough))
  | broken => exact sound.elim

-- What follows a value inside of another ends it.
theorem ends_mark (mark : c ∈ [',', ']', '\x7d']) (rest : List Char) : Ends (c :: rest) := by
  intro first same
  cases same
  simp only [List.mem_cons, List.not_mem_nil, or_false] at mark
  rcases mark with rfl | rfl | rfl <;> decide

section Inside

variable {fuel : Nat} {body : List Char} {value : Json} {key : String}

theorem readItems_last (read : readValue fuel text = some (value, ']' :: rest)) :
    readItems (fuel + 1) text = some ([value], rest) := by
  rw [readItems, read]
  rfl

theorem readItems_more (read : readValue fuel text = some (value, ',' :: rest)) :
    readItems (fuel + 1) text =
      (readItems fuel rest).map fun (items, rest) => (value :: items, rest) := by
  rw [readItems, read]
  rfl

theorem readMembers_mark (fuel : Nat) (key : String) (body : List Char) :
    readMembers (fuel + 1) (quote key.toList ++ ':' :: body) =
      match readValue fuel body with
      | none => none
      | some (value, rest) =>
        match skipSpace rest with
        | '\x7d' :: rest => some ([(some key, value)], rest)
        | ',' :: rest =>
          (readMembers fuel rest).map fun (members, rest) => ((some key, value) :: members, rest)
        | _ => none := by
  have read := readString_quote key (':' :: body)
  rw [quote, List.cons_append, List.append_assoc, List.singleton_append, readMembers,
    skipSpace_first (by decide)]
  simp only [read]
  rfl

theorem readMembers_last (read : readValue fuel body = some (value, '\x7d' :: rest)) :
    readMembers (fuel + 1) (quote key.toList ++ ':' :: body) =
      some ([(some key, value)], rest) := by
  rw [readMembers_mark, read]
  rfl

theorem readMembers_more (read : readValue fuel body = some (value, ',' :: rest)) :
    readMembers (fuel + 1) (quote key.toList ++ ':' :: body) =
      (readMembers fuel rest).map fun (members, rest) => ((some key, value) :: members, rest) := by
  rw [readMembers_mark, read]
  rfl

end Inside

theorem Faithful.readItems {fuel : Nat} (faithful : Faithful fuel) (items : List Json)
    (rest : List Char) (some : items ≠ []) (sound : SoundItems items)
    (enough : costItems items ≤ fuel + 1) :
    Json.readItems (fuel + 1) (writeItems items ++ ']' :: rest) = Option.some (items, rest) := by
  rcases items with _ | ⟨item, _ | ⟨next, items⟩⟩
  · exact absurd rfl some
  · rw [costItems] at enough
    exact readItems_last
      (faithful.value item _ sound.1 (by omega) (ends_mark (by decide) rest))
  · rw [costItems] at enough
    have read := faithful.value item (',' :: (writeItems (next :: items) ++ ']' :: rest)) sound.1
      (by omega) (ends_mark (by decide) _)
    have later := faithful.items (next :: items) rest (List.cons_ne_nil _ _) sound.2 (by omega)
    have written : writeItems (item :: next :: items) ++ ']' :: rest =
        item.write ++ ',' :: (writeItems (next :: items) ++ ']' :: rest) := by
      simp [writeItems]
    rw [written, readItems_more read, later]
    rfl

theorem Faithful.readMembers {fuel : Nat} (faithful : Faithful fuel)
    (members : List (String × Json)) (rest : List Char) (some : members ≠ [])
    (sound : SoundMembers members) (enough : costMembers members ≤ fuel + 1) :
    Json.readMembers (fuel + 1) (writeMembers members ++ '\x7d' :: rest) =
      Option.some (keyed members, rest) := by
  rcases members with _ | ⟨⟨key, value⟩, _ | ⟨next, members⟩⟩
  · exact absurd rfl some
  · rw [costMembers] at enough
    have read := faithful.value value ('\x7d' :: rest) sound.1 (by omega)
      (ends_mark (by decide) rest)
    have written : writeMembers [(key, value)] ++ '\x7d' :: rest =
        quote key.toList ++ ':' :: (value.write ++ '\x7d' :: rest) := by
      simp [writeMembers]
    rw [written, readMembers_last read]
    rfl
  · rw [costMembers] at enough
    have read := faithful.value value (',' :: (writeMembers (next :: members) ++ '\x7d' :: rest))
      sound.1 (by omega) (ends_mark (by decide) _)
    have later := faithful.members (next :: members) rest (List.cons_ne_nil _ _) sound.2 (by omega)
    have written : writeMembers ((key, value) :: next :: members) ++ '\x7d' :: rest =
        quote key.toList ++ ':' ::
          (value.write ++ ',' :: (writeMembers (next :: members) ++ '\x7d' :: rest)) := by
      simp [writeMembers]
    rw [written, readMembers_more read, later]
    rfl

theorem faithful (fuel : Nat) : Faithful fuel := by
  induction fuel with
  | zero =>
    refine ⟨?_, ?_, ?_⟩
    · intro v rest _ enough
      cases v <;> simp [cost] at enough
    · intro items rest some _ enough
      cases items with
      | nil => exact absurd rfl some
      | cons => simp [costItems] at enough
    · intro members rest some _ enough
      cases members with
      | nil => exact absurd rfl some
      | cons => simp [costMembers] at enough
  | succ fuel ih => exact ⟨ih.readValue, ih.readItems, ih.readMembers⟩

-- The text is long enough for the fuel that its length gives.
mutual

theorem cost_lt : ∀ v : Json, v.cost < 2 * v.write.length
  | .null => by decide
  | .bool true => by decide
  | .bool false => by decide
  | .num n => by
    have some : 0 < (Json.num n).write.length := by
      obtain ⟨c, rest, written, -⟩ := write_first (.num n)
      rw [written]
      exact Nat.succ_pos _
    simp only [cost]
    omega
  | .str text => by
    simp only [cost, write, quote, List.length_cons, List.length_append]
    omega
  | .arr items => by
    have inside := costItems_le items
    simp only [cost, write, List.length_cons, List.length_append]
    omega
  | .obj members => by
    have inside := costMembers_le members
    simp only [cost, write, List.length_cons, List.length_append]
    omega
  | .broken => by decide

theorem costItems_le : ∀ items : List Json, costItems items ≤ 2 * (writeItems items).length
  | [] => Nat.zero_le _
  | [item] => by
    have first := cost_lt item
    simp only [costItems, writeItems]
    omega
  | item :: next :: rest => by
    have first := cost_lt item
    have later := costItems_le (next :: rest)
    rw [costItems, writeItems, List.length_append, List.length_cons]
    · omega
    · exact List.cons_ne_nil _ _

theorem costMembers_le :
    ∀ members : List (String × Json), costMembers members ≤ 2 * (writeMembers members).length
  | [] => Nat.zero_le _
  | [(key, value)] => by
    have first := cost_lt value
    simp only [costMembers, writeMembers, List.length_append, List.length_cons]
    omega
  | (key, value) :: next :: rest => by
    have first := cost_lt value
    have later := costMembers_le (next :: rest)
    rw [costMembers, writeMembers, List.length_append, List.length_cons, List.length_append,
      List.length_cons]
    · omega
    · exact List.cons_ne_nil _ _

end

-- A value that has a text is read back from it.
theorem parse?_text {v : Json} (sound : v.Sound) : parse? v.text = some v := by
  have read := (faithful (2 * v.write.length + 2)).value v [] sound
    (Nat.le_add_right_of_le (Nat.le_of_lt (cost_lt v))) (by simp [Ends])
  rw [List.append_nil] at read
  simp [parse?, text, read, skipSpace]

end Kitchen.Json

namespace Kitchen.Config.Datum

theorem readJson?_text {v : Json} (sound : v.Sound) (shallow : v.depth ≤ jsonDepth) :
    readJson? v.text = ofJson? v := by
  rw [readJson?, Json.parse?_text sound]
  exact if_pos shallow

theorem ofNumeral?_ofNat {n : Nat} (fits : (n : Int) ≤ Number.maxInt) :
    ofNumeral? (.ofNat n) = some (.int n) := by
  have above : Number.minInt ≤ n := by
    have : Number.minInt ≤ 0 := by decide
    omega
  simp [ofNumeral?, Numeral.ofNat, Numeral.toInt?, Number.inRange?, fits, above]

end Kitchen.Config.Datum
