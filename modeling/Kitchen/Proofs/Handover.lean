import Kitchen.Channel

-- The two parties of a signal, one step of one of them after another. A resolve is two steps of its
-- sender, who sends and then goes, and the receiver may look in between.

namespace Kitchen

namespace Signal

variable {α σ : Type}

-- A wait that blocks is tried again.
inductive Use (α : Type) where
  | resolve (value : α)
  -- The end of a resolve, where the sender is dropped.
  | finish
  | dropSender
  | dropReceiver
  | tryTake
  | waitTimeout
  | wait
deriving DecidableEq

inductive Answer (α : Type) where
  | nothing
  | heard (value : Bool)
  | status (value : Status α)
  | waited (value : Option α)
  | blocked
deriving DecidableEq

abbrev History (α : Type) := List (Use α × Answer α)

namespace Use

def resolves : Use α → Bool
  | .resolve _ => true
  | _ => false

def finishes : Use α → Bool
  | .finish => true
  | _ => false

def ofSender : Use α → Bool
  | .resolve _ | .dropSender => true
  | _ => false

def parts : Use α → Bool
  | .finish | .dropSender => true
  | _ => false

def leaves : Use α → Bool
  | .dropReceiver => true
  | _ => false

def receives : Use α → Bool
  | .tryTake | .waitTimeout | .wait => true
  | _ => false

def answer : Use α → Status α → Answer α
  | .wait, .resolved value => .waited (some value)
  | .wait, .abandoned => .waited none
  | .wait, .pending => .blocked
  | _, status => .status status

end Use

namespace Answer

def value? : Answer α → Option α
  | .status (.resolved value) => some value
  | .waited value => value
  | _ => none

def Abandoned : Answer α → Prop
  | .status .abandoned | .waited none => True
  | _ => False

end Answer

def values (history : History α) : List α := history.filterMap fun e => e.2.value?

-- A resolve was begun and is not through.
def UnderWay (history : History α) : Prop :=
  (∃ e ∈ history, e.1.resolves = true) ∧ ∀ e ∈ history, e.1.finishes = false

-- Uses of something, one after another, with their answers.
inductive Uses (use? : σ → Use α → Option (Answer α × σ)) : σ → History α → σ → Prop where
  | nothing (s : σ) : Uses use? s [] s
  | next {s m t : σ} {use : Use α} {answer : Answer α} {rest : History α}
      (now : use? s use = some (answer, m)) (later : Uses use? m rest t) :
      Uses use? s ((use, answer) :: rest) t

-- One use of a signal whose sender goes as it sends; `none` if the half in question is gone.
def use? (s : Signal α) : Use α → Option (Answer α × Signal α)
  | .resolve value =>
    if s.sender then some (.heard (s.resolve value).1, (s.resolve value).2) else none
  | .finish => none
  | .dropSender => if s.sender then some (.nothing, s.dropSender) else none
  | .dropReceiver => if s.heard then some (.nothing, s.dropReceiver) else none
  | .tryTake | .waitTimeout => if s.heard then some (.status s.take.1, s.take.2) else none
  | .wait =>
    if s.heard then
      match s.wait? with
      | some (value, after) => some (.waited value, after)
      | none => some (.blocked, s)
    else none

def joined (history : History α) : History α := history.filter fun e => !e.1.finishes

end Signal

open Signal

namespace Oneshot

variable {α : Type}

def use? (o : Oneshot α) : Use α → Option (Answer α × Oneshot α)
  | .resolve value =>
    if o.unused then
      match o.send? value with
      | some (heard, after) => some (.heard heard, after)
      | none => some (.blocked, o)
    else none
  | .finish => if o.resolving then some (.nothing, o.dropSender) else none
  | .dropSender => if o.unused then some (.nothing, o.dropSender) else none
  | .dropReceiver => if o.channel.receiver then some (.nothing, o.dropReceiver) else none
  | .tryTake | .waitTimeout =>
    if o.channel.receiver then some (.status o.take.1, o.take.2) else none
  | .wait =>
    if o.channel.receiver then
      match o.wait? with
      | some (value, after) => some (.waited value, after)
      | none => some (.blocked, o)
    else none

end Oneshot

namespace Signal

variable {α σ : Type} {value : α} {o d : Oneshot α} {s t : Signal α} {use : Use α}
  {answer : Answer α} {history before later : History α}

@[simp] theorem value?_resolved (use : Use α) (value : α) :
    (use.answer (.resolved value)).value? = some value := by
  cases use <;> rfl

@[simp] theorem value?_pending (use : Use α) : (use.answer .pending).value? = none := by
  cases use <;> rfl

@[simp] theorem value?_abandoned (use : Use α) : (use.answer .abandoned).value? = none := by
  cases use <;> rfl

theorem abandoned_answer (use : Use α) : (use.answer .abandoned).Abandoned := by
  cases use <;> trivial

theorem not_abandoned_pending (use : Use α) : ¬ (use.answer .pending).Abandoned := by
  cases use <;> exact id

theorem not_abandoned_resolved (use : Use α) (value : α) :
    ¬ (use.answer (.resolved value)).Abandoned := by
  cases use <;> exact id

theorem resolved_ne_pending (use : Use α) (value : α) :
    use.answer (.resolved value) ≠ use.answer .pending := by
  intro same
  have gave := value?_resolved use value
  rw [same, value?_pending] at gave
  cases gave

theorem abandoned_ne_pending (use : Use α) : use.answer .abandoned ≠ use.answer .pending :=
  fun same => not_abandoned_pending use (same ▸ abandoned_answer use)

-- What a use finds, answers and leaves.
inductive Turn : Oneshot α → Use α → Answer α → Oneshot α → Prop where
  | resolve (value : α) :
      Turn ⟨⟨none, true, true⟩, false⟩ (.resolve value) (.heard true) ⟨⟨some value, true, true⟩, true⟩
  | unheard (value : α) :
      Turn ⟨⟨none, true, false⟩, false⟩ (.resolve value) (.heard false) ⟨⟨none, true, false⟩, true⟩
  | finish (place : Option α) (receiver : Bool) :
      Turn ⟨⟨place, true, receiver⟩, true⟩ .finish .nothing ⟨⟨place, false, receiver⟩, true⟩
  | dropSender (receiver : Bool) :
      Turn ⟨⟨none, true, receiver⟩, false⟩ .dropSender .nothing ⟨⟨none, false, receiver⟩, false⟩
  | dropReceiver (place : Option α) (sender used : Bool) :
      Turn ⟨⟨place, sender, true⟩, used⟩ .dropReceiver .nothing ⟨⟨none, sender, false⟩, used⟩
  | taken {use : Use α} (value : α) (sender used : Bool) (receives : use.receives = true) :
      Turn ⟨⟨some value, sender, true⟩, used⟩ use (use.answer (.resolved value))
        ⟨⟨none, sender, true⟩, used⟩
  | pending {use : Use α} (used : Bool) (receives : use.receives = true) :
      Turn ⟨⟨none, true, true⟩, used⟩ use (use.answer .pending) ⟨⟨none, true, true⟩, used⟩
  | ended {use : Use α} (used : Bool) (receives : use.receives = true) :
      Turn ⟨⟨none, false, true⟩, used⟩ use (use.answer .abandoned) ⟨⟨none, false, true⟩, used⟩

theorem receive_eq (o : Oneshot α) (receives : use.receives = true) : o.use? use =
    if o.channel.receiver then some (use.answer o.take.1, o.take.2) else none := by
  obtain ⟨⟨place, sender, receiver⟩, used⟩ := o
  cases use with
  | wait => cases place <;> cases sender <;> rfl
  | tryTake | waitTimeout => rfl
  | resolve | finish | dropSender | dropReceiver => cases receives

theorem turn_of_receive (receives : use.receives = true) (used : o.use? use = some (answer, d)) :
    Turn o use answer d := by
  rw [receive_eq o receives] at used
  obtain ⟨⟨place, sender, receiver⟩, user⟩ := o
  cases receiver with
  | false => cases used
  | true =>
    cases place with
    | some value =>
      cases used
      exact .taken value sender user receives
    | none =>
      cases sender with
      | true =>
        cases used
        exact .pending user receives
      | false =>
        cases used
        exact .ended user receives

-- As long as the sender is unused, it finds room.
theorem turn_of_use (room : o.used = false → o.channel.place = none)
    (used : o.use? use = some (answer, d)) : Turn o use answer d := by
  cases use with
  | tryTake | waitTimeout | wait => exact turn_of_receive rfl used
  | resolve value =>
    obtain ⟨⟨place, sender, receiver⟩, user⟩ := o
    cases sender <;> cases user
    case true.false =>
      cases room rfl
      cases receiver with
      | true =>
        cases used
        exact .resolve value
      | false =>
        cases used
        exact .unheard value
    all_goals cases used
  | finish =>
    obtain ⟨⟨place, sender, receiver⟩, user⟩ := o
    cases sender <;> cases user
    case true.true =>
      cases used
      exact .finish place receiver
    all_goals cases used
  | dropSender =>
    obtain ⟨⟨place, sender, receiver⟩, user⟩ := o
    cases sender <;> cases user
    case true.false =>
      cases room rfl
      cases used
      exact .dropSender receiver
    all_goals cases used
  | dropReceiver =>
    obtain ⟨⟨place, sender, receiver⟩, user⟩ := o
    cases receiver with
    | false => cases used
    | true =>
      cases used
      exact .dropReceiver place sender user

namespace Turn

theorem used (turn : Turn o use answer d) : d.used = (o.used || use.resolves) := by
  cases turn with
  | resolve | unheard | finish | dropSender => rfl
  | dropReceiver _ _ used => exact (Bool.or_false used).symm
  | taken _ _ used receives | pending used receives | ended used receives =>
    cases use <;> cases receives <;> exact (Bool.or_false used).symm

theorem sender (turn : Turn o use answer d) :
    d.channel.sender = (o.channel.sender && !use.parts) := by
  cases turn with
  | resolve | unheard | finish | dropSender => rfl
  | dropReceiver _ sender => exact (Bool.and_true sender).symm
  | taken _ sender _ receives =>
    cases use <;> cases receives <;> exact (Bool.and_true sender).symm
  | pending _ receives | ended _ receives => cases use <;> cases receives <;> rfl

theorem receiver (turn : Turn o use answer d) :
    d.channel.receiver = (o.channel.receiver && !use.leaves) := by
  cases turn with
  | resolve | unheard | dropReceiver => rfl
  | finish _ receiver => exact (Bool.and_true receiver).symm
  | dropSender receiver => exact (Bool.and_true receiver).symm
  | taken _ _ _ receives | pending _ receives | ended _ receives =>
    cases use <;> cases receives <;> rfl

theorem finishes (turn : Turn o use answer d) : (d.used && !d.channel.sender) =
    ((o.used && !o.channel.sender) || use.finishes) := by
  cases turn with
  | resolve | unheard | finish | dropSender => rfl
  | dropReceiver _ sender used => exact (Bool.or_false (used && !sender)).symm
  | taken _ sender used receives =>
    cases use <;> cases receives <;> exact (Bool.or_false (used && !sender)).symm
  | pending used receives | ended used receives =>
    cases use <;> cases receives <;> exact (Bool.or_false _).symm

theorem gave (turn : Turn o use answer d) (gave : answer.value? = some value) :
    o.channel.place = some value ∧ d.channel.place = none := by
  cases turn with
  | resolve | unheard | finish | dropSender | dropReceiver => cases gave
  | taken =>
    rw [value?_resolved] at gave
    cases gave
    exact ⟨rfl, rfl⟩
  | pending | ended => simp at gave

theorem filled (turn : Turn o use answer d) (held : d.channel.place = some value) :
    (o.channel.place = some value ∨ o.used = false ∧ use = .resolve value ∧ answer = .heard true) ∧
      answer.value? = none := by
  cases turn with
  | resolve =>
    cases held
    exact ⟨.inr ⟨rfl, rfl, rfl⟩, rfl⟩
  | finish => exact ⟨.inl held, rfl⟩
  | unheard | dropSender | dropReceiver | taken | pending | ended => cases held

theorem emptied (turn : Turn o use answer d) (empty : d.channel.place = none)
    (there : d.channel.receiver = true) (used : d.used = true) :
    (o.channel.place = none ∧ o.channel.receiver = true ∧ o.used = true) ∨
      answer.value? ≠ none := by
  cases turn with
  | resolve => cases empty
  | unheard | dropReceiver => cases there
  | dropSender => cases used
  | finish => exact .inl ⟨empty, there, rfl⟩
  | taken value => exact .inr (by simp)
  | pending | ended => exact .inl ⟨rfl, rfl, used⟩

end Turn

-- What the uses so far leave of the two halves, and of the value.
structure Recorded (history : History α) (o : Oneshot α) : Prop where
  used : o.used = history.any (·.1.resolves)
  sender : o.channel.sender = !history.any (·.1.parts)
  receiver : o.channel.receiver = !history.any (·.1.leaves)
  finished : (o.used && !o.channel.sender) = history.any (·.1.finishes)
  quiet : o.used = false → values history = []
  there : ∀ value, o.channel.place = some value →
    (.resolve value, .heard true) ∈ history ∧ values history = []
  taken : o.channel.place = none → o.channel.receiver = true → o.used = true → values history ≠ []
  once : (values history).length ≤ 1

theorem values_concat (history : History α) (use : Use α) (answer : Answer α) :
    values (history ++ [(use, answer)]) = values history ++ answer.value?.toList := by
  cases gave : answer.value? <;> simp [values, gave]

namespace Recorded

theorem fresh : Recorded [] (Oneshot.fresh : Oneshot α) :=
  ⟨rfl, rfl, rfl, rfl, fun _ => rfl, nofun, nofun, Nat.zero_le 1⟩

theorem room (recorded : Recorded history o) (unused : o.used = false) :
    o.channel.place = none := by
  cases found : o.channel.place with
  | none => rfl
  | some value =>
    obtain ⟨sent, -⟩ := recorded.there value found
    have used := recorded.used
    rw [unused] at used
    exact absurd (List.any_eq_true.mpr ⟨_, sent, rfl⟩) (Bool.eq_false_iff.mp used.symm)

theorem turn (recorded : Recorded history o) (turn : Turn o use answer d) :
    Recorded (history ++ [(use, answer)]) d where
  used := by rw [turn.used, recorded.used, List.any_append]; simp
  sender := by rw [turn.sender, recorded.sender, List.any_append]; simp
  receiver := by rw [turn.receiver, recorded.receiver, List.any_append]; simp
  finished := by rw [turn.finishes, recorded.finished, List.any_append]; simp
  quiet unused := by
    rw [turn.used, Bool.or_eq_false_iff] at unused
    rw [values_concat, recorded.quiet unused.1]
    cases gave : answer.value? with
    | none => rfl
    | some value =>
      have held := (turn.gave gave).1
      rw [recorded.room unused.1] at held
      cases held
  there value held := by
    obtain ⟨kept | ⟨unused, rfl, rfl⟩, none⟩ := turn.filled held
    · obtain ⟨sent, silent⟩ := recorded.there value kept
      exact ⟨List.mem_append_left _ sent, by rw [values_concat, silent, none]; rfl⟩
    · exact ⟨by simp, by rw [values_concat, recorded.quiet unused, none]; rfl⟩
  taken empty there used := by
    rw [values_concat]
    rcases turn.emptied empty there used with ⟨empty, there, used⟩ | some
    · exact List.append_ne_nil_of_left_ne_nil (recorded.taken empty there used) _
    · obtain ⟨value, gave⟩ := Option.ne_none_iff_exists'.mp some
      simp [gave]
  once := by
    rw [values_concat]
    cases gave : answer.value? with
    | none => simpa using recorded.once
    | some value => simp [(recorded.there value (turn.gave gave).1).2]

theorem run (recorded : Recorded before o) (run : Uses Oneshot.use? o later d) :
    Recorded (before ++ later) d := by
  induction run generalizing before with
  | nothing => simpa using recorded
  | next now _ ih =>
    have after := ih (recorded.turn (turn_of_use recorded.room now))
    rwa [List.append_assoc] at after

end Recorded

-- A value that is in its place stays there until it is received, or lost with the receiver.
theorem Uses.kept (run : Uses Oneshot.use? o history d) (held : o.channel.place = some value)
    (used : o.used = true) (none : ∀ e ∈ history, e.1.receives = false)
    (stays : ∀ e ∈ history, e.1.leaves = false) : d.channel.place = some value := by
  induction run with
  | nothing => exact held
  | next now later ih =>
    obtain ⟨first, others⟩ := List.forall_mem_cons.mp none
    obtain ⟨here, still⟩ := List.forall_mem_cons.mp stays
    cases turn_of_use (by simp [used]) now with
    | resolve | unheard | dropSender => cases used
    | finish => exact ih held rfl others still
    | dropReceiver => cases here
    | taken _ _ _ receives | pending _ receives | ended _ receives =>
      rw [receives] at first
      cases first

theorem Uses.split {step : σ → Use α → Option (Answer α × σ)} {s t : σ}
    (run : Uses step s (before ++ (use, answer) :: later) t) :
    ∃ m n, Uses step s before m ∧ step m use = some (answer, n) ∧ Uses step n later t := by
  induction before generalizing s with
  | nil =>
    cases run with
    | next now rest => exact ⟨s, _, .nothing s, now, rest⟩
  | cons e before ih =>
    cases run with
    | next first rest =>
      obtain ⟨m, n, earlier, now, rest⟩ := ih rest
      exact ⟨m, n, .next first earlier, now, rest⟩

-- The steps up to a use, and the use itself.
theorem turn_of_split (run : Uses Oneshot.use? .fresh (before ++ (use, answer) :: later) o) :
    ∃ m n, Recorded before m ∧ Turn m use answer n ∧ Uses Oneshot.use? .fresh before m := by
  obtain ⟨m, n, earlier, now, _⟩ := run.split
  have recorded := Recorded.fresh.run earlier
  rw [List.nil_append] at recorded
  exact ⟨m, n, recorded, turn_of_use recorded.room now, earlier⟩

theorem Recorded.underWay_iff (recorded : Recorded history o) :
    UnderWay history ↔ o.resolving = true := by
  have begun : (∃ e ∈ history, e.1.resolves = true) ↔ o.used = true := by
    rw [recorded.used, List.any_eq_true]
  have through : (∀ e ∈ history, e.1.finishes = false) ↔ (o.used && !o.channel.sender) = false := by
    rw [recorded.finished, List.any_eq_false]
    simp
  rw [UnderWay, begun, through, Oneshot.resolving]
  cases o.used <;> cases o.channel.sender <;> decide

theorem Recorded.unused_iff (recorded : Recorded history o) :
    o.unused = true ↔ ∀ e ∈ history, e.1.ofSender = false := by
  have used := recorded.used
  have sender := recorded.sender
  have finished := recorded.finished
  rw [Oneshot.unused, Bool.and_eq_true, Bool.not_eq_true']
  constructor
  · rintro ⟨there, unused⟩ ⟨use, answer⟩ member
    rw [unused, eq_comm, List.any_eq_false] at used
    rw [there, eq_comm, Bool.not_eq_true', List.any_eq_false] at sender
    cases use with
    | resolve => exact absurd rfl (used _ member)
    | dropSender => exact absurd rfl (sender _ member)
    | finish | dropReceiver | tryTake | waitTimeout | wait => rfl
  · intro none
    have unused : o.used = false := by
      rw [used, List.any_eq_false]
      rintro ⟨use, answer⟩ member resolves
      have mine := none _ member
      cases use with
      | resolve => cases mine
      | finish | dropSender | dropReceiver | tryTake | waitTimeout | wait => cases resolves
    rw [unused, Bool.false_and, eq_comm, List.any_eq_false] at finished
    refine ⟨?_, unused⟩
    rw [sender, Bool.not_eq_true', List.any_eq_false]
    rintro ⟨use, answer⟩ member parts
    have mine := none _ member
    have kind := finished _ member
    cases use with
    | finish => exact kind rfl
    | dropSender => cases mine
    | resolve | dropReceiver | tryTake | waitTimeout | wait => cases parts

theorem Recorded.dropped (recorded : Recorded history o) (unused : o.used = false)
    (gone : o.channel.sender = false) : ∃ e ∈ history, e.1 = .dropSender := by
  have sender := recorded.sender
  have finished := recorded.finished
  rw [gone, eq_comm, Bool.not_eq_false', List.any_eq_true] at sender
  rw [unused, Bool.false_and, eq_comm, List.any_eq_false] at finished
  obtain ⟨⟨use, answer⟩, member, parts⟩ := sender
  have kind := finished _ member
  refine ⟨_, member, ?_⟩
  cases use with
  | finish => exact absurd rfl kind
  | dropSender => rfl
  | resolve | dropReceiver | tryTake | waitTimeout | wait => cases parts

-- A receive gives the value that is there; without one it waits for the sender to go.
theorem Turn.received (turn : Turn o use answer d) (receives : use.receives = true) :
    o.channel.receiver = true ∧
      (∀ value, o.channel.place = some value → answer = use.answer (.resolved value)) ∧
      (o.channel.place = none → answer =
        use.answer (if o.channel.sender then .pending else .abandoned)) := by
  cases turn with
  | resolve | unheard | finish | dropSender | dropReceiver => cases receives
  | taken value => exact ⟨rfl, fun _ held => by cases held; rfl, nofun⟩
  | pending | ended => exact ⟨rfl, nofun, fun _ => rfl⟩

-- Who finds nothing although the sender was used looks in the middle of its resolve, and too late.
theorem Recorded.cut (recorded : Recorded history o) (turn : Turn o use answer d)
    (receives : use.receives = true) (nothing : answer = use.answer .pending)
    (used : o.used = true) : UnderWay history ∧ values history ≠ [] := by
  obtain ⟨there, first, later⟩ := turn.received receives
  cases found : o.channel.place with
  | some value => exact absurd (first value found ▸ nothing) (resolved_ne_pending use value)
  | none =>
    refine ⟨recorded.underWay_iff.mpr ?_, recorded.taken found there used⟩
    cases sender : o.channel.sender with
    | true => rw [Oneshot.resolving, sender, used]; rfl
    | false =>
      have read := later found
      rw [sender, nothing] at read
      exact absurd read.symm (abandoned_ne_pending use)

-- The signal whose sender goes as it sends shows the same to whoever does not look in between.
inductive Carried : Oneshot α → Signal α → Prop where
  | waiting {heard : Bool} : Carried ⟨⟨none, true, heard⟩, false⟩ ⟨.waiting, heard⟩
  | holding {value : α} {sender : Bool} :
      Carried ⟨⟨some value, sender, true⟩, true⟩ ⟨.holding value, true⟩
  | closed {sender heard used : Bool} (late : sender = true → used = true) :
      Carried ⟨⟨none, sender, heard⟩, used⟩ ⟨.closed, heard⟩
  | lost {value : α} {sender : Bool} :
      Carried ⟨⟨none, sender, false⟩, true⟩ ⟨.holding value, false⟩

namespace Carried

theorem finish (carried : Carried o s) (turn : Turn o .finish answer d) : Carried d s := by
  cases turn with
  | finish =>
    cases carried with
    | holding => exact .holding
    | closed => exact .closed fun _ => rfl
    | lost => exact .lost
  | taken _ _ _ receives | pending _ receives | ended _ receives => cases receives

theorem forth (carried : Carried o s) (turn : Turn o use answer d) (other : use.finishes = false)
    (early : use.receives = true → answer = use.answer .pending → o.used = false) :
    ∃ t, s.use? use = some (answer, t) ∧ Carried d t := by
  cases turn with
  | resolve =>
    cases carried with
    | waiting => exact ⟨_, rfl, .holding⟩
    | closed late => cases late rfl
  | unheard =>
    cases carried with
    | waiting => exact ⟨_, rfl, .closed fun _ => rfl⟩
    | closed late => cases late rfl
  | finish => cases other
  | dropSender =>
    cases carried with
    | waiting => exact ⟨_, rfl, .closed nofun⟩
    | closed late => cases late rfl
  | dropReceiver =>
    cases carried with
    | waiting => exact ⟨_, rfl, .waiting⟩
    | holding => exact ⟨_, rfl, .lost⟩
    | closed late => exact ⟨_, rfl, .closed late⟩
  | taken _ _ _ receives =>
    cases carried
    cases use <;> cases receives <;> exact ⟨_, rfl, .closed fun _ => rfl⟩
  | pending _ receives =>
    cases early receives rfl
    cases carried with
    | waiting => cases use <;> cases receives <;> exact ⟨_, rfl, .waiting⟩
    | closed late => cases late rfl
  | ended _ receives =>
    cases carried
    cases use <;> cases receives <;> exact ⟨_, rfl, .closed nofun⟩

end Carried

theorem Uses.append {step : σ → Use α → Option (Answer α × σ)} {s m t : σ}
    (run : Uses step s before m) (next : Uses step m later t) : Uses step s (before ++ later) t := by
  induction run with
  | nothing => exact next
  | next now _ ih => exact .next now (ih next)

-- What a receive reads, told by the uses before it.
theorem Recorded.received (recorded : Recorded before o) (turn : Turn o use answer d)
    (receives : use.receives = true) :
    (∀ value, answer.value? = some value → (.resolve value, .heard true) ∈ before) ∧
      (¬UnderWay before → (values before ≠ [] → answer.Abandoned) ∧
        (answer = use.answer .pending ↔ ∀ e ∈ before, e.1.ofSender = false)) ∧
      (UnderWay before → (answer = use.answer .pending ↔ values before ≠ [])) ∧
      (answer.Abandoned → values before ≠ [] ∨ ∃ e ∈ before, e.1 = .dropSender) := by
  obtain ⟨there, first, later⟩ := turn.received receives
  rw [recorded.underWay_iff, ← recorded.unused_iff]
  cases found : o.channel.place with
  | some value =>
    obtain ⟨sent, silent⟩ := recorded.there value found
    have used : o.used = true := by
      rw [recorded.used]
      exact List.any_eq_true.mpr ⟨_, sent, rfl⟩
    have busy : o.unused = false := by rw [Oneshot.unused, used]; exact Bool.and_false _
    rw [first value found, silent, busy]
    refine ⟨fun other gave => ?_, fun _ => ⟨fun some => absurd rfl some, ?_⟩, fun _ => ?_,
      fun no => absurd no (not_abandoned_resolved use value)⟩
    · rw [value?_resolved] at gave
      cases gave
      exact sent
    · exact iff_of_false (resolved_ne_pending use value) Bool.false_ne_true
    · exact iff_of_false (resolved_ne_pending use value) fun some => some rfl
  | none =>
    have answered := later found
    cases sender : o.channel.sender with
    | true =>
      rw [sender, if_pos rfl] at answered
      subst answered
      refine ⟨fun value gave => by simp at gave, fun through => ?_, fun cut => ?_,
        fun no => absurd no (not_abandoned_pending use)⟩
      · have unused : o.used = false := by simpa [Oneshot.resolving, sender] using through
        rw [Oneshot.unused, sender, unused]
        exact ⟨fun some => absurd (recorded.quiet unused) some, iff_of_true rfl rfl⟩
      · have used : o.used = true := by simpa [Oneshot.resolving, sender] using cut
        exact iff_of_true rfl (recorded.taken found there used)
    | false =>
      rw [sender, if_neg Bool.false_ne_true] at answered
      subst answered
      refine ⟨fun value gave => by simp at gave, fun _ => ⟨fun _ => abandoned_answer use, ?_⟩,
        fun cut => ?_, fun _ => ?_⟩
      · rw [Oneshot.unused, sender]
        exact iff_of_false (abandoned_ne_pending use) Bool.false_ne_true
      · rw [Oneshot.resolving, sender] at cut
        cases cut
      · cases used : o.used with
        | true => exact .inl (recorded.taken found there used)
        | false => exact .inr (recorded.dropped used sender)

-- The first receive after the value was sent finds it, wherever the sender is by then.
theorem Uses.first {earlier middle : History α}
    (run : Uses Oneshot.use? .fresh (earlier ++ (.resolve value, .heard true) :: middle) o)
    (turn : Turn o use answer d) (receives : use.receives = true)
    (none : ∀ e ∈ middle, e.1.receives = false) : answer.value? = some value := by
  have recorded := Recorded.fresh.run run
  obtain ⟨there, first, _⟩ := turn.received receives
  have stays : ∀ e ∈ middle, e.1.leaves = false := by
    have left := recorded.receiver
    rw [there, eq_comm, Bool.not_eq_true', List.any_eq_false] at left
    intro e member
    exact Bool.eq_false_iff.mpr (left e (by simp [member]))
  obtain ⟨m, n, before, now, after⟩ := run.split
  have early := Recorded.fresh.run before
  rw [List.nil_append] at early
  cases turn_of_use early.room now with
  | resolve =>
    rw [first value (after.kept rfl rfl none stays)]
    exact value?_resolved use value

-- What a receive reads after these uses. Of what it reads once the value was taken, and of when it
-- finds nothing yet, it is said where the resolve is `through`.
structure Read (through : Prop) (before : History α) (use : Use α) (answer : Answer α) : Prop where
  sent : ∀ value, answer.value? = some value → (.resolve value, .heard true) ∈ before
  first : ∀ value earlier middle, before = earlier ++ (.resolve value, .heard true) :: middle →
    (∀ e ∈ middle, e.1.receives = false) → answer.value? = some value
  late : through → values before ≠ [] → answer.Abandoned
  early : through → (answer = use.answer .pending ↔ ∀ e ∈ before, e.1.ofSender = false)
  ended : answer.Abandoned → values before ≠ [] ∨ ∃ e ∈ before, e.1 = .dropSender

-- A resolve never waits, and is refused exactly if the receiver was gone. A value goes over once at
-- most, to a receive.
structure Delivers (through : History α → Prop) (history : History α) : Prop where
  passes : ∀ before value answer later, history = before ++ (.resolve value, answer) :: later →
    ∃ heard, answer = .heard heard ∧ (heard = true ↔ ∀ e ∈ before, e.1.leaves = false)
  once : (values history).length ≤ 1
  reads : ∀ before use answer later, history = before ++ (use, answer) :: later →
    use.receives = true → Read (through before) before use answer

theorem Uses.delivers (run : Uses Oneshot.use? .fresh history o) :
    Delivers (fun before => ¬UnderWay before) history where
  passes before value answer later split := by
    subst split
    obtain ⟨m, n, recorded, turn, _⟩ := turn_of_split run
    have heard := recorded.receiver
    cases turn with
    | resolve => exact ⟨true, rfl, by simpa using heard⟩
    | unheard => exact ⟨false, rfl, by simpa using heard⟩
    | taken _ _ _ receives | pending _ receives | ended _ receives => cases receives
  once := by
    have recorded := Recorded.fresh.run run
    exact recorded.once
  reads before use answer later split receives := by
    subst split
    obtain ⟨m, n, recorded, turn, soFar⟩ := turn_of_split run
    obtain ⟨sent, through, _, ended⟩ := recorded.received turn receives
    refine ⟨sent, fun value earlier middle split none => ?_, fun settled => (through settled).1,
      fun settled => (through settled).2, ended⟩
    subst split
    exact soFar.first turn receives none

-- Who looks too early and waits hears the value and then that it was all; or finds nothing yet, if he
-- looks while the sender is about to go.
def lookedEarly : History Nat :=
  [(.tryTake, .status .pending), (.wait, .blocked), (.resolve 7, .heard true)]

def served : History Nat := lookedEarly ++ [(.wait, .waited (some 7))]

end Signal

end Kitchen
