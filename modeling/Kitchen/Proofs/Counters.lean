import Kitchen.Station.Simulated
import Mathlib.Data.List.Induction

namespace Kitchen.Simulated

variable {κ π : Type} [Goods κ π]

-- What is done to a station. Who makes a product has the machine alone until it is done; all the rest
-- may happen in between. A call with nothing in between is also seen as one.
inductive Use (π : Type) where
  | produce
  | enter
  | leave
  | accept (product : π)
  | start
  | stop

inductive Answer (π : Type) where
  | nothing
  | made (result : Except StationError π)
  | taken (result : Except StationError Unit)

abbrev History (π : Type) := List (Use π × Answer π)

namespace Use

def begins : Use π → Bool
  | .produce | .enter => true
  | _ => false

def offer? : Use π → Option π
  | .accept product => some product
  | _ => none

def whole : Use π → Bool
  | .enter | .leave => false
  | _ => true

end Use

def Answer.made? : Answer π → Option (Except StationError π)
  | .made result => some result
  | _ => none

-- The attempts that were begun, what became of those that have ended, the products of these, and what
-- was given back.
def begun (history : History π) : Nat := history.countP fun e => e.1.begins

def results (history : History π) : List (Except StationError π) :=
  history.filterMap fun e => e.2.made?

def products (history : History π) : List π := (results history).filterMap Except.toOption

def offers (history : History π) : List π := history.filterMap fun e => e.1.offer?

-- A station, and the attempt that is being made at its machine.
structure Workplace (κ : Type) where
  station : Simulated κ
  attempt : Option Nat

namespace Workplace

def opened (kind : κ) (delay : Span) (limit : Option Nat) : Workplace κ :=
  ⟨.new kind delay limit, none⟩

def use? (w : Workplace κ) : Use π → Option (Answer π × Workplace κ)
  | .produce =>
    match w.attempt with
    | none => some (.made w.station.produce.1, { w with station := w.station.produce.2 })
    | some _ => none
  | .enter =>
    match w.attempt with
    | none => some (.nothing, ⟨w.station.beginAttempt.2, some w.station.beginAttempt.1⟩)
    | some _ => none
  | .leave =>
    w.attempt.map fun attempt =>
      (.made (w.station.endAttempt attempt).1, ⟨(w.station.endAttempt attempt).2, none⟩)
  | .accept product =>
    some (.taken (w.station.acceptReturn product).1,
      { w with station := (w.station.acceptReturn product).2 })
  | .start => some (.nothing, { w with station := w.station.start })
  | .stop => some (.nothing, { w with station := w.station.stop })

end Workplace

inductive Worked (w : Workplace κ) : History π → Workplace κ → Prop where
  | nothing : Worked w [] w
  | next {history : History π} {m v : Workplace κ} {use : Use π} {answer : Answer π}
      (so : Worked w history m) (now : m.use? use = some (answer, v)) :
      Worked w (history ++ [(use, answer)]) v

-- What the attempt of a number comes to, and how many of the first attempts succeed.
def outcome (kind : κ) (limit : Option Nat) (attempt : Nat) : Except StationError π :=
  if ∀ first ∈ limit, attempt < first then .ok (Goods.make kind attempt)
  else .error
    (.failure s!"{Goods.typeName kind} station broke down on attempt {attempt}")

def successes (limit : Option Nat) (attempts : Nat) : Nat :=
  match limit with
  | some first => min attempts first
  | none => attempts

variable {kind : κ} {limit : Option Nat} {b : Nat} {made : List (Except StationError π)}
  {offered : List π} {w v : Workplace κ} {history : History π}

theorem failsOn_eq_false_iff (s : Simulated κ) (attempt : Nat) :
    s.failsOn attempt = false ↔ ∀ first ∈ s.failOnAttempt, attempt < first := by
  cases limit : s.failOnAttempt <;> simp [failsOn, limit]

theorem endAttempt_eq (s : Simulated κ) (attempt : Nat) : s.endAttempt attempt =
    (outcome s.kind s.failOnAttempt attempt, { s with
      produced := s.produced + if ∀ first ∈ s.failOnAttempt, attempt < first then 1 else 0 }) := by
  by_cases pass : ∀ first ∈ s.failOnAttempt, attempt < first
  · have works : s.failsOn attempt = false := (s.failsOn_eq_false_iff attempt).mpr pass
    rw [endAttempt, outcome, works, if_pos pass, if_pos pass]
    rfl
  · have broken : s.failsOn attempt = true := by
      rw [← Bool.not_eq_false, s.failsOn_eq_false_iff]
      exact pass
    rw [endAttempt, outcome, broken, if_neg pass, if_neg pass]
    rfl

theorem acceptReturn_own {s : Simulated κ} {product : π} (own : Goods.isKind product s.kind = true) :
    s.acceptReturn product = (.ok (), { s with returned := s.returned + 1 }) := if_pos own

theorem acceptReturn_other {s : Simulated κ} {product : π}
    (other : Goods.isKind product s.kind = false) : s.acceptReturn product =
      (.error (.invalidProduct (Goods.typeName s.kind)), { s with rejected := s.rejected + 1 }) := by
  rw [acceptReturn, other, if_neg Bool.false_ne_true]

theorem successes_succ (limit : Option Nat) (attempts : Nat) : successes limit (attempts + 1) =
    successes limit attempts + if ∀ first ∈ limit, attempts < first then 1 else 0 := by
  cases limit with
  | none => rfl
  | some first =>
    simp only [successes, Option.mem_some_iff, forall_eq']
    split <;> omega

-- How the counters of a workplace stand to the number of attempts that were begun, to what became of
-- those that have ended, and to what was given back.
structure Told (kind : κ) (limit : Option Nat) (b : Nat) (made : List (Except StationError π))
    (offered : List π) (w : Workplace κ) : Prop where
  makes : w.station.kind = kind
  breaks : w.station.failOnAttempt = limit
  attempts : w.station.attempts = b
  ended : b = made.length + w.attempt.toList.length
  number : ∀ attempt ∈ w.attempt, attempt = made.length
  outcomes : made = (List.range made.length).map (outcome kind limit)
  produced : w.station.produced = successes limit made.length
  returned : w.station.returned = offered.countP (Goods.isKind · kind)
  rejected : w.station.rejected = offered.countP (!Goods.isKind · kind)

namespace Told

theorem opened (kind : κ) (delay : Span) (limit : Option Nat) :
    Told kind limit 0 ([] : List (Except StationError π)) [] (.opened kind delay limit) where
  makes := rfl
  breaks := rfl
  attempts := rfl
  ended := rfl
  number := nofun
  outcomes := rfl
  produced := by cases limit <;> simp [successes, Workplace.opened, new]
  returned := rfl
  rejected := rfl

theorem enter (told : Told kind limit b made offered w) (idle : w.attempt = none) :
    Told kind limit (b + 1) made offered
      ⟨w.station.beginAttempt.2, some w.station.beginAttempt.1⟩ := by
  have all : b = made.length := by simpa [idle] using told.ended
  exact { told with
    attempts := congrArg (· + 1) told.attempts
    ended := by simpa using all
    number := by
      rintro _ ⟨⟩
      exact told.attempts.trans all }

theorem leave {attempt : Nat} (told : Told kind limit b made offered w)
    (busy : w.attempt = some attempt) :
    Told kind limit b (made ++ [(w.station.endAttempt attempt).1]) offered
      ⟨(w.station.endAttempt attempt).2, none⟩ := by
  obtain rfl := told.number attempt busy
  have one : b = made.length + 1 := by simpa [busy] using told.ended
  obtain ⟨rfl, rfl⟩ := And.intro told.makes told.breaks
  have last : (made ++ [outcome w.station.kind w.station.failOnAttempt made.length]) =
      (List.range (made.length + 1)).map (outcome w.station.kind w.station.failOnAttempt) := by
    rw [List.range_succ, List.map_append, ← told.outcomes]
    rfl
  rw [endAttempt_eq]
  exact { told with
    ended := by simpa using one
    number := nofun
    outcomes := by simpa using last
    produced := by rw [List.length_append, List.length_singleton, successes_succ, told.produced] }

theorem accept (told : Told kind limit b made offered w) (product : π) :
    Told kind limit b made (offered ++ [product])
      { w with station := (w.station.acceptReturn product).2 } := by
  obtain rfl := told.makes
  cases same : Goods.isKind product w.station.kind with
  | true =>
    rw [acceptReturn_own same]
    exact { told with
      returned := by simp [told.returned, same]
      rejected := by simp [told.rejected, same] }
  | false =>
    rw [acceptReturn_other same]
    exact { told with
      returned := by simp [told.returned, same]
      rejected := by simp [told.rejected, same] }

end Told

theorem begun_concat (history : History π) (use : Use π) (answer : Answer π) :
    begun (history ++ [(use, answer)]) = begun history + use.begins.toNat := by
  cases begins : use.begins <;> simp [begun, begins]

theorem results_concat (history : History π) (use : Use π) (answer : Answer π) :
    results (history ++ [(use, answer)]) = results history ++ answer.made?.toList := by
  cases made : answer.made? <;> simp [results, made]

theorem offers_concat (history : History π) (use : Use π) (answer : Answer π) :
    offers (history ++ [(use, answer)]) = offers history ++ use.offer?.toList := by
  cases offered : use.offer? <;> simp [offers, offered]

theorem Told.use {use : Use π} {answer : Answer π}
    (told : Told kind limit (begun history) (results history) (offers history) w)
    (now : w.use? use = some (answer, v)) :
    Told kind limit (begun (history ++ [(use, answer)])) (results (history ++ [(use, answer)]))
      (offers (history ++ [(use, answer)])) v := by
  rw [begun_concat, results_concat, offers_concat]
  cases use with
  | produce =>
    cases idle : w.attempt with
    | some attempt => simp [Workplace.use?, idle] at now
    | none =>
      simp only [Workplace.use?, idle, Option.some.injEq, Prod.mk.injEq] at now
      obtain ⟨rfl, rfl⟩ := now
      simpa [Use.begins, Use.offer?, Answer.made?, Simulated.produce] using (told.enter idle).leave rfl
  | enter =>
    cases idle : w.attempt with
    | some attempt => simp [Workplace.use?, idle] at now
    | none =>
      simp only [Workplace.use?, idle, Option.some.injEq, Prod.mk.injEq] at now
      obtain ⟨rfl, rfl⟩ := now
      simpa [Use.begins, Use.offer?, Answer.made?] using told.enter idle
  | leave =>
    cases busy : w.attempt with
    | none => simp [Workplace.use?, busy] at now
    | some attempt =>
      simp only [Workplace.use?, busy, Option.map_some, Option.some.injEq, Prod.mk.injEq] at now
      obtain ⟨rfl, rfl⟩ := now
      simpa [Use.begins, Use.offer?, Answer.made?] using told.leave busy
  | accept product =>
    cases now
    simpa [Use.begins, Use.offer?, Answer.made?] using told.accept product
  | start | stop =>
    cases now
    simp only [Use.begins, Use.offer?, Answer.made?, Bool.toNat_false, Option.toList_none,
      List.append_nil, Nat.add_zero]
    exact { told with }

theorem Worked.told {delay : Span} (run : Worked (.opened kind delay limit) history w) :
    Told kind limit (begun history) (results history) (offers history) w := by
  induction run with
  | nothing => exact .opened kind delay limit
  | next _ now ih => exact ih.use now

theorem Worked.verdict {delay : Span} {product : π} {answer : Answer π}
    (run : Worked (.opened kind delay limit) history w) (member : (.accept product, answer) ∈ history) :
    answer = .taken (if Goods.isKind product kind then .ok ()
      else .error (.invalidProduct (Goods.typeName kind))) := by
  induction run with
  | nothing => cases member
  | next so now ih =>
    rcases List.mem_append.mp member with before | last
    · exact ih before
    · obtain ⟨rfl, rfl⟩ : Use.accept product = _ ∧ answer = _ := by simpa using last
      cases now
      rw [acceptReturn, so.told.makes]
      split <;> rfl

-- Calls with nothing in between can be made in any sequence.
theorem worked_whole (idle : w.attempt = none) (uses : List (Use π))
    (whole : ∀ use ∈ uses, use.whole = true) :
    ∃ history v, history.map Prod.fst = uses ∧ Worked w history v ∧ v.attempt = none := by
  induction uses using List.reverseRecOn with
  | nil => exact ⟨[], w, rfl, .nothing, idle⟩
  | append_singleton uses use ih =>
    obtain ⟨earlier, last⟩ := List.forall_mem_append.mp whole
    obtain ⟨history, m, rfl, so, idle⟩ := ih earlier
    have now : ∃ answer v, m.use? use = some (answer, v) ∧ v.attempt = none := by
      cases use with
      | produce =>
        exact ⟨.made m.station.produce.1, { m with station := m.station.produce.2 },
          by rw [Workplace.use?, idle], idle⟩
      | accept | start | stop => exact ⟨_, _, rfl, idle⟩
      | enter | leave => cases last _ (.head _)
    obtain ⟨answer, v, now, idle⟩ := now
    exact ⟨history ++ [(use, answer)], v, by simp, so.next now, idle⟩

theorem isOk_outcome (kind : κ) (limit : Option Nat) (attempt : Nat) :
    (outcome kind limit attempt).isOk = true ↔ ∀ first ∈ limit, attempt < first := by
  unfold outcome
  split
  case isTrue pass => exact iff_of_true rfl pass
  case isFalse fail => exact iff_of_false Bool.false_ne_true fail

theorem successes_of_pass (pass : ∀ first ∈ limit, b < first) : successes limit b = b := by
  cases limit with
  | none => rfl
  | some first => exact Nat.min_eq_left (Nat.le_of_lt (pass first rfl))

theorem products_outcomes (kind : κ) (limit : Option Nat) (attempts : Nat) :
    ((List.range attempts).map (outcome kind limit)).filterMap Except.toOption =
      (List.range (successes limit attempts)).map (Goods.make kind) := by
  induction attempts with
  | zero => cases limit <;> simp [successes]
  | succ n ih =>
    rw [List.range_succ, List.map_append, List.filterMap_append, ih]
    by_cases pass : ∀ first ∈ limit, n < first
    · have last : (outcome kind limit n).toOption = some (Goods.make kind n) := by
        rw [outcome, if_pos pass]
        rfl
      rw [successes_succ, if_pos pass, successes_of_pass pass, List.range_succ, List.map_append]
      simp [last]
    · have last : (outcome kind limit n).toOption = none := by
        rw [outcome, if_neg pass]
        rfl
      rw [successes_succ, if_neg pass]
      simp [last]

theorem Told.result {k : Nat} {result : Except StationError π}
    (told : Told kind limit b made offered w) (there : made[k]? = some result) :
    result = outcome kind limit k := by
  rw [told.outcomes, List.getElem?_map] at there
  obtain ⟨n, found, rfl⟩ := Option.map_eq_some_iff.mp there
  obtain ⟨_, rfl⟩ := List.getElem?_eq_some_iff.mp found
  simp

theorem isKind_make_iff (a b : κ) (attempt : Nat) :
    Goods.isKind (Goods.make a attempt) b = true ↔ a = b := by
  constructor
  · exact Goods.isKind_unique (Goods.isKind_make a attempt)
  · rintro rfl
    exact Goods.isKind_make a attempt

-- What the counters and the answers tell of what was done.
structure Truthful (kind : κ) (limit : Option Nat) (history : History π) (w : Workplace κ) : Prop where
  attempts : w.station.attempts = begun history
  -- An attempt that was begun has ended, or is the one that is being made.
  ended : w.station.attempts = (results history).length + w.attempt.toList.length
  succeeds : ∀ k result, (results history)[k]? = some result →
    (result.isOk = true ↔ ∀ first ∈ limit, k < first)
  permanent : ∀ (i j : Nat) (failed later : Except StationError π), i ≤ j →
    (results history)[i]? = some failed → failed.isOk = false →
      (results history)[j]? = some later → later.isOk = false
  produced : w.station.produced = successes limit (results history).length
  complete : w.attempt = none → w.station.produced = successes limit w.station.attempts
  products : products history = (List.range w.station.produced).map (Goods.make kind)
  offered : w.station.returned + w.station.rejected = (offers history).length
  rejected : w.station.rejected = (offers history).countP (!Goods.isKind · kind)
  verdicts : ∀ product answer, (.accept product, answer) ∈ history →
    answer = .taken (if Goods.isKind product kind then .ok ()
      else .error (.invalidProduct (Goods.typeName kind)))
  -- What a station made is taken back by those of its kind alone.
  home : ∀ maker attempt answer, (.accept (Goods.make maker attempt), answer) ∈ history →
    (answer = .taken (.ok ()) ↔ maker = kind)
  untouched : ∀ product, Goods.isKind product kind = false →
    (w.station.acceptReturn product).2 = { w.station with rejected := w.station.rejected + 1 }

theorem Worked.truthful {delay : Span} (run : Worked (.opened kind delay limit) history w) :
    Truthful kind limit history w where
  attempts := run.told.attempts
  ended := run.told.attempts.trans run.told.ended
  succeeds := by
    intro k result there
    rw [run.told.result there]
    exact isOk_outcome kind limit k
  permanent := by
    intro i j failed later le one failing two
    rw [run.told.result one, Bool.eq_false_iff, ne_eq, isOk_outcome] at failing
    rw [run.told.result two, Bool.eq_false_iff, ne_eq, isOk_outcome]
    intro pass
    exact failing fun first set => Nat.lt_of_le_of_lt le (pass first set)
  produced := run.told.produced
  complete := by
    intro idle
    have all : begun history = (results history).length := by simpa [idle] using run.told.ended
    rw [run.told.produced, run.told.attempts, all]
  products := by
    rw [products, run.told.produced, ← products_outcomes, ← run.told.outcomes]
  offered := by
    rw [run.told.returned, run.told.rejected]
    have all := List.length_eq_countP_add_countP (Goods.isKind · kind) (l := offers history)
    simpa using all.symm
  rejected := run.told.rejected
  verdicts := by
    intro product answer member
    exact run.verdict member
  home := by
    intro maker attempt answer member
    rw [run.verdict member, ← isKind_make_iff maker kind attempt]
    split
    case isTrue same => exact iff_of_true rfl same
    case isFalse other => exact iff_of_false nofun other
  untouched := by
    intro product other
    obtain rfl := run.told.makes
    rw [acceptReturn_other other]

-- Whatever is done to a station, the counters tell it: how many attempts there were, how many of them
-- succeeded, which are the first so many, and how many products came back and were refused for their
-- kind. Calls that leave nothing in between can be made in any sequence. The tickets that a station
-- makes are numbered from zero without a gap.
theorem counters_tell_truth (kind : κ) (delay : Span) (limit : Option Nat) :
    (∀ (history : History π) w, Worked (.opened kind delay limit) history w →
      Truthful kind limit history w) ∧
    (∀ uses : List (Use π), (∀ use ∈ uses, use.whole = true) → ∃ history w,
      history.map Prod.fst = uses ∧ Worked (.opened kind delay limit) history w ∧ w.attempt = none) ∧
    ∀ history w, Worked (.opened Product.Kind.ticket delay limit) history w →
      (products history).map Product.serial? = (List.range w.station.produced).map some := by
  refine ⟨fun history w run => run.truthful, worked_whole rfl, ?_⟩
  intro history w run
  rw [run.truthful.products, List.map_map]
  rfl

theorem Worked.cons {m : Workplace κ} {use : Use π} {answer : Answer π}
    (now : w.use? use = some (answer, m)) (later : Worked m history v) :
    Worked w ((use, answer) :: history) v := by
  induction later with
  | nothing => exact .next .nothing now
  | next _ last ih => exact ih.next last

-- A burger comes to a ticket station while it makes the first of its two tickets, and the first ticket
-- comes back after it has broken down.
def strayBurger : History Product :=
  [(.start, .nothing), (.enter, .nothing),
    (.accept .burger, .taken (.error (.invalidProduct "Ticket"))), (.leave, .made (.ok (.ticket 0))),
    (.produce, .made (.ok (.ticket 1))),
    (.produce, .made (.error (.failure "Ticket station broke down on attempt 2"))),
    (.accept (.ticket 0), .taken (.ok ()))]

theorem strayBurger_told :
    Worked (.opened Product.Kind.ticket ⟨0⟩ (some 2)) strayBurger
        ⟨⟨.ticket, ⟨0⟩, some 2, 3, 2, 1, 1, true, false⟩, none⟩ ∧
      begun strayBurger = 3 ∧ (products strayBurger).map Product.serial? = [some 0, some 1] ∧
      (offers strayBurger).length = 2 := by
  have run : Worked (.opened Product.Kind.ticket ⟨0⟩ (some 2)) strayBurger
      ⟨⟨.ticket, ⟨0⟩, some 2, 3, 2, 1, 1, true, false⟩, none⟩ :=
    .cons rfl (.cons rfl (.cons rfl (.cons rfl (.cons rfl (.cons rfl (.cons rfl .nothing))))))
  obtain ⟨truthful, _, tickets⟩ := counters_tell_truth Product.Kind.ticket ⟨0⟩ (some 2)
  have told := truthful _ _ run
  exact ⟨run, told.attempts.symm, tickets _ _ run, told.offered.symm⟩

end Kitchen.Simulated
