import Kitchen.Proofs.Refusals
import Mathlib.Data.List.Induction

namespace Kitchen.Engine

variable {s t : State} {events more : List Event} {call : CallId} {id : OrderId} {k : Nat}

-- Coming to collect leaves alone all that is not of the call, nor of the order with that number.
structure Spared (call : CallId) (id : OrderId) (s t : State) : Prop where
  rest : t = { s with board := t.board, workers := t.workers, calls := t.calls }
  board : t.board = { s.board with slots := t.board.slots }
  slots : ∀ other, other ≠ id → t.board.slots.get? other = s.board.slots.get? other
  workers : ∀ (i : Nat) (worker : Worker), s.workers[i]? = some worker →
    (∀ order, worker.phase.order? = some order → order.id ≠ id) → t.workers[i]? = some worker
  calls : ∀ other, other ≠ call → t.calls.get? other = s.calls.get? other

theorem Spared.refl (call : CallId) (id : OrderId) (s : State) : Spared call id s s :=
  ⟨rfl, rfl, fun _ _ => rfl, fun _ _ here _ => here, fun _ _ => rfl⟩

theorem wakePickup_spares {worker : Worker}
    (other : ∀ order, worker.phase.order? = some order → order.id ≠ id) :
    State.wakePickup id worker = worker := by
  obtain ⟨phase, report⟩ := worker
  cases phase with
  | holding order made told => simp [State.wakePickup, other order rfl]
  | _ => rfl

theorem collect_spares (step : Transition s (.collect call id) t more) :
    Spared call id s t ∧ placed more = [] := by
  cases begins_client rfl step with
  | collectUnknown unused | collectEarly unused =>
    rw [State.endCall_of_unused unused]
    exact ⟨.refl call id s, rfl⟩
  | collectReady =>
    refine ⟨⟨rfl, rfl, ?_, ?_, ?_⟩, rfl⟩
    · exact fun other differ => Table.get?_insert_of_ne _ _ differ.symm
    · intro i worker here other
      have woken : (s.workers.map (State.wakePickup id))[i]? = some (State.wakePickup id worker) := by
        rw [List.getElem?_map, here]
        rfl
      rw [wakePickup_spares other] at woken
      exact woken
    · exact fun other differ => Table.get?_insert_of_ne _ _ differ.symm
  | collectEnded =>
    refine ⟨⟨rfl, rfl, ?_, fun _ _ here _ => here, ?_⟩, rfl⟩
    · exact fun other differ => Table.get?_erase_of_ne _ differ.symm
    · exact fun other differ => Table.get?_insert_of_ne _ _ differ.symm

-- The handle of one order, and the kitchen that gave it out.
structure Pager where
  kitchen : Nat
  id : OrderId
deriving DecidableEq, Repr

structure Street where
  kitchens : List State
  pagers : List Pager
deriving DecidableEq, Repr

inductive Deed where
  -- One kitchen takes a step, and nobody comes to collect.
  | act (kitchen : Nat) (action : Action)
  -- A client comes to a kitchen with a pager.
  | present (kitchen : Nat) (call : CallId) (pager : Pager)
deriving DecidableEq, Repr

namespace Deed

def kitchen : Deed → Nat
  | .act kitchen _ | .present kitchen .. => kitchen

-- The kitchen reads only the number of the pager.
def action : Deed → Action
  | .act _ action => action
  | .present _ call pager => .collect call pager.id

end Deed

def actionsAt (k : Nat) (deeds : List Deed) : List Action :=
  (deeds.filter (·.kitchen = k)).map (·.action)

def pagersOf (k : Nat) (events : List Event) : List Pager :=
  (placed events).map fun order => ⟨k, order.id⟩

namespace Street

def opened (kitchens : List (List String × Nat)) : Street :=
  ⟨kitchens.map fun (stations, workers) => .opened stations workers, []⟩

def allows (street : Street) : Deed → Bool
  | .act _ (.collect ..) => false
  | .act .. => true
  | .present _ _ pager => street.pagers.contains pager

def step (street : Street) (deed : Deed) : Option (Street × List Event) :=
  if street.allows deed then
    (street.kitchens[deed.kitchen]?).bind fun s =>
      (s.step deed.action).map fun (t, events) =>
        (⟨street.kitchens.set deed.kitchen t, street.pagers ++ pagersOf deed.kitchen events⟩, events)
  else none

-- The pager that takes an order's result in this step, and that order's own pager.
def opens (street : Street) : Deed → List (Pager × Pager)
  | .act .. => []
  | .present k call pager =>
    match street.kitchens[k]? with
    | some s => (s.takes (.collect call pager.id)).map fun (_, id) => (pager, ⟨k, id⟩)
    | none => []

def play (street : Street) (deeds : List Deed) : Option (Street × List (Pager × Pager)) :=
  deeds.foldlM (fun (now, openings) deed => (now.step deed).map fun (next, _) =>
    (next, openings ++ now.opens deed)) (street, [])

-- Where these steps lead; nowhere if one of them is not possible.
def after (street : Street) (deeds : List Deed) : Street :=
  ((street.play deeds).getD (street, [])).1

end Street

variable {street middle last first : Street} {deed : Deed} {deeds : List Deed} {pager opener order : Pager}
  {openings : List (Pager × Pager)} {kitchens : List (List String × Nat)}

theorem mem_pagersOf : pager ∈ pagersOf k events ↔
    pager.kitchen = k ∧ ∃ products, .placed products pager.id ∈ events := by
  obtain ⟨home, id⟩ := pager
  simp only [pagersOf, List.mem_map]
  constructor
  · rintro ⟨⟨number, products⟩, member, same⟩
    cases same
    exact ⟨rfl, products, Placed.mem_placed.mp member⟩
  · rintro ⟨rfl, products, member⟩
    exact ⟨⟨id, products⟩, Placed.mem_placed.mpr member, rfl⟩

namespace Street

theorem play_next : first.play (deeds ++ [deed]) = some (last, openings) ↔
    ∃ middle before more, first.play deeds = some (middle, before) ∧
      middle.step deed = some (last, more) ∧ openings = before ++ middle.opens deed := by
  simp only [play, List.foldlM_append, List.foldlM_cons, List.foldlM_nil, bind_pure,
    Option.bind_eq_bind, Option.bind_eq_some_iff, Option.map_eq_some_iff, Prod.exists, Prod.mk.injEq]
  constructor
  · rintro ⟨middle, before, earlier, next, more, ran, rfl, rfl⟩
    exact ⟨middle, before, more, earlier, ran, rfl⟩
  · rintro ⟨middle, before, more, earlier, ran, rfl⟩
    exact ⟨middle, before, earlier, last, more, ran, rfl, rfl⟩

theorem step_iff : street.step deed = some (last, more) ↔ street.allows deed = true ∧
    ∃ s t, street.kitchens[deed.kitchen]? = some s ∧ s.step deed.action = some (t, more) ∧
      last = ⟨street.kitchens.set deed.kitchen t, street.pagers ++ pagersOf deed.kitchen more⟩ := by
  unfold step
  split
  next allowed =>
    simp only [allowed, true_and, Option.bind_eq_some_iff, Option.map_eq_some_iff, Prod.exists,
      Prod.mk.injEq]
    constructor
    · rintro ⟨s, here, t, events, ran, rfl, rfl⟩
      exact ⟨s, t, here, ran, rfl⟩
    · rintro ⟨s, t, here, ran, rfl⟩
      exact ⟨s, here, t, more, ran, rfl, rfl⟩
  next refused => simp [refused]

-- Induction on the deeds in the order in which they were done, each at a kitchen that could do it.
@[elab_as_elim]
theorem play_induct
    {motive : ∀ (deeds : List Deed) (last : Street) (openings : List (Pager × Pager)),
      first.play deeds = some (last, openings) → Prop}
    (start : motive [] first [] rfl)
    (next : ∀ {deeds middle openings deed s t more}
      (past : first.play deeds = some (middle, openings)) (allowed : middle.allows deed = true)
      (here : middle.kitchens[deed.kitchen]? = some s) (ran : s.step deed.action = some (t, more)),
      motive deeds middle openings past →
        motive (deeds ++ [deed])
          ⟨middle.kitchens.set deed.kitchen t, middle.pagers ++ pagersOf deed.kitchen more⟩
          (openings ++ middle.opens deed)
          (play_next.mpr ⟨_, _, _, past, step_iff.mpr ⟨allowed, s, t, here, ran, rfl⟩, rfl⟩))
    {deeds : List Deed} {last : Street} {openings : List (Pager × Pager)}
    (played : first.play deeds = some (last, openings)) : motive deeds last openings played := by
  induction deeds using List.reverseRecOn generalizing last openings with
  | nil =>
    cases played
    exact start
  | append_singleton earlier deed ih =>
    obtain ⟨middle, before, more, past, ran, rfl⟩ := play_next.mp played
    obtain ⟨allowed, s, t, here, step, rfl⟩ := step_iff.mp ran
    exact next past allowed here step (ih past)

-- Results are taken at the kitchen where the client is, and only by clients with a pager.
theorem mem_opens (allowed : street.allows deed = true)
    (here : street.kitchens[deed.kitchen]? = some s) :
    (∃ opener, (opener, ⟨k, id⟩) ∈ street.opens deed) ↔
      deed.kitchen = k ∧ ∃ call, (call, id) ∈ s.takes deed.action := by
  cases deed with
  | act kitchen action =>
    constructor
    · rintro ⟨opener, member⟩
      cases member
    · rintro ⟨_, call, took⟩
      obtain ⟨same, _⟩ := takes_of took
      change action = _ at same
      rw [same] at allowed
      cases allowed
  | present kitchen call pager =>
    change street.kitchens[kitchen]? = some s at here
    simp only [opens, here, List.mem_map, Prod.mk.injEq, Pager.mk.injEq, Prod.exists, Deed.kitchen,
      Deed.action]
    constructor
    · rintro ⟨opener, caller, taken, took, _, rfl, rfl⟩
      exact ⟨rfl, caller, took⟩
    · rintro ⟨rfl, caller, took⟩
      exact ⟨pager, caller, id, took, rfl, rfl, rfl⟩

end Street

-- What the street has written down of one of its kitchens is what came to pass there.
structure Reflects (k : Nat) (deeds : List Deed) (openings : List (Pager × Pager)) (street : Street)
    (s : State) : Prop where
  run : ∃ stations workers events, Run (.opened stations workers) (actionsAt k deeds) events s
  given : ∀ id, ⟨k, id⟩ ∈ street.pagers ↔ id < s.board.nextOrder
  taken : ∀ id, (∃ opener, (opener, ⟨k, id⟩) ∈ openings) ↔ Taken s id

namespace Reflects

theorem orders (reflects : Reflects k deeds openings street s) : Orders s := by
  obtain ⟨stations, workers, events, run⟩ := reflects.run
  exact (Orders.opened stations workers).run run

theorem own (reflects : Reflects deed.kitchen deeds openings street s)
    (here : street.kitchens[deed.kitchen]? = some s) (allowed : street.allows deed = true)
    (ran : s.step deed.action = some (t, more)) :
    Reflects deed.kitchen (deeds ++ [deed]) (openings ++ street.opens deed)
      ⟨street.kitchens.set deed.kitchen t, street.pagers ++ pagersOf deed.kitchen more⟩ t := by
  obtain ⟨stations, workers, events, run⟩ := reflects.run
  have next : Run (.opened stations workers) (actionsAt deed.kitchen deeds ++ [deed.action])
      (events ++ more) t := .next run ran
  refine ⟨⟨stations, workers, events ++ more, ?_⟩, ?_, ?_⟩
  · simpa [actionsAt] using next
  · intro id
    rw [List.mem_append, reflects.given, mem_pagersOf, (Placed.run run).known_iff,
      (Placed.run next).known_iff]
    simp only [true_and, List.mem_append, exists_or]
  · intro id
    rw [taken_step_iff reflects.orders (transition_of_step ran), ← reflects.taken]
    simp only [List.mem_append, exists_or, Street.mem_opens allowed here, true_and]

theorem elsewhere (reflects : Reflects k deeds openings street s) (differ : deed.kitchen ≠ k)
    {there : State} (here : street.kitchens[deed.kitchen]? = some there)
    (allowed : street.allows deed = true) (kitchens : List State) :
    Reflects k (deeds ++ [deed]) (openings ++ street.opens deed)
      ⟨kitchens, street.pagers ++ pagersOf deed.kitchen more⟩ s := by
  refine ⟨?_, ?_, ?_⟩
  · simpa [actionsAt, differ] using reflects.run
  · intro id
    rw [List.mem_append, reflects.given, mem_pagersOf]
    simp [Ne.symm differ]
  · intro id
    simp only [List.mem_append, exists_or, Street.mem_opens allowed here, differ, false_and, or_false,
      reflects.taken]

theorem play (played : (Street.opened kitchens).play deeds = some (street, openings))
    (here : street.kitchens[k]? = some s) : Reflects k deeds openings street s := by
  induction played using Street.play_induct generalizing s with
  | start =>
    simp only [Street.opened, List.getElem?_map, Option.map_eq_some_iff] at here
    obtain ⟨⟨stations, workers⟩, _, rfl⟩ := here
    refine ⟨⟨stations, workers, [], .start⟩, ?_, ?_⟩
    · intro id
      simp [Street.opened, State.opened]
    · intro id
      constructor
      · rintro ⟨opener, member⟩
        cases member
      · exact fun taken => absurd taken.1 (Nat.not_lt_zero id)
  | @next _ _ _ deed _ _ _ _ allowed there step ih =>
    by_cases same : deed.kitchen = k
    · subst same
      rw [List.getElem?_set_self (List.getElem?_eq_some_iff.mp there).1] at here
      cases here
      exact (ih there).own there allowed step
    · rw [List.getElem?_set_ne same] at here
      exact (ih here).elsewhere same there allowed _

end Reflects

theorem pagers_apart (played : (Street.opened kitchens).play deeds = some (street, openings)) :
    street.pagers.Nodup := by
  induction played using Street.play_induct with
  | start => exact List.nodup_nil
  | @next _ _ _ deed _ _ more past _ here step ih =>
    have reflects := Reflects.play past here
    obtain ⟨stations, workers, events, run⟩ := reflects.run
    have numbers := (Placed.run (.next run step)).numbers
    have apart : ((placed events ++ placed more).map (·.id)).Nodup := by
      rw [← placed_append, numbers]
      exact List.nodup_range
    rw [List.map_append, List.nodup_append] at apart
    obtain ⟨_, new, distinct⟩ := apart
    refine List.nodup_append.mpr ⟨ih, ?_, ?_⟩
    · have numbered : pagersOf deed.kitchen more =
          ((placed more).map (·.id)).map (Pager.mk deed.kitchen) := by
        rw [List.map_map]
        rfl
      rw [numbered]
      exact new.map fun _ _ same => (Pager.mk.inj same).2
    · rintro old given pager fresh rfl
      obtain ⟨mine, products, member⟩ := mem_pagersOf.mp fresh
      obtain ⟨home, id⟩ := old
      subst mine
      obtain ⟨other, earlier⟩ := (Placed.run run).known_iff.mp ((reflects.given id).mp given)
      exact distinct id (List.mem_map_of_mem (f := Order.id) (Placed.mem_placed.mpr earlier)) id
        (List.mem_map_of_mem (f := Order.id) (Placed.mem_placed.mpr member)) rfl

-- A deed takes no result, or the one that bears the number of the pager.
theorem opens_cases (allowed : street.allows deed = true)
    (here : street.kitchens[deed.kitchen]? = some s) :
    street.opens deed = [] ∨ ∃ call pager, deed = .present deed.kitchen call pager ∧
      pager ∈ street.pagers ∧ (call, pager.id) ∈ s.takes (.collect call pager.id) ∧
      street.opens deed = [(pager, ⟨deed.kitchen, pager.id⟩)] := by
  cases deed with
  | act => exact .inl rfl
  | present kitchen call pager =>
    change street.kitchens[kitchen]? = some s at here
    have given : pager ∈ street.pagers := by simpa [Street.allows] using allowed
    rcases takes_short s (.collect call pager.id) with none | ⟨caller, id, one⟩
    · exact .inl (by simp [Street.opens, here, none])
    · have took : (caller, id) ∈ s.takes (.collect call pager.id) := one ▸ List.mem_singleton_self _
      obtain ⟨same, _⟩ := takes_of took
      cases same
      exact .inr ⟨call, pager, rfl, given, took, by simp [Street.opens, here, one, Deed.kitchen]⟩

-- Each result is taken once, with a pager that bears the number of its order.
theorem openings_apart (played : (Street.opened kitchens).play deeds = some (street, openings)) :
    (openings.map (·.2)).Nodup ∧ ∀ opener order, (opener, order) ∈ openings →
      opener ∈ street.pagers ∧ order ∈ street.pagers ∧ opener.id = order.id := by
  induction played using Street.play_induct with
  | start => exact ⟨List.nodup_nil, by simp⟩
  | @next _ middle before deed _ _ more past allowed here _ ih =>
    obtain ⟨once, numbered⟩ := ih
    have reflects := Reflects.play past here
    have kept : ∀ opener order, (opener, order) ∈ before →
        opener ∈ middle.pagers ++ pagersOf deed.kitchen more ∧
          order ∈ middle.pagers ++ pagersOf deed.kitchen more ∧ opener.id = order.id := by
      intro opener order member
      obtain ⟨opens, opened, same⟩ := numbered opener order member
      exact ⟨List.mem_append_left _ opens, List.mem_append_left _ opened, same⟩
    rcases opens_cases allowed here with none | ⟨call, pager, _, given, took, one⟩
    · rw [none, List.append_nil]
      exact ⟨once, kept⟩
    · rw [one]
      constructor
      · refine nodup_map_concat once ?_
        rintro ⟨opener, order⟩ member rfl
        exact not_taken_of_takes took ((reflects.taken _).mp ⟨opener, member⟩)
      · intro opener order member
        rcases List.mem_append.mp member with earlier | now
        · exact kept opener order earlier
        · cases List.mem_singleton.mp now
          obtain ⟨_, _, found, _⟩ := takes_of took
          have own := (reflects.given _).mpr (reflects.orders.known found)
          exact ⟨List.mem_append_left _ given, List.mem_append_left _ own, rfl⟩

-- Whoever went to another kitchen than that of the pager went to one that had no order of the same
-- number left to take.
def KeptApart (first : Street) (deeds : List Deed) : Prop :=
  ∀ earlier k call pager later middle before, deeds = earlier ++ .present k call pager :: later →
    first.play earlier = some (middle, before) → k ≠ pager.kitchen →
      ⟨k, pager.id⟩ ∉ middle.pagers ∨ ∃ opener, (opener, ⟨k, pager.id⟩) ∈ before

theorem own_of_keptApart (played : (Street.opened kitchens).play deeds = some (street, openings))
    (apart : KeptApart (.opened kitchens) deeds) :
    ∀ opener order, (opener, order) ∈ openings → opener = order := by
  induction played using Street.play_induct with
  | start => simp
  | @next earlier middle before deed _ _ _ past allowed here _ ih =>
    have early : KeptApart (.opened kitchens) earlier := by
      intro sooner k call pager later middle before split
      exact apart sooner k call pager (later ++ [deed]) middle before (by simp [split])
    have reflects := Reflects.play past here
    intro opener order member
    rcases List.mem_append.mp member with before | now
    · exact ih early opener order before
    · rcases opens_cases allowed here with none | ⟨call, pager, presented, _, took, one⟩
      · rw [none] at now
        cases now
      · rw [one] at now
        cases List.mem_singleton.mp now
        by_cases home : deed.kitchen = opener.kitchen
        · rw [home]
        · obtain ⟨_, _, found, _⟩ := takes_of took
          rcases apart earlier _ call opener [] middle before (by rw [← presented]) past home with
            unknown | taken
          · exact absurd ((reflects.given _).mpr (reflects.orders.known found)) unknown
          · exact absurd ((reflects.taken _).mp taken) (not_taken_of_takes took)

theorem step_present (given : pager ∈ street.pagers) (here : street.kitchens[k]? = some s)
    (ran : s.step (.collect call pager.id) = some (t, more)) :
    street.step (.present k call pager) =
      some ({ street with kitchens := street.kitchens.set k t }, more) := by
  obtain ⟨_, silent⟩ := collect_spares (transition_of_step ran)
  refine Street.step_iff.mpr ⟨?_, s, t, here, ran, ?_⟩
  · simpa [Street.allows] using given
  · simp [Deed.kitchen, pagersOf, silent]

theorem present_step (here : street.kitchens[k]? = some s)
    (ran : street.step (.present k call pager) = some (last, more)) :
    ∃ t, s.step (.collect call pager.id) = some (t, more) ∧
      last = { street with kitchens := street.kitchens.set k t } := by
  obtain ⟨_, u, t, there, step, rfl⟩ := Street.step_iff.mp ran
  cases here.symm.trans there
  obtain ⟨_, silent⟩ := collect_spares (transition_of_step step)
  exact ⟨t, step, by simp [Deed.kitchen, pagersOf, silent]⟩

theorem set_unchanged (here : street.kitchens[k]? = some s) :
    { street with kitchens := street.kitchens.set k s } = street := by
  obtain ⟨inside, same⟩ := List.getElem?_eq_some_iff.mp here
  rw [← same, List.set_getElem_self inside]

-- A kitchen looks at nothing but the number. Whoever comes with a pager, from wherever, is told that
-- it is unknown, and leaves everything as it is, exactly if the kitchen has not given out that number
-- or somebody has taken that order's result already; if the kitchen still has an order of that
-- number, it answers as if its own pager had come, and what is ready is taken. All else in that
-- kitchen and all other kitchens are left alone. No order is taken twice, and who stays away from
-- kitchens that have an order of the same number opens the own order only, and only once.
theorem strange_pagers_unknown_unless_number_shared
    (played : (Street.opened kitchens).play deeds = some (street, openings))
    (given : pager ∈ street.pagers) (here : street.kitchens[k]? = some s)
    (unused : s.calls.get? call = none) :
    (street.step (.present k call pager) =
        some (street, [.replied call (.collected (.spoiled (.unknownPager pager.id)))]) ↔
      ⟨k, pager.id⟩ ∉ street.pagers ∨ ∃ opener, (opener, ⟨k, pager.id⟩) ∈ openings) ∧
    (⟨k, pager.id⟩ ∈ street.pagers → (∀ opener, (opener, ⟨k, pager.id⟩) ∉ openings) →
      (s.board.orderState pager.id = some .queued ∨
          s.board.orderState pager.id = some .dispatched) ∧
        street.step (.present k call pager) =
          some (street, [.replied call (.collected (.spoiled (.notReady pager.id)))]) ∨
      street.opens (.present k call pager) = [(pager, ⟨k, pager.id⟩)] ∧
        ∃ t, street.step (.present k call pager) =
            some ({ street with kitchens := street.kitchens.set k t }, []) ∧
          t.calls.get? call = some (.collecting pager.id)) ∧
    (∀ next more, street.step (.present k call pager) = some (next, more) →
      ∃ t, next = { street with kitchens := street.kitchens.set k t } ∧
        Spared call pager.id s t) ∧
    street.pagers.Nodup ∧ (openings.map (·.2)).Nodup ∧
    (∀ opener order, (opener, order) ∈ openings →
      opener ∈ street.pagers ∧ order ∈ street.pagers ∧ opener.id = order.id) ∧
    (KeptApart (.opened kitchens) deeds →
      (∀ opener order, (opener, order) ∈ openings → opener = order) ∧
        (openings.map (·.1)).Nodup) := by
  have reflects := Reflects.play played here
  obtain ⟨once, numbered⟩ := openings_apart played
  refine ⟨⟨?_, ?_⟩, ?_, ?_, pagers_apart played, once, numbered, ?_⟩
  · intro told
    obtain ⟨t, ran, _⟩ := present_step here told
    rw [reflects.given, reflects.taken]
    cases begins_client rfl (transition_of_step ran) with
    | collectUnknown _ gone => exact Decidable.not_or_of_imp fun known => ⟨known, gone⟩
  · intro absent
    have gone : ∀ slot, s.board.slots.get? pager.id = some slot → slot.uncollected = false := by
      intro slot found
      rcases absent with unknown | taken
      · exact absurd ((reflects.given _).mpr (reflects.orders.known found)) unknown
      · exact ((reflects.taken _).mp taken).2 slot found
    have told := collect_nothing unused gone
    rw [State.endCall_of_unused unused] at told
    rw [step_present given here told, set_unchanged here]
  · intro known untaken
    have free : ¬ Taken s pager.id := by
      rw [← reflects.taken]
      rintro ⟨opener, member⟩
      exact untaken opener member
    rcases early_or_takes reflects.orders ((reflects.given _).mp known) free unused with
      ⟨early, told⟩ | ⟨took, t, ran, waits⟩
    · refine .inl ⟨early, ?_⟩
      rw [step_present given here told, set_unchanged here]
    · refine .inr ⟨?_, t, step_present given here ran, waits⟩
      obtain ⟨_, _, found, collectible⟩ := takes_of took
      simp only [Street.opens, here, takes_eq found collectible, List.map_cons, List.map_nil]
  · intro next more ran
    obtain ⟨t, step, same⟩ := present_step here ran
    exact ⟨t, same, (collect_spares (transition_of_step step)).1⟩
  · intro apart
    have own := own_of_keptApart played apart
    refine ⟨own, ?_⟩
    have same : openings.map (·.1) = openings.map (·.2) :=
      List.map_congr_left fun entry member => own entry.1 entry.2 member
    rw [same]
    exact once

-- Somebody orders a burger in the first kitchen and asks for it in the second one, where nobody has
-- ordered yet.
def strayClient : List Deed :=
  [.act 0 (.worker 0), .act 0 (.runner 0), .act 0 (.order ["burger"] none)]

theorem strayClient_unknown :
    let street := (Street.opened [(["burger"], 1), (["t"], 1)]).after strayClient
    street.step (.present 1 1 ⟨0, 0⟩) =
      some (street, [.replied 1 (.collected (.spoiled (.unknownPager 0)))]) := by
  intro street
  have played : (Street.opened [(["burger"], 1), (["t"], 1)]).play strayClient =
      some (street, []) := by
    decide +kernel
  have given : ⟨0, 0⟩ ∈ street.pagers := by decide +kernel
  have here : street.kitchens[1]? = some (.opened ["t"] 1) := by decide +kernel
  obtain ⟨unknown, _⟩ := strange_pagers_unknown_unless_number_shared played given here
    (rfl : _ = none)
  exact unknown.mpr (.inl (by decide +kernel))

-- Two kitchens with one order each, both ready. The client of the first kitchen goes to the second
-- one, and then home.
def swappedPagers : List Deed :=
  [.act 0 (.worker 0), .act 0 (.runner 0), .act 0 (.order ["burger"] none), .act 0 (.worker 0),
    .act 0 (.worker 0), .act 0 (.runner 0), .act 0 (.runner 0), .act 0 (.produced 0 (.made .burger)),
    .act 0 (.runner 0), .act 0 (.worker 0), .act 0 (.worker 0)] ++
    [.act 1 (.worker 0), .act 1 (.runner 0), .act 1 (.order ["t"] none), .act 1 (.worker 0),
      .act 1 (.worker 0), .act 1 (.runner 0), .act 1 (.runner 0),
      .act 1 (.produced 0 (.made (.ticket 0))), .act 1 (.runner 0), .act 1 (.worker 0),
      .act 1 (.worker 0)] ++
    [.present 1 1 ⟨0, 0⟩, .act 1 (.worker 0), .act 1 (.worker 0), .present 0 2 ⟨0, 0⟩]

-- The pager of the first kitchen opens the order of the second one as well as its own, the meal of
-- the second kitchen goes to the wrong client, and its own client is told that there is nothing.
theorem strange_pager_takes_meal :
    let street := (Street.opened [(["burger"], 1), (["t"], 1)]).after swappedPagers
    (Street.opened [(["burger"], 1), (["t"], 1)]).play swappedPagers =
        some (street, [(⟨0, 0⟩, ⟨1, 0⟩), (⟨0, 0⟩, ⟨0, 0⟩)]) ∧
      ⟨0, 0⟩ ∈ street.pagers ∧ ⟨1, 0⟩ ∈ street.pagers ∧
      (street.step (.act 1 (.client 1))).map (·.2) =
        some [.replied 1 (.collected (.meal [⟨"t", 0, .ticket 0⟩]))] ∧
      street.step (.present 1 3 ⟨1, 0⟩) =
        some (street, [.replied 3 (.collected (.spoiled (.unknownPager 0)))]) := by
  intro street
  refine ⟨?_, ?_, ?_, ?_, ?_⟩
  all_goals decide +kernel

end Kitchen.Engine
