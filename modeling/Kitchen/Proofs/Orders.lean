import Kitchen.Proofs.Frames

-- Where each order is, and what the board and the signals say of it there. An order waits, then one
-- worker has it, then it is over; its slot, its buzzer and its result follow that place.

namespace Kitchen.Engine

variable {s t : State} {i : Nat} {next : Nat} {id : OrderId} {order : Order} {unassigned rest : List Order}
  {phase old p q : WorkerPhase} {crew : List WorkerPhase} {report : Report}

namespace WorkerPhase

def order? : WorkerPhase → Option Order
  | .claimed order | .awaiting order _ _ | .holding order _ _ | .returning order _ _
  | .handingBack order _ _ _ _ | .delivering order _ => some order
  | _ => none

-- The order that a worker has and that has no outcome yet.
def open? : WorkerPhase → Option Order
  | .claimed order | .awaiting order _ _ | .holding order _ _ => some order
  | _ => none

def wake : WorkerPhase → WorkerPhase
  | .asleep _ => .asleep true
  | phase => phase

def wakePickup (id : OrderId) : WorkerPhase → WorkerPhase
  | .holding order made notified => .holding order made (notified || order.id = id)
  | phase => phase

theorem seeks_order (seeks : seeks phase = true) : order? phase = none := by
  cases phase <;> first | rfl | cases seeks

theorem open?_order (found : open? phase = some order) : order? phase = some order := by
  cases phase <;> first | exact found | cases found

theorem wake_eq (equal : phase.wake = later) (awake : ∀ notified, later ≠ .asleep notified) :
    phase = later := by
  cases phase with
  | asleep notified => exact absurd equal.symm (awake _)
  | _ => exact equal

-- Who comes for an order tells nobody but the worker that holds it.
theorem wakePickup_eq (equal : phase.wakePickup id = later)
    (other : ∀ order made notified, later ≠ .holding order made notified) : phase = later := by
  cases phase with
  | holding order made notified => exact absurd equal.symm (other _ _ _)
  | _ => exact equal

theorem wake_order (phase : WorkerPhase) : phase.wake.order? = phase.order? := by
  cases phase <;> rfl

theorem wake_open (phase : WorkerPhase) : phase.wake.open? = phase.open? := by
  cases phase <;> rfl

theorem wakePickup_order (id : OrderId) (phase : WorkerPhase) :
    (phase.wakePickup id).order? = phase.order? := by
  cases phase <;> rfl

theorem wakePickup_open (id : OrderId) (phase : WorkerPhase) :
    (phase.wakePickup id).open? = phase.open? := by
  cases phase <;> rfl

end WorkerPhase

namespace State

def phases (s : State) : List WorkerPhase := s.workers.map (·.phase)

theorem phases_of (here : s.workers[i]? = some ⟨phase, report⟩) : s.phases[i]? = some phase := by
  simp [phases, here]

theorem phases_opened {workers : Nat}
    (found : (State.opened stations workers).phases[i]? = some phase) :
    phase = .starting := by
  simp only [phases, State.opened, List.map_replicate, List.getElem?_replicate] at found
  split at found
  · cases found
    rfl
  · cases found

theorem phases_setWorker (s : State) (i : Nat) (phase : WorkerPhase) (report : Report) :
    (s.setWorker i ⟨phase, report⟩).phases = s.phases.set i phase := by
  simp [phases, setWorker]

theorem phases_spread (s : State) (order : Order) (i : Nat) (phase : WorkerPhase) (report : Report) :
    ((s.spread order).1.setWorker i ⟨phase, report⟩).phases = s.phases.set i phase := by
  rw [phases_setWorker, phases, spread_workers]
  rfl

theorem wakeWorker_phase (worker : Worker) : (wakeWorker worker).phase = worker.phase.wake := by
  obtain ⟨phase, report⟩ := worker
  cases phase <;> rfl

theorem wakePickup_phase (id : OrderId) (worker : Worker) :
    (wakePickup id worker).phase = worker.phase.wakePickup id := by
  obtain ⟨phase, report⟩ := worker
  cases phase with
  | holding order made notified =>
    by_cases same : order.id = id <;> simp [State.wakePickup, WorkerPhase.wakePickup, same]
  | _ => rfl

theorem phases_wakeAllWorkers (s : State) : s.wakeAllWorkers.phases = s.phases.map (·.wake) := by
  simp only [phases, wakeAllWorkers, List.map_map, List.map_inj_left, Function.comp_apply]
  exact fun worker _ => wakeWorker_phase worker

theorem phases_notifyPickup (s : State) (id : OrderId) :
    (s.notifyPickup id).phases = s.phases.map (·.wakePickup id) := by
  simp only [phases, notifyPickup, List.map_map, List.map_inj_left, Function.comp_apply]
  exact fun worker _ => wakePickup_phase id worker

end State

-- Orders wait in the order of their numbers, all claimed ones come before them, and no two
-- workers have the same.
structure Roster (next : Nat) (unassigned : List Order) (crew : List WorkerPhase) : Prop where
  few : unassigned.length ≤ next
  queue : unassigned.map (·.id) = List.range' (next - unassigned.length) unassigned.length
  claimed : ∀ (i : Nat) (phase : WorkerPhase) (order : Order), crew[i]? = some phase →
    phase.order? = some order → order.id < (next - unassigned.length : Nat)
  apart : ∀ (i j : Nat) (p q : WorkerPhase) (a b : Order), crew[i]? = some p → crew[j]? = some q → p.order? = some a →
    q.order? = some b → a.id = b.id → i = j

namespace Roster

theorem queued_id (roster : Roster next unassigned crew) (waits : order ∈ unassigned) :
    (next - unassigned.length : Nat) ≤ order.id ∧ order.id < next := by
  have few := roster.few
  have inside : order.id ∈ unassigned.map (·.id) := List.mem_map_of_mem waits
  rw [roster.queue, List.mem_range'_1] at inside
  lia

theorem transfer (roster : Roster next unassigned crew)
    (before : ∀ (i : Nat) (q : WorkerPhase) (order : Order), later[i]? = some q →
      q.order? = some order → ∃ p, crew[i]? = some p ∧ p.order? = some order) :
    Roster next unassigned later := by
  refine ⟨roster.few, roster.queue, ?_, ?_⟩
  · intro i q order found has
    obtain ⟨p, was, had⟩ := before i q order found has
    exact roster.claimed i p order was had
  · intro i j p q a b foundI foundJ hasA hasB same
    obtain ⟨p', wasI, hadA⟩ := before i p a foundI hasA
    obtain ⟨q', wasJ, hadB⟩ := before j q b foundJ hasB
    exact roster.apart i j p' q' a b wasI wasJ hadA hadB same

theorem set (roster : Roster next unassigned crew) (here : crew[i]? = some old)
    (keeps : ∀ order, phase.order? = some order → old.order? = some order) :
    Roster next unassigned (crew.set i phase) := by
  refine roster.transfer ?_
  intro j q order found has
  rcases getElem?_set_cases found with ⟨rfl, rfl⟩ | ⟨_, before⟩
  · exact ⟨old, here, keeps order has⟩
  · exact ⟨q, before, has⟩

theorem map (roster : Roster next unassigned crew) (f : WorkerPhase → WorkerPhase)
    (keeps : ∀ phase, (f phase).order? = phase.order?) :
    Roster next unassigned (crew.map f) := by
  refine roster.transfer ?_
  intro i q order found has
  rw [List.getElem?_map, Option.map_eq_some_iff] at found
  obtain ⟨p, was, rfl⟩ := found
  exact ⟨p, was, keeps p ▸ has⟩

theorem accept (roster : Roster next unassigned crew) (products : List String) :
    Roster (next + 1) (unassigned ++ [⟨next, products⟩]) crew := by
  have few := roster.few
  have same : next + 1 - (unassigned ++ [(⟨next, products⟩ : Order)]).length =
      next - unassigned.length := by simp
  refine ⟨by simp; lia, ?_, ?_, roster.apart⟩
  · rw [same, List.map_append, roster.queue, List.length_append, List.length_singleton,
      List.range'_concat]
    simp only [List.map_cons, List.map_nil, Nat.one_mul]
    congr 2
    lia
  · rw [same]
    exact roster.claimed

theorem claim (roster : Roster next (order :: rest) crew) (here : crew[i]? = some old) :
    Roster next rest (crew.set i (.claimed order)) := by
  have few := roster.few
  have queue := roster.queue
  simp only [List.length_cons] at few
  rw [List.map_cons, List.length_cons, List.range'_succ] at queue
  obtain ⟨first, later⟩ := List.cons.inj queue
  have place : next - (rest.length + 1) + 1 = next - rest.length := by lia
  have bound : ∀ (j : Nat) (q : WorkerPhase) (o : Order), crew[j]? = some q → q.order? = some o → o.id < order.id := by
    intro j q o found has
    have := roster.claimed j q o found has
    simp only [List.length_cons] at this
    lia
  have after : ∀ (j : Nat) (q : WorkerPhase) (o : Order), (crew.set i (.claimed order))[j]? = some q → q.order? = some o →
      j = i ∧ o = order ∨ j ≠ i ∧ crew[j]? = some q := by
    intro j q o found has
    rcases getElem?_set_cases found with ⟨same, rfl⟩ | before
    · cases has
      exact .inl ⟨same, rfl⟩
    · exact .inr before
  refine ⟨by lia, by rw [later, place], ?_, ?_⟩
  · intro j q o found has
    rcases after j q o found has with ⟨_, rfl⟩ | ⟨_, was⟩
    · lia
    · have := bound j q o was has
      lia
  · intro j k p q a b foundJ foundK hasA hasB same
    rcases after j p a foundJ hasA with ⟨rfl, rfl⟩ | ⟨otherJ, wasJ⟩
    · rcases after k q b foundK hasB with ⟨rfl, rfl⟩ | ⟨otherK, wasK⟩
      · rfl
      · have := bound k q b wasK hasB
        lia
    · rcases after k q b foundK hasB with ⟨rfl, rfl⟩ | ⟨otherK, wasK⟩
      · have := bound j p a wasJ hasA
        lia
      · exact roster.apart j k p q a b wasJ wasK hasA hasB same

end Roster

-- What the board and the signals hold for one order.
structure View where
  slot : Option Slot
  buzzer : Option (Signal Readiness)
  result : Option (Signal Outcome)

def State.view (s : State) (id : OrderId) : View :=
  ⟨s.board.slots.get? id, s.buzzers.get? id, s.results.get? id⟩

def Ending.state : Ending → OrderState
  | .expired => .expired
  | .failed => .failed

def Ending.readiness : Ending → Readiness
  | .expired => .ready
  | .failed => .malfunction

-- The buzzer was told `readiness`, whether or not somebody has heard it.
def Buzzed (readiness : Readiness) (buzzer : Option (Signal Readiness)) : Prop :=
  buzzer = some ⟨.holding readiness, true⟩ ∨ buzzer = some ⟨.closed, true⟩

-- The order's result was sent, or never will be.
def Answered (result : Option (Signal Outcome)) : Prop :=
  (∃ outcome, result = some ⟨.holding outcome, true⟩) ∨ result = some ⟨.closed, true⟩

namespace View

-- The order ended so, or was delivered, and its slot is there until somebody takes it.
def Ended (v : View) (ending : Ending) : Prop :=
  (v.slot = some ⟨ending.state, true⟩ ∨ v.slot = none) ∧ Buzzed ending.readiness v.buzzer

def Over (v : View) : Prop := (∃ ending, v.Ended ending) ∧ Answered v.result

-- What a worker's phase says of the order it has; a worker without one has brought its last
-- order to an end.
def Fits (v : View) : WorkerPhase → Prop
  | .claimed _ => v.slot = some ⟨.queued, true⟩ ∧ v.buzzer = some .fresh ∧ v.result = some .fresh
  | .awaiting _ _ _ =>
    v.slot = some ⟨.dispatched, true⟩ ∧ v.buzzer = some .fresh ∧ v.result = some .fresh
  | .holding _ _ false =>
    v.slot = some ⟨.ready, true⟩ ∧ Buzzed .ready v.buzzer ∧ v.result = some .fresh
  | .holding _ _ true =>
    v.slot = some ⟨.pickedUp, false⟩ ∧ Buzzed .ready v.buzzer ∧ v.result = some .fresh
  | .returning _ ending _ | .handingBack _ ending _ _ _ =>
    v.Ended ending ∧ v.result = some .fresh
  | .delivering _ _ => v.slot = none ∧ Buzzed .ready v.buzzer ∧ v.result = some .fresh
  | .starting | .free | .asleep _ | .finished | .dead => v.Over

def blank : View := ⟨none, none, none⟩

theorem Fits.past (fits : Fits v phase) (free : phase.order? = none) : v.Over := by
  cases phase <;> first | exact fits | cases free

theorem Over.fits (past : Over v) (free : phase.order? = none) : v.Fits phase := by
  cases phase <;> first | exact past | cases free

-- While a worker has an order nobody was told how it ended.
theorem Fits.unanswered (fits : Fits v phase) (has : phase.order? = some order) :
    v.result = some .fresh := by
  cases phase with
  | holding _ _ told => cases told <;> exact fits.2.2
  | returning | handingBack => exact fits.2
  | claimed | awaiting | delivering => exact fits.2.2
  | _ => cases has

end View

-- Every order's view fits its place.
structure Orders (s : State) : Prop where
  roster : Roster s.board.nextOrder s.board.unassigned s.phases
  queued : ∀ order ∈ s.board.unassigned, (s.view order.id).Fits (.claimed order)
  had : ∀ (i : Nat) (phase : WorkerPhase) (order : Order), s.phases[i]? = some phase →
    phase.order? = some order → (s.view order.id).Fits phase
  past : ∀ id, id < s.board.nextOrder → (∀ order ∈ s.board.unassigned, order.id ≠ id) →
    (∀ (i : Nat) (phase : WorkerPhase) (order : Order), s.phases[i]? = some phase →
      phase.order? = some order → order.id ≠ id) → (s.view id).Over
  unknown : ∀ id, s.board.nextOrder ≤ id → s.view id = .blank

namespace Orders

theorem opened (stations : List String) (workers : Nat) : Orders (.opened stations workers) := by
  have free : ∀ (i : Nat) (phase : WorkerPhase) (order : Order),
      (State.opened stations workers).phases[i]? = some phase → phase.order? = some order → False := by
    intro i phase order found has
    cases State.phases_opened found
    cases has
  refine ⟨⟨Nat.zero_le _, rfl, ?_, ?_⟩, ?_, ?_, ?_, ?_⟩
  · intro i phase order found has
    exact (free i phase order found has).elim
  · intro i j p q a b found _ has
    exact (free i p a found has).elim
  · intro order waits
    cases waits
  · intro i phase order found has
    exact (free i phase order found has).elim
  · intro id below
    exact absurd below (Nat.not_lt_zero id)
  · intro id _
    rfl

theorem move (orders : Orders s) (here : s.phases[i]? = some old) (has : old.order? = some order)
    (crew : t.phases = s.phases.set i phase)
    (keeps : phase.order? = some order ∨ phase.order? = none)
    (next : t.board.nextOrder = s.board.nextOrder)
    (unassigned : t.board.unassigned = s.board.unassigned)
    (view : ∀ id, t.view id = if order.id = id then v else s.view id) (fits : v.Fits phase) :
    Orders t := by
  have frame : ∀ id, id ≠ order.id → t.view id = s.view id :=
    fun id other => (view id).trans (if_neg (Ne.symm other))
  replace fits : (t.view order.id).Fits phase := by
    rw [view, if_pos rfl]
    exact fits
  have inside : i < s.phases.length := (List.getElem?_eq_some_iff.mp here).1
  have now : t.phases[i]? = some phase := by simp [crew, inside]
  have others : ∀ j, j ≠ i → t.phases[j]? = s.phases[j]? := by
    intro j other
    simp [crew, Ne.symm other]
  have claimed := orders.roster.claimed i old order here has
  have few := orders.roster.few
  refine ⟨?_, ?_, ?_, ?_, ?_⟩
  · rw [next, unassigned, crew]
    refine orders.roster.set here ?_
    intro o hasO
    rcases keeps with kept | free
    · rw [has, ← kept, hasO]
    · rw [free] at hasO; cases hasO
  · intro o waits
    rw [unassigned] at waits
    have place := orders.roster.queued_id waits
    rw [frame o.id (by lia)]
    exact orders.queued o waits
  · intro j q o found hasO
    by_cases same : j = i
    · subst j
      rw [now] at found
      cases found
      rcases keeps with kept | free
      · rw [kept] at hasO
        cases hasO
        exact fits
      · rw [free] at hasO
        cases hasO
    · rw [others j same] at found
      have apart : o.id ≠ order.id := fun equal =>
        same (orders.roster.apart j i q old o order found here hasO has equal)
      rw [frame o.id apart]
      exact orders.had j q o found hasO
  · intro id below unqueued unheld
    rw [next] at below
    rw [unassigned] at unqueued
    -- The worker's own order is over only if it was let go; any other was over before.
    by_cases same : id = order.id
    · subst same
      rcases keeps with kept | free
      · exact absurd rfl (unheld i phase order now kept)
      · exact fits.past free
    · rw [frame id same]
      refine orders.past id below unqueued ?_
      intro j q o found hasO
      by_cases mine : j = i
      · subst j
        rw [here] at found
        cases found
        rw [has] at hasO
        cases hasO
        exact Ne.symm same
      · exact unheld j q o (by rw [others j mine]; exact found) hasO
  · intro id beyond
    rw [next] at beyond
    rw [frame id (by lia)]
    exact orders.unknown id beyond

-- Nobody gets or loses an order, and what is heard or taken fits every place as before.
theorem look (orders : Orders s)
    (hands : ∀ (i : Nat) (q : WorkerPhase) (o : Order), q.order? = some o →
      (t.phases[i]? = some q ↔ s.phases[i]? = some q))
    (next : t.board.nextOrder = s.board.nextOrder)
    (unassigned : t.board.unassigned = s.board.unassigned)
    (fits : ∀ id phase, (s.view id).Fits phase → (t.view id).Fits phase)
    (unknown : ∀ id, s.view id = .blank → t.view id = .blank) : Orders t := by
  refine ⟨?_, ?_, ?_, ?_, ?_⟩
  · rw [next, unassigned]
    refine orders.roster.transfer ?_
    intro i q order found has
    exact ⟨q, (hands i q order has).mp found, has⟩
  · intro order waits
    rw [unassigned] at waits
    exact fits _ _ (orders.queued order waits)
  · intro i q order found has
    exact fits _ _ (orders.had i q order ((hands i q order has).mp found) has)
  · intro id below unqueued unheld
    rw [next] at below
    rw [unassigned] at unqueued
    have past := orders.past id below unqueued fun i q order found has =>
      unheld i q order ((hands i q order has).mpr found) has
    exact (fits id .free (past.fits rfl)).past rfl
  · intro id beyond
    rw [next] at beyond
    exact unknown id (orders.unknown id beyond)

theorem same (orders : Orders s)
    (hands : ∀ (i : Nat) (q : WorkerPhase) (o : Order), q.order? = some o →
      (t.phases[i]? = some q ↔ s.phases[i]? = some q))
    (next : t.board.nextOrder = s.board.nextOrder)
    (unassigned : t.board.unassigned = s.board.unassigned) (view : ∀ id, t.view id = s.view id) :
    Orders t :=
  orders.look hands next unassigned (fun id _ fits => view id ▸ fits)
    (fun id blank => (view id).trans blank)

theorem hands_set (here : s.phases[i]? = some old) (free : old.order? = none)
    (empty : phase.order? = none) (j : Nat) (q : WorkerPhase) (o : Order)
    (has : q.order? = some o) : (s.phases.set i phase)[j]? = some q ↔ s.phases[j]? = some q := by
  rw [List.getElem?_set]
  split
  next mine =>
    subst mine
    split
    · constructor
      · intro equal
        cases equal
        rw [empty] at has
        cases has
      · intro equal
        rw [here] at equal
        cases equal
        rw [free] at has
        cases has
    next outside =>
      have inside := (List.getElem?_eq_some_iff.mp here).1
      exact absurd inside outside
  next => exact Iff.rfl

theorem hands_wake (j : Nat) (q : WorkerPhase) (o : Order) (has : q.order? = some o) :
    (s.phases.map (·.wake))[j]? = some q ↔ s.phases[j]? = some q := by
  rw [List.getElem?_map, Option.map_eq_some_iff]
  constructor
  · rintro ⟨p, found, rfl⟩
    rw [found]
    cases p <;> first | rfl | cases has
  · intro found
    refine ⟨q, found, ?_⟩
    cases q <;> first | rfl | cases has

theorem claim (orders : Orders s) (here : s.phases[i]? = some old) (free : old.order? = none)
    (first : s.board.unassigned = order :: rest) (crew : t.phases = s.phases.set i (.claimed order))
    (next : t.board.nextOrder = s.board.nextOrder) (unassigned : t.board.unassigned = rest)
    (view : ∀ id, t.view id = s.view id) : Orders t := by
  have inside : i < s.phases.length := (List.getElem?_eq_some_iff.mp here).1
  have roster := orders.roster
  rw [first] at roster
  have fits := orders.queued order (by simp [first])
  refine ⟨?_, ?_, ?_, ?_, ?_⟩
  · rw [next, unassigned, crew]
    exact roster.claim here
  · intro o waits
    rw [unassigned] at waits
    rw [view]
    exact orders.queued o (by simp [first, waits])
  · intro j q o found has
    rw [view]
    rcases getElem?_set_cases (crew ▸ found) with ⟨_, rfl⟩ | ⟨_, before⟩
    · cases has
      exact fits
    · exact orders.had j q o before has
  · intro id below unqueued unheld
    rw [next] at below
    rw [view]
    refine orders.past id below ?_ ?_
    · intro o waits
      rw [first] at waits
      rcases List.mem_cons.mp waits with rfl | later
      · exact unheld i (.claimed o) o (by simp [crew, inside]) rfl
      · exact unqueued o (unassigned ▸ later)
    · intro j q o found has
      by_cases mine : i = j
      · subst mine
        rw [here] at found
        cases found
        rw [free] at has
        cases has
      · exact unheld j q o (by rw [crew, List.getElem?_set_ne mine]; exact found) has
  · intro id beyond
    rw [next] at beyond
    rw [view]
    exact orders.unknown id beyond

theorem accept_view (s : State) (products : List String) (id : OrderId) :
    (s.accept products).view id =
      if s.board.nextOrder = id then ⟨some ⟨.queued, true⟩, some .fresh, some .fresh⟩
      else s.view id := by
  simp only [State.view, State.accept, Table.get?_insert]
  split <;> rfl

theorem accept (orders : Orders s) (products : List String) : Orders (s.accept products) := by
  have few := orders.roster.few
  refine ⟨orders.roster.accept products, ?_, ?_, ?_, ?_⟩
  · intro order waits
    rw [accept_view]
    rcases List.mem_append.mp waits with old | new
    · have place := orders.roster.queued_id old
      rw [if_neg (by lia)]
      exact orders.queued order old
    · cases List.mem_singleton.mp new
      rw [if_pos rfl]
      exact ⟨rfl, rfl, rfl⟩
  · intro i q order found has
    have claimed := orders.roster.claimed i q order found has
    rw [accept_view, if_neg (by lia)]
    exact orders.had i q order found has
  · intro id below unqueued unheld
    have other : s.board.nextOrder ≠ id :=
      unqueued ⟨s.board.nextOrder, products⟩ (by simp [State.accept])
    rw [accept_view, if_neg other]
    change id < s.board.nextOrder + 1 at below
    refine orders.past id (by lia) ?_ unheld
    intro order waits
    exact unqueued order (List.mem_append_left _ waits)
  · intro id beyond
    change s.board.nextOrder + 1 ≤ id at beyond
    rw [accept_view, if_neg (by lia)]
    exact orders.unknown id (by lia)

-- What each change does to the view of one order.

theorem view_self (s : State) (changed id : OrderId) :
    s.view id = if changed = id then s.view changed else s.view id := by
  split
  next same => rw [same]
  next => rfl

theorem view_setState (s : State) (changed id : OrderId) (state : OrderState) :
    (s.withBoard (·.setState changed state)).view id =
      if changed = id then
        { s.view changed with
          slot := (s.view changed).slot.map fun slot => { slot with state } }
      else s.view id := by
  simp only [State.view, State.withBoard, Board.setState, Table.get?_modify]
  split
  next same => rw [same]
  next => rfl

theorem view_spread (s : State) (order : Order) (id : OrderId) :
    (s.spread order).1.view id = (s.withBoard (·.setState order.id .dispatched)).view id := by
  obtain ⟨queues, jobs, runners, spread⟩ := s.spread_frame order
  rw [spread]
  rfl

theorem view_ready (s : State) (changed id : OrderId) :
    (s.ready changed).view id =
      if changed = id then
        { s.view changed with
          slot := (s.view changed).slot.map fun slot => { slot with state := .ready }
          buzzer := (s.view changed).buzzer.map fun buzzer => (buzzer.resolve .ready).2 }
      else s.view id := by
  simp only [State.view, State.ready, State.buzz, State.withBoard, Board.setState,
    Table.get?_modify]
  split
  next same => rw [same]
  next => rfl

theorem view_spoil (s : State) (changed id : OrderId) :
    (s.spoil changed).view id =
      if changed = id then
        { s.view changed with
          slot := (s.view changed).slot.map fun slot => { slot with state := .failed }
          buzzer := (s.view changed).buzzer.map fun buzzer => (buzzer.resolve .malfunction).2 }
      else s.view id := by
  simp only [State.view, State.spoil, State.buzz, State.withBoard, Board.setState,
    Board.removePending, Table.get?_modify]
  split
  next same => rw [same]
  next => rfl

theorem view_expire (s : State) (changed id : OrderId) :
    (s.expire changed).view id =
      if changed = id then
        { s.view changed with
          slot := (s.view changed).slot.map fun slot => { slot with state := .expired } }
      else s.view id := by
  simp only [State.view, State.expire, State.withBoard, Board.setState, Board.removePending,
    Table.get?_modify]
  split
  next same => rw [same]
  next => rfl

theorem view_pickUp (s : State) (changed id : OrderId) :
    (s.pickUp changed).view id =
      if changed = id then { s.view changed with slot := none } else s.view id := by
  simp only [State.view, State.pickUp, State.withBoard, Board.removePending, Table.get?_erase]
  split
  next same => rw [same]
  next => rfl

theorem view_results (s : State) (changed id : OrderId) (change : Signal Outcome → Signal Outcome) :
    ({ s with results := s.results.modify changed change } : State).view id =
      if changed = id then { s.view changed with result := (s.view changed).result.map change }
      else s.view id := by
  simp only [State.view, Table.get?_modify]
  split
  next same => rw [same]
  next => rfl

theorem worker (orders : Orders s) (here : s.workers[i]? = some ⟨old, report⟩)
    (step : WorkerMove s i report old action t events) : Orders t := by
  replace here := State.phases_of here
  cases step with
  | start => exact orders.same (State.phases_setWorker .. ▸ hands_set here rfl rfl) rfl rfl fun _ => rfl
  | claim seeks first =>
    exact orders.claim here (WorkerPhase.seeks_order seeks) first (State.phases_setWorker ..) rfl rfl
      fun _ => rfl
  | leave seeks =>
    exact orders.same
      (State.phases_setWorker .. ▸ hands_set here (WorkerPhase.seeks_order seeks) rfl) rfl rfl
      fun _ => rfl
  | rest seeks =>
    exact orders.same
      (State.phases_setWorker .. ▸ hands_set here (WorkerPhase.seeks_order seeks) rfl) rfl rfl
      fun _ => rfl
  | @dispatch order =>
    obtain ⟨slot, buzzer, result⟩ := orders.had i _ _ here rfl
    exact orders.move here rfl (State.phases_spread s order i _ report) (.inl rfl)
      (spread_unmanned s order).next (spread_unassigned s order)
      (fun id => (view_spread s order id).trans (view_setState s order.id id .dispatched))
      ⟨by rw [slot]; rfl, buzzer, result⟩
  | receive | hearBreak | hearNothing | accepted | refused | handBack | skip =>
    have fits := orders.had i _ _ here rfl
    exact orders.move here rfl (State.phases_setWorker ..) (.inl rfl) rfl rfl (view_self s _) fits
  | hold done =>
    obtain ⟨slot, buzzer, result⟩ := orders.had i _ _ here rfl
    refine orders.move here rfl (State.phases_setWorker ..) (.inl rfl) rfl rfl (view_ready s _) ?_
    exact ⟨by rw [slot]; rfl, .inl (by rw [buzzer]; rfl), result⟩
  | holdUnslotted done unslotted =>
    obtain ⟨slot, buzzer, result⟩ := orders.had i _ _ here rfl
    rw [State.view, unslotted] at slot
    cases slot
  | fail =>
    obtain ⟨slot, buzzer, result⟩ := orders.had i _ _ here rfl
    refine orders.move here rfl (State.phases_setWorker ..) (.inl rfl) rfl rfl (view_spoil s _) ?_
    exact ⟨⟨.inl (by rw [slot]; rfl), .inl (by rw [buzzer]; rfl)⟩, result⟩
  | @holdOn order _ still =>
    obtain ⟨slot, buzzer, result⟩ := orders.had i _ _ here rfl
    change s.board.slots.get? order.id = _ at slot
    simp [Board.orderState, slot] at still
  | @collected _ notified order _ due came =>
    have fits := orders.had i _ _ here rfl
    cases notified with
    | false =>
      obtain ⟨slot, buzzer, result⟩ := fits
      change s.board.slots.get? order.id = _ at slot
      simp [Board.orderState, slot] at came
    | true =>
      obtain ⟨slot, buzzer, result⟩ := fits
      refine orders.move here rfl (State.phases_setWorker ..) (.inl rfl) rfl rfl (view_pickUp s _) ?_
      exact ⟨rfl, buzzer, result⟩
  | @expired _ notified order _ due late =>
    have fits := orders.had i _ _ here rfl
    cases notified with
    | false =>
      obtain ⟨slot, buzzer, result⟩ := fits
      refine orders.move here rfl (State.phases_setWorker ..) (.inl rfl) rfl rfl (view_expire s _) ?_
      exact ⟨⟨.inl (by rw [slot]; rfl), buzzer⟩, result⟩
    | true =>
      obtain ⟨slot, buzzer, result⟩ := fits
      change s.board.slots.get? order.id = _ at slot
      simp [Board.orderState, slot] at late
  | tell =>
    obtain ⟨ended, result⟩ := orders.had i _ _ here rfl
    refine orders.move here rfl (State.phases_setWorker ..) (.inr rfl) rfl rfl (view_results s _ · _) ?_
    exact ⟨⟨_, ended⟩, .inl ⟨_, by rw [result]; rfl⟩⟩
  | deliver =>
    obtain ⟨slot, buzzer, result⟩ := orders.had i _ _ here rfl
    refine orders.move here rfl (State.phases_setWorker ..) (.inr rfl) rfl rfl (view_results s _ · _) ?_
    exact ⟨⟨.expired, .inr slot, buzzer⟩, .inl ⟨_, by rw [result]; rfl⟩⟩
  | crash =>
    obtain ⟨ended, result⟩ := orders.had i _ _ here rfl
    refine orders.move here rfl (State.phases_setWorker ..) (.inr rfl) rfl rfl (view_results s _ · _) ?_
    exact ⟨⟨_, ended⟩, .inr (by rw [result]; rfl)⟩

theorem runner (orders : Orders s) (step : RunnerMove s i station out calls was action t events) :
    Orders t := by
  have frame : t.phases = s.phases ∧ t.board.nextOrder = s.board.nextOrder ∧
      t.board.unassigned = s.board.unassigned ∧ ∀ id, t.view id = s.view id := by
    cases step <;> exact ⟨rfl, rfl, rfl, fun _ => rfl⟩
  obtain ⟨crew, next, unassigned, view⟩ := frame
  exact orders.same (fun _ _ _ _ => by rw [crew]) next unassigned view

theorem shutdown (orders : Orders s) (step : ShutdownMove s call stage t events) : Orders t := by
  cases step with
  | wakeWorkers =>
    exact orders.same (s.phases_wakeAllWorkers ▸ hands_wake) rfl rfl fun _ => rfl
  | _ => exact orders.same (fun _ _ _ _ => Iff.rfl) rfl rfl fun _ => rfl

end Orders

theorem Buzzed.hear (buzzed : Buzzed readiness buzzer) (spoke : buzzer = some ⟨content, heard⟩) :
    Buzzed readiness (some ⟨.closed, heard⟩) := by
  rcases buzzed with equal | equal
  all_goals
    rw [equal] at spoke
    cases spoke
    exact .inr rfl

theorem Answered.hear (answered : Answered result) (spoke : result = some ⟨content, heard⟩) :
    Answered (some ⟨.closed, heard⟩) := by
  rcases answered with ⟨outcome, equal⟩ | equal
  all_goals
    rw [equal] at spoke
    cases spoke
    exact .inr rfl

namespace View

theorem Fits.hearBuzzer {v : View} (fits : v.Fits phase) (spoke : v.buzzer = some ⟨content, heard⟩)
    (said : content ≠ .waiting) : View.Fits { v with buzzer := some ⟨.closed, heard⟩ } phase := by
  have silent : v.buzzer ≠ some .fresh := by
    intro fresh
    rw [spoke] at fresh
    cases fresh
    exact said rfl
  cases phase with
  | claimed | awaiting => exact absurd fits.2.1 silent
  | holding order made notified =>
    cases notified with
    | false => exact ⟨fits.1, fits.2.1.hear spoke, fits.2.2⟩
    | true => exact ⟨fits.1, fits.2.1.hear spoke, fits.2.2⟩
  | returning | handingBack => exact ⟨⟨fits.1.1, fits.1.2.hear spoke⟩, fits.2⟩
  | delivering => exact ⟨fits.1, fits.2.1.hear spoke, fits.2.2⟩
  | starting | free | asleep | finished | dead =>
    obtain ⟨⟨ending, slot, buzzer⟩, result⟩ := fits
    exact ⟨⟨ending, slot, buzzer.hear spoke⟩, result⟩

theorem Fits.hearResult {v : View} (fits : v.Fits phase) (spoke : v.result = some ⟨content, heard⟩)
    (said : content ≠ .waiting) : View.Fits { v with result := some ⟨.closed, heard⟩ } phase := by
  have silent : v.result ≠ some .fresh := by
    intro fresh
    rw [spoke] at fresh
    cases fresh
    exact said rfl
  cases phase with
  | claimed | awaiting | delivering => exact absurd fits.2.2 silent
  | holding order made notified => cases notified <;> exact absurd fits.2.2 silent
  | returning | handingBack => exact absurd fits.2 silent
  | starting | free | asleep | finished | dead => exact ⟨fits.1, fits.2.hear spoke⟩

theorem Fits.takeEnded {v : View} (fits : v.Fits phase) (slot : v.slot = some ⟨state, true⟩)
    (ended : state = .failed ∨ state = .expired) : View.Fits { v with slot := none } phase := by
  have wrong : ∀ other, v.slot = some other → other.state = .failed ∨ other.state = .expired := by
    intro other equal
    rw [slot] at equal
    cases equal
    exact ended
  cases phase with
  | claimed => rcases wrong _ fits.1 with equal | equal <;> cases equal
  | awaiting => rcases wrong _ fits.1 with equal | equal <;> cases equal
  | holding order made notified =>
    cases notified <;> rcases wrong _ fits.1 with equal | equal <;> cases equal
  | delivering => exact ⟨rfl, fits.2⟩
  | returning | handingBack => exact ⟨⟨.inr rfl, fits.1.2⟩, fits.2⟩
  | starting | free | asleep | finished | dead =>
    obtain ⟨⟨ending, _, buzzer⟩, result⟩ := fits
    exact ⟨⟨ending, .inr rfl, buzzer⟩, result⟩

-- Only a worker that holds the order for pickup can have an order whose slot is ready.
theorem Fits.holding_of_ready {v : View} (fits : v.Fits phase) (has : phase.order? = some order)
    (ready : v.slot = some ⟨.ready, true⟩) : ∃ made, phase = .holding order made false := by
  have only : ∀ state uncollected, v.slot = some ⟨state, uncollected⟩ → state = .ready := by
    intro state uncollected equal
    rw [ready] at equal
    cases equal
    rfl
  cases phase with
  | claimed => cases only _ _ fits.1
  | awaiting => cases only _ _ fits.1
  | holding o made notified =>
    cases has
    cases notified with
    | false => exact ⟨made, rfl⟩
    | true => cases only _ _ fits.1
  | returning _ ending _ | handingBack _ ending _ _ _ =>
    rcases fits.1.1 with slot | slot
    · cases ending <;> cases only _ _ slot
    · rw [ready] at slot
      cases slot
  | delivering =>
    have slot := fits.1
    rw [ready] at slot
    cases slot
  | starting | free | asleep | finished | dead => cases has

theorem Over.not_ready {v : View} (past : v.Over) : v.slot ≠ some ⟨.ready, true⟩ := by
  obtain ⟨⟨ending, slot, _⟩, _⟩ := past
  rcases slot with slot | slot
  all_goals
    rw [slot]
    cases ending <;> simp [Ending.state]

end View

namespace Orders

-- A change to the view of one order that every place allows.
theorem change (orders : Orders s) (crew : t.phases = s.phases)
    (next : t.board.nextOrder = s.board.nextOrder)
    (unassigned : t.board.unassigned = s.board.unassigned)
    (view : ∀ id, t.view id = if changed = id then v else s.view id)
    (fits : ∀ phase, (s.view changed).Fits phase → v.Fits phase) (known : s.view changed ≠ .blank) :
    Orders t := by
  refine orders.look (fun _ _ _ _ => by rw [crew]) next unassigned ?_ ?_
  · intro id phase fit
    rw [view]
    split
    next same =>
      subst same
      exact fits phase fit
    next => exact fit
  · intro id blank
    rw [view]
    split
    next same =>
      subst same
      exact absurd blank known
    next => exact blank

theorem view_hearBuzzer (s : State) (changed id : OrderId) (heard : Bool) :
    (s.hearBuzzer changed heard).view id =
      if changed = id then { s.view changed with buzzer := some ⟨.closed, heard⟩ }
      else s.view id := by
  simp only [State.view, State.hearBuzzer, Table.get?_insert]
  split
  next same => rw [same]
  next => rfl

theorem view_hearResult (s : State) (changed id : OrderId) (heard : Bool) :
    (s.hearResult changed heard).view id =
      if changed = id then { s.view changed with result := some ⟨.closed, heard⟩ }
      else s.view id := by
  simp only [State.view, State.hearResult, Table.get?_insert]
  split
  next same => rw [same]
  next => rfl

theorem hearBuzzer (orders : Orders s) (spoke : s.buzzers.get? id = some ⟨content, heard⟩)
    (said : content ≠ .waiting) : Orders (s.hearBuzzer id heard) := by
  refine orders.change rfl rfl rfl (view_hearBuzzer s id · heard) ?_ ?_
  · intro phase fits
    exact fits.hearBuzzer spoke said
  · intro blank
    have gone : s.buzzers.get? id = none := congrArg View.buzzer blank
    rw [gone] at spoke
    cases spoke

theorem hearResult (orders : Orders s) (spoke : s.results.get? id = some ⟨content, heard⟩)
    (said : content ≠ .waiting) : Orders (s.hearResult id heard) := by
  refine orders.change rfl rfl rfl (view_hearResult s id · heard) ?_ ?_
  · intro phase fits
    exact fits.hearResult spoke said
  · intro blank
    have gone : s.results.get? id = none := congrArg View.result blank
    rw [gone] at spoke
    cases spoke

-- The places and views do not depend on the calls under way or on the notes.
theorem calls (orders : Orders s) (crew : t.workers = s.workers) (board : t.board = s.board)
    (buzzers : t.buzzers = s.buzzers) (results : t.results = s.results) : Orders t := by
  refine orders.same (fun _ _ _ _ => by rw [State.phases, State.phases, crew]) (by rw [board])
    (by rw [board]) ?_
  intro id
  simp only [State.view, board, buzzers, results]

theorem pager (orders : Orders s) (step : PagerMove s call id use stage t events) : Orders t := by
  cases step with
  | known => cases use <;> exact orders.calls rfl rfl rfl rfl
  | look => exact orders.calls rfl rfl rfl rfl
  | hear _ buzzed => exact (orders.hearBuzzer buzzed (by simp)).calls rfl rfl rfl rfl
  | hearNothing _ buzzed => exact (orders.hearBuzzer buzzed (by simp)).calls rfl rfl rfl rfl
  | @silent heard buzzed =>
    have unheard : Orders { s with buzzers := s.buzzers.insert id ⟨.waiting, heard⟩ } := by
      refine orders.same (fun _ _ _ _ => Iff.rfl) rfl rfl ?_
      intro other
      simp only [State.view, Table.get?_insert]
      split
      next same => rw [← same, buzzed]
      next => rfl
    cases use <;> exact unheard.calls rfl rfl rfl rfl
  | @note readiness =>
    have noted : Orders (s.note id readiness) := by
      unfold State.note
      split
      · exact orders
      · exact orders.calls rfl rfl rfl rfl
    cases use <;> exact noted.calls rfl rfl rfl rfl
  | read => exact orders.calls rfl rfl rfl rfl

theorem wakePickup_of_ne (has : phase.order? = some order) (other : order.id ≠ id) :
    phase.wakePickup id = phase := by
  cases phase with
  | holding o made notified => cases has; simp [WorkerPhase.wakePickup, other]
  | _ => rfl

-- An order whose slot is ready is held for pickup by one worker that nobody has told.
theorem holder (orders : Orders s) (ready : s.board.slots.get? id = some ⟨.ready, true⟩) :
    ∃ (i : Nat) (order : Order) (made : Tray),
      s.phases[i]? = some (.holding order made false) ∧ order.id = id := by
  by_cases held : ∃ (i : Nat) (phase : WorkerPhase) (order : Order),
      s.phases[i]? = some phase ∧ phase.order? = some order ∧ order.id = id
  · obtain ⟨i, phase, order, here, has, rfl⟩ := held
    obtain ⟨made, rfl⟩ := (orders.had i phase order here has).holding_of_ready has ready
    exact ⟨i, order, made, here, rfl⟩
  · have below : id < s.board.nextOrder := by
      apply Nat.lt_of_not_le
      intro beyond
      have blank := orders.unknown id beyond
      rw [View.blank, State.view, ready] at blank
      cases blank
    refine absurd ready (View.Over.not_ready (v := s.view id) (orders.past id below ?_ ?_))
    · rintro order waits rfl
      have slot : s.board.slots.get? order.id = some ⟨.queued, true⟩ := (orders.queued order waits).1
      rw [ready] at slot
      cases slot
    · intro i phase order here has same
      exact held ⟨i, phase, order, here, has, same⟩

theorem view_collectReady (s : State) (id other : OrderId) :
    ((s.withBoard fun b => { b with slots := b.slots.insert id ⟨.pickedUp, false⟩ }).notifyPickup
      id).view other =
      if id = other then { s.view id with slot := some ⟨.pickedUp, false⟩ } else s.view other := by
  simp only [State.view, State.notifyPickup, State.withBoard, Table.get?_insert]
  split
  next same => rw [same]
  next => rfl

theorem collectReady (orders : Orders s) (ready : s.board.slots.get? id = some ⟨.ready, true⟩) :
    Orders ((s.withBoard fun b =>
      { b with slots := b.slots.insert id ⟨.pickedUp, false⟩ }).notifyPickup id) := by
  have view := view_collectReady s id
  refine ⟨?_, ?_, ?_, ?_, ?_⟩
  · rw [State.phases_notifyPickup]
    exact orders.roster.map _ (WorkerPhase.wakePickup_order id)
  · intro order waits
    have fits := orders.queued order waits
    have other : id ≠ order.id := by
      intro same
      have slot : s.board.slots.get? order.id = some ⟨.queued, true⟩ := fits.1
      rw [← same, ready] at slot
      cases slot
    rw [view, if_neg other]
    exact fits
  · intro j q order found has
    rw [State.phases_notifyPickup, List.getElem?_map, Option.map_eq_some_iff] at found
    obtain ⟨p, was, rfl⟩ := found
    rw [WorkerPhase.wakePickup_order] at has
    have fits := orders.had j p order was has
    by_cases same : order.id = id
    · subst same
      obtain ⟨made, rfl⟩ := fits.holding_of_ready has ready
      rw [view, if_pos rfl]
      simp only [WorkerPhase.wakePickup, decide_true, Bool.or_true]
      exact ⟨rfl, fits.2⟩
    · rw [view, if_neg (Ne.symm same), wakePickup_of_ne has same]
      exact fits
  · intro other below unqueued unheld
    have past : (s.view other).Over := by
      refine orders.past other below unqueued ?_
      intro j q order found has
      refine unheld j (q.wakePickup id) order ?_ ((WorkerPhase.wakePickup_order id q).trans has)
      rw [State.phases_notifyPickup, List.getElem?_map]
      exact congrArg (Option.map _) found
    rw [view]
    split
    next same =>
      subst same
      exact absurd ready past.not_ready
    next => exact past
  · intro other beyond
    have blank := orders.unknown other beyond
    rw [view]
    split
    next same =>
      subst same
      rw [View.blank, State.view, ready] at blank
      cases blank
    next => exact blank

theorem collectEnded (orders : Orders s) (present : s.board.slots.get? id = some ⟨state, true⟩)
    (ended : state = .failed ∨ state = .expired) :
    Orders (s.withBoard fun b => { b with slots := b.slots.erase id }) := by
  have view : ∀ other, (s.withBoard fun b => { b with slots := b.slots.erase id }).view other =
      if id = other then { s.view id with slot := none } else s.view other := by
    intro other
    simp only [State.view, State.withBoard, Table.get?_erase]
    split
    next same => rw [same]
    next => rfl
  refine orders.change rfl rfl rfl view ?_ ?_
  · intro phase fits
    exact fits.takeEnded present ended
  · intro blank
    have gone : s.board.slots.get? id = none := congrArg View.slot blank
    rw [gone] at present
    cases present

theorem client (orders : Orders s) (step : ClientMove s action t events) : Orders t := by
  cases step with
  | orderClosed => exact orders
  | orderMissing => exact orders
  | place => exact orders.accept _
  | @placeWaking products i report unclosed onMenu sleeper =>
    have here : (s.accept products).phases[i]? = some (.asleep false) := State.phases_of sleeper
    exact (orders.accept products).same (State.phases_setWorker .. ▸ hands_set here rfl rfl) rfl rfl
      fun _ => rfl
  | collectReady _ present => exact (orders.collectReady present).calls rfl rfl rfl rfl
  | collectEnded _ present ended =>
    exact (orders.collectEnded present ended).calls rfl rfl rfl rfl
  | getResult _ filled => exact (orders.hearResult filled (by simp)).calls rfl rfl rfl rfl
  | getNothing _ empty => exact (orders.hearResult empty (by simp)).calls rfl rfl rfl rfl
  | usePager _ step => exact orders.pager step
  | _ => exact orders.calls rfl rfl rfl rfl

theorem step (orders : Orders s) (step : Transition s action t events) : Orders t := by
  cases step with
  | worker here step => exact orders.worker here step
  | runner _ step => exact orders.runner step
  | client step => exact orders.client step
  | shutdown _ step => exact orders.shutdown step

theorem run (orders : Orders s) (run : Run s actions events t) : Orders t := by
  induction run with
  | start => exact orders
  | next _ ran ih => exact ih.step (transition_of_step ran)

end Orders

end Kitchen.Engine
