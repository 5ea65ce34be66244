import Kitchen.Proofs.Frames
import Kitchen.Proofs.Orders

-- An order is pending exactly as long as it waits or its worker has no outcome for it.

namespace Kitchen.Engine

variable {s t : State} {action : Action} {actions : List Action} {events : List Event}
  {call c : CallId} {id : OrderId} {i : Nat} {report : Report} {order : Order}
  {phase old : WorkerPhase} {was : RunnerPhase}

def State.unsettled (s : State) (id : OrderId) : Prop :=
  (∃ order ∈ s.board.unassigned, order.id = id) ∨
    ∃ (i : Nat) (phase : WorkerPhase) (order : Order), s.phases[i]? = some phase ∧
      phase.open? = some order ∧ order.id = id

def Pending (s : State) : Prop := ∀ id, id ∈ s.board.pending ↔ s.unsettled id

namespace Pending

theorem opened (stations : List String) (workers : Nat) : Pending (.opened stations workers) := by
  intro id
  constructor
  · intro member
    cases member
  · rintro (⟨order, member, _⟩ | ⟨i, phase, order, here, has, _⟩)
    · cases member
    · cases State.phases_opened here
      cases has

theorem same (pending : Pending s) (list : t.board.pending = s.board.pending)
    (unassigned : t.board.unassigned = s.board.unassigned)
    (hands : ∀ (i : Nat) (order : Order),
      (∃ q, t.phases[i]? = some q ∧ q.open? = some order) ↔
        ∃ q, s.phases[i]? = some q ∧ q.open? = some order) : Pending t := by
  intro id
  rw [list, pending id, State.unsettled, State.unsettled, unassigned]
  refine or_congr Iff.rfl ?_
  constructor
  · rintro ⟨i, phase, order, here, has, named⟩
    obtain ⟨q, there, had⟩ := (hands i order).mpr ⟨phase, here, has⟩
    exact ⟨i, q, order, there, had, named⟩
  · rintro ⟨i, phase, order, here, has, named⟩
    obtain ⟨q, there, had⟩ := (hands i order).mp ⟨phase, here, has⟩
    exact ⟨i, q, order, there, had, named⟩

theorem hands_set (here : s.phases[i]? = some old) (keeps : phase.open? = old.open?) (j : Nat)
    (order : Order) : (∃ q, (s.phases.set i phase)[j]? = some q ∧ q.open? = some order) ↔
      ∃ q, s.phases[j]? = some q ∧ q.open? = some order := by
  have inside := (List.getElem?_eq_some_iff.mp here).1
  by_cases mine : i = j
  · subst mine
    rw [List.getElem?_set_self inside, here]
    simp [keeps]
  · rw [List.getElem?_set_ne mine]

theorem hands_map (f : WorkerPhase → WorkerPhase) (keeps : ∀ phase, (f phase).open? = phase.open?)
    (j : Nat) (order : Order) :
    (∃ q, (s.phases.map f)[j]? = some q ∧ q.open? = some order) ↔
      ∃ q, s.phases[j]? = some q ∧ q.open? = some order := by
  rw [List.getElem?_map]
  cases s.phases[j]? with
  | none => simp
  | some phase => simp [keeps]

theorem accept (pending : Pending s) (products : List String) : Pending (s.accept products) := by
  intro id
  change id ∈ s.board.pending ++ [s.board.nextOrder] ↔ (∃ order ∈ s.board.unassigned ++ _, _) ∨ _
  have before := pending id
  unfold State.unsettled at before
  rw [List.mem_append, before]
  constructor
  · rintro ((⟨order, member, named⟩ | held) | new)
    · exact .inl ⟨order, List.mem_append_left _ member, named⟩
    · exact .inr held
    · exact .inl ⟨_, List.mem_append_right _ (List.mem_singleton_self _),
        (List.mem_singleton.mp new).symm⟩
  · rintro (⟨order, member, named⟩ | held)
    · rcases List.mem_append.mp member with old | new
      · exact .inl (.inl ⟨order, old, named⟩)
      · cases List.mem_singleton.mp new
        exact .inr (List.mem_singleton.mpr named.symm)
    · exact .inl (.inr held)

theorem claim (pending : Pending s) (here : s.phases[i]? = some old) (free : old.order? = none)
    (first : s.board.unassigned = order :: rest)
    (crew : t.phases = s.phases.set i (.claimed order)) (list : t.board.pending = s.board.pending)
    (unassigned : t.board.unassigned = rest) : Pending t := by
  have inside := (List.getElem?_eq_some_iff.mp here).1
  intro id
  rw [list, pending id, State.unsettled, State.unsettled, unassigned, first, crew]
  constructor
  · rintro (⟨other, member, named⟩ | ⟨j, phase, other, there, has, named⟩)
    · rcases List.mem_cons.mp member with rfl | later
      · exact .inr ⟨i, .claimed other, other, by simp [inside], rfl, named⟩
      · exact .inl ⟨other, later, named⟩
    · refine .inr ⟨j, phase, other, ?_, has, named⟩
      have differ : i ≠ j := by
        intro mine
        subst mine
        rw [here] at there
        cases there
        rw [WorkerPhase.open?_order has] at free
        cases free
      rw [List.getElem?_set_ne differ, there]
  · rintro (⟨other, member, named⟩ | ⟨j, phase, other, there, has, named⟩)
    · exact .inl ⟨other, List.mem_cons_of_mem _ member, named⟩
    · rcases getElem?_set_cases there with ⟨_, rfl⟩ | ⟨_, before⟩
      · cases has
        exact .inl ⟨order, List.mem_cons_self .., named⟩
      · exact .inr ⟨j, phase, other, before, has, named⟩

-- An order with its outcome is pending no more; every other one is as before.
theorem settle (pending : Pending s) (roster : Roster s.board.nextOrder s.board.unassigned s.phases)
    (here : s.phases[i]? = some old) (has : old.open? = some order) (ended : phase.open? = none)
    (crew : t.phases = s.phases.set i phase)
    (list : t.board.pending = s.board.pending.filter (· ≠ order.id))
    (unassigned : t.board.unassigned = s.board.unassigned) : Pending t := by
  have mine := WorkerPhase.open?_order has
  have inside := (List.getElem?_eq_some_iff.mp here).1
  intro id
  rw [list, List.mem_filter, pending id, State.unsettled, State.unsettled, unassigned, crew]
  constructor
  · rintro ⟨waits | ⟨j, q, other, there, had, named⟩, differ⟩
    · exact .inl waits
    · refine .inr ⟨j, q, other, ?_, had, named⟩
      have apart : i ≠ j := by
        intro same
        subst same
        rw [here] at there
        cases there
        rw [has] at had
        cases had
        simp [named] at differ
      rw [List.getElem?_set_ne apart, there]
  · rintro (⟨other, member, named⟩ | ⟨j, q, other, there, had, named⟩)
    · refine ⟨.inl ⟨other, member, named⟩, ?_⟩
      have queued := roster.queued_id member
      have claimed := roster.claimed i old order here mine
      have differ : id ≠ order.id := by lia
      simpa using differ
    · by_cases same : i = j
      · subst same
        rw [List.getElem?_set_self inside] at there
        cases there
        rw [ended] at had
        cases had
      · rw [List.getElem?_set_ne same] at there
        refine ⟨.inr ⟨j, q, other, there, had, named⟩, ?_⟩
        have differ : id ≠ order.id := by
          intro equal
          exact same (roster.apart i j old q order other here there mine
            (WorkerPhase.open?_order had) (by rw [named, equal]))
        simpa using differ

theorem worker (pending : Pending s) (orders : Orders s)
    (here : s.workers[i]? = some ⟨old, report⟩)
    (move : WorkerMove s i report old action t events) : Pending t := by
  replace here := State.phases_of here
  cases move with
  | claim seeks first =>
    exact pending.claim here (WorkerPhase.seeks_order seeks) first (State.phases_setWorker ..) rfl rfl
  | leave seeks | rest seeks =>
    have free : old.open? = none := by cases old <;> first | rfl | cases seeks
    exact pending.same rfl rfl (State.phases_setWorker .. ▸ hands_set here free.symm)
  | @dispatch order =>
    exact pending.same (spread_pending s order) (spread_unassigned s order)
      (State.phases_spread s order i _ report ▸ hands_set here rfl)
  | holdUnslotted | fail | collected | expired =>
    exact pending.settle orders.roster here rfl rfl (State.phases_setWorker ..) rfl rfl
  | _ => exact pending.same rfl rfl (State.phases_setWorker .. ▸ hands_set here rfl)

theorem client (pending : Pending s) (move : ClientMove s action t events) : Pending t := by
  cases move with
  | place => exact pending.accept _
  | @placeWaking products i report _ _ sleeper =>
    have here : (s.accept products).phases[i]? = some (.asleep false) := State.phases_of sleeper
    exact (pending.accept products).same rfl rfl
      (State.phases_setWorker .. ▸ hands_set here rfl)
  | @collectReady _ id =>
    refine pending.same rfl rfl ?_
    have crew := State.phases_notifyPickup (s.withBoard fun b =>
      { b with slots := b.slots.insert id ⟨.pickedUp, false⟩ }) id
    exact crew ▸ hands_map (s := s) _ (WorkerPhase.wakePickup_open id)
  | usePager _ move =>
    obtain ⟨board, workers, _⟩ := move.frame
    refine pending.same (by rw [board]) (by rw [board]) ?_
    intro j order
    rw [State.phases, workers, ← State.phases]
  | _ => exact pending.same rfl rfl fun _ _ => Iff.rfl

theorem step (pending : Pending s) (orders : Orders s) (step : Transition s action t events) :
    Pending t := by
  cases step with
  | worker here move => exact pending.worker orders here move
  | runner _ move =>
    obtain ⟨workers, unassigned, list, _⟩ := move.workers
    refine pending.same list unassigned ?_
    intro j order
    rw [State.phases, workers, ← State.phases]
  | client move => exact pending.client move
  | shutdown _ move =>
    cases move with
    | wakeWorkers =>
      exact pending.same rfl rfl
        (State.phases_wakeAllWorkers s ▸ hands_map _ WorkerPhase.wake_open)
    | _ => exact pending.same rfl rfl fun _ _ => Iff.rfl

theorem run (pending : Pending s) (orders : Orders s) (run : Run s actions events t) :
    Pending t := by
  induction run with
  | start => exact pending
  | next before ran ih => exact ih.step (orders.run before) (transition_of_step ran)

end Pending

end Kitchen.Engine
