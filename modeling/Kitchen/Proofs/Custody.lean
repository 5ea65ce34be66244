import Kitchen.Proofs.Verdicts
import Kitchen.Proofs.Overtaking

namespace Kitchen.Engine

variable {s t : State} {action : Action} {actions : List Action} {events more : List Event}
  {call : CallId} {id : OrderId} {i : Nat} {report : Report} {order : Order}
  {old now : WorkerPhase} {ended claimed : List OrderId} {stations : List String} {workers : Nat}

def Event.claim? : Event → Option OrderId
  | .noticed (.orderClaimed _ id _) => some id
  | _ => none

def claims (events : List Event) : List OrderId := events.filterMap Event.claim?

theorem claims_append (events more : List Event) : claims (events ++ more) = claims events ++ claims more :=
  List.filterMap_append

def finalized (events : List Event) : List OrderId := (book events).map (·.id)

theorem finalized_append (events more : List Event) :
    finalized (events ++ more) = finalized events ++ finalized more := by
  rw [finalized, book_append, List.map_append]
  rfl

def WorkerPhase.owes (phase : WorkerPhase) : List OrderId := (phase.open?.map (·.id)).toList

def State.owed (s : State) : List OrderId := s.phases.flatMap WorkerPhase.owes

theorem mem_owed : id ∈ s.owed ↔ ∃ (i : Nat) (phase : WorkerPhase) (order : Order),
    s.phases[i]? = some phase ∧ phase.open? = some order ∧ order.id = id := by
  simp only [State.owed, WorkerPhase.owes, List.mem_flatMap, Option.mem_toList, Option.map_eq_some_iff]
  constructor
  · rintro ⟨phase, member, order, has, named⟩
    obtain ⟨i, here⟩ := List.getElem?_of_mem member
    exact ⟨i, phase, order, here, has, named⟩
  · rintro ⟨i, phase, order, here, has, named⟩
    exact ⟨phase, List.mem_of_getElem? here, order, has, named⟩

theorem length_owed (s : State) : s.owed.length ≤ s.workers.length := by
  have one : ∀ phase : WorkerPhase, phase.owes.length ≤ 1 := by
    intro phase
    unfold WorkerPhase.owes
    cases phase.open? <;> simp
  have few := total_mono (l := s.phases) fun phase _ => one phase
  rw [State.owed, length_flatMap_total]
  rw [total_one, State.phases, List.length_map] at few
  exact few

theorem claims_pager {use : PagerUse} {phase : PagerPhase} (move : PagerMove s call id use phase t more) :
    claims more = [] := by
  rcases move.answers with rfl | ⟨_, rfl⟩ | ⟨_, rfl⟩ | rfl <;> rfl

theorem claims_client (move : ClientMove s action t more) : claims more = [] := by
  cases move with
  | usePager _ move => exact claims_pager move
  | _ => rfl

theorem claims_runner {station : String} {out : Bool} {calls : Nat} {was : RunnerPhase}
    (move : RunnerMove s i station out calls was action t more) : claims more = [] := by
  cases move with
  | handOver =>
    simp only [claims, List.filterMap_cons, Event.claim?]
    split <;> rfl
  | _ => rfl

theorem claims_shutdown {stage : ShutdownPhase} (move : ShutdownMove s call stage t more) :
    claims more = [] := by
  cases move with
  | joinRunner _ ended => rcases ended with ⟨_, rfl⟩ | ⟨_, rfl⟩ <;> rfl
  | _ => rfl

theorem claims_spread (s : State) (order : Order) : claims (s.spread order).2 = [] :=
  spread_shows s order _ fun _ _ => rfl

-- Whoever claims takes the first order that waits.
theorem claims_of_step (orders : Orders s) (step : Transition s action t more) :
    claims more = [] ∧ t.firstWaiting = s.firstWaiting ∨
      claims more = [s.firstWaiting] ∧ t.firstWaiting = s.firstWaiting + 1 := by
  have few := orders.roster.few
  have same : t.board.nextOrder = s.board.nextOrder → t.board.unassigned = s.board.unassigned →
      t.firstWaiting = s.firstWaiting := by
    intro next unassigned
    rw [State.firstWaiting, next, unassigned]
    rfl
  have placing : ∀ products, (s.accept products).firstWaiting = s.firstWaiting := by
    intro products
    simp only [State.firstWaiting, State.accept, List.length_append, List.length_singleton]
    omega
  cases step with
  | worker _ move =>
    cases move with
    | @claim order rest _ _ first =>
      have queue := orders.roster.queue
      rw [first, List.map_cons, List.length_cons, List.range'_succ] at queue
      obtain ⟨oldest, _⟩ := List.cons.inj queue
      rw [first, List.length_cons] at few
      have mine : order.id = s.firstWaiting := by
        rw [State.firstWaiting, first, List.length_cons]
        exact oldest
      refine .inr ⟨congrArg (fun id => [id]) mine, ?_⟩
      simp only [State.firstWaiting, State.withBoard, State.setWorker, first, List.length_cons]
      omega
    | @dispatch order =>
      refine .inl ⟨?_, same (spread_unmanned ..).next (spread_unassigned ..)⟩
      rw [claims_append, claims_spread]
      rfl
    | _ => exact .inl ⟨rfl, same rfl rfl⟩
  | runner _ move =>
    exact .inl ⟨claims_runner move, same move.unmanned.next move.workers.2.1⟩
  | client move =>
    refine .inl ⟨claims_client move, ?_⟩
    cases move with
    | place | placeWaking => exact placing _
    | usePager _ move => exact same (by rw [move.frame.1]) (by rw [move.frame.1])
    | _ => exact same rfl rfl
  | shutdown _ move => exact .inl ⟨claims_shutdown move, same move.frame.1 move.frame.2.1⟩

theorem claims_run (run : Run (.opened stations workers) actions events s) :
    claims events = List.range s.firstWaiting := by
  induction run with
  | start => rfl
  | next before ran ih =>
    have orders := (Orders.opened stations workers).run before
    rw [claims_append, ih]
    rcases claims_of_step orders (transition_of_step ran) with ⟨none, same⟩ | ⟨one, next⟩
    · rw [none, same, List.append_nil]
    · rw [one, next, List.range_succ]

-- What is claimed is owed until it is written down.

theorem owed_set (here : s.phases[i]? = some old) (crew : t.phases = s.phases.set i now)
    (moves : (now.owes ++ ended).Perm (old.owes ++ claimed)) :
    (t.owed ++ ended).Perm (s.owed ++ claimed) := by
  rw [List.perm_iff_count]
  intro id
  have moved := total_set (f := fun phase : WorkerPhase => phase.owes.count id) here now
  have equal := moves.count_eq id
  rw [List.count_append, List.count_append] at equal
  rw [List.count_append, List.count_append, State.owed, State.owed, count_flatMap_total,
    count_flatMap_total, crew]
  omega

theorem owed_map (f : WorkerPhase → WorkerPhase) (crew : t.phases = s.phases.map f)
    (same : ∀ phase, (f phase).open? = phase.open?) : t.owed = s.owed := by
  have alike : ∀ phase, (f phase).owes = phase.owes := by
    intro phase
    rw [WorkerPhase.owes, same]
    rfl
  simp only [State.owed, crew, List.flatMap_map, alike]

theorem owed_same (workers : t.workers = s.workers) : t.owed = s.owed := by
  rw [State.owed, State.phases, workers]
  rfl

theorem seeks_owes (seeks : old.seeks = true) : old.owes = [] := by
  rw [WorkerPhase.owes, seeks_open seeks]
  rfl

theorem worker_custody (here : s.workers[i]? = some ⟨old, report⟩)
    (move : WorkerMove s i report old action t more) :
    (t.owed ++ finalized more).Perm (s.owed ++ claims more) := by
  have place := State.phases_of here
  cases move with
  | claim seeks first =>
    refine owed_set place (State.phases_setWorker ..) ?_
    rw [seeks_owes seeks]
    exact .refl _
  | leave seeks | rest seeks =>
    refine owed_set place (State.phases_setWorker ..) ?_
    rw [seeks_owes seeks]
    exact .refl _
  | @dispatch order =>
    have silent : finalized ((s.spread order).2 ++
        [.noticed (.orderDispatched order.id order.products.length)]) = [] := by
      rw [finalized_append, finalized, book, spread_shows _ _ _ fun _ _ => rfl]
      rfl
    rw [silent, claims_append, claims_spread]
    exact owed_set place (State.phases_spread ..) (.refl _)
  | _ => exact owed_set place (State.phases_setWorker ..) (.refl _)

theorem Transition.custody (step : Transition s action t more) :
    (t.owed ++ finalized more).Perm (s.owed ++ claims more) := by
  have quiet : t.owed = s.owed → book more = [] → claims more = [] →
      (t.owed ++ finalized more).Perm (s.owed ++ claims more) := by
    intro same unwritten unclaimed
    rw [same, finalized, unwritten, unclaimed]
    exact .refl _
  cases step with
  | worker here move => exact worker_custody here move
  | runner _ move => exact quiet (owed_same move.workers.1) (Ledger.book_runner move) (claims_runner move)
  | client move =>
    have unclaimed := claims_client move
    cases move with
    | placeWaking _ _ sleeper =>
      exact owed_set (State.phases_of sleeper) (State.phases_setWorker ..) (.refl _)
    | @collectReady _ id =>
      exact quiet (owed_map (·.wakePickup id) (State.phases_notifyPickup _ id)
        (WorkerPhase.wakePickup_open id)) rfl unclaimed
    | usePager _ move => exact quiet (owed_same move.frame.2.1) (Ledger.book_pager move) unclaimed
    | _ => exact quiet (owed_same rfl) rfl unclaimed
  | shutdown _ move =>
    have unclaimed := claims_shutdown move
    cases move with
    | wakeWorkers =>
      exact quiet (owed_map (·.wake) (State.phases_wakeAllWorkers s) WorkerPhase.wake_open) rfl unclaimed
    | joinRunner _ ended => rcases ended with ⟨_, rfl⟩ | ⟨_, rfl⟩ <;> exact quiet (owed_same rfl) rfl rfl
    | _ => exact quiet (owed_same rfl) rfl unclaimed

-- The orders that were claimed are those that are owed and those that are written down.
theorem custody_run (run : Run (.opened stations workers) actions events s) :
    (s.owed ++ finalized events).Perm (claims events) := by
  induction run with
  | start =>
    have none : (State.opened stations workers).owed = [] := by
      rw [State.owed, List.flatMap_eq_nil_iff]
      intro phase member
      obtain ⟨i, here⟩ := List.getElem?_of_mem member
      rw [State.phases_opened here]
      rfl
    rw [none]
    exact .refl _
  | next before ran ih =>
    have step := (transition_of_step ran).custody
    rw [finalized_append, claims_append, List.perm_iff_count]
    intro id
    have earlier := ih.count_eq id
    have now := step.count_eq id
    simp only [List.count_append] at earlier now ⊢
    omega

-- An order that is placed gets the next number, and one that is refused gets none.
theorem number_of_order {products : List String} {woken : Option Nat}
    (ran : s.step (.order products woken) = some (t, more)) :
    placed more = [⟨s.board.nextOrder, products⟩] ∧ t.board.nextOrder = s.board.nextOrder + 1 ∨
      placed more = [] ∧ (∃ error, .refused products error ∈ more) ∧ t = s := by
  cases State.order_sound ran with
  | orderClosed | orderMissing => exact .inr ⟨rfl, ⟨_, .head _⟩, rfl⟩
  | place | placeWaking => exact .inl ⟨rfl, rfl⟩

-- Numbers from `0` on are given out in turn, those that nobody has claimed wait in turn, and they are
-- claimed in turn. What was claimed is with one worker, who owes its outcome, or it is written
-- down.
structure Custody (events : List Event) (s : State) : Prop where
  numbers : (placed events).map (·.id) = List.range s.board.nextOrder
  waiting : s.board.unassigned.map (·.id) =
    List.range' s.firstWaiting (s.board.nextOrder - s.firstWaiting)
  claimed : claims events = List.range s.firstWaiting
  parted : (s.owed ++ finalized events).Perm (List.range s.firstWaiting)

theorem Custody.run (run : Run (.opened stations workers) actions events s) : Custody events s := by
  have roster := ((Orders.opened stations workers).run run).roster
  refine ⟨(Placed.run run).numbers, ?_, claims_run run, claims_run run ▸ custody_run run⟩
  have left : s.board.nextOrder - s.firstWaiting = s.board.unassigned.length :=
    Nat.sub_sub_self roster.few
  rw [left]
  exact roster.queue

namespace Custody

-- No more orders are claimed and not written down than there are workers.
theorem few (custody : Custody events s) :
    ((claims events).filter (· ∉ finalized events)).length ≤ s.workers.length := by
  have written : (finalized events).filter (· ∉ finalized events) = [] := by
    rw [List.filter_eq_nil_iff]
    intro id member
    simpa using member
  have same := (custody.parted.filter (· ∉ finalized events)).length_eq
  rw [List.filter_append, written, List.append_nil] at same
  rw [custody.claimed, ← same]
  exact Nat.le_trans (List.length_filter_le ..) (length_owed s)

-- Each order that was claimed is in one place.
theorem place (custody : Custody events s) (orders : Orders s) (claimed : id < s.firstWaiting) :
    (∃ (i : Nat) (phase : WorkerPhase) (order : Order), s.phases[i]? = some phase ∧
        phase.open? = some order ∧ order.id = id ∧ id ∉ finalized events ∧
        ∀ (j : Nat) (other : WorkerPhase) (its : Order), s.phases[j]? = some other →
          other.open? = some its → its.id = id → j = i) ∨
      id ∈ finalized events ∧ id ∉ s.owed := by
  have one : (s.owed ++ finalized events).count id = 1 := by
    rw [custody.parted.count_eq]
    exact List.count_eq_one_of_mem List.nodup_range (List.mem_range.mpr claimed)
  rw [List.count_append] at one
  by_cases owed : id ∈ s.owed
  · have some := List.count_pos_iff.mpr owed
    have unwritten : id ∉ finalized events := by
      intro written
      have twice := List.count_pos_iff.mpr written
      omega
    obtain ⟨i, phase, order, here, has, named⟩ := mem_owed.mp owed
    refine .inl ⟨i, phase, order, here, has, named, unwritten, ?_⟩
    intro j other its there holds same
    exact orders.roster.apart j i other phase its order there here (WorkerPhase.open?_order holds)
      (WorkerPhase.open?_order has) (same.trans named.symm)
  · have none := List.count_eq_zero_of_not_mem owed
    refine .inr ⟨List.count_pos_iff.mp ?_, owed⟩
    omega

end Custody

end Kitchen.Engine
