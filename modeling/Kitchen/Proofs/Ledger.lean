import Kitchen.Proofs.Provenance
import Kitchen.Proofs.Slots
import Mathlib.Data.List.Nodup

-- What the workers write down of the orders they bring to an end. Each order is written down once,
-- by one worker; its result says what is written there, and so do the workers' reports.

namespace Kitchen.Engine

inductive Fate where
  | collected
  | ended (ending : Ending)
deriving DecidableEq, Repr

namespace Fate

-- The client is told of a fate by a meal, or by the error of its ending.
def fits (id : OrderId) : Fate → Outcome → Prop
  | .collected, .meal _ => True
  | .ended ending, .spoiled error => error = ending.error id
  | _, _ => False

-- A client is told of one of three fates, and of which one.
theorem fits.tells {id : OrderId} {fate : Fate} {outcome : Outcome} (fits : fate.fits id outcome) :
    ((∃ items, outcome = .meal items) ∨ outcome = .spoiled (.orderExpired id) ∨
        outcome = .spoiled (.fulfillmentFailure id)) ∧
      ((∃ items, outcome = .meal items) ↔ fate = .collected) ∧
      (outcome = .spoiled (.orderExpired id) ↔ fate = .ended .expired) ∧
      (outcome = .spoiled (.fulfillmentFailure id) ↔ fate = .ended .failed) := by
  cases fate with
  | collected =>
    cases outcome with
    | meal items => simp
    | spoiled error => cases fits
  | ended ending =>
    cases outcome with
    | meal items => cases fits
    | spoiled error =>
      cases fits
      cases ending <;> simp [Ending.error]

def list (fate : Fate) (report : Report) : List (List String) :=
  match fate with
  | .collected => report.collected
  | .ended .expired => report.abandoned
  | .ended .failed => report.failed

def record (fate : Fate) (report : Report) (order : Order) : Report :=
  match fate with
  | .collected => report.collect order
  | .ended .expired => report.abandon order
  | .ended .failed => report.spoil order

theorem list_record (fate other : Fate) (report : Report) (order : Order) :
    other.list (fate.record report order) =
      other.list report ++ if fate = other then [order.products] else [] := by
  rcases fate with _ | ending <;> rcases other with _ | later
  · simp [list, record, Report.collect]
  · cases later <;> simp [list, record, Report.collect]
  · cases ending <;> simp [list, record, Report.abandon, Report.spoil]
  · cases ending <;> cases later <;> simp [list, record, Report.abandon, Report.spoil]

theorem list_miss (fate : Fate) (report : Report) (product : String) :
    fate.list (report.miss product) = fate.list report := by
  cases fate with
  | collected => rfl
  | ended ending => cases ending <;> rfl

end Fate

structure Entry where
  worker : Nat
  id : OrderId
  fate : Fate
deriving DecidableEq, Repr

def Event.entry? : Event → Option Entry
  | .noticed (.orderCollected id worker) => some ⟨worker, id, .collected⟩
  | .noticed (.orderExpired id worker _) => some ⟨worker, id, .ended .expired⟩
  | .noticed (.orderFailed id worker _) => some ⟨worker, id, .ended .failed⟩
  | _ => none

-- The orders that were brought to an end, in the order in which they were.
def book (events : List Event) : List Entry := events.filterMap Event.entry?

-- The orders that one worker brought to such an end.
def listed (book : List Entry) (worker : Nat) (fate : Fate) : List OrderId :=
  (book.filter fun entry => entry.worker = worker ∧ entry.fate = fate).map (·.id)

def productsOf (events : List Event) (id : OrderId) : Option (List String) :=
  ((placed events).find? (·.id = id)).map (·.products)

-- The fate of the order that a worker has, once it is written down.
def WorkerPhase.fate? : WorkerPhase → Option Fate
  | .returning _ ending _ | .handingBack _ ending _ _ _ => some (.ended ending)
  | .delivering _ _ => some .collected
  | _ => none

variable {s t : State} {action : Action} {actions : List Action} {events more : List Event}
  {call : CallId} {id : OrderId} {i : Nat} {report : Report} {order : Order}
  {phase old : WorkerPhase} {was : RunnerPhase} {fate : Fate}

theorem book_append (events more : List Event) : book (events ++ more) = book events ++ book more :=
  List.filterMap_append

theorem listed_append (book more : List Entry) (worker : Nat) (fate : Fate) :
    listed (book ++ more) worker fate = listed book worker fate ++ listed more worker fate := by
  simp [listed]

theorem listed_singleton (entry : Entry) (worker : Nat) (fate : Fate) :
    listed [entry] worker fate =
      if entry.worker = worker ∧ entry.fate = fate then [entry.id] else [] := by
  unfold listed
  split <;> simp_all

theorem productsOf_append {products : List String} (known : productsOf events id = some products)
    (more : List Event) : productsOf (events ++ more) id = some products := by
  obtain ⟨order, found, same⟩ := Option.map_eq_some_iff.mp known
  unfold productsOf
  rw [placed_append, List.find?_append, found]
  exact congrArg some same

theorem productsOf_placed (all : Placed events s) (member : order ∈ placed events) :
    productsOf events order.id = some order.products := by
  have apart : ((placed events).map (·.id)).Nodup := by
    rw [all.numbers]
    exact List.nodup_range
  unfold productsOf
  cases found : (placed events).find? (·.id = order.id) with
  | none =>
    have missing := List.find?_eq_none.mp found order member
    simp at missing
  | some other =>
    have same : other.id = order.id := by simpa using List.find?_some found
    rw [List.inj_on_of_nodup_map apart (List.mem_of_find?_eq_some found) member same]
    rfl

-- The order was accepted and its worker, or the kitchen, owes it no outcome any more.
def State.settled (s : State) (id : OrderId) : Prop :=
  id < s.board.nextOrder ∧ id ∉ s.board.pending

theorem settled_step (orders : Orders s) (pending : Pending s) (step : Transition s action t events)
    (settled : s.settled id) : t.settled id := by
  obtain ⟨known, past⟩ := settled
  refine ⟨Nat.lt_of_lt_of_le known step.nextOrder_le, ?_⟩
  rw [pending_iff (orders.step step) (pending.step orders step)]
  rw [pending_iff orders pending] at past
  rintro ⟨state, here, underWay⟩
  have ended := (step.passage orders id).settled known
    (fun other there => Bool.eq_false_iff.mpr fun on => past ⟨other, there, on⟩) state here
  rw [underWay] at ended
  cases ended

structure Ledger (events : List Event) (s : State) : Prop where
  once : ((book events).map (·.id)).Nodup
  settled : ∀ entry ∈ book events, s.settled entry.id
  held : ∀ (i : Nat) (phase : WorkerPhase) (order : Order) (fate : Fate),
    s.phases[i]? = some phase → phase.order? = some order → phase.fate? = some fate →
      ⟨i, order.id, fate⟩ ∈ book events
  told : ∀ id outcome heard, s.results.get? id = some ⟨.holding outcome, heard⟩ →
    ∃ entry ∈ book events, entry.id = id ∧ entry.fate.fits id outcome
  written : ∀ (i : Nat) (worker : Worker), s.workers[i]? = some worker → ∀ fate : Fate,
    (fate.list worker.report).map some =
      (listed (book events) i fate).map (productsOf events)

namespace Ledger

theorem opened (stations : List String) (workers : Nat) :
    Ledger [] (.opened stations workers) := by
  refine ⟨List.nodup_nil, by simp [book], ?_, by simp [State.opened], ?_⟩
  · intro i phase order fate found has
    cases State.phases_opened found
    cases has
  · intro i worker here fate
    rw [List.eq_of_mem_replicate (List.mem_of_getElem? here)]
    cases fate with
    | collected => rfl
    | ended ending => cases ending <;> rfl

-- What a report says stays true while further orders are placed.
theorem map_productsOf {lists : List (List String)} {ids : List OrderId}
    (same : lists.map some = ids.map (productsOf events)) (more : List Event) :
    lists.map some = ids.map (productsOf (events ++ more)) := by
  rw [same]
  apply List.map_congr_left
  intro id member
  have listed : productsOf events id ∈ lists.map some := same ▸ List.mem_map_of_mem member
  obtain ⟨products, _, known⟩ := List.mem_map.mp listed
  rw [← known, productsOf_append known.symm]

theorem keep (ledger : Ledger events s) (silent : book more = [])
    (settled : ∀ id, s.settled id → t.settled id)
    (held : ∀ (i : Nat) (q : WorkerPhase) (order : Order) (fate : Fate), t.phases[i]? = some q →
      q.order? = some order → q.fate? = some fate →
        ∃ p, s.phases[i]? = some p ∧ p.order? = some order ∧ p.fate? = some fate)
    (told : ∀ id outcome heard, t.results.get? id = some ⟨.holding outcome, heard⟩ →
      (∃ heard, s.results.get? id = some ⟨.holding outcome, heard⟩) ∨
        ∃ entry ∈ book events, entry.id = id ∧ entry.fate.fits id outcome)
    (reports : ∀ (i : Nat) (now : Worker), t.workers[i]? = some now →
      ∃ before, s.workers[i]? = some before ∧
        ∀ fate : Fate, fate.list now.report = fate.list before.report) :
    Ledger (events ++ more) t := by
  have same : book (events ++ more) = book events := by rw [book_append, silent, List.append_nil]
  refine ⟨?_, ?_, ?_, ?_, ?_⟩
  · rw [same]
    exact ledger.once
  · intro entry member
    rw [same] at member
    exact settled _ (ledger.settled entry member)
  · intro i q order fate found has ends
    obtain ⟨p, there, had, ended⟩ := held i q order fate found has ends
    rw [same]
    exact ledger.held i p order fate there had ended
  · intro id outcome heard found
    rw [same]
    rcases told id outcome heard found with ⟨before, there⟩ | known
    · exact ledger.told id outcome before there
    · exact known
  · intro i now here fate
    obtain ⟨before, there, lists⟩ := reports i now here
    rw [same, lists]
    exact map_productsOf (ledger.written i before there fate) more

-- The worker's phase changes, and no outcome is written down.
theorem set (ledger : Ledger events s) (silent : book more = [])
    (settled : ∀ id, s.settled id → t.settled id)
    (here : s.workers[i]? = some ⟨old, report⟩)
    (workers : t.workers = s.workers.set i ⟨phase, later⟩)
    (keeps : ∀ order fate, phase.order? = some order → phase.fate? = some fate →
      old.order? = some order ∧ old.fate? = some fate)
    (told : ∀ id outcome heard, t.results.get? id = some ⟨.holding outcome, heard⟩ →
      (∃ heard, s.results.get? id = some ⟨.holding outcome, heard⟩) ∨
        ∃ entry ∈ book events, entry.id = id ∧ entry.fate.fits id outcome)
    (lists : ∀ fate : Fate, fate.list later = fate.list report) : Ledger (events ++ more) t := by
  refine ledger.keep silent settled ?_ told ?_
  · intro j q order fate found has ends
    have crew : t.phases = s.phases.set i phase := by
      unfold State.phases
      rw [workers, List.map_set]
    rcases getElem?_set_cases (crew ▸ found) with ⟨rfl, rfl⟩ | ⟨_, before⟩
    · obtain ⟨had, ended⟩ := keeps order fate has ends
      exact ⟨old, State.phases_of here, had, ended⟩
    · exact ⟨q, before, has, ends⟩
  · intro j now there
    rcases getElem?_set_cases (workers ▸ there) with ⟨rfl, rfl⟩ | ⟨_, before⟩
    · exact ⟨_, here, lists⟩
    · exact ⟨now, before, fun _ => rfl⟩

theorem map (ledger : Ledger events s) (silent : book more = [])
    (settled : ∀ id, s.settled id → t.settled id) (f : Worker → Worker)
    (workers : t.workers = s.workers.map f)
    (reports : ∀ worker, (f worker).report = worker.report)
    (phases : ∀ worker, (f worker).phase.order? = worker.phase.order? ∧
      (f worker).phase.fate? = worker.phase.fate?)
    (told : ∀ id outcome heard, t.results.get? id = some ⟨.holding outcome, heard⟩ →
      ∃ heard, s.results.get? id = some ⟨.holding outcome, heard⟩) : Ledger (events ++ more) t := by
  refine ledger.keep silent settled ?_ (fun id outcome heard found => .inl (told id outcome heard found)) ?_
  · intro i q order fate found has ends
    unfold State.phases at found
    rw [workers, List.map_map, List.getElem?_map, Option.map_eq_some_iff] at found
    obtain ⟨worker, there, rfl⟩ := found
    obtain ⟨order', fate'⟩ := phases worker
    exact ⟨worker.phase, by simp [State.phases, there], order' ▸ has, fate' ▸ ends⟩
  · intro i now there
    rw [workers, List.getElem?_map, Option.map_eq_some_iff] at there
    obtain ⟨worker, before, rfl⟩ := there
    exact ⟨worker, before, fun _ => by rw [reports]⟩

theorem same (ledger : Ledger events s) (silent : book more = [])
    (settled : ∀ id, s.settled id → t.settled id) (workers : t.workers = s.workers)
    (told : ∀ id outcome heard, t.results.get? id = some ⟨.holding outcome, heard⟩ →
      ∃ heard, s.results.get? id = some ⟨.holding outcome, heard⟩) : Ledger (events ++ more) t :=
  ledger.map silent settled id (by rw [workers, List.map_id]) (fun _ => rfl) (fun _ => ⟨rfl, rfl⟩) told

-- The worker writes down how its order ended.
theorem settle (ledger : Ledger events s) (fate : Fate)
    (here : s.workers[i]? = some ⟨old, report⟩) (due : order.id ∈ s.board.pending)
    (known : productsOf events order.id = some order.products)
    (wrote : book more = [⟨i, order.id, fate⟩]) (settled : ∀ id, s.settled id → t.settled id)
    (ended : t.settled order.id) (workers : t.workers = s.workers.set i ⟨phase, fate.record report order⟩)
    (has : phase.order? = some order) (ends : phase.fate? = some fate)
    (results : t.results = s.results) : Ledger (events ++ more) t := by
  have new : book (events ++ more) = book events ++ [⟨i, order.id, fate⟩] := by
    rw [book_append, wrote]
  refine ⟨?_, ?_, ?_, ?_, ?_⟩
  · rw [new]
    apply nodup_map_concat ledger.once
    intro entry member same
    apply (ledger.settled entry member).2
    rw [same]
    exact due
  · intro entry member
    rw [new] at member
    rcases List.mem_append.mp member with earlier | last
    · exact settled _ (ledger.settled entry earlier)
    · cases List.mem_singleton.mp last
      exact ended
  · intro j q other ended found had ending
    have crew : t.phases = s.phases.set i phase := by
      unfold State.phases
      rw [workers, List.map_set]
    rw [new]
    rcases getElem?_set_cases (crew ▸ found) with ⟨rfl, rfl⟩ | ⟨_, before⟩
    · rw [has] at had
      rw [ends] at ending
      cases had
      cases ending
      exact List.mem_append_right _ (List.mem_singleton_self _)
    · exact List.mem_append_left _ (ledger.held j q other ended before had ending)
  · intro id outcome heard found
    rw [results] at found
    obtain ⟨entry, member, mine⟩ := ledger.told id outcome heard found
    rw [new]
    exact ⟨entry, List.mem_append_left _ member, mine⟩
  · intro j now there other
    have written : ∀ worker, s.workers[j]? = some worker → (other.list worker.report).map some =
        (listed (book events) j other).map (productsOf (events ++ more)) :=
      fun worker before => map_productsOf (ledger.written j worker before other) more
    rw [new, listed_append, listed_singleton, List.map_append]
    rcases getElem?_set_cases (workers ▸ there) with ⟨rfl, rfl⟩ | ⟨differ, before⟩
    · rw [fate.list_record, List.map_append, written _ here]
      by_cases mine : fate = other <;> simp [mine, productsOf_append known more]
    · rw [written now before]
      simp [Ne.symm differ]

-- What the signal of one order holds after its worker has spoken.
theorem told_resolve {outcome said : Outcome} {heard : Bool}
    (fresh : s.results.get? order.id = some .fresh)
    (found : (s.resolveResult order.id said).results.get? id = some ⟨.holding outcome, heard⟩) :
    order.id = id ∧ outcome = said ∨ s.results.get? id = some ⟨.holding outcome, heard⟩ := by
  unfold State.resolveResult at found
  simp only [Table.get?_modify] at found
  split at found
  next same =>
    rw [← same, fresh] at found
    cases found
    exact .inl ⟨same, rfl⟩
  next => exact .inr found

theorem worker (ledger : Ledger events s) (orders : Orders s) (pending : Pending s)
    (all : Placed events s) (here : s.workers[i]? = some ⟨old, report⟩)
    (move : WorkerMove s i report old action t more) : Ledger (events ++ more) t := by
  have place := State.phases_of here
  have after : ∀ id, s.settled id → t.settled id :=
    fun _ => settled_step orders pending (.worker here move)
  have quiet : ∀ id outcome heard, s.results.get? id = some ⟨.holding outcome, heard⟩ →
      (∃ heard, s.results.get? id = some ⟨.holding outcome, heard⟩) ∨
        ∃ entry ∈ book events, entry.id = id ∧ entry.fate.fits id outcome :=
    fun _ _ heard found => .inl ⟨heard, found⟩
  -- Until its worker writes down its fate an order is pending.
  have due : ∀ order, old.open? = some order → order.id ∈ s.board.pending :=
    fun order opened => (pending order.id).mpr (.inr ⟨i, old, order, place, opened, rfl⟩)
  have known : ∀ order, old.open? = some order → productsOf events order.id = some order.products :=
    fun order opened => productsOf_placed all (all.had i old order place (WorkerPhase.open?_order opened))
  have below : ∀ order, old.open? = some order → order.id < t.board.nextOrder := by
    intro order opened
    have claimed := orders.roster.claimed i old order place (WorkerPhase.open?_order opened)
    rw [move.unmanned.next]
    exact Nat.lt_of_lt_of_le claimed (Nat.sub_le ..)
  cases move with
  | @dispatch order =>
    refine ledger.set ?_ after here (spread_setWorker ..) (by simp [WorkerPhase.fate?]) ?_ (fun _ => rfl)
    · rw [book_append]
      unfold book
      rw [spread_shows _ _ _ fun _ _ => rfl]
      rfl
    · intro id outcome heard found
      change (s.spread order).1.results.get? id = _ at found
      rw [spread_results] at found
      exact quiet id outcome heard found
  | hearBreak | hearNothing =>
    exact ledger.set rfl after here rfl (by simp [WorkerPhase.fate?]) quiet fun fate => fate.list_miss report _
  | @holdUnslotted order made done unslotted =>
    obtain ⟨slot, _⟩ := orders.had i _ order place rfl
    rw [State.view, unslotted] at slot
    cases slot
  | fail =>
    refine ledger.settle (.ended .failed) here (due _ rfl) (known _ rfl) rfl after ⟨below _ rfl, ?_⟩
      rfl rfl rfl rfl
    simp [State.setWorker, State.spoil, State.withBoard, State.buzz, Board.removePending]
  | collected =>
    refine ledger.settle .collected here (due _ rfl) (known _ rfl) rfl after ⟨below _ rfl, ?_⟩
      rfl rfl rfl rfl
    simp [State.setWorker, State.pickUp, State.withBoard, Board.removePending]
  | expired =>
    refine ledger.settle (.ended .expired) here (due _ rfl) (known _ rfl) rfl after ⟨below _ rfl, ?_⟩
      rfl rfl rfl rfl
    simp [State.setWorker, State.expire, State.withBoard, Board.removePending]
  | handBack | skip | accepted | refused =>
    exact ledger.set rfl after here rfl (fun _ _ has ends => ⟨has, ends⟩) quiet (fun _ => rfl)
  | @tell order ending =>
    refine ledger.set rfl after here rfl (by simp [WorkerPhase.fate?]) ?_ (fun _ => rfl)
    intro id outcome heard found
    rcases told_resolve (orders.had i _ order place rfl).2 found with ⟨rfl, rfl⟩ | there
    · exact .inr ⟨_, ledger.held i _ order _ place rfl rfl, rfl, rfl⟩
    · exact quiet id outcome heard there
  | @deliver order made =>
    refine ledger.set rfl after here rfl (by simp [WorkerPhase.fate?]) ?_ (fun _ => rfl)
    intro id outcome heard found
    rcases told_resolve (orders.had i _ order place rfl).2.2 found with ⟨rfl, rfl⟩ | there
    · exact .inr ⟨_, ledger.held i _ order _ place rfl rfl, rfl, trivial⟩
    · exact quiet id outcome heard there
  | @crash order ending =>
    have fresh : s.results.get? order.id = some .fresh := (orders.had i _ order place rfl).2
    refine ledger.set rfl after here rfl (by simp [WorkerPhase.fate?]) ?_ (fun _ => rfl)
    intro id outcome heard found
    simp only [State.setWorker, Table.get?_modify] at found
    split at found
    next same =>
      rw [← same, fresh] at found
      cases found
    next => exact quiet id outcome heard found
  | _ => exact ledger.set rfl after here rfl (by simp [WorkerPhase.fate?]) quiet (fun _ => rfl)

theorem told_accept {outcome : Outcome} {heard : Bool} (products : List String)
    (found : (s.accept products).results.get? id = some ⟨.holding outcome, heard⟩) :
    ∃ heard, s.results.get? id = some ⟨.holding outcome, heard⟩ := by
  simp only [State.accept, Table.get?_insert] at found
  split at found
  · cases found
  · exact ⟨heard, found⟩

theorem told_hear {heard before : Bool} {outcome : Outcome} {other : OrderId}
    (found : (s.hearResult other before).results.get? id = some ⟨.holding outcome, heard⟩) :
    ∃ heard, s.results.get? id = some ⟨.holding outcome, heard⟩ := by
  simp only [State.hearResult, Table.get?_insert] at found
  split at found
  · cases found
  · exact ⟨heard, found⟩

theorem book_pager {stage : PagerPhase} (move : PagerMove s call id use stage t more) :
    book more = [] := by
  rcases move.answers with rfl | ⟨_, rfl⟩ | ⟨_, rfl⟩ | rfl <;> rfl

theorem client (ledger : Ledger events s) (orders : Orders s) (pending : Pending s)
    (move : ClientMove s action t more) : Ledger (events ++ more) t := by
  have after : ∀ id, s.settled id → t.settled id :=
    fun _ => settled_step orders pending (.client move)
  cases move with
  | place => exact ledger.same rfl after rfl fun _ _ _ => told_accept _
  | @placeWaking products _ _ _ _ sleeper =>
    refine ledger.set rfl after sleeper rfl (by simp [WorkerPhase.order?]) ?_ (fun _ => rfl)
    exact fun _ _ _ found => .inl (told_accept products found)
  | @collectReady _ id =>
    refine ledger.map rfl after (State.wakePickup id) rfl ?_ ?_ (fun _ _ heard found => ⟨heard, found⟩)
    · rintro ⟨phase, report⟩
      cases phase with
      | holding order made told =>
        by_cases mine : order.id = id <;> simp [State.wakePickup, mine]
      | _ => rfl
    · intro worker
      rw [State.wakePickup_phase]
      cases worker.phase <;> exact ⟨rfl, rfl⟩
  | getResult | getNothing => exact ledger.same rfl after rfl fun _ _ _ => told_hear
  | usePager _ move =>
    obtain ⟨_, workers, _, _, results, _⟩ := move.frame
    refine ledger.same (book_pager move) after workers ?_
    intro id outcome heard found
    exact ⟨heard, results ▸ found⟩
  | _ => exact ledger.same rfl after rfl fun _ _ heard found => ⟨heard, found⟩

theorem book_runner {calls : Nat} (move : RunnerMove s i station out calls was action t more) :
    book more = [] := by
  cases move with
  | handOver =>
    simp only [book, List.filterMap_cons, Event.entry?]
    split <;> rfl
  | _ => rfl

theorem step (ledger : Ledger events s) (orders : Orders s) (pending : Pending s)
    (all : Placed events s) (step : Transition s action t more) : Ledger (events ++ more) t := by
  have after : ∀ id, s.settled id → t.settled id := fun _ => settled_step orders pending step
  cases step with
  | worker here move => exact ledger.worker orders pending all here move
  | runner _ move =>
    obtain ⟨workers, _, _, _, _, results⟩ := move.workers
    refine ledger.same (book_runner move) after workers ?_
    intro id outcome heard found
    exact ⟨heard, results ▸ found⟩
  | client move => exact ledger.client orders pending move
  | shutdown _ move =>
    have told : ∀ id outcome heard, t.results.get? id = some ⟨.holding outcome, heard⟩ →
        ∃ heard, s.results.get? id = some ⟨.holding outcome, heard⟩ := by
      intro id outcome heard found
      rw [move.frame.2.2.2.2.2.2.2.1] at found
      exact ⟨heard, found⟩
    cases move with
    | wakeWorkers =>
      refine ledger.map rfl after State.wakeWorker rfl ?_ ?_ told
      · rintro ⟨phase, report⟩
        cases phase <;> rfl
      · intro worker
        rw [State.wakeWorker_phase]
        cases worker.phase <;> exact ⟨rfl, rfl⟩
    | joinRunner _ ended =>
      rcases ended with ⟨_, rfl⟩ | ⟨_, rfl⟩
      all_goals exact ledger.same rfl after rfl told
    | _ => exact ledger.same rfl after rfl told

theorem run (run : Run (.opened stations workers) actions events t) : Ledger events t := by
  induction run with
  | start => exact opened stations workers
  | next before ran ih =>
    have orders := (Orders.opened stations workers).run before
    have pending := (Pending.opened stations workers).run (Orders.opened stations workers) before
    exact ih.step orders pending (Placed.run before) (transition_of_step ran)

-- An order is written down with one fate.
theorem same_fate (ledger : Ledger events s) {mine yours : Entry} (here : mine ∈ book events)
    (there : yours ∈ book events) (same : mine.id = yours.id) : mine.fate = yours.fate := by
  rw [List.inj_on_of_nodup_map ledger.once here there same]

end Ledger

end Kitchen.Engine
