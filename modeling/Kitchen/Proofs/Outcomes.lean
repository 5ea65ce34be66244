import Kitchen.Proofs.Closing
import Kitchen.Proofs.Orders
import Kitchen.Proofs.Pending
import Kitchen.Proofs.Summaries
import Kitchen.Proofs.Totals
import Kitchen.Proofs.Traces

namespace Kitchen

def Report.outcomes (report : Report) : List (List String) :=
  report.collected ++ report.abandoned ++ report.failed

theorem Report.length_outcomes (report : Report) : report.outcomes.length = report.handled := by
  simp [Report.outcomes, Report.handled, Nat.add_assoc]

namespace Engine

variable {s t : State} {action : Action} {actions : List Action} {events more : List Event}
  {call c : CallId} {id : OrderId} {i : Nat} {report : Report} {order : Order}
  {phase old : WorkerPhase}

def Event.placed? : Event → Option Order
  | .placed products id => some ⟨id, products⟩
  | _ => none

def placed (events : List Event) : List Order := events.filterMap Event.placed?

theorem placed_append (events more : List Event) :
    placed (events ++ more) = placed events ++ placed more :=
  List.filterMap_append

-- What a worker answers for: the order it has without an outcome, and the outcomes it wrote
-- down.
def Worker.account (worker : Worker) : List (List String) :=
  (worker.phase.open?.map (·.products)).toList ++ worker.report.outcomes

-- The product lists of the orders that wait, or that some worker answers for.
def State.accounts (s : State) : List (List String) :=
  s.board.unassigned.map (·.products) ++ s.workers.flatMap Worker.account

theorem count_accounts (s : State) (products : List String) : s.accounts.count products =
    (s.board.unassigned.map (·.products)).count products +
      total (s.workers.map fun worker => worker.account.count products) := by
  rw [State.accounts, List.count_append, count_flatMap_total]

theorem accounts_set {before after : Worker} (here : s.workers[i]? = some before)
    (workers : t.workers = s.workers.set i after)
    (unassigned : t.board.unassigned = s.board.unassigned)
    (same : after.account.Perm before.account) : t.accounts.Perm s.accounts := by
  rw [List.perm_iff_count]
  intro products
  have moved := total_set (f := fun worker => worker.account.count products) here after
  have equal := same.count_eq products
  rw [count_accounts, count_accounts, workers, unassigned]
  omega

theorem accounts_map (f : Worker → Worker) (workers : t.workers = s.workers.map f)
    (unassigned : t.board.unassigned = s.board.unassigned)
    (same : ∀ worker, (f worker).account = worker.account) : t.accounts = s.accounts := by
  rw [State.accounts, State.accounts, workers, unassigned, List.flatMap_map]
  simp only [same]

theorem wakeWorker_account (worker : Worker) :
    (State.wakeWorker worker).account = worker.account := by
  obtain ⟨phase, report⟩ := worker
  cases phase <;> rfl

theorem wakePickup_account (id : OrderId) (worker : Worker) :
    (State.wakePickup id worker).account = worker.account := by
  obtain ⟨phase, report⟩ := worker
  cases phase with
  | holding order made notified =>
    by_cases mine : order.id = id <;> simp [State.wakePickup, Worker.account, WorkerPhase.open?, mine]
  | _ => rfl

-- An order that ends goes from the worker's hands into one list of its report.
theorem account_settled (phase : WorkerPhase) (report : Report)
    (opened : old.open? = some order) (ended : phase.open? = none)
    (after : report'.outcomes.Perm (order.products :: report.outcomes)) :
    (⟨phase, report'⟩ : Worker).account.Perm (⟨old, report⟩ : Worker).account := by
  simpa [Worker.account, opened, ended] using after

theorem outcomes_collect (report : Report) (order : Order) :
    (report.collect order).outcomes.Perm (order.products :: report.outcomes) := by
  rw [List.perm_iff_count]
  intro products
  simp only [Report.outcomes, Report.collect, List.count_append, List.count_cons, List.count_nil]
  omega

theorem outcomes_abandon (report : Report) (order : Order) :
    (report.abandon order).outcomes.Perm (order.products :: report.outcomes) := by
  rw [List.perm_iff_count]
  intro products
  simp only [Report.outcomes, Report.abandon, List.count_append, List.count_cons, List.count_nil]
  omega

theorem outcomes_spoil (report : Report) (order : Order) :
    (report.spoil order).outcomes.Perm (order.products :: report.outcomes) := by
  rw [List.perm_iff_count]
  intro products
  simp only [Report.outcomes, Report.spoil, List.count_append, List.count_cons, List.count_nil]
  omega

theorem seeks_open (seeks : phase.seeks = true) : phase.open? = none := by
  cases phase <;> first | rfl | cases seeks

theorem accounts_claim (here : s.workers[i]? = some ⟨old, report⟩) (seeks : old.seeks = true)
    (first : s.board.unassigned = order :: rest)
    (workers : t.workers = s.workers.set i ⟨.claimed order, report⟩)
    (unassigned : t.board.unassigned = rest) : t.accounts.Perm s.accounts := by
  rw [List.perm_iff_count]
  intro products
  have moved := total_set (f := fun worker => worker.account.count products) here
    ⟨.claimed order, report⟩
  have before : (⟨old, report⟩ : Worker).account = report.outcomes := by
    rw [Worker.account, seeks_open seeks]
    rfl
  have after : (⟨.claimed order, report⟩ : Worker).account = order.products :: report.outcomes := rfl
  rw [count_accounts, count_accounts, workers, unassigned, first]
  simp only [before, after, List.map_cons, List.count_cons] at moved ⊢
  omega

theorem worker_accounts (here : s.workers[i]? = some ⟨old, report⟩)
    (move : WorkerMove s i report old action t events) : t.accounts.Perm s.accounts := by
  cases move with
  | claim seeks first => exact accounts_claim here seeks first rfl rfl
  | leave seeks | rest seeks =>
    refine accounts_set here rfl rfl (.of_eq ?_)
    rw [Worker.account, Worker.account, seeks_open seeks]
    rfl
  | dispatch => exact accounts_set here (spread_setWorker ..) (spread_unassigned ..) (.refl _)
  | holdUnslotted =>
    exact accounts_set here rfl rfl (account_settled _ _ rfl rfl (outcomes_abandon report _))
  | fail => exact accounts_set here rfl rfl (account_settled _ _ rfl rfl (outcomes_spoil report _))
  | collected =>
    exact accounts_set here rfl rfl (account_settled _ _ rfl rfl (outcomes_collect report _))
  | expired =>
    exact accounts_set here rfl rfl (account_settled _ _ rfl rfl (outcomes_abandon report _))
  | _ => exact accounts_set here rfl rfl (.refl _)

theorem placed_worker (move : WorkerMove s i report old action t events) : placed events = [] := by
  cases move with
  | dispatch =>
    rw [placed, List.filterMap_append, spread_shows _ _ _ fun _ _ => rfl]
    rfl
  | _ => rfl

theorem placed_runner {calls : Nat} (move : RunnerMove s i station out calls was action t events) :
    placed events = [] := by
  cases move with
  | handOver =>
    simp only [placed, List.filterMap_cons, Event.placed?]
    split <;> rfl
  | _ => rfl

theorem placed_pager (move : PagerMove s call id use stage t events) : placed events = [] := by
  rcases move.answers with rfl | ⟨_, rfl⟩ | ⟨_, rfl⟩ | rfl <;> rfl

theorem placed_shutdown (move : ShutdownMove s call stage t events) : placed events = [] := by
  cases move with
  | joinRunner _ ended =>
    rcases ended with ⟨_, rfl⟩ | ⟨_, rfl⟩
    all_goals rfl
  | _ => rfl

theorem accounts_accept (s : State) (products : List String) :
    (s.accept products).accounts.Perm (s.accounts ++ [products]) := by
  rw [List.perm_iff_count]
  intro other
  simp only [count_accounts, State.accept, List.map_append, List.count_append, List.map_cons,
    List.map_nil]
  omega

theorem client_accounts (move : ClientMove s action t events) :
    t.accounts.Perm (s.accounts ++ (placed events).map (·.products)) := by
  have still : ∀ {more : List Event}, placed more = [] →
      s.accounts.Perm (s.accounts ++ (placed more).map (·.products)) := by
    intro more none
    rw [none, List.map_nil, List.append_nil]
  cases move with
  | place => exact accounts_accept s _
  | placeWaking _ _ sleeper =>
    refine List.Perm.trans ?_ (accounts_accept s _)
    exact accounts_set (s := s.accept _) sleeper rfl rfl (.refl _)
  | collectReady =>
    refine List.Perm.trans (.of_eq ?_) (still rfl)
    exact accounts_map (State.wakePickup _) rfl rfl (wakePickup_account _)
  | usePager _ move =>
    obtain ⟨board, workers, _⟩ := move.frame
    have same : t.accounts = s.accounts := by
      rw [State.accounts, State.accounts, board, workers]
    exact same ▸ still (placed_pager move)
  | _ => exact still rfl

-- A step adds the order that it accepts and loses none.
theorem Transition.accounts (step : Transition s action t events) :
    t.accounts.Perm (s.accounts ++ (placed events).map (·.products)) := by
  cases step with
  | worker here move =>
    rw [placed_worker move, List.map_nil, List.append_nil]
    exact worker_accounts here move
  | runner _ move =>
    obtain ⟨workers, unassigned, _⟩ := move.workers
    rw [placed_runner move, List.map_nil, List.append_nil, State.accounts, workers, unassigned]
    exact .refl _
  | client move => exact client_accounts move
  | shutdown _ move =>
    rw [placed_shutdown move, List.map_nil, List.append_nil]
    cases move with
    | wakeWorkers => exact .of_eq (accounts_map _ rfl rfl wakeWorker_account)
    | _ => exact .refl _

def State.won (s : State) : Action → List OrderId
  | .collect _ id => if s.board.slots.get? id = some ⟨.ready, true⟩ then [id] else []
  | _ => []

-- The orders whose products clients won, one after the other.
def wins (s : State) (actions : List Action) : List OrderId := along State.won s actions

-- The order's result was taken.
def Taken (s : State) (id : OrderId) : Prop :=
  id < s.board.nextOrder ∧ ∀ slot, s.board.slots.get? id = some slot → slot.uncollected = false

theorem Taken.same (taken : Taken s id) (next : t.board.nextOrder = s.board.nextOrder)
    (slots : t.board.slots = s.board.slots) : Taken t id := by
  rw [Taken, next, slots]
  exact taken

theorem Taken.modify (taken : Taken s id) (changed : OrderId) (state : OrderState)
    (next : t.board.nextOrder = s.board.nextOrder)
    (slots : t.board.slots = s.board.slots.modify changed fun slot => { slot with state }) :
    Taken t id := by
  refine ⟨next ▸ taken.1, ?_⟩
  intro slot found
  rw [slots, Table.get?_modify] at found
  split at found
  · obtain ⟨old, was, rfl⟩ := Option.map_eq_some_iff.mp found
    exact taken.2 old was
  · exact taken.2 slot found

theorem Taken.ready (taken : Taken s id) (changed : OrderId) : Taken (s.ready changed) id :=
  taken.modify changed .ready rfl rfl

theorem Taken.erase (taken : Taken s id) (next : t.board.nextOrder = s.board.nextOrder)
    (slots : t.board.slots = s.board.slots.erase changed) : Taken t id := by
  refine ⟨next ▸ taken.1, ?_⟩
  intro slot found
  rw [slots, Table.get?_erase] at found
  split at found
  · cases found
  · exact taken.2 slot found

theorem Taken.worker (taken : Taken s id) (move : WorkerMove s i report old action t events) :
    Taken t id := by
  cases move with
  | @dispatch order =>
    exact taken.modify order.id .dispatched (spread_unmanned s order).next (spread_slots s order)
  | hold => exact taken.ready _
  | holdUnslotted => exact (taken.ready _).modify _ .expired rfl rfl
  | fail => exact taken.modify _ .failed rfl rfl
  | expired => exact taken.modify _ .expired rfl rfl
  | collected => exact taken.erase rfl rfl
  | _ => exact taken.same rfl rfl

theorem Taken.client (taken : Taken s id) (move : ClientMove s action t events) : Taken t id := by
  obtain ⟨known, gone⟩ := taken
  cases move with
  | place | placeWaking =>
    refine ⟨Nat.lt_succ_of_lt known, ?_⟩
    intro slot found
    change (s.board.slots.insert _ _).get? id = _ at found
    rw [Table.get?_insert_of_ne _ _ (Nat.ne_of_gt known)] at found
    exact gone slot found
  | collectReady =>
    refine ⟨known, ?_⟩
    intro slot found
    change (s.board.slots.insert _ _).get? id = _ at found
    rw [Table.get?_insert] at found
    split at found
    · cases found; rfl
    · exact gone slot found
  | collectEnded => exact Taken.erase ⟨known, gone⟩ rfl rfl
  | usePager _ move =>
    obtain ⟨board, _⟩ := move.frame
    exact Taken.same ⟨known, gone⟩ (by rw [board]) (by rw [board])
  | _ => exact ⟨known, gone⟩

theorem Taken.step (taken : Taken s id) (step : Transition s action t events) : Taken t id := by
  cases step with
  | worker _ move => exact taken.worker move
  | runner _ move =>
    obtain ⟨_, _, _, slots, _⟩ := move.workers
    exact taken.same move.unmanned.next slots
  | client move => exact taken.client move
  | shutdown _ move =>
    obtain ⟨next, _, _, _, slots, _⟩ := move.frame
    exact taken.same next slots

theorem taken_of_won (orders : Orders s) (won : id ∈ s.won action)
    (step : Transition s action t events) : Taken t id := by
  cases action with
  | collect call other =>
    simp only [State.won] at won
    split at won
    next ready =>
      cases List.mem_singleton.mp won
      have known : id < s.board.nextOrder := by
        obtain ⟨i, order, made, here, rfl⟩ := orders.holder ready
        have := orders.roster.claimed i _ order here rfl
        lia
      rcases step.ofClient rfl with move | ⟨_, _, same, _⟩
      · cases move with
        | collectUnknown _ gone => exact ⟨known, gone⟩
        | collectEarly _ present early =>
          rw [ready] at present
          cases present
          cases early
        | collectReady =>
          refine ⟨known, ?_⟩
          intro slot found
          cases (Table.get?_insert_self s.board.slots id _).symm.trans found
          rfl
        | collectEnded _ present ended =>
          rw [ready] at present
          cases present
          rcases ended with ended | ended <;> cases ended
      · cases same
    next => cases won
  | _ => cases won

theorem won_free (won : id ∈ s.won action) : ¬ Taken s id := by
  cases action with
  | collect call other =>
    simp only [State.won] at won
    split at won
    next ready =>
      cases List.mem_singleton.mp won
      intro taken
      cases taken.2 _ ready
    next => cases won
  | _ => cases won

theorem wins_taken (orders : Orders s) (run : Run s actions events t) :
    (wins s actions).Nodup ∧ ∀ id ∈ wins s actions, Taken t id := by
  induction run with
  | start => exact ⟨List.nodup_nil, by simp [wins, along]⟩
  | @next _ _ _ middle last action before ran ih =>
    have step := transition_of_step ran
    rw [wins, along_next _ before]
    refine ⟨?_, ?_⟩
    · rw [List.nodup_append]
      refine ⟨ih.1, ?_, ?_⟩
      · cases action with
        | collect call id => simp only [State.won]; split <;> simp
        | _ => exact List.nodup_nil
      · intro id early other late same
        subst same
        exact won_free late (ih.2 id early)
    · intro id member
      rcases List.mem_append.mp member with early | late
      · exact (ih.2 id early).step step
      · exact taken_of_won (orders.run before) late step

-- The client of the held order came.
def WorkerPhase.visited : WorkerPhase → Nat
  | .holding _ _ true => 1
  | _ => 0

-- How many orders the worker handed out, counting the one whose client has come for it.
def Worker.served (worker : Worker) : Nat := worker.report.collected.length + worker.phase.visited

def State.served (s : State) : Nat := total (s.workers.map Worker.served)

theorem served_set {before after : Worker} (here : s.workers[i]? = some before)
    (workers : t.workers = s.workers.set i after) (same : after.served = before.served) :
    t.served = s.served := by
  have moved := total_set (f := Worker.served) here after
  rw [State.served, State.served, workers]
  omega

theorem seeks_visited (seeks : phase.seeks = true) : phase.visited = 0 := by
  cases phase <;> first | rfl | cases seeks

theorem worker_served (orders : Orders s) (here : s.workers[i]? = some ⟨old, report⟩)
    (move : WorkerMove s i report old action t events) : t.served = s.served := by
  cases move with
  | claim seeks | leave seeks | rest seeks =>
    refine served_set here rfl ?_
    simp only [Worker.served, seeks_visited seeks]
    rfl
  | dispatch => exact served_set here (spread_setWorker ..) rfl
  | @holdOn order made still =>
    have slot : s.board.slots.get? order.id = some ⟨.pickedUp, false⟩ :=
      (orders.had i _ order (State.phases_of here) rfl).1
    simp [Board.orderState, slot] at still
  | @collected _ notified order made due came =>
    have fits := orders.had i _ order (State.phases_of here) rfl
    cases notified with
    | false =>
      have slot : s.board.slots.get? order.id = some ⟨.ready, true⟩ := fits.1
      simp [Board.orderState, slot] at came
    | true =>
      refine served_set here rfl ?_
      simp [Worker.served, WorkerPhase.visited, Report.collect]
  | @expired _ notified order made due late =>
    have fits := orders.had i _ order (State.phases_of here) rfl
    cases notified with
    | false => exact served_set here rfl rfl
    | true =>
      have slot : s.board.slots.get? order.id = some ⟨.pickedUp, false⟩ := fits.1
      simp [Board.orderState, slot] at late
  | _ => exact served_set here rfl rfl

theorem served_map (f : Worker → Worker) (workers : t.workers = s.workers.map f)
    (same : ∀ worker, (f worker).served = worker.served) : t.served = s.served := by
  rw [State.served, State.served, workers, List.map_map]
  congr 1
  exact List.map_congr_left fun worker _ => same worker

-- Telling the worker that holds an order tells nobody else.
theorem notifyPickup_workers (orders : Orders s)
    (ready : s.board.slots.get? id = some ⟨.ready, true⟩) :
    ∃ (i : Nat) (order : Order) (made : Tray) (report : Report),
      s.workers[i]? = some ⟨.holding order made false, report⟩ ∧ order.id = id ∧
      s.workers.map (State.wakePickup id) = s.workers.set i ⟨.holding order made true, report⟩ := by
  obtain ⟨i, order, made, here, rfl⟩ := orders.holder ready
  obtain ⟨⟨phase, report⟩, found, same⟩ := Option.map_eq_some_iff.mp (List.getElem?_map ▸ here)
  cases same
  refine ⟨i, order, made, report, found, rfl, ?_⟩
  apply List.ext_getElem?
  intro j
  rw [List.getElem?_map, List.getElem?_set]
  split
  next mine =>
    subst mine
    rw [found, if_pos (List.getElem?_eq_some_iff.mp found).1]
    simp [State.wakePickup]
  next other =>
    cases there : s.workers[j]? with
    | none => rfl
    | some worker =>
      obtain ⟨phase, report⟩ := worker
      cases phase with
      | holding o m notified =>
        have differ : o.id ≠ order.id := fun equal =>
          other (orders.roster.apart i j _ _ order o here (State.phases_of there) rfl rfl equal.symm)
        simp [State.wakePickup, differ]
      | _ => rfl

theorem client_served (orders : Orders s) (move : ClientMove s action t events) :
    t.served = s.served + (s.won action).length := by
  cases move with
  | placeWaking _ _ sleeper => exact served_set (s := s.accept _) sleeper rfl rfl
  | collectUnknown _ gone =>
    simp only [State.won]
    split
    next ready => cases gone _ ready
    next => rfl
  | collectEarly _ present early =>
    simp only [State.won]
    split
    next ready =>
      rw [ready] at present
      cases present
      cases early
    next => rfl
  | @collectReady call id _ ready =>
    obtain ⟨i, order, made, report, here, rfl, told⟩ := notifyPickup_workers orders ready
    have moved := total_set (f := Worker.served) here ⟨.holding order made true, report⟩
    simp only [State.won, ready, if_true, List.length_singleton]
    change total ((s.workers.map (State.wakePickup order.id)).map Worker.served) = _
    rw [told, State.served]
    simp only [Worker.served, WorkerPhase.visited] at moved ⊢
    omega
  | collectEnded _ present ended =>
    simp only [State.won]
    split
    next ready =>
      rw [ready] at present
      cases present
      rcases ended with ended | ended <;> cases ended
    next => rfl
  | usePager _ move =>
    obtain ⟨_, workers, _⟩ := move.frame
    rw [State.served, workers]
    rfl
  | _ => rfl

theorem Transition.served (orders : Orders s) (step : Transition s action t events) :
    t.served = s.served + (s.won action).length := by
  cases step with
  | worker here move =>
    have idle : s.won action = [] := by
      rcases move.own with rfl | rfl | ⟨_, rfl⟩ <;> rfl
    rw [idle]
    exact worker_served orders here move
  | runner _ move =>
    have idle : s.won action = [] := by cases move <;> rfl
    rw [idle, State.served, move.workers.1]
    rfl
  | client move => exact client_served orders move
  | shutdown _ move =>
    cases move with
    | wakeWorkers =>
      refine served_map State.wakeWorker rfl ?_
      rintro ⟨phase, report⟩
      cases phase <;> rfl
    | _ => rfl

theorem served_wins (orders : Orders s) (run : Run s actions events t) :
    t.served = s.served + (wins s actions).length := by
  induction run with
  | start => rfl
  | @next _ _ _ middle _ action before ran ih =>
    have step := Transition.served (orders.run before) (transition_of_step ran)
    rw [wins, along_next _ before, List.length_append, step, ih, wins]
    omega

theorem accounts_run (run : Run s actions events t) :
    t.accounts.Perm (s.accounts ++ (placed events).map (·.products)) := by
  induction run with
  | start => simp [placed]
  | next _ ran ih =>
    refine (transition_of_step ran).accounts.trans ?_
    rw [placed_append, List.map_append, ← List.append_assoc]
    exact ih.append_right _

theorem accounts_opened (stations : List String) (workers : Nat) :
    (State.opened stations workers).accounts = [] := by
  simp [State.accounts, State.opened, Worker.account, WorkerPhase.open?, Report.outcomes,
    Report.empty]

theorem served_opened (stations : List String) (workers : Nat) :
    (State.opened stations workers).served = 0 := by
  refine total_eq_zero ?_
  intro worker member
  rw [List.eq_of_mem_replicate member]
  rfl

-- Where every worker has left, what the workers answer for is what their reports tell.
theorem accounts_of_finished (nothing : s.board.unassigned = [])
    (left : ∀ worker ∈ s.workers, worker.phase = .finished) :
    s.accounts = (s.workers.map Worker.tally).flatMap Report.outcomes := by
  rw [State.accounts, nothing, List.flatMap_map, List.map_nil, List.nil_append]
  rw [List.flatMap_def, List.flatMap_def]
  congr 1
  refine List.map_congr_left ?_
  intro worker member
  simp [Worker.account, Worker.tally, left worker member, WorkerPhase.open?]

theorem served_of_finished (left : ∀ worker ∈ s.workers, worker.phase = .finished) :
    s.served = total ((s.workers.map Worker.tally).map (·.collected.length)) := by
  rw [State.served, List.map_map]
  congr 1
  refine List.map_congr_left ?_
  intro worker member
  simp [Worker.served, Worker.tally, left worker member, WorkerPhase.visited]

-- Once the first worker has left, no order waits; once all have, none is pending.
theorem nothing_pending (closing : Closing s) (pending : Pending s) (crewed : 0 < s.workers.length)
    (left : ∀ worker ∈ s.workers, worker.phase = .finished) :
    s.board.unassigned = [] ∧ s.board.pending = [] := by
  have first := List.getElem_mem crewed
  have nothing := (closing.left _ first (left _ first)).2
  refine ⟨nothing, List.eq_nil_iff_forall_not_mem.mpr ?_⟩
  intro id member
  rcases (pending id).mp member with ⟨order, waits, _⟩ | ⟨i, phase, order, here, has, _⟩
  · rw [nothing] at waits
    cases waits
  · obtain ⟨worker, found, rfl⟩ := List.mem_map.mp (List.mem_of_getElem? here)
    rw [left worker found] at has
    cases has

-- Whenever the call that shuts down returns, the reports tell one outcome of every order that was
-- accepted, as collected those that clients won, and nothing is left pending.
theorem shutdown_accounts_for_orders (crewed : 0 < workers)
    (run : Run (.opened stations workers) actions events s)
    (returns : ∀ i, .returned i .crashed ∉ actions)
    (here : s.calls.get? call = some (.shutdown stage))
    (ran : s.step (.client call) = some (t, more))
    (answer : .replied call (.reports reports) ∈ more) :
    (reports.flatMap Report.outcomes).Perm ((placed events).map (·.products)) ∧
      (Summary.ofReports reports).handled = (placed events).length ∧
      total (reports.map (·.collected.length)) = (wins (.opened stations workers) actions).length ∧
      (wins (.opened stations workers) actions).Nodup ∧
      reports.length = workers ∧ t.board.unassigned = [] ∧ t.board.pending = [] := by
  have orders := Orders.opened stations workers
  have closing := (Closing.opened stations workers).run run
  have alive := (Crewed.opened stations workers).run run returns
  obtain ⟨rfl, done, rfl, all⟩ := stage_of_reports (shutdown_of_step here ran) answer
  have fits := closing.during _ _ here
  obtain ⟨told, ended⟩ := fits.reports_eq rfl
  replace told : reports = s.workers.map Worker.tally := told
  -- Everybody was joined and nobody was killed, so everybody has left by himself.
  have left : ∀ worker ∈ s.workers, worker.phase = .finished := by
    intro worker member
    have past := ended worker member
    have living := alive worker member
    cases phase : worker.phase <;> simp_all [WorkerPhase.ended]
  have crew : s.workers.length = workers := by
    rw [run.crew.1]
    simp [State.opened]
  obtain ⟨nothing, quiet⟩ := nothing_pending closing
    ((Pending.opened stations workers).run orders run) (by omega) left
  -- What the workers answer for is what was placed, and they answer for nothing but their reports.
  have accounts := accounts_run run
  rw [accounts_opened, List.nil_append, accounts_of_finished nothing left, ← told] at accounts
  have served := served_wins orders run
  rw [served_opened, Nat.zero_add, served_of_finished left, ← told] at served
  refine ⟨accounts, ?_, served, (wins_taken orders run).1, ?_, nothing, quiet⟩
  · have count := accounts.length_eq
    rw [length_flatMap_total, List.length_map] at count
    rw [Summary.handled_ofReports, ← count]
    congr 1
    exact List.map_congr_left fun report _ => report.length_outcomes.symm
  · rw [told, List.length_map, crew]

-- That day the one worker tells of both burgers, and of one that was collected.
theorem closingDay_accounted :
    [["burger"], ["burger"]].Perm
        ((placed ((State.opened ["burger"] 1).after closingDay).2).map (·.products)) ∧
      (wins (.opened ["burger"] 1) closingDay).length = 1 := by
  obtain ⟨outcomes, _, collected, _⟩ := shutdown_accounts_for_orders (by decide)
    (run_after closingDay_possible) (by simp [closingDay]) closingDay_stopping closingDay_last
    (.tail _ (.head _))
  exact ⟨outcomes, collected.symm⟩

end Engine

end Kitchen
