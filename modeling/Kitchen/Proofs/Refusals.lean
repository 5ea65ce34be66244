import Kitchen.Proofs.Drain
import Kitchen.Proofs.Verdicts

namespace Kitchen.Engine

variable {s t : State} {action : Action} {actions : List Action} {events more : List Event}
  {call : CallId} {id : OrderId} {menu products : List String} {product : String} {woken : Option Nat}
  {event : Event} {error : OrderError} {stations : List String} {workers : Nat}

theorem firstMissing_none :
    State.firstMissing menu products = none ↔ ∀ product ∈ products, product ∈ menu := by
  simp [State.firstMissing]

theorem firstMissing_some : State.firstMissing menu products = some product ↔
    product ∉ menu ∧ ∃ before after, products = before ++ product :: after ∧
      ∀ other ∈ before, other ∈ menu := by
  simp [State.firstMissing, List.find?_eq_some_iff_append]

-- Somebody who sleeps can be told, or nobody sleeps.
theorem notifyOne_possible (s : State) : ∃ woken t, s.notifyOne woken = some t := by
  by_cases asleep : s.workers.any State.isAsleep = true
  · obtain ⟨worker, member, sleeps⟩ := List.any_eq_true.mp asleep
    obtain ⟨i, here⟩ := List.getElem?_of_mem member
    refine ⟨some i, s.setWorker i (State.wakeWorker worker), ?_⟩
    simp [State.notifyOne, here, sleeps]
  · exact ⟨none, s, by simp [State.notifyOne, asleep]⟩

theorem order_closed (closed : s.board.closed = true) (products : List String)
    (woken : Option Nat) :
    s.step (.order products woken) = some (s, [.refused products .closed]) := by
  simp [State.step, State.order, closed]

theorem order_missing (unclosed : s.board.closed = false)
    (missing : ∃ product ∈ products, product ∉ s.board.menu) (woken : Option Nat) :
    ∃ product before after, products = before ++ product :: after ∧
      (∀ other ∈ before, other ∈ s.board.menu) ∧ product ∉ s.board.menu ∧
      s.step (.order products woken) = some (s,
        [.refused products (.invalidProduct product), .noticed (.orderRejected product)]) := by
  cases found : State.firstMissing s.board.menu products with
  | none =>
    obtain ⟨product, wanted, off⟩ := missing
    exact absurd (firstMissing_none.mp found product wanted) off
  | some product =>
    obtain ⟨off, before, after, split, listed⟩ := firstMissing_some.mp found
    refine ⟨product, before, after, split, listed, off, ?_⟩
    simp [State.step, State.order, unclosed, found]

-- An order is accepted exactly if the kitchen is open and everything that it names is on the menu.
theorem placed_iff : (∃ woken t more, s.step (.order products woken) =
      some (t, .placed products s.board.nextOrder :: more)) ↔
    s.board.closed = false ∧ ∀ product ∈ products, product ∈ s.board.menu := by
  constructor
  · rintro ⟨woken, t, more, ran⟩
    cases State.order_sound ran with
    | place unclosed onMenu => exact ⟨unclosed, firstMissing_none.mp onMenu⟩
    | placeWaking unclosed onMenu => exact ⟨unclosed, firstMissing_none.mp onMenu⟩
  · rintro ⟨unclosed, listed⟩
    obtain ⟨woken, t, told⟩ := notifyOne_possible (s.accept products)
    refine ⟨woken, t, [.noticed (.orderAccepted s.board.nextOrder)], ?_⟩
    simp [State.step, State.order, unclosed, firstMissing_none.mpr listed, told]

def Event.error? : Event → Option OrderError
  | .refused _ error | .replied _ (.collected (.spoiled error)) => some error
  | _ => none

theorem error_toClient (tells : event.error? = some error) : event.toClient = true := by
  cases event with
  | refused | replied => rfl
  | _ => cases tells

theorem pager_errorless {use : PagerUse} {phase : PagerPhase}
    (move : PagerMove s call id use phase t more) : ∀ event ∈ more, event.error? = none := by
  rcases move.answers with rfl | ⟨_, rfl⟩ | ⟨_, rfl⟩ | rfl <;> simp [Event.error?]

theorem shutdown_errorless {stage : ShutdownPhase} (move : ShutdownMove s call stage t more) :
    ∀ event ∈ more, event.error? = none := by
  cases move with
  | joinRunner _ ended => rcases ended with ⟨_, rfl⟩ | ⟨_, rfl⟩ <;> simp [Event.error?]
  | _ => simp [Event.error?]

theorem Ledger.isFulfillment {heard : Bool} (ledger : Ledger events s)
    (filled : s.results.get? id = some ⟨.holding (.spoiled error), heard⟩) :
    error.isFulfillment = true := by
  obtain ⟨entry, _, _, fits⟩ := ledger.told id _ heard filled
  rcases fits.tells.1 with ⟨_, meal⟩ | late | failed
  · cases meal
  · cases late
    rfl
  · cases failed
    rfl

-- An error that is not an order's outcome is told by a step that changes nothing.
theorem unchanged_of_misuse (ledger : Ledger events s) (step : Transition s action t more)
    (shown : event ∈ more) (tells : event.error? = some error)
    (usage : error.isFulfillment = false) : t = s := by
  have outside := error_toClient tells
  cases step with
  | worker _ move =>
    rw [move.inside event shown] at outside
    cases outside
  | runner _ move =>
    rw [move.inside event shown] at outside
    cases outside
  | client move =>
    cases move with
    | orderClosed | orderMissing => rfl
    | collectUnknown unused | collectEarly unused => exact State.endCall_of_unused unused
    | @getResult call outcome _ _ _ filled =>
      cases List.mem_singleton.mp shown
      cases outcome with
      | meal => cases tells
      | spoiled =>
        cases tells
        rw [ledger.isFulfillment filled] at usage
        cases usage
    | getNothing =>
      cases List.mem_singleton.mp shown
      cases tells
      cases usage
    | usePager _ move =>
      rw [pager_errorless move event shown] at tells
      cases tells
    | place | placeWaking =>
      rcases List.mem_cons.mp shown with rfl | noted
      · cases tells
      · cases List.mem_singleton.mp noted
        cases tells
    | shutdownAgain =>
      rcases List.mem_cons.mp shown with rfl | noted
      · cases tells
      · cases List.mem_singleton.mp noted
        cases tells
    | waitOver =>
      cases List.mem_singleton.mp shown
      cases tells
    | _ => cases shown
  | shutdown _ move =>
    rw [shutdown_errorless move event shown] at tells
    cases tells

theorem play_unchanged (ran : s.step action = some (s, more)) (later : List Action) :
    s.play (action :: later) = (s.play later).map fun (t, events) => (t, more ++ events) := by
  simp only [State.play, ran]

theorem taken_run_iff (orders : Orders s) (run : Run s actions events t) :
    Taken t id ↔ Taken s id ∨ ∃ call, (call, id) ∈ s.takings actions := by
  induction run with
  | start => simp [State.takings, along]
  | next before ran ih =>
    rw [taken_step_iff (orders.run before) (transition_of_step ran), ih, takings_next before, or_assoc,
      ← exists_or]
    simp only [List.mem_append]

-- Who is told that it is too early finds the order queued or dispatched, and its result untaken.
theorem early_of_notReady (orders : Orders s) (step : Transition s (.collect call id) t more)
    (told : .replied call (.collected (.spoiled (.notReady id))) ∈ more) :
    (s.board.orderState id = some .queued ∨ s.board.orderState id = some .dispatched) ∧
      ∃ slot, s.board.slots.get? id = some slot ∧ slot.uncollected = true := by
  cases begins_client rfl step with
  | collectUnknown => simp at told
  | @collectEarly _ state _ _ present early =>
    refine ⟨?_, _, present, rfl⟩
    have untaken := orders.uncollected_iff present
    cases state with
    | queued => exact .inl (by rw [Board.orderState, present]; rfl)
    | dispatched => exact .inr (by rw [Board.orderState, present]; rfl)
    | pickedUp => cases untaken.mpr rfl
    | _ => cases early
  | collectReady | collectEnded => cases told

-- As long as no call takes the result, a call finds the order early, or takes the result.
theorem early_or_takes (orders : Orders s) (known : id < s.board.nextOrder) (free : ¬ Taken s id)
    (unused : s.calls.get? call = none) :
    (s.board.orderState id = some .queued ∨ s.board.orderState id = some .dispatched) ∧
        s.step (.collect call id) =
          some (s, [.replied call (.collected (.spoiled (.notReady id)))]) ∨
      (call, id) ∈ s.takes (.collect call id) ∧
        ∃ t, s.step (.collect call id) = some (t, []) ∧
          t.calls.get? call = some (.collecting id) := by
  by_cases early : s.board.orderState id = some .queued ∨ s.board.orderState id = some .dispatched
  · have ran := collect_early orders unused early
    rw [State.endCall_of_unused unused] at ran
    exact .inl ⟨early, ran⟩
  · obtain ⟨unqueued, undispatched⟩ := not_or.mp early
    have took := takes_first orders known unqueued undispatched free call
    exact .inr ⟨took, collect_taking unused took⟩

-- A client whose call is not possible is told so and changes nothing. An order is accepted exactly if
-- the kitchen is open and has everything that it names; a closed kitchen says that it is closed, and
-- an open one names the first product that is not on the menu. Whoever is told such an error leaves
-- every thread, signal and book as it was, and all goes on as if the call had not been made; who
-- came too early for an order can come again until somebody has its result.
theorem misuse_changes_nothing (run : Run (.opened stations workers) actions events s) :
    (∀ products, (∃ woken t more, s.step (.order products woken) =
        some (t, .placed products s.board.nextOrder :: more)) ↔
      s.board.closed = false ∧ ∀ product ∈ products, product ∈ s.board.menu) ∧
    (s.board.closed = true → ∀ products woken,
      s.step (.order products woken) = some (s, [.refused products .closed])) ∧
    (s.board.closed = false → ∀ products woken, (∃ product ∈ products, product ∉ s.board.menu) →
      ∃ product before after, products = before ++ product :: after ∧
        (∀ other ∈ before, other ∈ s.board.menu) ∧ product ∉ s.board.menu ∧
        s.step (.order products woken) = some (s,
          [.refused products (.invalidProduct product), .noticed (.orderRejected product)])) ∧
    (∀ action t more, s.step action = some (t, more) →
      (∃ event ∈ more, ∃ error, event.error? = some error ∧ error.isFulfillment = false) →
      t = s ∧ ∀ later,
        s.play (action :: later) = (s.play later).map fun (u, events) => (u, more ++ events)) ∧
    (∀ call id t more, s.step (.collect call id) = some (t, more) →
      .replied call (.collected (.spoiled (.notReady id))) ∈ more →
      (∃ slot, t.board.slots.get? id = some slot ∧ slot.uncollected = true) ∧
      ∀ later shown u, Run t later shown u → (∀ other, (other, id) ∉ t.takings later) →
        ∀ other, u.calls.get? other = none →
          (u.board.orderState id = some .queued ∨ u.board.orderState id = some .dispatched) ∧
              u.step (.collect other id) =
                some (u, [.replied other (.collected (.spoiled (.notReady id)))]) ∨
            (other, id) ∈ u.takes (.collect other id) ∧
              ∃ v, u.step (.collect other id) = some (v, []) ∧
                v.calls.get? other = some (.collecting id)) := by
  have orders := (Orders.opened stations workers).run run
  have ledger := Ledger.run run
  refine ⟨fun _ => placed_iff, fun closed => order_closed closed, ?_, ?_, ?_⟩
  · intro unclosed products woken missing
    exact order_missing unclosed missing woken
  · rintro action t more ran ⟨event, shown, error, tells, usage⟩
    have same : t = s := unchanged_of_misuse ledger (transition_of_step ran) shown tells usage
    subst same
    exact ⟨rfl, play_unchanged ran⟩
  · intro call id t more ran told
    have step := transition_of_step ran
    have same : t = s := unchanged_of_misuse ledger step told rfl rfl
    subst same
    obtain ⟨_, slot, found, untaken⟩ := early_of_notReady orders step told
    refine ⟨⟨slot, found, untaken⟩, ?_⟩
    intro later shown u after nobody other unused
    have free : ¬ Taken u id := by
      rw [taken_run_iff orders after]
      rintro (taken | ⟨winner, took⟩)
      · cases untaken.symm.trans (taken.2 slot found)
      · exact nobody winner took
    exact early_or_takes (orders.run after) (gone_run orders after (orders.known found)).1 free unused

-- One burger is ordered and nobody has looked for it yet.
def earlyClient : List Action := [.worker 0, .runner 0, .order ["burger"] none]

theorem earlyClient_changes_nothing :
    let s := ((State.opened ["burger"] 1).after earlyClient).1
    s.step (.collect 1 0) = some (s, [.replied 1 (.collected (.spoiled (.notReady 0)))]) ∧
      (∃ woken t more, s.step (.order ["burger"] woken) = some (t, .placed ["burger"] 1 :: more)) ∧
      s.play [.collect 1 0, .worker 0] = (s.play [.worker 0]).map fun (u, events) =>
        (u, .replied 1 (.collected (.spoiled (.notReady 0))) :: events) := by
  intro s
  have possible : ((State.opened ["burger"] 1).play earlyClient).isSome = true := by decide +kernel
  have refused : s.step (.collect 1 0) =
      some (s, [.replied 1 (.collected (.spoiled (.notReady 0)))]) := by
    decide +kernel
  obtain ⟨placed, _, _, unchanged, _⟩ := misuse_changes_nothing (run_after possible)
  refine ⟨refused, (placed ["burger"]).mpr (by decide +kernel), ?_⟩
  exact (unchanged _ _ _ refused ⟨_, .head _, _, rfl, rfl⟩).2 [.worker 0]

end Kitchen.Engine
