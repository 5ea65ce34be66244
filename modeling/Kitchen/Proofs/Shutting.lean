import Kitchen.Proofs.Breakdowns

namespace Kitchen.Engine

variable {s t : State} {action : Action} {actions : List Action} {events more : List Event}
  {call : CallId} {id : OrderId} {use : PagerUse} {phase : PagerPhase} {stations : List String}
  {workers : Nat}

def Event.reported? : Event → Option CallId
  | .replied call (.reports _) => some call
  | _ => none

def reported (events : List Event) : List CallId := events.filterMap Event.reported?

theorem mem_reported :
    call ∈ reported events ↔ ∃ reports, .replied call (.reports reports) ∈ events := by
  rw [reported, List.mem_filterMap]
  constructor
  · rintro ⟨event, member, tells⟩
    unfold Event.reported? at tells
    split at tells
    · cases tells
      exact ⟨_, member⟩
    · cases tells
  · rintro ⟨reports, member⟩
    exact ⟨_, member, rfl⟩

theorem reported_append (events more : List Event) :
    reported (events ++ more) = reported events ++ reported more :=
  List.filterMap_append

theorem reported_inside (inside : ∀ event ∈ events, event.toClient = false) :
    reported events = [] := by
  rw [reported, List.filterMap_eq_nil_iff]
  intro event member
  have kept := inside event member
  cases event with
  | replied => cases kept
  | _ => rfl

def State.shut (s : State) : Prop :=
  s.board.closed = true ∧ s.board.menu = [] ∧ ∀ products woken,
    s.step (.order products woken) = some (s, [.refused products .closed])

theorem shut_iff (service : Service s) : s.shut ↔ s.board.closed = true := by
  constructor
  · exact fun shut => shut.1
  · intro closed
    refine ⟨closed, service.closed closed, ?_⟩
    intro products woken
    simp [State.step, State.order, closed]

theorem Transition.stays_taken (step : Transition s action t more) (taken : s.running = false) :
    t.running = false := by
  cases step with
  | worker _ move => exact move.unmanned.running.trans taken
  | runner _ move => exact move.unmanned.running.trans taken
  | client move =>
    cases move with
    | shutdown => rfl
    | usePager _ move => exact move.frame.2.2.2.2.2.trans taken
    | _ => exact taken
  | shutdown _ move => exact move.frame.2.2.2.2.2.2.2.2.2.trans taken

theorem pager_reports (move : PagerMove s call id use phase t more) : reported more = [] := by
  rcases move.answers with rfl | ⟨_, rfl⟩ | ⟨_, rfl⟩ | rfl <;> rfl

-- Only two steps let a call return: the last one of the call that took the threads, or the first one
-- of a call that finds them taken.
theorem reported_of_step (step : Transition s action t more) (answer : call ∈ reported more) :
    (∃ reports done, s.calls.get? call = some (.shutdown (.stopping reports done))) ∨
      action = .shutdown call ∧ s.calls.get? call = none ∧ s.running = false := by
  cases step with
  | worker _ move =>
    rw [reported_inside move.inside] at answer
    cases answer
  | runner _ move =>
    rw [reported_inside move.inside] at answer
    cases answer
  | client move =>
    cases move with
    | usePager _ move =>
      rw [pager_reports move] at answer
      cases answer
    | shutdownAgain unused taken =>
      cases List.mem_singleton.mp answer
      exact .inr ⟨rfl, unused, taken⟩
    | _ => cases answer
  | shutdown here move =>
    cases move with
    | finish =>
      cases List.mem_singleton.mp answer
      exact .inl ⟨_, _, here⟩
    | joinRunner _ ended => rcases ended with ⟨_, rfl⟩ | ⟨_, rfl⟩ <;> cases answer
    | _ => cases answer

theorem taken_of_reported (run : Run (.opened stations workers) actions events s)
    (answer : call ∈ reported events) : s.running = false := by
  induction run with
  | start => cases answer
  | next before ran ih =>
    have step := transition_of_step ran
    rw [reported_append] at answer
    rcases List.mem_append.mp answer with earlier | now
    · exact step.stays_taken (ih earlier)
    · refine step.stays_taken ?_
      rcases reported_of_step step now with ⟨_, _, here⟩ | ⟨_, _, taken⟩
      · exact (((Closing.opened stations workers).run before).during _ _ here).taken
      · exact taken

-- The call of `shutdown` that finds the threads taken in this step while the kitchen is open, and
-- returns.
def State.hastens (s : State) : Action → List CallId
  | .shutdown call =>
    if !s.calls.contains call && !s.running && !s.board.closed then [call] else []
  | _ => []

def State.hastened (s : State) (actions : List Action) : List CallId :=
  along State.hastens s actions

theorem hastens_iff : s.hastens (.shutdown call) = [] ↔
    (s.calls.get? call = none → s.running = false → s.board.closed = true) := by
  simp [State.hastens, Table.contains]

theorem hastens_returns (hasty : call ∈ s.hastens action) : s.board.closed = false ∧
    s.step action = some (s, [.noticed .shutdownRepeated, .replied call (.reports [])]) := by
  unfold State.hastens at hasty
  split at hasty
  · split at hasty
    next holds =>
      cases List.mem_singleton.mp hasty
      simp only [Bool.and_eq_true, Bool.not_eq_true'] at holds
      obtain ⟨⟨unused, taken⟩, unclosed⟩ := holds
      have same := State.endCall_of_unused (by simpa [Table.contains] using unused)
      refine ⟨unclosed, ?_⟩
      simp [State.step, State.beginCall, State.beginShutdown, State.reply, unused, taken, same]
    next => cases hasty
  · cases hasty

-- A step of the run at which a call returns too soon.
theorem hastened_split (run : Run s actions events t) (hasty : call ∈ s.hastened actions) :
    ∃ earlier action later shown m, actions = earlier ++ action :: later ∧
      Run s earlier shown m ∧ call ∈ m.hastens action := by
  obtain ⟨earlier, action, later, shown, _, m, _, split, first, _, there⟩ := along_split run hasty
  exact ⟨earlier, action, later, shown, m, split, first, there⟩

-- Where no call returned too soon, the kitchen is closed once one has returned.
theorem closed_of_reported (run : Run (.opened stations workers) actions events s)
    (punctual : (State.opened stations workers).hastened actions = [])
    (answer : call ∈ reported events) : s.board.closed = true := by
  induction run with
  | start => cases answer
  | @next _ _ _ middle _ action before ran ih =>
    have step := transition_of_step ran
    rw [State.hastened, along_next State.hastens before] at punctual
    obtain ⟨early, now⟩ := List.append_eq_nil_iff.mp punctual
    rw [reported_append] at answer
    rcases List.mem_append.mp answer with earlier | new
    · exact step.stays_closed (ih early earlier)
    · refine step.stays_closed ?_
      rcases reported_of_step step new with ⟨_, _, here⟩ | ⟨rfl, unused, taken⟩
      · exact (((Closing.opened stations workers).run before).during _ _ here).closed
      · exact hastens_iff.mp now unused taken

-- With the threads taken the kitchen is open only while the call that took them is about to close it.
theorem Closing.unclosed_iff (closing : Closing s) (taken : s.running = false) :
    s.board.closed = false ↔ ∃ call, s.calls.get? call = some (.shutdown .closing) := by
  constructor
  · intro unclosed
    by_cases under : ∃ call stage, s.calls.get? call = some (.shutdown stage)
    · obtain ⟨call, stage, here⟩ := under
      have fits := (closing.during call stage here).closed
      rw [unclosed] at fits
      cases stage with
      | closing => exact ⟨call, here⟩
      | _ => cases fits
    · have closed := (closing.after taken fun call stage here => under ⟨call, stage, here⟩).1
      rw [unclosed] at closed
      cases closed
  · rintro ⟨call, here⟩
    exact (closing.during call _ here).closed

-- Once a call of `shutdown` has returned nobody orders any more, exactly unless a repeated call
-- began, and returned, between the step in which the first call took the threads and the step in
-- which it closed the kitchen. What is closed stays so, the first call returns to a closed kitchen,
-- and what a repeated call may leave open is closed by the very next step of the first.
theorem shut_after_shutdown_unless_hasty (apart : stations.Nodup)
    (run : Run (.opened stations workers) actions events s) :
    ((State.opened stations workers).hastened actions = [] ↔
      ∀ earlier later shown m, actions = earlier ++ later →
        Run (.opened stations workers) earlier shown m → ∀ call ∈ reported shown, m.shut) ∧
    (s.board.closed = true → ∀ later more t, Run s later more t → t.shut) ∧
    (∀ call stage t more, s.calls.get? call = some (.shutdown stage) →
      s.step (.client call) = some (t, more) → call ∈ reported more → t.shut) ∧
    (reported events ≠ [] → s.shut ∨
      s.board.closed = false ∧ ∃ call t, s.calls.get? call = some (.shutdown .closing) ∧
        s.step (.client call) = some (t, []) ∧ t.shut) := by
  have steady := Steady.opened apart run
  have shut : ∀ {later more m}, Run s later more m → m.board.closed = true → m.shut := by
    intro later more m after closed
    exact (shut_iff (Steady.opened apart (run.append after)).service).mpr closed
  refine ⟨⟨?_, ?_⟩, ?_, ?_, ?_⟩
  · intro punctual earlier later shown m split first call answer
    subst split
    rw [State.hastened, along_append first.play] at punctual
    have closed := closed_of_reported first (List.append_eq_nil_iff.mp punctual).1 answer
    exact (shut_iff (Steady.opened apart first).service).mpr closed
  · intro always
    apply List.eq_nil_iff_forall_not_mem.mpr
    intro call hasty
    -- The call returned in a step that left the kitchen open.
    obtain ⟨earlier, action, later, shown, m, split, first, there⟩ := hastened_split run hasty
    obtain ⟨unclosed, ran⟩ := hastens_returns there
    have closed := (always (earlier ++ [action]) later _ m (by simp [split]) (.next first ran) call
      (by simp [reported, Event.reported?])).1
    rw [unclosed] at closed
    cases closed
  · intro closed later more t after
    exact shut after (closed_stays after closed)
  · intro call stage t more here ran answer
    refine shut (.next .start ran) ((transition_of_step ran).stays_closed ?_)
    rcases reported_of_step (transition_of_step ran) answer with ⟨_, _, there⟩ | ⟨own, _⟩
    · exact (steady.closing.during _ _ there).closed
    · cases own
  · intro any
    obtain ⟨call, answer⟩ := List.exists_mem_of_ne_nil _ any
    cases closed : s.board.closed with
    | true => exact .inl (shut .start closed)
    | false =>
      obtain ⟨first, here⟩ := (steady.closing.unclosed_iff (taken_of_reported run answer)).mp closed
      have ran : s.step (.client first) = some
          ((s.withBoard fun b => { b with closed := true, menu := [] }).setCall first
            (.shutdown .wakingWorkers), []) := by
        simp only [State.step, State.stepCall, here, State.stepShutdown]
      exact .inr ⟨rfl, first, _, here, ran, shut (.next .start ran) rfl⟩

-- The second call comes after the first has returned, and the kitchen is shut.
theorem closingDay_shut :
    ((State.opened ["burger"] 1).after (closingDay ++ [.client 2, .shutdown 3])).1.shut := by
  have possible :
      ((State.opened ["burger"] 1).play (closingDay ++ [.client 2, .shutdown 3])).isSome = true := by
    decide +kernel
  obtain ⟨punctual, _⟩ := shut_after_shutdown_unless_hasty (by decide) (run_after possible)
  exact punctual.mp (by decide +kernel) _ [] _ _ (List.append_nil _).symm (run_after possible) 3
    (by decide +kernel)

-- Two calls of `shutdown`: the first takes the threads, and before it closes the kitchen the second
-- finds them taken and returns.
def rivalShutdowns : List Action := [.worker 0, .runner 0, .shutdown 1, .shutdown 2]

-- A call of `shutdown` has returned, and burgers are on the menu and can be ordered.
theorem shutdown_returns_to_open_kitchen :
    ∃ events s t, Run (.opened ["burger"] 1) rivalShutdowns events s ∧ 2 ∈ reported events ∧
      s.board.closed = false ∧ s.board.menu = ["burger"] ∧
      s.step (.order ["burger"] none) =
        some (t, [.placed ["burger"] 0, .noticed (.orderAccepted 0)]) :=
  ⟨_, _, _, run_after (by decide +kernel), by decide +kernel, by decide +kernel, by decide +kernel,
    rfl⟩

end Kitchen.Engine
