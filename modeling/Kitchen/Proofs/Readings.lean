import Kitchen.Proofs.Buzzing

namespace Kitchen.Engine

variable {s t : State} {action : Action} {actions : List Action} {events : List Event}
  {call c : CallId} {id other : OrderId} {answer : Readiness} {stations : List String}
  {workers : Nat} {use : PagerUse} {stage : PagerPhase} {reply : Reply}

def Event.reply? : Event → Option (CallId × Reply)
  | .replied call reply => some (call, reply)
  | _ => none

namespace State

def inUse (s : State) (id : OrderId) : Bool :=
  s.calls.keys.any fun call =>
    match s.calls.get? call with
    | some (.pager other _ _) => other = id
    | _ => false

-- The pager that a call begins to use in this step while another call is on it.
def crowds (s : State) : Action → List OrderId
  | .pager _ id _ => if s.inUse id then [id] else []
  | _ => []

-- What a step of a call on a pager answers, with the pager's order.
def readsOf (s : State) (call : CallId) (action : Action) : List (CallId × OrderId × Reply) :=
  match s.calls.get? call, s.step action with
  | some (.pager id _ _), some (_, events) =>
    (events.filterMap Event.reply?).map fun (caller, reply) => (caller, id, reply)
  | _, _ => []

def reads (s : State) (action : Action) : List (CallId × OrderId × Reply) :=
  match action with
  | .client call | .waitTimeout call => s.readsOf call action
  | _ => []

def readings (s : State) (actions : List Action) : List (CallId × OrderId × Reply) :=
  along State.reads s actions

end State

theorem inUse_iff : s.inUse id = true ↔
    ∃ call use stage, s.calls.get? call = some (.pager id use stage) := by
  rw [State.inUse, List.any_eq_true]
  constructor
  · rintro ⟨call, _, holds⟩
    split at holds
    next found =>
      cases of_decide_eq_true holds
      exact ⟨call, _, _, found⟩
    next => cases holds
  · rintro ⟨call, use, stage, found⟩
    refine ⟨call, Table.mem_keys_iff.mpr ⟨_, found⟩, ?_⟩
    simp [found]

-- At most one call is on the pager, and it has not heard the buzzer of a pager that knows its answer.
structure Alone (s : State) (id : OrderId) : Prop where
  one : ∀ c d use how stage later, s.calls.get? c = some (.pager id use stage) →
    s.calls.get? d = some (.pager id how later) → c = d
  unread : ∀ c use stage, s.calls.get? c = some (.pager id use stage) →
    stage = .checking ∨ stage = .reading ∨ s.notes.get? id = none

namespace Alone

theorem opened (stations : List String) (workers : Nat) (id : OrderId) :
    Alone (.opened stations workers) id :=
  ⟨by simp [State.opened], by simp [State.opened]⟩

theorem same (alone : Alone s id) (calls : t.calls = s.calls) (notes : t.notes = s.notes) :
    Alone t id :=
  ⟨by rw [calls]; exact alone.one, by rw [calls, notes]; exact alone.unread⟩

theorem turn (alone : Alone s id) (others : ∀ d, d ≠ call → t.calls.get? d = s.calls.get? d)
    (mine : ∀ use stage, t.calls.get? call = some (.pager id use stage) →
      (∀ d how later, s.calls.get? d = some (.pager id how later) → d = call) ∧
        (stage = .checking ∨ stage = .reading ∨ t.notes.get? id = none))
    (notes : t.notes.get? id = s.notes.get? id ∨
      ∀ d how later, s.calls.get? d = some (.pager id how later) → d = call) : Alone t id := by
  refine ⟨?_, ?_⟩
  · intro c d use how stage later here there
    by_cases first : c = call
    · subst first
      by_cases second : d = c
      · exact second.symm
      · exact ((mine use stage here).1 d how later (others d second ▸ there)).symm
    · by_cases second : d = call
      · subst second
        exact (mine how later there).1 c use stage (others c first ▸ here)
      · exact alone.one c d use how stage later (others c first ▸ here) (others d second ▸ there)
  · intro c use stage here
    by_cases first : c = call
    · subst first
      exact (mine use stage here).2
    · have before := others c first ▸ here
      rcases notes with same | only
      · rw [same]
        exact alone.unread c use stage before
      · exact absurd (only c use stage before) first

theorem leave (alone : Alone s id)
    (calls : (∃ now, t.calls = s.calls.insert call now ∧ ∀ use stage, now ≠ .pager id use stage) ∨
      t.calls = s.calls.erase call)
    (notes : t.notes.get? id = s.notes.get? id ∨
      ∀ d how later, s.calls.get? d = some (.pager id how later) → d = call) : Alone t id := by
  rcases calls with ⟨now, calls, apart⟩ | calls
  · refine alone.turn (fun d differ => ?_) (fun use stage found => ?_) notes
    · rw [calls, Table.get?_insert_of_ne _ _ (Ne.symm differ)]
    · rw [calls, Table.get?_insert_self] at found
      exact absurd (Option.some.inj found) (apart use stage)
  · refine alone.turn (fun d differ => ?_) (fun use stage found => ?_) notes
    · rw [calls, Table.get?_erase_of_ne _ (Ne.symm differ)]
    · rw [calls, Table.get?_erase_self] at found
      cases found

theorem goOn {later : PagerPhase} (alone : Alone s id)
    (only : ∀ d how later, s.calls.get? d = some (.pager id how later) → d = call)
    (calls : t.calls = s.calls.insert call (.pager id use later))
    (fits : later = .checking ∨ later = .reading ∨ t.notes.get? id = none) : Alone t id := by
  refine alone.turn (fun d differ => ?_) (fun how stage found => ?_) (.inr only)
  · rw [calls, Table.get?_insert_of_ne _ _ (Ne.symm differ)]
  · rw [calls, Table.get?_insert_self] at found
    cases found
    exact ⟨only, fits⟩

theorem pager (alone : Alone s id) (here : s.calls.get? call = some (.pager id use stage))
    (move : PagerMove s call id use stage t events) : Alone t id := by
  have only : ∀ d how later, s.calls.get? d = some (.pager id how later) → d = call :=
    fun d how later there => alone.one d call how use later stage there here
  have unread := alone.unread call use stage here
  have done : ∀ m : State, m.calls = s.calls → Alone (m.pagerDone call id use).1 id := by
    intro m calls
    cases use with
    | readiness =>
      have goes : (m.pagerDone call id .readiness).1.calls =
          s.calls.insert call (.pager id .readiness .reading) := by
        rw [← calls]
        rfl
      exact alone.goOn only goes (.inr (.inl rfl))
    | _ =>
      refine alone.leave (.inr ?_) (.inr only)
      rw [← calls]
      rfl
  cases move with
  | known => exact done s rfl
  | @note readiness =>
    refine done _ ?_
    unfold State.note
    split <;> rfl
  | look unnoted => exact alone.goOn only rfl (.inr (.inr unnoted))
  | hear polls | hearNothing polls =>
    have unnoted : s.notes.get? id = none := by rcases polls with rfl | rfl <;> simpa using unread
    exact alone.goOn only rfl (.inr (.inr unnoted))
  | silent =>
    have unnoted : s.notes.get? id = none := by simpa using unread
    cases use with
    | isReady => exact alone.leave (.inr rfl) (.inr only)
    | readiness => exact alone.goOn only rfl (.inr (.inl rfl))
    | _ => exact alone.goOn only rfl (.inr (.inr unnoted))
  | read => exact alone.leave (.inr rfl) (.inr only)

theorem elsewhere (alone : Alone s id) (differ : other ≠ id)
    (move : PagerMove s call other use stage t events) : Alone t id := by
  have notes : t.notes.get? id = s.notes.get? id := by
    cases move with
    | known => rw [(pagerDone_frame s call other use).2]
    | silent => cases use <;> rfl
    | @note readiness =>
      rw [(pagerDone_frame _ call other use).2, State.note]
      split
      · rfl
      · exact Table.get?_insert_of_ne _ _ differ
    | _ => rfl
  rcases move.calls with ⟨later, calls⟩ | calls
  · exact alone.leave (.inl ⟨_, calls, by simp [differ]⟩) (.inl notes)
  · exact alone.leave (.inr calls) (.inl notes)

theorem client (alone : Alone s id) (single : id ∉ s.crowds action)
    (move : ClientMove s action t events) : Alone t id := by
  cases move with
  | orderClosed | orderMissing | place | placeWaking => exact alone.same rfl rfl
  | collectUnknown | collectEarly | shutdownAgain | getResult | getNothing | waitOver =>
    exact alone.leave (.inr rfl) (.inl rfl)
  | collectReady | collectEnded | shutdown => exact alone.leave (.inl ⟨_, rfl, by simp⟩) (.inl rfl)
  | @takePager _ _ use other =>
    by_cases mine : other = id
    · subst mine
      refine alone.goOn ?_ rfl (.inl rfl)
      intro d how later there
      refine absurd ?_ single
      rw [State.crowds, if_pos (inUse_iff.mpr ⟨d, how, later, there⟩)]
      exact .head _
    · exact alone.leave (.inl ⟨_, rfl, by simp [mine]⟩) (.inl rfl)
  | @usePager call _ _ _ _ other here move =>
    by_cases mine : other = id
    · subst mine
      exact alone.pager here move
    · exact alone.elsewhere mine move

theorem step (alone : Alone s id) (single : id ∉ s.crowds action)
    (step : Transition s action t events) : Alone t id := by
  cases step with
  | worker _ move | runner _ move => exact alone.same move.unmanned.calls move.unmanned.notes
  | client move => exact alone.client single move
  | shutdown _ move =>
    have notes : t.notes.get? id = s.notes.get? id := by rw [move.frame.2.2.2.2.2.2.2.2.1]
    rcases move.calls with ⟨later, calls⟩ | calls
    · exact alone.leave (.inl ⟨_, calls, by simp⟩) (.inl notes)
    · exact alone.leave (.inr calls) (.inl notes)

theorem punctual (alone : Alone s id) : id ∉ s.overtakes action := by
  intro overtaken
  cases action with
  | client call =>
    obtain ⟨⟨use, here⟩, other, differ, how, there⟩ := overlap_of_overtakes overtaken
    exact differ (alone.one _ _ _ _ _ _ there here)
  | _ => cases overtaken

theorem run (run : Run (.opened stations workers) actions events t)
    (single : id ∉ along State.crowds (.opened stations workers) actions) :
    Alone t id ∧ id ∉ along State.overtakes (.opened stations workers) actions := by
  induction run with
  | start => exact ⟨opened stations workers id, by simp [along]⟩
  | next before ran ih =>
    rw [along_next _ before, List.mem_append, not_or] at single
    obtain ⟨alone, never⟩ := ih single.1
    rw [along_next _ before, List.mem_append, not_or]
    exact ⟨alone.step single.2 (transition_of_step ran), never, alone.punctual⟩

end Alone

-- What a pager answers that knows so much.
def Reply.fits (note : Option Readiness) : Reply → Prop
  | .flag value => value = note.isSome
  | .done => note.isSome = true
  | .readiness value => value = note
  | _ => False

theorem Reply.silent_fits {note : Option Readiness} (unnoted : note = none) :
    (Reply.flag false).fits note := by
  rw [unnoted]
  rfl

theorem pagerDone_fits (told : (call, reply) ∈ (s.pagerDone c id use).2.filterMap Event.reply?)
    (answer : Readiness) : reply.fits (some answer) := by
  cases use with
  | readiness => cases told
  | _ =>
    cases List.mem_singleton.mp told
    rfl

-- A pager answers what it knows after the answer.
theorem PagerMove.fits (alone : Alone s id) (here : s.calls.get? call = some (.pager id use stage))
    (move : PagerMove s call id use stage t events)
    (told : (c, reply) ∈ events.filterMap Event.reply?) : reply.fits (t.notes.get? id) := by
  have unread := alone.unread call use stage here
  cases move with
  | @known answer noted =>
    rw [(pagerDone_frame s call id use).2, noted]
    exact pagerDone_fits told answer
  | @silent heard =>
    cases use with
    | isReady =>
      have unnoted : s.notes.get? id = none := by simpa using unread
      cases List.mem_singleton.mp told
      exact Reply.silent_fits unnoted
    | _ => cases told
  | @note answer =>
    have noted : ∃ first, (s.note id answer).notes.get? id = some first := by
      unfold State.note
      split
      next first found => exact ⟨first, found⟩
      next => exact ⟨answer, Table.get?_insert_self ..⟩
    obtain ⟨first, found⟩ := noted
    rw [(pagerDone_frame (s.note id answer) call id use).2, found]
    exact pagerDone_fits told first
  | read =>
    cases List.mem_singleton.mp told
    rfl
  | _ => cases told

theorem readsOf_of (ran : s.step action = some (t, events))
    (read : (c, id, reply) ∈ s.readsOf call action) : ∃ use stage,
      s.calls.get? call = some (.pager id use stage) ∧ (c, reply) ∈ events.filterMap Event.reply? := by
  unfold State.readsOf at read
  rw [ran] at read
  split at read
  next found same =>
    cases same
    obtain ⟨⟨caller, said⟩, told, same⟩ := List.mem_map.mp read
    cases same
    exact ⟨_, _, found, told⟩
  next => cases read

-- A call on a pager goes on by moves of the client only.
theorem client_of_step (here : s.calls.get? call = some (.pager id use stage))
    (step : Transition s action t events) (own : action = .client call ∨ action = .waitTimeout call) :
    ClientMove s action t events := by
  have mine : action.ofClient = true := by rcases own with rfl | rfl <;> rfl
  refine (step.ofClient mine).resolve_right ?_
  rintro ⟨_, _, rfl, there, _⟩
  rcases own with own | own <;> cases own
  cases here.symm.trans there

theorem read_fits (alone : Alone s id) (ran : s.step action = some (t, events))
    (read : (c, id, reply) ∈ s.reads action) : reply.fits (t.notes.get? id) := by
  cases action with
  | client call =>
    obtain ⟨use, stage, here, told⟩ := readsOf_of ran read
    cases client_of_step here (transition_of_step ran) (.inl rfl) with
    | usePager there move =>
      cases here.symm.trans there
      exact move.fits alone here told
    | getResult waits | getNothing waits => cases here.symm.trans waits
  | waitTimeout call =>
    obtain ⟨use, stage, here, told⟩ := readsOf_of ran read
    cases client_of_step here (transition_of_step ran) (.inr rfl) with
    | waitOver there =>
      cases here.symm.trans there
      have unread := alone.unread call _ _ here
      have unnoted : s.notes.get? id = none := by simpa using unread
      cases List.mem_singleton.mp told
      exact Reply.silent_fits unnoted
  | _ => cases read

-- Up to some answer a pager says nothing of its order, and from then on it always says what it knows.
def Constant (note : Option Readiness) (replies : List Reply) : Prop :=
  ∃ silent loud, replies = silent ++ loud ∧ (∀ reply ∈ silent, reply.fits none) ∧
    (loud = [] ∨ ∃ answer, note = some answer ∧ ∀ reply ∈ loud, reply.fits (some answer))

theorem Constant.next {note later : Option Readiness} {replies new : List Reply}
    (constant : Constant note replies) (stays : ∀ answer, note = some answer → later = some answer)
    (fits : ∀ reply ∈ new, reply.fits later) : Constant later (replies ++ new) := by
  obtain ⟨silent, loud, rfl, before, after⟩ := constant
  rcases after with rfl | ⟨answer, known, after⟩
  · rw [List.append_nil]
    cases later with
    | none =>
      refine ⟨silent ++ new, [], by simp, ?_, .inl rfl⟩
      intro reply member
      rcases List.mem_append.mp member with earlier | last
      · exact before reply earlier
      · exact fits reply last
    | some answer => exact ⟨silent, new, rfl, before, .inr ⟨answer, rfl, fits⟩⟩
  · cases stays answer known
    refine ⟨silent, loud ++ new, List.append_assoc .., before, .inr ⟨answer, rfl, ?_⟩⟩
    intro reply member
    rcases List.mem_append.mp member with earlier | last
    · exact after reply earlier
    · exact fits reply last

def repliesOf (id : OrderId) (readings : List (CallId × OrderId × Reply)) : List Reply :=
  (readings.filter (·.2.1 = id)).map (·.2.2)

theorem constant_run (run : Run (.opened stations workers) actions events t)
    (single : id ∉ along State.crowds (.opened stations workers) actions) :
    Constant (t.notes.get? id) (repliesOf id ((State.opened stations workers).readings actions)) := by
  induction run with
  | start => exact ⟨[], [], rfl, by simp, .inl rfl⟩
  | next before ran ih =>
    rw [along_next _ before, List.mem_append, not_or] at single
    rw [State.readings, along_next _ before, repliesOf, List.filter_append, List.map_append]
    refine (ih single.1).next (fun answer known => noted_step (transition_of_step ran) known) ?_
    intro reply member
    obtain ⟨⟨caller, other, _⟩, among, rfl⟩ := List.mem_map.mp member
    obtain ⟨read, mine⟩ := List.mem_filter.mp among
    cases of_decide_eq_true mine
    exact read_fits (Alone.run before single.1).1 ran read

-- Collecting an order whose buzzer was told.

-- While the order waits or its jobs are under way nobody tells its buzzer anything.
theorem Orders.untold (orders : Orders s) (known : id < s.board.nextOrder)
    (early : s.board.orderState id = some .queued ∨ s.board.orderState id = some .dispatched) :
    s.buzzers.get? id = some .fresh := by
  have ripe : ∀ {slot : Option Slot}, (s.view id).slot = slot → slot.map (·.state) ≠ some .queued →
      slot.map (·.state) ≠ some .dispatched → s.buzzers.get? id = some .fresh := by
    rintro _ rfl unqueued undispatched
    rcases early with queued | dispatched
    · exact absurd queued unqueued
    · exact absurd dispatched undispatched
  have past : ∀ {ending : Ending}, (s.view id).Ended ending → s.buzzers.get? id = some .fresh := by
    rintro ending ⟨there | away, _⟩
    · refine ripe there ?_ ?_ <;> cases ending <;> simp [Ending.state]
    · exact ripe away (by simp) (by simp)
  rcases orders.place known with ⟨order, waits, rfl⟩ | ⟨i, phase, order, here, has, rfl⟩ | ⟨⟨_, ended⟩, _⟩
  · exact (orders.queued order waits).2.1
  · have fits := orders.had i phase order here has
    cases phase with
    | claimed | awaiting => exact fits.2.1
    | holding _ _ told => cases told <;> exact ripe fits.1 (by simp) (by simp)
    | returning | handingBack => exact past fits.1
    | delivering => exact ripe fits.1 (by simp) (by simp)
    | _ => cases has
  · exact past ended

theorem ripe_of_told {late : List OrderId} {told : List (OrderId × Readiness)} (orders : Orders s)
    (heeded : Heeded told late s) (resolved : (id, answer) ∈ told) : id < s.board.nextOrder ∧
      s.board.orderState id ≠ some .queued ∧ s.board.orderState id ≠ some .dispatched := by
  have listed : id ∈ told.map (·.1) := List.mem_map_of_mem resolved
  have known : id < s.board.nextOrder := by
    refine Nat.lt_of_not_le fun beyond => (heeded.silent id fun signal found => ?_).1 listed
    have missing : s.buzzers.get? id = none := congrArg View.buzzer (orders.unknown id beyond)
    rw [missing] at found
    cases found
  have told : ¬ s.buzzers.get? id = some .fresh := fun fresh => (heeded.of_fresh fresh).1 listed
  exact ⟨known, fun early => told (orders.untold known (.inl early)),
    fun early => told (orders.untold known (.inr early))⟩

-- Who collects then takes the result, if no other call has.
theorem collect_of_told (run : Run (.opened stations workers) actions events s)
    (returns : ∀ i, .returned i .crashed ∉ actions)
    (resolved : (id, answer) ∈ along State.resolves (.opened stations workers) actions)
    (unused : s.calls.get? call = none) :
    let first := State.opened stations workers
    (∃ winner, (winner, id) ∈ first.takings actions) ∧ s.step (.collect call id) =
        some (s.endCall call, [.replied call (.collected (.spoiled (.unknownPager id)))]) ∨
    (call, id) ∈ first.takings (actions ++ [.collect call id]) ∧
      ∃ t, s.step (.collect call id) = some (t, []) ∧ t.calls.get? call = some (.collecting id) := by
  intro first
  have orders := (Orders.opened stations workers).run run
  have heeded := (Heeded.opened stations workers).run (Orders.opened stations workers) run
  have handled := Handled.run run returns
  obtain ⟨known, unqueued, undispatched⟩ := ripe_of_told orders heeded resolved
  by_cases taken : Taken s id
  · exact .inl ⟨(handled.taken id).mp taken, collect_late unused taken⟩
  · have took := takes_first orders known unqueued undispatched taken call
    rw [takings_next run]
    exact .inr ⟨List.mem_append_right _ took, collect_taking unused took⟩

-- Who took the result is told what the buzzer said.
theorem granted_of_told (run : Run (.opened stations workers) actions events s)
    (returns : ∀ i, .returned i .crashed ∉ actions)
    (resolved : (id, answer) ∈ along State.resolves (.opened stations workers) actions)
    (took : (call, id) ∈ (State.opened stations workers).takings actions) :
    (∃ outcome, (call, id, outcome) ∈ (State.opened stations workers).verdicts actions ∧
      Granted id answer outcome) ∨
    s.calls.get? call = some (.collecting id) ∧ ∃ i, Soon s i call := by
  have orders := (Orders.opened stations workers).run run
  have heeded := (Heeded.opened stations workers).run (Orders.opened stations workers) run
  have handled := Handled.run run returns
  by_cases told : ∃ verdict ∈ (State.opened stations workers).verdicts actions, verdict.2.1 = id
  · obtain ⟨⟨caller, other, outcome⟩, member, rfl⟩ := told
    obtain ⟨also, entry, written, named, fits⟩ := handled.told caller other outcome member
    cases List.inj_on_of_nodup_map handled.once took also rfl
    have buzzed := (Buzzing.run run).booked entry written
    rw [named] at buzzed
    cases List.inj_on_of_nodup_map heeded.once resolved buzzed rfl
    exact .inl ⟨outcome, member, fits.granted⟩
  · have waits := (handled.waits call id).mpr
      ⟨took, fun verdict member same => told ⟨verdict, member, same⟩⟩
    exact .inr ⟨waits, Soon.of_waiting orders waits ((handled.taken id).mpr ⟨call, took⟩)⟩

-- What a pager says that one call uses at a time stays, and agrees with what the order's jobs gave and
-- with what the client who takes the result is told. From then on nobody is told to come again.
theorem buzz_and_result_agree (apart : stations.Nodup)
    (run : Run (.opened stations workers) actions events s)
    (returns : ∀ i, .returned i .crashed ∉ actions)
    (single : id ∉ along State.crowds (.opened stations workers) actions) :
    let first := State.opened stations workers
    ∃ silent loud, repliesOf id (first.readings actions) = silent ++ loud ∧
      (∀ reply ∈ silent, reply.fits none) ∧
      (loud = [] ∨ ∃ answer : Readiness, (∀ reply ∈ loud, reply.fits (some answer)) ∧
        (∃ order ∈ placed events, order.id = id ∧
          Borne (said events (first.abandoned actions)) order answer) ∧
        (∀ call, (call, id) ∈ first.takings actions →
          (∃ outcome, (call, id, outcome) ∈ first.verdicts actions ∧ Granted id answer outcome) ∨
            s.calls.get? call = some (.collecting id) ∧ ∃ i, Soon s i call) ∧
        ∀ call, s.calls.get? call = none →
          (∃ winner, (winner, id) ∈ first.takings actions) ∧ s.step (.collect call id) =
            some (s.endCall call, [.replied call (.collected (.spoiled (.unknownPager id)))]) ∨
          (call, id) ∈ first.takings (actions ++ [.collect call id]) ∧
            ∃ t, s.step (.collect call id) = some (t, []) ∧
              t.calls.get? call = some (.collecting id)) := by
  intro first
  have heeded := (Heeded.opened stations workers).run (Orders.opened stations workers) run
  obtain ⟨silent, loud, replies, before, after⟩ := constant_run run single
  refine ⟨silent, loud, replies, before, ?_⟩
  rcases after with nothing | ⟨answer, noted, after⟩
  · exact .inl nothing
  · have truthful := heeded.truthful fun _ _ _ => noted_of_told run
    obtain ⟨told, resolved, _, exactly⟩ := truthful.noted id answer noted
    cases exactly.mpr (Alone.run run single).2
    refine .inr ⟨answer, after, borne_run apart run resolved, ?_, ?_⟩
    · exact fun call took => granted_of_told run returns resolved took
    · exact fun call unused => collect_of_told run returns resolved unused

-- A client looks at its pager before the burger is made, waits for it, asks what became of the order and
-- collects it.
def pagerDay : List Action :=
  [.worker 0, .runner 0, .order ["burger"] none, .pager 1 0 .isReady, .client 1, .client 1] ++
    [.worker 0, .worker 0, .runner 0, .runner 0, .produced 0 (.made .burger), .runner 0, .worker 0,
      .worker 0] ++
    [.pager 1 0 .wait, .client 1, .client 1, .client 1, .pager 1 0 .readiness, .client 1, .client 1] ++
    [.collect 2 0, .worker 0, .worker 0, .client 2]

theorem pagerDay_agrees :
    let first := State.opened ["burger"] 1
    let (_, events) := first.after pagerDay
    repliesOf 0 (first.readings pagerDay) = [.flag false, .done, .readiness (some .ready)] ∧
    (∃ order ∈ placed events, order.id = 0 ∧
      Borne (said events (first.abandoned pagerDay)) order .ready) ∧
    ∃ outcome, (2, 0, outcome) ∈ first.verdicts pagerDay ∧ Granted 0 .ready outcome := by
  have possible : ((State.opened ["burger"] 1).play pagerDay).isSome = true := by decide +kernel
  have told : repliesOf 0 ((State.opened ["burger"] 1).readings pagerDay) =
      [.flag false, .done, .readiness (some .ready)] := by
    decide +kernel
  obtain ⟨silent, loud, replies, before, after⟩ :=
    buzz_and_result_agree (by decide) (run_after possible) (by simp [pagerDay])
      (by decide +kernel : 0 ∉ along State.crowds (State.opened ["burger"] 1) pagerDay)
  have among : .readiness (some .ready) ∈ silent ++ loud := by
    rw [← replies, told]
    simp
  have heard : .readiness (some .ready) ∈ loud := by
    rcases List.mem_append.mp among with early | late
    · cases before _ early
    · exact late
  rcases after with nothing | ⟨answer, fits, borne, granted, _⟩
  · rw [nothing] at heard
    cases heard
  · cases fits _ heard
    have took : (2, 0) ∈ (State.opened ["burger"] 1).takings pagerDay := by decide +kernel
    refine ⟨told, borne, ?_⟩
    rcases granted 2 took with collected | ⟨waits, _⟩
    · exact collected
    · exact absurd waits (by decide +kernel)

end Kitchen.Engine
