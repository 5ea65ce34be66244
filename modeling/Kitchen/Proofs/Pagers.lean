import Kitchen.Engine.Launch
import Kitchen.Proofs.Collectors

-- What pagers tell. A buzzer says its order's readiness once and is silent from then on, and
-- whoever hears it writes it down in a later step; another call can get there first.

namespace Kitchen.Engine

variable {s t : State} {action : Action} {actions : List Action} {events more : List Event}
  {call c : CallId} {id : OrderId} {i : Nat} {report : Report} {order : Order}
  {phase old : WorkerPhase} {was : RunnerPhase} {said answer : Readiness} {use : PagerUse}
  {told : List (OrderId × Readiness)} {late : List OrderId}

namespace State

def resolves (s : State) : Action → List (OrderId × Readiness)
  | .worker index =>
    match s.workers[index]? with
    | some ⟨.awaiting order made failed, _⟩ =>
      match order.products[made.length + failed]? with
      | some _ => []
      | none => [(order.id, if failed = 0 then .ready else .malfunction)]
    | _ => []
  | _ => []

-- Some call has heard that the order is ready and has not written it down.
def heldBack (s : State) (id : OrderId) : Bool :=
  s.calls.keys.any fun call =>
    match s.calls.get? call with
    | some (.pager other _ (.noting .ready)) => other = id
    | _ => false

-- The pager that is written down as broken in this step while another call knows better.
def overtakes (s : State) : Action → List OrderId
  | .client call =>
    match s.calls.get? call with
    | some (.pager id _ (.noting .malfunction)) =>
      if s.notes.get? id = none ∧ s.heldBack id then [id] else []
    | _ => []
  | _ => []

def tells (s : State) : Action → List (CallId × OrderId × Readiness)
  | .client call =>
    match s.calls.get? call with
    | some (.pager id _ .reading) => (s.notes.get? id).toList.map fun said => (call, id, said)
    | _ => []
  | _ => []

end State

-- A call that has heard a buzzer and will write down what it heard.
def Noting (s : State) (call : CallId) (id : OrderId) (said : Readiness) : Prop :=
  ∃ use, s.calls.get? call = some (.pager id use (.noting said))

theorem heldBack_iff : s.heldBack id = true ↔ ∃ call, Noting s call id .ready := by
  rw [State.heldBack, List.any_eq_true]
  constructor
  · rintro ⟨call, _, holds⟩
    split at holds
    next found =>
      cases of_decide_eq_true holds
      exact ⟨call, _, found⟩
    next => cases holds
  · rintro ⟨call, use, found⟩
    refine ⟨call, Table.mem_keys_iff.mpr ⟨_, found⟩, ?_⟩
    simp [found]

-- Only calls that use one pager at the same time overtake each other.
theorem overlap_of_overtakes (overtaken : id ∈ s.overtakes (.client call)) :
    Noting s call id .malfunction ∧ ∃ other, other ≠ call ∧ Noting s other id .ready := by
  simp only [State.overtakes] at overtaken
  split at overtaken
  next use here =>
    split at overtaken
    next early =>
      cases List.mem_singleton.mp overtaken
      obtain ⟨other, how, there⟩ := heldBack_iff.mp early.2
      refine ⟨⟨use, here⟩, other, ?_, how, there⟩
      rintro rfl
      rw [here] at there
      cases there
    next => cases overtaken
  next => cases overtaken

structure Unheard (late : List OrderId) (s : State) (id : OrderId) : Prop where
  unnoted : s.notes.get? id = none
  nobody : ∀ call said, ¬ Noting s call id said
  punctual : id ∉ late

-- Somebody has heard the buzzer, or nobody ever will: what is written down is the answer, unless a
-- call that heard nothing was faster than the one that heard that the order is ready.
structure Settled (late : List OrderId) (s : State) (id : OrderId) (answer : Readiness) : Prop where
  unnoted : s.notes.get? id = none →
    id ∉ late ∧ (answer = .ready → ∃ call, Noting s call id .ready)
  heard : ∀ call said, Noting s call id said → said = answer ∨ said = .malfunction
  noted : ∀ said, s.notes.get? id = some said →
    (said = answer ∨ said = .malfunction) ∧ (said = answer ↔ id ∉ late)

-- How far each buzzer is, with what was told to buzzers and which pagers were written down too
-- early.
structure Heeded (told : List (OrderId × Readiness)) (late : List OrderId) (s : State) : Prop where
  once : (told.map (·.1)).Nodup
  silent : ∀ id, (∀ signal, s.buzzers.get? id = some signal → signal.content = .waiting) →
    id ∉ told.map (·.1) ∧ Unheard late s id
  buzzing : ∀ id answer heard, s.buzzers.get? id = some ⟨.holding answer, heard⟩ →
    (id, answer) ∈ told ∧ Unheard late s id
  settled : ∀ id heard, s.buzzers.get? id = some ⟨.closed, heard⟩ →
    ∃ answer, (id, answer) ∈ told ∧ Settled late s id answer

theorem Unheard.keep (unheard : Unheard late s id) (notes : t.notes.get? id = s.notes.get? id)
    (noting : ∀ call said, Noting t call id said ↔ Noting s call id said)
    (same : id ∈ later ↔ id ∈ late) : Unheard later t id :=
  ⟨notes ▸ unheard.unnoted, fun call said there => unheard.nobody call said ((noting call said).mp there),
    fun early => unheard.punctual (same.mp early)⟩

theorem Settled.keep (settled : Settled late s id answer)
    (notes : t.notes.get? id = s.notes.get? id)
    (noting : ∀ call said, Noting t call id said ↔ Noting s call id said)
    (same : id ∈ later ↔ id ∈ late) : Settled later t id answer := by
  refine ⟨?_, ?_, ?_⟩
  · intro none
    obtain ⟨punctual, held⟩ := settled.unnoted (notes ▸ none)
    refine ⟨fun early => punctual (same.mp early), fun ready => ?_⟩
    obtain ⟨call, there⟩ := held ready
    exact ⟨call, (noting call _).mpr there⟩
  · exact fun call said there => settled.heard call said ((noting call said).mp there)
  · intro said found
    rw [same]
    exact settled.noted said (notes ▸ found)

-- What is written down first is the answer, unless a call that knows better was overtaken: that
-- call, if there is one, has not come to this step.
theorem Settled.written (settled : Settled late s id answer) (unnoted : s.notes.get? id = none)
    (mine : said = answer ∨ said = .malfunction) :
    said = answer ↔ id ∉ late ++
      if said = .malfunction ∧ s.notes.get? id = none ∧ s.heldBack id = true then [id] else [] := by
  obtain ⟨punctual, held⟩ := settled.unnoted unnoted
  rw [List.mem_append, not_or]
  constructor
  · rintro rfl
    refine ⟨punctual, ?_⟩
    rw [if_neg]
    · simp
    · rintro ⟨rfl, _, back⟩
      obtain ⟨c, early⟩ := heldBack_iff.mp back
      rcases settled.heard c _ early with wrong | wrong <;> cases wrong
  · rintro ⟨_, outside⟩
    rcases mine with same | rfl
    · exact same
    · cases answer with
      | malfunction => rfl
      | ready =>
        refine absurd ?_ outside
        rw [if_pos ⟨rfl, unnoted, heldBack_iff.mpr (held rfl)⟩]
        exact List.mem_singleton_self id

namespace Heeded

theorem keep (heeded : Heeded told late s)
    (buzzers : ∀ id, t.buzzers.get? id = s.buzzers.get? id)
    (notes : ∀ id, t.notes.get? id = s.notes.get? id)
    (noting : ∀ call id said, Noting t call id said ↔ Noting s call id said) :
    Heeded told late t := by
  refine ⟨heeded.once, ?_, ?_, ?_⟩
  · intro id waits
    obtain ⟨new, unheard⟩ := heeded.silent id (by rw [← buzzers]; exact waits)
    exact ⟨new, unheard.keep (notes id) (fun call => noting call id) .rfl⟩
  · intro id answer heard found
    obtain ⟨there, unheard⟩ := heeded.buzzing id answer heard (by rw [← buzzers]; exact found)
    exact ⟨there, unheard.keep (notes id) (fun call => noting call id) .rfl⟩
  · intro id heard found
    obtain ⟨answer, there, settled⟩ := heeded.settled id heard (by rw [← buzzers]; exact found)
    exact ⟨answer, there, settled.keep (notes id) (fun call => noting call id) .rfl⟩

theorem of_fresh (heeded : Heeded told late s) (fresh : s.buzzers.get? id = some .fresh) :
    id ∉ told.map (·.1) ∧ Unheard late s id := by
  refine heeded.silent id ?_
  intro signal found
  rw [fresh] at found
  cases found
  rfl

theorem resolve (heeded : Heeded told late s) (fresh : s.buzzers.get? id = some .fresh)
    (answer : Readiness)
    (buzzers : t.buzzers = s.buzzers.modify id fun buzzer => (buzzer.resolve answer).2)
    (notes : t.notes = s.notes) (calls : t.calls = s.calls) :
    Heeded (told ++ [(id, answer)]) late t := by
  have noting : ∀ call id said, Noting t call id said ↔ Noting s call id said := by
    intro call id said
    rw [Noting, Noting, calls]
  have same : ∀ id, t.notes.get? id = s.notes.get? id := fun id => by rw [notes]
  obtain ⟨new, unheard⟩ := heeded.of_fresh fresh
  have now : ∀ other, t.buzzers.get? other =
      if id = other then some ⟨.holding answer, true⟩ else s.buzzers.get? other := by
    intro other
    rw [buzzers, Table.get?_modify]
    split
    next equal =>
      rw [← equal, fresh]
      rfl
    next => rfl
  refine ⟨?_, ?_, ?_, ?_⟩
  · apply nodup_map_concat heeded.once
    rintro entry earlier rfl
    exact new (List.mem_map_of_mem earlier)
  · intro other waits
    rw [now] at waits
    split at waits
    next =>
      cases waits _ rfl
    next differ =>
      obtain ⟨unknown, silent⟩ := heeded.silent other waits
      refine ⟨?_, silent.keep (same other) (fun call => noting call other) .rfl⟩
      rw [List.map_append, List.mem_append]
      rintro (earlier | last)
      · exact unknown earlier
      · exact differ (List.mem_singleton.mp last).symm
  · intro other reply heard found
    rw [now] at found
    split at found
    next equal =>
      cases found
      subst equal
      exact ⟨by simp, unheard.keep (same id) (fun call => noting call id) .rfl⟩
    next =>
      obtain ⟨there, quiet⟩ := heeded.buzzing other reply heard found
      exact ⟨List.mem_append_left _ there,
        quiet.keep (same other) (fun call => noting call other) .rfl⟩
  · intro other heard found
    rw [now] at found
    split at found
    next => cases found
    next =>
      obtain ⟨reply, there, settled⟩ := heeded.settled other heard found
      exact ⟨reply, List.mem_append_left _ there,
        settled.keep (same other) (fun call => noting call other) .rfl⟩

theorem worker (heeded : Heeded told late s) (orders : Orders s)
    (here : s.workers[i]? = some ⟨old, report⟩)
    (move : WorkerMove s i report old action t events) :
    Heeded (told ++ s.resolves action) late t := by
  have place := State.phases_of here
  have quiet : s.resolves action = [] → (∀ id, t.buzzers.get? id = s.buzzers.get? id) →
      Heeded (told ++ s.resolves action) late t := by
    intro nothing buzzers
    rw [nothing, List.append_nil]
    refine heeded.keep buzzers (fun id => by rw [move.unmanned.notes]) ?_
    intro call id said
    rw [Noting, Noting, move.unmanned.calls]
  have speaks : ∀ {order : Order} {made : Tray} {failed : Nat},
      old = .awaiting order made failed → order.products[made.length + failed]? = none →
      s.resolves (.worker i) = [(order.id, if failed = 0 then .ready else .malfunction)] := by
    rintro order made failed rfl done
    simp only [State.resolves, here, done]
  cases move with
  | hold done | holdUnslotted done =>
    rw [speaks rfl done]
    exact heeded.resolve (orders.had i _ _ place rfl).2.1 _ rfl rfl rfl
  | fail done spoiled =>
    rw [speaks rfl done, if_neg spoiled]
    exact heeded.resolve (orders.had i _ _ place rfl).2.1 _ rfl rfl rfl
  | dispatch =>
    refine quiet (by simp [State.resolves, here]) fun id => ?_
    rw [State.setWorker, spread_buzzers]
  | receive wanted | hearBreak wanted | hearNothing wanted =>
    exact quiet (by simp [State.resolves, here, wanted]) fun _ => rfl
  | collected due | expired due =>
    rcases due with ⟨rfl, _⟩ | rfl
    · exact quiet (by simp [State.resolves, here]) fun _ => rfl
    · exact quiet rfl fun _ => rfl
  | accepted | refused | crash => exact quiet rfl fun _ => rfl
  | claim seeks | leave seeks | rest seeks =>
    refine quiet ?_ fun _ => rfl
    simp only [State.resolves, here]
    cases old <;> first | rfl | cases seeks
  | _ => exact quiet (by simp [State.resolves, here]) fun _ => rfl

theorem accept (heeded : Heeded told late s) (orders : Orders s)
    (buzzers : t.buzzers = s.buzzers.insert s.board.nextOrder .fresh) (notes : t.notes = s.notes)
    (calls : t.calls = s.calls) : Heeded told late t := by
  have blank := congrArg View.buzzer (orders.unknown s.board.nextOrder (Nat.le_refl _))
  have missing : s.buzzers.get? s.board.nextOrder = none := blank
  have noting : ∀ call id said, Noting t call id said ↔ Noting s call id said := by
    intro call id said
    rw [Noting, Noting, calls]
  refine ⟨heeded.once, ?_, ?_, ?_⟩
  · intro id waits
    have before : ∀ signal, s.buzzers.get? id = some signal → signal.content = .waiting := by
      intro signal found
      refine waits signal ?_
      rw [buzzers, Table.get?_insert_of_ne]
      · exact found
      · rintro rfl
        rw [missing] at found
        cases found
    obtain ⟨new, unheard⟩ := heeded.silent id before
    exact ⟨new, unheard.keep (by rw [notes]) (fun call => noting call id) .rfl⟩
  · intro id answer heard found
    rw [buzzers, Table.get?_insert] at found
    split at found
    · cases found
    · obtain ⟨there, unheard⟩ := heeded.buzzing id answer heard found
      exact ⟨there, unheard.keep (by rw [notes]) (fun call => noting call id) .rfl⟩
  · intro id heard found
    rw [buzzers, Table.get?_insert] at found
    split at found
    · cases found
    · obtain ⟨answer, there, settled⟩ := heeded.settled id heard found
      exact ⟨answer, there, settled.keep (by rw [notes]) (fun call => noting call id) .rfl⟩

-- A buzzer was heard, or what was heard of it is written down.
theorem change {heard : Bool} (heeded : Heeded told late s) (id : OrderId)
    (buzzers : ∀ other, other ≠ id → t.buzzers.get? other = s.buzzers.get? other)
    (notes : ∀ other, other ≠ id → t.notes.get? other = s.notes.get? other)
    (noting : ∀ other, other ≠ id → ∀ call said, Noting t call other said ↔ Noting s call other said)
    (lates : ∀ other, other ≠ id → (other ∈ later ↔ other ∈ late))
    (closed : t.buzzers.get? id = some ⟨.closed, heard⟩) (there : (id, answer) ∈ told)
    (settled : Settled later t id answer) : Heeded told later t := by
  refine ⟨heeded.once, ?_, ?_, ?_⟩
  · intro other waits
    have differ : other ≠ id := by
      rintro rfl
      cases waits _ closed
    obtain ⟨new, unheard⟩ := heeded.silent other (by rw [← buzzers other differ]; exact waits)
    exact ⟨new, unheard.keep (notes other differ) (noting other differ) (lates other differ)⟩
  · intro other reply still found
    have differ : other ≠ id := by
      rintro rfl
      rw [closed] at found
      cases found
    rw [buzzers other differ] at found
    obtain ⟨member, unheard⟩ := heeded.buzzing other reply still found
    exact ⟨member, unheard.keep (notes other differ) (noting other differ) (lates other differ)⟩
  · intro other still found
    by_cases same : other = id
    · subst same
      exact ⟨answer, there, settled⟩
    · rw [buzzers other same] at found
      obtain ⟨reply, member, before⟩ := heeded.settled other still found
      exact ⟨reply, member, before.keep (notes other same) (noting other same) (lates other same)⟩

end Heeded

theorem not_noting {state : Call} (here : s.calls.get? call = some state)
    (other : ∀ id use said, state ≠ .pager id use (.noting said)) (id : OrderId) (use : PagerUse)
    (said : Readiness) : s.calls.get? call ≠ some (.pager id use (.noting said)) := by
  rw [here]
  exact fun same => other id use said (Option.some.inj same)

def Passes (s t : State) (call : CallId) : Prop :=
  t.calls = s.calls.erase call ∨ ∃ state, t.calls = s.calls.insert call state ∧
    ∀ id use said, state ≠ .pager id use (.noting said)

theorem noting_pass
    (before : ∀ id use said, s.calls.get? call ≠ some (.pager id use (.noting said)))
    (passes : Passes s t call) (c : CallId) (id : OrderId) (said : Readiness) :
    Noting t c id said ↔ Noting s c id said := by
  refine exists_congr fun use => ?_
  rcases passes with calls | ⟨state, calls, after⟩
  · exact calls_erase (before id use said) calls c
  · exact calls_insert (before id use said) calls (after id use said) c

theorem noting_begin
    (before : ∀ id use said, s.calls.get? call ≠ some (.pager id use (.noting said)))
    (calls : t.calls = s.calls.insert call (.pager id use (.noting said))) (c : CallId)
    (other : OrderId) (reply : Readiness) :
    Noting t c other reply ↔ Noting s c other reply ∨ c = call ∧ other = id ∧ reply = said := by
  rw [Noting, Noting, calls]
  constructor
  · rintro ⟨how, found⟩
    rw [Table.get?_insert] at found
    split at found
    next same =>
      cases found
      exact .inr ⟨same.symm, rfl, rfl⟩
    next => exact .inl ⟨how, found⟩
  · rintro (⟨how, found⟩ | ⟨rfl, rfl, rfl⟩)
    · refine ⟨how, ?_⟩
      rw [Table.get?_insert_of_ne]
      · exact found
      · rintro rfl
        exact before other how reply found
    · exact ⟨use, Table.get?_insert_self ..⟩

theorem noting_end (passes : Passes s t call) (c : CallId) (id : OrderId) (said : Readiness) :
    Noting t c id said ↔ Noting s c id said ∧ c ≠ call := by
  have gone : ∀ use, t.calls.get? call ≠ some (.pager id use (.noting said)) := by
    intro use
    rcases passes with calls | ⟨state, calls, after⟩
    · rw [calls, Table.get?_erase_self]
      simp
    · rw [calls, Table.get?_insert_self]
      exact fun same => after id use said (Option.some.inj same)
  have others : c ≠ call → t.calls.get? c = s.calls.get? c := by
    intro differ
    rcases passes with calls | ⟨state, calls, after⟩
    · rw [calls, Table.get?_erase_of_ne _ (Ne.symm differ)]
    · rw [calls, Table.get?_insert_of_ne _ _ (Ne.symm differ)]
  constructor
  · rintro ⟨use, found⟩
    have differ : c ≠ call := by
      rintro rfl
      exact gone use found
    exact ⟨⟨use, others differ ▸ found⟩, differ⟩
  · rintro ⟨⟨use, found⟩, differ⟩
    exact ⟨use, (others differ).trans found⟩

theorem pagerDone_passes (s : State) (call : CallId) (id : OrderId) (use : PagerUse) :
    Passes s (s.pagerDone call id use).1 call := by
  cases use <;> first | exact .inl rfl | exact .inr ⟨_, rfl, by simp⟩

theorem pagerDone_frame (s : State) (call : CallId) (id : OrderId) (use : PagerUse) :
    (s.pagerDone call id use).1.buzzers = s.buzzers ∧ (s.pagerDone call id use).1.notes = s.notes := by
  cases use <;> exact ⟨rfl, rfl⟩

namespace Heeded

-- A call that looked at a closed buzzer is about to write down what it takes to be the answer.
theorem begin {said : Readiness} {heard : Bool} (heeded : Heeded told late s)
    (buzzers : t.buzzers = s.buzzers.insert id ⟨.closed, heard⟩) (notes : t.notes = s.notes)
    (noting : ∀ c other reply,
      Noting t c other reply ↔ Noting s c other reply ∨ c = call ∧ other = id ∧ reply = said)
    (there : (id, answer) ∈ told) (settled : Settled late t id answer) : Heeded told late t := by
  have closed : t.buzzers.get? id = some ⟨.closed, heard⟩ := by
    rw [buzzers, Table.get?_insert_self]
  refine heeded.change id ?_ (fun _ _ => by rw [notes]) ?_ (fun _ _ => .rfl) closed there settled
  · intro other differ
    rw [buzzers, Table.get?_insert_of_ne _ _ (Ne.symm differ)]
  · intro other differ c reply
    rw [noting]
    exact or_iff_left fun mine => differ mine.2.1

theorem hear {heard : Bool} (heeded : Heeded told late s)
    (before : ∀ id use said, s.calls.get? call ≠ some (.pager id use (.noting said)))
    (buzzed : s.buzzers.get? id = some ⟨.holding answer, heard⟩)
    (buzzers : t.buzzers = s.buzzers.insert id ⟨.closed, heard⟩) (notes : t.notes = s.notes)
    (calls : t.calls = s.calls.insert call (.pager id use (.noting answer))) :
    Heeded told late t := by
  obtain ⟨there, unheard⟩ := heeded.buzzing id answer heard buzzed
  have noting := noting_begin before calls
  refine heeded.begin buzzers notes noting there ⟨?_, ?_, ?_⟩
  · intro _
    refine ⟨unheard.punctual, ?_⟩
    rintro rfl
    exact ⟨call, (noting call id .ready).mpr (.inr ⟨rfl, rfl, rfl⟩)⟩
  · intro c said member
    rcases (noting c id said).mp member with early | ⟨_, _, same⟩
    · exact absurd early (unheard.nobody c said)
    · exact .inl same
  · intro said found
    rw [notes, unheard.unnoted] at found
    cases found

theorem hearNothing {heard : Bool} (heeded : Heeded told late s)
    (before : ∀ id use said, s.calls.get? call ≠ some (.pager id use (.noting said)))
    (buzzed : s.buzzers.get? id = some ⟨.closed, heard⟩)
    (buzzers : t.buzzers = s.buzzers.insert id ⟨.closed, heard⟩) (notes : t.notes = s.notes)
    (calls : t.calls = s.calls.insert call (.pager id use (.noting .malfunction))) :
    Heeded told late t := by
  obtain ⟨answer, there, settled⟩ := heeded.settled id heard buzzed
  have noting := noting_begin before calls
  refine heeded.begin buzzers notes noting there ⟨?_, ?_, ?_⟩
  · rw [notes]
    intro none
    obtain ⟨punctual, held⟩ := settled.unnoted none
    refine ⟨punctual, fun ready => ?_⟩
    obtain ⟨c, early⟩ := held ready
    exact ⟨c, (noting c id .ready).mpr (.inl early)⟩
  · intro c said member
    rcases (noting c id said).mp member with early | ⟨_, _, same⟩
    · exact settled.heard c said early
    · exact .inr same
  · rw [notes]
    exact settled.noted

-- Only who has heard a buzzer writes something down.
theorem heard_of_noting (heeded : Heeded told late s) (noting : Noting s call id said) :
    ∃ answer heard, s.buzzers.get? id = some ⟨.closed, heard⟩ ∧ (id, answer) ∈ told ∧
      Settled late s id answer := by
  have waits : ¬ ∀ signal, s.buzzers.get? id = some signal → signal.content = .waiting :=
    fun waits => (heeded.silent id waits).2.nobody call said noting
  cases found : s.buzzers.get? id with
  | none => exact absurd (fun signal some => by rw [found] at some; cases some) waits
  | some signal =>
    obtain ⟨content, heard⟩ := signal
    cases content with
    | waiting => exact absurd (fun signal some => by rw [found] at some; cases some; rfl) waits
    | holding answer =>
      exact absurd noting ((heeded.buzzing id answer heard found).2.nobody call said)
    | closed =>
      obtain ⟨answer, there, settled⟩ := heeded.settled id heard found
      exact ⟨answer, heard, rfl, there, settled⟩

-- What is written down first stays, right or wrong.
theorem note (heeded : Heeded told late s)
    (here : s.calls.get? call = some (.pager id use (.noting said)))
    (buzzers : t.buzzers = s.buzzers) (notes : t.notes = (s.note id said).notes)
    (passes : Passes s t call) : Heeded told (late ++ s.overtakes (.client call)) t := by
  obtain ⟨answer, _, closed, there, settled⟩ := heeded.heard_of_noting ⟨use, here⟩
  have noting := noting_end passes
  have fewer : ∀ other, other ≠ id → ∀ c reply, Noting t c other reply ↔ Noting s c other reply := by
    intro other differ c reply
    rw [noting]
    refine and_iff_left_of_imp ?_
    rintro ⟨how, found⟩ rfl
    rw [here] at found
    cases found
    exact differ rfl
  have mine : said = answer ∨ said = .malfunction := settled.heard call said ⟨use, here⟩
  have lates : s.overtakes (.client call) =
      if said = .malfunction ∧ s.notes.get? id = none ∧ s.heldBack id = true then [id] else [] := by
    simp only [State.overtakes, here]
    cases said <;> simp
  have heard : ∀ c reply, Noting t c id reply → reply = answer ∨ reply = .malfunction :=
    fun c reply member => settled.heard c reply ((noting c id reply).mp member).1
  rw [lates]
  cases found : s.notes.get? id with
  | some first =>
    have same : t.notes = s.notes := by rw [notes, State.note, found]
    rw [if_neg (by simp), List.append_nil]
    refine heeded.change id (fun _ _ => by rw [buzzers]) (fun _ _ => by rw [same]) fewer
      (fun _ _ => .rfl) (by rw [buzzers]; exact closed) there ⟨?_, heard, ?_⟩
    · rw [same, found]
      simp
    · rw [same]
      exact settled.noted
  | none =>
    have written : t.notes = s.notes.insert id said := by rw [notes, State.note, found]
    have right := settled.written found mine
    refine heeded.change id (fun _ _ => by rw [buzzers]) ?_ fewer ?_ (by rw [buzzers]; exact closed)
      there ⟨?_, heard, ?_⟩
    · intro other differ
      rw [written, Table.get?_insert_of_ne _ _ (Ne.symm differ)]
    · intro other differ
      rw [List.mem_append]
      refine or_iff_left fun mine => differ ?_
      split at mine
      · exact List.mem_singleton.mp mine
      · cases mine
    · rw [written, Table.get?_insert_self]
      simp
    · intro reply now
      rw [written, Table.get?_insert_self] at now
      cases now
      rw [found] at right
      exact ⟨mine, right⟩

-- A call that neither hears nor writes anything down goes on or ends.
theorem pass (heeded : Heeded told late s)
    (before : ∀ id use said, s.calls.get? call ≠ some (.pager id use (.noting said)))
    (buzzers : ∀ id, t.buzzers.get? id = s.buzzers.get? id) (notes : t.notes = s.notes)
    (passes : Passes s t call) : Heeded told late t :=
  heeded.keep buzzers (fun _ => by rw [notes]) (noting_pass before passes)

theorem overtakes_nothing
    (before : ∀ id use said, s.calls.get? call ≠ some (.pager id use (.noting said))) :
    s.overtakes (.client call) = [] := by
  simp only [State.overtakes]
  split
  next found => exact absurd found (before _ _ _)
  next => rfl

theorem pager {stage : PagerPhase} (heeded : Heeded told late s)
    (here : s.calls.get? call = some (.pager id use stage))
    (move : PagerMove s call id use stage t events) :
    Heeded told (late ++ s.overtakes (.client call)) t := by
  have quiet : (∀ said, stage ≠ .noting said) →
      (∀ id use said, s.calls.get? call ≠ some (.pager id use (.noting said))) ∧
        late ++ s.overtakes (.client call) = late := by
    intro other
    have before := not_noting here fun _ _ said same => by cases same; exact other said rfl
    rw [overtakes_nothing before, List.append_nil]
    exact ⟨before, rfl⟩
  cases move with
  | known noted =>
    obtain ⟨before, same⟩ := quiet (by simp)
    obtain ⟨buzzers, notes⟩ := pagerDone_frame s call id use
    rw [same]
    exact heeded.pass before (fun _ => by rw [buzzers]) notes (pagerDone_passes s call id use)
  | look =>
    obtain ⟨before, same⟩ := quiet (by simp)
    rw [same]
    exact heeded.pass before (fun _ => rfl) rfl (.inr ⟨_, rfl, by simp⟩)
  | hear polls buzzed =>
    obtain ⟨before, same⟩ := quiet (by rcases polls with rfl | rfl <;> simp)
    rw [same]
    exact heeded.hear before buzzed rfl rfl rfl
  | hearNothing polls buzzed =>
    obtain ⟨before, same⟩ := quiet (by rcases polls with rfl | rfl <;> simp)
    rw [same]
    exact heeded.hearNothing before buzzed rfl rfl rfl
  | @silent heard buzzed =>
    obtain ⟨before, same⟩ := quiet (by simp)
    have buzzers : ∀ other,
        (s.buzzers.insert id ⟨.waiting, heard⟩).get? other = s.buzzers.get? other := by
      intro other
      rw [Table.get?_insert]
      split
      next equal => rw [← equal, buzzed]
      next => rfl
    rw [same]
    cases use with
    | isReady => exact heeded.pass before buzzers rfl (.inl rfl)
    | _ => exact heeded.pass before buzzers rfl (.inr ⟨_, rfl, by simp⟩)
  | @note readiness =>
    obtain ⟨buzzers, notes⟩ := pagerDone_frame (s.note id readiness) call id use
    have frame : (s.note id readiness).buzzers = s.buzzers ∧
        (s.note id readiness).calls = s.calls := by
      unfold State.note
      split <;> exact ⟨rfl, rfl⟩
    have passes := pagerDone_passes (s.note id readiness) call id use
    rw [Passes, frame.2] at passes
    exact heeded.note here (buzzers.trans frame.1) notes passes
  | read =>
    obtain ⟨before, same⟩ := quiet (by simp)
    rw [same]
    exact heeded.pass before (fun _ => rfl) rfl (.inl rfl)

theorem not_noting_of_unused (unused : s.calls.get? call = none) (id : OrderId) (use : PagerUse)
    (said : Readiness) : s.calls.get? call ≠ some (.pager id use (.noting said)) := by
  rw [unused]
  simp

theorem client (heeded : Heeded told late s)
    (orders : ∀ products woken, action = .order products woken → Orders s)
    (move : ClientMove s action t events) : Heeded told (late ++ s.overtakes action) t := by
  have quiet : s.overtakes action = [] → Heeded told late t →
      Heeded told (late ++ s.overtakes action) t := by
    intro nothing kept
    rw [nothing, List.append_nil]
    exact kept
  cases move with
  | orderClosed | orderMissing => exact quiet rfl heeded
  | place | placeWaking => exact quiet rfl (heeded.accept (orders _ _ rfl) rfl rfl rfl)
  | collectUnknown unused | collectEarly unused | shutdownAgain unused =>
    exact quiet rfl (heeded.pass (not_noting_of_unused unused) (fun _ => rfl) rfl (.inl rfl))
  | collectReady unused | collectEnded unused | takePager unused | shutdown unused =>
    exact quiet rfl
      (heeded.pass (not_noting_of_unused unused) (fun _ => rfl) rfl (.inr ⟨_, rfl, by simp⟩))
  | getResult waits | getNothing waits =>
    have before := not_noting waits (by simp)
    exact quiet (overtakes_nothing before) (heeded.pass before (fun _ => rfl) rfl (.inl rfl))
  | waitOver here =>
    exact quiet rfl (heeded.pass (not_noting here (by simp)) (fun _ => rfl) rfl (.inl rfl))
  | usePager here move => exact heeded.pager here move

theorem shutdown (heeded : Heeded told late s) (here : s.calls.get? call = some (.shutdown stage))
    (move : ShutdownMove s call stage t events) :
    Heeded told (late ++ s.overtakes (.client call)) t := by
  obtain ⟨_, _, _, _, _, _, buzzers, _, notes, _⟩ := move.frame
  have before := not_noting here (by simp)
  rw [overtakes_nothing before, List.append_nil]
  refine heeded.pass before (fun _ => by rw [buzzers]) notes ?_
  rcases move.calls with ⟨later, calls⟩ | calls
  · exact .inr ⟨_, calls, by simp⟩
  · exact .inl calls

theorem step (heeded : Heeded told late s) (orders : Orders s) (step : Transition s action t events) :
    Heeded (told ++ s.resolves action) (late ++ s.overtakes action) t := by
  cases step with
  | worker here move =>
    have punctual : s.overtakes action = [] := by
      rcases move.own with rfl | rfl | ⟨_, rfl⟩ <;> rfl
    rw [punctual, List.append_nil]
    exact heeded.worker orders here move
  | runner _ move =>
    have quiet : s.resolves action = [] ∧ s.overtakes action = [] := by
      cases move <;> exact ⟨rfl, rfl⟩
    obtain ⟨_, _, _, _, buzzers, _⟩ := move.workers
    rw [quiet.1, quiet.2, List.append_nil, List.append_nil]
    refine heeded.keep (fun _ => by rw [buzzers]) (fun _ => by rw [move.unmanned.notes]) ?_
    intro call id said
    rw [Noting, Noting, move.unmanned.calls]
  | client move =>
    have quiet : s.resolves action = [] := by cases move <;> rfl
    rw [quiet, List.append_nil]
    exact heeded.client (fun _ _ _ => orders) move
  | shutdown here move =>
    rw [show s.resolves _ = [] from rfl, List.append_nil]
    exact heeded.shutdown here move

theorem opened (stations : List String) (workers : Nat) : Heeded [] [] (.opened stations workers) := by
  refine ⟨List.nodup_nil, ?_, by simp [State.opened], by simp [State.opened]⟩
  intro id _
  exact ⟨by simp, rfl, by simp [Noting, State.opened], by simp⟩

theorem run (orders : Orders s) (heeded : Heeded told late s) (run : Run s actions events t) :
    Heeded (told ++ along State.resolves s actions) (late ++ along State.overtakes s actions) t := by
  induction run with
  | start =>
    rw [along, along, List.append_nil, List.append_nil]
    exact heeded
  | next before ran ih =>
    rw [along_next _ before, along_next _ before, ← List.append_assoc, ← List.append_assoc]
    exact ih.step (orders.run before) (transition_of_step ran)

end Heeded

-- The buzzers that nobody will ever tell anything.
def State.dropped (s : State) : List (OrderId × Readiness) :=
  s.board.unassigned.map fun order => (order.id, .malfunction)

def Action.pages : Action → Bool
  | .pager _ _ _ | .client _ | .waitTimeout _ => true
  | _ => false

theorem get?_dropAll (orders : List Order) (buzzers : Table OrderId (Signal Readiness))
    (id : OrderId) :
    (orders.foldl (fun t order => t.modify order.id Signal.dropSender) buzzers).get? id =
      if id ∈ orders.map (·.id) then (buzzers.get? id).map Signal.dropSender
      else buzzers.get? id := by
  have twice : ∀ signal : Signal Readiness, signal.dropSender.dropSender = signal.dropSender := by
    rintro ⟨content, heard⟩
    cases content <;> rfl
  induction orders generalizing buzzers with
  | nil => rfl
  | cons order rest ih =>
    rw [List.foldl_cons, ih, Table.get?_modify, List.map_cons]
    by_cases same : order.id = id
    · subst same
      simp only [if_true, List.mem_cons, true_or]
      split
      · cases buzzers.get? order.id with
        | none => rfl
        | some signal => simp only [Option.map_some, twice]
      · rfl
    · simp only [same, if_false, List.mem_cons, Ne.symm same, false_or]

theorem Orders.fresh (orders : Orders s) (waits : id ∈ s.board.unassigned.map (·.id)) :
    s.buzzers.get? id = some .fresh := by
  obtain ⟨order, member, rfl⟩ := List.mem_map.mp waits
  exact (orders.queued order member).2.1

theorem Orders.get?_discard (orders : Orders s) (id : OrderId) :
    s.discard.buzzers.get? id = if id ∈ s.board.unassigned.map (·.id) then
      some ⟨.closed, true⟩ else s.buzzers.get? id := by
  change (s.board.unassigned.foldl _ s.buzzers).get? id = _
  rw [get?_dropAll]
  split
  next waits =>
    rw [orders.fresh waits]
    rfl
  next => rfl

-- The orders that nobody has claimed lose their buzzers' senders with the kitchen.
theorem Heeded.discard (heeded : Heeded told late s) (orders : Orders s) :
    Heeded (told ++ s.dropped) late s.discard := by
  have ids : s.dropped.map (·.1) = s.board.unassigned.map (·.id) := by
    simp [State.dropped, Function.comp_def]
  have now := orders.get?_discard
  refine ⟨?_, ?_, ?_, ?_⟩
  · rw [List.map_append, ids, List.nodup_append]
    refine ⟨heeded.once, ?_, ?_⟩
    · rw [orders.roster.queue]
      exact List.nodup_range'
    · rintro id earlier other waits rfl
      exact (heeded.of_fresh (orders.fresh waits)).1 earlier
  · intro id waits
    rw [now] at waits
    split at waits
    · cases waits _ rfl
    next outside =>
      obtain ⟨new, unheard⟩ := heeded.silent id waits
      refine ⟨?_, unheard.keep rfl (fun _ _ => .rfl) .rfl⟩
      rw [List.map_append, ids, List.mem_append, not_or]
      exact ⟨new, outside⟩
  · intro id answer heard found
    rw [now] at found
    split at found
    · cases found
    · obtain ⟨there, unheard⟩ := heeded.buzzing id answer heard found
      exact ⟨List.mem_append_left _ there, unheard.keep rfl (fun _ _ => .rfl) .rfl⟩
  · intro id heard found
    rw [now] at found
    split at found
    next member =>
      obtain ⟨_, unheard⟩ := heeded.of_fresh (orders.fresh member)
      obtain ⟨order, waits, rfl⟩ := List.mem_map.mp member
      refine ⟨.malfunction, List.mem_append_right _ (List.mem_map_of_mem waits), ?_, ?_, ?_⟩
      · exact fun _ => ⟨unheard.punctual, by simp⟩
      · exact fun call said there => absurd there (unheard.nobody call said)
      · intro said noted
        have none : s.notes.get? order.id = some said := noted
        rw [unheard.unnoted] at none
        cases none
    next =>
      obtain ⟨answer, there, settled⟩ := heeded.settled id heard found
      exact ⟨answer, List.mem_append_left _ there, settled.keep rfl (fun _ _ => .rfl) .rfl⟩

theorem Heeded.pages (heeded : Heeded told late s) (run : Run s actions events t)
    (only : ∀ action ∈ actions, action.pages = true) :
    Heeded told (late ++ along State.overtakes s actions) t := by
  induction run with
  | start =>
    rw [along, List.append_nil]
    exact heeded
  | @next _ _ _ _ _ action before ran ih =>
    have earlier := ih fun action member => only action (List.mem_append_left _ member)
    have pages := only action (by simp)
    rw [along_next _ before, ← List.append_assoc]
    cases transition_of_step ran with
    | worker _ move =>
      rcases move.own with rfl | rfl | ⟨_, rfl⟩ <;> cases pages
    | runner _ move => cases move <;> cases pages
    | client move => exact earlier.client (fun _ _ same => by rw [same] at pages; cases pages) move
    | shutdown here move => exact earlier.shutdown here move

theorem PagerMove.noted {stage : PagerPhase} {other : OrderId}
    (move : PagerMove s call other use stage t events) (noted : s.notes.get? id = some said) :
    t.notes.get? id = some said := by
  cases move with
  | known =>
    rw [(pagerDone_frame s call other use).2]
    exact noted
  | silent => cases use <;> exact noted
  | @note readiness =>
    rw [(pagerDone_frame (s.note other readiness) call other use).2, State.note]
    split
    · exact noted
    next none =>
      change (s.notes.insert other readiness).get? id = _
      rw [Table.get?_insert_of_ne]
      · exact noted
      · rintro rfl
        rw [noted] at none
        cases none
  | _ => exact noted

theorem noted_step (step : Transition s action t events) (noted : s.notes.get? id = some said) :
    t.notes.get? id = some said := by
  cases step with
  | worker _ move | runner _ move =>
    rw [move.unmanned.notes]
    exact noted
  | client move =>
    cases move with
    | usePager _ move => exact move.noted noted
    | _ => exact noted
  | shutdown _ move =>
    obtain ⟨_, _, _, _, _, _, _, _, notes, _⟩ := move.frame
    rw [notes]
    exact noted

theorem noted_run (run : Run s actions events t) (noted : s.notes.get? id = some said) :
    t.notes.get? id = some said := by
  induction run with
  | start => exact noted
  | next _ ran ih => exact noted_step (transition_of_step ran) ih

theorem noted_of_tells (tells : (call, id, said) ∈ s.tells action) :
    s.notes.get? id = some said := by
  unfold State.tells at tells
  split at tells
  · split at tells
    · obtain ⟨_, found, same⟩ := List.mem_map.mp tells
      cases same
      exact Option.mem_toList.mp found
    · cases tells
  · cases tells

theorem noted_of_told (run : Run s actions events t)
    (told : (call, id, said) ∈ along State.tells s actions) : t.notes.get? id = some said := by
  induction run with
  | start => cases told
  | next before ran ih =>
    have step := transition_of_step ran
    rw [along_next _ before] at told
    rcases List.mem_append.mp told with earlier | new
    · exact noted_step step (ih earlier)
    · exact noted_step step (noted_of_tells new)

def Event.readiness? : Event → Option (CallId × Readiness)
  | .replied call (.readiness (some said)) => some (call, said)
  | _ => none

theorem pager_answers {stage : PagerPhase} (here : s.calls.get? call = some (.pager id use stage))
    (move : PagerMove s call id use stage t events) : events.filterMap Event.readiness? =
      (s.tells (.client call)).map fun answer => (answer.1, answer.2.2) := by
  simp only [State.tells, here]
  cases move with
  | known | note | silent => cases use <;> rfl
  | read =>
    dsimp only
    cases s.notes.get? id <;> rfl
  | hear polls | hearNothing polls => rcases polls with rfl | rfl <;> rfl
  | look => rfl

theorem Transition.answers (step : Transition s action t events) :
    events.filterMap Event.readiness? =
      (s.tells action).map fun answer => (answer.1, answer.2.2) := by
  cases step with
  | worker _ move =>
    have quiet : s.tells action = [] := by
      rcases move.own with rfl | rfl | ⟨_, rfl⟩ <;> rfl
    rw [quiet]
    cases move with
    | dispatch =>
      rw [List.filterMap_append, spread_shows _ _ _ fun _ _ => rfl]
      rfl
    | _ => rfl
  | runner _ move =>
    cases move with
    | handOver =>
      simp only [List.filterMap_cons, Event.readiness?]
      split <;> rfl
    | _ => rfl
  | client move =>
    cases move with
    | getResult waits | getNothing waits =>
      simp only [State.tells, waits]
      rfl
    | usePager here move => exact pager_answers here move
    | _ => rfl
  | shutdown here move =>
    simp only [State.tells, here]
    cases move with
    | joinRunner _ ended => rcases ended with ⟨_, rfl⟩ | ⟨_, rfl⟩ <;> rfl
    | _ => rfl

theorem answers_run (run : Run s actions events t) : events.filterMap Event.readiness? =
    (along State.tells s actions).map fun answer => (answer.1, answer.2.2) := by
  induction run with
  | start => rfl
  | next before ran ih =>
    rw [along_next _ before, List.filterMap_append, List.map_append, ih,
      (transition_of_step ran).answers]

-- Each order's buzzer has one answer; what is written down of a pager is that answer, unless a
-- call that heard nothing was faster than the one that heard that the order is ready; and calls
-- answer what is written down.
structure Truthful (told : List (OrderId × Readiness)) (late : List OrderId)
    (answers : List (CallId × OrderId × Readiness)) (s : State) : Prop where
  once : (told.map (·.1)).Nodup
  noted : ∀ id said, s.notes.get? id = some said → ∃ answer, (id, answer) ∈ told ∧
    (said = answer ∨ said = .malfunction) ∧ (said = answer ↔ id ∉ late)
  answered : ∀ call id said, (call, id, said) ∈ answers → s.notes.get? id = some said

theorem Heeded.truthful (heeded : Heeded told late s)
    (answered : ∀ call id said, (call, id, said) ∈ answers → s.notes.get? id = some said) :
    Truthful told late answers s := by
  refine ⟨heeded.once, ?_, answered⟩
  intro id said noted
  have unheard : ¬ Unheard late s id := by
    intro unheard
    rw [unheard.unnoted] at noted
    cases noted
  cases found : s.buzzers.get? id with
  | none =>
    exact absurd (heeded.silent id fun signal some => by rw [found] at some; cases some).2 unheard
  | some signal =>
    obtain ⟨content, heard⟩ := signal
    cases content with
    | waiting =>
      exact absurd (heeded.silent id fun signal some => by rw [found] at some; cases some; rfl).2
        unheard
    | holding answer => exact absurd (heeded.buzzing id answer heard found).2 unheard
    | closed =>
      obtain ⟨answer, there, settled⟩ := heeded.settled id heard found
      obtain ⟨either, exactly⟩ := settled.noted said noted
      exact ⟨answer, there, either, exactly⟩

theorem pagers_truthful_unless_overtaken (run : Run (.opened stations workers) actions events s) :
    let first := State.opened stations workers
    let told := along State.resolves first actions
    let late := along State.overtakes first actions
    let answers := along State.tells first actions
    Truthful told late answers s ∧
    events.filterMap Event.readiness? = answers.map (fun answer => (answer.1, answer.2.2)) ∧
    -- Once the kitchen was let go, the buzzers that are left say that their orders are broken.
    ∀ later more t, Run s.discard later more t → (∀ action ∈ later, action.pages = true) →
      Truthful (told ++ s.dropped) (late ++ along State.overtakes s.discard later)
        (answers ++ along State.tells s.discard later) t ∧
      more.filterMap Event.readiness? =
        (along State.tells s.discard later).map fun answer => (answer.1, answer.2.2) := by
  intro first told late answers
  have opened := Orders.opened stations workers
  have heeded : Heeded told late s := (Heeded.opened stations workers).run opened run
  have noted : ∀ call id said, (call, id, said) ∈ answers → s.notes.get? id = some said :=
    fun call id said there => noted_of_told run there
  refine ⟨heeded.truthful noted, answers_run run, ?_⟩
  intro later more t after only
  refine ⟨?_, answers_run after⟩
  refine ((heeded.discard (opened.run run)).pages after only).truthful ?_
  intro call id said there
  rcases List.mem_append.mp there with early | new
  · exact noted_run after (noted call id said early)
  · exact noted_of_told after new

-- Two calls on one pager: the first hears that the order is ready, the second hears nothing, takes
-- the order for broken, writes that down and answers it before the first writes down what it heard.
def sharedPager : List Action :=
  [.worker 0, .runner 0, .order ["burger"] none, .worker 0, .worker 0, .runner 0, .runner 0,
    .produced 0 (.made .burger), .runner 0, .worker 0] ++
    [.pager 1 0 .wait, .client 1, .client 1, .pager 2 0 .readiness, .client 2, .worker 0] ++
    [.client 1, .client 2, .client 2, .client 2, .client 1]

-- The pager of an order that is ready, and for which its worker said so, says that it is broken.
theorem shared_pager_lies :
    ∃ events s, Run (.opened ["burger"] 1) sharedPager events s ∧
      along State.resolves (.opened ["burger"] 1) sharedPager = [(0, .ready)] ∧
      s.board.orderState 0 = some .ready ∧ s.notes.get? 0 = some .malfunction ∧
      .replied 2 (.readiness (some .malfunction)) ∈ events :=
  ⟨_, _, run_after (by decide +kernel), by decide +kernel, by decide +kernel, by decide +kernel,
    by decide +kernel⟩

theorem sharedPager_overtaken :
    0 ∈ along State.overtakes (.opened ["burger"] 1) sharedPager := by
  have possible : ((State.opened ["burger"] 1).play sharedPager).isSome = true := by decide +kernel
  have resolved : along State.resolves (.opened ["burger"] 1) sharedPager = [(0, .ready)] := by
    decide +kernel
  obtain ⟨truthful, _⟩ := pagers_truthful_unless_overtaken (run_after possible)
  obtain ⟨answer, there, _, exactly⟩ := truthful.noted 0 .malfunction (by decide +kernel)
  rw [resolved] at there
  cases List.mem_singleton.mp there
  apply Decidable.byContradiction
  intro punctual
  cases exactly.mpr punctual

end Kitchen.Engine
