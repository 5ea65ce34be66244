import Kitchen.Proofs.Conservation
import Kitchen.Proofs.Gathering
import Kitchen.Proofs.Turns

namespace Kitchen.Engine

variable {s t : State} {action : Action} {actions : List Action} {events more : List Event}
  {call : CallId} {id : OrderId} {order other : Order}
  {stations : List String} {workers : Nat} {made : List (JobRef × Item)}
  {items others : List Item} {a b : Item} {j k : Nat} {spoken : JobRef → List (Option JobResult)}

-- Of two products that were made one came first, unless they are one.
theorem Turns.compare (turns : Turns made s) {a b : JobRef × Item} (one : a ∈ made) (two : b ∈ made)
    (maker : a.2.maker = b.2.maker) :
    a = b ∨ a.2.call < b.2.call ∧ Behind a.1 b.1 ∨ b.2.call < a.2.call ∧ Behind b.1 a.1 := by
  obtain ⟨j, short, rfl⟩ := List.getElem_of_mem one
  obtain ⟨k, below, rfl⟩ := List.getElem_of_mem two
  have ordered := List.pairwise_iff_getElem.mp turns.apart
  rcases Nat.lt_trichotomy j k with before | rfl | after
  · exact .inr (.inl (ordered j k short below before maker))
  · exact .inl rfl
  · exact .inr (.inr (ordered k j below short after maker.symm))

theorem Turns.once (turns : Turns made s) {a b : JobRef × Item} (one : a ∈ made) (two : b ∈ made)
    (maker : a.2.maker = b.2.maker) (called : a.2.call = b.2.call) : a = b := by
  rcases turns.compare one two maker with same | ⟨less, _⟩ | ⟨less, _⟩
  · exact same
  · exact absurd called (Nat.ne_of_lt less)
  · exact absurd called.symm (Nat.ne_of_lt less)

-- For each place of the order a product that was made for it.
structure Matches (made : List (JobRef × Item)) (order : Order) (items : List Item) : Prop where
  length : items.length = order.products.length
  made : ∀ (position : Nat) (item : Item), items[position]? = some item →
    (⟨order.id, position⟩, item) ∈ made ∧ order.products[position]? = some item.maker

theorem Matches.mono (matched : Matches made order items) (more : List (JobRef × Item)) :
    Matches (made ++ more) order items := by
  refine ⟨matched.length, ?_⟩
  intro position item here
  obtain ⟨entered, wants⟩ := matched.made position item here
  exact ⟨List.mem_append_left _ entered, wants⟩

-- A worker that has every product of its order has the right ones.
theorem Gathers.matches {tray : Tray} (gathers : Gathers spoken (.delivering order tray))
    (sent : ∀ ref item, spoken ref = [some (.made item)] → (ref, item) ∈ made)
    (wanted : ∀ position product item, order.products[position]? = some product →
      (⟨order.id, position⟩, item) ∈ made → product = item.maker) :
    Matches made order (tray.map (·.2)) := by
  have whole : tray.length = order.products.length := gathers.complete
  obtain ⟨gave, _⟩ := gathers.told order _ rfl
  replace gave : tray = gathered spoken order order.products.length := gave
  refine ⟨by rw [List.length_map, whole], ?_⟩
  intro position item here
  rw [gave] at whole
  rw [List.getElem?_map, gave] at here
  obtain ⟨⟨product, other⟩, there, rfl⟩ := Option.map_eq_some_iff.mp here
  have inside : position < order.products.length := whole ▸ (List.getElem?_eq_some_iff.mp there).1
  obtain ⟨_, _, shared, place⟩ := gathered_full whole inside
  cases there.symm.trans place
  obtain ⟨wants, said⟩ := share_eq_some.mp shared
  have entered := sent _ _ said
  exact ⟨entered, wanted position product other wants entered ▸ wants⟩

-- A meal in a result's signal was there before, or its worker has just put it there.
theorem meal_of_step {heard : Bool} (orders : Orders s) (step : Transition s action t events)
    (filled : t.results.get? id = some ⟨.holding (.meal items), heard⟩) :
    s.results.get? id = some ⟨.holding (.meal items), heard⟩ ∨
      ∃ (i : Nat) (order : Order) (tray : Tray), s.phases[i]? = some (.delivering order tray) ∧
        order.id = id ∧ items = tray.map (·.2) := by
  have same : t.results = s.results → s.results.get? id = some ⟨.holding (.meal items), heard⟩ :=
    fun results => results ▸ filled
  have insert : ∀ {other : OrderId} {content : Signal.Content Outcome} {listens : Bool},
      t.results = s.results.insert other ⟨content, listens⟩ → (∀ outcome, content ≠ .holding outcome) →
      s.results.get? id = some ⟨.holding (.meal items), heard⟩ := by
    intro other content listens results silent
    rw [results, Table.get?_insert] at filled
    split at filled
    · cases filled
      exact absurd rfl (silent _)
    · exact filled
  -- A result is given by the worker that has the order, to a signal that still waits.
  have resolve : ∀ {i : Nat} {order : Order} {phase : WorkerPhase} {outcome : Outcome},
      s.phases[i]? = some phase → phase.order? = some order →
      t.results = s.results.modify order.id (fun signal => (signal.resolve outcome).2) →
      s.results.get? id = some ⟨.holding (.meal items), heard⟩ ∨
        order.id = id ∧ outcome = .meal items := by
    intro i order phase outcome here has results
    have fresh := (orders.had i phase order here has).unanswered has
    rw [results, Table.get?_modify] at filled
    split at filled
    next mine =>
      rw [← mine, show s.results.get? order.id = some .fresh from fresh] at filled
      cases filled
      exact .inr ⟨mine, rfl⟩
    next => exact .inl filled
  cases step with
  | worker here move =>
    have place := State.phases_of here
    cases move with
    | dispatch => exact .inl (same (spread_results ..))
    | tell =>
      rcases resolve place rfl rfl with before | ⟨_, spoiled⟩
      · exact .inl before
      · cases spoiled
    | deliver =>
      rcases resolve place rfl rfl with before | ⟨named, meal⟩
      · exact .inl before
      · cases meal
        exact .inr ⟨_, _, _, place, named, rfl⟩
    | @crash order ending product item rest =>
      have fresh := (orders.had _ _ order place rfl).unanswered rfl
      refine .inl ?_
      change (s.results.modify order.id Signal.dropSender).get? id = _ at filled
      rw [Table.get?_modify] at filled
      split at filled
      next same =>
        rw [← same, show s.results.get? order.id = some .fresh from fresh] at filled
        cases filled
      next => exact filled
    | _ => exact .inl filled
  | runner _ move => exact .inl (same move.workers.2.2.2.2.2)
  | client move =>
    cases move with
    | place | placeWaking | getResult | getNothing => exact .inl (insert rfl (by simp))
    | usePager _ move => exact .inl (same move.frame.2.2.2.2.1)
    | _ => exact .inl filled
  | shutdown _ move => exact .inl (same move.frame.2.2.2.2.2.2.2.1)

-- Every meal that is on its way, or has come, belongs to an accepted order and matches it.
structure Meals (made : List (JobRef × Item)) (events : List Event)
    (meals : List (CallId × OrderId × List Item)) (s : State) : Prop where
  filled : ∀ id items heard, s.results.get? id = some ⟨.holding (.meal items), heard⟩ →
    ∃ order ∈ placed events, order.id = id ∧ Matches made order items
  came : ∀ meal ∈ meals, ∃ order ∈ placed events, order.id = meal.2.1 ∧ Matches made order meal.2.2

theorem Meals.run (apart : stations.Nodup) (run : Run (.opened stations workers) actions events t) :
    Meals ((State.opened stations workers).production actions) events
      ((State.opened stations workers).deliveries actions) t := by
  induction run with
  | start => exact ⟨by simp [State.opened], by simp [State.deliveries, along]⟩
  | @next earlier events more s t action before ran ih =>
    have steady := Steady.opened apart before
    have all := Placed.run before
    have still : ∀ {id : OrderId} {items : List Item},
        (∃ order ∈ placed events, order.id = id ∧
          Matches ((State.opened stations workers).production earlier) order items) →
        ∃ order ∈ placed (events ++ more), order.id = id ∧
          Matches ((State.opened stations workers).production (earlier ++ [action])) order items := by
      rintro id items ⟨order, accepted, named, matched⟩
      rw [placed_append, production_next before]
      exact ⟨order, List.mem_append_left _ accepted, named, matched.mono _⟩
    refine ⟨?_, ?_⟩
    · intro id items heard filled
      rcases meal_of_step steady.orders (transition_of_step ran) filled with
        there | ⟨i, order, tray, here, rfl, rfl⟩
      · exact still (ih.filled id items heard there)
      · have accepted := all.had i _ order here rfl
        refine still ⟨order, accepted, rfl, ?_⟩
        refine ((Gathering.run apart before).gathers i _ here).matches ?_ ?_
        · intro ref item told
          exact (Sourced.run before).sent ref item (mem_said.mp (by rw [told]; exact .head _))
        · intro position product item wants entered
          exact Wanted.unique all ⟨order, accepted, rfl, wants⟩ (wanted_of_made before entered)
    · intro meal delivered
      rw [deliveries_next before] at delivered
      rcases List.mem_append.mp delivered with earlier | new
      · exact still (ih.came meal earlier)
      · obtain ⟨call, id, items⟩ := meal
        obtain ⟨_, _, heard, filled⟩ := delivers_of new
        exact still (ih.filled id items heard filled)

-- The calls that made the products of these meals.
def callsOf (meals : List (CallId × OrderId × List Item)) : List (String × Nat) :=
  meals.flatMap fun meal => meal.2.2.map fun item => (item.maker, item.call)

-- What one call made is in one place.
theorem Matches.place (turns : Turns made s) (one : Matches made order items)
    (two : Matches made other others) (here : items[j]? = some a) (there : others[k]? = some b)
    (maker : a.maker = b.maker) (called : a.call = b.call) : order.id = other.id ∧ j = k := by
  have same := turns.once (one.made j a here).1 (two.made k b there).1 maker called
  simp only [Prod.mk.injEq, JobRef.mk.injEq] at same
  exact same.1

theorem Meals.calls_apart {meals : List (CallId × OrderId × List Item)} (all : Meals made events meals s)
    (turns : Turns made s) (delivered : Delivered meals s) : (callsOf meals).Nodup := by
  refine List.nodup_flatMap.mpr ⟨?_, ?_⟩
  · intro meal member
    obtain ⟨order, _, _, matched⟩ := all.came meal member
    refine List.nodup_iff_getElem?_ne_getElem?.mpr fun j k before below same => ?_
    rw [List.length_map] at below
    rw [List.getElem?_map, List.getElem?_map, List.getElem?_eq_getElem below,
      List.getElem?_eq_getElem (Nat.lt_trans before below), Option.map_some, Option.map_some] at same
    obtain ⟨maker, called⟩ := Prod.mk.inj (Option.some.inj same)
    have one := matched.place turns matched (List.getElem?_eq_getElem (Nat.lt_trans before below))
      (List.getElem?_eq_getElem below) maker called
    exact absurd one.2 (Nat.ne_of_lt before)
  · refine List.Pairwise.imp_of_mem ?_ (List.pairwise_map.mp delivered.apart)
    intro one two here there differ key first second
    obtain ⟨a, inOne, rfl⟩ := List.mem_map.mp first
    obtain ⟨b, inTwo, same⟩ := List.mem_map.mp second
    obtain ⟨j, placeA⟩ := List.getElem?_of_mem inOne
    obtain ⟨k, placeB⟩ := List.getElem?_of_mem inTwo
    obtain ⟨order, _, named, matched⟩ := all.came one here
    obtain ⟨other, _, called, matching⟩ := all.came two there
    obtain ⟨maker, call⟩ := Prod.mk.inj same
    have alike := (matched.place turns matching placeA placeB maker.symm call.symm).1
    exact differ (named.symm.trans (alike.trans called))

-- The meal that a client gets has for each place of the order one product: the one that a call on the
-- station named there made for that place. No two places have the product of one call, whether of one
-- order or of two, and what one station made for an order it made in the order of the places, so that a
-- station that numbers what it makes numbers it in that order.
theorem meals_match_orders (apart : stations.Nodup)
    (run : Run (.opened stations workers) actions events s) :
    let first := State.opened stations workers
    events.filterMap Event.meal? =
      (first.deliveries actions).map (fun meal => (meal.1, meal.2.2)) ∧
    (∀ call id items, (call, id, items) ∈ first.deliveries actions → .collect call id ∈ actions ∧
      ∃ order ∈ placed events, order.id = id ∧ items.length = order.products.length ∧
        (∀ (position : Nat) (item : Item), items[position]? = some item →
          order.products[position]? = some item.maker ∧
            (⟨id, position⟩, item) ∈ first.production actions) ∧
        ∀ (j k : Nat) (a b : Item), j < k → items[j]? = some a → items[k]? = some b →
          order.products[j]? = order.products[k]? → a.call < b.call ∧
            ((∀ made ∈ first.production actions, made.2.maker = a.maker →
                made.2.product = Product.Kind.ticket.make made.2.call) →
              ∃ serial later, a.product.serial? = some serial ∧ b.product.serial? = some later ∧
                serial < later)) ∧
    (callsOf (first.deliveries actions)).Nodup := by
  intro first
  have all := Meals.run apart run
  have turns := Turns.run apart run
  refine ⟨(shows_run run).1, ?_, all.calls_apart turns (Delivered.run (.opened stations workers) run)⟩
  intro call id items delivered
  refine ⟨asked_of_delivered run delivered, ?_⟩
  obtain ⟨order, accepted, rfl, length, places⟩ := all.came _ delivered
  refine ⟨order, accepted, rfl, length, fun position item here => (places position item here).symm, ?_⟩
  intro j k a b before here there alike
  obtain ⟨one, wantsA⟩ := places j a here
  obtain ⟨two, wantsB⟩ := places k b there
  have maker : a.maker = b.maker := Option.some.inj (wantsA.symm.trans (alike.trans wantsB))
  have less : a.call < b.call := by
    rcases turns.compare one two maker with same | ⟨less, _⟩ | ⟨_, behind⟩
    · cases same
      exact absurd before (Nat.lt_irrefl _)
    · exact less
    · exact absurd (behind rfl) (Nat.not_lt_of_gt before)
  refine ⟨less, ?_⟩
  intro numbers
  have numberA : a.product = Product.Kind.ticket.make a.call := numbers _ one rfl
  have numberB : b.product = Product.Kind.ticket.make b.call := numbers _ two maker.symm
  exact ⟨a.call, b.call, by rw [numberA]; rfl, by rw [numberB]; rfl, less⟩

-- An order of two tickets with a burger between them, which the client collects.
def ticketDay : List Action :=
  [.worker 0, .runner 0, .runner 1, .order ["ticket", "burger", "ticket"] none, .worker 0, .worker 0] ++
    [.runner 0, .runner 0, .produced 0 (.made (.ticket 0)), .runner 0] ++
    [.runner 0, .runner 0, .produced 0 (.made (.ticket 1)), .runner 0] ++
    [.runner 1, .runner 1, .produced 1 (.made .burger), .runner 1] ++
    [.worker 0, .worker 0, .worker 0, .worker 0, .collect 1 0, .worker 0, .worker 0, .client 1]

theorem ticketDay_matched :
    (callsOf ((State.opened ["ticket", "burger"] 1).deliveries ticketDay)).Nodup ∧
    (1, 0, [⟨"ticket", 0, .ticket 0⟩, ⟨"burger", 0, .burger⟩, ⟨"ticket", 1, .ticket 1⟩]) ∈
      (State.opened ["ticket", "burger"] 1).deliveries ticketDay ∧
    .collect 1 0 ∈ ticketDay := by
  have possible : ((State.opened ["ticket", "burger"] 1).play ticketDay).isSome = true := by
    decide +kernel
  obtain ⟨_, meals, once⟩ := meals_match_orders (by decide) (run_after possible)
  have delivered : (1, 0, [⟨"ticket", 0, .ticket 0⟩, ⟨"burger", 0, .burger⟩, ⟨"ticket", 1, .ticket 1⟩]) ∈
      (State.opened ["ticket", "burger"] 1).deliveries ticketDay := by
    decide +kernel
  exact ⟨once, delivered, (meals 1 0 _ delivered).1⟩

end Kitchen.Engine
