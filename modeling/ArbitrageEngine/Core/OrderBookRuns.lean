import ArbitrageEngine.Core.OrderBookReference

/-!
# Runs of the order book

`src/core/order_book.cpp`: what holds of a book after any sequence of `apply` and `mark_*`
calls. Every commit is the plain application of its changes, so it is enough to say what
one change does to the levels.
-/

namespace ArbitrageEngine.Core

open Base Base.TreeMap Std

/-- The states that the `mark_*` functions and `invalidate` set. -/
inductive BookMark
  | initializing
  | stale
  | resyncing
  | disconnected
  | invalid
  deriving DecidableEq, Repr

/-- The state of the book after the call. -/
def BookMark.state : BookMark → BookState
  | initializing => .initializing
  | stale => .stale
  | resyncing => .resyncing
  | disconnected => .disconnected
  | invalid => .invalid

private theorem BookMark.state_ne_valid (mark : BookMark) : mark.state ≠ .valid := by
  cases mark <;> decide

/-- A call of a function that changes the book. -/
inductive BookCall
  | applySnapshot (snapshot : BookSnapshot)
  | applyUpdate (update : BookUpdate)
  | applyEvents (events : List MarketEvent)
  | mark (mark : BookMark)
  deriving DecidableEq, Repr

/-- A call whose arguments hold a snapshot. -/
def BookCall.hasSnapshot : BookCall → Bool
  | applySnapshot _ => true
  | applyEvents events => events.any MarketEvent.isSnapshot
  | applyUpdate _ | mark _ => false

/-! ### Positive levels -/

section Levels

variable {cmp : PriceTicks → PriceTicks → Ordering} [TransCmp cmp] [LawfulEqCmp cmp]

/-- Levels with positive prices and quantities only. -/
def Positive (levels : Levels cmp) : Prop :=
  ∀ (price : PriceTicks) (quantity : QuantityAtoms), levels[price]? = some quantity →
    0 < price.raw ∧ 0 < quantity.raw

omit [LawfulEqCmp cmp] in
private theorem positive_empty : Positive (∅ : Levels cmp) := by
  intro price quantity h
  rw [ExtTreeMap.getElem?_empty] at h
  cases h

private theorem Positive.setLevel {levels : Levels cmp} (h : Positive levels) {price : PriceTicks}
    (hp : 0 < price.raw) (quantity : QuantityAtoms) :
    Positive (setLevel levels price quantity) := by
  intro key value hv
  rw [getElem?_setLevel] at hv
  split at hv
  · next heq =>
    have hk : price = key := LawfulEqCmp.compare_eq_iff_eq.mp heq
    unfold residue at hv
    split at hv
    · cases hv
    · next hne =>
      cases hv
      exact ⟨hk ▸ hp, Nat.pos_of_ne_zero hne⟩
  · exact h key value hv

end Levels

/-- Both sides have positive levels. -/
def Sides.Positive (sides : Sides) : Prop :=
  ArbitrageEngine.Core.Positive sides.1 ∧ ArbitrageEngine.Core.Positive sides.2

private theorem price_pos_of_validLevel {level : BookLevel} {snapshot : Bool}
    (h : validLevel level snapshot = true) : 0 < level.price.raw := by
  simp only [validLevel, Bool.and_eq_true, decide_eq_true_eq] at h
  exact h.1.2

/-- One change keeps the levels positive. -/
theorem Sides.Positive.applyChange {sides : Sides} (h : sides.Positive) {change : BookLevel}
    {snapshot : Bool} (hv : validLevel change snapshot = true) :
    Sides.Positive (applyChange sides change) := by
  have hp := price_pos_of_validLevel hv
  unfold ArbitrageEngine.Core.applyChange
  cases change.side with
  | bid => exact ⟨h.1.setLevel hp change.quantity, h.2⟩
  | ask => exact ⟨h.1, h.2.setLevel hp change.quantity⟩
  | other => exact h

/-- The changes of a snapshot keep the levels positive. -/
theorem Sides.Positive.foldl {sides : Sides} (h : sides.Positive) {levels : List BookLevel}
    (hv : ∀ level ∈ levels, validLevel level true = true) :
    Sides.Positive (levels.foldl Core.applyChange sides) := by
  induction levels generalizing sides with
  | nil => exact h
  | cons level rest ih =>
    exact ih (h.applyChange (hv level List.mem_cons_self))
      fun other ho ↦ hv other (List.mem_cons_of_mem _ ho)

/-- The checked changes of an update keep the levels positive. -/
theorem Sides.Positive.foldlM {sides final : Sides} (h : sides.Positive) {changes : List BookLevel}
    (hf : changes.foldlM (fun sides change ↦
      if validLevel change false then some (Core.applyChange sides change) else none) sides =
        some final) : final.Positive := by
  induction changes generalizing sides with
  | nil =>
    cases hf
    exact h
  | cons change rest ih =>
    rw [List.foldlM_cons] at hf
    by_cases hv : validLevel change false = true
    · rw [if_pos hv] at hf
      exact ih (h.applyChange hv) hf
    · rw [if_neg hv] at hf
      cases hf

namespace OrderBook

/-- A book with positive levels only. -/
def Positive (book : OrderBook) : Prop := Sides.Positive (book.bids, book.asks)

/-- What a successful plain application leaves. -/
theorem Positive.referenceEvent {book next : OrderBook} (h : book.Positive) {event : MarketEvent}
    (he : book.referenceEvent event = some next) :
    next.Positive ∧ (next.state = .valid ↔ event.isSnapshot = true ∨ book.state = .valid) := by
  cases event with
  | snapshot event =>
    change book.referenceSnapshot event = some next at he
    unfold referenceSnapshot at he
    split at he
    · cases he
    · split at he
      · next hv =>
        cases he
        exact ⟨Sides.Positive.foldl ⟨positive_empty, positive_empty⟩ hv.1,
          fun _ ↦ .inl rfl, fun _ ↦ rfl⟩
      · cases he
  | update event =>
    change book.referenceUpdate event = some next at he
    unfold referenceUpdate at he
    split at he
    · cases he
    · next hc =>
      obtain ⟨sides, hsides, rfl⟩ := Option.map_eq_some_iff.mp he
      exact ⟨h.foldlM hsides, fun hv ↦ .inr hv, fun hv ↦ hv.resolve_left nofun⟩

/-- The events of a list one after the other. -/
theorem Positive.referenceEvents {book next : OrderBook} (h : book.Positive)
    {events : List MarketEvent} (he : events.foldlM OrderBook.referenceEvent book = some next) :
    next.Positive ∧ (next.state = .valid ↔
      events.any MarketEvent.isSnapshot = true ∨ book.state = .valid) := by
  induction events generalizing book with
  | nil =>
    cases he
    exact ⟨h, fun hv ↦ .inr hv, fun hv ↦ hv.resolve_left nofun⟩
  | cons event rest ih =>
    rw [List.foldlM_cons] at he
    obtain ⟨middle, hm, hr⟩ := Option.bind_eq_some_iff.mp he
    obtain ⟨hmiddle, hstate⟩ := h.referenceEvent hm
    obtain ⟨hnext, hfinal⟩ := ih hmiddle hr
    refine ⟨hnext, ?_⟩
    rw [hfinal, hstate, List.any_cons, Bool.or_eq_true, or_left_comm, or_assoc]

/-- A call: the book afterwards, and whether it was accepted. -/
def call (book : OrderBook) : BookCall → OrderBook × Bool
  | .applySnapshot snapshot => book.applySnapshot snapshot
  | .applyUpdate update => book.applyUpdate update
  | .applyEvents events => book.applyEvents events
  | .mark mark => (book.mark mark.state, true)

/-- Calls one after the other. -/
def calls (book : OrderBook) (list : List BookCall) : OrderBook :=
  list.foldl (fun book call ↦ (book.call call).1) book

/-- The plain application behind each `apply`. -/
theorem call_eq (book : OrderBook) (call : BookCall) :
    (∃ mark, call = .mark mark ∧ book.call call = (book.mark mark.state, true)) ∨
    ∃ events : List MarketEvent, events.any MarketEvent.isSnapshot = call.hasSnapshot ∧
      book.call call = match events.foldlM referenceEvent book with
        | some next => (next, true)
        | none => (book, false) := by
  cases call with
  | mark mark => exact .inl ⟨mark, rfl, rfl⟩
  | applySnapshot snapshot =>
    refine .inr ⟨[.snapshot snapshot], rfl, ?_⟩
    have hone : [MarketEvent.snapshot snapshot].foldlM referenceEvent book =
        book.referenceSnapshot snapshot := by
      rw [List.foldlM_cons]
      exact bind_pure (book.referenceSnapshot snapshot)
    rw [hone]
    exact applySnapshot_eq_reference book snapshot
  | applyUpdate update =>
    refine .inr ⟨[.update update], rfl, ?_⟩
    have hone : [MarketEvent.update update].foldlM referenceEvent book =
        book.referenceUpdate update := by
      rw [List.foldlM_cons]
      exact bind_pure (book.referenceUpdate update)
    rw [hone]
    exact applyUpdate_eq_reference book update
  | applyEvents events => exact .inr ⟨events, rfl, applyEvents_eq_foldlM book events⟩

/-- Every call keeps the levels positive, and only an accepted snapshot makes the book valid. -/
theorem Positive.call {book : OrderBook} (h : book.Positive) (call : BookCall) :
    (book.call call).1.Positive ∧ ((book.call call).1.state = .valid →
      book.state = .valid ∨ (call.hasSnapshot = true ∧ (book.call call).2 = true)) := by
  rcases book.call_eq call with ⟨mark, _, hcall⟩ | ⟨events, hsnapshot, hcall⟩
  · rw [hcall]
    exact ⟨h, fun hv ↦ absurd hv mark.state_ne_valid⟩
  · rw [hcall]
    cases he : events.foldlM OrderBook.referenceEvent book with
    | none => exact ⟨h, .inl⟩
    | some next =>
      obtain ⟨hnext, hstate⟩ := h.referenceEvents he
      refine ⟨hnext, fun hv ↦ ?_⟩
      rcases hstate.mp hv with hs | hs
      · exact .inr ⟨hsnapshot ▸ hs, rfl⟩
      · exact .inl hs

/-- Every book of every run has positive levels. -/
theorem Positive.calls {book : OrderBook} (h : book.Positive) (list : List BookCall) :
    (book.calls list).Positive := by
  induction list generalizing book with
  | nil => exact h
  | cons call rest ih => exact ih (h.call call).1

/-! ### Best levels -/

section Best

variable {cmp : PriceTicks → PriceTicks → Ordering} [TransCmp cmp]

/-- A side has a first entry unless it is empty. -/
private theorem isSome_head_toList (levels : Levels cmp) :
    levels.toList.head?.isSome = true ↔ levels ≠ ∅ := by
  rw [List.isSome_head?, ne_eq, ne_eq, ← ExtTreeMap.toList_inj]
  rfl

/-- The first entry of a side comes before all others. -/
private theorem head_toList {levels : Levels cmp} {first : PriceTicks × QuantityAtoms}
    (h : levels.toList.head? = some first) :
    first ∈ levels.toList ∧
      ∀ other ∈ levels.toList, other = first ∨ cmp first.1 other.1 = .lt := by
  have ho := levels.ordered_keys_toList
  cases hl : levels.toList with
  | nil =>
    rw [hl] at h
    cases h
  | cons entry rest =>
    rw [hl] at h ho
    cases h
    refine ⟨List.mem_cons_self, fun other hm ↦ ?_⟩
    rcases List.mem_cons.mp hm with hm | hm
    · exact .inl hm
    · exact .inr ((List.pairwise_cons.mp ho).1 other hm)

private theorem best_spec (levels : Levels cmp) (side : Side) (state : BookState)
    (le : PriceTicks → PriceTicks → Prop) (hrefl : ∀ price, le price price)
    (hlt : ∀ first other, cmp first other = .lt → le first other) {best : Option BookLevel}
    (hbest : best = if state ≠ .valid then none
      else levels.toList.head?.map fun (price, quantity) ↦ ⟨side, price, quantity⟩) :
    (best.isSome = true ↔ state = .valid ∧ levels ≠ ∅) ∧
      ∀ level ∈ best, level.side = side ∧ (level.price, level.quantity) ∈ levels.toList ∧
        ∀ other ∈ levels.toList, le level.price other.1 := by
  subst hbest
  by_cases hv : state = .valid
  · rw [if_neg (not_not_intro hv)]
    constructor
    · rw [Option.isSome_map, isSome_head_toList]
      exact ⟨fun h ↦ ⟨hv, h⟩, fun h ↦ h.2⟩
    · intro level hl
      obtain ⟨first, hf, rfl⟩ := Option.map_eq_some_iff.mp hl
      obtain ⟨hmem, hle⟩ := head_toList hf
      refine ⟨rfl, hmem, fun other ho ↦ ?_⟩
      rcases hle other ho with rfl | h
      · exact hrefl _
      · exact hlt _ _ h
  · rw [if_pos hv]
    exact ⟨⟨nofun, fun h ↦ absurd h.1 hv⟩, nofun⟩

end Best

private theorem greater_eq_lt {a b : PriceTicks} : greater a b = .lt ↔ b.raw < a.raw :=
  Nat.compare_eq_lt

private theorem less_eq_lt {a b : PriceTicks} : less a b = .lt ↔ a.raw < b.raw :=
  Nat.compare_eq_lt

/-- `best_bid` is the bid with the greatest price. -/
theorem bestBid_spec (book : OrderBook) :
    (book.bestBid.isSome = true ↔ book.state = .valid ∧ book.bids ≠ ∅) ∧
      ∀ level ∈ book.bestBid, level.side = .bid ∧
        (level.price, level.quantity) ∈ book.bids.toList ∧
        ∀ other ∈ book.bids.toList, other.1.raw ≤ level.price.raw :=
  best_spec book.bids .bid book.state (fun a b ↦ b.raw ≤ a.raw) (fun _ ↦ Nat.le_refl _)
    (fun _ _ h ↦ Nat.le_of_lt (greater_eq_lt.mp h)) rfl

/-- `best_ask` is the ask with the least price. -/
theorem bestAsk_spec (book : OrderBook) :
    (book.bestAsk.isSome = true ↔ book.state = .valid ∧ book.asks ≠ ∅) ∧
      ∀ level ∈ book.bestAsk, level.side = .ask ∧
        (level.price, level.quantity) ∈ book.asks.toList ∧
        ∀ other ∈ book.asks.toList, level.price.raw ≤ other.1.raw :=
  best_spec book.asks .ask book.state (fun a b ↦ a.raw ≤ b.raw) (fun _ ↦ Nat.le_refl _)
    (fun _ _ h ↦ Nat.le_of_lt (less_eq_lt.mp h)) rfl

private theorem positive_toList {cmp : PriceTicks → PriceTicks → Ordering} [TransCmp cmp]
    [LawfulEqCmp cmp] {levels : Levels cmp} (h : Core.Positive levels) :
    ∀ level ∈ levels.toList, 0 < level.1.raw ∧ 0 < level.2.raw := by
  rintro ⟨price, quantity⟩ hm
  exact h price quantity (ExtTreeMap.mem_toList_iff_getElem?_eq_some.mp hm)

/-- After any calls both sides are strictly ordered with positive levels, the best levels are
the best prices of a valid book, and the next call makes the book valid only by an accepted
snapshot. -/
theorem calls_sound (venue : Venue) (instrument : Instrument) (list : List BookCall) :
    let book := (create venue instrument).calls list
    (book.bids.toList.Pairwise (fun a b ↦ b.1.raw < a.1.raw) ∧
      book.asks.toList.Pairwise (fun a b ↦ a.1.raw < b.1.raw) ∧
      (∀ level ∈ book.bids.toList, 0 < level.1.raw ∧ 0 < level.2.raw) ∧
      ∀ level ∈ book.asks.toList, 0 < level.1.raw ∧ 0 < level.2.raw) ∧
    ((book.bestBid.isSome = true ↔ book.state = .valid ∧ book.bids ≠ ∅) ∧
      ∀ level ∈ book.bestBid, level.side = .bid ∧
        (level.price, level.quantity) ∈ book.bids.toList ∧
        ∀ other ∈ book.bids.toList, other.1.raw ≤ level.price.raw) ∧
    ((book.bestAsk.isSome = true ↔ book.state = .valid ∧ book.asks ≠ ∅) ∧
      ∀ level ∈ book.bestAsk, level.side = .ask ∧
        (level.price, level.quantity) ∈ book.asks.toList ∧
        ∀ other ∈ book.asks.toList, level.price.raw ≤ other.1.raw) ∧
    ∀ call, (book.call call).1.state = .valid →
      book.state = .valid ∨ (call.hasSnapshot = true ∧ (book.call call).2 = true) := by
  intro book
  have hnew : (create venue instrument).Positive := ⟨positive_empty, positive_empty⟩
  have hpositive : book.Positive := hnew.calls list
  refine ⟨⟨?_, ?_, positive_toList hpositive.1, positive_toList hpositive.2⟩, book.bestBid_spec,
    book.bestAsk_spec, fun call ↦ (hpositive.call call).2⟩
  · exact book.bids.ordered_keys_toList.imp fun h ↦ greater_eq_lt.mp h
  · exact book.asks.ordered_keys_toList.imp fun h ↦ less_eq_lt.mp h

end OrderBook

end ArbitrageEngine.Core
