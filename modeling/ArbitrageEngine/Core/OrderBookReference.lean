import ArbitrageEngine.Core.OrderBook

/-!
# Order book application against the plain reference

The reference applies every change directly to the levels. `apply(span)` stages the
changes of all updates of an envelope, zero quantities included, and commits once; both
give the same book and the same answer.
-/

namespace ArbitrageEngine.Core

open Base Base.TreeMap Std

/-! ### Plain application -/

/-- Both sides of a book. -/
abbrev Sides := BidLevels × AskLevels

section Levels

variable {cmp : PriceTicks → PriceTicks → Ordering} [TransCmp cmp] [LawfulEqCmp cmp]

/-- A positive quantity inserts or overwrites, zero erases. -/
def setLevel (levels : Levels cmp) (price : PriceTicks) (quantity : QuantityAtoms) : Levels cmp :=
  if quantity.raw = 0 then levels.erase price else levels.insert price quantity

/-- What a written quantity leaves behind at its price. -/
def residue (quantity : QuantityAtoms) : Option QuantityAtoms :=
  if quantity.raw = 0 then none else some quantity

omit [LawfulEqCmp cmp] in
/-- The levels of a side after one of them was set. -/
theorem getElem?_setLevel (levels : Levels cmp) (price : PriceTicks) (quantity : QuantityAtoms)
    (key : PriceTicks) :
    (setLevel levels price quantity)[key]? =
      if cmp price key = .eq then residue quantity else levels[key]? := by
  unfold setLevel residue
  split
  · exact ExtTreeMap.getElem?_erase
  · exact ExtTreeMap.getElem?_insert

private theorem writes_commitNode :
    Writes (fun levels : Levels cmp ↦ commitNode levels) residue := by
  intro levels node key
  cases hf : levels[node.1]? with
  | some old =>
    simp only [commitNode, hf]
    exact getElem?_setLevel levels node.1 node.2 key
  | none =>
    simp only [commitNode, hf, residue]
    by_cases hk : cmp node.1 key = .eq
    · have heq : node.1 = key := LawfulEqCmp.compare_eq_iff_eq.mp hk
      subst heq
      split
      · simp [hf]
      · have habsent : ¬node.1 ∈ levels := by
          rw [← ExtTreeMap.isSome_getElem?_iff_mem, hf]
          exact Bool.false_ne_true
        rw [ExtTreeMap.getElem?_insertIfNew, if_pos ⟨hk, habsent⟩]
    · split <;> simp [ExtTreeMap.getElem?_insertIfNew, hk]

private theorem getElem?_commitChanges (levels changes : Levels cmp) (key : PriceTicks) :
    (commitChanges levels changes)[key]? = changes[key]?.elim levels[key]? residue :=
  getElem?_foldl_toList writes_commitNode changes levels key

@[simp]
private theorem commitChanges_empty (levels : Levels cmp) : commitChanges levels ∅ = levels := by
  apply ExtTreeMap.ext_getElem?
  intro key
  simp [getElem?_commitChanges]

/-- Staging one more change is setting its level after the commit. -/
theorem commitChanges_insert (levels changes : Levels cmp) (price : PriceTicks)
    (quantity : QuantityAtoms) :
    commitChanges levels (changes.insert price quantity) =
      setLevel (commitChanges levels changes) price quantity := by
  apply ExtTreeMap.ext_getElem?
  intro key
  rw [getElem?_commitChanges, getElem?_setLevel, getElem?_commitChanges,
    ExtTreeMap.getElem?_insert]
  by_cases hk : cmp price key = .eq
  · simp only [hk, ↓reduceIte, Option.elim_some]
  · simp only [hk, ↓reduceIte]

end Levels

/-- One change, directly on the levels of its side. -/
def applyChange (sides : Sides) (change : BookLevel) : Sides :=
  match change.side with
  | .bid => (setLevel sides.1 change.price change.quantity, sides.2)
  | .ask => (sides.1, setLevel sides.2 change.price change.quantity)
  | .other _ => sides

namespace OrderBook

/-- The plain application of an update: its changes one by one, on a copy. -/
def referenceUpdate (book : OrderBook) (update : BookUpdate) : Option OrderBook :=
  if book.state ≠ .valid ∨ update.venue ≠ book.venue ∨ update.instrument ≠ book.instrument then none
  else
    (update.changes.foldlM (fun sides change ↦
      if validLevel change false then some (applyChange sides change) else none)
      (book.bids, book.asks)).map fun sides ↦
        { book with bids := sides.1, asks := sides.2, lastSequence := update.sequence }

/-- The plain application of a snapshot: positive levels, no side and price twice. -/
def referenceSnapshot (book : OrderBook) (snapshot : BookSnapshot) : Option OrderBook :=
  if snapshot.venue ≠ book.venue ∨ snapshot.instrument ≠ book.instrument then none
  else if (∀ level ∈ snapshot.levels, validLevel level true = true) ∧
      (snapshot.levels.map fun level ↦ (level.side, level.price)).Nodup then
    some { book with
      bids := (snapshot.levels.foldl applyChange (∅, ∅)).1
      asks := (snapshot.levels.foldl applyChange (∅, ∅)).2
      lastSequence := snapshot.sequence
      state := .valid }
  else none

/-- The plain application of one event, `none` when it is rejected. -/
def referenceEvent (book : OrderBook) : MarketEvent → Option OrderBook
  | .snapshot event => book.referenceSnapshot event
  | .update event => book.referenceUpdate event

/-- The plain application of an event list: all on a copy, installed only when all pass. -/
def referenceApply (book : OrderBook) (events : List MarketEvent) : OrderBook × Bool :=
  match events.foldlM referenceEvent book with
  | some copy => (copy, true)
  | none => (book, false)

end OrderBook

/-! ### Snapshots -/

/-- The side of the level already has its price. -/
def Occupied (sides : Sides) (level : BookLevel) : Prop :=
  match level.side with
  | .bid => level.price ∈ sides.1
  | .ask => level.price ∈ sides.2
  | .other _ => False

instance (sides : Sides) (level : BookLevel) : Decidable (Occupied sides level) := by
  unfold Occupied
  split <;> infer_instance

/-- A valid level is on one of the two sides. -/
theorem validLevel_side {level : BookLevel} {snapshot : Bool}
    (h : validLevel level snapshot = true) : level.side = .bid ∨ level.side = .ask := by
  simp only [validLevel, Bool.and_eq_true, Bool.or_eq_true, decide_eq_true_eq] at h
  exact h.1.1

/-- A valid level of a snapshot has a quantity. -/
theorem validLevel_quantity_ne_zero {level : BookLevel} (h : validLevel level true = true) :
    level.quantity.raw ≠ 0 := by
  simp only [validLevel, ↓reduceIte, Bool.and_eq_true, decide_eq_true_eq] at h
  omega

private theorem occupied_applyChange {sides : Sides} {level other : BookLevel}
    (h : validLevel level true = true) :
    Occupied (applyChange sides level) other ↔
      (level.side, level.price) = (other.side, other.price) ∨ Occupied sides other := by
  have hq := validLevel_quantity_ne_zero h
  rcases validLevel_side h with hl | hl <;> cases ho : other.side <;>
    simp [Occupied, applyChange, hl, ho, setLevel, hq, ExtTreeMap.mem_insert]

private theorem snapshotLevels_cons (level : BookLevel) (rest : List BookLevel) (sides : Sides) :
    OrderBook.snapshotLevels (level :: rest) sides =
      if validLevel level true = true ∧ ¬Occupied sides level then
        OrderBook.snapshotLevels rest (applyChange sides level)
      else none := by
  obtain ⟨bids, asks⟩ := sides
  rw [OrderBook.snapshotLevels]
  by_cases hv : validLevel level true = true
  · have hq := validLevel_quantity_ne_zero hv
    rcases validLevel_side hv with hs | hs
    · by_cases ho : level.price ∈ bids
      · simp [hv, Occupied, hs, ho]
      · simp [hv, Occupied, applyChange, setLevel, hs, hq, ho, insertIfNew_of_not_mem]
    · by_cases ho : level.price ∈ asks
      · simp [hv, Occupied, hs, ho]
      · simp [hv, Occupied, applyChange, setLevel, hs, hq, ho, insertIfNew_of_not_mem]
  · simp [hv]

/-- The snapshot loop passes exactly positive levels on free, pairwise different prices. -/
theorem snapshotLevels_eq (levels : List BookLevel) (sides : Sides) :
    OrderBook.snapshotLevels levels sides =
      if (∀ level ∈ levels, validLevel level true = true) ∧
          (levels.map fun level ↦ (level.side, level.price)).Nodup ∧
          ∀ level ∈ levels, ¬Occupied sides level then
        some (levels.foldl applyChange sides)
      else none := by
  induction levels generalizing sides with
  | nil => simp [OrderBook.snapshotLevels]
  | cons level rest ih =>
    rw [snapshotLevels_cons, List.foldl_cons]
    by_cases hl : validLevel level true = true ∧ ¬Occupied sides level
    · rw [if_pos hl, ih]
      have hiff : ((∀ l ∈ rest, validLevel l true = true) ∧
            (rest.map fun l ↦ (l.side, l.price)).Nodup ∧
            ∀ l ∈ rest, ¬Occupied (applyChange sides level) l) ↔
          (∀ l ∈ level :: rest, validLevel l true = true) ∧
            ((level :: rest).map fun l ↦ (l.side, l.price)).Nodup ∧
            ∀ l ∈ level :: rest, ¬Occupied sides l := by
        simp only [occupied_applyChange hl.1, List.forall_mem_cons, List.map_cons,
          List.nodup_cons, List.mem_map, hl, not_or, true_and, not_false_eq_true]
        constructor
        · rintro ⟨hv, hn, ho⟩
          exact ⟨hv, ⟨fun ⟨l, hm, he⟩ ↦ (ho l hm).1 he.symm, hn⟩, fun l hm ↦ (ho l hm).2⟩
        · rintro ⟨hv, ⟨hd, hn⟩, ho⟩
          exact ⟨hv, hn, fun l hm ↦ ⟨fun he ↦ hd ⟨l, hm, he.symm⟩, ho l hm⟩⟩
      simp only [hiff]
    · rw [if_neg hl, if_neg]
      rintro ⟨hv, _, ho⟩
      exact hl ⟨hv level (by simp), ho level (by simp)⟩

/-! ### Staging -/

/-- The levels after both commits. -/
def commitSides (sides staged : Sides) : Sides :=
  (commitChanges sides.1 staged.1, commitChanges sides.2 staged.2)

private theorem stageChanges_commit (sides : Sides) (changes : List BookLevel) (staged : Sides) :
    (stageChanges changes staged).map (commitSides sides) =
      changes.foldlM (fun sides change ↦
        if validLevel change false then some (applyChange sides change) else none)
        (commitSides sides staged) := by
  induction changes generalizing staged with
  | nil => rfl
  | cons change rest ih =>
    rw [stageChanges, List.foldlM_cons]
    by_cases hv : validLevel change false
    · have hstep (next : Sides) (hn : commitSides sides next =
          applyChange (commitSides sides staged) change) :
          (stageChanges rest next).map (commitSides sides) =
            rest.foldlM (fun sides change ↦
              if validLevel change false then some (applyChange sides change) else none)
              (applyChange (commitSides sides staged) change) := by
        rw [ih, hn]
      simp only [hv, ↓reduceIte]
      rcases validLevel_side hv with hs | hs
      · rw [hs]
        exact hstep _ (by simp only [commitSides, applyChange, hs, commitChanges_insert])
      · rw [hs]
        exact hstep _ (by simp only [commitSides, applyChange, hs, commitChanges_insert])
    · simp [hv]

namespace OrderBook

@[simp]
private theorem commit_empty (book : OrderBook) (sequence : Option Nat) :
    book.commit (∅, ∅) sequence = { book with lastSequence := sequence } := by
  simp [commit]

/-- Staging an update on top of others is applying it after their commit. -/
theorem stageUpdate_commit (book : OrderBook) (hv : book.state = .valid) (update : BookUpdate)
    (staged : Sides) (sequence : Option Nat) :
    (stageUpdate update book.venue book.instrument staged).map (book.commit · update.sequence) =
      (book.commit staged sequence).referenceUpdate update := by
  unfold stageUpdate referenceUpdate
  by_cases hm : update.venue ≠ book.venue ∨ update.instrument ≠ book.instrument
  · have hr : (book.commit staged sequence).state ≠ .valid ∨
        update.venue ≠ (book.commit staged sequence).venue ∨
        update.instrument ≠ (book.commit staged sequence).instrument := Or.inr hm
    rw [if_pos hm, if_pos hr]
    rfl
  · have hr : ¬((book.commit staged sequence).state ≠ .valid ∨
        update.venue ≠ (book.commit staged sequence).venue ∨
        update.instrument ≠ (book.commit staged sequence).instrument) := by
      rintro (h | h)
      · exact h hv
      · exact hm h
    rw [if_neg hm, if_neg hr]
    change _ = Option.map _ (List.foldlM _ (commitSides (book.bids, book.asks) staged) _)
    rw [← stageChanges_commit, Option.map_map]
    rfl

private theorem stageUpdates_commit (book : OrderBook) (hv : book.state = .valid)
    (updates : List BookUpdate) (staged : Sides) (sequence : Option Nat) :
    (stageUpdates book.venue book.instrument updates staged).map
        (book.commit · ((updates.getLast?.map (·.sequence)).getD sequence)) =
      updates.foldlM referenceUpdate (book.commit staged sequence) := by
  induction updates generalizing staged sequence with
  | nil => rfl
  | cons update rest ih =>
    rw [stageUpdates, List.foldlM_cons, ← stageUpdate_commit book hv]
    cases hs : stageUpdate update book.venue book.instrument staged with
    | none => rfl
    | some next =>
      have hlast : (((update :: rest).getLast?.map (·.sequence)).getD sequence) =
          (rest.getLast?.map (·.sequence)).getD update.sequence := by
        cases rest with
        | nil => rfl
        | cons second tail => simp [List.getLast?_cons]
      rw [hlast]
      exact ih next update.sequence

/-! ### Agreement -/

/-- `apply` of a snapshot does what its specification says. -/
theorem applySnapshot_eq_reference (book : OrderBook) (snapshot : BookSnapshot) :
    book.applySnapshot snapshot =
      match book.referenceSnapshot snapshot with
      | some next => (next, true)
      | none => (book, false) := by
  unfold applySnapshot referenceSnapshot
  have hfree : ∀ level : BookLevel, ¬Occupied (∅, ∅) level := by
    intro level
    cases hs : level.side <;> simp [Occupied, hs]
  by_cases hm : snapshot.venue ≠ book.venue ∨ snapshot.instrument ≠ book.instrument
  · rw [if_pos hm, if_pos hm]
  · rw [if_neg hm, if_neg hm, snapshotLevels_eq]
    simp only [hfree, not_false_eq_true, implies_true, and_true]
    by_cases hp : (∀ level ∈ snapshot.levels, validLevel level true = true) ∧
        (snapshot.levels.map fun level ↦ (level.side, level.price)).Nodup
    · rw [if_pos hp, if_pos hp]
    · rw [if_neg hp, if_neg hp]

/-- `apply` of an update does what its specification says. -/
theorem applyUpdate_eq_reference (book : OrderBook) (update : BookUpdate) :
    book.applyUpdate update =
      match book.referenceUpdate update with
      | some next => (next, true)
      | none => (book, false) := by
  unfold applyUpdate
  by_cases hv : book.state = .valid
  · have hc := stageUpdate_commit book hv update (∅, ∅) book.lastSequence
    rw [commit_empty] at hc
    change _ = book.referenceUpdate update at hc
    rw [if_neg (by simpa using hv), ← hc]
    cases stageUpdate update book.venue book.instrument (∅, ∅) <;> rfl
  · simp [referenceUpdate, hv]

private theorem applyEvent_eq_reference (book : OrderBook) (event : MarketEvent) :
    book.applyEvent event =
      match book.referenceEvent event with
      | some next => (next, true)
      | none => (book, false) := by
  cases event with
  | update event => exact applyUpdate_eq_reference book event
  | snapshot event => exact applySnapshot_eq_reference book event

private theorem applyStaged_eq_reference (events : List MarketEvent) (staged : OrderBook) :
    applyStaged events staged = events.foldlM referenceEvent staged := by
  induction events generalizing staged with
  | nil => rfl
  | cons event rest ih =>
    rw [applyStaged, applyEvent_eq_reference, List.foldlM_cons]
    cases staged.referenceEvent event with
    | none => rfl
    | some next => exact ih next

private theorem foldlM_referenceEvent_updates (events : List MarketEvent)
    (hu : events.any MarketEvent.isSnapshot = false) (book : OrderBook) :
    events.foldlM referenceEvent book = (updatesOf events).foldlM referenceUpdate book := by
  induction events generalizing book with
  | nil => rfl
  | cons event rest ih =>
    cases event with
    | snapshot event => simp [MarketEvent.isSnapshot] at hu
    | update event =>
      have hrest : rest.any MarketEvent.isSnapshot = false := by
        simpa [MarketEvent.isSnapshot] using hu
      change (book.referenceUpdate event >>= fun next ↦ rest.foldlM referenceEvent next) =
        (book.referenceUpdate event >>= fun next ↦ (updatesOf rest).foldlM referenceUpdate next)
      simp only [ih hrest]

private theorem updatesOf_ne_nil (events : List MarketEvent) (he : events ≠ [])
    (hu : events.any MarketEvent.isSnapshot = false) :
    ∃ event rest, updatesOf events = event :: rest := by
  cases events with
  | nil => exact absurd rfl he
  | cons event rest =>
    cases event with
    | snapshot event => simp [MarketEvent.isSnapshot] at hu
    | update event => exact ⟨event, updatesOf rest, rfl⟩

private theorem last_sequence_updatesOf (events : List MarketEvent) (he : events ≠ [])
    (hu : events.any MarketEvent.isSnapshot = false) (sequence : Option Nat) :
    ((updatesOf events).getLast?.map (·.sequence)).getD sequence =
      (updatesOf events).getLast?.bind (·.sequence) := by
  obtain ⟨event, rest, hcons⟩ := updatesOf_ne_nil events he hu
  rw [hcons, List.getLast?_cons]
  rfl

/-- `apply(span)` installs the copy that all events were applied to, or nothing. -/
theorem applyEvents_eq_foldlM (book : OrderBook) (events : List MarketEvent) :
    book.applyEvents events =
      match events.foldlM referenceEvent book with
      | some copy => (copy, true)
      | none => (book, false) := by
  unfold applyEvents
  by_cases he : events = []
  · subst he
    rfl
  rw [if_neg (by simpa using he)]
  by_cases hs : events.any MarketEvent.isSnapshot = true
  · rw [if_pos hs, applyStaged_eq_reference]
    cases events.foldlM referenceEvent book <;> rfl
  · have hu : events.any MarketEvent.isSnapshot = false := by simpa using hs
    rw [if_neg hs, foldlM_referenceEvent_updates events hu]
    by_cases hv : book.state = .valid
    · have hc := stageUpdates_commit book hv (updatesOf events) (∅, ∅) book.lastSequence
      rw [commit_empty] at hc
      change _ = (updatesOf events).foldlM referenceUpdate book at hc
      rw [if_neg (by simpa using hv), ← hc, last_sequence_updatesOf events he hu book.lastSequence]
      cases stageUpdates book.venue book.instrument (updatesOf events) (∅, ∅) <;> rfl
    · rw [if_pos hv]
      obtain ⟨event, rest, hcons⟩ := updatesOf_ne_nil events he hu
      rw [hcons, List.foldlM_cons, referenceUpdate, if_pos (Or.inl hv)]
      rfl

/-- `apply(span)` is the plain reference for every book and event list; the update-only path,
which commits once, agrees with the loop over a staged copy. -/
theorem applyEvents_eq_reference (book : OrderBook) (events : List MarketEvent) :
    book.applyEvents events = book.referenceApply events ∧
      book.applyEvents events =
        match applyStaged events book with
        | some staged => (staged, true)
        | none => (book, false) := by
  constructor
  · exact applyEvents_eq_foldlM book events
  · rw [applyStaged_eq_reference]
    exact applyEvents_eq_foldlM book events

end OrderBook

end ArbitrageEngine.Core
