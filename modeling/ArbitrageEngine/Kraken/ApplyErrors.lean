import ArbitrageEngine.Kraken.BookAgreement
import ArbitrageEngine.Kraken.ChecksumOrder

/-!
# When a book message cannot be applied

`KrakenBookProcessor::apply` of `src/adapters/kraken/kraken_book_processor.cpp` catches what
its checks throw. Carrying what the parser has already checked through the staged book
leaves two of them that a message can fail.
-/

namespace ArbitrageEngine.Kraken

open Base Base.TreeMap Std ArbitrageEngine.Core

/-! ### What the parser has checked -/

/-- A level of the parser passes the checks of the checksum book. -/
theorem check_parseLevel {type : KrakenBookMessageType} {side : Side} {l : Json.Value}
    {c : KrakenLevelChange} (hside : side = .bid ∨ side = .ask)
    (h : parseLevel type side l = .ok c) :
    c.check = .ok () ∧ (type = .snapshot → c.quantity.raw ≠ 0) := by
  unfold parseLevel at h
  obtain ⟨priceValue, -, h⟩ := bind_ok h
  obtain ⟨p, -, h⟩ := bind_ok h
  obtain ⟨quantityValue, -, h⟩ := bind_ok h
  obtain ⟨q, -, h⟩ := bind_ok h
  obtain ⟨priceText, hpt, h⟩ := bind_ok h
  obtain ⟨price, hp, h⟩ := bind_ok h
  obtain ⟨quantityText, hqt, h⟩ := bind_ok h
  obtain ⟨quantity, hq, h⟩ := bind_ok h
  obtain ⟨hz, h⟩ := check_ok h
  cases h
  simp only [Bool.or_eq_true, Bool.and_eq_true, decide_eq_true_eq, not_or, not_and] at hz
  refine ⟨?_, hz.2⟩
  have hnamed : ((side ≠ .bid && side ≠ .ask) || price.raw = 0 : Bool) = false := by
    obtain rfl | rfl := hside <;> simp [hz.1]
  unfold KrakenLevelChange.check
  simp only [hpt, hqt, hnamed, Bool.false_eq_true, ↓reduceIte]
  show (parsePrice priceText 2 >>= _) = _
  rw [hp]
  show (if price ≠ price then _ else _) = _
  rw [if_neg (by simp)]
  show (parseQuantity quantityText 8 >>= _) = _
  rw [hq]
  show (if quantity ≠ quantity then _ else _) = _
  rw [if_neg (by simp)]
  rfl

private theorem forall_mapM {α β : Type} {f : α → Except Failure β} {P : β → Prop}
    (hf : ∀ a b, f a = .ok b → P b) {items : List α} {results : List β}
    (h : items.mapM f = .ok results) : ∀ b ∈ results, P b := by
  induction items generalizing results with
  | nil =>
    rw [List.mapM_nil] at h
    cases h
    simp
  | cons a rest ih =>
    rw [List.mapM_cons] at h
    obtain ⟨b, hb, h⟩ := bind_ok h
    obtain ⟨tail, ht, h⟩ := bind_ok h
    cases h
    exact List.forall_mem_cons.mpr ⟨hf a b hb, ih ht⟩

private theorem check_parseSide {type : KrakenBookMessageType} {b : Json.Value} {side : Side}
    {key : Bytes} {changes : List KrakenLevelChange} (hside : side = .bid ∨ side = .ask)
    (h : parseSide type b side key = .ok changes) :
    ∀ c ∈ changes, c.check = .ok () ∧ (type = .snapshot → c.quantity.raw ≠ 0) := by
  unfold parseSide at h
  split at h
  · cases h
    simp
  · obtain ⟨value, -, h⟩ := bind_ok h
    obtain ⟨items, -, h⟩ := bind_ok h
    exact forall_mapM (fun _ _ ↦ check_parseLevel hside) h

/-- What a parsed book message passes of the checks in `apply`. -/
structure KrakenBookMessage.Checked (m : KrakenBookMessage) : Prop where
  instrument : m.instrument = .btcUsd
  levels : ∀ c ∈ m.changes, c.check = .ok () ∧ (m.type = .snapshot → c.quantity.raw ≠ 0)

private theorem mapSymbol_ok {symbol : Bytes} {instrument : Instrument}
    (h : mapSymbol symbol = .ok instrument) : instrument = .btcUsd := by
  unfold mapSymbol at h
  split at h
  · cases h
  · cases h
    rfl

private theorem checked_parseBook {j : Json.Value} {wall : ReceiveWallTimestamp}
    {mono : ReceiveMonotonicTimestamp} {m : KrakenBookMessage}
    (h : parseBook j wall mono = .ok (.book m)) : m.Checked := by
  unfold parseBook at h
  obtain ⟨typeValue, -, h⟩ := bind_ok h
  obtain ⟨text, -, h⟩ := bind_ok h
  obtain ⟨-, h⟩ := check_ok h
  obtain ⟨data, -, h⟩ := bind_ok h
  split at h
  · next b =>
    obtain ⟨checksumValue, -, h⟩ := bind_ok h
    obtain ⟨crc, -, h⟩ := bind_ok h
    obtain ⟨symbolValue, -, h⟩ := bind_ok h
    obtain ⟨symbol, -, h⟩ := bind_ok h
    obtain ⟨instrument, hinstrument, h⟩ := bind_ok h
    obtain ⟨timeValue, -, h⟩ := bind_ok h
    obtain ⟨timeText, -, h⟩ := bind_ok h
    obtain ⟨exchangeTime, -, h⟩ := bind_ok h
    obtain ⟨bids, hbids, h⟩ := bind_ok h
    obtain ⟨asks, hasks, h⟩ := bind_ok h
    cases h
    constructor
    · exact mapSymbol_ok hinstrument
    · intro c hc
      obtain hc | hc := List.mem_append.mp hc
      · exact check_parseSide (.inl rfl) hbids c hc
      · exact check_parseSide (.inr rfl) hasks c hc
  · cases h

private theorem checked_parse {raw : Bytes} {wall : ReceiveWallTimestamp}
    {mono : ReceiveMonotonicTimestamp} {m : KrakenBookMessage}
    (h : parse raw wall mono = .book m) : m.Checked := by
  have hm : parseMessage raw wall mono = .ok (.book m) := by
    unfold parse at h
    split at h
    · next hr => rw [hr, h]
    · cases h
  unfold parseMessage at hm
  obtain ⟨j, -, hm⟩ := bind_ok hm
  obtain ⟨-, hm⟩ := check_ok hm
  obtain ⟨method, -, hm⟩ := bind_ok hm
  split at hm
  · unfold parseSubscription at hm
    obtain ⟨success, -, hm⟩ := bind_ok hm
    obtain ⟨ok, -, hm⟩ := bind_ok hm
    split at hm
    · obtain ⟨_, -, hm⟩ := bind_ok hm
      obtain ⟨_, -, hm⟩ := bind_ok hm
      obtain ⟨-, hm⟩ := check_ok hm
      obtain ⟨_, -, hm⟩ := bind_ok hm
      obtain ⟨_, -, hm⟩ := bind_ok hm
      obtain ⟨-, hm⟩ := check_ok hm
      cases hm
    · obtain ⟨_, -, hm⟩ := bind_ok hm
      cases hm
  · obtain ⟨channelValue, -, hm⟩ := bind_ok hm
    obtain ⟨channel, -, hm⟩ := bind_ok hm
    split at hm
    · cases hm
    · split at hm
      · cases hm
      · exact checked_parseBook hm

/-! ### What the staged book keeps of it -/

namespace KrakenChecksumBook

/-- Every level is a change that passed the check of `apply`. -/
structure Checked (book : KrakenChecksumBook) : Prop where
  bids : ∀ (price : PriceTicks) (c : KrakenLevelChange), book.bids[price]? = some c →
    c.check = .ok ()
  asks : ∀ (price : PriceTicks) (c : KrakenLevelChange), book.asks[price]? = some c →
    c.check = .ok ()

private theorem checked_empty : empty.Checked := by
  constructor <;> intro price c h <;> simp [empty] at h

private theorem check_updateLevels {cmp : PriceTicks → PriceTicks → Ordering} [TransCmp cmp]
    {levels : KrakenLevels cmp} {c : KrakenLevelChange}
    (h : ∀ (price : PriceTicks) (d : KrakenLevelChange), levels[price]? = some d →
      d.check = .ok ()) (hc : c.check = .ok ()) {price : PriceTicks} {d : KrakenLevelChange}
    (hd : (updateLevels levels c)[price]? = some d) : d.check = .ok () := by
  unfold updateLevels at hd
  split at hd
  · rw [ExtTreeMap.getElem?_erase] at hd
    split at hd
    · cases hd
    · exact h price d hd
  · rw [ExtTreeMap.getElem?_insert] at hd
    split at hd
    · cases hd
      exact hc
    · exact h price d hd

private theorem Checked.write {book : KrakenChecksumBook} {c : KrakenLevelChange} (h : book.Checked)
    (hc : c.check = .ok ()) : (book.write c).Checked := by
  unfold KrakenChecksumBook.write
  cases c.side with
  | bid => exact ⟨fun _ _ hd ↦ check_updateLevels h.bids hc hd, h.asks⟩
  | ask | other _ => exact ⟨h.bids, fun _ _ hd ↦ check_updateLevels h.asks hc hd⟩

private theorem Checked.truncate {book : KrakenChecksumBook} (h : book.Checked) (depth : Nat) :
    (book.truncate depth).Checked :=
  ⟨fun price c hc ↦ h.bids price c (getElem?_of_trim hc),
    fun price c hc ↦ h.asks price c (getElem?_of_trim hc)⟩

private theorem Checked.foldl {book : KrakenChecksumBook} {changes : List KrakenLevelChange}
    (h : book.Checked) (hc : ∀ c ∈ changes, c.check = .ok ()) :
    (changes.foldl KrakenChecksumBook.write book).Checked := by
  induction changes generalizing book with
  | nil => exact h
  | cons c rest ih =>
    rw [List.forall_mem_cons] at hc
    exact ih (h.write hc.1) hc.2

/-- The updates of a message are applied exactly when each passes its check. -/
theorem foldlM_apply_ok_iff {changes : List KrakenLevelChange} {book next : KrakenChecksumBook} :
    changes.foldlM apply book = .ok next ↔
      (∀ c ∈ changes, c.check = .ok ()) ∧ next = changes.foldl write book := by
  induction changes generalizing book with
  | nil =>
    rw [List.foldlM_nil]
    constructor
    · intro h
      cases h
      exact ⟨by simp, rfl⟩
    · rintro ⟨-, rfl⟩
      rfl
  | cons c rest ih =>
    rw [List.foldlM_cons, List.forall_mem_cons, List.foldl_cons]
    constructor
    · intro h
      obtain ⟨mid, hm, h⟩ := bind_ok h
      rw [apply] at hm
      obtain ⟨u, hu, hm⟩ := bind_ok hm
      cases hm
      obtain ⟨hrest, he⟩ := ih.mp h
      exact ⟨⟨hu, hrest⟩, he⟩
    · rintro ⟨⟨hu, hrest⟩, he⟩
      rw [apply, hu]
      exact ih.mpr ⟨hrest, he⟩

private theorem isOk_checksumText {c : KrakenLevelChange} (h : c.check = .ok ()) :
    ∃ text, c.checksumText = .ok text := by
  unfold KrakenLevelChange.check at h
  obtain ⟨-, h⟩ := check_ok h
  obtain ⟨priceText, hpt, h⟩ := bind_ok h
  obtain ⟨price, -, h⟩ := bind_ok h
  obtain ⟨-, h⟩ := check_ok h
  obtain ⟨quantityText, hqt, -⟩ := bind_ok h
  unfold KrakenLevelChange.checksumText checksumDigits
  rw [hpt, hqt]
  exact ⟨_, rfl⟩

private theorem topTen_ok {cmp : PriceTicks → PriceTicks → Ordering} [TransCmp cmp]
    [LawfulEqCmp cmp] {levels : KrakenLevels cmp}
    (h : ∀ (price : PriceTicks) (c : KrakenLevelChange), levels[price]? = some c →
      c.check = .ok ()) : ∃ text, topTen levels = .ok text := by
  have hall : ∀ e ∈ levels.toList.take 10, e.2.check = .ok () := by
    intro e he
    apply h e.1 e.2
    exact ExtTreeMap.mem_toList_iff_getElem?_eq_some.mp (List.mem_of_mem_take he)
  have hmap (entries : List (PriceTicks × KrakenLevelChange))
      (he : ∀ e ∈ entries, e.2.check = .ok ()) :
      ∃ texts, (entries.mapM fun e ↦ e.2.checksumText) = .ok texts := by
    induction entries with
    | nil => exact ⟨[], rfl⟩
    | cons e rest ih =>
      rw [List.forall_mem_cons] at he
      obtain ⟨text, ht⟩ := isOk_checksumText he.1
      obtain ⟨texts, hts⟩ := ih he.2
      refine ⟨text :: texts, ?_⟩
      rw [List.mapM_cons, hts]
      rw [ht]
      rfl
  obtain ⟨texts, ht⟩ := hmap _ hall
  refine ⟨texts.flatten, ?_⟩
  change ((levels.toList.take 10).mapM (fun e ↦ e.2.checksumText) >>= _) = _
  rw [ht]
  rfl

/-- The checksum of a checked book is computed. -/
theorem Checked.checksum_ok {book : KrakenChecksumBook} (h : book.Checked) (crc : Bytes → UInt32) :
    ∃ sum, book.checksum crc = .ok sum := by
  obtain ⟨asks, ha⟩ := topTen_ok h.asks
  obtain ⟨bids, hb⟩ := topTen_ok h.bids
  refine ⟨crc (asks ++ bids), ?_⟩
  rw [checksum, ha, hb]
  rfl

/-- Both sides have levels, and the best bid is no lower than the best ask. -/
def Crossed (book : KrakenChecksumBook) : Prop :=
  ∃ bid ask, book.bids.toList.head? = some bid ∧ book.asks.toList.head? = some ask ∧
    ask.1.raw ≤ bid.1.raw

end KrakenChecksumBook

namespace KrakenBookProcessor

variable {crc : Bytes → UInt32}

private theorem Step.checked {p p' : KrakenBookProcessor} {n : Note} (h : p.Step crc n p')
    (hp : p.checksumBook.Checked) : p'.checksumBook.Checked := by
  cases h with
  | @accepted m _ hi =>
    have hs := hi.staged
    unfold stage at hs
    obtain ⟨-, hs⟩ := check_ok hs
    cases ht : m.type with
    | snapshot =>
      rw [ht] at hs
      obtain ⟨full, hf, hs⟩ := bind_ok hs
      obtain ⟨hadmitted, -, rfl⟩ := KrakenChecksumBook.replaceSnapshot_ok_iff.mp hf
      have hnext : p'.checksumBook = _ := (Except.ok.inj hs).symm
      rw [hnext]
      exact (KrakenChecksumBook.checked_empty.foldl fun c hc ↦ (hadmitted c hc).2).truncate _
    | update =>
      rw [ht] at hs
      obtain ⟨full, hf, hs⟩ := bind_ok hs
      obtain ⟨hchecked, rfl⟩ := KrakenChecksumBook.foldlM_apply_ok_iff.mp hf
      have hnext : p'.checksumBook = _ := (Except.ok.inj hs).symm
      rw [hnext]
      exact (hp.foldl hchecked).truncate _
  | unusable hn hf hb hv _ => rwa [hf.checksumBook]
  | neutral hf hb => rwa [hf.checksumBook]

private theorem run_checked (crc : Bytes → UInt32) {depth : Nat} {p₀ : KrakenBookProcessor}
    (hc : create depth = .ok p₀) (calls : List Call) :
    (p₀.run crc calls).checksumBook.Checked := by
  apply run_invariant (I := fun p _ ↦ p.checksumBook.Checked)
  · unfold create at hc
    split at hc
    · cases hc
      exact KrakenChecksumBook.checked_empty
    · cases hc
  · intro p log n p' hstep hp
    exact hstep.checked hp

/-! ### The checks that are left -/

/-- A parsed message is staged, unless a snapshot names a level twice. -/
theorem stage_of_checked {p : KrakenBookProcessor} {m : KrakenBookMessage} (hm : m.Checked)
    (hp : p.checksumBook.Checked) :
    if m.type = .snapshot ∧ ¬(m.changes.map KrakenLevelChange.key).Nodup then
      ∃ failure, p.stage m = .error failure
    else ∃ next, p.stage m = .ok next ∧ next.Checked := by
  have hstage (staged : Except Failure KrakenChecksumBook)
      (hs : (if m.type = .snapshot then KrakenChecksumBook.replaceSnapshot m.changes
        else m.changes.foldlM KrakenChecksumBook.apply p.checksumBook) = staged) :
      p.stage m = (staged >>= fun next ↦ .ok (next.truncate p.depth)) := by
    rw [stage, ← hs, if_neg (by simp [hm.instrument])]
    cases m.type <;> rfl
  cases ht : m.type with
  | snapshot =>
    rw [ht, if_pos rfl] at hstage
    split
    · next hd =>
      cases hr : KrakenChecksumBook.replaceSnapshot m.changes with
      | ok next => exact absurd (KrakenChecksumBook.replaceSnapshot_ok_iff.mp hr).2.1 hd.2
      | error failure => exact ⟨failure, hstage _ hr⟩
    · next hd =>
      simp only [true_and, not_not] at hd
      have hr := KrakenChecksumBook.replaceSnapshot_ok_iff.mpr
        ⟨fun c hc ↦ ⟨(hm.levels c hc).2 ht, (hm.levels c hc).1⟩, hd, rfl⟩
      refine ⟨_, hstage _ hr, ?_⟩
      exact (KrakenChecksumBook.checked_empty.foldl fun c hc ↦ (hm.levels c hc).1).truncate _
  | update =>
    rw [ht, if_neg (by decide)] at hstage
    rw [if_neg (by simp)]
    have hr := KrakenChecksumBook.foldlM_apply_ok_iff.mpr
      ⟨fun c hc ↦ (hm.levels c hc).1, (rfl : _ = m.changes.foldl _ p.checksumBook)⟩
    exact ⟨_, hstage _ hr, (hp.foldl fun c hc ↦ (hm.levels c hc).1).truncate _⟩

/-- The canonical book of a sound staged book is refused exactly when it is crossed. -/
theorem candidate_error_iff {next : KrakenChecksumBook} (h : next.Sound) (m : KrakenBookMessage) :
    (∃ failure, candidate next m = .error failure) ↔ next.Crossed := by
  have hcheck : (OrderBook.hasTwoSidedMarket ⟨.kraken, m.instrument, .valid, next.sides.1,
      next.sides.2, none⟩ && bestCrossed ⟨.kraken, m.instrument, .valid, next.sides.1,
      next.sides.2, none⟩) = true ↔ next.Crossed := by
    simp only [OrderBook.hasTwoSidedMarket, bestCrossed, OrderBook.bestBid, OrderBook.bestAsk,
      KrakenChecksumBook.Crossed, KrakenChecksumBook.sides, toList_quantities,
      ← ExtTreeMap.isEmpty_toList]
    cases next.bids.toList with
    | nil => simp
    | cons bid bids =>
      cases next.asks.toList with
      | nil => simp
      | cons ask asks => simp
  unfold candidate
  simp only [applySnapshot_canonical h]
  constructor
  · rintro ⟨failure, he⟩
    by_contra hn
    rw [← hcheck] at hn
    rw [Bool.not_eq_true] at hn
    rw [hn] at he
    cases he
  · intro hc
    rw [← hcheck] at hc
    rw [hc]
    exact ⟨_, rfl⟩

/-- The ways into the handler of `apply`. -/
theorem apply_applyError_iff (p : KrakenBookProcessor) (m : KrakenBookMessage) :
    (p.apply crc m).1.outcome = some .applyError ↔
      (m.type = .snapshot ∨ p.book.state = .valid) ∧
        ((∃ failure, p.stage m = .error failure) ∨
          ∃ next, p.stage m = .ok next ∧
            ((∃ failure, next.checksum crc = .error failure) ∨
              (next.checksum crc = .ok m.checksum ∧
                ∃ failure, candidate next m = .error failure))) := by
  have hstage : (p.countBook m.type).stage m = p.stage m := by
    cases m.type <;> rfl
  have hstate : (p.countBook m.type).book.state = p.book.state := by
    cases m.type <;> rfl
  have hawaited : (decide (m.type = .update) && decide ((p.countBook m.type).book.state ≠ .valid))
      = true ↔ ¬(m.type = .snapshot ∨ p.book.state = .valid) := by
    rw [hstate]
    cases m.type <;> simp
  unfold apply
  simp only [hstage]
  split
  · next hw => simp [hawaited.mp hw]
  · next hw =>
    rw [hawaited, not_not] at hw
    simp only [hw, true_and]
    cases p.stage m with
    | error failure => simp [applyError]
    | ok next =>
      simp only [Except.ok.injEq, exists_eq_left', reduceCtorEq, exists_false, false_or]
      cases next.checksum crc with
      | error failure => simp [applyError]
      | ok sum =>
        simp only [reduceCtorEq, exists_false, false_or, Except.ok.injEq]
        unfold verify
        by_cases hsum : sum = m.checksum
        · simp only [hsum, ne_eq, not_true_eq_false, ↓reduceIte, true_and]
          cases candidate next m with
          | error failure => simp [applyError]
          | ok book =>
            simp only [install]
            cases m.type <;> simp
        · simp [hsum, checksumMismatch]

/-- A message ends in `ApplyError` exactly when it is an awaited book message that names a level
of a snapshot twice, or is staged to a crossed book of the stated checksum. The other checks
on the way never fail on what the parser returns. -/
theorem process_applyError_iff (crc : Bytes → UInt32) {depth : Nat} {p₀ : KrakenBookProcessor}
    (hc : create depth = .ok p₀) (calls : List Call) (raw : Bytes) (wall : ReceiveWallTimestamp)
    (mono : ReceiveMonotonicTimestamp) :
    let p := p₀.run crc calls
    ((p.process crc raw wall mono).1.outcome = some .applyError ↔
      ∃ m, parse raw wall mono = .book m ∧ (m.type = .snapshot ∨ p.book.state = .valid) ∧
        ((m.type = .snapshot ∧ ¬(m.changes.map KrakenLevelChange.key).Nodup) ∨
          ∃ next, p.stage m = .ok next ∧ next.checksum crc = .ok m.checksum ∧ next.Crossed)) ∧
    ∀ m, parse raw wall mono = .book m →
      (∀ c ∈ m.changes, c.check = .ok () ∧ (m.type = .snapshot → c.quantity.raw ≠ 0)) ∧
      ∀ next, p.stage m = .ok next →
        ((OrderBook.create .kraken m.instrument).applySnapshot (canonicalSnapshot next m)).2 =
          true := by
  intro p
  have hsound : p.checksumBook.Sound := (run_agrees crc hc calls).2.1.sound
  have hchecked : p.checksumBook.Checked := run_checked crc hc calls
  constructor
  · cases hparse : parse raw wall mono with
    | book m =>
      have hprocess : (p.process crc raw wall mono).1 = ((p.receive mono).apply crc m).1 := by
        rw [process, hparse]
        rfl
      have hstage := stage_of_checked (checked_parse hparse) hchecked
      rw [hprocess, apply_applyError_iff]
      show (m.type = .snapshot ∨ p.book.state = .valid) ∧
        ((∃ failure, p.stage m = .error failure) ∨ _) ↔ _
      simp only [ParseResult.book.injEq, exists_eq_left']
      apply and_congr_right
      intro hawaited
      split at hstage
      · next hd =>
        obtain ⟨failure, hf⟩ := hstage
        exact iff_of_true (.inl ⟨failure, hf⟩) (.inl hd)
      · next hd =>
        obtain ⟨next, hn, hnc⟩ := hstage
        obtain ⟨sum, hsum⟩ := hnc.checksum_ok crc
        have hcand := candidate_error_iff (sound_of_stage hsound hn) m
        have hstaged : (p.receive mono).stage m = .ok next := hn
        simp only [hd, hstaged, hn, hsum, hcand, Except.ok.injEq, exists_eq_left', reduceCtorEq,
          exists_false, false_or]
    | heartbeat | subscriptionSuccess | ignored | subscriptionFailure _ | error _ =>
      rw [process, hparse]
      simp [dispatch]
  · intro m hparse
    refine ⟨(checked_parse hparse).levels, ?_⟩
    intro next hn
    rw [applySnapshot_canonical (sound_of_stage hsound hn)]

/-- A snapshot whose bid reaches the ask. -/
def lockedSnapshot : Bytes :=
  ascii "\x7b\"channel\":\"book\",\"type\":\"snapshot\",\"data\":[\x7b\"symbol\":\"BTC/USD\"," ++
  ascii "\"bids\":[\x7b\"price\":100.10,\"qty\":0.50\x7d]," ++
  ascii "\"asks\":[\x7b\"price\":1.001e2,\"qty\":2\x7d]," ++
  ascii "\"checksum\":154758194,\"timestamp\":\"2024-01-01T00:00:00Z\"\x7d]\x7d"

/-- The locked snapshot is refused in the first state although its checksum matches. -/
theorem process_applyError_iff_locked :
    ∃ p₀, create 10 = .ok p₀ ∧
      (p₀.process Crc.crc32 lockedSnapshot ⟨0⟩ ⟨0⟩).1.outcome = some .applyError ∧
      ∃ m next, parse lockedSnapshot ⟨0⟩ ⟨0⟩ = .book m ∧ p₀.stage m = .ok next ∧
        next.Crossed := by
  have hc : create 10 = .ok _ := rfl
  refine ⟨_, hc, by decide +kernel, ?_⟩
  have h := (process_applyError_iff Crc.crc32 hc [] lockedSnapshot ⟨0⟩ ⟨0⟩).1.mp
    (by decide +kernel)
  obtain ⟨m, hm, -, ⟨-, hd⟩ | ⟨next, hs, -, hcross⟩⟩ := h
  · have hnodup : ((Call.process lockedSnapshot ⟨0⟩ ⟨0⟩).message.all fun m ↦
        decide (m.changes.map KrakenLevelChange.key).Nodup) = true := by
      decide +kernel
    rw [Call.message, hm] at hnodup
    exact absurd (of_decide_eq_true hnodup) hd
  · exact ⟨m, next, hm, hs, hcross⟩

end KrakenBookProcessor

end ArbitrageEngine.Kraken
