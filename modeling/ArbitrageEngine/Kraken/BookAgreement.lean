import ArbitrageEngine.Kraken.ProcessorRuns

/-!
# The checksum book and the canonical book agree

The processor keeps its levels twice, with lexemes for the checksum and canonically for
its readers. In every state that calls can reach the two are the same levels, and a valid
book is one that the exchange has confirmed.
-/

namespace ArbitrageEngine.Kraken

open Base Base.TreeMap Std ArbitrageEngine.Core

namespace KrakenBookProcessor

variable {crc : Bytes → UInt32}

/-! ### Staging and installing -/

/-- The book that a message is staged on. -/
def stagedOn (p : KrakenBookProcessor) : KrakenBookMessageType → KrakenChecksumBook
  | .snapshot => .empty
  | .update => p.checksumBook

/-- A staged book follows the changes of its message and is then truncated. -/
theorem stage_ok {p : KrakenBookProcessor} {m : KrakenBookMessage} {next : KrakenChecksumBook}
    (h : p.stage m = .ok next) :
    ∃ full, (p.stagedOn m.type).Follows m.changes full ∧ next = full.truncate p.depth := by
  unfold stage at h
  obtain ⟨-, h⟩ := check_ok h
  cases ht : m.type with
  | snapshot =>
    rw [ht] at h
    obtain ⟨full, hf, h⟩ := bind_ok h
    cases h
    exact ⟨full, KrakenChecksumBook.follows_of_snapshotLoop hf, rfl⟩
  | update =>
    rw [ht] at h
    obtain ⟨full, hf, h⟩ := bind_ok h
    cases h
    exact ⟨full, KrakenChecksumBook.follows_of_foldlM hf, rfl⟩

/-- A staged book is sound if the book before it is. -/
theorem sound_of_stage {p : KrakenBookProcessor} {m : KrakenBookMessage}
    {next : KrakenChecksumBook} (hp : p.checksumBook.Sound) (h : p.stage m = .ok next) :
    next.Sound := by
  obtain ⟨full, hf, rfl⟩ := stage_ok h
  apply KrakenChecksumBook.Sound.truncate
  apply hf.sound
  cases m.type with
  | snapshot => exact KrakenChecksumBook.sound_empty
  | update => exact hp

private theorem size_of_stage {p : KrakenBookProcessor} {m : KrakenBookMessage}
    {next : KrakenChecksumBook} (h : p.stage m = .ok next) :
    next.bids.size ≤ p.depth ∧ next.asks.size ≤ p.depth := by
  obtain ⟨full, -, rfl⟩ := stage_ok h
  exact ⟨size_trim_le p.depth full.bids, size_trim_le p.depth full.asks⟩

/-- The snapshot of a sound book is taken as it is. -/
theorem applySnapshot_canonical {next : KrakenChecksumBook} (h : next.Sound)
    (m : KrakenBookMessage) :
    (OrderBook.create .kraken m.instrument).applySnapshot (canonicalSnapshot next m) =
      (⟨.kraken, m.instrument, .valid, next.sides.1, next.sides.2, none⟩, true) := by
  unfold OrderBook.applySnapshot
  simp only [canonicalSnapshot, OrderBook.create, ne_eq, not_true_eq_false, or_self, ↓reduceIte,
    h.snapshotLevels]

/-- The best prices do not touch. -/
def Uncrossed (book : OrderBook) : Prop :=
  ∀ bid ask, book.bestBid = some bid → book.bestAsk = some ask → bid.price.raw < ask.price.raw

private theorem uncrossed_of_check {book : OrderBook}
    (h : ¬(book.hasTwoSidedMarket && bestCrossed book) = true) : Uncrossed book := by
  intro bid ask hbid hask
  have htwo : book.hasTwoSidedMarket = true := by
    unfold OrderBook.bestBid at hbid
    unfold OrderBook.bestAsk at hask
    split at hbid
    · cases hbid
    · next hs =>
      rw [if_neg hs] at hask
      rw [ne_eq, not_not] at hs
      obtain ⟨b, hb, -⟩ := Option.map_eq_some_iff.mp hbid
      obtain ⟨a, ha, -⟩ := Option.map_eq_some_iff.mp hask
      have hne {cmp : PriceTicks → PriceTicks → Ordering} [TransCmp cmp] {levels : Levels cmp}
          {e : PriceTicks × QuantityAtoms} (he : levels.toList.head? = some e) :
          levels.isEmpty = false := by
        rw [← ExtTreeMap.isEmpty_toList]
        cases hl : levels.toList with
        | nil =>
          rw [hl] at he
          cases he
        | cons e' rest => rfl
      simp [OrderBook.hasTwoSidedMarket, hs, hne hb, hne ha]
  simp only [htwo, Bool.true_and, bestCrossed, hbid, hask, decide_eq_true_eq] at h
  omega

/-- A candidate has the levels of the staged book, and its sides do not cross. -/
theorem candidate_ok {next : KrakenChecksumBook} {m : KrakenBookMessage} {book : OrderBook}
    (hs : next.Sound) (h : candidate next m = .ok book) :
    book = ⟨.kraken, m.instrument, .valid, next.sides.1, next.sides.2, none⟩ ∧
      Uncrossed book := by
  unfold candidate at h
  simp only [applySnapshot_canonical hs] at h
  obtain ⟨-, h⟩ := check_ok h
  obtain ⟨hc, h⟩ := check_ok h
  cases h
  exact ⟨rfl, uncrossed_of_check hc⟩

/-! ### The invariant -/

/-- The two books hold the same levels, at most `depth` on each side. -/
structure Agrees (p : KrakenBookProcessor) : Prop where
  sound : p.checksumBook.Sound
  bids : p.book.bids = quantities p.checksumBook.bids
  asks : p.book.asks = quantities p.checksumBook.asks
  bids_size : p.checksumBook.bids.size ≤ p.depth
  asks_size : p.checksumBook.asks.size ≤ p.depth

/-- What the exchange has confirmed of a valid book. -/
structure Confirmed (crc : Bytes → UInt32) (p : KrakenBookProcessor) (log : List Note) : Prop where
  computed : p.checksumBook.checksum crc = .ok p.checksum
  last : (log.filterMap Note.message).getLast?.map (·.checksum) = some p.checksum
  uncrossed : Uncrossed p.book

/-- The two books still agree when only the state changes. -/
theorem Frame.agrees {p p' : KrakenBookProcessor} (h : p.Frame p')
    (hb : p'.book = p.book.mark p'.book.state) (hp : p.Agrees) : p'.Agrees := by
  obtain ⟨hsound, hbids, hasks, hbs, has⟩ := hp
  refine ⟨by rwa [h.checksumBook], ?_, ?_, ?_, ?_⟩
  · rw [hb, h.checksumBook]
    exact hbids
  · rw [hb, h.checksumBook]
    exact hasks
  · rwa [h.checksumBook, h.depth]
  · rwa [h.checksumBook, h.depth]

/-- The two books agree after every step. -/
theorem Step.agrees {p p' : KrakenBookProcessor} {n : Note} (h : p.Step crc n p')
    (hp : p.Agrees) : p'.Agrees := by
  cases h with
  | accepted hi =>
    have hs := sound_of_stage hp.sound hi.staged
    obtain ⟨hbids, hasks⟩ := size_of_stage hi.staged
    obtain ⟨hb, -⟩ := candidate_ok hs hi.book
    refine ⟨hs, ?_, ?_, by rwa [hi.depth], by rwa [hi.depth]⟩
    · rw [hb]
      rfl
    · rw [hb]
      rfl
  | unusable hn hf hb hv _ => exact hf.agrees hb hp
  | neutral hf hb =>
    apply hf.agrees _ hp
    rw [hb]
    rfl

/-- The depth never changes. -/
theorem Step.depth_eq {p p' : KrakenBookProcessor} {n : Note} (h : p.Step crc n p') :
    p'.depth = p.depth := by
  cases h with
  | accepted hi => exact hi.depth
  | unusable hn hf hb hv _ => exact hf.depth
  | neutral hf hb => exact hf.depth

private theorem Step.confirmed {p p' : KrakenBookProcessor} {n : Note} {log : List Note}
    (h : p.Step crc n p') (hp : p.Agrees) (hc : p.book.state = .valid → Confirmed crc p log)
    (hv : p'.book.state = .valid) : Confirmed crc p' (log ++ [n]) := by
  cases h with
  | @accepted m _ hi =>
    have hs := sound_of_stage hp.sound hi.staged
    refine ⟨?_, ?_, (candidate_ok hs hi.book).2⟩
    · rw [hi.checksum]
      exact hi.checked
    · rw [List.filterMap_append, hi.checksum]
      simp [Note.message]
  | unusable hn hf hb hne _ => exact absurd hv hne
  | neutral hf hb =>
    rw [hb] at hv
    obtain ⟨hcomp, hlast, hun⟩ := hc hv
    refine ⟨?_, ?_, ?_⟩
    · rwa [hf.checksumBook, hf.checksum]
    · rw [List.filterMap_append, hf.checksum]
      simpa [Note.message] using hlast
    · rwa [hb]

/-- A new processor has its depth, and two books that agree. -/
theorem create_ok {depth : Nat} {p : KrakenBookProcessor} (h : create depth = .ok p) :
    p.depth = depth ∧ p.Agrees ∧ p.book.state = .initializing := by
  unfold create at h
  split at h
  · cases h
    refine ⟨rfl, ⟨KrakenChecksumBook.sound_empty, ?_, ?_, Nat.zero_le _, Nat.zero_le _⟩, rfl⟩
    · exact quantities_empty.symm
    · exact quantities_empty.symm
  · cases h

/-- The depth, the agreement and the confirmation are carried through a run together. -/
theorem run_agrees (crc : Bytes → UInt32) {depth : Nat} {p₀ : KrakenBookProcessor}
    (hc : create depth = .ok p₀) (calls : List Call) :
    (p₀.run crc calls).depth = depth ∧ (p₀.run crc calls).Agrees ∧
      ((p₀.run crc calls).book.state = .valid →
        Confirmed crc (p₀.run crc calls) (p₀.notes crc calls)) := by
  obtain ⟨hdepth, hagrees, hstate⟩ := create_ok hc
  apply run_invariant (I := fun p log ↦
    p.depth = depth ∧ p.Agrees ∧ (p.book.state = .valid → Confirmed crc p log))
  · refine ⟨hdepth, hagrees, fun hv ↦ ?_⟩
    rw [hstate] at hv
    cases hv
  · rintro p log n p' hs ⟨hd, ha, hconf⟩
    exact ⟨hs.depth_eq.trans hd, hs.agrees ha, hs.confirmed ha hconf⟩

/-- In every state that calls can reach the canonical book is the projection of the checksum
book, with at most `depth` levels on each side, all positive and as their lexemes say; a valid
book has the checksum that the exchange sent last and is not crossed; and the canonical book
never refuses what is staged. -/
theorem run_books_agree (crc : Bytes → UInt32) {depth : Nat} {p₀ : KrakenBookProcessor}
    (hc : create depth = .ok p₀) (calls : List Call) :
    let p := p₀.run crc calls
    (p.book.bids = quantities p.checksumBook.bids ∧ p.book.asks = quantities p.checksumBook.asks) ∧
    (p.book.bids.size ≤ depth ∧ p.book.asks.size ≤ depth ∧
      SoundSide .bid p.checksumBook.bids ∧ SoundSide .ask p.checksumBook.asks) ∧
    (p.book.state = .valid →
      p.checksumBook.checksum crc = .ok p.checksum ∧
      ((p₀.notes crc calls).filterMap Note.message).getLast?.map (·.checksum) = some p.checksum ∧
      ∀ bid ask, p.book.bestBid = some bid → p.book.bestAsk = some ask →
        bid.price.raw < ask.price.raw) ∧
    ∀ m next, p.stage m = .ok next →
      ((OrderBook.create .kraken m.instrument).applySnapshot (canonicalSnapshot next m)).2 =
        true := by
  obtain ⟨hd, ha, hconf⟩ := run_agrees crc hc calls
  intro p
  have hsize {cmp : PriceTicks → PriceTicks → Ordering} [TransCmp cmp]
      (levels : KrakenLevels cmp) : (quantities levels).size = levels.size :=
    ExtTreeMap.size_map
  refine ⟨⟨ha.bids, ha.asks⟩, ⟨?_, ?_, ha.sound.bids, ha.sound.asks⟩, ?_, ?_⟩
  · rw [ha.bids, hsize, ← hd]
    exact ha.bids_size
  · rw [ha.asks, hsize, ← hd]
    exact ha.asks_size
  · intro hv
    exact ⟨(hconf hv).computed, (hconf hv).last, (hconf hv).uncrossed⟩
  · intro m next hs
    rw [applySnapshot_canonical (sound_of_stage ha.sound hs)]

/-- A snapshot with one level on each side; an exponent is expanded. -/
def oneLevelEach : Bytes :=
  ascii "\x7b\"channel\":\"book\",\"type\":\"snapshot\",\"data\":[\x7b\"symbol\":\"BTC/USD\"," ++
  ascii "\"bids\":[\x7b\"price\":100.10,\"qty\":0.50\x7d]," ++
  ascii "\"asks\":[\x7b\"price\":1.002e2,\"qty\":2\x7d]," ++
  ascii "\"checksum\":817123575,\"timestamp\":\"2024-01-01T00:00:00Z\"\x7d]\x7d"

/-- A snapshot whose checksum matches makes the book valid and uncrossed. -/
theorem run_books_agree_snapshot :
    ∃ p₀, create 10 = .ok p₀ ∧
      let p := p₀.run Crc.crc32 [.process oneLevelEach ⟨0⟩ ⟨0⟩]
      p.book.state = .valid ∧
      p.book.bestBid = some ⟨.bid, ⟨10010, by decide⟩, ⟨50000000, by decide⟩⟩ ∧
      p.book.bestAsk = some ⟨.ask, ⟨10020, by decide⟩, ⟨200000000, by decide⟩⟩ ∧
      p.checksumBook.checksum Crc.crc32 = .ok p.checksum := by
  refine ⟨_, rfl, by decide +kernel, by decide +kernel, by decide +kernel, ?_⟩
  exact ((run_books_agree Crc.crc32 (by rfl : create 10 = .ok _)
    [.process oneLevelEach ⟨0⟩ ⟨0⟩]).2.2.1 (by decide +kernel)).1

end KrakenBookProcessor

end ArbitrageEngine.Kraken
