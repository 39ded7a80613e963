import ArbitrageEngine.Kraken.ChecksumBook

/-!
# The order of a snapshot and the reach of a checksum

`KrakenChecksumBook::replace_snapshot`, `truncate` and `checksum` of
`src/adapters/kraken/kraken_checksum.cpp`, as statements about two runs: over two orders of
one snapshot, and over two books that agree on the levels nearest to the spread.
-/

namespace ArbitrageEngine.Kraken

open Base Base.TreeMap Std ArbitrageEngine.Core

/-- The entry of the duplicate set of `replace_snapshot`
(`src/adapters/kraken/kraken_checksum.cpp:33`). -/
def KrakenLevelChange.key (c : KrakenLevelChange) : Side × PriceTicks := (c.side, c.price)

/-- The condition on one change of a snapshot. -/
def KrakenLevelChange.Admitted (c : KrakenLevelChange) : Prop :=
  c.quantity.raw ≠ 0 ∧ c.check = .ok ()

section Side

variable {cmp : PriceTicks → PriceTicks → Ordering} [TransCmp cmp] [LawfulEqCmp cmp]

/-- Changes of different prices can be made in either order. -/
theorem updateLevels_comm (levels : KrakenLevels cmp) {c d : KrakenLevelChange}
    (h : c.price ≠ d.price) :
    updateLevels (updateLevels levels c) d = updateLevels (updateLevels levels d) c := by
  have hget (levels : KrakenLevels cmp) (c : KrakenLevelChange) (price : PriceTicks) :
      (updateLevels levels c)[price]? = if c.price = price then
        (if c.quantity.raw = 0 then none else some c) else levels[price]? := by
    unfold updateLevels
    split
    · rw [ExtTreeMap.getElem?_erase]
      simp only [LawfulEqCmp.compare_eq_iff_eq]
    · rw [ExtTreeMap.getElem?_insert]
      simp only [LawfulEqCmp.compare_eq_iff_eq]
  apply ExtTreeMap.ext_getElem?
  intro price
  simp only [hget]
  by_cases hc : c.price = price
  · have hd : d.price ≠ price := fun hd ↦ h (hc.trans hd.symm)
    simp only [hc, hd, ↓reduceIte]
  · simp only [hc, ↓reduceIte]

/-- The lexemes of the levels that the checksum reads. -/
def topLexemes (levels : KrakenLevels cmp) : List (Bytes × Bytes) :=
  (levels.toList.take 10).map fun (_, c) ↦ (c.priceLexeme, c.quantityLexeme)

omit [LawfulEqCmp cmp] in
/-- The bytes of a side depend on these lexemes alone. -/
theorem topTen_eq (levels : KrakenLevels cmp) :
    topTen levels = ((topLexemes levels).mapM fun (price, quantity) ↦ do
      return (← checksumDigits price) ++ (← checksumDigits quantity)) >>= fun texts ↦
        .ok texts.flatten := by
  rw [topTen, topLexemes, List.mapM_map]
  rfl

private theorem topTen_trim (levels : KrakenLevels cmp) {depth : Nat} (h : 10 ≤ depth) :
    topTen (trim depth levels) = topTen levels := by
  rw [topTen, topTen, toList_trim, List.take_take, Nat.min_eq_left h]

end Side

namespace KrakenChecksumBook

/-- `replace_snapshot`: what it leaves in `*this`, and whether it threw
(`src/adapters/kraken/kraken_checksum.cpp:29–38`). -/
def assignSnapshot (book : KrakenChecksumBook) (changes : List KrakenLevelChange) :
    KrakenChecksumBook × Option Failure :=
  match replaceSnapshot changes with
  | .ok next => (next, none)
  | .error failure => (book, some failure)

/-! ### Which snapshots are taken -/

/-- Checked changes of different keys can be made in either order. -/
theorem write_comm (book : KrakenChecksumBook) {c d : KrakenLevelChange} (hc : c.Denotes)
    (hd : d.Denotes) (h : c.key ≠ d.key) :
    (book.write c).write d = (book.write d).write c := by
  have hprice (hs : c.side = d.side) : c.price ≠ d.price := by
    intro hp
    exact h (Prod.ext hs hp)
  unfold write
  obtain hc | hc := hc.side <;> obtain hd | hd := hd.side <;> simp only [hc, hd]
  · rw [updateLevels_comm _ (hprice (hc.trans hd.symm))]
  · rw [updateLevels_comm _ (hprice (hc.trans hd.symm))]

private theorem apply_of_check {book : KrakenChecksumBook} {c : KrakenLevelChange}
    (h : c.check = .ok ()) : book.apply c = .ok (book.write c) := by
  rw [apply, h]
  rfl

/-- The loop passes exactly admitted changes of fresh, pairwise different keys. -/
theorem snapshotLoop_ok_iff {changes : List KrakenLevelChange} {seen : List (Side × PriceTicks)}
    {book next : KrakenChecksumBook} :
    snapshotLoop changes seen book = .ok next ↔
      (∀ c ∈ changes, c.Admitted) ∧ (changes.map KrakenLevelChange.key).Nodup ∧
        (∀ c ∈ changes, c.key ∉ seen) ∧ next = changes.foldl write book := by
  induction changes generalizing seen book with
  | nil => simp [snapshotLoop, eq_comm]
  | cons c rest ih =>
    have hstep : snapshotLoop (c :: rest) seen book = .ok next ↔
        (c.Admitted ∧ c.key ∉ seen) ∧
          snapshotLoop rest (c.key :: seen) (book.write c) = .ok next := by
      rw [snapshotLoop]
      constructor
      · intro h
        obtain ⟨hc, h⟩ := check_ok h
        obtain ⟨mid, hm, h⟩ := bind_ok h
        rw [apply] at hm
        obtain ⟨u, hu, hm⟩ := bind_ok hm
        cases hm
        simp only [Bool.or_eq_true, decide_eq_true_eq, List.contains_iff_mem, not_or] at hc
        exact ⟨⟨⟨hc.1, hu⟩, hc.2⟩, h⟩
      · rintro ⟨⟨⟨hq, hu⟩, hseen⟩, h⟩
        have hc : (decide (c.quantity.raw = 0) || seen.contains (c.side, c.price)) = false := by
          simp only [Bool.or_eq_false_iff, decide_eq_false_iff_not, hq, not_false_eq_true,
            true_and]
          simpa [KrakenLevelChange.key] using hseen
        rw [hc, apply_of_check hu]
        exact h
    rw [hstep, ih, List.foldl_cons, List.map_cons, List.nodup_cons, List.forall_mem_cons,
      List.forall_mem_cons]
    simp only [List.mem_cons, not_or, List.mem_map, not_exists, not_and]
    constructor
    · rintro ⟨⟨ha, hs⟩, hrest, hn, hfresh, he⟩
      exact ⟨⟨ha, hrest⟩, ⟨fun d hd ↦ (hfresh d hd).1, hn⟩, ⟨hs, fun d hd ↦ (hfresh d hd).2⟩, he⟩
    · rintro ⟨⟨ha, hrest⟩, ⟨hc, hn⟩, ⟨hs, hfresh⟩, he⟩
      exact ⟨⟨ha, hs⟩, hrest, hn, fun d hd ↦ ⟨hc d hd, hfresh d hd⟩, he⟩

/-- A snapshot is taken exactly if every level is admitted and no price is repeated on its side; the
book is then what the levels write. -/
theorem replaceSnapshot_ok_iff {changes : List KrakenLevelChange} {next : KrakenChecksumBook} :
    replaceSnapshot changes = .ok next ↔
      (∀ c ∈ changes, c.Admitted) ∧ (changes.map KrakenLevelChange.key).Nodup ∧
        next = changes.foldl write empty := by
  rw [replaceSnapshot, snapshotLoop_ok_iff]
  simp

/-- A snapshot is taken or refused in every order alike, and gives one book. -/
theorem replaceSnapshot_perm {changes changes' : List KrakenLevelChange}
    (hp : changes.Perm changes') {next : KrakenChecksumBook}
    (h : replaceSnapshot changes = .ok next) : replaceSnapshot changes' = .ok next := by
  obtain ⟨ha, hn, rfl⟩ := replaceSnapshot_ok_iff.mp h
  rw [replaceSnapshot_ok_iff]
  refine ⟨fun c hc ↦ ha c (hp.mem_iff.mpr hc), (hp.map _).nodup_iff.mp hn, ?_⟩
  apply hp.foldl_eq'
  intro c hc d hd book
  by_cases hk : c.key = d.key
  · rw [List.inj_on_of_nodup_map hn hc hd hk]
  · exact write_comm book (KrakenLevelChange.denotes_of_check (ha c hc).2)
      (KrakenLevelChange.denotes_of_check (ha d hd).2) hk

private theorem assignSnapshot_of_ok (book : KrakenChecksumBook) {changes : List KrakenLevelChange}
    {next : KrakenChecksumBook} (h : replaceSnapshot changes = .ok next) :
    book.assignSnapshot changes = (next, none) := by
  rw [assignSnapshot, h]

private theorem assignSnapshot_of_error (book : KrakenChecksumBook)
    {changes : List KrakenLevelChange} {failure : Failure}
    (h : replaceSnapshot changes = .error failure) :
    book.assignSnapshot changes = (book, some failure) := by
  rw [assignSnapshot, h]

/-- Neither the order of a snapshot nor a level behind the first ten of a side matters: the
orders of a snapshot throw together, leaving the book, or give the same levels and checksum,
and books with the same lexemes up front, a book and its truncation among them, have the same
checksum. -/
theorem snapshot_order_and_checksum (crc : Bytes → UInt32) :
    (∀ (book : KrakenChecksumBook) (changes changes' : List KrakenLevelChange),
      changes.Perm changes' →
        ((book.assignSnapshot changes).2.isSome = (book.assignSnapshot changes').2.isSome) ∧
        ((book.assignSnapshot changes).2.isSome = true →
          (book.assignSnapshot changes).1 = book) ∧
        ((book.assignSnapshot changes).2 = none →
          (book.assignSnapshot changes).1.levels = (book.assignSnapshot changes').1.levels ∧
          (book.assignSnapshot changes).1.checksum crc =
            (book.assignSnapshot changes').1.checksum crc)) ∧
    (∀ one two : KrakenChecksumBook, topLexemes one.asks = topLexemes two.asks →
      topLexemes one.bids = topLexemes two.bids → one.checksum crc = two.checksum crc) ∧
    ∀ (book : KrakenChecksumBook) (depth : Nat), 10 ≤ depth →
      (book.truncate depth).checksum crc = book.checksum crc := by
  refine ⟨?_, ?_, ?_⟩
  · intro book changes changes' hp
    cases h : replaceSnapshot changes with
    | ok next =>
      rw [assignSnapshot_of_ok book h, assignSnapshot_of_ok book (replaceSnapshot_perm hp h)]
      exact ⟨rfl, nofun, fun _ ↦ ⟨rfl, rfl⟩⟩
    | error failure =>
      cases h' : replaceSnapshot changes' with
      | ok next =>
        rw [replaceSnapshot_perm hp.symm h'] at h
        cases h
      | error failure' =>
        rw [assignSnapshot_of_error book h, assignSnapshot_of_error book h']
        exact ⟨rfl, fun _ ↦ rfl, nofun⟩
  · intro one two ha hb
    rw [checksum, checksum, topTen_eq, topTen_eq, topTen_eq, topTen_eq, ha, hb]
  · intro book depth h
    rw [checksum, truncate, topTen_trim _ h, topTen_trim _ h, checksum]

/-- Two levels of a snapshot in either order. -/
theorem snapshot_order_and_checksum_pair :
    let bid : KrakenLevelChange := ⟨.bid, ⟨4528350, by decide⟩, ⟨10000000, by decide⟩,
      ascii "45283.5", ascii "0.10000000"⟩
    let ask : KrakenLevelChange := ⟨.ask, ⟨4528520, by decide⟩, ⟨100000, by decide⟩,
      ascii "45285.2", ascii "0.00100000"⟩
    let crc : Bytes → UInt32 := fun bytes ↦ bytes.length.toUInt32
    (empty.assignSnapshot [bid, ask]).2 = none ∧
      (empty.assignSnapshot [bid, ask]).1.levels =
        (empty.assignSnapshot [ask, bid]).1.levels ∧
      (empty.assignSnapshot [bid, ask]).1.checksum crc =
        (empty.assignSnapshot [ask, bid]).1.checksum crc ∧
      (((empty.assignSnapshot [bid, ask]).1.truncate 10).checksum crc =
        (empty.assignSnapshot [bid, ask]).1.checksum crc) := by
  intro bid ask crc
  have hok : (empty.assignSnapshot [bid, ask]).2 = none := by decide +kernel
  have h := (snapshot_order_and_checksum crc).1 empty [bid, ask] [ask, bid] (.swap ask bid [])
  exact ⟨hok, (h.2.2 hok).1, (h.2.2 hok).2, (snapshot_order_and_checksum crc).2.2 _ 10 (by decide)⟩

end KrakenChecksumBook

end ArbitrageEngine.Kraken
