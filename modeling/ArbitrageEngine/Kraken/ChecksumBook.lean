import ArbitrageEngine.Base.Crc
import ArbitrageEngine.Core.OrderBookReference
import ArbitrageEngine.Kraken.L2Parser

/-!
# The checksum book

`src/adapters/kraken/kraken_checksum.cpp`: the levels with the lexemes they were sent
with, over which the exchange computes its checksum. The CRC-32 of `boost` is a
parameter of what follows, a function of the bytes it is given; `checksum_crc32` says what
the code does with its register.
-/

namespace ArbitrageEngine.Kraken

open Base Base.TreeMap Std ArbitrageEngine.Core

/-- `checksum_digits` (`src/adapters/kraken/kraken_checksum.cpp:7–12`). -/
def checksumDigits (token : Bytes) : Except Failure Bytes := do
  let s ← decimalToken token
  return (s.filter (· ≠ 0x2e)).dropWhile (· = 0x30)

/-- One side of the checksum book (`include/adapters/kraken/kraken_checksum.hpp:15–16`). -/
abbrev KrakenLevels (cmp : PriceTicks → PriceTicks → Ordering) :=
  ExtTreeMap PriceTicks KrakenLevelChange cmp

namespace KrakenLevelChange

/-- The canonical level of a change (`src/adapters/kraken/kraken_checksum.cpp:66`). -/
def level (c : KrakenLevelChange) : BookLevel := ⟨c.side, c.price, c.quantity⟩

/-- The condition of `apply`, which throws when it does not hold
(`src/adapters/kraken/kraken_checksum.cpp:14–17`). -/
def check (c : KrakenLevelChange) : Except Failure Unit := do
  if (c.side ≠ .bid && c.side ≠ .ask) || c.price.raw = 0 then
    invalidArgument "inconsistent Kraken level"
  if (← parsePrice (← decimalToken c.priceLexeme) 2) ≠ c.price then
    invalidArgument "inconsistent Kraken level"
  if (← parseQuantity (← decimalToken c.quantityLexeme) 8) ≠ c.quantity then
    invalidArgument "inconsistent Kraken level"

/-- The bytes that a level adds to the checksum (`src/adapters/kraken/kraken_checksum.cpp:54`). -/
def checksumText (c : KrakenLevelChange) : Except Failure Bytes := do
  return (← checksumDigits c.priceLexeme) ++ (← checksumDigits c.quantityLexeme)

end KrakenLevelChange

section Side

variable {cmp : PriceTicks → PriceTicks → Ordering} [TransCmp cmp]

/-- The `update` lambda of `apply` (`src/adapters/kraken/kraken_checksum.cpp:18–23`). -/
def updateLevels (levels : KrakenLevels cmp) (c : KrakenLevelChange) : KrakenLevels cmp :=
  if c.quantity.raw = 0 then levels.erase c.price else levels.insert c.price c

/-- The `append` lambda of `checksum`: the best ten levels
(`src/adapters/kraken/kraken_checksum.cpp:49–57`). -/
def topTen (levels : KrakenLevels cmp) : Except Failure Bytes := do
  let texts ← (levels.toList.take 10).mapM fun (_, c) ↦ c.checksumText
  return texts.flatten

/-- The `append` lambda of `levels` (`src/adapters/kraken/kraken_checksum.cpp:64–67`). -/
def bookLevels (levels : KrakenLevels cmp) : List BookLevel :=
  levels.toList.map fun (p, c) ↦ ⟨c.side, p, c.quantity⟩

end Side

/-- `KrakenChecksumBook` (`include/adapters/kraken/kraken_checksum.hpp:6–17`). -/
@[ext]
structure KrakenChecksumBook where
  bids : KrakenLevels greater
  asks : KrakenLevels less

namespace KrakenChecksumBook

/-- The default constructor (`src/adapters/kraken/kraken_checksum.cpp:30`). -/
def empty : KrakenChecksumBook := ⟨∅, ∅⟩

/-- `apply` after its check (`src/adapters/kraken/kraken_checksum.cpp:18–27`). -/
def write (book : KrakenChecksumBook) (c : KrakenLevelChange) : KrakenChecksumBook :=
  match c.side with
  | .bid => { book with bids := updateLevels book.bids c }
  | _ => { book with asks := updateLevels book.asks c }

/-- `apply` (`src/adapters/kraken/kraken_checksum.cpp:13–28`). -/
def apply (book : KrakenChecksumBook) (c : KrakenLevelChange) :
    Except Failure KrakenChecksumBook := do
  c.check
  return book.write c

/-- The loop of `replace_snapshot` (`src/adapters/kraken/kraken_checksum.cpp:32–36`). -/
def snapshotLoop : List KrakenLevelChange → List (Side × PriceTicks) → KrakenChecksumBook →
    Except Failure KrakenChecksumBook
  | [], _, next => .ok next
  | c :: rest, seen, next => do
    if c.quantity.raw = 0 || seen.contains (c.side, c.price) then
      invalidArgument "invalid snapshot level"
    snapshotLoop rest ((c.side, c.price) :: seen) (← next.apply c)

/-- `replace_snapshot`: the book that replaces `*this`
(`src/adapters/kraken/kraken_checksum.cpp:29–38`). -/
def replaceSnapshot (changes : List KrakenLevelChange) : Except Failure KrakenChecksumBook :=
  snapshotLoop changes [] empty

/-- `truncate` (`src/adapters/kraken/kraken_checksum.cpp:39–46`). -/
def truncate (book : KrakenChecksumBook) (depth : Nat) : KrakenChecksumBook :=
  ⟨trim depth book.bids, trim depth book.asks⟩

/-- `checksum` (`src/adapters/kraken/kraken_checksum.cpp:47–61`). -/
def checksum (crc : Bytes → UInt32) (book : KrakenChecksumBook) : Except Failure UInt32 := do
  return crc ((← topTen book.asks) ++ (← topTen book.bids))

/-- `levels` (`src/adapters/kraken/kraken_checksum.cpp:62–71`). -/
def levels (book : KrakenChecksumBook) : List BookLevel :=
  bookLevels book.bids ++ bookLevels book.asks

end KrakenChecksumBook

/-! ### The register of the checksum -/

section Side

variable {cmp : PriceTicks → PriceTicks → Ordering} [TransCmp cmp]

/-- The `append` lambda of `checksum` on the register of a CRC-32
(`src/adapters/kraken/kraken_checksum.cpp:49–57`). -/
def processLevels (register : UInt32) (levels : KrakenLevels cmp) : Except Failure UInt32 :=
  (levels.toList.take 10).foldlM
    (fun register (_, c) ↦ return Crc.processBytes register (← c.checksumText)) register

/-- What enters the register level by level is the text of the side. -/
private theorem processLevels_eq (register : UInt32) (levels : KrakenLevels cmp) :
    processLevels register levels = (topTen levels).map (Crc.processBytes register) := by
  unfold processLevels topTen
  generalize levels.toList.take 10 = entries
  induction entries generalizing register with
  | nil => rfl
  | cons entry entries ih =>
    obtain ⟨price, c⟩ := entry
    rw [List.foldlM_cons, List.mapM_cons]
    dsimp only
    cases c.checksumText with
    | error failure => rfl
    | ok text =>
      refine (ih (Crc.processBytes register text)).trans ?_
      dsimp only
      cases entries.mapM fun (_, c) ↦ c.checksumText with
      | error failure => rfl
      | ok texts =>
        change Except.ok (Crc.processBytes (Crc.processBytes register text) texts.flatten) = _
        rw [← Crc.processBytes_append]
        rfl

end Side

/-- With the CRC-32, `checksum` is what is in the register behind the asks and the bids. -/
theorem KrakenChecksumBook.checksum_crc32 (book : KrakenChecksumBook) :
    book.checksum Crc.crc32 = do
      return Crc.checksum (← processLevels (← processLevels Crc.initial book.asks) book.bids) := by
  unfold KrakenChecksumBook.checksum
  rw [processLevels_eq]
  cases topTen book.asks with
  | error failure => rfl
  | ok asks =>
    dsimp only [Except.map, bind, Except.bind]
    rw [processLevels_eq]
    cases topTen book.bids with
    | error failure => rfl
    | ok bids =>
      change Except.ok (Crc.crc32 (asks ++ bids)) = _
      rw [Crc.crc32, Crc.processBytes_append]
      rfl

/-! ### What a checked change says -/

/-- The side has a name and the lexemes denote the values: prices in hundredths, quantities
in 10⁻⁸. -/
structure KrakenLevelChange.Denotes (c : KrakenLevelChange) : Prop where
  side : c.side = .bid ∨ c.side = .ask
  price_pos : 0 < c.price.raw
  price : Decimal.value c.priceLexeme = some ((c.price.raw : ℚ) / 10 ^ 2)
  quantity : Decimal.value c.quantityLexeme = some ((c.quantity.raw : ℚ) / 10 ^ 8)

private theorem value_of_lexeme {tag : FixedPointTag} {lexeme expanded : Bytes} {scale : Nat}
    {v : FixedPoint tag} (hd : decimalToken lexeme = .ok expanded)
    (hp : parseDecimal expanded scale = .ok v) :
    Decimal.value lexeme = some ((v.raw : ℚ) / 10 ^ scale) := by
  rw [← value_decimalToken hd]
  exact value_of_parseDecimal hp

private theorem named_side_of_test {c : KrakenLevelChange}
    (h : ¬((c.side ≠ .bid && c.side ≠ .ask) || c.price.raw = 0) = true) :
    (c.side = .bid ∨ c.side = .ask) ∧ 0 < c.price.raw := by
  simp only [ne_eq, Bool.or_eq_true, Bool.and_eq_true, decide_eq_true_eq, not_or, not_and,
    not_not] at h
  exact ⟨or_iff_not_imp_left.mpr h.1, Nat.pos_of_ne_zero h.2⟩

/-- A change that passes the condition of `apply` means what its lexemes say. -/
theorem KrakenLevelChange.denotes_of_check {c : KrakenLevelChange} (h : c.check = .ok ()) :
    c.Denotes := by
  unfold KrakenLevelChange.check at h
  obtain ⟨htest, h⟩ := check_ok h
  obtain ⟨hside, hpos⟩ := named_side_of_test htest
  obtain ⟨priceText, hpt, h⟩ := bind_ok h
  obtain ⟨price, hp, h⟩ := bind_ok h
  obtain ⟨hpe, h⟩ := check_ok h
  obtain ⟨quantityText, hqt, h⟩ := bind_ok h
  obtain ⟨quantity, hq, h⟩ := bind_ok h
  have hqe : quantity = c.quantity := by
    by_contra hne
    rw [if_pos hne] at h
    cases h
  rw [ne_eq, not_not] at hpe
  subst hpe
  refine ⟨hside, hpos, value_of_lexeme hpt hp, ?_⟩
  rw [← hqe]
  exact value_of_lexeme hqt hq

/-! ### What the book keeps of its changes -/

section Side

variable {cmp : PriceTicks → PriceTicks → Ordering} [TransCmp cmp] [LawfulEqCmp cmp]

/-- Every level is a positive, checked change of the side, filed under its price. -/
def SoundSide (side : Side) (levels : KrakenLevels cmp) : Prop :=
  ∀ (price : PriceTicks) (c : KrakenLevelChange), levels[price]? = some c →
    c.side = side ∧ c.price = price ∧ 0 < c.quantity.raw ∧ c.Denotes

private theorem SoundSide.updateLevels {side : Side} {levels : KrakenLevels cmp}
    {c : KrakenLevelChange} (h : SoundSide side levels) (hs : c.side = side) (hd : c.Denotes) :
    SoundSide side (updateLevels levels c) := by
  intro price d hl
  unfold Kraken.updateLevels at hl
  split at hl
  · rw [ExtTreeMap.getElem?_erase] at hl
    split at hl
    · cases hl
    · exact h price d hl
  · next hq =>
    rw [ExtTreeMap.getElem?_insert] at hl
    split at hl
    · next he =>
      cases hl
      exact ⟨hs, LawfulEqCmp.compare_eq_iff_eq.mp he, Nat.pos_of_ne_zero hq, hd⟩
    · exact h price d hl

private theorem SoundSide.trim {side : Side} {levels : KrakenLevels cmp} (h : SoundSide side levels)
    (depth : Nat) : SoundSide side (trim depth levels) := by
  intro price c hl
  exact h price c (getElem?_of_trim hl)

/-- The (price, quantity) projection of a side. -/
def quantities (levels : KrakenLevels cmp) : Levels cmp := levels.map fun _ c ↦ c.quantity

private theorem getElem?_quantities (levels : KrakenLevels cmp) (price : PriceTicks) :
    (quantities levels)[price]? = levels[price]?.map (·.quantity) :=
  ExtTreeMap.getElem?_map

/-- An empty side has no quantities. -/
theorem quantities_empty : quantities (∅ : KrakenLevels cmp) = ∅ := by
  apply ExtTreeMap.ext_getElem?
  intro price
  rw [getElem?_quantities]
  simp

private theorem quantities_updateLevels (levels : KrakenLevels cmp) (c : KrakenLevelChange) :
    quantities (updateLevels levels c) = setLevel (quantities levels) c.price c.quantity := by
  apply ExtTreeMap.ext_getElem?
  intro price
  rw [getElem?_quantities, getElem?_setLevel, getElem?_quantities, residue, updateLevels]
  split
  · rw [ExtTreeMap.getElem?_erase]
    split <;> rfl
  · rw [ExtTreeMap.getElem?_insert]
    split <;> rfl

omit [LawfulEqCmp cmp] in
/-- The quantities of a side, in its order. -/
theorem toList_quantities (levels : KrakenLevels cmp) :
    (quantities levels).toList = levels.toList.map fun e ↦ (e.1, e.2.quantity) :=
  ExtTreeMap.toList_map

/-- Setting the levels of a sound side one by one gives its projection. -/
theorem foldl_setLevel_quantities {side : Side} {levels : KrakenLevels cmp}
    (h : SoundSide side levels) :
    (bookLevels levels).foldl (fun sides level ↦ setLevel sides level.price level.quantity)
      (∅ : Levels cmp) = quantities levels := by
  have hw : Writes (fun sides (e : PriceTicks × KrakenLevelChange) ↦
      (setLevel sides e.1 e.2.quantity : Levels cmp)) (fun c ↦ residue c.quantity) :=
    fun sides e price ↦ getElem?_setLevel sides e.1 e.2.quantity price
  apply ExtTreeMap.ext_getElem?
  intro price
  rw [bookLevels, List.foldl_map, getElem?_foldl_toList hw, getElem?_quantities]
  cases hl : levels[price]? with
  | none => simp
  | some c =>
    have hq := (h price c hl).2.2.1
    simp [residue, Nat.pos_iff_ne_zero.mp hq]

private theorem mem_bookLevels {side : Side} {levels : KrakenLevels cmp} (h : SoundSide side levels)
    {level : BookLevel} (hm : level ∈ bookLevels levels) :
    level.side = side ∧ validLevel level true = true := by
  rw [bookLevels, List.mem_map] at hm
  obtain ⟨⟨price, c⟩, hl, rfl⟩ := hm
  obtain ⟨hs, hp, hq, hd⟩ := h price c (ExtTreeMap.mem_toList_iff_getElem?_eq_some.mp hl)
  have hpos := hd.price_pos
  rw [hp] at hpos
  exact ⟨hs, by simp [validLevel, hd.side, hpos, hq]⟩

private theorem nodup_bookLevels (levels : KrakenLevels cmp) :
    ((bookLevels levels).map fun level ↦ (level.side, level.price)).Nodup := by
  rw [bookLevels, List.map_map, List.Nodup, List.pairwise_map]
  apply (pairwise_toList levels).imp
  intro a b hab he
  exact hab (congrArg Prod.snd he)

end Side

namespace KrakenChecksumBook

/-- The (price, quantity) projection of the book. -/
def sides (book : KrakenChecksumBook) : Sides := (quantities book.bids, quantities book.asks)

/-- Both sides are sound. -/
structure Sound (book : KrakenChecksumBook) : Prop where
  bids : SoundSide .bid book.bids
  asks : SoundSide .ask book.asks

/-- The empty book is sound. -/
theorem sound_empty : empty.Sound := by
  constructor <;> intro price c h <;> simp [empty] at h

/-- The sides of the empty book. -/
theorem sides_empty : empty.sides = (∅, ∅) := by
  rw [sides, empty, quantities_empty, quantities_empty]

private theorem Sound.write {book : KrakenChecksumBook} {c : KrakenLevelChange} (h : book.Sound)
    (hd : c.Denotes) : (book.write c).Sound := by
  unfold KrakenChecksumBook.write
  obtain hs | hs := hd.side
  · simp only [hs]
    exact ⟨h.bids.updateLevels hs hd, h.asks⟩
  · simp only [hs]
    exact ⟨h.bids, h.asks.updateLevels hs hd⟩

/-- A truncated book is sound. -/
theorem Sound.truncate {book : KrakenChecksumBook} (h : book.Sound) (depth : Nat) :
    (book.truncate depth).Sound :=
  ⟨h.bids.trim depth, h.asks.trim depth⟩

/-- A change of the checksum book is the same change of its projection. -/
theorem sides_write (book : KrakenChecksumBook) {c : KrakenLevelChange} (hd : c.Denotes) :
    (book.write c).sides = applyChange book.sides c.level := by
  unfold write applyChange
  obtain hs | hs := hd.side <;>
    simp only [KrakenLevelChange.level, hs, sides, quantities_updateLevels]

/-- Truncating a book trims both sides. -/
theorem sides_truncate (book : KrakenChecksumBook) (depth : Nat) :
    (book.truncate depth).sides = (trim depth book.sides.1, trim depth book.sides.2) := by
  simp only [sides, truncate, quantities, map_trim]

/-- A successful `apply` has checked its change and written it. -/
theorem apply_ok {book next : KrakenChecksumBook} {c : KrakenLevelChange}
    (h : book.apply c = .ok next) : c.Denotes ∧ next = book.write c := by
  unfold apply at h
  obtain ⟨u, hc, h⟩ := bind_ok h
  cases h
  exact ⟨KrakenLevelChange.denotes_of_check hc, rfl⟩

/-- A book is reached from another by the checked changes. -/
def Follows (book : KrakenChecksumBook) (changes : List KrakenLevelChange)
    (next : KrakenChecksumBook) : Prop :=
  (∀ c ∈ changes, c.Denotes) ∧ next = changes.foldl write book

private theorem follows_nil (book : KrakenChecksumBook) : book.Follows [] book := ⟨by simp, rfl⟩

private theorem follows_cons {book next : KrakenChecksumBook} {c : KrakenLevelChange}
    {changes : List KrakenLevelChange} (hd : c.Denotes) (h : (book.write c).Follows changes next) :
    book.Follows (c :: changes) next :=
  ⟨List.forall_mem_cons.mpr ⟨hd, h.1⟩, h.2⟩

/-- The loop of an update follows the changes. -/
theorem follows_of_foldlM {changes : List KrakenLevelChange} {book next : KrakenChecksumBook}
    (h : changes.foldlM apply book = .ok next) : book.Follows changes next := by
  induction changes generalizing book with
  | nil =>
    cases h
    exact follows_nil _
  | cons c rest ih =>
    rw [List.foldlM_cons] at h
    obtain ⟨mid, hm, h⟩ := bind_ok h
    obtain ⟨hd, rfl⟩ := apply_ok hm
    exact follows_cons hd (ih h)

/-- The loop of a snapshot follows the changes. -/
theorem follows_of_snapshotLoop {changes : List KrakenLevelChange}
    {seen : List (Side × PriceTicks)} {book next : KrakenChecksumBook}
    (h : snapshotLoop changes seen book = .ok next) : book.Follows changes next := by
  induction changes generalizing seen book with
  | nil =>
    cases h
    exact follows_nil _
  | cons c rest ih =>
    rw [snapshotLoop] at h
    obtain ⟨-, h⟩ := check_ok h
    obtain ⟨mid, hm, h⟩ := bind_ok h
    obtain ⟨hd, rfl⟩ := apply_ok hm
    exact follows_cons hd (ih h)

/-- A book that follows changes stays sound. -/
theorem Follows.sound {book next : KrakenChecksumBook} {changes : List KrakenLevelChange}
    (h : book.Follows changes next) (hb : book.Sound) : next.Sound := by
  obtain ⟨hd, rfl⟩ := h
  induction changes generalizing book with
  | nil => exact hb
  | cons c rest ih =>
    rw [List.forall_mem_cons] at hd
    exact ih (hb.write hd.1) hd.2

/-- The sides of a book that follows changes are the changed sides. -/
theorem Follows.sides_eq {book next : KrakenChecksumBook} {changes : List KrakenLevelChange}
    (h : book.Follows changes next) :
    next.sides = changes.foldl (fun sides c ↦ applyChange sides c.level) book.sides := by
  obtain ⟨hd, rfl⟩ := h
  induction changes generalizing book with
  | nil => rfl
  | cons c rest ih =>
    rw [List.forall_mem_cons] at hd
    rw [List.foldl_cons, List.foldl_cons, ih hd.2, sides_write book hd.1]

private theorem foldl_applyChange_bids {levels : List BookLevel} {sides : Sides}
    (h : ∀ level ∈ levels, level.side = .bid) :
    levels.foldl applyChange sides =
      (levels.foldl (fun bids level ↦ setLevel bids level.price level.quantity) sides.1,
        sides.2) := by
  induction levels generalizing sides with
  | nil => rfl
  | cons level rest ih =>
    rw [List.forall_mem_cons] at h
    rw [List.foldl_cons, List.foldl_cons, ih h.2]
    simp only [applyChange, h.1]

private theorem foldl_applyChange_asks {levels : List BookLevel} {sides : Sides}
    (h : ∀ level ∈ levels, level.side = .ask) :
    levels.foldl applyChange sides =
      (sides.1,
        levels.foldl (fun asks level ↦ setLevel asks level.price level.quantity) sides.2) := by
  induction levels generalizing sides with
  | nil => rfl
  | cons level rest ih =>
    rw [List.forall_mem_cons] at h
    rw [List.foldl_cons, List.foldl_cons, ih h.2]
    simp only [applyChange, h.1]

/-- The canonical book takes all levels of a sound checksum book. -/
theorem Sound.snapshotLevels {book : KrakenChecksumBook} (h : book.Sound) :
    OrderBook.snapshotLevels book.levels (∅, ∅) = some book.sides := by
  have hvalid : ∀ level ∈ book.levels, validLevel level true = true := by
    intro level hm
    obtain hm | hm := List.mem_append.mp hm
    · exact (mem_bookLevels h.bids hm).2
    · exact (mem_bookLevels h.asks hm).2
  have hnodup : (book.levels.map fun level ↦ (level.side, level.price)).Nodup := by
    rw [levels, List.map_append, List.nodup_append]
    refine ⟨nodup_bookLevels _, nodup_bookLevels _, ?_⟩
    rintro x hx y hy rfl
    obtain ⟨bid, hb, rfl⟩ := List.mem_map.mp hx
    obtain ⟨ask, ha, he⟩ := List.mem_map.mp hy
    have hsides := congrArg Prod.fst he
    simp only [(mem_bookLevels h.bids hb).1, (mem_bookLevels h.asks ha).1] at hsides
    cases hsides
  have hfree : ∀ level ∈ book.levels, ¬Occupied (∅, ∅) level := by
    intro level _
    unfold Occupied
    split <;> simp
  rw [snapshotLevels_eq, if_pos ⟨hvalid, hnodup, hfree⟩, levels, List.foldl_append,
    foldl_applyChange_bids fun level hm ↦ (mem_bookLevels h.bids hm).1,
    foldl_applyChange_asks fun level hm ↦ (mem_bookLevels h.asks hm).1,
    foldl_setLevel_quantities h.bids, foldl_setLevel_quantities h.asks]
  rfl

end KrakenChecksumBook

end ArbitrageEngine.Kraken
