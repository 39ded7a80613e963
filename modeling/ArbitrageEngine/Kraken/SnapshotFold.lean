import ArbitrageEngine.Kraken.BookAgreement

/-!
# A valid book is its last snapshot, followed by every later update

Truncation makes the fold sensitive to its order: a level that falls off the end does not
come back when a better one goes. A message that is rejected leaves all levels alone and
the book unusable until the next snapshot.
-/

namespace ArbitrageEngine.Kraken

open Base Base.TreeMap Std ArbitrageEngine.Core

/-- A message on plain levels: its changes one by one, then the best `depth` of each side. -/
def followMessage (depth : Nat) (sides : Sides) (m : KrakenBookMessage) : Sides :=
  let sides := m.changes.foldl (fun sides c ↦ applyChange sides c.level) sides
  (first depth sides.1, first depth sides.2)

namespace KrakenBookProcessor

variable {crc : Bytes → UInt32}

private theorem sides_of_stage {p : KrakenBookProcessor} {m : KrakenBookMessage}
    {next : KrakenChecksumBook} (h : p.stage m = .ok next) :
    next.sides = followMessage p.depth (p.stagedOn m.type).sides m := by
  obtain ⟨full, hf, rfl⟩ := stage_ok h
  rw [KrakenChecksumBook.sides_truncate, hf.sides_eq, trim_eq_first, trim_eq_first]
  rfl

/-- What a log says of a book that is usable after it. -/
def FoldsFromSnapshot (depth : Nat) (book : OrderBook) (log : List Note) : Prop :=
  ∃ before m later, log = before ++ .accepted m :: later ∧ m.type = .snapshot ∧
    (∀ n ∈ later, n = .neutral ∨ ∃ u, n = .accepted u ∧ u.type = .update) ∧
    (book.bids, book.asks) =
      (m :: later.filterMap Note.message).foldl (followMessage depth) (∅, ∅)

/-- An installed book has the sides of its message, folded into those before. -/
theorem Installs.sides_eq {p p' : KrakenBookProcessor} {m : KrakenBookMessage}
    (h : p.Installs crc m p') (hp : p.Agrees) :
    (p'.book.bids, p'.book.asks) = followMessage p.depth (p.stagedOn m.type).sides m := by
  rw [(candidate_ok (sound_of_stage hp.sound h.staged) h.book).1]
  exact sides_of_stage h.staged

/-- The sides of the two books are the same. -/
theorem Agrees.sides_eq {p : KrakenBookProcessor} (h : p.Agrees) :
    p.checksumBook.sides = (p.book.bids, p.book.asks) := by
  rw [h.bids, h.asks]
  rfl

private theorem Step.foldsFromSnapshot {p p' : KrakenBookProcessor} {n : Note} {log : List Note}
    (h : p.Step crc n p') (hp : p.Agrees)
    (hf : p.book.state = .valid → FoldsFromSnapshot p.depth p.book log)
    (hv : p'.book.state = .valid) : FoldsFromSnapshot p.depth p'.book (log ++ [n]) := by
  cases h with
  | @accepted m _ hi =>
    have hsides := hi.sides_eq hp
    cases ht : m.type with
    | snapshot =>
      rw [ht, stagedOn, KrakenChecksumBook.sides_empty] at hsides
      exact ⟨log, m, [], rfl, ht, by simp, hsides⟩
    | update =>
      rw [ht, stagedOn, hp.sides_eq] at hsides
      have hvalid : p.book.state = .valid := by
        have := hi.awaited
        rw [ht] at this
        simpa using this
      obtain ⟨before, s, later, rfl, hs, hl, he⟩ := hf hvalid
      refine ⟨before, s, later ++ [Note.accepted m], by simp, hs, ?_, ?_⟩
      · intro n hn
        obtain hn | hn := List.mem_append.mp hn
        · exact hl n hn
        · exact .inr ⟨m, List.mem_singleton.mp hn, ht⟩
      · rw [hsides, he, List.filterMap_append, ← List.cons_append, List.foldl_append]
        rfl
  | unusable hn hfr hb hne _ => exact absurd hv hne
  | neutral hfr hb =>
    rw [hb] at hv ⊢
    obtain ⟨before, s, later, rfl, hs, hl, he⟩ := hf hv
    refine ⟨before, s, later ++ [Note.neutral], by simp, hs, ?_, ?_⟩
    · intro n hn
      obtain hn | hn := List.mem_append.mp hn
      · exact hl n hn
      · exact .inl (List.mem_singleton.mp hn)
    · have hnone : [Note.neutral].filterMap Note.message = [] := rfl
      rw [he, List.filterMap_append, hnone, List.append_nil]

private theorem run_foldsFromSnapshot (crc : Bytes → UInt32) {depth : Nat}
    {p₀ : KrakenBookProcessor} (hc : create depth = .ok p₀) (calls : List Call) :
    (p₀.run crc calls).book.state = .valid →
      FoldsFromSnapshot depth (p₀.run crc calls).book (p₀.notes crc calls) := by
  obtain ⟨hdepth, hagrees, hstate⟩ := create_ok hc
  have hinv : (p₀.run crc calls).depth = depth ∧ (p₀.run crc calls).Agrees ∧
      ((p₀.run crc calls).book.state = .valid →
        FoldsFromSnapshot depth (p₀.run crc calls).book (p₀.notes crc calls)) := by
    apply run_invariant (I := fun p log ↦
      p.depth = depth ∧ p.Agrees ∧ (p.book.state = .valid → FoldsFromSnapshot depth p.book log))
    · refine ⟨hdepth, hagrees, fun hv ↦ ?_⟩
      rw [hstate] at hv
      cases hv
    · rintro p log n p' hs ⟨rfl, ha, hf⟩
      exact ⟨hs.depth_eq, hs.agrees ha, hs.foldsFromSnapshot ha hf⟩
  exact hinv.2.2

/-! ### Rejections -/

private theorem note_of_false {p : KrakenBookProcessor} {c : Call}
    (h : (p.call crc c).2 = some false) :
    p.note crc c = .rejected := by
  unfold note
  cases c.message <;> simp [h]

/-- An accepted call had a message. -/
theorem message_of_accepted {p : KrakenBookProcessor} {c : Call} {m : KrakenBookMessage}
    (h : p.note crc c = .accepted m) : c.message = some m := by
  unfold note at h
  split at h
  · next hm =>
    cases h
    exact hm
  · cases h
  · cases h
  · split at h <;> cases h

/-- A rejected message keeps both level books and the checksum, and the book is not valid. -/
structure Rejects (p p' : KrakenBookProcessor) : Prop where
  checksumBook : p'.checksumBook = p.checksumBook
  bids : p'.book.bids = p.book.bids
  asks : p'.book.asks = p.book.asks
  checksum : p'.checksum = p.checksum
  state : p'.book.state ≠ .valid

private theorem call_rejects {p : KrakenBookProcessor} {c : Call}
    (h : (p.call crc c).2 = some false) :
    p.Rejects (p.call crc c).1 := by
  have hstep : p.Step crc (p.note crc c) (p.call crc c).1 := call_step p c
  rw [note_of_false h] at hstep
  cases hstep with
  | unusable hn hf hb hs _ =>
    refine ⟨hf.checksumBook, ?_, ?_, hf.checksum, hs⟩
    · rw [hb]
      rfl
    · rw [hb]
      rfl

private theorem call_update_not_valid {p : KrakenBookProcessor} {c : Call} {m : KrakenBookMessage}
    (hm : c.message = some m) (ht : m.type = .update) (hp : p.book.state ≠ .valid) :
    (p.call crc c).1.book.state ≠ .valid := by
  have hstep : p.Step crc (p.note crc c) (p.call crc c).1 := call_step p c
  cases hn : p.note crc c with
  | accepted u =>
    rw [hn] at hstep
    rw [message_of_accepted hn, Option.some_inj] at hm
    subst hm
    cases hstep with
    | accepted hi =>
      obtain hs | hv := hi.awaited
      · rw [ht] at hs
        cases hs
      · exact absurd hv hp
    | unusable hn _ _ _ _ => simp at hn
  | rejected =>
    rw [hn] at hstep
    cases hstep with
    | unusable _ _ _ hs _ => exact hs
  | marked =>
    rw [hn] at hstep
    cases hstep with
    | unusable _ _ _ hs _ => exact hs
  | neutral =>
    rw [hn] at hstep
    cases hstep with
    | unusable _ _ _ hs _ => exact hs
    | neutral _ hb => rwa [hb]

/-- Whenever the book is valid, its levels are the last accepted snapshot followed by every
later book message, with nothing but accepted updates and neutral calls since; every rejected
message leaves levels and checksum alone and the book not valid; and no update makes a book
valid that is not. -/
theorem run_folds_from_snapshot (crc : Bytes → UInt32) {depth : Nat} {p₀ : KrakenBookProcessor}
    (hc : create depth = .ok p₀) (calls : List Call) :
    let p := p₀.run crc calls
    (p.book.state = .valid →
      ∃ before m later, p₀.notes crc calls = before ++ .accepted m :: later ∧
        m.type = .snapshot ∧
        (∀ n ∈ later, n = .neutral ∨ ∃ u, n = .accepted u ∧ u.type = .update) ∧
        (p.book.bids, p.book.asks) =
          (m :: later.filterMap Note.message).foldl (followMessage depth) (∅, ∅)) ∧
    ∀ c,
      ((p.call crc c).2 = some false → p.Rejects (p.call crc c).1) ∧
      ∀ m, c.message = some m → m.type = .update → p.book.state ≠ .valid →
        (p.call crc c).1.book.state ≠ .valid := by
  intro p
  refine ⟨run_foldsFromSnapshot crc hc calls, fun c ↦ ⟨call_rejects, ?_⟩⟩
  intro m hm ht hp
  exact call_update_not_valid hm ht hp

/-- An update that takes the only bid away and leaves the asks out. -/
def bidRemoved : Bytes :=
  ascii "\x7b\"channel\":\"book\",\"type\":\"update\",\"data\":[\x7b\"symbol\":\"BTC/USD\"," ++
  ascii "\"bids\":[\x7b\"price\":100.1,\"qty\":0.0\x7d]," ++
  ascii "\"checksum\":2877587179,\"timestamp\":\"2024-01-01T00:00:01Z\"\x7d]\x7d"

/-- A snapshot and an update: the book stays valid, with the fold of both. -/
theorem run_folds_from_snapshot_update :
    ∃ p₀, create 10 = .ok p₀ ∧
      let calls := [.process oneLevelEach ⟨0⟩ ⟨0⟩, .process bidRemoved ⟨1⟩ ⟨1⟩]
      let p := p₀.run Crc.crc32 calls
      p.book.state = .valid ∧ p.book.bids.size = 0 ∧ p.book.asks.size = 1 ∧
      ∃ before m later, p₀.notes Crc.crc32 calls = before ++ .accepted m :: later ∧
        m.type = .snapshot := by
  refine ⟨_, rfl, by decide +kernel, by decide +kernel, by decide +kernel, ?_⟩
  obtain ⟨before, m, later, hn, ht, -⟩ :=
    (run_folds_from_snapshot Crc.crc32 (by rfl : create 10 = .ok _)
      [.process oneLevelEach ⟨0⟩ ⟨0⟩, .process bidRemoved ⟨1⟩ ⟨1⟩]).1 (by decide +kernel)
  exact ⟨before, m, later, hn, ht⟩

end KrakenBookProcessor

end ArbitrageEngine.Kraken
