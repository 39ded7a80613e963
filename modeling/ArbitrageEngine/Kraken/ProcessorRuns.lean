import ArbitrageEngine.Kraken.BookProcessor

/-!
# Runs of the book processor

Any finite sequence of calls on a `KrakenBookProcessor`. `Step` says once what a call can
do to the two books; what holds along runs is derived from it.
-/

namespace ArbitrageEngine.Kraken

open Base Base.TreeMap Std ArbitrageEngine.Core

/-- The calls that change a processor. -/
inductive Call
  | process (raw : Bytes) (wall : ReceiveWallTimestamp) (mono : ReceiveMonotonicTimestamp)
  | apply (message : KrakenBookMessage)
  | resetConnection
  | stale
  | invalidate
  | disconnect
  | advance (now : ReceiveMonotonicTimestamp)
  deriving DecidableEq, Repr

/-- The book message that a call hands over. -/
def Call.message : Call → Option KrakenBookMessage
  | process raw wall mono =>
    match parse raw wall mono with
    | .book m => some m
    | _ => none
  | apply m => some m
  | _ => none

/-- What a call was for the book. -/
inductive Note
  | accepted (m : KrakenBookMessage)
  | rejected
  | marked
  | neutral
  deriving DecidableEq, Repr

/-- The book message of an acceptance. -/
def Note.message : Note → Option KrakenBookMessage
  | accepted m => some m
  | _ => none

namespace KrakenBookProcessor

variable (crc : Bytes → UInt32)

/-- The processor after a call, and what `process` and `apply` return. -/
def call (p : KrakenBookProcessor) : Call → KrakenBookProcessor × Option Bool
  | .process raw wall mono => let (p, ok) := p.process crc raw wall mono; (p, some ok)
  | .apply m => let (p, ok) := p.apply crc m; (p, some ok)
  | .resetConnection => (p.resetConnection, none)
  | .stale => (p.stale, none)
  | .invalidate => (p.invalidate, none)
  | .disconnect => (p.disconnect, none)
  | .advance now => (p.advance now, none)

/-- The note of a call: a message is rejected when `false` is returned for it. -/
def note (p : KrakenBookProcessor) (c : Call) : Note :=
  match (p.call crc c).2, c.message with
  | some true, some m => .accepted m
  | some true, none => .neutral
  | some false, _ => .rejected
  | none, _ =>
    match c with
    | .advance _ => .neutral
    | _ => .marked

/-- The processor after a sequence of calls. -/
def run (p : KrakenBookProcessor) (calls : List Call) : KrakenBookProcessor :=
  calls.foldl (fun p c ↦ (p.call crc c).1) p

/-- The notes of a sequence of calls. -/
def notes (p : KrakenBookProcessor) : List Call → List Note
  | [] => []
  | c :: calls => p.note crc c :: notes (p.call crc c).1 calls

/-- A run and one more call. -/
theorem run_concat (p : KrakenBookProcessor) (calls : List Call) (c : Call) :
    p.run crc (calls ++ [c]) = ((p.run crc calls).call crc c).1 := by
  rw [run, List.foldl_append]
  rfl

private theorem notes_concat (p : KrakenBookProcessor) (calls : List Call) (c : Call) :
    p.notes crc (calls ++ [c]) = p.notes crc calls ++ [(p.run crc calls).note crc c] := by
  induction calls generalizing p with
  | nil => rfl
  | cons d rest ih =>
    rw [List.cons_append, notes, notes, ih, List.cons_append]
    rfl

/-! ### What a call can do -/

/-- The checksum book and the checksum stay. -/
structure Frame (p p' : KrakenBookProcessor) : Prop where
  depth : p'.depth = p.depth
  checksumBook : p'.checksumBook = p.checksumBook
  checksum : p'.checksum = p.checksum

/-- Both books are replaced by what a message was staged to. -/
structure Installs (p : KrakenBookProcessor) (m : KrakenBookMessage) (p' : KrakenBookProcessor) :
    Prop where
  depth : p'.depth = p.depth
  awaited : m.type = .snapshot ∨ p.book.state = .valid
  staged : p.stage m = .ok p'.checksumBook
  checked : p'.checksumBook.checksum crc = .ok m.checksum
  checksum : p'.checksum = m.checksum
  book : candidate p'.checksumBook m = .ok p'.book

/-- The states that calls mark a book with. -/
def markStates : List BookState := [.initializing, .stale, .disconnected, .invalid]

/-- The effect of a call on the two books. -/
inductive Step (p : KrakenBookProcessor) : Note → KrakenBookProcessor → Prop
  | accepted {m : KrakenBookMessage} {p' : KrakenBookProcessor} (installs : p.Installs crc m p') :
      Step p (.accepted m) p'
  | unusable {n : Note} {p' : KrakenBookProcessor} (note : n = .rejected ∨ n = .marked)
      (frame : p.Frame p') (book : p'.book = p.book.mark p'.book.state)
      (state : p'.book.state ≠ .valid)
      (cause : p'.book.state = p.book.state ∨ p'.book.state ∈ markStates) : Step p n p'
  | neutral {p' : KrakenBookProcessor} (frame : p.Frame p') (book : p'.book = p.book) :
      Step p .neutral p'

variable {crc}

private theorem Frame.trans {p q r : KrakenBookProcessor} (hp : p.Frame q) (hq : q.Frame r) :
    p.Frame r :=
  ⟨hq.depth.trans hp.depth, hq.checksumBook.trans hp.checksumBook, hq.checksum.trans hp.checksum⟩

private theorem verify_cases {p p' : KrakenBookProcessor} {m : KrakenBookMessage}
    {next : KrakenChecksumBook} {sum : UInt32} {ok : Bool} (h : p.verify m next sum = (p', ok)) :
    (ok = true ∧ p'.depth = p.depth ∧ p'.checksumBook = next ∧ sum = m.checksum ∧
        p'.checksum = m.checksum ∧ candidate next m = .ok p'.book) ∨
      (ok = false ∧ p.Frame p' ∧ p'.book = p.book.mark .invalid) := by
  unfold verify at h
  simp only at h
  split at h
  · cases h
    exact .inr ⟨rfl, ⟨rfl, rfl, rfl⟩, rfl⟩
  · next he =>
    rw [ne_eq, not_not] at he
    split at h
    · cases h
      exact .inr ⟨rfl, ⟨rfl, rfl, rfl⟩, rfl⟩
    · next book hb =>
      cases h
      exact .inl ⟨rfl, rfl, rfl, he, he, hb⟩

private theorem apply_cases {p p' : KrakenBookProcessor} {m : KrakenBookMessage} {ok : Bool}
    (h : p.apply crc m = (p', ok)) :
    (ok = true ∧ p.Installs crc m p') ∨
      (ok = false ∧ p.Frame p' ∧
        (p'.book = p.book ∧ p.book.state ≠ .valid ∨ p'.book = p.book.mark .invalid)) := by
  have hstage : (p.countBook m.type).stage m = p.stage m := by
    cases m.type <;> rfl
  have hframe : p.Frame (p.countBook m.type) ∧ (p.countBook m.type).book = p.book := by
    cases m.type <;> exact ⟨⟨rfl, rfl, rfl⟩, rfl⟩
  obtain ⟨hf, hb⟩ := hframe
  -- every exception ends in the same handler
  have hfail (failure : Failure) : p.Frame ((p.countBook m.type).applyError failure) ∧
      ((p.countBook m.type).applyError failure).book = p.book.mark .invalid := by
    refine ⟨⟨hf.depth, hf.checksumBook, hf.checksum⟩, ?_⟩
    rw [← hb]
    rfl
  unfold apply at h
  simp only [hstage] at h
  split at h
  · next hw =>
    simp only [Bool.and_eq_true, decide_eq_true_eq] at hw
    cases h
    rw [hb] at hw
    exact .inr ⟨rfl, ⟨hf.depth, hf.checksumBook, hf.checksum⟩, .inl ⟨hb, hw.2⟩⟩
  · next hw =>
    split at h
    · next failure hs =>
      cases h
      exact .inr ⟨rfl, (hfail failure).1, .inr (hfail failure).2⟩
    · next next hs =>
      split at h
      · next failure hc =>
        cases h
        exact .inr ⟨rfl, (hfail failure).1, .inr (hfail failure).2⟩
      · next sum hc =>
        obtain ⟨hok, hd, hnext, hsum, hchecksum, hcand⟩ | ⟨hok, hfr, hbook⟩ := verify_cases h
        · refine .inl ⟨hok, ?_⟩
          have hawaited : m.type = .snapshot ∨ p.book.state = .valid := by
            rw [hb] at hw
            cases ht : m.type with
            | snapshot => exact .inl rfl
            | update => simpa [ht] using hw
          rw [← hnext] at hs hcand hc
          rw [hsum] at hc
          exact ⟨hd.trans hf.depth, hawaited, hs, hc, hchecksum, hcand⟩
        · rw [hb] at hbook
          exact .inr ⟨hok, hf.trans hfr, .inr hbook⟩

private theorem frame_receive (p : KrakenBookProcessor) (mono : ReceiveMonotonicTimestamp) :
    p.Frame (p.receive mono) :=
  ⟨rfl, rfl, rfl⟩

private theorem Installs.of_receive {p p' : KrakenBookProcessor} {m : KrakenBookMessage}
    {mono : ReceiveMonotonicTimestamp} (h : (p.receive mono).Installs crc m p') :
    p.Installs crc m p' :=
  ⟨h.depth, h.awaited, h.staged, h.checked, h.checksum, h.book⟩

private theorem step_marked (p : KrakenBookProcessor) {state : BookState} (h : state ≠ .valid)
    (hm : state ∈ markStates) :
    p.Step crc .marked (p.mark state) :=
  .unusable (.inr rfl) ⟨rfl, rfl, rfl⟩ rfl h (.inr hm)

private theorem step_rejected {p p' : KrakenBookProcessor} (hf : p.Frame p')
    (hb : p'.book = p.book ∧ p.book.state ≠ .valid ∨ p'.book = p.book.mark .invalid) :
    p.Step crc .rejected p' := by
  obtain ⟨hb, hs⟩ | hb := hb
  · refine .unusable (.inl rfl) hf ?_ ?_ (.inl ?_)
    · rw [hb]
      rfl
    · rwa [hb]
    · rw [hb]
  · refine .unusable (.inl rfl) hf ?_ ?_ (.inr ?_)
    · rw [hb]
      rfl
    · rw [hb]
      nofun
    · rw [hb]
      exact (by decide : BookState.invalid ∈ markStates)

private theorem step_process (p : KrakenBookProcessor) (raw : Bytes) (wall : ReceiveWallTimestamp)
    (mono : ReceiveMonotonicTimestamp) :
    p.Step crc (p.note crc (.process raw wall mono)) (p.process crc raw wall mono).1 := by
  have hframe := frame_receive p mono
  unfold note call process
  simp only [Call.message]
  cases parse raw wall mono with
  | heartbeat => exact .neutral ⟨rfl, rfl, rfl⟩ rfl
  | subscriptionSuccess => exact .neutral ⟨rfl, rfl, rfl⟩ rfl
  | ignored => exact .neutral ⟨rfl, rfl, rfl⟩ rfl
  | subscriptionFailure error => exact step_rejected ⟨rfl, rfl, rfl⟩ (.inr rfl)
  | error error => exact step_rejected ⟨rfl, rfl, rfl⟩ (.inr rfl)
  | book m =>
    cases h : (p.receive mono).dispatch crc mono (.book m) with
    | mk p' ok =>
      obtain ⟨rfl, hi⟩ | ⟨rfl, hf, hb⟩ := apply_cases h
      · exact .accepted hi.of_receive
      · exact step_rejected (hframe.trans hf) hb

/-- Every call is a step. -/
theorem call_step (p : KrakenBookProcessor) (c : Call) :
    p.Step crc (p.note crc c) (p.call crc c).1 := by
  cases c with
  | process raw wall mono => exact step_process p raw wall mono
  | apply m =>
    unfold note call
    simp only [Call.message]
    cases h : p.apply crc m with
    | mk p' ok =>
      obtain ⟨rfl, hi⟩ | ⟨rfl, hf, hb⟩ := apply_cases h
      · exact .accepted hi
      · exact step_rejected hf hb
  | resetConnection =>
    have hm : BookState.initializing ∈ markStates := by decide
    exact .unusable (.inr rfl) ⟨rfl, rfl, rfl⟩ rfl nofun (.inr hm)
  | stale => exact step_marked p nofun (by decide)
  | invalidate => exact step_marked p nofun (by decide)
  | disconnect => exact step_marked p nofun (by decide)
  | advance now => exact .neutral ⟨rfl, rfl, rfl⟩ rfl

/-- What steps preserve holds along runs. -/
theorem run_invariant {I : KrakenBookProcessor → List Note → Prop} {p₀ : KrakenBookProcessor}
    (hstart : I p₀ [])
    (hstep : ∀ p log n p', p.Step crc n p' → I p log → I p' (log ++ [n])) (calls : List Call) :
    I (p₀.run crc calls) (p₀.notes crc calls) := by
  induction calls using List.reverseRecOn with
  | nil => exact hstart
  | append_singleton calls c ih =>
    rw [run_concat, notes_concat]
    exact hstep _ _ _ _ (call_step _ c) ih

end KrakenBookProcessor

end ArbitrageEngine.Kraken
