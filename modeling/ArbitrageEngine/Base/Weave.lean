import Mathlib.Data.List.Basic

/-!
# Weaving events into a loop over records

A loop reads records one after another. Events are kept apart, each with a position; before
every record, and once at the end, the loop takes in the events at the front whose position
is the current index. For events filed under the number of records before them this is a
plain fold over the original history.
-/

namespace Base.Weave

/-- The parameters of a loop that weaves events of type `ε` into records of type `ρ`. -/
structure Loop (σ ε ρ φ : Type) where
  /-- What happens whenever the loop turns to the events. -/
  opening : σ → σ
  /-- The position of an event. -/
  position : ε → Nat
  /-- The index under which the events before a record are looked up, given the records read. -/
  index : Nat → ρ → Nat
  event : σ → ε → Except φ σ
  record : σ → ρ → Except φ σ

variable {σ ε ρ φ : Type}

namespace Loop

/-- Takes in the events at the front whose position is `index`. -/
def takeIn (loop : Loop σ ε ρ φ) (index : Nat) : σ → List ε → Except φ (σ × List ε)
  | s, [] => .ok (s, [])
  | s, e :: events =>
    if loop.position e = index then do loop.takeIn index (← loop.event s e) events
    else .ok (s, e :: events)

/-- The loop, `count` records after its start: the state and the events left over. -/
def run (loop : Loop σ ε ρ φ) (count : Nat) : σ → List ρ → List ε → Except φ (σ × List ε)
  | s, [], events => loop.takeIn count (loop.opening s) events
  | s, r :: records, events => do
    let (s, events) ← loop.takeIn (loop.index count r) (loop.opening s) events
    let s ← loop.record s r
    loop.run (count + 1) s records events

/-- The loop over some of the records, up to where it turns to the events again. -/
def reading (loop : Loop σ ε ρ φ) (count : Nat) : σ → List ρ → List ε → Except φ (σ × List ε)
  | s, [], events => .ok (s, events)
  | s, r :: records, events => do
    let (s, events) ← loop.takeIn (loop.index count r) (loop.opening s) events
    let s ← loop.record s r
    loop.reading (count + 1) s records events

/-- One item of a history; a record is followed by the opening of the next round. -/
def item (loop : Loop σ ε ρ φ) (s : σ) : ε ⊕ ρ → Except φ σ
  | .inl e => loop.event s e
  | .inr r => do return loop.opening (← loop.record s r)

/-- Every event of the history carries the number of records before it, and every record is
looked up under its own number. -/
def Filed (loop : Loop σ ε ρ φ) : Nat → List (ε ⊕ ρ) → Prop
  | _, [] => True
  | n, .inl e :: history => loop.position e = n ∧ loop.Filed n history
  | n, .inr r :: history => loop.index n r = n ∧ loop.Filed (n + 1) history

end Loop

/-- The events of a history. -/
def events (history : List (ε ⊕ ρ)) : List ε := history.filterMap Sum.getLeft?

/-- The records of a history. -/
def records (history : List (ε ⊕ ρ)) : List ρ := history.filterMap Sum.getRight?

@[simp]
private theorem events_inl (e : ε) (history : List (ε ⊕ ρ)) :
    events (.inl e :: history) = e :: events history := rfl

@[simp]
private theorem events_inr (r : ρ) (history : List (ε ⊕ ρ)) :
    events (.inr r :: history) = events history := rfl

@[simp]
private theorem records_inl (e : ε) (history : List (ε ⊕ ρ)) :
    records (.inl e :: history) = records history := rfl

/-- A record at the head of a history. -/
@[simp]
theorem records_inr (r : ρ) (history : List (ε ⊕ ρ)) :
    records (.inr r :: history) = r :: records history := rfl

/-- The events of a history in two parts. -/
theorem events_append (history rest : List (ε ⊕ ρ)) :
    events (history ++ rest) = events history ++ events rest :=
  List.filterMap_append

/-- The records of a history in two parts. -/
theorem records_append (history rest : List (ε ⊕ ρ)) :
    records (history ++ rest) = records history ++ records rest :=
  List.filterMap_append

variable {loop : Loop σ ε ρ φ}

/-- The second part of a history is filed behind the records of the first. -/
theorem filed_append {n : Nat} {history rest : List (ε ⊕ ρ)} :
    loop.Filed n (history ++ rest) ↔
      loop.Filed n history ∧ loop.Filed (n + (records history).length) rest := by
  induction history generalizing n with
  | nil => simp [Loop.Filed, records]
  | cons x history ih =>
    cases x with
    | inl e => simp only [List.cons_append, Loop.Filed, ih, records_inl, and_assoc]
    | inr r =>
      simp only [List.cons_append, Loop.Filed, ih, records_inr, List.length_cons, and_assoc]
      rw [Nat.add_right_comm, Nat.add_assoc]

/-- No event of a history that starts after `n` records is filed before them. -/
theorem position_of_filed {n : Nat} {history : List (ε ⊕ ρ)} (h : loop.Filed n history) :
    ∀ e ∈ events history, n ≤ loop.position e := by
  induction history generalizing n with
  | nil =>
    intro e he
    cases he
  | cons x history ih =>
    cases x with
    | inl e =>
      intro e' he
      rcases List.mem_cons.mp he with rfl | he
      · exact Nat.le_of_eq h.1.symm
      · exact ih h.2 e' he
    | inr r =>
      intro e he
      exact Nat.le_of_succ_le (ih h.2 e he)

/-- Events are filed in order. -/
theorem pairwise_position_of_filed {n : Nat} {history : List (ε ⊕ ρ)} (h : loop.Filed n history) :
    (events history).Pairwise fun a b ↦ loop.position a ≤ loop.position b := by
  induction history generalizing n with
  | nil => exact List.Pairwise.nil
  | cons x history ih =>
    cases x with
    | inl e =>
      refine List.Pairwise.cons ?_ (ih h.2)
      intro e' he
      rw [h.1]
      exact position_of_filed h.2 e' he
    | inr r => exact ih h.2

/-- No event of a history is filed after its records. -/
theorem position_le_of_filed {n : Nat} {history : List (ε ⊕ ρ)} (h : loop.Filed n history) :
    ∀ e ∈ events history, loop.position e ≤ n + (records history).length := by
  induction history generalizing n with
  | nil =>
    intro e he
    cases he
  | cons x history ih =>
    cases x with
    | inl e =>
      intro e' he
      rcases List.mem_cons.mp he with rfl | he
      · rw [h.1]
        exact Nat.le_add_right _ _
      · exact ih h.2 e' he
    | inr r =>
      intro e he
      have hle := ih h.2 e he
      rw [records_inr, List.length_cons]
      omega

private theorem index_of_filed {n : Nat} {history : List (ε ⊕ ρ)} (h : loop.Filed n history) {r : ρ}
    {rest : List ρ} (hr : records history = r :: rest) : loop.index n r = n := by
  induction history with
  | nil => cases hr
  | cons x history ih =>
    cases x with
    | inl e => exact ih h.2 hr
    | inr r' =>
      cases hr
      exact h.1

/-- Events filed later are left where they are. -/
theorem takeIn_of_later {n : Nat} {pending : List ε} (h : ∀ e ∈ pending, n < loop.position e)
    (s : σ) : loop.takeIn n s pending = .ok (s, pending) := by
  cases pending with
  | nil => rfl
  | cons e pending =>
    have hne : loop.position e ≠ n := Nat.ne_of_gt (h e List.mem_cons_self)
    rw [Loop.takeIn, if_neg hne]

/-- The loop over the separated history, once it has turned to the events. -/
def Loop.resume (loop : Loop σ ε ρ φ) (count : Nat) (s : σ) (records : List ρ) (events : List ε) :
    Except φ (σ × List ε) :=
  match records with
  | [] => loop.takeIn count s events
  | r :: records => do
    let (s, events) ← loop.takeIn (loop.index count r) s events
    let s ← loop.record s r
    loop.run (count + 1) s records events

private theorem run_eq_resume (count : Nat) (s : σ) (records : List ρ) (events : List ε) :
    loop.run count s records events = loop.resume count (loop.opening s) records events := by
  cases records <;> rfl

/-- An event at the front of the history; `later` are events behind the history. -/
theorem resume_event {n : Nat} {e : ε} {history : List (ε ⊕ ρ)}
    (h : loop.Filed n (.inl e :: history)) (later : List ε) (s : σ) :
    loop.resume n s (records history) (e :: (events history ++ later)) =
      loop.event s e >>= fun s ↦ loop.resume n s (records history) (events history ++ later) := by
  unfold Loop.resume
  cases hr : records history with
  | nil =>
    dsimp only
    rw [Loop.takeIn, if_pos h.1]
  | cons r rest =>
    dsimp only
    rw [index_of_filed h.2 hr, Loop.takeIn, if_pos h.1, bind_assoc]

private theorem resume_record {n : Nat} {r : ρ} {history : List (ε ⊕ ρ)}
    (h : loop.Filed n (.inr r :: history)) {later : List ε}
    (hl : ∀ e ∈ later, n < loop.position e) (s : σ) :
    loop.resume n s (r :: records history) (events history ++ later) =
      loop.record s r >>= fun s ↦
        loop.resume (n + 1) (loop.opening s) (records history) (events history ++ later) := by
  have hlater : ∀ e ∈ events history ++ later, n < loop.position e := by
    intro e he
    obtain he | he := List.mem_append.mp he
    · exact position_of_filed h.2 e he
    · exact hl e he
  simp only [← run_eq_resume]
  rw [Loop.resume, h.1, takeIn_of_later hlater]
  rfl

private theorem resume_eq_foldlM {n : Nat} {history : List (ε ⊕ ρ)} (h : loop.Filed n history)
    {later : List ε} (hl : ∀ e ∈ later, n + (records history).length < loop.position e) (s : σ) :
    loop.resume n s (records history) (events history ++ later) =
      (history.foldlM loop.item s).map fun final ↦ (final, later) := by
  induction history generalizing n s with
  | nil => exact takeIn_of_later hl s
  | cons x history ih =>
    cases x with
    | inl e =>
      rw [records_inl, events_inl, List.cons_append, resume_event h, List.foldlM_cons, Loop.item]
      cases loop.event s e with
      | error failure => rfl
      | ok next => exact ih h.2 hl next
    | inr r =>
      have hbehind : ∀ e ∈ later, n + 1 + (records history).length < loop.position e := by
        intro e he
        have hle := hl e he
        rw [records_inr, List.length_cons] at hle
        omega
      have hn : ∀ e ∈ later, n < loop.position e := by
        intro e he
        have hle := hl e he
        omega
      rw [records_inr, events_inr, resume_record h hn, List.foldlM_cons, Loop.item]
      cases loop.record s r with
      | error failure => rfl
      | ok next => exact ih h.2 hbehind (loop.opening next)

/-! ### Finding the history -/

/-- The records, each behind the events whose position is its number, counted from `n`; the events
behind the last record come last. -/
def woven (position : ε → Nat) (pending : List ε) : Nat → List ρ → List (ε ⊕ ρ)
  | n, [] => (pending.filter (position · = n)).map .inl
  | n, r :: read =>
    (pending.filter (position · = n)).map .inl ++ .inr r :: woven position pending (n + 1) read

private theorem records_current (current : List ε) (history : List (ε ⊕ ρ)) :
    records (current.map .inl ++ history) = records history := by
  induction current with
  | nil => rfl
  | cons e current ih => rwa [List.map_cons, List.cons_append, records_inl]

private theorem events_current (current : List ε) (history : List (ε ⊕ ρ)) :
    events (current.map .inl ++ history) = current ++ events history := by
  induction current with
  | nil => rfl
  | cons e current ih => rw [List.map_cons, List.cons_append, events_inl, ih, List.cons_append]

private theorem filed_current {n : Nat} {current : List ε} {history : List (ε ⊕ ρ)}
    (hc : ∀ e ∈ current, loop.position e = n) (h : loop.Filed n history) :
    loop.Filed n (current.map .inl ++ history) := by
  induction current with
  | nil => exact h
  | cons e current ih =>
    rw [List.forall_mem_cons] at hc
    exact ⟨hc.1, ih hc.2⟩

/-- No record is lost or moved. -/
theorem records_woven (position : ε → Nat) (pending : List ε) (n : Nat) (read : List ρ) :
    records (woven position pending n read) = read := by
  induction read generalizing n with
  | nil =>
    rw [woven, ← List.append_nil (List.map _ _), records_current]
    rfl
  | cons r read ih => rw [woven, records_current, records_inr, ih]

/-- Every event stands behind as many records as its position says. -/
theorem filed_woven (pending : List ε) {n : Nat} {read : List ρ}
    (hi : ∀ k r, read[k]? = some r → loop.index (n + k) r = n + k) :
    loop.Filed n (woven loop.position pending n read) := by
  have current (n : Nat) : ∀ e ∈ pending.filter (loop.position · = n), loop.position e = n :=
    fun e he ↦ of_decide_eq_true (List.mem_filter.mp he).2
  induction read generalizing n with
  | nil =>
    rw [woven, ← List.append_nil (List.map _ _)]
    exact filed_current (current n) trivial
  | cons r read ih =>
    rw [woven]
    refine filed_current (current n) ⟨hi 0 r rfl, ih ?_⟩
    intro k other hk
    have := hi (k + 1) other hk
    rwa [← Nat.add_assoc, Nat.add_right_comm] at this

/-- Two parts of a list one behind the other, if nothing of the second part precedes the first. -/
private theorem filter_append_filter {P Q R : ε → Bool} {pending : List ε}
    (hs : pending.Pairwise fun a b ↦ Q a = true → P b = false)
    (hPQ : ∀ e ∈ pending, P e = true → Q e = false)
    (hR : ∀ e ∈ pending, R e = (P e || Q e)) :
    pending.filter P ++ pending.filter Q = pending.filter R := by
  induction pending with
  | nil => rfl
  | cons e pending ih =>
    obtain ⟨hfirst, hrest⟩ := List.pairwise_cons.mp hs
    rw [List.forall_mem_cons] at hPQ hR
    have ih := ih hrest hPQ.2 hR.2
    cases hp : P e with
    | true =>
      rw [List.filter_cons_of_pos hp, List.filter_cons_of_neg (by simp [hPQ.1 hp]),
        List.filter_cons_of_pos (by simp [hR.1, hp]), List.cons_append, ih]
    | false =>
      cases hq : Q e with
      | true =>
        have none : pending.filter P = [] :=
          List.filter_eq_nil_iff.mpr fun other ho ↦ by simp [hfirst other ho hq]
        rw [none, List.nil_append] at ih
        rw [List.filter_cons_of_neg (by simp [hp]), List.filter_cons_of_pos hq,
          List.filter_cons_of_pos (by simp [hR.1, hq]), none, List.nil_append, ih]
      | false =>
        rw [List.filter_cons_of_neg (by simp [hp]), List.filter_cons_of_neg (by simp [hq]),
          List.filter_cons_of_neg (by simp [hR.1, hp, hq]), ih]

/-- Sorted events stay in order, up to those behind the last record. -/
theorem events_woven {position : ε → Nat} {pending : List ε}
    (hs : pending.Pairwise fun a b ↦ position a ≤ position b) (n : Nat) (read : List ρ) :
    events (woven position pending n read) =
      pending.filter fun e ↦ n ≤ position e ∧ position e ≤ n + read.length := by
  induction read generalizing n with
  | nil =>
    rw [woven, ← List.append_nil (List.map _ _), events_current]
    apply (List.append_nil _).trans
    apply List.filter_congr
    intro e _
    rw [List.length_nil, decide_eq_decide]
    omega
  | cons r read ih =>
    rw [woven, events_current, events_inr, ih, List.length_cons]
    apply filter_append_filter
    · refine hs.imp fun {a b} hab ha ↦ ?_
      simp only [decide_eq_true_eq] at ha
      simp only [decide_eq_false_iff_not]
      omega
    · intro e _ he
      simp only [decide_eq_true_eq] at he
      simp only [decide_eq_false_iff_not]
      omega
    · intro e _
      rw [← Bool.decide_or, decide_eq_decide]
      omega

/-- Weaving sorted events into records that are looked up under their own numbers is folding over
the woven history; the events behind the last record are left over. -/
theorem run_eq_woven {read : List ρ} {pending : List ε}
    (hi : ∀ k r, read[k]? = some r → loop.index k r = k)
    (hs : pending.Pairwise fun a b ↦ loop.position a ≤ loop.position b) (s : σ) :
    loop.run 0 s read pending =
      ((woven loop.position pending 0 read).foldlM loop.item (loop.opening s)).map fun final ↦
        (final, pending.filter (read.length < loop.position ·)) := by
  have hfiled : loop.Filed 0 (woven loop.position pending 0 read) := by
    apply filed_woven
    intro k r hk
    rw [Nat.zero_add]
    exact hi k r hk
  have hrecords := records_woven loop.position pending 0 read
  have hparts : events (woven loop.position pending 0 read) ++
      pending.filter (read.length < loop.position ·) = pending := by
    rw [events_woven hs]
    refine (filter_append_filter (R := fun _ ↦ true) ?_ ?_ ?_).trans (List.filter_true _)
    · refine hs.imp fun {a b} hab ha ↦ ?_
      simp only [decide_eq_true_eq] at ha
      simp only [decide_eq_false_iff_not]
      omega
    · intro e _ he
      simp only [decide_eq_true_eq] at he
      simp only [decide_eq_false_iff_not]
      omega
    · intro e _
      rw [← Bool.decide_or, eq_comm, decide_eq_true_iff]
      omega
  have hlater : ∀ e ∈ pending.filter (read.length < loop.position ·),
      0 + (records (woven loop.position pending 0 read)).length < loop.position e := by
    intro e he
    rw [hrecords, Nat.zero_add]
    exact of_decide_eq_true (List.mem_filter.mp he).2
  have hresume := resume_eq_foldlM hfiled hlater (loop.opening s)
  rw [hrecords, hparts] at hresume
  rw [run_eq_resume, hresume]

/-! ### Invariants -/

/-- What the events at an index preserve if they share a property. -/
private theorem takeIn_preserves {J : σ → Prop} {P : ε → Prop} {index : Nat}
    (hevent : ∀ s e s', J s → P e → loop.position e = index → loop.event s e = .ok s' → J s')
    {s s' : σ} {pending left : List ε} (hp : ∀ e ∈ pending, P e)
    (h : loop.takeIn index s pending = .ok (s', left)) (hs : J s) :
    J s' ∧ ∀ e ∈ left, P e := by
  induction pending generalizing s with
  | nil =>
    cases h
    exact ⟨hs, hp⟩
  | cons e pending ih =>
    obtain ⟨he, hp'⟩ := List.forall_mem_cons.mp hp
    rw [Loop.takeIn] at h
    split at h
    · next hposition =>
      cases hnext : loop.event s e with
      | error failure =>
        rw [hnext] at h
        cases h
      | ok next =>
        rw [hnext] at h
        exact ih hp' h (hevent s e next hs he hposition hnext)
    · cases h
      exact ⟨hs, hp⟩

/-- What the events at an index preserve. -/
theorem takeIn_invariant_at {J : σ → Prop} {index : Nat}
    (hevent : ∀ s e s', J s → loop.position e = index → loop.event s e = .ok s' → J s') {s s' : σ}
    {pending left : List ε} (h : loop.takeIn index s pending = .ok (s', left)) (hs : J s) :
    J s' :=
  (takeIn_preserves (P := fun _ ↦ True) (fun s e s' hj _ ↦ hevent s e s' hj)
    (fun _ _ ↦ trivial) h hs).1

/-- What the single events preserve. -/
theorem takeIn_invariant {J : σ → Prop}
    (hevent : ∀ s e s', J s → loop.event s e = .ok s' → J s') {index : Nat} {s s' : σ}
    {pending left : List ε} (h : loop.takeIn index s pending = .ok (s', left)) (hs : J s) :
    J s' :=
  takeIn_invariant_at (fun s e s' hj _ ↦ hevent s e s' hj) h hs

/-- An invariant `I` between the rounds and an invariant `J` within them, both about the records
read so far. -/
theorem reading_invariant {I J : List ρ → σ → Prop}
    (hopening : ∀ read s, I read s → J read (loop.opening s))
    (hevent : ∀ read s e s', J read s → loop.event s e = .ok s' → J read s')
    (hrecord : ∀ read s r s', J read s → loop.record s r = .ok s' → I (read ++ [r]) s')
    {count : Nat} {s s' : σ} {read rest : List ρ} {pending left : List ε}
    (h : loop.reading count s rest pending = .ok (s', left)) (hs : I read s) :
    I (read ++ rest) s' := by
  induction rest generalizing count s read pending with
  | nil =>
    cases h
    rwa [List.append_nil]
  | cons r rest ih =>
    rw [Loop.reading] at h
    cases ht : loop.takeIn (loop.index count r) (loop.opening s) pending with
    | error failure =>
      rw [ht] at h
      cases h
    | ok taken =>
      rw [ht] at h
      have hj := takeIn_invariant (J := J read) (hevent read) ht (hopening read s hs)
      cases hr : loop.record taken.1 r with
      | error failure =>
        simp only [bind, Except.bind, hr] at h
        cases h
      | ok next =>
        simp only [bind, Except.bind, hr] at h
        rw [List.append_cons]
        exact ih h (hrecord read taken.1 r next hj hr)

/-- A round of a loop that comes to its end. -/
theorem run_cons_ok {count : Nat} {s : σ} {r : ρ} {records : List ρ} {pending : List ε}
    {result : σ × List ε} (h : loop.run count s (r :: records) pending = .ok result) :
    ∃ taking left next,
      loop.takeIn (loop.index count r) (loop.opening s) pending = .ok (taking, left) ∧
      loop.record taking r = .ok next ∧ loop.run (count + 1) next records left = .ok result := by
  rw [Loop.run] at h
  cases ht : loop.takeIn (loop.index count r) (loop.opening s) pending with
  | error failure =>
    rw [ht] at h
    cases h
  | ok taken =>
    rw [ht] at h
    simp only [bind, Except.bind] at h
    cases hr : loop.record taken.1 r with
    | error failure =>
      rw [hr] at h
      cases h
    | ok next =>
      rw [hr] at h
      exact ⟨taken.1, taken.2, next, rfl, hr, h⟩

private theorem run_invariant_from {I J : List ρ → σ → Prop}
    (hopening : ∀ read s, I read s → J read (loop.opening s))
    (hevent : ∀ read s e s', J read s → loop.position e = read.length → loop.event s e = .ok s' →
      J read s')
    (hrecord : ∀ read s r s', J read s → loop.index read.length r = read.length →
      loop.record s r = .ok s' → I (read ++ [r]) s')
    {s s' : σ} {read rest : List ρ} {pending left : List ε}
    (hi : ∀ k r, rest[k]? = some r → loop.index (read.length + k) r = read.length + k)
    (h : loop.run read.length s rest pending = .ok (s', left)) (hs : I read s) :
    J (read ++ rest) s' := by
  induction rest generalizing s read pending with
  | nil =>
    rw [List.append_nil]
    exact takeIn_invariant_at (hevent read) h (hopening read s hs)
  | cons r rest ih =>
    obtain ⟨taking, left', next, htaken, hnext, hrest⟩ := run_cons_ok h
    have hindex : loop.index read.length r = read.length := hi 0 r rfl
    rw [hindex] at htaken
    have hj := takeIn_invariant_at (hevent read) htaken (hopening read s hs)
    have hlength : (read ++ [r]).length = read.length + 1 := List.length_append
    rw [List.append_cons]
    apply ih (s := next)
    · intro k other hk
      have := hi (k + 1) other hk
      rw [hlength, Nat.add_right_comm, Nat.add_assoc]
      exact this
    · rw [hlength]
      exact hrest
    · exact hrecord read taking r next hj hindex hnext

/-- The invariants of a loop that comes to its end and whose records are looked up under their own
numbers: `I` between the rounds, `J` within them. -/
theorem run_invariant {I J : List ρ → σ → Prop}
    (hopening : ∀ read s, I read s → J read (loop.opening s))
    (hevent : ∀ read s e s', J read s → loop.position e = read.length → loop.event s e = .ok s' →
      J read s')
    (hrecord : ∀ read s r s', J read s → loop.index read.length r = read.length →
      loop.record s r = .ok s' → I (read ++ [r]) s')
    {s s' : σ} {records : List ρ} {pending left : List ε}
    (hi : ∀ k r, records[k]? = some r → loop.index k r = k)
    (h : loop.run 0 s records pending = .ok (s', left)) (hs : I [] s) : J records s' := by
  apply @run_invariant_from _ _ _ _ loop I J hopening hevent hrecord s s' [] records pending left
  · intro k r hk
    rw [List.length_nil, Nat.zero_add]
    exact hi k r hk
  · exact h
  · exact hs

/-- What the events and the records of a loop preserve; the events share a property. -/
theorem run_preserves {J : σ → Prop} {P : ε → Prop} (hopening : ∀ s, J s → J (loop.opening s))
    (hevent : ∀ s e s', J s → P e → loop.event s e = .ok s' → J s')
    (hrecord : ∀ s r s', J s → loop.record s r = .ok s' → J s') {count : Nat} {s s' : σ}
    {records : List ρ} {pending left : List ε} (hp : ∀ e ∈ pending, P e)
    (h : loop.run count s records pending = .ok (s', left)) (hs : J s) : J s' := by
  induction records generalizing count s pending with
  | nil =>
    exact (takeIn_preserves (fun s e s' hj he _ ↦ hevent s e s' hj he) hp h (hopening s hs)).1
  | cons r records ih =>
    obtain ⟨taking, left', next, htaken, hnext, hrest⟩ := run_cons_ok h
    obtain ⟨htaking, hleft⟩ :=
      takeIn_preserves (fun s e s' hj he _ ↦ hevent s e s' hj he) hp htaken (hopening s hs)
    exact ih hleft hrest (hrecord taking r next htaking hnext)

/-! ### Stopping -/

/-- From `s`, `count` records after its start, the loop comes to the record `r` behind `read`; it is
in the state `after` once it has taken in the events before it. -/
inductive Loop.Reaches (loop : Loop σ ε ρ φ) :
    Nat → σ → List ρ → List ε → List ρ → ρ → σ → Prop
  | here {count : Nat} {s after : σ} {r : ρ} {records : List ρ} {pending left : List ε}
      (taken : loop.takeIn (loop.index count r) (loop.opening s) pending = .ok (after, left)) :
      loop.Reaches count s (r :: records) pending [] r after
  | behind {count : Nat} {s taking next after : σ} {first r : ρ} {read records : List ρ}
      {pending left : List ε}
      (taken : loop.takeIn (loop.index count first) (loop.opening s) pending = .ok (taking, left))
      (recorded : loop.record taking first = .ok next)
      (reaches : loop.Reaches (count + 1) next records left read r after) :
      loop.Reaches count s (first :: records) pending (first :: read) r after

/-- A loop reaches a record behind those that it has read. -/
theorem Loop.Reaches.records_eq {count : Nat} {s after : σ} {r : ρ} {read records : List ρ}
    {pending : List ε} (h : loop.Reaches count s records pending read r after) :
    ∃ rest, records = read ++ r :: rest := by
  induction h with
  | here taken => exact ⟨_, rfl⟩
  | behind taken recorded reaches ih =>
    obtain ⟨rest, rfl⟩ := ih
    exact ⟨rest, rfl⟩

/-- The invariants of `reading_invariant` at a record that is reached. -/
theorem Loop.Reaches.invariant {I J : List ρ → σ → Prop}
    (hopening : ∀ read s, I read s → J read (loop.opening s))
    (hevent : ∀ read s e s', J read s → loop.event s e = .ok s' → J read s')
    (hrecord : ∀ read s r s', J read s → loop.record s r = .ok s' → I (read ++ [r]) s')
    {count : Nat} {s after : σ} {r : ρ} {done read records : List ρ} {pending : List ε}
    (h : loop.Reaches count s records pending read r after) (hs : I done s) :
    J (done ++ read) after := by
  induction h generalizing done with
  | here taken =>
    rw [List.append_nil]
    exact takeIn_invariant (hevent done) taken (hopening done _ hs)
  | behind taken recorded reaches ih =>
    have hj := takeIn_invariant (hevent done) taken (hopening done _ hs)
    rw [List.append_cons]
    exact ih (hrecord done _ _ _ hj recorded)

/-- Events that cannot fail are taken in. -/
theorem exists_takeIn {pending : List ε}
    (hevent : ∀ e ∈ pending, ∀ s, ∃ s', loop.event s e = .ok s') (index : Nat) (s : σ) :
    ∃ s' left, loop.takeIn index s pending = .ok (s', left) ∧ left ⊆ pending := by
  induction pending generalizing s with
  | nil => exact ⟨s, [], rfl, List.Subset.refl _⟩
  | cons e pending ih =>
    rw [List.forall_mem_cons] at hevent
    rw [Loop.takeIn]
    split
    · obtain ⟨next, hnext⟩ := hevent.1 s
      obtain ⟨s', left, htaken, hleft⟩ := ih hevent.2 next
      rw [hnext]
      exact ⟨s', left, htaken, List.subset_cons_of_subset e hleft⟩
    · exact ⟨s, e :: pending, rfl, List.Subset.refl _⟩

/-- If no event fails, the loop stops at a record that it reaches, or not at all. -/
theorem run_error_iff {pending : List ε}
    (hevent : ∀ e ∈ pending, ∀ s, ∃ s', loop.event s e = .ok s') {count : Nat} {s : σ}
    {records : List ρ} {failure : φ} :
    loop.run count s records pending = .error failure ↔
      ∃ read r after, loop.Reaches count s records pending read r after ∧
        loop.record after r = .error failure := by
  induction records generalizing count s pending with
  | nil =>
    obtain ⟨s', left, htaken, -⟩ := exists_takeIn hevent count (loop.opening s)
    rw [Loop.run, htaken]
    constructor
    · nofun
    · rintro ⟨read, r, after, ⟨⟩, -⟩
  | cons first records ih =>
    obtain ⟨taking, left, htaken, hleft⟩ :=
      exists_takeIn hevent (loop.index count first) (loop.opening s)
    have hlater : ∀ e ∈ left, ∀ s, ∃ s', loop.event s e = .ok s' :=
      fun e he ↦ hevent e (hleft he)
    rw [Loop.run, htaken]
    simp only [bind, Except.bind]
    -- either this record throws, or the failing one is behind it
    cases hrecord : loop.record taking first with
    | error other =>
      dsimp only
      constructor
      · intro h
        cases h
        exact ⟨[], first, taking, .here htaken, hrecord⟩
      · rintro ⟨read, r, after, hreaches, hr⟩
        cases hreaches with
        | here taken =>
          rw [htaken] at taken
          cases taken
          rw [hrecord] at hr
          cases hr
          rfl
        | behind taken recorded reaches =>
          rw [htaken] at taken
          cases taken
          rw [hrecord] at recorded
          cases recorded
    | ok next =>
      dsimp only
      rw [ih hlater]
      constructor
      · rintro ⟨read, r, after, hreaches, hr⟩
        exact ⟨first :: read, r, after, .behind htaken hrecord hreaches, hr⟩
      · rintro ⟨read, r, after, hreaches, hr⟩
        cases hreaches with
        | here taken =>
          rw [htaken] at taken
          cases taken
          rw [hrecord] at hr
          cases hr
        | behind taken recorded reaches =>
          rw [htaken] at taken
          cases taken
          rw [hrecord] at recorded
          cases recorded
          exact ⟨_, r, after, reaches, hr⟩

/-- A loop that comes to its end has reached every record. -/
theorem exists_reaches {count : Nat} {s : σ} {read rest : List ρ} {r : ρ} {pending : List ε}
    {result : σ × List ε} (h : loop.run count s (read ++ r :: rest) pending = .ok result) :
    ∃ after next, loop.Reaches count s (read ++ r :: rest) pending read r after ∧
      loop.record after r = .ok next := by
  induction read generalizing count s pending with
  | nil =>
    obtain ⟨taking, left, next, htaken, hrecord, -⟩ := run_cons_ok h
    exact ⟨taking, next, .here htaken, hrecord⟩
  | cons first read ih =>
    obtain ⟨taking, left, middle, htaken, hrecord, hrest⟩ := run_cons_ok h
    obtain ⟨after, next, hreaches, hnext⟩ := ih hrest
    exact ⟨after, next, .behind htaken hrecord hreaches, hnext⟩

/-- Weaving the events of a history into its records is folding over the history; events behind
the history are left over. -/
theorem run_append_eq_foldlM {history : List (ε ⊕ ρ)} (h : loop.Filed 0 history) {later : List ε}
    (hl : ∀ e ∈ later, (records history).length < loop.position e) (s : σ) :
    loop.run 0 s (records history) (events history ++ later) =
      (history.foldlM loop.item (loop.opening s)).map fun final ↦ (final, later) := by
  rw [run_eq_resume]
  apply resume_eq_foldlM h
  rwa [Nat.zero_add]

/-- On the records and events of a filed history the loop does what the history says, item by
item. -/
theorem run_eq_foldlM {history : List (ε ⊕ ρ)} (h : loop.Filed 0 history) (s : σ) :
    loop.run 0 s (records history) (events history) =
      (history.foldlM loop.item (loop.opening s)).map fun final ↦ (final, []) := by
  have hnone : ∀ e ∈ ([] : List ε), (records history).length < loop.position e := by simp
  have hrun := run_append_eq_foldlM h hnone s
  rwa [List.append_nil] at hrun

/-- An event of a history stands behind as many records as its position says. -/
theorem length_records_of_filed {front rest : List (ε ⊕ ρ)} {e : ε}
    (h : loop.Filed 0 (front ++ .inl e :: rest)) : (records front).length = loop.position e := by
  have he := (filed_append.mp h).2.1
  rw [he, Nat.zero_add]

end Base.Weave
