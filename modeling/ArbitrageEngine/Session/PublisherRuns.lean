import ArbitrageEngine.Session.Publisher

/-!
# Runs of `publish`

`src/session/session.cpp`: what holds of the file system while any number of calls of `publish`
for one path run at the same time and stop anywhere.
-/

namespace ArbitrageEngine.Sessions

open Base Json

/-! ### Temporary files -/

namespace Publishers

variable {path : Bytes} {values : Nat → Value} {first : FileSystem Bytes} {calls : Publishers}

/-- The temporary file of a call: new since `first`, with what the call has written. -/
structure Owned (path : Bytes) (value : Value) (first files : FileSystem Bytes) (stage : Stage)
    (draft : Draft) : Prop where
  document : publish value = .ok draft.bytes
  temporary : IsTemporary path draft.name
  recent : first.inodes.length ≤ draft.fd
  opened : draft.fd < files.inodes.length
  filled : stage.Filled files.inodes[draft.fd]?

/-- Every call has a temporary file of its own, and the files of `first` are as they were. -/
structure Sound (path : Bytes) (values : Nat → Value) (first : FileSystem Bytes)
    (calls : Publishers) : Prop where
  grown : first.inodes.length ≤ calls.files.inodes.length
  kept : ∀ k < first.inodes.length, calls.files.inodes[k]? = first.inodes[k]?
  owned : ∀ i draft, (calls.stages i).draft = some draft →
    Owned path (values i) first calls.files (calls.stages i) draft
  apart : ∀ i j draft other, (calls.stages i).draft = some draft →
    (calls.stages j).draft = some other → draft.fd = other.fd → i = j

private theorem sound_start (path : Bytes) (values : Nat → Value) (first : FileSystem Bytes) :
    Sound path values first (start first) where
  grown := Nat.le_refl _
  kept _ _ := rfl
  owned _ _ h := by cases h
  apart _ _ _ _ h := by cases h

/-- A property of the calls after a step of one, given it for that call and for the others. -/
theorem update_cases {P : Nat → Stage → Prop} {stages : Nat → Stage} {i : Nat} {stage : Stage}
    (this : P i stage) (others : ∀ j, j ≠ i → P j (stages j)) (j : Nat) :
    P j (Function.update stages i stage j) := by
  by_cases same : j = i
  · rw [same, Function.update_self]
    exact this
  · rw [Function.update_of_ne same]
    exact others j same

section Call

variable {i : Nat} {files : FileSystem Bytes} {stage : Stage}

/-- The inode of another call's temporary file stays as it is. -/
theorem Sound.inode_eq (sound : Sound path values first calls)
    (h : Stage.Step path (values i) calls.files (calls.stages i) files stage) {j : Nat}
    (hne : j ≠ i) {other : Draft} (hother : (calls.stages j).draft = some other) :
    files.inodes[other.fd]? = calls.files.inodes[other.fd]? := by
  apply h.inode_eq (sound.owned j other hother).opened
  intro draft hdraft same
  exact hne (sound.apart j i other draft hother hdraft same)

/-- The temporary file of the call that makes the step. -/
theorem Sound.owned_self (sound : Sound path values first calls)
    (h : Stage.Step path (values i) calls.files (calls.stages i) files stage) {after : Draft}
    (hafter : stage.draft = some after) : Owned path (values i) first files stage after := by
  have filled := h.filled (fun draft hdraft ↦ (sound.owned i draft hdraft).filled) hafter
  obtain ⟨draft, hdraft, name, fd, bytes⟩ | ⟨-, document, temporary, -, fd, rfl⟩ :=
    h.draft_cases hafter
  · have owned := sound.owned i draft hdraft
    refine ⟨bytes ▸ owned.document, name ▸ owned.temporary, fd ▸ owned.recent, ?_, filled⟩
    rw [fd]
    exact Nat.lt_of_lt_of_le owned.opened h.length_le
  · refine ⟨document, temporary, fd ▸ sound.grown, ?_, filled⟩
    rw [fd, FileSystem.inodes_create, List.length_append]
    exact Nat.lt_succ_self _

/-- The temporary file of the call that makes the step is not that of another call. -/
theorem Sound.fd_ne (sound : Sound path values first calls)
    (h : Stage.Step path (values i) calls.files (calls.stages i) files stage) {after : Draft}
    (hafter : stage.draft = some after) {j : Nat} (hne : j ≠ i) {other : Draft}
    (hother : (calls.stages j).draft = some other) : after.fd ≠ other.fd := by
  intro same
  obtain ⟨draft, hdraft, -, fd, -⟩ | ⟨-, -, -, -, fd, -⟩ := h.draft_cases hafter
  · exact hne (sound.apart j i other draft hother hdraft (by rw [← same, fd]))
  · have := (sound.owned j other hother).opened
    omega

private theorem Sound.call (sound : Sound path values first calls)
    (h : Stage.Step path (values i) calls.files (calls.stages i) files stage) :
    Sound path values first ⟨files, Function.update calls.stages i stage⟩ where
  grown := Nat.le_trans sound.grown h.length_le
  kept k hk := by
    rw [← sound.kept k hk]
    apply h.inode_eq (Nat.lt_of_lt_of_le hk sound.grown)
    intro draft hdraft
    have := (sound.owned i draft hdraft).recent
    omega
  owned := by
    apply update_cases (P := fun j stage ↦ ∀ draft, stage.draft = some draft →
      Owned path (values j) first files stage draft)
    · exact fun after hafter ↦ sound.owned_self h hafter
    · intro j hne draft hdraft
      have owned := sound.owned j draft hdraft
      refine ⟨owned.document, owned.temporary, owned.recent, ?_, ?_⟩
      · exact Nat.lt_of_lt_of_le owned.opened h.length_le
      · rw [sound.inode_eq h hne hdraft]
        exact owned.filled
  apart j l draft other hdraft hother same := by
    dsimp only at hdraft hother
    by_cases hj : j = i <;> by_cases hl : l = i
    · rw [hj, hl]
    · rw [hj, Function.update_self] at hdraft
      rw [Function.update_of_ne hl] at hother
      exact absurd same (sound.fd_ne h hdraft hl hother)
    · rw [Function.update_of_ne hj] at hdraft
      rw [hl, Function.update_self] at hother
      exact absurd same.symm (sound.fd_ne h hother hj hdraft)
    · rw [Function.update_of_ne hj] at hdraft
      rw [Function.update_of_ne hl] at hother
      exact sound.apart j l draft other hdraft hother same

end Call

section Others

variable (path : Bytes) (files : FileSystem Bytes) (name : Bytes) (content : Option Bytes)

/-- Other programs leave the destination and the temporary files alone. -/
theorem entries_touch {other : Bytes} (h : other = path ∨ IsTemporary path other) :
    (touch path files name content).entries other = files.entries other := by
  unfold touch
  split
  · rfl
  · next foreign =>
    have hne : other ≠ name := fun same ↦ foreign (same ▸ h)
    cases content with
    | none => exact FileSystem.entries_unlink_of_ne _ hne
    | some bytes => exact FileSystem.entries_create_of_ne _ hne _

private theorem length_le_touch :
    files.inodes.length ≤ (touch path files name content).inodes.length := by
  unfold touch
  split
  · exact Nat.le_refl _
  · cases content <;> simp

private theorem getElem?_touch {k : Nat} (hk : k < files.inodes.length) :
    (touch path files name content).inodes[k]? = files.inodes[k]? := by
  unfold touch
  split
  · rfl
  · cases content with
    | none => rfl
    | some bytes => exact List.getElem?_append_left hk

end Others

private theorem Sound.other (sound : Sound path values first calls) (name : Bytes)
    (content : Option Bytes) :
    Sound path values first { calls with files := touch path calls.files name content } where
  grown := Nat.le_trans sound.grown (length_le_touch ..)
  kept k hk := by
    rw [← sound.kept k hk]
    exact getElem?_touch _ _ _ _ (Nat.lt_of_lt_of_le hk sound.grown)
  owned j draft hdraft := by
    have owned := sound.owned j draft hdraft
    refine ⟨owned.document, owned.temporary, owned.recent, ?_, ?_⟩
    · exact Nat.lt_of_lt_of_le owned.opened (length_le_touch ..)
    · rw [getElem?_touch _ _ _ _ owned.opened]
      exact owned.filled
  apart := sound.apart

private theorem Sound.step (sound : Sound path values first calls) (move : Move) :
    Sound path values first (calls.step path values move) := by
  cases move with
  | call i answer => exact sound.call (Stage.step_sound answer (calls.stages i))
  | other name content => exact sound.other name content

/-! ### The destination -/

/-- Nothing is at the destination: the temporary names are those of their calls. -/
structure Free (path : Bytes) (first : FileSystem Bytes) (calls : Publishers) : Prop where
  before : first.entries path = none
  absent : calls.files.entries path = none
  named : ∀ i draft, (calls.stages i).draft = some draft →
    calls.files.entries draft.name = some draft.fd
  waiting : ∀ i, (calls.stages i).installed = false

/-- The file at the destination was there before. -/
structure Kept (path : Bytes) (first : FileSystem Bytes) (calls : Publishers) (k : Nat) :
    Prop where
  before : first.entries path = some k
  present : calls.files.entries path = some k
  waiting : ∀ i, (calls.stages i).installed = false

/-- The file at the destination is the whole document of one call. -/
structure Won (path : Bytes) (values : Nat → Value) (first : FileSystem Bytes) (calls : Publishers)
    (k winner : Nat) : Prop where
  before : first.entries path = none
  present : calls.files.entries path = some k
  recent : k < calls.files.inodes.length
  document : ∃ bytes, publish (values winner) = .ok bytes ∧
    calls.files.inodes[k]? = some ⟨bytes, true⟩
  installed : ∀ i, (calls.stages i).installed = true ↔ i = winner
  own : ∀ i draft, (calls.stages i).draft = some draft → draft.fd = k → i = winner

/-- A file at the destination stays there, whatever another call does. -/
theorem quiet_of_present (sound : Sound path values first calls) {i : Nat}
    {files : FileSystem Bytes} {stage : Stage}
    (h : Stage.Step path (values i) calls.files (calls.stages i) files stage) {k : Nat}
    (present : calls.files.entries path = some k) :
    Stage.Step.Quiet path calls.files (calls.stages i) files stage := by
  obtain quiet | ⟨draft, -, -, absent, -⟩ :=
    h.quiet_or_renamed fun draft hdraft ↦ (sound.owned i draft hdraft).temporary
  · exact quiet
  · rw [present] at absent
    cases absent

section Call

variable {i : Nat} {files : FileSystem Bytes} {stage : Stage}

/-- The first rename takes the destination; up to then every temporary name is kept. -/
theorem Free.call (sound : Sound path values first calls) (free : Free path first calls)
    (h : Stage.Step path (values i) calls.files (calls.stages i) files stage) :
    Free path first ⟨files, Function.update calls.stages i stage⟩ ∨
    ∃ k, Won path values first ⟨files, Function.update calls.stages i stage⟩ k i := by
  obtain quiet | ⟨draft, hstage, rfl, -, rfl⟩ :=
    h.quiet_or_renamed fun draft hdraft ↦ (sound.owned i draft hdraft).temporary
  · refine .inl ⟨free.before, quiet.same.trans free.absent, ?_, ?_⟩
    · apply update_cases (P := fun _ stage ↦ ∀ draft, stage.draft = some draft →
        files.entries draft.name = some draft.fd)
      · exact quiet.named (free.named i)
      · intro j hne other hother
        have named := free.named j other hother
        rw [← named]
        apply h.entries_eq (sound.owned j other hother).temporary.ne_path
        · intro _
          rw [named]
          exact Option.some_ne_none _
        · -- two temporary files under one name would be the same inode
          intro draft hdraft same
          have := free.named i draft hdraft
          rw [← same, named] at this
          exact hne (sound.apart j i other draft hother hdraft (Option.some.inj this))
    · apply update_cases (P := fun _ stage ↦ stage.installed = false)
      · rw [quiet.installed]
        exact free.waiting i
      · exact fun j _ ↦ free.waiting j
  · have hdraft : (calls.stages i).draft = some draft := by rw [hstage]; rfl
    have owned := sound.owned i draft hdraft
    have filled := owned.filled
    rw [hstage] at filled
    refine .inr ⟨draft.fd, free.before, ?_, owned.opened, ?_, ?_, ?_⟩
    · dsimp only
      rw [FileSystem.entries_rename_new _ owned.temporary.ne_path.symm]
      exact free.named i draft hdraft
    · exact ⟨draft.bytes, owned.document, filled.2⟩
    · apply update_cases (P := fun j stage ↦ stage.installed = true ↔ j = i)
      · exact ⟨fun _ ↦ rfl, fun _ ↦ filled.1⟩
      · intro j hne
        rw [free.waiting j]
        exact ⟨fun no ↦ (by cases no), fun same ↦ absurd same hne⟩
    · apply update_cases (P := fun j stage ↦ ∀ other, stage.draft = some other →
        other.fd = draft.fd → j = i)
      · exact fun _ _ _ ↦ rfl
      · exact fun j _ other hother same ↦ sound.apart j i other draft hother hdraft same

private theorem Kept.call (sound : Sound path values first calls) {k : Nat}
    (kept : Kept path first calls k)
    (h : Stage.Step path (values i) calls.files (calls.stages i) files stage) :
    Kept path first ⟨files, Function.update calls.stages i stage⟩ k := by
  have quiet := quiet_of_present sound h kept.present
  refine ⟨kept.before, quiet.same.trans kept.present, ?_⟩
  apply update_cases (P := fun _ stage ↦ stage.installed = false)
  · rw [quiet.installed]
    exact kept.waiting i
  · exact fun j _ ↦ kept.waiting j

private theorem Won.inode_eq {k winner : Nat} (won : Won path values first calls k winner)
    (h : Stage.Step path (values i) calls.files (calls.stages i) files stage) :
    files.inodes[k]? = calls.files.inodes[k]? := by
  by_cases same : i = winner
  · rw [h.inodes_eq_of_installed ((won.installed i).mpr same)]
  · apply h.inode_eq won.recent
    rintro draft hdraft rfl
    exact same (won.own i draft hdraft rfl)

private theorem Won.call (sound : Sound path values first calls) {k winner : Nat}
    (won : Won path values first calls k winner)
    (h : Stage.Step path (values i) calls.files (calls.stages i) files stage) :
    Won path values first ⟨files, Function.update calls.stages i stage⟩ k winner := by
  have quiet := quiet_of_present sound h won.present
  obtain ⟨bytes, document, inode⟩ := won.document
  refine ⟨won.before, quiet.same.trans won.present, ?_, ?_, ?_, ?_⟩
  · exact Nat.lt_of_lt_of_le won.recent h.length_le
  · exact ⟨bytes, document, (won.inode_eq h).trans inode⟩
  · apply update_cases (P := fun j stage ↦ stage.installed = true ↔ j = winner)
    · rw [quiet.installed]
      exact won.installed i
    · exact fun j _ ↦ won.installed j
  · apply update_cases (P := fun j stage ↦ ∀ draft, stage.draft = some draft → draft.fd = k →
      j = winner)
    · intro after hafter same
      obtain ⟨draft, hdraft, -, fd, -⟩ | ⟨-, -, -, -, fd, -⟩ := h.draft_cases hafter
      · exact won.own i draft hdraft (fd ▸ same)
      · have := won.recent
        omega
    · exact fun j _ ↦ won.own j

end Call

/-- What can be at the destination. -/
inductive Settled (path : Bytes) (values : Nat → Value) (first : FileSystem Bytes)
    (calls : Publishers) : Prop
  | free (h : Free path first calls)
  | kept (k : Nat) (h : Kept path first calls k)
  | won (k winner : Nat) (h : Won path values first calls k winner)

private theorem settled_start (path : Bytes) (values : Nat → Value) (first : FileSystem Bytes) :
    Settled path values first (start first) := by
  cases entry : first.entries path with
  | none => exact .free ⟨entry, entry, fun _ _ h ↦ (by cases h), fun _ ↦ rfl⟩
  | some k => exact .kept k ⟨entry, entry, fun _ ↦ rfl⟩

private theorem Settled.call (sound : Sound path values first calls)
    (settled : Settled path values first calls) {i : Nat} {files : FileSystem Bytes} {stage : Stage}
    (h : Stage.Step path (values i) calls.files (calls.stages i) files stage) :
    Settled path values first ⟨files, Function.update calls.stages i stage⟩ := by
  cases settled with
  | free free =>
    obtain free | ⟨k, won⟩ := free.call sound h
    · exact .free free
    · exact .won k i won
  | kept k kept => exact .kept k (kept.call sound h)
  | won k winner won => exact .won k winner (won.call sound h)

private theorem Settled.other (sound : Sound path values first calls)
    (settled : Settled path values first calls) (name : Bytes) (content : Option Bytes) :
    Settled path values first { calls with files := touch path calls.files name content } := by
  have same := entries_touch path calls.files name content (.inl rfl)
  cases settled with
  | free free =>
    refine .free ⟨free.before, same.trans free.absent, fun i draft hdraft ↦ ?_, free.waiting⟩
    rw [← free.named i draft hdraft]
    exact entries_touch _ _ _ _ (.inr (sound.owned i draft hdraft).temporary)
  | kept k kept => exact .kept k ⟨kept.before, same.trans kept.present, kept.waiting⟩
  | won k winner won =>
    obtain ⟨bytes, document, inode⟩ := won.document
    refine .won k winner ⟨won.before, same.trans won.present, ?_, ?_, won.installed, won.own⟩
    · exact Nat.lt_of_lt_of_le won.recent (length_le_touch ..)
    · exact ⟨bytes, document, (getElem?_touch _ _ _ _ won.recent).trans inode⟩

private theorem Settled.step (sound : Sound path values first calls)
    (settled : Settled path values first calls) (move : Move) :
    Settled path values first (calls.step path values move) := by
  cases move with
  | call i answer => exact settled.call sound (Stage.step_sound answer (calls.stages i))
  | other name content => exact settled.other sound name content

private theorem run_settled (sound : Sound path values first calls)
    (settled : Settled path values first calls) (moves : List Move) :
    Sound path values first (calls.run path values moves) ∧
    Settled path values first (calls.run path values moves) := by
  induction moves generalizing calls with
  | nil => exact ⟨sound, settled⟩
  | cons move moves ih => exact ih (sound.step move) (settled.step sound move)

/-- No call writes to the file at the destination. -/
theorem Settled.inode_eq (sound : Sound path values first calls)
    (settled : Settled path values first calls) {k : Nat}
    (present : calls.files.entries path = some k) {i : Nat} {files : FileSystem Bytes}
    {stage : Stage} (h : Stage.Step path (values i) calls.files (calls.stages i) files stage) :
    files.inodes[k]? = calls.files.inodes[k]? := by
  cases settled with
  | free free =>
    rw [free.absent] at present
    cases present
  | kept k' kept =>
    obtain rfl : k' = k := Option.some.inj (kept.present.symm.trans present)
    apply h.inode_eq (calls.files.bounded _ _ present)
    intro draft hdraft same
    have := (sound.owned i draft hdraft).recent
    have := first.bounded _ _ kept.before
    omega
  | won k' winner won =>
    obtain rfl : k' = k := Option.some.inj (won.present.symm.trans present)
    exact won.inode_eq h

private theorem step_present (sound : Sound path values first calls)
    (settled : Settled path values first calls) {k : Nat}
    (present : calls.files.entries path = some k) (move : Move) :
    (calls.step path values move).files.entries path = some k ∧
    (calls.step path values move).files.inodes[k]? = calls.files.inodes[k]? := by
  cases move with
  | call i answer =>
    have h : Stage.Step path (values i) calls.files (calls.stages i) _ _ :=
      Stage.step_sound answer (calls.stages i)
    exact ⟨(quiet_of_present sound h present).same.trans present, settled.inode_eq sound present h⟩
  | other name content =>
    constructor
    · exact (entries_touch _ _ _ _ (.inl rfl)).trans present
    · exact getElem?_touch _ _ _ _ (calls.files.bounded _ _ present)

/-- What is at the destination is never replaced. -/
theorem run_present (sound : Sound path values first calls)
    (settled : Settled path values first calls) {k : Nat}
    (present : calls.files.entries path = some k) (moves : List Move) :
    (calls.run path values moves).files.entries path = some k ∧
    (calls.run path values moves).files.inodes[k]? = calls.files.inodes[k]? := by
  induction moves generalizing calls with
  | nil => exact ⟨present, rfl⟩
  | cons move moves ih =>
    obtain ⟨entry, inode⟩ := step_present sound settled present move
    rw [← inode]
    exact ih (sound.step move) (settled.step sound move) entry

private theorem not_returned {stage : Stage} (h : stage.installed = false) :
    stage ≠ .ended (.ok ()) := by
  rintro rfl
  cases h

/-- Whatever the order of the system calls and wherever a process stops: a file at the destination
is never replaced or changed; if it was there before then no call returns, and otherwise what is
there is the whole document of one call, on the device, and no other call returns. -/
theorem publish_exclusive (path : Bytes) (values : Nat → Value) (first : FileSystem Bytes)
    (moves later : List Move) :
    let calls := (start first).run path values moves
    (calls.files.entries path ≠ none →
      (calls.run path values later).files.inode path = calls.files.inode path) ∧
    (first.entries path ≠ none →
      calls.files.inode path = first.inode path ∧ ∀ i, calls.stages i ≠ .ended (.ok ())) ∧
    (first.entries path = none →
      (calls.files.inode path = none ∧ ∀ i, calls.stages i ≠ .ended (.ok ())) ∨
      ∃ winner bytes, publish (values winner) = .ok bytes ∧
        calls.files.inode path = some ⟨bytes, true⟩ ∧
        (∀ i, calls.stages i = .ended (.ok ()) → i = winner) ∧
        ∀ failure, calls.stages winner ≠ .ended (.error failure)) := by
  intro calls
  obtain ⟨sound, settled⟩ : Sound path values first calls ∧ Settled path values first calls :=
    run_settled (sound_start path values first) (settled_start path values first) moves
  refine ⟨?_, ?_, ?_⟩
  · intro taken
    obtain ⟨k, present⟩ := Option.ne_none_iff_exists'.mp taken
    obtain ⟨entry, inode⟩ := run_present sound settled present later
    rw [FileSystem.inode, FileSystem.inode, entry, present]
    exact inode
  · intro before
    cases settled with
    | free free => exact absurd free.before before
    | won k winner won => exact absurd won.before before
    | kept k kept =>
      constructor
      · rw [FileSystem.inode, FileSystem.inode, kept.before, kept.present]
        exact sound.kept k (first.bounded _ _ kept.before)
      · exact fun i ↦ not_returned (kept.waiting i)
  · intro before
    cases settled with
    | free free =>
      refine .inl ⟨?_, fun i ↦ not_returned (free.waiting i)⟩
      rw [FileSystem.inode, free.absent]
      rfl
    | kept k kept =>
      rw [kept.before] at before
      cases before
    | won k winner won =>
      obtain ⟨bytes, document, inode⟩ := won.document
      refine .inr ⟨winner, bytes, document, ?_, ?_, ?_⟩
      · rw [FileSystem.inode, won.present]
        exact inode
      · intro i returned
        apply (won.installed i).mp
        rw [returned]
        rfl
      · intro failure threw
        have := (won.installed winner).mpr rfl
        rw [threw] at this
        cases this

/-! ### Runs without failures -/

/-- No call is in trouble, except by a file at the destination, and a temporary name that was not
there before belongs to a call. -/
structure Flowing (path : Bytes) (first : FileSystem Bytes) (calls : Publishers) : Prop where
  fine : ∀ i, (calls.stages i).Fine path (calls.files.entries path ≠ none)
  recent : ∀ i draft, (calls.stages i).draft = some draft → first.entries draft.name = none
  tidy : ∀ name, IsTemporary path name → calls.files.entries name = first.entries name ∨
    ∃ i draft, (calls.stages i).draft = some draft ∧ draft.name = name

private theorem flowing_start (path : Bytes) (first : FileSystem Bytes) :
    Flowing path first (start first) where
  fine _ := trivial
  recent _ _ h := by cases h
  tidy _ _ := .inl rfl

/-- The names of a free destination. -/
theorem Settled.named (settled : Settled path values first calls)
    (absent : calls.files.entries path = none) (i : Nat) :
    ∀ draft, (calls.stages i).draft = some draft →
      calls.files.entries draft.name = some draft.fd := by
  cases settled with
  | free free => exact free.named i
  | kept k kept => rw [kept.present] at absent; cases absent
  | won k winner won => rw [won.present] at absent; cases absent

private theorem Flowing.call (sound : Sound path values first calls)
    (settled : Settled path values first calls) (flowing : Flowing path first calls) {i : Nat}
    {answer : Answer} (ok : (calls.stages i).succeeds path calls.files answer = true)
    (writable : ∃ bytes, publish (values i) = .ok bytes) :
    Flowing path first (calls.step path values (.call i answer)) where
  fine := by
    have more : calls.files.entries path ≠ none →
        (calls.step path values (.call i answer)).files.entries path ≠ none := by
      intro taken
      obtain ⟨k, present⟩ := Option.ne_none_iff_exists'.mp taken
      rw [(step_present sound settled present _).1]
      exact Option.some_ne_none k
    apply update_cases (P := fun _ stage ↦ stage.Fine path
      ((calls.step path values (.call i answer)).files.entries path ≠ none))
    · exact Stage.fine_step ok writable (fun absent ↦ settled.named absent i)
        (fun draft hdraft ↦ (sound.owned i draft hdraft).temporary) (flowing.fine i)
    · exact fun j _ ↦ (flowing.fine j).mono more
  recent := by
    apply update_cases (P := fun _ stage ↦ ∀ draft, stage.draft = some draft →
      first.entries draft.name = none)
    · intro after hafter
      obtain ⟨draft, hdraft, name, -⟩ | ⟨-, -, temporary, free, -⟩ :=
        (Stage.step_sound answer (calls.stages i)).draft_cases hafter
      · rw [name]
        exact flowing.recent i draft hdraft
      · obtain same | ⟨j, draft, hdraft, name⟩ := flowing.tidy after.name temporary
        · rw [← same, free]
        · rw [← name]
          exact flowing.recent j draft hdraft
    · exact fun j _ ↦ flowing.recent j
  tidy name temporary := by
    obtain ⟨after, hafter, hname⟩ | ⟨same, foreign⟩ | ⟨draft, hdraft, hname, gone⟩ :=
      Stage.tidy_step ok writable temporary
    · refine .inr ⟨i, after, ?_, hname⟩
      dsimp only [Publishers.step]
      rw [Function.update_self]
      exact hafter
    · obtain before | ⟨j, draft, hdraft, hname⟩ := flowing.tidy name temporary
      · exact .inl (same.trans before)
      · refine .inr ⟨j, draft, ?_, hname⟩
        dsimp only [Publishers.step]
        rw [Function.update_of_ne]
        · exact hdraft
        · rintro rfl
          exact foreign draft hdraft hname
    · refine .inl (gone.trans ?_)
      rw [← hname]
      exact (flowing.recent i draft hdraft).symm

private theorem Flowing.other (flowing : Flowing path first calls) (name : Bytes)
    (content : Option Bytes) :
    Flowing path first { calls with files := touch path calls.files name content } where
  fine i := by
    dsimp only
    rw [entries_touch _ _ _ _ (.inl rfl)]
    exact flowing.fine i
  recent := flowing.recent
  tidy other temporary := by
    dsimp only
    rw [entries_touch _ _ _ _ (.inr temporary)]
    exact flowing.tidy other temporary

private theorem run_flowing (writable : ∀ i, ∃ bytes, publish (values i) = .ok bytes)
    (sound : Sound path values first calls) (settled : Settled path values first calls)
    (flowing : Flowing path first calls) {moves : List Move}
    (smooth : calls.smooth path values moves = true) :
    Flowing path first (calls.run path values moves) := by
  induction moves generalizing calls with
  | nil => exact flowing
  | cons move moves ih =>
    cases move with
    | call i answer =>
      rw [Publishers.smooth, Bool.and_eq_true] at smooth
      exact ih (sound.step _) (settled.step sound _)
        (flowing.call sound settled smooth.1 (writable i))
        smooth.2
    | other name content =>
      exact ih (sound.step _) (settled.step sound _) (flowing.other name content) smooth

/-- If no system call fails and every document can be written: as soon as a call has ended, one
call has published its document; every other call that ends reports the file at the destination;
and when no call is under way, the temporary files are those that were there before. -/
theorem publish_once (path : Bytes) (values : Nat → Value) (first : FileSystem Bytes)
    (moves : List Move) (absent : first.entries path = none)
    (writable : ∀ i, ∃ bytes, publish (values i) = .ok bytes)
    (smooth : (start first).smooth path values moves = true) :
    let calls := (start first).run path values moves
    ((∃ i result, calls.stages i = .ended result) →
      ∃ winner bytes, publish (values winner) = .ok bytes ∧
        calls.files.inode path = some ⟨bytes, true⟩ ∧
        ∀ i result, calls.stages i = .ended result →
          result = if i = winner then .ok () else .error (notPublished path)) ∧
    ((∀ i, (calls.stages i).draft = none) →
      ∀ name, IsTemporary path name → calls.files.entries name = first.entries name) := by
  intro calls
  have sound₀ := sound_start path values first
  have settled₀ := settled_start path values first
  obtain ⟨-, settled⟩ : Sound path values first calls ∧ Settled path values first calls :=
    run_settled sound₀ settled₀ moves
  have flowing : Flowing path first calls :=
    run_flowing writable sound₀ settled₀ (flowing_start path first) smooth
  constructor
  · rintro ⟨i, result, ended⟩
    cases settled with
    | free free =>
      -- without trouble a call only ends once there is a file at the destination
      have waiting := free.waiting i
      have fine := flowing.fine i
      rw [ended] at waiting fine
      cases result with
      | ok => cases waiting
      | error failure => exact absurd free.absent fine.2
    | kept k kept =>
      rw [kept.before] at absent
      cases absent
    | won k winner won =>
      obtain ⟨bytes, document, inode⟩ := won.document
      refine ⟨winner, bytes, document, ?_, ?_⟩
      · rw [FileSystem.inode, won.present]
        exact inode
      · intro j result ended
        have installed := won.installed j
        have fine := flowing.fine j
        rw [ended] at installed fine
        cases result with
        | ok =>
          rw [if_pos (installed.mp rfl)]
        | error failure =>
          -- the call that installed its document does not throw
          have hne : j ≠ winner := by
            intro same
            cases installed.mpr same
          rw [if_neg hne, fine.1]
  · intro idle name temporary
    obtain same | ⟨i, draft, hdraft, -⟩ := flowing.tidy name temporary
    · exact same
    · rw [idle i] at hdraft
      cases hdraft

/-- Two calls of which the second overtakes the first between its `close` and its rename. -/
theorem publish_once_overtaken :
    let moves := [Move.call 0 .done, .call 0 (.named (ascii "aaaaaa")), .call 1 .done,
      .call 0 (.wrote 3), .call 1 (.named (ascii "bbbbbb")), .call 0 (.wrote 2), .call 0 .done,
      .call 1 (.wrote 5), .call 1 .done, .call 0 .done, .call 1 .done, .call 1 .done,
      .call 0 .done, .call 0 .done, .call 1 .done]
    let calls := (start ⟨fun _ ↦ none, [], fun _ _ no ↦ by cases no⟩).run (ascii "m")
      (fun _ ↦ .null) moves
    ∃ winner bytes, publish .null = .ok bytes ∧
      calls.files.inode (ascii "m") = some ⟨bytes, true⟩ ∧
      ∀ i result, calls.stages i = .ended result →
        result = if i = winner then .ok () else .error (notPublished (ascii "m")) := by
  intro moves calls
  apply (publish_once (ascii "m") (fun _ ↦ .null) ⟨fun _ ↦ none, [], fun _ _ no ↦ by cases no⟩
    moves rfl (fun _ ↦ ⟨_, rfl⟩) (by decide)).1
  exact ⟨0, .error (notPublished (ascii "m")), rfl⟩

end Publishers

end ArbitrageEngine.Sessions
