import ArbitrageEngine.Base.FileSystem
import ArbitrageEngine.Session.Capture

/-!
# Calls of `publish`

`src/session/session.cpp`: `publish` as the system calls that it makes, one after another, each
with an answer of the operating system. Any number of calls for one path run at the same time, and
a call whose process dies makes no further step. Other programs do what they like with other names
than the path and those of its temporary files.
-/

namespace ArbitrageEngine.Sessions

open Base Json

/-! ### One call -/

/-- What the operating system answers. -/
inductive Answer
  | done
  | failed
  /-- `mkstemp`: the characters in the place of `XXXXXX`. -/
  | named (suffix : Bytes)
  /-- `write`: a count above zero. -/
  | wrote (count : Nat)
  deriving DecidableEq, Repr

/-- The variables of `publish` behind `mkstemp` (`src/session/session.cpp:57–62`). -/
structure Draft where
  name : Bytes
  fd : Nat
  bytes : Bytes
  offset : Nat
  ok : Bool
  deriving DecidableEq, Repr

/-- The system call that `publish` makes next (`src/session/session.cpp:51–85`). -/
inductive Stage
  | directories
  | create
  | write (draft : Draft)
  | sync (draft : Draft)
  | close (draft : Draft)
  | rename (draft : Draft)
  | unlink (draft : Draft)
  | ended (result : Except Failure Unit)

/-- `pattern` with the characters of `mkstemp` (`src/session/session.cpp:54`). -/
def temporaryName (path suffix : Bytes) : Bytes := path ++ ascii ".tmp-" ++ suffix

/-- The last exception of `publish` (`src/session/session.cpp:84`). -/
def notPublished (path : Bytes) : Failure :=
  ⟨.runtimeError, ascii "cannot atomically publish new file: " ++ path⟩

/-- The head of the loop (`src/session/session.cpp:62`). -/
def Draft.loop (draft : Draft) : Stage :=
  if draft.offset < draft.bytes.length then .write draft else .sync draft

/-- `dump` behind `mkstemp`: an exception leaves the temporary file where it is
(`src/session/session.cpp:60–62`). -/
def Stage.drafted (name : Bytes) (fd : Nat) : Except Failure Bytes → Stage
  | .ok bytes => Draft.loop ⟨name, fd, bytes, 0, true⟩
  | .error failure => .ended (.error failure)

/-- `mkstemp`, which never opens a file that exists, and `dump`
(`src/session/session.cpp:57–62`). -/
def Stage.created (path : Bytes) (value : Value) (files : FileSystem Bytes) :
    Answer → FileSystem Bytes × Stage
  | .named suffix =>
    if suffix.length = 6 ∧ files.entries (temporaryName path suffix) = none then
      (files.create (temporaryName path suffix) [],
        drafted (temporaryName path suffix) files.inodes.length (publish value))
    else (files, .ended (runtimeError "cannot create temporary manifest/result"))
  | _ => (files, .ended (runtimeError "cannot create temporary manifest/result"))

/-- The loop's body: what was written may be less than what was left
(`src/session/session.cpp:63–68`). -/
def Draft.write (draft : Draft) (files : FileSystem Bytes) : Answer → FileSystem Bytes × Stage
  | .wrote count =>
    if 0 < count ∧ count ≤ draft.bytes.length - draft.offset then
      (files.append draft.fd ((draft.bytes.drop draft.offset).take count),
        Draft.loop { draft with offset := draft.offset + count })
    else (files, .sync { draft with ok := false })
  | _ => (files, .sync { draft with ok := false })

/-- The rename; it is not done if the file system refuses (`src/session/session.cpp:74–81`). -/
def Draft.rename (draft : Draft) (path : Bytes) (files : FileSystem Bytes) (answer : Answer) :
    FileSystem Bytes × Stage :=
  match answer, files.renameNoReplace draft.name path with
  | .done, some after => (after, .unlink draft)
  | _, _ => (files, .unlink { draft with ok := false })

/-- One system call. The text of a failed `create_directories` is cut short
(`src/session/session.cpp:51–85`). -/
def Stage.step (path : Bytes) (value : Value) (files : FileSystem Bytes) (answer : Answer) :
    Stage → FileSystem Bytes × Stage
  | directories =>
    (files, if answer = .done then create
      else ended (runtimeError "filesystem error: cannot create directories"))
  | create => created path value files answer
  | write draft => draft.write files answer
  | sync draft =>
    if answer = .done then (files.sync draft.fd, close draft)
    else (files, close { draft with ok := false })
  | close draft =>
    (files, if answer = .done ∧ draft.ok then rename draft else unlink { draft with ok := false })
  | rename draft => draft.rename path files answer
  | unlink draft =>
    (if answer = .done then files.unlink draft.name else files,
      ended (if draft.ok then .ok () else .error (notPublished path)))
  | ended result => (files, ended result)

/-- The operating system does what it is asked for, or part of it in `write`. -/
def Stage.succeeds (path : Bytes) (files : FileSystem Bytes) : Stage → Answer → Bool
  | create, .named suffix =>
    suffix.length = 6 && files.entries (temporaryName path suffix) = none
  | write draft, .wrote count => 0 < count && count ≤ draft.bytes.length - draft.offset
  | directories, .done | sync _, .done | close _, .done | rename _, .done | unlink _, .done => true
  | ended _, _ => true
  | _, _ => false

/-! ### Calls side by side -/

/-- The file system with calls of `publish` for one path. -/
structure Publishers where
  files : FileSystem Bytes
  stages : Nat → Stage

/-- The names that `mkstemp` tries. -/
def IsTemporary (path name : Bytes) : Prop :=
  name.length = path.length + 11 ∧ name.take (path.length + 5) = path ++ ascii ".tmp-"

instance (path name : Bytes) : Decidable (IsTemporary path name) :=
  inferInstanceAs (Decidable (_ ∧ _))

private theorem isTemporary_temporaryName (path : Bytes) {suffix : Bytes} (h : suffix.length = 6) :
    IsTemporary path (temporaryName path suffix) := by
  have hdot : (ascii ".tmp-").length = 5 := by decide
  constructor
  · rw [temporaryName, List.length_append, List.length_append, hdot, h]
  · rw [temporaryName, ← hdot, ← List.length_append, List.take_left]

/-- A temporary name is not the path. -/
theorem IsTemporary.ne_path {path name : Bytes} (h : IsTemporary path name) : name ≠ path := by
  intro same
  have := h.1
  rw [same] at this
  omega

/-- A step of the system. -/
inductive Move
  | call (i : Nat) (answer : Answer)
  /-- Another program replaces a file or removes it. -/
  | other (name : Bytes) (content : Option Bytes)

namespace Publishers

/-- No call has begun. -/
def start (files : FileSystem Bytes) : Publishers := ⟨files, fun _ ↦ .directories⟩

variable (path : Bytes) (values : Nat → Value)

/-- What another program does with a name that is not its own to leave alone. -/
def touch (files : FileSystem Bytes) (name : Bytes) (content : Option Bytes) : FileSystem Bytes :=
  if name = path ∨ IsTemporary path name then files
  else match content with
    | some bytes => files.create name bytes
    | none => files.unlink name

/-- A step of a call or of another program. -/
def step (calls : Publishers) : Move → Publishers
  | .call i answer =>
    let result := (calls.stages i).step path (values i) calls.files answer
    ⟨result.1, Function.update calls.stages i result.2⟩
  | .other name content => { calls with files := touch path calls.files name content }

/-- Any number of steps. -/
def run (calls : Publishers) (moves : List Move) : Publishers :=
  moves.foldl (step path values) calls

/-- No system call of the run fails, except that a rename does not replace a file. -/
def smooth (calls : Publishers) : List Move → Bool
  | [] => true
  | .call i answer :: moves =>
    (calls.stages i).succeeds path calls.files answer &&
      (calls.step path values (.call i answer)).smooth moves
  | .other name content :: moves => (calls.step path values (.other name content)).smooth moves

end Publishers

/-! ### What one step changes -/

namespace Stage

/-- The variables of a call that has a temporary file. -/
def draft : Stage → Option Draft
  | write draft | sync draft | close draft | rename draft | unlink draft => some draft
  | directories | create | ended _ => none

/-- The call has published its document. -/
def installed : Stage → Bool
  | unlink draft => draft.ok
  | ended (.ok _) => true
  | _ => false

/-- What the temporary file holds. -/
def Filled (inode : Option Inode) : Stage → Prop
  | write draft =>
    draft.ok = true ∧ inode.map Inode.content = some (draft.bytes.take draft.offset)
  | sync draft => draft.ok = true → inode.map Inode.content = some draft.bytes
  | close draft | unlink draft => draft.ok = true → inode = some ⟨draft.bytes, true⟩
  | rename draft => draft.ok = true ∧ inode = some ⟨draft.bytes, true⟩
  | directories | create | ended _ => True

end Stage

namespace Draft

private theorem draft_loop (draft : Draft) : draft.loop.draft = some draft := by
  unfold loop
  split <;> rfl

private theorem installed_loop (draft : Draft) : draft.loop.installed = false := by
  unfold loop
  split <;> rfl

private theorem filled_loop {draft : Draft} {inode : Option Inode} (hok : draft.ok = true)
    (h : inode.map Inode.content = some (draft.bytes.take draft.offset)) :
    draft.loop.Filled inode := by
  unfold loop
  split
  · exact ⟨hok, h⟩
  · intro _
    rw [h, List.take_of_length_le (by omega)]

end Draft

namespace Stage

/-- The steps of a call, with what each does to the files. -/
inductive Step (path : Bytes) (value : Value) (files : FileSystem Bytes) :
    Stage → FileSystem Bytes → Stage → Prop
  | idle {stage after : Stage} (hstage : stage.draft = none) (hafter : after.draft = none)
      (same : after.installed = stage.installed) : Step path value files stage files after
  | made {name : Bytes} (temporary : IsTemporary path name) (free : files.entries name = none) :
      Step path value files create (files.create name [])
        (drafted name files.inodes.length (publish value))
  | wrote (draft : Draft) (count : Nat) :
      Step path value files (write draft)
        (files.append draft.fd ((draft.bytes.drop draft.offset).take count))
        (Draft.loop { draft with offset := draft.offset + count })
  | stuck (draft : Draft) :
      Step path value files (write draft) files (sync { draft with ok := false })
  | synced (draft : Draft) :
      Step path value files (sync draft) (files.sync draft.fd) (close draft)
  | unsynced (draft : Draft) :
      Step path value files (sync draft) files (close { draft with ok := false })
  | closed (draft : Draft) (ok : draft.ok = true) :
      Step path value files (close draft) files (rename draft)
  | unclosed (draft : Draft) :
      Step path value files (close draft) files (unlink { draft with ok := false })
  | renamed (draft : Draft) (old : files.entries draft.name ≠ none)
      (new : files.entries path = none) :
      Step path value files (rename draft) (files.rename draft.name path) (unlink draft)
  | refused (draft : Draft) :
      Step path value files (rename draft) files (unlink { draft with ok := false })
  | removed (draft : Draft) :
      Step path value files (unlink draft) (files.unlink draft.name)
        (ended (if draft.ok then .ok () else .error (notPublished path)))
  | left (draft : Draft) :
      Step path value files (unlink draft) files
        (ended (if draft.ok then .ok () else .error (notPublished path)))

variable {path : Bytes} {value : Value} {files : FileSystem Bytes}

private theorem step_created (answer : Answer) :
    Step path value files create (created path value files answer).1
      (created path value files answer).2 := by
  cases answer with
  | done | failed | wrote => exact .idle rfl rfl rfl
  | named suffix =>
    dsimp only [created]
    split
    · next free => exact .made (isTemporary_temporaryName path free.1) free.2
    · exact .idle rfl rfl rfl

private theorem step_write (draft : Draft) (answer : Answer) :
    Step path value files (write draft) (draft.write files answer).1
      (draft.write files answer).2 := by
  cases answer with
  | done | failed | named => exact .stuck draft
  | wrote count =>
    dsimp only [Draft.write]
    split
    · exact .wrote draft count
    · exact .stuck draft

private theorem step_rename (draft : Draft) (answer : Answer) :
    Step path value files (rename draft) (draft.rename path files answer).1
      (draft.rename path files answer).2 := by
  unfold Draft.rename
  cases answer with
  | failed | named | wrote => exact .refused draft
  | done =>
    cases renamed : files.renameNoReplace draft.name path with
    | none => exact .refused draft
    | some after =>
      obtain ⟨old, new, rfl⟩ := FileSystem.renameNoReplace_eq_some renamed
      exact .renamed draft old new

/-- Every system call is one of the steps. -/
theorem step_sound (answer : Answer) (stage : Stage) :
    Step path value files stage (stage.step path value files answer).1
      (stage.step path value files answer).2 := by
  cases stage with
  | directories =>
    dsimp only [step]
    split <;> exact .idle rfl rfl rfl
  | create => exact step_created answer
  | write draft => exact step_write draft answer
  | sync draft =>
    dsimp only [step]
    split
    · exact .synced draft
    · exact .unsynced draft
  | close draft =>
    dsimp only [step]
    split
    · next done => exact .closed draft done.2
    · exact .unclosed draft
  | rename draft => exact step_rename draft answer
  | unlink draft =>
    dsimp only [step]
    split
    · exact .removed draft
    · exact .left draft
  | ended result => exact .idle rfl rfl rfl

private theorem drafted_ok (name : Bytes) (fd : Nat) {document : Except Failure Bytes}
    {draft : Draft} (h : (drafted name fd document).draft = some draft) :
    document = .ok draft.bytes ∧ draft = ⟨name, fd, draft.bytes, 0, true⟩ := by
  cases document with
  | error failure => cases h
  | ok bytes =>
    rw [drafted, Draft.draft_loop] at h
    cases h
    exact ⟨rfl, rfl⟩

namespace Step

variable {stage stage' : Stage} {files' : FileSystem Bytes}

/-- A draft stays with its temporary file, or it is a new one. -/
theorem draft_cases (h : Step path value files stage files' stage') {after : Draft}
    (hafter : stage'.draft = some after) :
    (∃ draft, stage.draft = some draft ∧ after.name = draft.name ∧ after.fd = draft.fd ∧
      after.bytes = draft.bytes) ∨
    (stage = create ∧ publish value = .ok after.bytes ∧ IsTemporary path after.name ∧
      files.entries after.name = none ∧ after.fd = files.inodes.length ∧
      files' = files.create after.name []) := by
  cases h with
  | idle _ none _ => rw [none] at hafter; cases hafter
  | made temporary free =>
    obtain ⟨document, same⟩ := drafted_ok _ _ hafter
    rw [same]
    exact .inr ⟨rfl, document, temporary, free, rfl, rfl⟩
  | wrote draft count =>
    rw [Draft.draft_loop] at hafter
    cases hafter
    exact .inl ⟨draft, rfl, rfl, rfl, rfl⟩
  | stuck draft | synced draft | unsynced draft | closed draft | unclosed draft | renamed draft
  | refused draft =>
    cases hafter
    exact .inl ⟨_, rfl, rfl, rfl, rfl⟩
  | removed draft | left draft => cases hafter

/-- A step removes no file. -/
theorem length_le (h : Step path value files stage files' stage') :
    files.inodes.length ≤ files'.inodes.length := by
  cases h <;> simp [FileSystem.append, FileSystem.sync, FileSystem.inodes_unlink,
    FileSystem.inodes_rename]

/-- A call writes to its own temporary file only. -/
theorem inode_eq (h : Step path value files stage files' stage') {k : Nat}
    (hk : k < files.inodes.length) (foreign : ∀ draft, stage.draft = some draft → k ≠ draft.fd) :
    files'.inodes[k]? = files.inodes[k]? := by
  cases h with
  | made => rw [FileSystem.inodes_create, List.getElem?_append_left hk]
  | wrote draft count => exact FileSystem.modify_of_ne _ (foreign draft rfl) _
  | synced draft => exact FileSystem.modify_of_ne _ (foreign draft rfl) _
  | idle | stuck | unsynced | closed | unclosed | renamed | refused | removed | left => rfl

/-- The temporary file holds what the stage says. -/
theorem filled (h : Step path value files stage files' stage')
    (before : ∀ draft, stage.draft = some draft → stage.Filled files.inodes[draft.fd]?)
    {after : Draft} (hafter : stage'.draft = some after) :
    stage'.Filled files'.inodes[after.fd]? := by
  cases h with
  | idle _ none _ => rw [none] at hafter; cases hafter
  | made =>
    obtain ⟨document, same⟩ := drafted_ok _ _ hafter
    rw [document, same]
    apply Draft.filled_loop rfl
    rw [FileSystem.inodes_create, List.getElem?_concat_length]
    rfl
  | wrote draft count =>
    rw [Draft.draft_loop] at hafter
    cases hafter
    obtain ⟨ok, written⟩ := before draft rfl
    apply @Draft.filled_loop { draft with offset := draft.offset + count } _ ok
    obtain ⟨inode, found, content⟩ := Option.map_eq_some_iff.mp written
    rw [FileSystem.append, FileSystem.modify_self, found, List.take_add, ← content]
    rfl
  | synced draft =>
    cases hafter
    intro ok
    obtain ⟨inode, found, content⟩ := Option.map_eq_some_iff.mp (before _ rfl ok)
    rw [FileSystem.sync, FileSystem.modify_self, found, ← content]
    rfl
  | closed draft ok =>
    cases hafter
    exact ⟨ok, before _ rfl ok⟩
  | renamed draft =>
    cases hafter
    exact fun _ ↦ (before _ rfl).2
  | stuck | unsynced | unclosed | refused =>
    cases hafter
    intro no
    cases no
  | removed | left => cases hafter

/-- A call gives up its temporary file with its last step. -/
theorem eq_unlink (h : Step path value files stage files' stage') {draft : Draft}
    (hdraft : stage.draft = some draft) (hafter : stage'.draft = none) : stage = unlink draft := by
  cases h with
  | idle none => rw [none] at hdraft; cases hdraft
  | made => cases hdraft
  | wrote =>
    rw [Draft.draft_loop] at hafter
    cases hafter
  | stuck | synced | unsynced | closed | unclosed | renamed | refused => cases hafter
  | removed | left => cases hdraft; rfl

/-- A call that has published writes no more. -/
theorem inodes_eq_of_installed (h : Step path value files stage files' stage')
    (done : stage.installed = true) : files'.inodes = files.inodes := by
  cases h with
  | idle | removed | left => rfl
  | made | wrote | stuck | synced | unsynced | closed | unclosed | renamed | refused => cases done

/-- A step that leaves the destination alone. -/
structure Quiet (path : Bytes) (files : FileSystem Bytes) (stage : Stage)
    (files' : FileSystem Bytes) (stage' : Stage) : Prop where
  same : files'.entries path = files.entries path
  installed : stage'.installed = stage.installed
  named : (∀ draft, stage.draft = some draft → files.entries draft.name = some draft.fd) →
    ∀ draft, stage'.draft = some draft → files'.entries draft.name = some draft.fd

/-- Only the rename changes the destination. -/
theorem quiet_or_renamed (h : Step path value files stage files' stage')
    (temporary : ∀ draft, stage.draft = some draft → IsTemporary path draft.name) :
    Quiet path files stage files' stage' ∨
    ∃ draft, stage = rename draft ∧ stage' = unlink draft ∧ files.entries path = none ∧
      files' = files.rename draft.name path := by
  cases h with
  | renamed draft old new => exact .inr ⟨draft, rfl, rfl, new, rfl⟩
  | idle hstage hafter same =>
    refine .inl ⟨rfl, same, fun _ after no ↦ ?_⟩
    rw [hafter] at no
    cases no
  | made fresh free =>
    refine .inl ⟨FileSystem.entries_create_of_ne _ fresh.ne_path.symm _, ?_, ?_⟩
    · cases publish value with
      | error failure => rfl
      | ok bytes => exact Draft.installed_loop _
    · intro _ after hafter
      rw [(drafted_ok _ _ hafter).2]
      exact FileSystem.entries_create_self ..
  | wrote draft count =>
    refine .inl ⟨rfl, Draft.installed_loop _, fun named after hafter ↦ ?_⟩
    rw [Draft.draft_loop] at hafter
    cases hafter
    exact named draft rfl
  | removed draft =>
    refine .inl ⟨?_, ?_, fun _ _ no ↦ by cases no⟩
    · exact FileSystem.entries_unlink_of_ne _ (temporary draft rfl).ne_path.symm
    · dsimp only [installed]
      cases draft.ok <;> rfl
  | left draft =>
    refine .inl ⟨rfl, ?_, fun _ _ no ↦ by cases no⟩
    dsimp only [installed]
    cases draft.ok <;> rfl
  | stuck draft | synced draft | unsynced draft | closed draft | unclosed draft | refused draft =>
    refine .inl ⟨rfl, rfl, fun named after hafter ↦ ?_⟩
    have := named draft rfl
    cases hafter
    exact this

/-- A call leaves the files under other names where they are. -/
theorem entries_eq (h : Step path value files stage files' stage') {name : Bytes}
    (hpath : name ≠ path) (present : stage = create → files.entries name ≠ none)
    (foreign : ∀ draft, stage.draft = some draft → name ≠ draft.name) :
    files'.entries name = files.entries name := by
  cases h with
  | made _ free =>
    apply FileSystem.entries_create_of_ne
    rintro rfl
    exact present rfl free
  | renamed draft => exact FileSystem.entries_rename_of_ne _ (foreign draft rfl) hpath
  | removed draft => exact FileSystem.entries_unlink_of_ne _ (foreign draft rfl)
  | idle | wrote | stuck | synced | unsynced | closed | unclosed | refused | left => rfl

end Step

/-! ### Calls that no system call fails -/

/-- Nothing has failed so far, except that there is a file at the destination. -/
def Fine (path : Bytes) (taken : Prop) : Stage → Prop
  | write draft | sync draft | close draft | rename draft => draft.ok = true
  | unlink draft => draft.ok = true ∨ taken
  | ended (.error failure) => failure = notPublished path ∧ taken
  | directories | create | ended (.ok _) => True

/-- A stage stays fine when more names are taken. -/
theorem Fine.mono {taken taken' : Prop} {stage : Stage} (h : stage.Fine path taken)
    (more : taken → taken') : stage.Fine path taken' := by
  cases stage with
  | directories | create => exact h
  | write | sync | close | rename => exact h
  | unlink => exact h.imp_right more
  | ended result =>
    cases result with
    | ok => exact h
    | error => exact ⟨h.1, more h.2⟩

private theorem fine_loop {draft : Draft} (ok : draft.ok = true) (taken : Prop) :
    draft.loop.Fine path taken := by
  unfold Draft.loop
  split <;> exact ok

/-- Calls of which a file at the destination is the only trouble. -/
theorem fine_step {answer : Answer} {stage : Stage} (ok : stage.succeeds path files answer = true)
    (writable : ∃ bytes, publish value = .ok bytes)
    (named : files.entries path = none → ∀ draft, stage.draft = some draft →
      files.entries draft.name = some draft.fd)
    (temporary : ∀ draft, stage.draft = some draft → IsTemporary path draft.name)
    (fine : stage.Fine path (files.entries path ≠ none)) :
    (stage.step path value files answer).2.Fine path
      ((stage.step path value files answer).1.entries path ≠ none) := by
  cases stage with
  | directories =>
    cases answer with
    | done => trivial
    | failed | named | wrote => cases ok
  | create =>
    cases answer with
    | done | failed | wrote => cases ok
    | named suffix =>
      obtain ⟨bytes, document⟩ := writable
      simp only [succeeds, Bool.and_eq_true, decide_eq_true_eq] at ok
      dsimp only [step, created]
      rw [if_pos ok, document]
      exact fine_loop rfl _
  | write draft =>
    cases answer with
    | done | failed | named => cases ok
    | wrote count =>
      simp only [succeeds, Bool.and_eq_true, decide_eq_true_eq] at ok
      dsimp only [step, Draft.write]
      rw [if_pos ok]
      exact @fine_loop _ { draft with offset := draft.offset + count } fine _
  | sync draft =>
    cases answer with
    | done => exact fine
    | failed | named | wrote => cases ok
  | close draft =>
    cases answer with
    | done =>
      dsimp only [step]
      rw [if_pos ⟨rfl, fine⟩]
      exact fine
    | failed | named | wrote => cases ok
  | rename draft =>
    cases answer with
    | done =>
      dsimp only [step, Draft.rename, FileSystem.renameNoReplace]
      by_cases free : files.entries path = none
      -- the draft still has its temporary name, so it can take the free one
      · have old : files.entries draft.name ≠ none := by
          rw [named free draft rfl]
          exact Option.some_ne_none _
        rw [if_pos ⟨old, free⟩]
        exact .inl fine
      -- another call was first, and this one reports that it has not published
      · rw [if_neg fun h ↦ free h.2]
        exact .inr free
    | failed | named | wrote => cases ok
  | unlink draft =>
    cases answer with
    | done =>
      dsimp only [step]
      rw [if_pos rfl, FileSystem.entries_unlink_of_ne _ (temporary draft rfl).ne_path.symm]
      cases hok : draft.ok with
      | true => trivial
      | false =>
        have taken : files.entries path ≠ none := by
          apply fine.resolve_left
          rw [hok]
          exact Bool.false_ne_true
        exact ⟨rfl, taken⟩
    | failed | named | wrote => cases ok
  | ended result => exact fine

/-- A temporary name belongs to the call afterwards, or the call leaves it alone, or removes it. -/
theorem tidy_step {answer : Answer} {stage : Stage} (ok : stage.succeeds path files answer = true)
    (writable : ∃ bytes, publish value = .ok bytes) {name : Bytes}
    (temporary : IsTemporary path name) :
    (∃ after, (stage.step path value files answer).2.draft = some after ∧ after.name = name) ∨
    ((stage.step path value files answer).1.entries name = files.entries name ∧
      ∀ draft, stage.draft = some draft → draft.name ≠ name) ∨
    ∃ draft, stage.draft = some draft ∧ draft.name = name ∧
      (stage.step path value files answer).1.entries name = none := by
  have h : Step path value files stage _ _ := step_sound answer stage
  cases hdraft : stage.draft with
  | some draft =>
    by_cases same : draft.name = name
    · cases hafter : (stage.step path value files answer).2.draft with
      | none =>
        refine .inr (.inr ⟨draft, rfl, same, ?_⟩)
        obtain rfl := h.eq_unlink hdraft hafter
        cases answer with
        | done => rw [← same]; exact FileSystem.entries_unlink_self ..
        | failed | named | wrote => cases ok
      | some after =>
        obtain ⟨draft', hdraft', hname, -⟩ | ⟨rfl, -⟩ := h.draft_cases hafter
        · rw [hdraft] at hdraft'
          cases hdraft'
          exact .inl ⟨after, rfl, hname.trans same⟩
        · cases hdraft
    · refine .inr (.inl ⟨?_, ?_⟩)
      · apply h.entries_eq temporary.ne_path
        · rintro rfl
          cases hdraft
        · intro draft' hdraft'
          rw [hdraft] at hdraft'
          cases hdraft'
          exact Ne.symm same
      · rintro _ ⟨⟩
        exact same
  | none =>
    cases stage with
    | write | sync | close | rename | unlink => cases hdraft
    | directories | ended => exact .inr (.inl ⟨rfl, fun _ no ↦ by cases no⟩)
    | create =>
      cases answer with
      | done | failed | wrote => cases ok
      | named suffix =>
        obtain ⟨bytes, document⟩ := writable
        simp only [succeeds, Bool.and_eq_true, decide_eq_true_eq] at ok
        dsimp only [step, created]
        rw [if_pos ok, document]
        by_cases same : temporaryName path suffix = name
        · exact .inl ⟨_, Draft.draft_loop _, same⟩
        · refine .inr (.inl ⟨?_, fun _ no ↦ by cases no⟩)
          exact FileSystem.entries_create_of_ne _ (Ne.symm same) _

end Stage

end ArbitrageEngine.Sessions
