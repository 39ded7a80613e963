import ArbitrageEngine.Session.LifecycleMerge

/-!
# The trail of a replay

`src/session/session.cpp`: the record loops of `replay` note every change of the book's state. A
session says what is to be done, one deed after the other: its lifecycle events at their places,
what a new connection takes, and each record once. The notes that are taken while deeds in order
are done lead from one state to the next without a break, in the order of the records.
-/

namespace ArbitrageEngine.Sessions

open Base ArbitrageEngine.Core Recording

/-! ### State changes -/

/-- State changes that lead from one state to another, each away from the state before it. -/
def Leads : BookState → List StateTransition → BookState → Prop
  | first, [], last => first = last
  | first, change :: changes, last =>
    change.old = first ∧ change.new ≠ first ∧ Leads change.new changes last

private theorem Leads.concat {first middle : BookState} {changes : List StateTransition}
    (h : Leads first changes middle) {change : StateTransition} (hold : change.old = middle)
    (hnew : change.new ≠ middle) : Leads first (changes ++ [change]) change.new := by
  induction changes generalizing first with
  | nil =>
    cases h
    exact ⟨hold, hnew, rfl⟩
  | cons earlier changes ih => exact ⟨h.1, h.2.1, ih h.2.2⟩

/-- The state changes up to a record: they lead to the present state, in the order of the
records. -/
structure Trail (first : BookState) (n : Nat) (changes : List StateTransition)
    (last : BookState) : Prop where
  leads : Leads first changes last
  ordered : changes.Pairwise fun a b ↦ a.recordIndex ≤ b.recordIndex
  within : ∀ change ∈ changes, change.recordIndex ≤ n

/-- The note of a state change, if there is one: the `transition` lambda of both branches
(`src/session/session.cpp:360–366,466–473`). -/
def noted (index : Nat) (old new : BookState) (reason : Bytes) : List StateTransition :=
  if old = new then [] else [⟨index, old, new, reason⟩]

private theorem Trail.noted {first last : BookState} {n : Nat} {changes : List StateTransition}
    (h : Trail first n changes last) (new : BookState) (reason : Bytes) :
    Trail first n (changes ++ noted n last new reason) new := by
  unfold Sessions.noted
  split
  · next same =>
    rw [← same, List.append_nil]
    exact h
  · next differs =>
    refine ⟨h.leads.concat rfl (Ne.symm differs), ?_, ?_⟩
    · rw [List.pairwise_append]
      refine ⟨h.ordered, List.pairwise_singleton _ _, ?_⟩
      intro earlier hearlier change hchange
      rw [List.mem_singleton.mp hchange]
      exact h.within earlier hearlier
    · intro change hchange
      rcases List.mem_append.mp hchange with hchange | hchange
      · exact h.within change hchange
      · rw [List.mem_singleton.mp hchange]

private theorem Trail.later {first last : BookState} {n m : Nat} {changes : List StateTransition}
    (h : Trail first n changes last) (hnm : n ≤ m) : Trail first m changes last :=
  ⟨h.leads, h.ordered, fun change hchange ↦ Nat.le_trans (h.within change hchange) hnm⟩

/-! ### Deeds -/

/-- Deeds in the order of their indexes, which are between two numbers. -/
structure InOrder {δ : Type} (index : δ → Nat) (first last : Nat) (deeds : List δ) : Prop where
  ordered : deeds.Pairwise fun a b ↦ index a ≤ index b
  within : ∀ deed ∈ deeds, first ≤ index deed ∧ index deed ≤ last

namespace InOrder

variable {δ : Type} {index : δ → Nat} {n first last : Nat} {front deeds : List δ}

/-- Deeds at one index. -/
theorem at_index (hn : first ≤ n) (hm : n ≤ last) (h : ∀ deed ∈ front, index deed = n) :
    InOrder index first last front := by
  refine ⟨?_, fun deed hdeed ↦ h deed hdeed ▸ ⟨hn, hm⟩⟩
  rw [List.pairwise_iff_forall_sublist]
  intro a b hab
  have ha := h a (hab.subset (by simp))
  have hb := h b (hab.subset (by simp))
  rw [ha, hb]

/-- Deeds up to an index, and deeds from there on. -/
theorem append {middle : Nat} (hfront : InOrder index first middle front)
    (hrest : InOrder index middle last deeds) (hn : first ≤ middle) (hm : middle ≤ last) :
    InOrder index first last (front ++ deeds) := by
  refine ⟨List.pairwise_append.mpr ⟨hfront.ordered, hrest.ordered, ?_⟩, ?_⟩
  · intro a ha b hb
    exact Nat.le_trans (hfront.within a ha).2 (hrest.within b hb).1
  · intro deed hdeed
    rcases List.mem_append.mp hdeed with hdeed | hdeed
    · have := hfront.within deed hdeed
      omega
    · have := hrest.within deed hdeed
      omega

end InOrder

/-- Something whose state is watched: what each deed makes of it, and under which index and for
which reason a change of the state is noted. -/
structure Watched (σ δ : Type) where
  perform : σ → δ → σ
  state : σ → BookState
  index : δ → Nat
  reason : σ → δ → Bytes

namespace Watched

variable {σ δ : Type} (w : Watched σ δ)

/-- What the deeds make of it. -/
def run (s : σ) (deeds : List δ) : σ := deeds.foldl w.perform s

/-- The notes that are taken on the way. -/
def changes : σ → List δ → List StateTransition
  | _, [] => []
  | s, deed :: deeds =>
    noted (w.index deed) (w.state s) (w.state (w.perform s deed)) (w.reason s deed) ++
      changes (w.perform s deed) deeds

/-- Deeds behind other deeds start from what those have made of it. -/
theorem run_append (s : σ) (deeds rest : List δ) :
    w.run s (deeds ++ rest) = w.run (w.run s deeds) rest := List.foldl_append

/-- The notes of deeds behind other deeds. -/
theorem changes_append (s : σ) (deeds rest : List δ) :
    w.changes s (deeds ++ rest) = w.changes s deeds ++ w.changes (w.run s deeds) rest := by
  induction deeds generalizing s with
  | nil => rfl
  | cons deed deeds ih =>
    rw [List.cons_append, changes, changes, ih, List.append_assoc]
    rfl

/-- The notes of a single deed. -/
theorem changes_singleton (s : σ) (deed : δ) :
    w.changes s [deed] =
      noted (w.index deed) (w.state s) (w.state (w.perform s deed)) (w.reason s deed) :=
  List.append_nil _

/-- A deed that leaves the state alone is not noted. -/
theorem changes_quiet {s : σ} {deed : δ} (h : w.state (w.perform s deed) = w.state s) :
    w.changes s [deed] = [] := by
  rw [changes_singleton, noted, if_pos h.symm]

/-- The notes of deeds in order are a trail. -/
theorem trail_changes (s : σ) {deeds : List δ} {n : Nat} (h : InOrder w.index 0 n deeds) :
    Trail (w.state s) n (w.changes s deeds) (w.state (w.run s deeds)) := by
  induction deeds using List.reverseRecOn generalizing n with
  | nil => exact ⟨rfl, List.Pairwise.nil, List.forall_mem_nil _⟩
  | append_singleton deeds deed ih =>
    obtain ⟨hearlier, -, hlast⟩ := List.pairwise_append.mp h.ordered
    have trail := ih ⟨hearlier, fun earlier he ↦
      ⟨Nat.zero_le _, hlast earlier he deed List.mem_cons_self⟩⟩
    rw [run_append, changes_append, changes_singleton]
    exact (trail.noted _ _).later (h.within deed (by simp)).2

end Watched

/-! ### Connections -/

/-- How often a list goes over to another number. -/
def turns : List Nat → Nat
  | a :: b :: rest => (if a = b then 0 else 1) + turns (b :: rest)
  | _ => 0

/-- One number more. -/
theorem turns_concat (ids : List Nat) (id : Nat) :
    turns (ids ++ [id]) = turns ids + if ids.getLast?.all (· = id) then 0 else 1 := by
  induction ids with
  | nil => rfl
  | cons a ids ih =>
    cases ids with
    | nil => simp [turns]
    | cons b rest =>
      rw [List.cons_append, List.cons_append, turns, ← List.cons_append, ih, turns,
        List.getLast?_cons_cons, Nat.add_assoc]

/-- The records of a session with its lifecycle events, each behind as many records as it says. -/
def timeline (records : List RawMessage) (lifecycle : List LifecycleEntry) :
    List (LifecycleEntry ⊕ RawMessage) :=
  Weave.woven LifecycleEntry.beforeRecordIndex lifecycle 0 records

/-- A loop over the records of a session goes along its timeline. -/
theorem foldlM_timeline {σ φ : Type} (loop : Weave.Loop σ LifecycleEntry RawMessage φ)
    {records : List RawMessage} {lifecycle left : List LifecycleEntry} {s final : σ}
    (hp : loop.position = LifecycleEntry.beforeRecordIndex)
    (hi : ∀ k e, records[k]? = some e → loop.index k e = k)
    (hs : lifecycle.Pairwise fun a b ↦ a.beforeRecordIndex ≤ b.beforeRecordIndex)
    (h : loop.run 0 s records lifecycle = .ok (final, left)) :
    (timeline records lifecycle).foldlM loop.item (loop.opening s) = .ok final := by
  rw [← hp] at hs
  rw [Weave.run_eq_woven hi hs, hp] at h
  change Except.map _ ((timeline records lifecycle).foldlM _ _) = _ at h
  cases hfold : (timeline records lifecycle).foldlM loop.item (loop.opening s) with
  | error failure =>
    rw [hfold] at h
    cases h
  | ok reached =>
    rw [hfold] at h
    cases h
    rfl

end ArbitrageEngine.Sessions
