import Mathlib.Data.List.Destutter

/-!
# Lists

Folds with a check, total partial maps, and lists with their consecutive repeats removed.
-/

namespace Base

variable {α β : Type}

/-- A checked fold that succeeds is the plain fold. -/
theorem foldl_of_checked {f : β → α → β} {p : α → Bool} {items : List α} {start final : β}
    (h : items.foldlM (fun acc item ↦ if p item then some (f acc item) else none) start =
      some final) : final = items.foldl f start := by
  induction items generalizing start with
  | nil =>
    cases h
    rfl
  | cons item rest ih =>
    rw [List.foldlM_cons] at h
    by_cases hp : p item = true
    · rw [if_pos hp] at h
      exact ih h
    · rw [if_neg hp] at h
      cases h

/-- A partial map that is defined on every item loses none of them. -/
theorem map_eq_map_filterMap {f : α → Option β} {items : List α}
    (h : ∀ item ∈ items, (f item).isSome = true) :
    items.map f = (items.filterMap f).map some := by
  induction items with
  | nil => rfl
  | cons item rest ih =>
    obtain ⟨value, hv⟩ := Option.isSome_iff_exists.mp (h item List.mem_cons_self)
    rw [List.map_cons, List.filterMap_cons_some hv, List.map_cons, hv,
      ih fun other ho ↦ h other (List.mem_cons_of_mem _ ho)]

/-! ### Consecutive repeats -/

section Destutter

variable [DecidableEq α]

private theorem destutter'_concat (a x : α) (items : List α) :
    List.destutter' (· ≠ ·) a (items ++ [x]) =
      if (a :: items).getLast? = some x then List.destutter' (· ≠ ·) a items
      else List.destutter' (· ≠ ·) a items ++ [x] := by
  induction items generalizing a with
  | nil =>
    by_cases hx : a = x
    · simp [hx]
    · simp [hx]
  | cons b items ih =>
    rw [List.cons_append, List.getLast?_cons_cons]
    by_cases hb : a = b
    · subst hb
      rw [List.destutter'_cons_neg _ (by simp), List.destutter'_cons_neg _ (by simp)]
      exact ih a
    · rw [List.destutter'_cons_pos _ hb, List.destutter'_cons_pos _ hb, ih b]
      split
      · rfl
      · rfl

/-- A repeat at the end is removed. -/
theorem destutter_concat (items : List α) (x : α) :
    (items ++ [x]).destutter (· ≠ ·) =
      if items.getLast? = some x then items.destutter (· ≠ ·)
      else items.destutter (· ≠ ·) ++ [x] := by
  cases items with
  | nil => simp
  | cons a items => exact destutter'_concat a x items

/-- Removing repeats keeps the last item. -/
theorem getLast?_destutter (items : List α) :
    (items.destutter (· ≠ ·)).getLast? = items.getLast? := by
  induction items using List.reverseRecOn with
  | nil => rfl
  | append_singleton items x ih =>
    rw [destutter_concat, List.getLast?_concat]
    split
    · next h => rw [ih, h]
    · exact List.getLast?_concat

/-- Lists that agree up to repeats still agree after one more item. -/
theorem destutter_concat_congr {a b : List α} (h : a.destutter (· ≠ ·) = b.destutter (· ≠ ·))
    (x : α) : (a ++ [x]).destutter (· ≠ ·) = (b ++ [x]).destutter (· ≠ ·) := by
  have hlast : a.getLast? = b.getLast? := by
    rw [← getLast?_destutter a, h, getLast?_destutter b]
  rw [destutter_concat, destutter_concat, h, hlast]

end Destutter

end Base
