import Mathlib

/-!
# Ordered maps: folds over entries and trimming

Support for `Std.ExtTreeMap` as a model of `std::map`: a loop that writes every entry
of one map into another, and the loop that erases the last entry until at most `n` are
left. Iteration order is the order of `toList`.
-/

namespace Base.TreeMap

open Std

variable {α β γ : Type} {cmp : α → α → Ordering} [TransCmp cmp] [LawfulEqCmp cmp]

/-! ### Folding the entries of one map into another -/

/-- A step that decides the value at one key and leaves all others alone. -/
def Writes (write : ExtTreeMap α γ cmp → α × β → ExtTreeMap α γ cmp) (value : β → Option γ) :
    Prop :=
  ∀ (map : ExtTreeMap α γ cmp) (entry : α × β) (key : α),
    (write map entry)[key]? = if cmp entry.1 key = .eq then value entry.2 else map[key]?

private theorem getElem?_foldl_absent {write : ExtTreeMap α γ cmp → α × β → ExtTreeMap α γ cmp}
    {value : β → Option γ} (hw : Writes write value) (entries : List (α × β))
    (map : ExtTreeMap α γ cmp) (key : α) (h : ∀ e ∈ entries, e.1 ≠ key) :
    (entries.foldl write map)[key]? = map[key]? := by
  induction entries generalizing map with
  | nil => rfl
  | cons e rest ih =>
    have he : ¬cmp e.1 key = .eq := by
      simp only [LawfulEqCmp.compare_eq_iff_eq]
      exact h e (by simp)
    rw [List.foldl_cons, ih _ (fun x hx ↦ h x (by simp [hx])), hw, if_neg he]

private theorem getElem?_foldl_present {write : ExtTreeMap α γ cmp → α × β → ExtTreeMap α γ cmp}
    {value : β → Option γ} (hw : Writes write value) (entries : List (α × β))
    (map : ExtTreeMap α γ cmp) (key : α) (v : β) (hd : entries.Pairwise (fun a b ↦ a.1 ≠ b.1))
    (h : (key, v) ∈ entries) :
    (entries.foldl write map)[key]? = value v := by
  induction entries generalizing map with
  | nil => cases h
  | cons e rest ih =>
    rw [List.pairwise_cons] at hd
    rw [List.foldl_cons]
    rcases List.mem_cons.mp h with he | hr
    · subst he
      rw [getElem?_foldl_absent hw rest _ key (fun x hx ↦ Ne.symm (hd.1 x hx)), hw]
      simp
    · exact ih _ hd.2 hr

/-- Keys of a map's entries are pairwise different. -/
theorem pairwise_toList (map : ExtTreeMap α β cmp) :
    map.toList.Pairwise (fun a b ↦ a.1 ≠ b.1) := by
  apply map.distinct_keys_toList.imp
  intro a b hab he
  exact hab (LawfulEqCmp.compare_eq_iff_eq.mpr he)

/-- Writing all entries of `changes` leaves the written value where there is one. -/
theorem getElem?_foldl_toList {write : ExtTreeMap α γ cmp → α × β → ExtTreeMap α γ cmp}
    {value : β → Option γ} (hw : Writes write value) (changes : ExtTreeMap α β cmp)
    (map : ExtTreeMap α γ cmp) (key : α) :
    (changes.toList.foldl write map)[key]? = changes[key]?.elim map[key]? value := by
  cases hc : changes[key]? with
  | some v =>
    apply getElem?_foldl_present hw _ _ _ _ (pairwise_toList changes)
    exact ExtTreeMap.mem_toList_iff_getElem?_eq_some.mpr hc
  | none =>
    apply getElem?_foldl_absent hw
    intro e he heq
    have hs := ExtTreeMap.mem_toList_iff_getElem?_eq_some.mp he
    rw [heq, hc] at hs
    cases hs

/-- `emplace` at a free key is an insertion. -/
theorem insertIfNew_of_not_mem {map : ExtTreeMap α β cmp} {key : α} {v : β} (h : ¬key ∈ map) :
    map.insertIfNew key v = map.insert key v := by
  apply ExtTreeMap.ext_getElem?
  intro k
  rw [ExtTreeMap.getElem?_insertIfNew, ExtTreeMap.getElem?_insert]
  simp only [h, not_false_eq_true, and_true]

/-! ### Trimming from the end -/

/-- `levels.erase(std::prev(levels.end()))`. -/
def eraseLast (map : ExtTreeMap α β cmp) : ExtTreeMap α β cmp :=
  match map.toList.getLast? with
  | some entry => map.erase entry.1
  | none => map

/-- The loop that erases the last entry while more than `n` are left. -/
def trimLoop (n : Nat) : Nat → ExtTreeMap α β cmp → ExtTreeMap α β cmp
  | 0, map => map
  | fuel + 1, map => if n < map.size then trimLoop n fuel (eraseLast map) else map

/-- `while (levels.size() > n) levels.erase(std::prev(levels.end()))`. -/
def trim (n : Nat) (map : ExtTreeMap α β cmp) : ExtTreeMap α β cmp := trimLoop n map.size map

omit [LawfulEqCmp cmp] in
private theorem nodup_of_ordered {entries : List (α × β)}
    (h : entries.Pairwise (fun x y ↦ cmp x.1 y.1 = .lt)) : entries.Nodup := by
  apply h.imp
  intro x y hxy he
  subst he
  exact OrientedCmp.not_lt_of_lt hxy hxy

/-- A strictly ordered list with the entries of a map is its iteration order. -/
theorem toList_eq_of_mem_iff {map : ExtTreeMap α β cmp} {entries : List (α × β)}
    (hs : entries.Pairwise (fun x y ↦ cmp x.1 y.1 = .lt))
    (hm : ∀ k v, (k, v) ∈ entries ↔ map[k]? = some v) : map.toList = entries := by
  refine List.Perm.eq_of_pairwise ?_ map.ordered_keys_toList hs ?_
  · intro x y _ _ hxy hyx
    exact absurd hyx (OrientedCmp.not_lt_of_lt hxy)
  · rw [List.perm_ext_iff_of_nodup (nodup_of_ordered map.ordered_keys_toList) (nodup_of_ordered hs)]
    rintro ⟨k, v⟩
    rw [ExtTreeMap.mem_toList_iff_getElem?_eq_some, hm]

/-- Erasing a key removes exactly its entry from the iteration order. -/
theorem toList_erase (map : ExtTreeMap α β cmp) (key : α) :
    (map.erase key).toList = map.toList.filter (fun e ↦ cmp key e.1 != .eq) := by
  refine toList_eq_of_mem_iff (map.ordered_keys_toList.filter _) ?_
  intro k v
  rw [List.mem_filter, ExtTreeMap.mem_toList_iff_getElem?_eq_some, ExtTreeMap.getElem?_erase]
  by_cases hk : cmp key k = .eq <;> simp [hk]

/-- Erasing the last entry drops the last element of the iteration order. -/
theorem toList_eraseLast (map : ExtTreeMap α β cmp) :
    (eraseLast map).toList = map.toList.dropLast := by
  unfold eraseLast
  cases hl : map.toList.getLast? with
  | none =>
    rw [List.getLast?_eq_none_iff] at hl
    simp [hl]
  | some entry =>
    obtain ⟨init, hi⟩ := List.getLast?_eq_some_iff.mp hl
    have hp := pairwise_toList map
    simp only [toList_erase]
    rw [hi] at hp ⊢
    have hinit : ∀ e ∈ init, e.1 ≠ entry.1 := by
      intro e he
      exact (List.pairwise_append.mp hp).2.2 e he entry (by simp)
    have hf : init.filter (fun e ↦ cmp entry.1 e.1 != .eq) = init := by
      apply List.filter_eq_self.mpr
      intro e he
      have hne : ¬cmp entry.1 e.1 = .eq := by
        rw [LawfulEqCmp.compare_eq_iff_eq]
        exact Ne.symm (hinit e he)
      simpa using hne
    simp [List.filter_append, hf]

private theorem toList_trimLoop (n fuel : Nat) (map : ExtTreeMap α β cmp)
    (h : map.size ≤ n + fuel) : (trimLoop n fuel map).toList = map.toList.take n := by
  induction fuel generalizing map with
  | zero =>
    rw [trimLoop, List.take_of_length_le]
    rw [ExtTreeMap.length_toList]
    exact h
  | succ fuel ih =>
    rw [trimLoop]
    have hlen : map.toList.length = map.size := ExtTreeMap.length_toList
    split
    · next hn =>
      have hsize : (eraseLast map).size = map.size - 1 := by
        rw [← ExtTreeMap.length_toList, toList_eraseLast, List.length_dropLast, hlen]
      rw [ih _ (by omega), toList_eraseLast, List.dropLast_eq_take, List.take_take, hlen,
        Nat.min_eq_left (by omega)]
    · next hn => rw [List.take_of_length_le (by omega)]

/-- Trimming keeps the first `n` entries of the iteration order. -/
theorem toList_trim (n : Nat) (map : ExtTreeMap α β cmp) :
    (trim n map).toList = map.toList.take n :=
  toList_trimLoop n map.size map (by omega)

/-- At most `n` entries are left. -/
theorem size_trim_le (n : Nat) (map : ExtTreeMap α β cmp) : (trim n map).size ≤ n := by
  rw [← ExtTreeMap.length_toList, toList_trim]
  exact List.length_take_le n map.toList

/-- Every entry that is left was there before. -/
theorem getElem?_of_trim {n : Nat} {map : ExtTreeMap α β cmp} {key : α} {v : β}
    (h : (trim n map)[key]? = some v) : map[key]? = some v := by
  rw [← ExtTreeMap.mem_toList_iff_getElem?_eq_some, toList_trim] at h
  exact ExtTreeMap.mem_toList_iff_getElem?_eq_some.mp (List.mem_of_mem_take h)

/-- Mapping the values commutes with trimming. -/
theorem map_trim (f : α → β → γ) (n : Nat) (map : ExtTreeMap α β cmp) :
    (trim n map).map f = trim n (map.map f) := by
  rw [← ExtTreeMap.toList_inj, ExtTreeMap.toList_map, toList_trim, toList_trim,
    ExtTreeMap.toList_map, List.map_take]

/-- The map of the first `n` entries. -/
def first (n : Nat) (map : ExtTreeMap α β cmp) : ExtTreeMap α β cmp :=
  ExtTreeMap.ofList (map.toList.take n) cmp

/-- What the loop leaves are the first entries. -/
theorem trim_eq_first (n : Nat) (map : ExtTreeMap α β cmp) : trim n map = first n map := by
  rw [← ExtTreeMap.toList_inj, toList_trim]
  symm
  have hp : (map.toList.take n).Pairwise (fun a b ↦ ¬cmp a.1 b.1 = .eq) :=
    map.distinct_keys_toList.sublist (List.take_sublist n _)
  refine toList_eq_of_mem_iff (map.ordered_keys_toList.sublist (List.take_sublist n _)) ?_
  intro k v
  have hmem (v : β) (h : (k, v) ∈ map.toList.take n) : (first n map)[k]? = some v :=
    ExtTreeMap.getElem?_ofList_of_mem ReflCmp.compare_self hp h
  refine ⟨hmem v, fun h ↦ ?_⟩
  classical
  have hk : k ∈ first n map := by
    rw [← ExtTreeMap.isSome_getElem?_iff_mem, h]
    rfl
  rw [first, ExtTreeMap.mem_ofList, List.contains_iff_mem, List.mem_map] at hk
  obtain ⟨⟨key, w⟩, hw, rfl⟩ := hk
  rw [hmem w hw, Option.some_inj] at h
  rwa [h] at hw

end Base.TreeMap
