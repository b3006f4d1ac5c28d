import Mathlib.Algebra.Ring.Nat
import Mathlib.Data.List.Nodup

/-!
# Lists

`split_at` takes a list apart at an index; the lemmas after it say what setting or erasing
there does to membership. `Lib.Keyed` sees a list of records, each with a
key, as a set of keys (`l.map key`): what dropping a key, appending or putting a record,
toggling a key and updating records in place do to it.
-/

namespace Lib

variable {α : Type*} {l before after : List α} {n : Nat} {a b : α}

/-- `l` at index `n`: what is before it and after it, and what setting or erasing it leaves. -/
theorem split_at (h : l[n]? = some a) :
    ∃ before after, l = before ++ a :: after ∧ before.length = n ∧
      (∀ b, l.set n b = before ++ b :: after) ∧ l.eraseIdx n = before ++ after := by
  obtain ⟨hlt, rfl⟩ := List.getElem?_eq_some_iff.mp h
  refine ⟨l.take n, l.drop (n + 1), ?_, ?_, fun b => ?_, ?_⟩
  · rw [← List.drop_eq_getElem_cons hlt, List.take_append_drop]
  · rw [List.length_take]; omega
  · rw [List.set_eq_take_append_cons_drop, if_pos hlt]
  · exact List.eraseIdx_eq_take_drop_succ ..

theorem getElem?_at : (before ++ a :: after)[before.length]? = some a := by
  rw [List.getElem?_append_right (Nat.le_refl _), Nat.sub_self, List.getElem?_cons_zero]

theorem getElem?_concat_some (h : (l ++ [a])[n]? = some b) :
    l[n]? = some b ∨ n = l.length ∧ b = a := by
  rcases Nat.lt_trichotomy n l.length with hn | rfl | hn
  · rw [List.getElem?_append_left hn] at h
    exact .inl h
  · rw [List.getElem?_concat_length] at h
    exact .inr ⟨rfl, (Option.some.inj h).symm⟩
  · rw [List.getElem?_eq_none (by rw [List.length_append]; exact hn)] at h
    cases h

theorem set_at : (before ++ a :: after).set before.length b = before ++ b :: after := by
  rw [List.set_append_right _ _ (Nat.le_refl _), Nat.sub_self, List.set_cons_zero]

/-- What is found after setting is what was set, or was there. -/
theorem getElem?_set_some {m : Nat} (h : (l.set n a)[m]? = some b) :
    n = m ∧ b = a ∨ n ≠ m ∧ l[m]? = some b := by
  by_cases hnm : n = m
  · subst hnm
    have hlt := (List.getElem?_eq_some_iff.mp h).1
    rw [List.length_set] at hlt
    rw [List.getElem?_set_self hlt] at h
    exact .inl ⟨rfl, (Option.some.inj h).symm⟩
  · rw [List.getElem?_set_ne hnm] at h
    exact .inr ⟨hnm, h⟩

/-- What is found after a modification was there, modified if it is at that index. -/
theorem getElem?_modify_some {m : Nat} {f : α → α} (h : (l.modify n f)[m]? = some b) :
    n = m ∧ (∃ a, l[m]? = some a ∧ b = f a) ∨ n ≠ m ∧ l[m]? = some b := by
  rw [List.getElem?_modify] at h
  obtain ⟨a, ha, rfl⟩ := Option.map_eq_some_iff.mp h
  by_cases hnm : n = m
  · rw [if_pos hnm]
    exact .inl ⟨hnm, a, ha, rfl⟩
  · rw [if_neg hnm]
    exact .inr ⟨hnm, ha⟩

theorem erase_at : (before ++ a :: after).eraseIdx before.length = before ++ after := by
  rw [List.eraseIdx_append_of_length_le (Nat.le_refl _), Nat.sub_self, List.eraseIdx_cons_zero]

theorem mem_at : b ∈ before ++ a :: after ↔ b = a ∨ b ∈ before ++ after := by
  rw [List.perm_middle.mem_iff, List.mem_cons]

/-- Erasing at an index only loses elements. -/
theorem mem_of_mem_erase_at (h : b ∈ before ++ after) : b ∈ before ++ a :: after :=
  mem_at.mpr (.inr h)

/-- Setting at an index only gains the element set. -/
theorem mem_of_mem_set_at {c : α} (h : c ∈ before ++ b :: after) :
    c = b ∨ c ∈ before ++ a :: after := by
  rcases mem_at.mp h with rfl | h
  · exact .inl rfl
  · exact .inr (mem_of_mem_erase_at h)

/-- Setting an element to one that weighs less makes a list weigh less. -/
theorem sum_map_set_lt {f : α → ℕ} (h : l[n]? = some a) (hlt : f b < f a) :
    ((l.set n b).map f).sum < (l.map f).sum := by
  obtain ⟨before, after, rfl, rfl, -, -⟩ := split_at h
  rw [set_at]
  simp only [List.map_append, List.map_cons, List.sum_append, List.sum_cons]
  omega

theorem nodup_eraseDups [BEq α] [LawfulBEq α] (l : List α) : l.eraseDups.Nodup := by
  induction h : l.length using Nat.strongRecOn generalizing l with
  | _ n ih =>
    cases l with
    | nil => exact List.nodup_nil
    | cons a l =>
      rw [List.eraseDups_cons, List.nodup_cons]
      refine ⟨by simp, ih _ ?_ _ rfl⟩
      rw [← h]
      exact Nat.lt_succ_of_le (List.length_filter_le ..)

theorem mem_modify {f : α → α} (h : b ∈ l.modify n f) : b ∈ l ∨ ∃ a ∈ l, b = f a := by
  obtain ⟨i, hi⟩ := List.mem_iff_getElem?.mp h
  rw [List.getElem?_modify] at hi
  split at hi
  · obtain ⟨a, ha, rfl⟩ := Option.map_eq_some_iff.mp hi
    exact .inr ⟨a, List.mem_of_getElem? ha, rfl⟩
  · exact .inl (List.mem_of_getElem? (by simpa using hi))

/-- What every image remembers of its element. -/
theorem map_mapIdx_of_leftInverse {β : Type*} {f : ℕ → α → β} {g : β → α}
    (h : ∀ i a, g (f i a) = a) (l : List α) : (l.mapIdx f).map g = l := by
  refine List.ext_getElem? fun i => ?_
  rw [List.getElem?_map, List.getElem?_mapIdx]
  cases l[i]? with
  | none => rfl
  | some a => exact congrArg some (h i a)

/-- What is done to every result can be done to the list of them. -/
theorem mapM_map_option {β γ : Type*} (f : α → Option β) (g : β → γ) (l : List α) :
    l.mapM (fun a => (f a).map g) = (l.mapM f).map (List.map g) := by
  induction l with
  | nil => rfl
  | cons a l ih =>
    rw [List.mapM_cons, List.mapM_cons, ih]
    cases f a with
    | none => rfl
    | some b => cases l.mapM f <;> rfl

theorem mapM_isSome {β : Type*} {f : α → Option β} (h : ∀ a ∈ l, (f a).isSome = true) :
    ∃ bs, l.mapM f = some bs := by
  induction l with
  | nil => exact ⟨[], rfl⟩
  | cons a l ih =>
    obtain ⟨ha, hl⟩ := List.forall_mem_cons.mp h
    obtain ⟨b, hb⟩ := Option.isSome_iff_exists.mp ha
    obtain ⟨bs, hbs⟩ := ih hl
    exact ⟨b :: bs, by rw [List.mapM_cons, hb, hbs]; rfl⟩

/-- A filter whose condition may be undefined. -/
theorem filterAuxM_spec {α : Type} {p : α → Option Bool} {l : List α}
    (h : ∀ a ∈ l, (p a).isSome = true) (acc : List α) :
    ∃ kept, l.filterAuxM p acc = some kept ∧
      ∀ a, a ∈ kept ↔ a ∈ acc ∨ a ∈ l ∧ p a = some true := by
  induction l generalizing acc with
  | nil => exact ⟨acc, rfl, by simp⟩
  | cons b l ih =>
    obtain ⟨hb, hl⟩ := List.forall_mem_cons.mp h
    obtain ⟨keep, hkeep⟩ := Option.isSome_iff_exists.mp hb
    obtain ⟨kept, hkept, hmem⟩ := ih hl (cond keep (b :: acc) acc)
    refine ⟨kept, by rw [List.filterAuxM, hkeep]; exact hkept, fun a => ?_⟩
    rw [hmem]
    cases keep with
    | true =>
      simp only [cond_true, List.mem_cons]
      grind
    | false =>
      simp only [cond_false, List.mem_cons]
      grind

theorem filterM_spec {α : Type} {p : α → Option Bool} {l : List α}
    (h : ∀ a ∈ l, (p a).isSome = true) :
    ∃ kept, l.filterM p = some kept ∧ ∀ a, a ∈ kept ↔ a ∈ l ∧ p a = some true := by
  obtain ⟨kept, hkept, hmem⟩ := filterAuxM_spec h []
  refine ⟨kept.reverse, by rw [List.filterM, hkept]; rfl, fun a => ?_⟩
  rw [List.mem_reverse, hmem]
  simp

/-- Going through the indices is going through the elements. -/
theorem flatMap_range {β : Type*} {f : ℕ → List β} {g : α → List β} (l : List α)
    (h : ∀ (i : ℕ) (a : α), l[i]? = some a → f i = g a) :
    (List.range l.length).flatMap f = l.flatMap g := by
  induction l generalizing f with
  | nil => rfl
  | cons a l ih =>
    rw [List.length_cons, List.range_succ_eq_map, List.flatMap_cons, List.flatMap_cons,
      List.flatMap_map, h 0 a rfl]
    exact congrArg _ (ih fun i b hb => h (i + 1) b hb)

end Lib

namespace Lib.Keyed

variable {α κ : Type*} {key : α → κ} {l l' : List α} {k : κ}

theorem mem_keys : k ∈ l.map key ↔ ∃ a ∈ l, key a = k := List.mem_map

theorem mem_keys_drop [DecidableEq κ] {j : κ} :
    j ∈ (l.filter (key · ≠ k)).map key ↔ j ∈ l.map key ∧ j ≠ k := by
  simp only [mem_keys, List.mem_filter, decide_eq_true_eq]
  constructor
  · rintro ⟨a, ⟨ha, hne⟩, rfl⟩; exact ⟨⟨a, ha, rfl⟩, hne⟩
  · rintro ⟨⟨a, ha, rfl⟩, hne⟩; exact ⟨a, ⟨ha, hne⟩, rfl⟩

theorem mem_keys_concat {a : α} {j : κ} :
    j ∈ (l ++ [a]).map key ↔ j ∈ l.map key ∨ j = key a := by
  simp [List.map_append, eq_comm]

theorem any_key [DecidableEq κ] (key : α → κ) : l.any (key · = k) = true ↔ k ∈ l.map key := by
  simp [mem_keys]

theorem nodup_keys_filter {p : α → Bool} (h : (l.map key).Nodup) :
    ((l.filter p).map key).Nodup :=
  h.sublist (List.filter_sublist.map key)

theorem nodup_keys_concat {a : α} (h : (l.map key).Nodup) (ha : key a ∉ l.map key) :
    ((l ++ [a]).map key).Nodup := by
  rw [List.map_append, List.map_singleton, List.nodup_append]
  exact ⟨h, List.nodup_singleton _, fun x hx y hy => by
    rintro rfl; exact ha (List.mem_singleton.mp hy ▸ hx)⟩

/-- What is found under a key has it. -/
theorem key_of_find [DecidableEq κ] {a : α} (h : l.find? (key · = k) = some a) : key a = k := by
  simpa using List.find?_some h

/-- There is something to find under the key of a record. -/
theorem exists_find [DecidableEq κ] (key : α → κ) {a : α} (ha : a ∈ l) :
    ∃ b, l.find? (key · = key a) = some b :=
  Option.isSome_iff_exists.mp (List.find?_isSome.mpr ⟨a, ha, by simp⟩)

/-- With distinct keys, to drop a record's key is to drop the record. -/
theorem drop_eq_erase [DecidableEq κ] [DecidableEq α] (h : (l.map key).Nodup) {a : α}
    (ha : a ∈ l) : l.filter (key · ≠ key a) = l.erase a := by
  rw [h.of_map.erase_eq_filter]
  refine List.filter_congr fun b hb => ?_
  rw [Bool.eq_iff_iff, decide_eq_true_eq, bne_iff_ne, not_iff_not]
  exact ⟨List.inj_on_of_nodup_map h hb ha, congrArg key⟩

/-- With distinct keys a record is found under its own. -/
theorem find_key [DecidableEq κ] (h : (l.map key).Nodup) {a : α} (ha : a ∈ l) :
    l.find? (key · = key a) = some a := by
  obtain ⟨b, hb⟩ := exists_find key ha
  rw [hb, List.inj_on_of_nodup_map h (List.mem_of_find?_eq_some hb) ha (key_of_find hb)]

/-- An update that leaves every key alone leaves the keys alone. -/
theorem keys_map {g : α → α} (hg : ∀ a ∈ l, key (g a) = key a) :
    (l.map g).map key = l.map key := by
  rw [List.map_map]; exact List.map_congr_left hg

/-- `a` is appended if its key is new, and its key is dropped otherwise. -/
def toggle [DecidableEq κ] (key : α → κ) (l : List α) (a : α) : List α :=
  if key a ∈ l.map key then l.filter (key · ≠ key a) else l ++ [a]

theorem nodup_keys_toggle [DecidableEq κ] (h : (l.map key).Nodup) (a : α) :
    ((toggle key l a).map key).Nodup := by
  unfold toggle
  split
  · exact nodup_keys_filter h
  · next ha => exact nodup_keys_concat h ha

/-- On the keys it is the toggle of a list of keys. -/
theorem map_toggle [DecidableEq κ] (key : α → κ) (l : List α) (a : α) :
    (toggle key l a).map key = toggle id (l.map key) (key a) := by
  unfold toggle
  rw [List.map_id, id_eq]
  split
  · rw [List.filter_map]
    rfl
  · rw [List.map_append, List.map_singleton]

theorem map_foldl_toggle [DecidableEq κ] (key : α → κ) (l as : List α) :
    (as.foldl (toggle key) l).map key = (as.map key).foldl (toggle id) (l.map key) := by
  induction as generalizing l with
  | nil => rfl
  | cons a as ih => rw [List.foldl_cons, ih, map_toggle, List.map_cons, List.foldl_cons]

/-- The key is there afterwards if it was not. -/
theorem mem_keys_toggle [DecidableEq κ] (key : α → κ) (l : List α) (a : α) :
    key a ∈ (toggle key l a).map key ↔ key a ∉ l.map key := by
  unfold toggle
  split
  · next ha =>
    rw [mem_keys_drop]
    exact iff_of_false (fun h => h.2 rfl) (not_not_intro ha)
  · next ha => exact iff_of_true (mem_keys_concat.mpr (.inr rfl)) ha

/-- `a` is appended if its key is new. -/
def put [DecidableEq κ] (key : α → κ) (l : List α) (a : α) : List α :=
  if key a ∈ l.map key then l else l ++ [a]

/-- Putting, dropping: on the keys they are what they are on a list of keys. -/
theorem map_put [DecidableEq κ] (key : α → κ) (l : List α) (a : α) :
    (put key l a).map key = put id (l.map key) (key a) := by
  unfold put
  rw [List.map_id, id_eq]
  split
  · rfl
  · rw [List.map_append, List.map_singleton]

theorem map_drop [DecidableEq κ] (key : α → κ) (l : List α) (k : κ) :
    (l.filter (key · ≠ k)).map key = (l.map key).filter (· ≠ k) := by
  rw [List.filter_map]
  rfl

/-- Records that a function knows by their keys are no more than their keys. -/
theorem filterMap_keys {record : κ → Option α} (h : ∀ a ∈ l, record (key a) = some a) :
    (l.map key).filterMap record = l := by
  rw [List.filterMap_map]
  refine (List.filterMap_congr h).trans ?_
  exact List.filterMap_some

end Lib.Keyed
