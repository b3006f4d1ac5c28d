import IngrediGo.Lib.Lists
import Mathlib.Algebra.Group.Nat.Even

/-!
# Toggling keys one after the other

`as.foldl (toggle key) l`: what is left of a list of records after every record of `as` was
toggled by its key. The keys stay distinct, a key is there by the parity of its toggles, and
the records of the other keys are not touched.
-/

namespace Lib.Keyed

variable {α κ : Type*} {key : α → κ} {l as : List α} {k : κ} {a : α} [DecidableEq κ]

/-! ## One toggle -/

theorem mem_keys_toggle_iff :
    k ∈ (toggle key l a).map key ↔ (k ∈ l.map key ↔ key a ≠ k) := by
  by_cases hk : key a = k
  · subst hk
    simp [mem_keys_toggle]
  · unfold toggle
    split
    · rw [mem_keys_drop]
      simp [hk, Ne.symm hk]
    · rw [mem_keys_concat]
      simp [hk, Ne.symm hk]

/-- A toggle leaves the records of the other keys alone. -/
theorem filter_toggle {p : α → Bool} (hp : ∀ b, key b = key a → p b = false) (l : List α) :
    (toggle key l a).filter p = l.filter p := by
  unfold toggle
  split
  · rw [List.filter_filter]
    refine List.filter_congr fun b _ => ?_
    by_cases hb : key b = key a
    · simp [hb, hp b hb]
    · simp [hb]
  · rw [List.filter_append, List.filter_cons_of_neg (by simp [hp a rfl]), List.filter_nil,
      List.append_nil]

/-! ## Any number of them -/

theorem nodup_keys_toggles (h : (l.map key).Nodup) (as : List α) :
    ((as.foldl (toggle key) l).map key).Nodup :=
  List.foldlRecOn (motive := fun l => (l.map key).Nodup) as (toggle key) h
    fun _ hl a _ => nodup_keys_toggle hl a

/-- **Parity**: an even number of toggles leaves a key as it was, an odd number does not. -/
theorem mem_keys_toggles (key : α → κ) (l as : List α) :
    k ∈ (as.foldl (toggle key) l).map key ↔
      (k ∈ l.map key ↔ Even (as.countP (key · = k))) := by
  induction as generalizing l with
  | nil => simp
  | cons a as ih =>
    rw [List.foldl_cons, ih, mem_keys_toggle_iff]
    by_cases hk : key a = k
    · rw [List.countP_cons_of_pos (by simpa using hk), Nat.even_add_one]
      tauto
    · rw [List.countP_cons_of_neg (by simpa using hk)]
      tauto

/-- **Frame**: the records no toggle has the key of stay, in their order. -/
theorem filter_toggles {p : α → Bool} (hp : ∀ a ∈ as, ∀ b, key b = key a → p b = false)
    (l : List α) : (as.foldl (toggle key) l).filter p = l.filter p := by
  induction as generalizing l with
  | nil => rfl
  | cons a as ih =>
    rw [List.foldl_cons, ih fun b hb => hp b (.tail _ hb), filter_toggle (hp a (.head _))]

end Lib.Keyed
