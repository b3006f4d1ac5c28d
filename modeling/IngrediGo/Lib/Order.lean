import IngrediGo.Lib.Lists
import Mathlib.Data.List.Sort
import Mathlib.Data.List.TakeWhile

/-!
# The order lists keep

What dropping duplicates and sorting do to the order of a list: what is left stays in the
order of the first occurrences, also when records are kept by their key (`Keyed.firsts`),
nothing is lost when records are taken key after key (`Keyed.groups_perm`), and a sort keeps
the order of whatever its relation does not tell apart.
-/

namespace Lib

variable {α : Type*} {l : List α} {a b : α}

/-! ## First occurrences -/

theorem idxOf_filter_lt [DecidableEq α] {p : α → Bool} (ha : p a = true) (hb : p b = true)
    (h : (l.filter p).idxOf a < (l.filter p).idxOf b) : l.idxOf a < l.idxOf b := by
  induction l with
  | nil => exact absurd h (Nat.lt_irrefl _)
  | cons c l ih =>
    by_cases hc : p c = true
    · rw [List.filter_cons_of_pos hc] at h
      rw [List.idxOf_cons, List.idxOf_cons] at h ⊢
      grind
    · rw [List.filter_cons_of_neg hc] at h
      have hca : c ≠ a := by rintro rfl; exact hc ha
      have hcb : c ≠ b := by rintro rfl; exact hc hb
      rw [List.idxOf_cons_ne _ hca, List.idxOf_cons_ne _ hcb]
      exact Nat.succ_lt_succ (ih h)

/-- Without its duplicates a list is in the order of the first occurrences. -/
theorem eraseDups_idxOf [DecidableEq α] (l : List α) :
    l.eraseDups.Pairwise fun a b => l.idxOf a < l.idxOf b := by
  induction h : l.length using Nat.strongRecOn generalizing l with
  | _ n ih =>
    cases l with
    | nil => exact List.Pairwise.nil
    | cons c l =>
      have hshort : (l.filter fun b => !b == c).length < n := by
        rw [← h]; exact Nat.lt_succ_of_le (List.length_filter_le ..)
      have hne : ∀ b ∈ (l.filter fun b => !b == c).eraseDups, c ≠ b := by
        intro b hb
        have hkept := (List.mem_filter.mp (List.mem_eraseDups.mp hb)).2
        rintro rfl
        simp at hkept
      rw [List.eraseDups_cons, List.pairwise_cons]
      constructor
      · intro b hb
        rw [List.idxOf_cons_self, List.idxOf_cons_ne _ (hne b hb)]
        exact Nat.succ_pos _
      · refine (ih _ hshort _ rfl).imp_of_mem fun {a b} ha hb hab => ?_
        have hca := hne a ha
        have hcb := hne b hb
        rw [List.idxOf_cons_ne _ hca, List.idxOf_cons_ne _ hcb]
        refine Nat.succ_lt_succ (idxOf_filter_lt ?_ ?_ hab)
        · simpa using hca.symm
        · simpa using hcb.symm

namespace Keyed

variable {κ : Type*} [DecidableEq κ] {key : α → κ}

/-- The first record of each key. -/
def firsts (key : α → κ) (l : List α) : List α :=
  (l.map key).eraseDups.filterMap fun k => l.find? (key · = k)

/-- There is one for each key, and it has that key. -/
theorem map_firsts (key : α → κ) (l : List α) :
    (firsts key l).map key = (l.map key).eraseDups := by
  have hfound : ∀ k ∈ (l.map key).eraseDups, (l.find? (key · = k)).map key = some k := by
    intro k hk
    obtain ⟨a, ha, rfl⟩ := List.mem_map.mp (List.mem_eraseDups.mp hk)
    obtain ⟨b, hb⟩ := exists_find key ha
    rw [hb, Option.map_some, key_of_find hb]
  rw [firsts, List.map_filterMap, List.filterMap_congr hfound, List.filterMap_some]

theorem mem_firsts : a ∈ firsts key l ↔ l.find? (key · = key a) = some a := by
  rw [firsts, List.mem_filterMap]
  constructor
  · rintro ⟨k, -, hk⟩
    rwa [← key_of_find hk] at hk
  · intro h
    refine ⟨key a, List.mem_eraseDups.mpr (List.mem_map_of_mem ?_), h⟩
    exact List.mem_of_find?_eq_some h

/-- They are in the order the keys first come in. -/
theorem firsts_pairwise (key : α → κ) (l : List α) :
    (firsts key l).Pairwise fun a b => (l.map key).idxOf (key a) < (l.map key).idxOf (key b) := by
  have hkeys := eraseDups_idxOf (l.map key)
  rw [← map_firsts, List.pairwise_map] at hkeys
  exact hkeys

/-- Taken by their keys, key after key, the records are all there, and once. -/
theorem groups_perm (key : α → κ) {ks : List κ} (hks : ks.Nodup) {l : List α}
    (hl : ∀ a ∈ l, key a ∈ ks) : (ks.flatMap fun k => l.filter (key · = k)).Perm l := by
  induction ks generalizing l with
  | nil =>
    cases l with
    | nil => exact .nil
    | cons a l => cases hl a (.head _)
  | cons k ks ih =>
    obtain ⟨hk, hks⟩ := List.nodup_cons.mp hks
    have hrest : ks.flatMap (fun j => l.filter (key · = j)) =
        ks.flatMap fun j => (l.filter fun a => !decide (key a = k)).filter (key · = j) := by
      refine List.flatMap_congr fun j hj => ?_
      rw [List.filter_filter]
      refine List.filter_congr fun a _ => ?_
      by_cases ha : key a = j
      · have hne : key a ≠ k := fun he => hk (he ▸ ha ▸ hj)
        simp [ha, ha ▸ hne]
      · simp [ha]
    rw [List.flatMap_cons, hrest]
    have hothers := ih hks (l := l.filter fun a => !decide (key a = k)) fun a ha => by
      obtain ⟨ha, hne⟩ := List.mem_filter.mp ha
      exact (List.mem_cons.mp (hl a ha)).resolve_left (by simpa using hne)
    exact (hothers.append_left _).trans (List.filter_append_perm _ l)

end Keyed

/-! ## Sorting -/

variable {r s before : α → α → Prop} [DecidableRel r] [DecidableRel s]

/-- A sort compares the elements of its list only. -/
theorem insertionSort_congr (h : ∀ a ∈ l, ∀ b ∈ l, r a b ↔ s a b) :
    l.insertionSort r = l.insertionSort s := by
  simpa using List.map_insertionSort (r := r) (s := s) id l h

/-- **Stability**: two elements the relation would take in either order stay in theirs. -/
theorem insertionSort_stable (h : l.Pairwise before) :
    (l.insertionSort r).Pairwise fun a b => r b a → before a b := by
  induction l with
  | nil => exact List.Pairwise.nil
  | cons a l ih =>
    obtain ⟨ha, hl⟩ := List.pairwise_cons.mp h
    have hsorted := ih hl
    have hmem : ∀ b ∈ l.insertionSort r, before a b := fun b hb =>
      ha b ((List.mem_insertionSort r).mp hb)
    -- `a` goes in front of the first element it may precede
    rw [List.insertionSort_cons, List.orderedInsert_eq_take_drop]
    generalize l.insertionSort r = sorted at hsorted hmem
    rw [← List.takeWhile_append_dropWhile (p := fun b => ¬ r a b) (l := sorted),
      List.pairwise_append] at hsorted
    obtain ⟨htake, hdrop, hcross⟩ := hsorted
    have hdropped : ∀ b ∈ sorted.dropWhile fun b => ¬ r a b, before a b := fun b hb =>
      hmem b ((List.dropWhile_sublist _).subset hb)
    rw [List.pairwise_append, List.pairwise_cons]
    refine ⟨htake, ⟨fun b hb _ => hdropped b hb, hdrop⟩, fun b hb c hc => ?_⟩
    rcases List.mem_cons.mp hc with rfl | hc
    · have hrb := List.mem_takeWhile_imp hb
      exact fun hr => absurd hr (by simpa using hrb)
    · exact hcross b hb c hc

/-- **Ranking**: a relation that compares ranks sorts a list by rank, and equal ranks stay in
order. It may be anything off the list. -/
theorem insertionSort_ranked {β : Type*} [LinearOrder β] (rank : α → β)
    (hr : ∀ a ∈ l, ∀ b ∈ l, r a b ↔ rank b ≤ rank a) (h : l.Pairwise before) :
    (l.insertionSort r).Pairwise fun a b => rank b ≤ rank a ∧ (rank a = rank b → before a b) := by
  have htotal : Std.Total fun a b : α => rank b ≤ rank a := ⟨fun a b => le_total _ _⟩
  have htrans : IsTrans α fun a b => rank b ≤ rank a := ⟨fun _ _ _ hab hbc => hbc.trans hab⟩
  have hsorted : (l.insertionSort r).Pairwise fun a b => rank b ≤ rank a := by
    rw [insertionSort_congr hr]
    exact List.pairwise_insertionSort _ l
  refine hsorted.and ((insertionSort_stable h).imp_of_mem fun {a b} ha hb hab heq => hab ?_)
  rw [List.mem_insertionSort] at ha hb
  exact (hr b hb a ha).mpr heq.le

end Lib
