import IngrediGo.Favorites.Undo

/-!
# A save that fails

`saveFavorites` shows an alert and swallows the error; its callers go on as if the list had
been saved. A delete has taken the selection off the list and overwritten the batch by then,
an undo has put the batch back and forgets it: `failed_save_iff` says when that happens to
leave nothing wrong.
-/

namespace IngrediGo.FavoritesScreen

open Lib

/-- What a failed save should come to: the store is untouched, the list has its ids, and
no favourite of the batch is in neither the store nor the batch. -/
structure AsItWas (s t : System) : Prop where
  store : t.store = s.store
  list : ∀ id, id ∈ favoriteIds t.screen.favorites ↔ id ∈ favoriteIds t.store
  batch : ∀ id ∈ favoriteIds s.screen.recentlyDeleted,
    id ∈ favoriteIds t.store ∨ id ∈ favoriteIds t.screen.recentlyDeleted

@[simp] theorem post_failed {store body : List Favorite} {outcome : Outcome}
    (h : outcome ≠ .answered) : (Server.post store body outcome).1 = store := by
  rw [Server.post_fst, if_neg h]

section

variable {s : System} {outcome : Outcome}

theorem deleteSelectedItems_failed (h : outcome ≠ .answered) :
    (s.deleteSelectedItems outcome).store = s.store ∧
      (s.deleteSelectedItems outcome).screen.favorites = s.screen.unselectedItems ∧
      (s.deleteSelectedItems outcome).screen.recentlyDeleted = s.screen.selectedItems :=
  ⟨post_failed h, rfl, rfl⟩

theorem undoDelete_failed (h : outcome ≠ .answered) :
    (s.undoDelete outcome).store = s.store ∧
      (s.undoDelete outcome).screen.favorites = s.screen.restoredItems ∧
      (s.undoDelete outcome).screen.recentlyDeleted = [] :=
  ⟨post_failed h, rfl, rfl⟩

/-- A delete is harmless if each selected id stays on the list under another record, and
the batch it overwrites is in the store. -/
theorem failed_delete_iff
    (hsame : ∀ id, id ∈ favoriteIds s.screen.favorites ↔ id ∈ favoriteIds s.store)
    (h : outcome ≠ .answered) :
    AsItWas s (s.deleteSelectedItems outcome) ↔
      (∀ id ∈ favoriteIds s.screen.selectedItems, id ∈ favoriteIds s.screen.unselectedItems) ∧
        ∀ id ∈ favoriteIds s.screen.recentlyDeleted, id ∈ favoriteIds s.store := by
  obtain ⟨hstore, hlist, hbatch⟩ := deleteSelectedItems_failed (s := s) h
  have hselected : ∀ id ∈ favoriteIds s.screen.selectedItems, id ∈ favoriteIds s.store :=
    fun id hid => (hsame id).mp ((mem_ids_split s.screen id).mpr (.inr hid))
  constructor
  · intro ht
    refine ⟨fun id hid => ?_, fun id hid => ?_⟩
    · rw [← hlist]
      refine (ht.list id).mpr ?_
      rw [hstore]
      exact hselected id hid
    · rcases ht.batch id hid with hin | hin
      · rwa [hstore] at hin
      · rw [hbatch] at hin
        exact hselected id hin
  · rintro ⟨hdouble, hold⟩
    refine ⟨hstore, fun id => ?_, fun id hid => .inl ?_⟩
    · rw [hlist, hstore, ← hsame, mem_ids_split]
      exact (or_iff_left_of_imp (hdouble id)).symm
    · rw [hstore]
      exact hold id hid

/-- An undo is harmless if the batch is in the store already. -/
theorem failed_undo_iff
    (hsame : ∀ id, id ∈ favoriteIds s.screen.favorites ↔ id ∈ favoriteIds s.store)
    (h : outcome ≠ .answered) :
    AsItWas s (s.undoDelete outcome) ↔
      ∀ id ∈ favoriteIds s.screen.recentlyDeleted, id ∈ favoriteIds s.store := by
  obtain ⟨hstore, hlist, hbatch⟩ := undoDelete_failed (s := s) h
  constructor
  · intro ht id hid
    rcases ht.batch id hid with hin | hin
    · rwa [hstore] at hin
    · rw [hbatch] at hin
      cases hin
  · intro hold
    refine ⟨hstore, fun id => ?_, fun id hid => .inl ?_⟩
    · rw [hlist, hstore, mem_ids_restored, hsame]
      exact or_iff_left_of_imp (hold id)
    · rw [hstore]
      exact hold id hid

end

/-- **When a failed save leaves the screen as it was**, of the two handlers. -/
theorem failed_save_iff {s : System} {outcome : Outcome}
    (hsame : ∀ id, id ∈ favoriteIds s.screen.favorites ↔ id ∈ favoriteIds s.store)
    (h : outcome ≠ .answered) :
    (AsItWas s (s.deleteSelectedItems outcome) ↔
      (∀ id ∈ favoriteIds s.screen.selectedItems, id ∈ favoriteIds s.screen.unselectedItems) ∧
        ∀ id ∈ favoriteIds s.screen.recentlyDeleted, id ∈ favoriteIds s.store) ∧
    (AsItWas s (s.undoDelete outcome) ↔
      ∀ id ∈ favoriteIds s.screen.recentlyDeleted, id ∈ favoriteIds s.store) :=
  ⟨failed_delete_iff hsame h, failed_undo_iff hsame h⟩

/-- A delete of `1` is not saved, and the reload brings `1` back under the banner; `2` is
selected. -/
def reloadUnsaved : List Act :=
  [.focus, .serve 0 .answered, .reply 0, .select (.num 1), .delete, .serve 0 .errorStatus,
    .reply 0, .blur, .focus, .serve 0 .answered, .reply 0, .select (.num 2)]

theorem failed_save_reloadUnsaved : ∃ s : System, s.screen.showUndoDelete = true ∧
    favoriteIds s.screen.recentlyDeleted = [.num 1] ∧
    AsItWas s (s.undoDelete .errorStatus) ∧ ¬ AsItWas s (s.deleteSelectedItems .errorStatus) := by
  obtain ⟨s, -, hshow, hbatch, hlist, hstore, hselected⟩ := Reach.of_exec System.step Free
    (.initial [.bare (.num 1), .bare (.num 2)]) reloadUnsaved
    (fun s => s.screen.showUndoDelete = true ∧
      favoriteIds s.screen.recentlyDeleted = [.num 1] ∧
      favoriteIds s.screen.favorites = [.num 1, .num 2] ∧
      favoriteIds s.store = [.num 1, .num 2] ∧
      .num 2 ∈ favoriteIds s.screen.selectedItems ∧
        .num 2 ∉ favoriteIds s.screen.unselectedItems) (by decide)
  have hsame : ∀ id, id ∈ favoriteIds s.screen.favorites ↔ id ∈ favoriteIds s.store :=
    fun id => by rw [hlist, hstore]
  obtain ⟨hdelete, hundo⟩ := @failed_save_iff s .errorStatus hsame (by decide)
  refine ⟨s, hshow, hbatch, hundo.mpr fun id hid => ?_, fun h => ?_⟩
  · rw [hbatch, List.mem_singleton] at hid
    rw [hid, hstore]
    exact List.mem_cons_self
  · exact hselected.2 ((hdelete.mp h).1 _ hselected.1)

/-- The list is loaded and `1` selected. -/
def oneSelected : System :=
  { System.loaded [.bare (.num 1)] with
    screen := (System.loaded [.bare (.num 1)]).screen.toggleSelection (.num 1) }

/-- A selected favourite whose delete is not saved is gone from the list. -/
theorem not_failed_save : ¬ ∀ (s : System) (outcome : Outcome),
    (∀ id, id ∈ favoriteIds s.screen.favorites ↔ id ∈ favoriteIds s.store) →
    outcome ≠ .answered →
    AsItWas s (s.deleteSelectedItems outcome) ∧ AsItWas s (s.undoDelete outcome) := by
  intro h
  have hdelete := (h oneSelected .errorStatus (fun _ => Iff.rfl) (by decide)).1
  exact absurd ((hdelete.list (.num 1)).mpr (by decide)) (by decide)

end IngrediGo.FavoritesScreen
