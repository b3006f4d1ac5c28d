import IngrediGo.Favorites.System

/-!
# The user's deletes

What the user has deleted on the Favorites screen and undone, told by the taps alone. The
code's `recentlyDeleted` does not tell it: a countdown or the end of an undo's save empties
it, whatever the user has done since. `Undo` is tapped for the last delete.
-/

namespace IngrediGo.FavoritesScreen

open Lib

/-- A delete: what it took from the list, and whether `Undo` was tapped for it. -/
structure Deletion where
  batch : List Favorite
  undone : Bool
  deriving DecidableEq, Repr

/-- A tap on `Undo`. -/
def undoLast : List Deletion → List Deletion
  | [] => []
  | d :: log => { d with undone := true } :: log

/-- It leaves every batch of the log. -/
theorem undoLast_head? (log : List Deletion) :
    (undoLast log).head?.map (·.batch) = log.head?.map (·.batch) := by
  cases log <;> rfl

/-- The deletes so far, newest first. -/
def noteDeletes (s : System) (a : Act) (log : List Deletion) : List Deletion :=
  match a with
  | .delete => ⟨s.screen.selectedItems, false⟩ :: log
  | .undo => undoLast log
  | _ => log

/-- The batch of the last delete that has not been undone. -/
def lastBatch (log : List Deletion) : Option (List Favorite) :=
  (log.find? (!·.undone)).map (·.batch)

/-- The last delete has not been undone (or one that has not took the very same items). -/
def LastStands (log : List Deletion) : Prop := lastBatch log = log.head?.map (·.batch)

instance (log : List Deletion) : Decidable (LastStands log) := inferInstanceAs (Decidable (_ = _))

/-! ## Deleted ids -/

/-- The last delete that took `id` has not been undone. -/
def Gone (log : List Deletion) (id : ItemId) : Prop :=
  ∃ d ∈ log.find? (id ∈ favoriteIds ·.batch), d.undone = false

instance (log : List Deletion) (id : ItemId) : Decidable (Gone log id) :=
  inferInstanceAs (Decidable (∃ d ∈ log.find? _, _))

theorem gone_cons (d : Deletion) (log : List Deletion) (id : ItemId) :
    Gone (d :: log) id ↔ if id ∈ favoriteIds d.batch then d.undone = false else Gone log id := by
  unfold Gone
  split
  · next h => simp [List.find?_cons_of_pos, h]
  · next h => rw [List.find?_cons_of_neg (by simpa using h)]

/-- A delete takes its batch, and what was gone stays gone. -/
theorem gone_delete (batch : List Favorite) (log : List Deletion) (id : ItemId) :
    Gone (⟨batch, false⟩ :: log) id ↔ id ∈ favoriteIds batch ∨ Gone log id := by
  rw [gone_cons]
  by_cases h : id ∈ favoriteIds batch <;> simp [h]

/-- An undo brings back no more than the last batch. -/
theorem Gone.undoLast {log : List Deletion} {id : ItemId} (h : Gone log id) :
    Gone (undoLast log) id ∨ ∃ d ∈ log.head?, id ∈ favoriteIds d.batch := by
  cases log with
  | nil => exact .inl h
  | cons d log =>
    by_cases hd : id ∈ favoriteIds d.batch
    · exact .inr ⟨d, rfl, hd⟩
    · left
      rw [gone_cons, if_neg hd] at h
      rwa [FavoritesScreen.undoLast, gone_cons, if_neg hd]

end IngrediGo.FavoritesScreen
