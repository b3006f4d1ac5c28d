import IngrediGo.Data.Records
import IngrediGo.Lib.Lists
import IngrediGo.Server

/-!
# The Favorites screen

The state of the `Favorites` component and its handlers. An `async` handler is cut at its
`await`: what runs when the user taps, and what runs once the request is over. A tap is
handled on the state last rendered, which is the current one.
-/

namespace IngrediGo.FavoritesScreen

open Lib

structure Screen where
  favorites : List Favorite
  recentlyDeleted : List Favorite
  showUndoDelete : Bool
  countdownTime : Nat
  isLoading : Bool
  /-- `timerRef.current` -/
  timerRef : Option Nat
  /-- The intervals set and not cleared. -/
  intervals : List Nat
  /-- The id `setInterval` gives next. -/
  nextInterval : Nat
  alerts : List String
  focused : Bool
  mounted : Bool
  deriving DecidableEq, Repr

/-- The screen as it is mounted. -/
def Screen.initial : Screen where
  favorites := []
  recentlyDeleted := []
  showUndoDelete := false
  countdownTime := 3
  isLoading := true
  timerRef := none
  intervals := []
  nextInterval := 1
  alerts := []
  focused := false
  mounted := true

/-- `item.selected` as a condition. -/
def isSelected (item : Favorite) : Bool := Js.truthy item.selected

def Screen.selectedItems (s : Screen) : List Favorite := s.favorites.filter isSelected

def Screen.unselectedItems (s : Screen) : List Favorite := s.favorites.filter (!isSelected ·)

def Screen.hasSelectedItems (s : Screen) : Bool := s.favorites.any isSelected

/-! ## Loading -/

/-- `useFocusEffect`: `initializeFavorites` up to the `GET`. A change of language on the
focused screen runs the cleanup and then this. -/
def Screen.focus (s : Screen) : Screen := { s with focused := true, isLoading := true }

/-- `{ ...item, selected: false }` -/
def deselect (item : Favorite) : Favorite := { item with selected := some false }

/-- What `loadFavorites` returns, and the alert it shows. -/
def loadFavorites : Response (List Favorite) → List Favorite × List String
  | .ok data => (data, [])
  | .status _ => ([], ["Failed to load favorites. Please try again."])
  | .rejected _ => ([], ["Failed to load favorites. Please try again."])

/-- `initializeFavorites` from the `GET` on. -/
def Screen.initializeFavorites (s : Screen) (response : Response (List Favorite)) : Screen :=
  { s with
    isLoading := false
    alerts := s.alerts ++ (loadFavorites response).2
    favorites := (loadFavorites response).1.map deselect }

/-! ## Selecting, deleting, undoing -/

/-- `item.id === itemId ? { ...item, selected: !item.selected } : item` -/
def flipSelected (itemId : ItemId) (item : Favorite) : Favorite :=
  if item.id = itemId then { item with selected := some (!isSelected item) } else item

def Screen.toggleSelection (s : Screen) (itemId : ItemId) : Screen :=
  { s with favorites := s.favorites.map (flipSelected itemId) }

/-- `deleteSelectedItems` up to the `POST`, which saves `unselectedItems`. -/
def Screen.deleteSelectedItems (s : Screen) : Screen :=
  { s with recentlyDeleted := s.selectedItems, favorites := s.unselectedItems }

/-- The list `undoDelete` saves. -/
def Screen.restoredItems (s : Screen) : List Favorite := s.favorites ++ s.recentlyDeleted

/-- `undoDelete` up to the `POST`. -/
def Screen.undoDelete (s : Screen) : Screen := { s with favorites := s.restoredItems }

/-- The alert of `saveFavorites`; its callers go on alike whether it failed or not. -/
def saveFavorites : Response Unit → List String
  | .ok _ => []
  | .status _ => ["Failed to save changes. Please try again."]
  | .rejected _ => ["Failed to save changes. Please try again."]

/-! ## The countdown -/

/-- `if (timerRef.current) clearInterval(timerRef.current)` -/
def Screen.clearTimer (s : Screen) : Screen :=
  { s with intervals := s.intervals.filter (some · ≠ s.timerRef) }

def Screen.startDeleteTimer (s : Screen) : Screen :=
  { s.clearTimer with
    timerRef := some s.nextInterval
    intervals := s.clearTimer.intervals ++ [s.nextInterval]
    nextInterval := s.nextInterval + 1 }

/-- The interval's callback. React drops the update once the component is unmounted. -/
def Screen.tick (s : Screen) : Screen :=
  if !s.mounted then s
  else if s.countdownTime ≤ 1 then
    { s.clearTimer with
      timerRef := none
      showUndoDelete := false
      recentlyDeleted := []
      countdownTime := 0 }
  else { s with countdownTime := s.countdownTime - 1 }

/-- `deleteSelectedItems` from the `POST` on. -/
def Screen.deleteSaved (s : Screen) (response : Response Unit) : Screen :=
  { s with
    alerts := s.alerts ++ saveFavorites response
    showUndoDelete := true
    countdownTime := 5 }.startDeleteTimer

/-- `undoDelete` from the `POST` on. -/
def Screen.undoSaved (s : Screen) (response : Response Unit) : Screen :=
  { s.clearTimer with
    alerts := s.alerts ++ saveFavorites response
    recentlyDeleted := []
    showUndoDelete := false
    timerRef := none }

/-! ## Leaving -/

/-- The cleanup of `useFocusEffect`. -/
def Screen.blur (s : Screen) : Screen := { s.clearTimer with focused := false }

/-- The cleanup of the mount effect (and of `useFocusEffect`). -/
def Screen.unmount (s : Screen) : Screen :=
  { s.clearTimer with focused := false, mounted := false }

/-! ## The two lists -/

section Fields

variable (s : Screen) (itemId : ItemId) (r : Response Unit)

@[simp] theorem focus_favorites : s.focus.favorites = s.favorites := rfl
@[simp] theorem focus_recentlyDeleted : s.focus.recentlyDeleted = s.recentlyDeleted := rfl
@[simp] theorem clearTimer_favorites : s.clearTimer.favorites = s.favorites := rfl
@[simp] theorem clearTimer_recentlyDeleted :
    s.clearTimer.recentlyDeleted = s.recentlyDeleted := rfl
@[simp] theorem blur_favorites : s.blur.favorites = s.favorites := rfl
@[simp] theorem blur_recentlyDeleted : s.blur.recentlyDeleted = s.recentlyDeleted := rfl
@[simp] theorem unmount_favorites : s.unmount.favorites = s.favorites := rfl
@[simp] theorem unmount_recentlyDeleted : s.unmount.recentlyDeleted = s.recentlyDeleted := rfl
@[simp] theorem deleteSaved_favorites : (s.deleteSaved r).favorites = s.favorites := rfl
@[simp] theorem deleteSaved_recentlyDeleted :
    (s.deleteSaved r).recentlyDeleted = s.recentlyDeleted := rfl
@[simp] theorem undoSaved_favorites : (s.undoSaved r).favorites = s.favorites := rfl
@[simp] theorem undoSaved_recentlyDeleted : (s.undoSaved r).recentlyDeleted = [] := rfl
@[simp] theorem toggleSelection_recentlyDeleted :
    (s.toggleSelection itemId).recentlyDeleted = s.recentlyDeleted := rfl

@[simp] theorem tick_favorites : s.tick.favorites = s.favorites := by
  unfold Screen.tick; split
  · rfl
  · split <;> rfl

/-- A tick keeps the batch or drops it whole. -/
theorem tick_recentlyDeleted :
    s.tick.recentlyDeleted = s.recentlyDeleted ∨ s.tick.recentlyDeleted = [] := by
  unfold Screen.tick; split
  · exact .inl rfl
  · split
    · exact .inr rfl
    · exact .inl rfl

end Fields

/-! ## Ids -/

@[simp] theorem deselect_id (item : Favorite) : (deselect item).id = item.id := rfl

@[simp] theorem flipSelected_id (itemId : ItemId) (item : Favorite) :
    (flipSelected itemId item).id = item.id := by
  unfold flipSelected; split <;> rfl

@[simp] theorem ids_map_deselect (l : List Favorite) :
    favoriteIds (l.map deselect) = favoriteIds l :=
  Keyed.keys_map fun _ _ => rfl

@[simp] theorem ids_toggleSelection (s : Screen) (itemId : ItemId) :
    favoriteIds (s.toggleSelection itemId).favorites = favoriteIds s.favorites :=
  Keyed.keys_map fun item _ => flipSelected_id itemId item

/-- Deleting splits the list's ids between what stays and the batch. -/
theorem mem_ids_split (s : Screen) (id : ItemId) :
    id ∈ favoriteIds s.favorites ↔
      id ∈ favoriteIds s.unselectedItems ∨ id ∈ favoriteIds s.selectedItems := by
  simp only [favoriteIds, Keyed.mem_keys, Screen.unselectedItems, Screen.selectedItems,
    List.mem_filter]
  constructor
  · rintro ⟨f, hf, rfl⟩
    cases hs : isSelected f with
    | false => exact .inl ⟨f, ⟨hf, by simp [hs]⟩, rfl⟩
    | true => exact .inr ⟨f, ⟨hf, hs⟩, rfl⟩
  · rintro (⟨f, ⟨hf, -⟩, rfl⟩ | ⟨f, ⟨hf, -⟩, rfl⟩) <;> exact ⟨f, hf, rfl⟩

theorem mem_ids_restored (s : Screen) (id : ItemId) :
    id ∈ favoriteIds s.restoredItems ↔
      id ∈ favoriteIds s.favorites ∨ id ∈ favoriteIds s.recentlyDeleted := by
  simp [favoriteIds, Screen.restoredItems, List.map_append]

end IngrediGo.FavoritesScreen
