import IngrediGo.Data.Records
import IngrediGo.Lib.Lists
import IngrediGo.Server

/-!
# FavoritesService

`addFavorite` and `removeFavorite` of `location.tsx`: one `GET /favorites`, then at most
one `POST /favorites` of a whole list computed from its answer. `getFavorites` catches
every failure of the `GET` and answers `[]`, so to both of them a failed read looks like
an empty store; `edits_atomic_iff` says exactly when that matters.
-/

namespace IngrediGo.FavoritesService

open Lib

/-- What a call returns. -/
structure Result where
  success : Bool
  message : String
  deriving DecidableEq, Repr

def getFavorites (file : List Favorite) (get : Outcome) : List Favorite :=
  match Server.get file get with
  | .ok favorites => favorites
  | .status _ => [] -- throws 'Network response was not ok', caught below it
  | .rejected _ => []

/-- The list `addFavorite` posts, or `none` when the favourite exists already. -/
def addFavorite.updatedFavorites (currentFavorites : List Favorite) (favorite : Favorite) :
    Option (List Favorite) :=
  if currentFavorites.any (·.id = favorite.id) then none
  else some (currentFavorites ++ [favorite])

/-- The list `removeFavorite` posts. -/
def removeFavorite.updatedFavorites (currentFavorites : List Favorite) (favoriteId : ItemId) :
    List Favorite :=
  currentFavorites.filter (·.id ≠ favoriteId)

/-- Save updated favorites: the store afterwards and what the call returns, with the
texts of the calling function. -/
def save (file updatedFavorites : List Favorite) (post : Outcome) (saved failed : String) :
    List Favorite × Result :=
  match Server.post file updatedFavorites post with
  | (file, .ok _) => (file, ⟨true, saved⟩)
  | (file, .status _) => (file, ⟨false, failed⟩)
  | (file, .rejected message) => (file, ⟨false, message⟩)

/-- `addFavorite(favorite)` against the store `file`, its two requests turning out as
`get` and `post`. -/
def addFavorite (file : List Favorite) (favorite : Favorite) (get post : Outcome) :
    List Favorite × Result :=
  match addFavorite.updatedFavorites (getFavorites file get) favorite with
  | none => (file, ⟨true, "Favorite already exists"⟩)
  | some updatedFavorites =>
    save file updatedFavorites post "Favorite added successfully" "Failed to save favorite"

/-- `removeFavorite(favoriteId)` -/
def removeFavorite (file : List Favorite) (favoriteId : ItemId) (get post : Outcome) :
    List Favorite × Result :=
  save file (removeFavorite.updatedFavorites (getFavorites file get) favoriteId) post
    "Favorite removed successfully" "Failed to remove favorite"

/-! ## What the calls do to a store they read -/

theorem getFavorites_answered (file : List Favorite) : getFavorites file .answered = file := rfl

theorem getFavorites_failed (file : List Favorite) {get : Outcome} (h : get ≠ .answered) :
    getFavorites file get = [] := by
  cases get with
  | answered => exact absurd rfl h
  | errorStatus => rfl
  | unreachable _ => rfl

theorem added_none {file : List Favorite} {favorite : Favorite} :
    addFavorite.updatedFavorites file favorite = none ↔ favorite.id ∈ favoriteIds file := by
  simp only [addFavorite.updatedFavorites, favoriteIds, ← Keyed.any_key Favorite.id]
  split <;> simp_all

theorem added_some {file l : List Favorite} {favorite : Favorite} :
    addFavorite.updatedFavorites file favorite = some l ↔
      favorite.id ∉ favoriteIds file ∧ l = file ++ [favorite] := by
  simp only [addFavorite.updatedFavorites, favoriteIds, ← Keyed.any_key Favorite.id]
  split
  · next h => simp [h]
  · next h =>
    simp only [h, Option.some.injEq, Bool.false_eq_true, not_false_eq_true, true_and]
    exact eq_comm

theorem mem_removed {file : List Favorite} {id j : ItemId} :
    j ∈ favoriteIds (removeFavorite.updatedFavorites file id) ↔ j ∈ favoriteIds file ∧ j ≠ id :=
  Keyed.mem_keys_drop

theorem save_store (file l : List Favorite) (post : Outcome) (saved failed : String) :
    (save file l post saved failed).1 = if post = .answered then l else file := by
  cases post <;> rfl

/-- A save that is not answered changes nothing and reports failure. -/
theorem save_failed (file l : List Favorite) {post : Outcome} (saved failed : String)
    (h : post ≠ .answered) :
    (save file l post saved failed).1 = file ∧
      (save file l post saved failed).2.success = false := by
  refine ⟨by rw [save_store, if_neg h], ?_⟩
  cases post with
  | answered => exact absurd rfl h
  | errorStatus => rfl
  | unreachable _ => rfl

/-! ## Atomicity -/

/-- `addFavorite` changed nothing or appended `favorite`, and only reports success with
the favourite in the store. -/
def AddAtomic (file : List Favorite) (favorite : Favorite) (out : List Favorite × Result) : Prop :=
  (out.1 = file ∨ out.1 = file ++ [favorite]) ∧
    (out.2.success = true → favorite.id ∈ favoriteIds out.1)

/-- `removeFavorite` changed nothing or dropped the entries of `favoriteId`, and only
reports success without that id in the store. -/
def RemoveAtomic (file : List Favorite) (favoriteId : ItemId) (out : List Favorite × Result) :
    Prop :=
  (out.1 = file ∨ out.1 = file.filter (·.id ≠ favoriteId)) ∧
    (out.2.success = true → favoriteId ∉ favoriteIds out.1)

instance (file : List Favorite) (favorite : Favorite) (out : List Favorite × Result) :
    Decidable (AddAtomic file favorite out) :=
  inferInstanceAs (Decidable (_ ∧ _))

instance (file : List Favorite) (favoriteId : ItemId) (out : List Favorite × Result) :
    Decidable (RemoveAtomic file favoriteId out) :=
  inferInstanceAs (Decidable (_ ∧ _))

theorem addFavorite_atomic_of_read (file : List Favorite) (favorite : Favorite) (post : Outcome) :
    AddAtomic file favorite (addFavorite file favorite .answered post) := by
  unfold addFavorite
  rw [getFavorites_answered]
  split
  · next h => exact ⟨.inl rfl, fun _ => added_none.mp h⟩
  · next l h =>
    obtain ⟨-, rfl⟩ := added_some.mp h
    by_cases hp : post = .answered
    · subst hp
      exact ⟨.inr rfl, fun _ => Keyed.mem_keys_concat.mpr (.inr rfl)⟩
    · have hs := save_failed file (file ++ [favorite]) "Favorite added successfully"
        "Failed to save favorite" hp
      exact ⟨.inl hs.1, fun h => by rw [hs.2] at h; cases h⟩

/-- After a failed read `addFavorite` posts the new favourite alone. -/
theorem addFavorite_of_failed_read (file : List Favorite) (favorite : Favorite)
    {get : Outcome} (post : Outcome) (h : get ≠ .answered) :
    addFavorite file favorite get post =
      save file [favorite] post "Favorite added successfully" "Failed to save favorite" := by
  simp [addFavorite, getFavorites_failed file h, addFavorite.updatedFavorites]

theorem removeFavorite_atomic_of_read (file : List Favorite) (id : ItemId) (post : Outcome) :
    RemoveAtomic file id (removeFavorite file id .answered post) := by
  unfold removeFavorite
  rw [getFavorites_answered]
  by_cases hp : post = .answered
  · subst hp
    exact ⟨.inr rfl, fun _ h => (mem_removed.mp h).2 rfl⟩
  · have hs := save_failed file (removeFavorite.updatedFavorites file id)
      "Favorite removed successfully" "Failed to remove favorite" hp
    exact ⟨.inl hs.1, fun h => by rw [hs.2] at h; cases h⟩

/-- After a failed read `removeFavorite` posts the empty list. -/
theorem removeFavorite_of_failed_read (file : List Favorite) (id : ItemId)
    {get : Outcome} (post : Outcome) (h : get ≠ .answered) :
    removeFavorite file id get post =
      save file [] post "Favorite removed successfully" "Failed to remove favorite" := by
  simp [removeFavorite, getFavorites_failed file h, removeFavorite.updatedFavorites]

/-- **Exactly when an edit is atomic.** An edit whose `GET` is answered, or whose `POST`
is not, always is; one that posts after a failed read is so only if the store had
nothing to lose. -/
theorem edits_atomic_iff (file : List Favorite) (favorite : Favorite) (id : ItemId)
    (get post : Outcome) :
    (AddAtomic file favorite (addFavorite file favorite get post) ↔
      get = .answered ∨ post ≠ .answered ∨ file = [] ∨ file = [favorite]) ∧
    (RemoveAtomic file id (removeFavorite file id get post) ↔
      get = .answered ∨ post ≠ .answered ∨ ∀ fav ∈ file, fav.id = id) := by
  by_cases hg : get = .answered
  · subst hg
    exact ⟨iff_of_true (addFavorite_atomic_of_read file favorite post) (.inl rfl),
      iff_of_true (removeFavorite_atomic_of_read file id post) (.inl rfl)⟩
  rw [addFavorite_of_failed_read file favorite post hg, removeFavorite_of_failed_read file id post hg]
  by_cases hp : post = .answered
  · subst hp
    simp only [hg, false_or, ne_eq, not_true_eq_false]
    constructor
    · simp only [AddAtomic, save, Server.post, favoriteIds]
      rw [eq_comm (a := [favorite])]
      cases file with
      | nil => simp
      | cons a l => simp
    · simp only [RemoveAtomic, save, Server.post, favoriteIds]
      rw [eq_comm (a := ([] : List Favorite)), eq_comm (a := ([] : List Favorite)),
        List.filter_eq_nil_iff]
      simp only [List.map_nil, List.not_mem_nil, not_false_eq_true, implies_true, and_true,
        decide_not, Bool.not_eq_true', decide_eq_false_iff_not, not_not]
      constructor
      · rintro (rfl | h)
        · simp
        · exact h
      · exact .inr
  · have ha := save_failed file [favorite] "Favorite added successfully"
      "Failed to save favorite" hp
    have hr := save_failed file [] "Favorite removed successfully"
      "Failed to remove favorite" hp
    exact ⟨iff_of_true ⟨.inl ha.1, fun h => by rw [ha.2] at h; cases h⟩ (.inr (.inl hp)),
      iff_of_true ⟨.inl hr.1, fun h => by rw [hr.2] at h; cases h⟩ (.inr (.inl hp))⟩

/-- An unreadable store of one favourite, read and then written by an `addFavorite`: the
old favourite is gone. -/
theorem not_edits_atomic : ¬ ∀ (file : List Favorite) (favorite : Favorite) (id : ItemId)
    (get post : Outcome), AddAtomic file favorite (addFavorite file favorite get post) ∧
      RemoveAtomic file id (removeFavorite file id get post) := fun h =>
  absurd (h [.bare (.num 1)] (.bare (.num 2)) (.num 3) .errorStatus .answered) (by decide)

end IngrediGo.FavoritesService
