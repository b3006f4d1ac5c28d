import IngrediGo.Data.Records
import IngrediGo.Lib.Lists

/-!
# Bookmarking a recipe

`checkIfBookmarked` and `toggleBookmark` of `recipe.tsx`, as far as they compute: what the
check reads off the bookmarked list, and the list a tap posts, which drops or appends the
recipe's record. The requests are the business of `IngrediGo.Recipe.Icon`.
-/

namespace IngrediGo.RecipeScreen

open Lib

/-- The ids of a bookmarked list, in order. A recipe without an id is `none`. -/
def bookmarkedIds (bookmarkedRecipes : List Recipe) : List (Option ItemId) :=
  bookmarkedRecipes.map (·.id)

/-- `bookmarkedRecipes.some(item => item.id === recipe.id)` -/
def isBookmarked (bookmarkedRecipes : List Recipe) (recipe : Recipe) : Bool :=
  bookmarkedRecipes.any (·.id = recipe.id)

/-- The record `toggleBookmark` saves. -/
def toggleBookmark.recipeToSave (recipe : Recipe) : Recipe where
  id := recipe.id
  name := recipe.name
  images := recipe.images
  description := recipe.description
  ingredients := recipe.ingredients
  category := none -- not among the fields copied
  bookmarked := some true

/-- The list `toggleBookmark` posts, computed from the list its `GET` answered. -/
def toggleBookmark.updated (recipe : Recipe) (newBookmarkState : Bool)
    (bookmarkedRecipes : List Recipe) : List Recipe :=
  if newBookmarkState then
    if !isBookmarked bookmarkedRecipes recipe then
      bookmarkedRecipes ++ [toggleBookmark.recipeToSave recipe]
    else bookmarkedRecipes
  else bookmarkedRecipes.filter (·.id ≠ recipe.id)

@[simp] theorem recipeToSave_id (recipe : Recipe) :
    (toggleBookmark.recipeToSave recipe).id = recipe.id := rfl

theorem isBookmarked_iff {bookmarkedRecipes : List Recipe} {recipe : Recipe} :
    isBookmarked bookmarkedRecipes recipe = true ↔ recipe.id ∈ bookmarkedIds bookmarkedRecipes :=
  Keyed.any_key Recipe.id

/-- A tap decides about its own recipe. -/
theorem updated_own (recipe : Recipe) (newBookmarkState : Bool) (l : List Recipe) :
    recipe.id ∈ bookmarkedIds (toggleBookmark.updated recipe newBookmarkState l) ↔
      newBookmarkState = true := by
  unfold toggleBookmark.updated
  cases newBookmarkState with
  | true =>
    rw [if_pos rfl]
    split
    · exact iff_of_true (Keyed.mem_keys_concat.mpr (.inr rfl)) rfl
    · next h => exact iff_of_true (isBookmarked_iff.mp (by simpa using h)) rfl
  | false =>
    rw [if_neg Bool.false_ne_true]
    exact iff_of_false (fun h => (Keyed.mem_keys_drop.mp h).2 rfl) Bool.false_ne_true

/-- It leaves every other recipe as it found it. -/
theorem updated_other {x : Option ItemId} (recipe : Recipe) (newBookmarkState : Bool)
    (l : List Recipe) (hx : recipe.id ≠ x) :
    x ∈ bookmarkedIds (toggleBookmark.updated recipe newBookmarkState l) ↔
      x ∈ bookmarkedIds l := by
  unfold toggleBookmark.updated
  split
  · split
    · refine Keyed.mem_keys_concat.trans (or_iff_left ?_)
      exact fun h => hx h.symm
    · rfl
  · exact Keyed.mem_keys_drop.trans (and_iff_left fun h => hx h.symm)

end IngrediGo.RecipeScreen
