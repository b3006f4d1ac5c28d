import IngrediGo.Recipe.Bookmark
import IngrediGo.Server

/-!
# A bookmark toggle that fails

`toggleBookmark` with its two requests turning out in any way and no other writer. The flag
is flipped before the first of them; the `catch` block puts back `!bookmarked`, which is
the flipped flag, not the flag of the render it closes over. `rollback_fails`: a failed
toggle never ends with the flag it started from.
-/

namespace IngrediGo.RecipeScreen

/-- What `toggleBookmark` changes on the screen. -/
structure Icon where
  bookmarked : Bool
  alerts : List (String × String)
  deriving DecidableEq, Repr

/-- The `catch` block. `bookmarked` is the flag of the render the tap was made on, `icon`
the screen by now. -/
def toggleBookmark.failed (bookmarked : Bool) (icon : Icon) : Icon :=
  { icon with
    bookmarked := !bookmarked
    alerts := icon.alerts ++ [("Error", "Failed to update bookmarks")] }

/-- `toggleBookmark()` on a screen of `recipe`, its requests turning out as `get` and `post`:
the server's list afterwards, and the screen. `axios` rejects an error status too. -/
def toggleBookmark (bookmarkedRecipes : List Recipe) (icon : Icon) (recipe : Option Recipe)
    (get post : Outcome) : List Recipe × Icon :=
  match recipe with
  | none => (bookmarkedRecipes, icon)
  | some recipe =>
    let newBookmarkState := !icon.bookmarked
    let tapped := { icon with bookmarked := newBookmarkState }
    match Server.get bookmarkedRecipes get with
    | .ok data =>
      match Server.post bookmarkedRecipes (toggleBookmark.updated recipe newBookmarkState data)
          post with
      | (file, .ok _) => (file, tapped)
      | (file, .status _) => (file, toggleBookmark.failed icon.bookmarked tapped)
      | (file, .rejected _) => (file, toggleBookmark.failed icon.bookmarked tapped)
    | .status _ => (bookmarkedRecipes, toggleBookmark.failed icon.bookmarked tapped)
    | .rejected _ => (bookmarkedRecipes, toggleBookmark.failed icon.bookmarked tapped)

/-- A toggle was rolled back: the list and the flag are what they were. -/
def RolledBack (bookmarkedRecipes : List Recipe) (icon : Icon) (out : List Recipe × Icon) : Prop :=
  out.1 = bookmarkedRecipes ∧ out.2.bookmarked = icon.bookmarked

variable {bookmarkedRecipes : List Recipe} {icon : Icon} {recipe : Recipe} {get post : Outcome}

/-- Answered, the toggle saves the list a tap posts. -/
theorem toggleBookmark_answered :
    toggleBookmark bookmarkedRecipes icon (some recipe) .answered .answered =
      (toggleBookmark.updated recipe (!icon.bookmarked) bookmarkedRecipes,
        { icon with bookmarked := !icon.bookmarked }) := rfl

/-- Failed, it leaves the list alone, flips the flag all the same, and says so. -/
theorem toggleBookmark_failed (h : get ≠ .answered ∨ post ≠ .answered) :
    toggleBookmark bookmarkedRecipes icon (some recipe) get post =
      (bookmarkedRecipes, toggleBookmark.failed icon.bookmarked
        { icon with bookmarked := !icon.bookmarked }) := by
  cases get with
  | answered =>
    cases post with
    | answered => simp at h
    | errorStatus => rfl
    | unreachable _ => rfl
  | errorStatus => rfl
  | unreachable _ => rfl

/-- **A failed toggle is not rolled back**, whatever the list, the flag, and the request
that failed. -/
theorem rollback_fails (h : get ≠ .answered ∨ post ≠ .answered) :
    ¬ RolledBack bookmarkedRecipes icon
      (toggleBookmark bookmarkedRecipes icon (some recipe) get post) := by
  rw [toggleBookmark_failed h]
  rintro ⟨-, hflag⟩
  have hflip : (!icon.bookmarked) = icon.bookmarked := hflag
  simp at hflip

theorem rollback_fails_unread : ¬ RolledBack [] ⟨false, []⟩
    (toggleBookmark [] ⟨false, []⟩ (some (.bare (.num 1))) .errorStatus .answered) :=
  rollback_fails (.inl (by decide))

/-- A first bookmark whose list cannot be read: the icon stays filled. -/
theorem not_rolled_back : ¬ ∀ (bookmarkedRecipes : List Recipe) (icon : Icon) (recipe : Recipe)
    (get post : Outcome), get ≠ .answered ∨ post ≠ .answered →
      RolledBack bookmarkedRecipes icon
        (toggleBookmark bookmarkedRecipes icon (some recipe) get post) := by
  intro h
  have hback := h [] ⟨false, []⟩ (.bare (.num 1)) .errorStatus .answered (.inl (by decide))
  exact absurd hback.2 (by decide)

end IngrediGo.RecipeScreen
