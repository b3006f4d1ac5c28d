import IngrediGo.App.Circulation

/-!
# The bookmarked list as a list of ids

What the bookmarked list is for: which recipes of the catalogue are bookmarked, in which
order. The abstract model keeps their ids and nothing else; a tap puts an id in or takes it
out, by the same calls that read the list, edit it and write it back, any of which may fail.

`list_of_ids`: the records the app stores and passes round add nothing to it. Every run of
the app is a run of the abstract model, and the list is the ids' records of the catalogue.
-/

namespace IngrediGo.App

open Lib Lib.Rmw
open RecipeScreen (Tap bookmarkedIds toggleBookmark.recipeToSave toggleBookmark.updated)

/-- A tap that wants a recipe in the list or out of it. -/
structure Wish where
  recipe : Option ItemId
  bookmarked : Bool
  deriving DecidableEq, Repr

/-- The ids after it. -/
def Wish.updated (wish : Wish) (ids : List (Option ItemId)) : Option (List (Option ItemId)) :=
  some (if wish.bookmarked then Keyed.put id ids wish.recipe else ids.filter (· ≠ wish.recipe))

/-- The copy saved of the catalogue's recipe with an id. -/
def record (recipes : List Recipe) (id : Option ItemId) : Option Recipe :=
  (recipes.find? (·.id = id)).map toggleBookmark.recipeToSave

/-- What a tap wants. -/
def wish (tap : Tap) : Wish := ⟨tap.recipe.id, tap.newBookmarkState⟩

/-- The ids of the list, of the lists about to be posted, and what the taps want. -/
def World.ids (w : World) : Rmw.State (List (Option ItemId)) Wish :=
  w.bookmarks.map bookmarkedIds wish

/-- A tap that bookmarks puts a record in, one that does not drops it. -/
theorem updated_eq (recipe : Recipe) (newBookmarkState : Bool) (l : List Recipe) :
    toggleBookmark.updated recipe newBookmarkState l =
      if newBookmarkState then Keyed.put Recipe.id l (toggleBookmark.recipeToSave recipe)
      else l.filter (·.id ≠ recipe.id) := by
  unfold toggleBookmark.updated Keyed.put
  split
  · by_cases hb : RecipeScreen.isBookmarked l recipe = true
    · have hin : recipe.id ∈ l.map Recipe.id := RecipeScreen.isBookmarked_iff.mp hb
      rw [hb, RecipeScreen.recipeToSave_id, if_pos hin]
      rfl
    · have hin : recipe.id ∉ l.map Recipe.id := mt RecipeScreen.isBookmarked_iff.mpr hb
      rw [Bool.not_eq_true] at hb
      rw [hb, RecipeScreen.recipeToSave_id, if_neg hin]
      rfl
  · rfl

/-- On the ids, a tap does what it wants. -/
theorem updated_ids (tap : Tap) (l : List Recipe) :
    (wish tap).updated (bookmarkedIds l) = (tap.updated l).map bookmarkedIds := by
  show some _ = some (bookmarkedIds _)
  rw [updated_eq]
  unfold wish
  split
  · exact congrArg some (Keyed.map_put Recipe.id l (toggleBookmark.recipeToSave tap.recipe)).symm
  · exact congrArg some (Keyed.map_drop Recipe.id l _).symm

variable {recipes : List Recipe} {w : World} {lang : Lang} {file : List Recipe}

/-- A saved copy is known by its id. -/
theorem Saved.record_eq (hrecipes : (recipes.map (·.id)).Nodup) {r : Recipe}
    (h : Saved recipes r) : record recipes r.id = some r := by
  obtain ⟨source, hsource, rfl⟩ := h
  have hfind : recipes.find? (·.id = source.id) = some source := Keyed.find_key hrecipes hsource
  rw [record, RecipeScreen.recipeToSave_id, hfind]
  rfl

/-- **The bookmarked list is a list of ids**: over a catalogue with distinct ids, every run is
one of the abstract model, and the list the records of the ids it has come to. -/
theorem list_of_ids (hrecipes : (recipes.map (·.id)).Nodup) (hfile : Sound recipes file)
    (h : Reach (World.step recipes) Free (.initial lang file) w) :
    Reach (Rmw.attempt Wish.updated) Free (.init (bookmarkedIds file)) w.ids ∧
      w.home.file = w.ids.store.filterMap (record recipes) ∧ w.ids.store.Nodup := by
  have hsound : Sound recipes w.home.file := (circulating hfile h).stored.store
  refine ⟨?_, (Keyed.filterMap_keys fun r hr => (hsound.saved r hr).record_eq hrecipes).symm,
    hsound.nodup⟩
  refine (bookmarks_run h).project (State.map bookmarkedIds wish) fun s a u _ hs => ?_
  exact .inr ⟨a.map wish, trivial, Rmw.attempt_map (fun tap => updated_ids tap _) hs⟩

/-- Two soups, of which one was bookmarked in an earlier session. -/
def soups : List Recipe :=
  [HomeScreen.soup "General", { HomeScreen.soup "Starters" with id := some (.num 2) }]

/-- The other one is bookmarked too, and a request that would drop the first one fails. -/
def bookmarkOne : List Act :=
  [.home .mount, .openRecipe 0, .recipe (.serveCheck 0), .recipe (.replyCheck 0),
    .recipe (.tap 0), .failTap 0, .recipe (.close 0), .home .focus, .openRecipe 1,
    .recipe (.tap 1), .recipe (.read 1), .recipe (.write 1)]

theorem list_of_ids_soups : ∃ w : World, w.ids.store = [some (.num 1), some (.num 2)] ∧
    w.home.file = [some (.num 1), some (.num 2)].filterMap (record soups) := by
  have hfile : Sound soups [toggleBookmark.recipeToSave (HomeScreen.soup "General")] :=
    ⟨fun r hr => ⟨_, .head _, List.mem_singleton.mp hr⟩, List.nodup_singleton _⟩
  obtain ⟨w, hw, hids⟩ := Reach.of_exec (World.step soups) Free
    (.initial .en [toggleBookmark.recipeToSave (HomeScreen.soup "General")]) bookmarkOne
    (fun w => w.ids.store = [some (.num 1), some (.num 2)]) (by decide)
  exact ⟨w, hids, hids ▸ (list_of_ids (by decide) hfile hw).2.1⟩

end IngrediGo.App
