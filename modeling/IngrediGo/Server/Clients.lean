import IngrediGo.Favorites.Service
import IngrediGo.Home.Card
import IngrediGo.Server.Routes

/-!
# The clients of the routes

What the screens do with a collection, whatever its file holds, up to the state they set:
reads and writes go through `handle`, list methods throw on what is no list, and reading a
property of `null` throws. A call returns the files it leaves and whether it succeeded.

`collections_usable`: the clients' calls all work exactly while the last body posted was an
array without `null` among its items.
-/

namespace IngrediGo.Server

/-- The fields of a record a client holds. -/
abbrev Fields := List (String × Json)

/-- `item => item.id === id` -/
def sameId (id : Option Json) (item : Json) : Option Bool :=
  (item.prop "id").map (Json.strictEq · id)

/-- `item => item.id !== id` -/
def otherId (id : Option Json) (item : Json) : Option Bool :=
  (item.prop "id").map fun itemId => !Json.strictEq itemId id

/-! ## Favourites -/

/-- `FavoritesService.getFavorites()`; `loadFavorites()` of the Favorites screen is the same
but for an alert. -/
def getFavorites (files : Files) : Json :=
  match (handle files (.get .favorites)).2 with
  | .ok data => data
  | .status _ => .arr []
  | .rejected _ => .arr []

/-- `initializeFavorites()`: the list it sets, or `none` when `map` is not defined. -/
def initializeFavorites (files : Files) : Option (List Json) :=
  (getFavorites files).asArray.map fun loadedFavorites =>
    loadedFavorites.map fun item => Json.override item.spread "selected" (.bool false)

def save (files : Files) (route : Route) (updated : List Json) : Files × Bool :=
  let (files, response) := handle files (.post route (.ofList updated))
  (files, response.isOk)

/-- `FavoritesService.addFavorite(favorite)` -/
def addFavorite (files : Files) (favorite : Fields) : Files × Bool :=
  match (getFavorites files).asArray.bind fun currentFavorites =>
    (Json.someOf (sameId (Json.field favorite "id")) currentFavorites).map (currentFavorites, ·)
  with
  | none => (files, false)
  | some (_, true) => (files, true)
  | some (currentFavorites, false) => save files .favorites (currentFavorites ++ [.obj favorite])

/-- `FavoritesService.removeFavorite(favoriteId)` -/
def removeFavorite (files : Files) (favoriteId : Option Json) : Files × Bool :=
  match (getFavorites files).asArray.bind (Json.filterOf (otherId favoriteId)) with
  | none => (files, false)
  | some updatedFavorites => save files .favorites updatedFavorites

/-! ## Bookmarked recipes -/

/-- `response.data || []`, or `none` when `axios` throws. -/
def getBookmarked (files : Files) : Option Json :=
  match (handle files (.get .bookmarked)).2 with
  | .ok data => some (Js.or data (.arr []))
  | .status _ => none
  | .rejected _ => none

/-- `checkIfBookmarked()`: the flag it sets, or `none` when it throws. -/
def checkIfBookmarked (files : Files) (recipe : Fields) : Option Bool :=
  ((getBookmarked files).bind Json.asArray).bind (Json.someOf (sameId (Json.field recipe "id")))

/-- The record `toggleBookmark` saves. -/
def recipeToSave (recipe : Fields) : Json :=
  .obj ((["id", "name", "images", "description", "ingredients"].filterMap fun key =>
    (Json.field recipe key).map (key, ·)) ++ [("bookmarked", .bool true)])

/-- The list `toggleBookmark` posts. -/
def updatedBookmarks (recipe : Fields) (newBookmarkState : Bool) (bookmarkedRecipes : List Json) :
    Option (List Json) :=
  if newBookmarkState then
    (Json.someOf (sameId (Json.field recipe "id")) bookmarkedRecipes).map fun found =>
      if !found then bookmarkedRecipes ++ [recipeToSave recipe] else bookmarkedRecipes
  else Json.filterOf (otherId (Json.field recipe "id")) bookmarkedRecipes

/-- `toggleBookmark()` -/
def toggleBookmark (files : Files) (recipe : Fields) (newBookmarkState : Bool) : Files × Bool :=
  match ((getBookmarked files).bind Json.asArray).bind
    (updatedBookmarks recipe newBookmarkState) with
  | none => (files, false)
  | some bookmarkedRecipes => save files .bookmarked bookmarkedRecipes

/-- One recipe of Home's `normalizedRecipes`. -/
def normalize (recipe : Json) : Option Json :=
  (recipe.prop "category").map fun category =>
    match category with
    | some (.obj _) => recipe
    | some (.arr _) => recipe
    | category =>
      Json.override recipe.spread "category" (.obj (["en", "fr", "zh"].zipWith
        (fun key lang => (key, Js.orElse category (.str (HomeScreen.defaultCategory lang))))
        [.en, .fr, .zh]))

/-- The bookmarked recipes `fetchData()` sets, or `none` when it throws first. -/
def fetchData (files : Files) : Option (List Json) :=
  match (handle files (.get .bookmarked)).2 with
  | .ok data => data.asArray.bind (List.mapM normalize)
  | .status _ => none
  | .rejected _ => none

/-! ## What they need -/

/-- A list of anything but `null`. -/
def NoNulls (data : Json) : Prop := ∃ items, data = .arr items ∧ ∀ item ∈ items, item ≠ .null

/-- Every call on the favourites works. -/
structure FavoritesUsable (files : Files) : Prop where
  load : (initializeFavorites files).isSome = true
  add : ∀ favorite, (addFavorite files favorite).2 = true
  remove : ∀ favoriteId, (removeFavorite files favoriteId).2 = true

/-- Every call on the bookmarked recipes works. -/
structure BookmarksUsable (files : Files) : Prop where
  load : (fetchData files).isSome = true
  check : ∀ recipe, (checkIfBookmarked files recipe).isSome = true
  toggle : ∀ recipe newBookmarkState, (toggleBookmark files recipe newBookmarkState).2 = true

variable {files : Files} {data : Json} {items : List Json}

theorem sameId_eq_none {id : Option Json} {item : Json} : sameId id item = none ↔ item = .null := by
  rw [sameId, Option.map_eq_none_iff, Json.prop_eq_none]

theorem otherId_eq_none {id : Option Json} {item : Json} :
    otherId id item = none ↔ item = .null := by
  rw [otherId, Option.map_eq_none_iff, Json.prop_eq_none]

theorem someOf_sameId (h : ∀ item ∈ items, item ≠ .null) (id : Option Json) :
    (Json.someOf (sameId id) items).isSome = true :=
  Json.someOf_isSome fun item hitem hnone => h item hitem (sameId_eq_none.mp hnone)

theorem filterOf_otherId (id : Option Json) :
    (Json.filterOf (otherId id) items).isSome = true ↔ ∀ item ∈ items, item ≠ .null := by
  rw [Json.filterOf_isSome]
  exact forall₂_congr fun item _ => not_congr otherId_eq_none

theorem getFavorites_eq (h : files .favorites = some data) : getFavorites files = data := by
  rw [getFavorites, handle_get h]
  rfl

theorem getBookmarked_eq (h : files .bookmarked = some data) (hbody : IsBody data = true) :
    getBookmarked files = some data := by
  rw [getBookmarked, handle_get h]
  cases data <;> first | rfl | cases hbody

/-- A remove works on a list without `null`, and on nothing else. -/
theorem removeFavorite_success (h : files .favorites = some data) (favoriteId : Option Json) :
    (removeFavorite files favoriteId).2 = true ↔ NoNulls data := by
  have hsuccess : (removeFavorite files favoriteId).2 =
      (data.asArray.bind (Json.filterOf (otherId favoriteId))).isSome := by
    rw [removeFavorite, getFavorites_eq h]
    cases data.asArray.bind (Json.filterOf (otherId favoriteId)) <;> rfl
  rw [hsuccess]
  cases data with
  | arr items =>
    refine (filterOf_otherId favoriteId).trans ?_
    exact ⟨fun hitems => ⟨items, rfl, hitems⟩, fun ⟨_, heq, hitems⟩ => by cases heq; exact hitems⟩
  | _ => exact iff_of_false Bool.false_ne_true fun ⟨_, heq, _⟩ => by cases heq

theorem addFavorite_success (h : files .favorites = some data) (hdata : NoNulls data)
    (favorite : Fields) : (addFavorite files favorite).2 = true := by
  obtain ⟨items, rfl, hitems⟩ := hdata
  obtain ⟨found, hfound⟩ := Option.isSome_iff_exists.mp
    (someOf_sameId hitems (Json.field favorite "id"))
  simp only [addFavorite, getFavorites_eq h, Json.asArray, Option.bind_some, hfound,
    Option.map_some]
  cases found <;> rfl

theorem favoritesUsable_iff (h : files .favorites = some data) :
    FavoritesUsable files ↔ NoNulls data := by
  constructor
  · intro husable
    exact (removeFavorite_success h none).mp (husable.remove none)
  · intro hdata
    refine ⟨?_, addFavorite_success h hdata, fun id => (removeFavorite_success h id).mpr hdata⟩
    obtain ⟨items, rfl, -⟩ := hdata
    rw [initializeFavorites, getFavorites_eq h]
    rfl

theorem toggleBookmark_success (h : files .bookmarked = some data) (hbody : IsBody data = true)
    (recipe : Fields) (newBookmarkState : Bool) :
    (toggleBookmark files recipe newBookmarkState).2 =
      (data.asArray.bind (updatedBookmarks recipe newBookmarkState)).isSome := by
  rw [toggleBookmark, getBookmarked_eq h hbody, Option.bind_some]
  cases data.asArray.bind (updatedBookmarks recipe newBookmarkState) <;> rfl

theorem mapM_normalize (h : ∀ item ∈ items, item ≠ .null) :
    (items.mapM normalize).isSome = true := by
  induction items with
  | nil => rfl
  | cons item items ih =>
    obtain ⟨hitem, hrest⟩ := List.forall_mem_cons.mp h
    obtain ⟨rest, hmap⟩ := Option.isSome_iff_exists.mp (ih hrest)
    obtain ⟨normal, hnormal⟩ : ∃ normal, normalize item = some normal := by
      rw [← Option.ne_none_iff_exists', normalize, Ne, Option.map_eq_none_iff, Json.prop_eq_none]
      exact hitem
    rw [List.mapM_cons, hnormal, hmap]
    rfl

theorem bookmarksUsable_iff (h : files .bookmarked = some data) (hbody : IsBody data = true) :
    BookmarksUsable files ↔ NoNulls data := by
  constructor
  · intro husable
    have htoggle := husable.toggle [] false
    rw [toggleBookmark_success h hbody] at htoggle
    cases data with
    | arr items => exact ⟨items, rfl, (filterOf_otherId none).mp htoggle⟩
    | _ => cases htoggle
  · rintro ⟨items, rfl, hitems⟩
    refine ⟨?_, fun recipe => ?_, fun recipe newBookmarkState => ?_⟩
    · rw [fetchData, handle_get h]
      exact mapM_normalize hitems
    · rw [checkIfBookmarked, getBookmarked_eq h hbody]
      exact someOf_sameId hitems _
    · rw [toggleBookmark_success h hbody]
      cases newBookmarkState with
      | true => exact Option.isSome_map.trans (someOf_sameId hitems _)
      | false => exact (filterOf_otherId _).mpr hitems

/-! ## Runs -/

theorem isBody_latest (hbody : IsBody data = true) (route : Route) (requests : List Request) :
    IsBody (latest data route requests) = true := by
  unfold latest
  cases hlast : (requests.filterMap (·.posted route)).getLast? with
  | none => exact hbody
  | some posted =>
    obtain ⟨request, -, hposted⟩ := List.mem_filterMap.mp (List.mem_of_getLast? hlast)
    cases request with
    | get _ => cases hposted
    | post r body =>
      rw [Request.posted] at hposted
      split at hposted
      · cases hposted
        exact body.isBody
      · cases hposted

/-- **What the requests leave of a collection**, from files that hold lists: the last body
posted, sent back to every `GET`. The clients can work with it exactly if it is a list
without `null`. -/
theorem collections_usable {files : Files}
    (h : ∀ route data, files route = some data → ∃ items, data = .arr items)
    (requests : List Request) :
    let before (route : Route) := (files route).getD (.arr [])
    let after := run (initialise files) requests
    (∀ route, after route = some (latest (before route) route requests) ∧
      (handle after (.get route)).2 = .ok (latest (before route) route requests)) ∧
    (FavoritesUsable after ↔ NoNulls (latest (before .favorites) .favorites requests)) ∧
    (BookmarksUsable after ↔ NoNulls (latest (before .bookmarked) .bookmarked requests)) := by
  intro before after
  have hbefore (route : Route) : IsBody (before route) = true := by
    show IsBody ((files route).getD (.arr [])) = true
    cases hfile : files route with
    | none => rfl
    | some data =>
      obtain ⟨items, rfl⟩ := h route data hfile
      rfl
  have hafter (route : Route) : after route = some (latest (before route) route requests) :=
    run_file rfl requests
  refine ⟨fun route => ⟨hafter route, ?_⟩, favoritesUsable_iff (hafter .favorites),
    bookmarksUsable_iff (hafter .bookmarked) (isBody_latest (hbefore .bookmarked) ..)⟩
  rw [handle_get (hafter route)]
  rfl

/-- Both lists empty, and a favourite posted. -/
theorem collections_usable_posted :
    FavoritesUsable (run (initialise fun _ => some (.arr []))
      [.post .favorites (.ofList [.obj [("id", .nat 1)]])]) := by
  have hempty (_ : Route) (data : Json) (hfile : some (.arr []) = some data) :
      ∃ items, data = .arr items := ⟨[], (Option.some.inj hfile).symm⟩
  have husable := collections_usable hempty [.post .favorites (.ofList [.obj [("id", .nat 1)]])]
  exact husable.2.1.mpr ⟨_, rfl, by simp⟩

/-- An object is written as it is, and there is no list any more. -/
theorem not_collections_usable : ¬ ∀ (files : Files) (requests : List Request),
    (∀ route data, files route = some data → ∃ items, data = .arr items) →
      ∀ route, ∃ items, run (initialise files) requests route = some (.arr items) := by
  intro h
  obtain ⟨items, hitems⟩ := h (fun _ => some (.arr [])) [.post .favorites ⟨.obj [], rfl⟩]
    (fun _ _ hfile => ⟨[], (Option.some.inj hfile).symm⟩) .favorites
  cases hitems

end IngrediGo.Server
