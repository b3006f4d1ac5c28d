import IngrediGo.Stores.Location

/-!
# A tap on a heart

The Location screen over one store: the load of the favourites, the effect that computes
the rows from them, and `toggleFavorite` with its requests turning out in any way.

The heart is flipped at once and the reload computes it afresh. The service reports a failed
save in the value it returns, which the handler drops, so the `catch` block is only reached
when the favourite cannot even be put together: `failed_tap_iff` says when a tap that did not
reach the store is reported all the same.
-/

namespace IngrediGo.LocationScreen

open FavoritesService NearbyStores

/-- What a Location screen is opened with. -/
structure Place where
  env : Env
  store : StoreCard
  recipe : Recipe

/-- The state of the screen. `view` is `none` once the effect has thrown. -/
structure Screen where
  view : Option View
  favorites : List Favorite
  isLoading : Bool
  alerts : List (String × String)

/-- The screen and the server's list. -/
structure System where
  file : List Favorite
  screen : Screen

namespace Screen

def ingredientsList (screen : Screen) : List Row :=
  match screen.view with
  | some view => view.ingredientsList
  | none => []

def setIngredientsList (screen : Screen) (ingredientsList : List Row) : Screen :=
  { screen with
    view := screen.view.map fun view => { view with ingredientsList := ingredientsList } }

/-- The effect that computes the rows. -/
def processIngredients (place : Place) (screen : Screen) : Screen :=
  if screen.isLoading then screen
  else
    { screen with
      view := screen.view.bind fun _ =>
        openLocation place.env place.store place.recipe screen.favorites }

/-- `loadFavorites()`, its request turning out as `get`. `getFavorites` never throws. -/
def loadFavorites (place : Place) (file : List Favorite) (get : Outcome) (screen : Screen) :
    Screen :=
  let loading := processIngredients place { screen with isLoading := true }
  processIngredients place
    { loading with favorites := getFavorites file get, isLoading := false }

/-- The screen before its first load. -/
def mounted : Screen := ⟨some ⟨false, []⟩, [], true, []⟩

end Screen

/-- The heart of every row with the id, flipped. -/
def toggleFavorite.flipped (ingredientsList : List Row) (id : ItemId) : List Row :=
  ingredientsList.map fun item =>
    if item.id = id then { item with isFavorite := !item.isFavorite } else item

def toggleFavorite.alert : String × String := ("Error", "Could not update favorites.")

/-- The `catch` block: `ingredientsList` is the list of the render the tap was made on. -/
def toggleFavorite.failed (ingredientsList : List Row) (screen : Screen) : Screen :=
  { screen.setIngredientsList ingredientsList with alerts := screen.alerts ++ [alert] }

/-- `toggleFavorite(id)` at the time `now`, its two requests turning out as `get` and `post`
and those of the reload as `reload`, once all of them are settled. -/
def toggleFavorite.settled (place : Place) (id : ItemId) (now : String)
    (get post reload : Outcome) (s : System) : System :=
  let ingredientsList := s.screen.ingredientsList
  match ingredientsList.find? (·.id = id) with
  | none => s
  | some ingredient =>
    let tapped := s.screen.setIngredientsList (flipped ingredientsList id)
    if ingredient.isFavorite then
      let file := (removeFavorite s.file id get post).1
      ⟨file, tapped.loadFavorites place file reload⟩
    else
      match place.recipe.name with
      | none => ⟨s.file, failed ingredientsList tapped⟩ -- `recipe.name[myLanguage]` throws
      | some name =>
        let favorite := favoriteData place.env place.store.name place.recipe name now ingredient
        let file := (addFavorite s.file favorite get post).1
        ⟨file, tapped.loadFavorites place file reload⟩

/-! ## The screen after a load -/

section

variable {place : Place} {screen : Screen} {file : List Favorite} {get : Outcome}

@[simp] theorem setIngredientsList_alerts (rows : List Row) :
    (screen.setIngredientsList rows).alerts = screen.alerts := rfl

@[simp] theorem setIngredientsList_twice (rows rows' : List Row) :
    (screen.setIngredientsList rows).setIngredientsList rows' =
      screen.setIngredientsList rows' := by
  simp only [Screen.setIngredientsList, Option.map_map]
  rfl

@[simp] theorem setIngredientsList_self :
    screen.setIngredientsList screen.ingredientsList = screen := by
  obtain ⟨view, favorites, isLoading, alerts⟩ := screen
  cases view <;> rfl

/-- A row is only shown by a screen whose effect has not thrown. -/
theorem isSome_of_find {id : ItemId} {row : Row}
    (h : screen.ingredientsList.find? (·.id = id) = some row) : screen.view.isSome = true := by
  unfold Screen.ingredientsList at h
  cases hview : screen.view with
  | none => simp [hview] at h
  | some _ => rfl

theorem loadFavorites_eq :
    screen.loadFavorites place file get =
      { screen with
        view := screen.view.bind fun _ =>
          openLocation place.env place.store place.recipe (getFavorites file get)
        favorites := getFavorites file get
        isLoading := false } := rfl

end

/-! ## A failed tap -/

/-- The store is as a tap on the row asks: the id is in it after an add, and not in it after
a remove. -/
def Reflected (row : Row) (file : List Favorite) : Prop :=
  if row.isFavorite then row.id ∉ favoriteIds file else row.id ∈ favoriteIds file

/-- Every heart is filled exactly when its id is in the store. -/
def HeartsRight (file : List Favorite) (screen : Screen) : Prop :=
  ∀ row ∈ screen.ingredientsList, row.isFavorite = true ↔ row.id ∈ favoriteIds file

/-- A tap on `row` that led from `s` to `t` is in the store, or the user is told and the
hearts are right. -/
def Reported (row : Row) (s t : System) : Prop :=
  ¬ Reflected row t.file →
    t.screen.alerts = s.screen.alerts ++ [toggleFavorite.alert] ∧ HeartsRight t.file t.screen

instance (row : Row) (file : List Favorite) : Decidable (Reflected row file) :=
  inferInstanceAs (Decidable (if row.isFavorite = true then _ else _))

instance (file : List Favorite) (screen : Screen) : Decidable (HeartsRight file screen) :=
  inferInstanceAs (Decidable (∀ _ ∈ _, _))

instance (row : Row) (s t : System) : Decidable (Reported row s t) :=
  inferInstanceAs (Decidable (_ → _))

/-- A remove is in the store if its `POST` is answered, whatever its `GET` said. -/
theorem removed_reflected (file : List Favorite) (id : ItemId) (get post : Outcome) :
    id ∉ favoriteIds (removeFavorite file id get post).1 ↔
      post = .answered ∨ id ∉ favoriteIds file := by
  rw [removeFavorite, save_store]
  split
  · next hp => exact iff_of_true (fun h => (mem_removed.mp h).2 rfl) (.inl hp)
  · next hp => exact (or_iff_right hp).symm

/-- An add posts nothing only if the id is in the store. -/
theorem added_reflected (file : List Favorite) (favorite : Favorite) (get post : Outcome) :
    favorite.id ∈ favoriteIds (addFavorite file favorite get post).1 ↔
      post = .answered ∨ favorite.id ∈ favoriteIds file := by
  unfold addFavorite
  split
  · next h =>
    have hin : favorite.id ∈ favoriteIds file := by
      by_cases hg : get = .answered
      · rw [hg] at h
        exact added_none.mp h
      · rw [getFavorites_failed file hg] at h
        cases h
    exact iff_of_true hin (.inr hin)
  · next l h =>
    obtain ⟨-, rfl⟩ := added_some.mp h
    rw [save_store]
    split
    · next hp => exact iff_of_true (Lib.Keyed.mem_keys_concat.mpr (.inr rfl)) (.inl hp)
    · next hp => exact (or_iff_right hp).symm

section

variable {place : Place} {s : System} {id : ItemId} {now : String} {get post reload : Outcome}
  {row : Row}

theorem id_of_find (h : s.screen.ingredientsList.find? (·.id = id) = some row) : row.id = id := by
  simpa using List.find?_some h

/-- A tap on a filled heart. -/
theorem settled_remove (h : s.screen.ingredientsList.find? (·.id = id) = some row)
    (hrow : row.isFavorite = true) :
    toggleFavorite.settled place id now get post reload s =
      ⟨(removeFavorite s.file id get post).1,
        (s.screen.setIngredientsList
          (toggleFavorite.flipped s.screen.ingredientsList id)).loadFavorites place
            (removeFavorite s.file id get post).1 reload⟩ := by
  simp only [toggleFavorite.settled, h, hrow, if_true]

/-- A tap on an empty heart. -/
theorem settled_add {name : Text} (now : String) (get post reload : Outcome)
    (h : s.screen.ingredientsList.find? (·.id = id) = some row)
    (hrow : row.isFavorite = false) (hname : place.recipe.name = some name) :
    ∃ favorite : Favorite, favorite.id = id ∧
      toggleFavorite.settled place id now get post reload s =
        ⟨(addFavorite s.file favorite get post).1,
          (s.screen.setIngredientsList
            (toggleFavorite.flipped s.screen.ingredientsList id)).loadFavorites place
              (addFavorite s.file favorite get post).1 reload⟩ := by
  refine ⟨favoriteData place.env place.store.name place.recipe name now row, id_of_find h, ?_⟩
  simp only [toggleFavorite.settled, h, hrow, hname]
  rfl

/-- A tap on an empty heart of a recipe without a name makes no request: the list is put
back and the alert shown. -/
theorem settled_nameless (h : s.screen.ingredientsList.find? (·.id = id) = some row)
    (hrow : row.isFavorite = false) (hname : place.recipe.name = none) :
    toggleFavorite.settled place id now get post reload s =
      ⟨s.file, { s.screen with alerts := s.screen.alerts ++ [toggleFavorite.alert] }⟩ := by
  simp only [toggleFavorite.settled, h, hrow, hname, toggleFavorite.failed,
    setIngredientsList_twice, setIngredientsList_self, setIngredientsList_alerts]
  rfl

/-- A reload shows no alert. -/
theorem ne_alert (alerts : List (String × String)) : alerts ≠ alerts ++ [toggleFavorite.alert] :=
  fun h => by simpa using congrArg List.length h

theorem failed_remove_iff (h : s.screen.ingredientsList.find? (·.id = id) = some row)
    (hrow : row.isFavorite = true) :
    Reported row s (toggleFavorite.settled place id now get post reload s) ↔
      Reflected row s.file ∨ post = .answered := by
  rw [settled_remove h hrow, Reported, Reflected, Reflected, if_pos hrow, if_pos hrow,
    id_of_find h, removed_reflected]
  constructor
  · intro hrep
    by_contra hno
    exact ne_alert _ (hrep fun hout => hno hout.symm).1
  · intro hout hno
    exact absurd hout.symm hno

theorem failed_add_iff {name : Text} (h : s.screen.ingredientsList.find? (·.id = id) = some row)
    (hrow : row.isFavorite = false) (hname : place.recipe.name = some name) :
    Reported row s (toggleFavorite.settled place id now get post reload s) ↔
      Reflected row s.file ∨ post = .answered := by
  have hneg : ¬ row.isFavorite = true := by simp [hrow]
  obtain ⟨favorite, hid, hsettled⟩ := settled_add now get post reload h hrow hname
  have hkey : row.id = favorite.id := (id_of_find h).trans hid.symm
  rw [hsettled, Reported, Reflected, Reflected, if_neg hneg, if_neg hneg, hkey, added_reflected]
  constructor
  · intro hrep
    by_contra hno
    exact ne_alert _ (hrep fun hin => hno hin.symm).1
  · intro hin hno
    exact absurd hin.symm hno

theorem failed_nameless_iff (h : s.screen.ingredientsList.find? (·.id = id) = some row)
    (hrow : row.isFavorite = false) (hname : place.recipe.name = none) :
    Reported row s (toggleFavorite.settled place id now get post reload s) ↔
      Reflected row s.file ∨ HeartsRight s.file s.screen := by
  rw [settled_nameless h hrow hname]
  constructor
  · intro hrep
    by_cases hin : Reflected row s.file
    · exact .inl hin
    · exact .inr (hrep hin).2
  · rintro (hin | hright) hno
    · exact absurd hin hno
    · exact ⟨rfl, hright⟩

end

/-- **When a failed tap is reported and undone.** A tap that makes requests never reports
that its `POST` failed; one that throws before, on a recipe without a name, puts back the
hearts it found. -/
theorem failed_tap_iff {place : Place} {s : System} {id : ItemId} {now : String}
    {get post reload : Outcome} {row : Row}
    (h : s.screen.ingredientsList.find? (·.id = id) = some row) :
    Reported row s (toggleFavorite.settled place id now get post reload s) ↔
      Reflected row s.file ∨
        if row.isFavorite = false ∧ place.recipe.name = none then HeartsRight s.file s.screen
        else post = .answered := by
  cases hrow : row.isFavorite with
  | true => simpa using failed_remove_iff h hrow
  | false =>
    cases hname : place.recipe.name with
    | none => simpa using failed_nameless_iff h hrow hname
    | some name => simpa using failed_add_iff h hrow hname

/-- A named recipe of one ingredient at a shop that keeps it in aisle 4. -/
def saltPlace : Place where
  env := .plain
  store := saltCard (some (.num 4))
  recipe := { salted (some (.num 4)) with name := some (.plain "Salad") }

/-- The screen opened there with nothing saved. -/
def saltOpened : System := ⟨[], Screen.mounted.loadFavorites saltPlace [] .answered⟩

/-- Its one row. -/
def saltRow : Row := rowFor .plain "Lidl" (salted (some (.num 4))) [] "Salt"

theorem failed_tap_salt : Reported saltRow saltOpened
    (toggleFavorite.settled saltPlace (.num 1) "" .answered .answered .errorStatus saltOpened) :=
  (failed_tap_iff rfl).mpr (.inr (by rw [if_neg (by decide)]))

/-- An add whose `POST` the server answers with an error: no alert is shown. -/
theorem not_failed_tap : ¬ ∀ (place : Place) (s : System) (id : ItemId) (now : String)
    (get post reload : Outcome) (row : Row),
    s.screen.ingredientsList.find? (·.id = id) = some row →
      Reported row s (toggleFavorite.settled place id now get post reload s) := by
  intro h
  have hrep := h saltPlace saltOpened (.num 1) "" .answered .errorStatus .answered saltRow rfl
  exact absurd hrep (by decide)

end IngrediGo.LocationScreen
