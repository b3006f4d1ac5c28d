import IngrediGo.Favorites.Edits
import IngrediGo.Stores.NearbyStores
import Mathlib.Data.List.Infix

/-!
# Location

The rows of `location.tsx` for one shop card and one recipe, and the call a tap on a row's
heart makes. A row is found by its ingredient's name, and its heart by the ingredient's id.

The card counts an item as available by the shop entry's `available`, the rows are shown
only if some entry has an `aisle`: `location_agrees` says what the two have in common.
-/

namespace IngrediGo.LocationScreen

open FavoritesService NearbyStores

/-- What the screen takes from its surroundings: the interface's texts, JavaScript's
lower-casing and the two languages. -/
structure Env where
  t : String → String
  toLowerCase : String → String
  myLanguage : Lang
  localLanguage : Lang

/-- `s.includes(part)` -/
def includes (s part : String) : Bool := part.toList <:+: s.toList

/-- The categories in the order they are tried, each with the parts of a name it is for. -/
def categories : List (String × List String) :=
  [("Fish", ["fish"]),
   ("Fresh", ["potato", "carrot", "onion", "zucchini", "garlic"]),
   ("Baking", ["flour", "baking"]),
   ("Dairy", ["egg", "milk", "butter", "dairy", "coconut milk"]),
   ("Meat", ["lamb", "chicken breast", "chicken thigh", "ground lamb", "beef"]),
   ("Pantry", ["almond", "apricot", "chickpea", "couscous", "tomato paste"]),
   ("Oil", ["olive oil", "vegetable oil"]),
   ("Spices & Condiments", ["cumin", "ras el hanout", "curry", "worcestershire"])]

def getCategoryFromIngredient (env : Env) (ingredientName : String) : String :=
  let name := env.toLowerCase ingredientName
  match categories.find? fun category => category.2.any (includes name) with
  | some category => env.t category.1
  | none => env.t "Other"

/-- A row of `ingredientsList`. -/
structure Row where
  id : ItemId
  name : String
  translation : String
  category : String
  location : Value
  prices : Option Prices
  isFavorite : Bool
  originalData : Option Ingredient
  deriving DecidableEq, Repr

/-! ## The rows -/

/-- `ingredient?.id || ingredientName` -/
def rowId (ingredient : Option Ingredient) (ingredientName : String) : ItemId :=
  Js.orElse (ingredient.bind (·.id)) (.str ingredientName)

/-- `storeInfo?.aisle || 'N/A'` -/
def rowLocation (storeInfo : Option StoreEntry) : Value :=
  Js.orElse (storeInfo.bind (·.aisle)) (.str "N/A")

/-- `ingredient?.stores.find(s => s.name === store.name)`, or `none` when it throws. -/
def storeInfo (ingredient : Option Ingredient) (storeName : String) : Option (Option StoreEntry) :=
  match ingredient with
  | none => some none
  | some ingredient => ingredient.stores.map (storeNamed · storeName)

/-- The row of an ingredient, or of a name the recipe has none for. -/
def processedRow (env : Env) (favorites : List Favorite) (ingredientName : String)
    (ingredient : Option Ingredient) (storeInfo : Option StoreEntry) : Row where
  id := rowId ingredient ingredientName
  name := Js.orElse (Text.get? (ingredient.bind (·.translation)) env.myLanguage) ingredientName
  translation :=
    Js.orElse (Text.get? (ingredient.bind (·.translation)) env.localLanguage) ingredientName
  category := getCategoryFromIngredient env ingredientName
  location := rowLocation storeInfo
  prices := ingredient.bind (·.prices)
  isFavorite := favorites.any (·.id = rowId ingredient ingredientName)
  originalData := ingredient

/-- One element of `processedIngredients`, or `none` when its callback throws. -/
def processedIngredient (env : Env) (storeName : String) (recipe : Recipe)
    (favorites : List Favorite) (ingredientName : String) : Option Row :=
  recipe.ingredients.bind fun ingredients =>
    let ingredient := ingredientNamed ingredients ingredientName
    (storeInfo ingredient storeName).map (processedRow env favorites ingredientName ingredient)

/-- What the effect sets. -/
structure View where
  noIngredientsFound : Bool
  ingredientsList : List Row
  deriving DecidableEq, Repr

def hasValidIngredients (processedIngredients : List Row) : Bool :=
  processedIngredients.any (·.location ≠ .str "N/A")

/-- What the effect makes of its rows. -/
def shownRows (processedIngredients : List Row) : View :=
  if processedIngredients.isEmpty || !hasValidIngredients processedIngredients then ⟨true, []⟩
  else ⟨false, processedIngredients⟩

/-- The screen for a shop card and a recipe once the favourites are loaded, or `none` when
the effect throws. -/
def openLocation (env : Env) (store : StoreCard) (recipe : Recipe) (favorites : List Favorite) :
    Option View :=
  (store.includedIngredients.mapM (processedIngredient env store.name recipe favorites)).map
    shownRows

/-! ## A tap on a heart -/

/-- `recipe.name[myLanguage] || recipe.name.en`, of a recipe with a name. -/
def recipeName (name : Text) (lang : Lang) : Option String :=
  match name with
  | .plain _ => none
  | .perLang tr => if Js.truthy (tr.get lang) then tr.get lang else tr.en

/-- The favourite saved for a row, at the time `now`. -/
def favoriteData (env : Env) (storeName : String) (recipe : Recipe) (name : Text) (now : String)
    (ingredient : Row) : Favorite where
  id := ingredient.id
  name := ingredient.name
  translation := some (.plain ingredient.translation)
  category := some ingredient.category
  prices := ingredient.prices
  recipeId := recipe.id
  recipeName := recipeName name env.myLanguage
  storeName := storeName
  location := ingredient.location
  timeAdded := now
  originalData := ingredient.originalData
  selected := none

/-- The call `toggleFavorite(id)` makes. It makes none when there is no such row, and when
`recipe.name[…]` throws. -/
def toggleFavorite (env : Env) (storeName : String) (recipe : Recipe)
    (ingredientsList : List Row) (id : ItemId) (now : String) : Option Edit :=
  match ingredientsList.find? (·.id = id) with
  | none => none
  | some ingredient =>
    if ingredient.isFavorite then some (.remove id)
    else recipe.name.map fun name =>
      .add (favoriteData env storeName recipe name now ingredient)

/-! ## What the screen shows -/

/-- The recipe's entry for the shop under the ingredient of that name. -/
def entryFor (recipe : Recipe) (storeName ingredientName : String) : Option StoreEntry :=
  (ingredientNamed (recipe.ingredients.getD []) ingredientName).bind fun ingredient =>
    storeNamed (ingredient.stores.getD []) storeName

/-- The entry says in which aisle the ingredient is. -/
def HasAisle (storeInfo : Option StoreEntry) : Prop := rowLocation storeInfo ≠ .str "N/A"

instance (storeInfo : Option StoreEntry) : Decidable (HasAisle storeInfo) :=
  inferInstanceAs (Decidable (_ ≠ _))

/-- The row the screen computes for a name. -/
def rowFor (env : Env) (storeName : String) (recipe : Recipe) (favorites : List Favorite)
    (ingredientName : String) : Row :=
  processedRow env favorites ingredientName
    (ingredientNamed (recipe.ingredients.getD []) ingredientName)
    (entryFor recipe storeName ingredientName)

/-- The screen without ingredients is shown when no row has a location. -/
theorem shownRows_noIngredientsFound (rows : List Row) :
    (shownRows rows).noIngredientsFound = true ↔ ∀ row ∈ rows, row.location = .str "N/A" := by
  unfold shownRows
  split
  · next h =>
    refine iff_of_true rfl ?_
    rw [Bool.or_eq_true] at h
    rcases h with h | h
    · rw [List.isEmpty_iff.mp h]
      exact fun row hrow => by cases hrow
    · simpa [hasValidIngredients] using h
  · next h =>
    refine iff_of_false Bool.false_ne_true fun hall => h ?_
    rw [Bool.or_eq_true]
    exact .inr (by simpa [hasValidIngredients] using hall)

/-- Otherwise every row is. -/
theorem shownRows_ingredientsList {rows : List Row}
    (h : (shownRows rows).noIngredientsFound = false) :
    (shownRows rows).ingredientsList = rows := by
  unfold shownRows at h ⊢
  split at h
  · cases h
  · next hn => rw [if_neg hn]

/-- Rows that all have a location are all shown. -/
theorem shownRows_of_location {rows : List Row} (h : ∀ row ∈ rows, row.location ≠ .str "N/A") :
    (shownRows rows).ingredientsList = rows := by
  cases hfound : (shownRows rows).noIngredientsFound with
  | false => exact shownRows_ingredientsList hfound
  | true =>
    have hall := (shownRows_noIngredientsFound rows).mp hfound
    have hnil : rows = [] := by
      rw [List.eq_nil_iff_forall_not_mem]
      exact fun row hrow => h row hrow (hall row hrow)
    rw [hnil]
    rfl

theorem mem_shownRows {rows : List Row} {row : Row} (h : row ∈ (shownRows rows).ingredientsList) :
    row ∈ rows := by
  unfold shownRows at h
  split at h
  · cases h
  · exact h

variable {t : String → String} {lang : Lang} {random : Nat → Fin 5} {selectedItems : List String}
  {recipe : Recipe} {cards : List StoreCard} {card : StoreCard}

/-- No row throws for a recipe that NearbyStores has drawn cards for. -/
theorem processedIngredient_eq
    (h : processStoreData t lang random selectedItems recipe = some cards) (env : Env)
    (storeName : String) (favorites : List Favorite) (ingredientName : String) :
    processedIngredient env storeName recipe favorites ingredientName =
      some (rowFor env storeName recipe favorites ingredientName) := by
  obtain ⟨ingredients, hi, hstores⟩ := processStoreData_isSome.mp (by rw [h]; rfl)
  simp only [processedIngredient, rowFor, entryFor, hi, Option.bind_some, Option.getD_some]
  cases hing : ingredientNamed ingredients ingredientName with
  | none => rfl
  | some ingredient =>
    have hmem : ingredient ∈ ingredients := List.mem_of_find?_eq_some hing
    obtain ⟨stores, hs⟩ := Option.isSome_iff_exists.mp (hstores ingredient hmem)
    simp [storeInfo, hs]

theorem openLocation_eq (h : processStoreData t lang random selectedItems recipe = some cards)
    (env : Env) (store : StoreCard) (favorites : List Favorite) :
    openLocation env store recipe favorites =
      some (shownRows (store.includedIngredients.map (rowFor env store.name recipe favorites))) := by
  have hrows : store.includedIngredients.mapM (processedIngredient env store.name recipe favorites) =
      some (store.includedIngredients.map (rowFor env store.name recipe favorites)) := by
    rw [funext (processedIngredient_eq h env store.name favorites)]
    exact List.mapM_pure
  rw [openLocation, hrows]
  rfl

/-- Every row shown is the row of an included ingredient. -/
theorem mem_ingredientsList (h : processStoreData t lang random selectedItems recipe = some cards)
    {env : Env} {favorites : List Favorite} {view : View}
    (hv : openLocation env card recipe favorites = some view) {row : Row}
    (hrow : row ∈ view.ingredientsList) :
    ∃ name ∈ card.includedIngredients, row = rowFor env card.name recipe favorites name := by
  rw [openLocation_eq h, Option.some.injEq] at hv
  subst hv
  obtain ⟨name, hn, rfl⟩ := List.mem_map.mp (mem_shownRows hrow)
  exact ⟨name, hn, rfl⟩

/-- **What the two screens agree on.** Location shows one row for each included ingredient
of the card, in the card's order, unless none of them has an aisle in the shop. -/
theorem location_agrees (h : processStoreData t lang random selectedItems recipe = some cards)
    (hc : card ∈ cards) (env : Env) (favorites : List Favorite) :
    ∃ view, openLocation env card recipe favorites = some view ∧
      (view.noIngredientsFound = true ↔
        ∀ name ∈ card.includedIngredients, ¬ HasAisle (entryFor recipe card.name name)) ∧
      (view.noIngredientsFound = false →
        view.ingredientsList.map (·.originalData.map (·.name)) =
          card.includedIngredients.map some) := by
  refine ⟨_, openLocation_eq h env card favorites, ?_, ?_⟩
  · rw [shownRows_noIngredientsFound, List.forall_mem_map]
    simp only [HasAisle, not_not]
    rfl
  · intro hfound
    rw [shownRows_ingredientsList hfound, List.map_map]
    refine List.map_congr_left fun name hn => ?_
    obtain ⟨ingredient, hing, rfl, -⟩ := included_ingredient h hc hn
    show (ingredientNamed _ ingredient.name).map _ = _
    rw [hing]
    rfl

/-- A heart that adds is the heart of a row shown, and saves it. -/
theorem toggleFavorite_add {env : Env} {storeName : String} {ingredientsList : List Row}
    {id : ItemId} {now : String} {favorite : Favorite}
    (h : toggleFavorite env storeName recipe ingredientsList id now = some (.add favorite)) :
    ∃ row ∈ ingredientsList, favorite.id = row.id ∧ favorite.originalData = row.originalData := by
  unfold toggleFavorite at h
  split at h
  · cases h
  · next row hrow =>
    split at h
    · cases h
    · obtain ⟨name, -, hf⟩ := Option.map_eq_some_iff.mp h
      cases hf
      exact ⟨row, List.mem_of_find?_eq_some hrow, rfl, rfl⟩

/-- A heart that adds is under a row that is shown and not a favourite. -/
theorem toggleFavorite_some_add {env : Env} {storeName : String} {ingredientsList : List Row}
    {id : ItemId} {now : String} {favorite : Favorite} :
    toggleFavorite env storeName recipe ingredientsList id now = some (.add favorite) ↔
      ∃ row name, ingredientsList.find? (·.id = id) = some row ∧ row.isFavorite = false ∧
        recipe.name = some name ∧
        favorite = favoriteData env storeName recipe name now row := by
  unfold toggleFavorite
  cases ingredientsList.find? (·.id = id) with
  | none => simp
  | some row =>
    cases hfavorite : row.isFavorite with
    | true => simp [hfavorite]
    | false =>
      simp only [hfavorite, Bool.false_eq_true, if_false, Option.map_eq_some_iff,
        Edit.add.injEq, Option.some.injEq, exists_and_left, exists_eq_left', true_and]
      exact exists_congr fun name => and_congr_right fun _ => eq_comm

/-- Rows of which none has a location are not shown. -/
theorem shownRows_nil {rows : List Row} (h : ∀ row ∈ rows, row.location = .str "N/A") :
    (shownRows rows).ingredientsList = [] := by
  have hfound := (shownRows_noIngredientsFound rows).mpr h
  unfold shownRows at hfound ⊢
  split at hfound
  · next hn => rw [if_pos hn]
  · cases hfound

/-- A heart that adds, read back: whose row it is. -/
theorem heart_row {env : Env} {favorites : List Favorite} {view : View} {id : ItemId}
    {now : String} {favorite : Favorite}
    (hcards : processStoreData t lang random selectedItems recipe = some cards) (hc : card ∈ cards)
    (hview : openLocation env card recipe favorites = some view)
    (htap : toggleFavorite env card.name recipe view.ingredientsList id now =
      some (.add favorite)) :
    ∃ item name, item ∈ selectedItems ∧ recipe.name = some name ∧
      isIncluded (recipe.ingredients.getD []) card.name item = true ∧
      (rowFor env card.name recipe favorites item).isFavorite = false ∧
      favorite = favoriteData env card.name recipe name now
        (rowFor env card.name recipe favorites item) := by
  obtain ⟨row, name, hfind, hfavorite, hname, rfl⟩ := toggleFavorite_some_add.mp htap
  obtain ⟨item, hitem, rfl⟩ := mem_ingredientsList hcards hview (List.mem_of_find?_eq_some hfind)
  rw [included_eq hcards hc, List.mem_filter] at hitem
  exact ⟨item, name, hitem.1, hname, hitem.2, hfavorite, rfl⟩

/-- A recipe of one ingredient, available at one shop, in the aisle given if any. -/
def salted (aisle : Option Value) : Recipe :=
  { Recipe.bare (.num 9) with
    ingredients := some [⟨some (.num 1), "Salt", none, none,
      some [⟨"Lidl", some (.bool true), aisle⟩]⟩] }

/-- The shop's card. -/
def saltCard (aisle : Option Value) : StoreCard :=
  storeCard id "500 M" ((salted aisle).ingredients.getD []) ["Salt"] "Lidl"

def Env.plain : Env := ⟨id, id, .en, .fr⟩

theorem location_agrees_salted : ∃ view,
    openLocation .plain (saltCard (some (.num 4))) (salted (some (.num 4))) [] = some view ∧
      view.noIngredientsFound = false ∧
      view.ingredientsList.map (·.originalData.map (·.name)) = [some "Salt"] := by
  have hcards : processStoreData id .en (fun _ => 0) ["Salt"] (salted (some (.num 4))) =
      some [saltCard (some (.num 4))] := rfl
  obtain ⟨view, hview, hfound, hrows⟩ :=
    location_agrees hcards (List.mem_singleton.mpr rfl) .plain []
  have hsome : view.noIngredientsFound = false :=
    Bool.eq_false_iff.mpr fun h => absurd (hfound.mp h) (by decide)
  exact ⟨view, hview, hsome, hrows hsome⟩

/-- The shop has the salt but does not say where: the card counts it, and Location finds
nothing. -/
theorem not_location_agrees : ¬ ∀ (t : String → String) (lang : Lang) (random : Nat → Fin 5)
    (selectedItems : List String) (recipe : Recipe) (cards : List StoreCard) (card : StoreCard)
    (env : Env) (favorites : List Favorite) (view : View),
    selectedItems ≠ [] →
    (∀ name ∈ selectedItems, ∃ ingredient ∈ recipe.ingredients.getD [], ingredient.name = name) →
    processStoreData t lang random selectedItems recipe = some cards → card ∈ cards →
    openLocation env card recipe favorites = some view →
      view.ingredientsList.map (·.originalData.map (·.name)) =
          card.includedIngredients.map some ∧
        (view.noIngredientsFound = true ↔ card.includedIngredients = []) := by
  intro h
  have hview := h id .en (fun _ => 0) ["Salt"] (salted none)
    [saltCard none] _ .plain [] ⟨true, []⟩
    (by decide) (by decide) rfl (List.mem_singleton.mpr rfl) rfl
  exact absurd (hview.2.mp rfl) (by decide)

end IngrediGo.LocationScreen
