import IngrediGo.Favorites.PriceBar
import IngrediGo.Recipe.Selection
import IngrediGo.Stores.Location

/-!
# An ingredient alone

The Recipe screen opened for an ingredient found by Home's search, and the way from its
`Find in store` through NearbyStores to the hearts of Location. The recipe passed on is made
up around the ingredient, and has no id.

`hearts_alone`: the hearts on this way are those of the ingredient on the way from its recipe,
where the shop says in which aisle it is; what they save differs in the recipe only.
-/

namespace IngrediGo.RecipeScreen

open Lib LocationScreen NearbyStores

/-! ## `Find in store` -/

/-- What is passed on in the place of a recipe. -/
def selectedIngredients (ingredient : Option Ingredient) : Recipe where
  id := none
  name := some (.perLang
    ⟨some (Js.orElse (ingredient.map (·.name)) "Selected Ingredients"),
     some (Js.orElse (Text.get? (ingredient.bind (·.translation)) .fr) "Ingrédients sélectionnés"),
     some (Js.orElse (Text.get? (ingredient.bind (·.translation)) .zh) "选定的成分")⟩)
  images := none
  description := none
  -- `[undefined]` throws where a missing list does
  ingredients := ingredient.map ([·])
  category := none
  bookmarked := none

/-- What the navigation to NearbyStores passes on. -/
structure Params where
  selectedItems : List String
  ingredientData : List IngredientRow
  recipe : Recipe
  deriving DecidableEq, Repr

/-- A press on `Find in store`, which is disabled when nothing is selected. -/
def findInStore (lang : Lang) (recipe : Option Recipe) (ingredient : Option Ingredient)
    (selections : Object Bool) : Option Params :=
  if isAnySelected selections then
    some
      { selectedItems := selectedItems selections
        ingredientData := ingredientsData lang recipe ingredient
        recipe := recipe.getD (selectedIngredients ingredient) }
  else none

/-- The check boxes of the screen after some taps on them. -/
def boxesAfter (recipe : Option Recipe) (ingredient : Option Ingredient) (taps : List String) :
    Object Bool :=
  taps.foldl toggleSelection (initialSelections recipe ingredient)

/-- From the Recipe screen opened for these, some taps on its boxes and `Find in store` lead to
a card, and that to a Location screen with a heart whose tap saves `favorite`. -/
def Offers (env : Env) (recipe : Option Recipe) (ingredient : Option Ingredient)
    (favorite : Favorite) : Prop :=
  ∃ (taps : List String) (params : Params) (random : ℕ → Fin 5) (cards : List StoreCard)
    (card : StoreCard) (favorites : List Favorite) (view : LocationScreen.View) (id : ItemId)
    (now : String),
    (∀ name ∈ taps, name ∈ (ingredientsData env.myLanguage recipe ingredient).map (·.id)) ∧
    findInStore env.myLanguage recipe ingredient (boxesAfter recipe ingredient taps) =
      some params ∧
    processStoreData env.t env.myLanguage random params.selectedItems params.recipe = some cards ∧
    card ∈ cards ∧ openLocation env card params.recipe favorites = some view ∧
    toggleFavorite env card.name params.recipe view.ingredientsList id now = some (.add favorite)

/-- What is saved on the way of the ingredient alone, where its recipe's way saves `favorite`. -/
def savedAlone (env : Env) (ingredient : Ingredient) (favorite : Favorite) : Favorite :=
  { favorite with
    recipeId := none
    recipeName := (selectedIngredients ingredient).name.bind (recipeName · env.myLanguage) }

/-! ## What can be selected -/

/-- The button is enabled exactly when something is selected. -/
theorem isAnySelected_iff {selections : Object Bool} :
    isAnySelected selections = true ↔ selectedItems selections ≠ [] := by
  have hsome : isAnySelected selections = true ↔ ∃ name, name ∈ selectedItems selections := by
    rw [isAnySelected, List.any_eq_true]
    simp only [selectedItems, List.mem_filter, Object.mem_keys, decide_eq_true_eq]
    constructor
    · rintro ⟨⟨name, value⟩, hin, rfl⟩
      have hfind : selections.own.find? (·.1 = name) = some (name, true) :=
        Keyed.find_key selections.nodup hin
      refine ⟨name, List.mem_map_of_mem hin, ?_⟩
      rw [Object.truthyAt, Object.lookup, hfind]
      rfl
    · rintro ⟨name, hname, htruthy⟩
      obtain ⟨entry, hin, rfl⟩ := List.mem_map.mp hname
      have hfind : selections.own.find? (·.1 = entry.1) = some entry :=
        Keyed.find_key selections.nodup hin
      rw [Object.truthyAt, Object.lookup, hfind] at htruthy
      exact ⟨entry, hin, htruthy⟩
  rw [hsome]
  constructor
  · rintro ⟨name, hname⟩
    exact List.ne_nil_of_mem hname
  · exact List.exists_mem_of_ne_nil _

theorem findInStore_some {lang : Lang} {recipe : Option Recipe} {ingredient : Option Ingredient}
    {selections : Object Bool} {params : Params} :
    findInStore lang recipe ingredient selections = some params ↔
      selectedItems selections ≠ [] ∧
        params = ⟨selectedItems selections, ingredientsData lang recipe ingredient,
          recipe.getD (selectedIngredients ingredient)⟩ := by
  rw [findInStore, Option.ite_none_right_eq_some, isAnySelected_iff, Option.some.injEq]
  exact and_congr_right fun _ => eq_comm

/-- A list without repetitions of one name. -/
theorem eq_singleton {items : List String} {name : String} (h : items.Nodup)
    (hmem : ∀ item, item ∈ items ↔ item = name) : items = [name] := by
  have hperm : items.Perm [name] :=
    (List.perm_ext_iff_of_nodup h (List.nodup_singleton _)).mpr fun item => by
      rw [hmem, List.mem_singleton]
  exact List.perm_singleton.mp hperm

theorem nodup_selectedItems (selections : Object Bool) : (selectedItems selections).Nodup :=
  (Object.nodup_keys _).filter _

/-- A box can be checked alone, where no other is: by one tap, or by two if it reads the
prototype. -/
theorem exists_taps (selections : Object Bool) (name : String)
    (h : ∀ other ∈ selections.names, other ≠ name → selections.truthyAt other = false) :
    ∃ n, selectedItems ((List.replicate n name).foldl toggleSelection selections) = [name] := by
  refine ⟨if selections.truthyAt name then 2 else 1, eq_singleton (nodup_selectedItems _) ?_⟩
  intro item
  rw [selectedItems, List.mem_filter, Object.mem_keys, names_toggled, truthyAt_toggled]
  by_cases hitem : item = name
  · subst hitem
    cases htruthy : selections.truthyAt item <;> simp
  · have hnot : ∀ n, item ∉ List.replicate n name := fun n hin =>
      hitem (List.eq_of_mem_replicate hin)
    rw [List.count_eq_zero_of_not_mem (hnot _)]
    simp only [hnot, or_false, hitem, iff_false, not_and]
    intro hin
    rw [h item hin hitem]
    decide

section

variable {recipe : Recipe} {ingredient : Ingredient} {ingredients : List Ingredient}

/-- Nothing but the ingredient is selected when it is alone. -/
theorem selectedItems_alone {taps : List String} {lang : Lang}
    (htaps : ∀ name ∈ taps, name ∈ (ingredientsData lang none (some ingredient)).map (·.id))
    (h : selectedItems (boxesAfter none (some ingredient) taps) ≠ []) :
    selectedItems (boxesAfter none (some ingredient) taps) = [ingredient.name] := by
  have honly : ∀ item ∈ selectedItems (boxesAfter none (some ingredient) taps),
      item = ingredient.name := by
    intro item hitem
    rw [selectedItems, List.mem_filter, Object.mem_keys, boxesAfter, names_toggled] at hitem
    rcases hitem.1 with hin | hin
    · have hnames := (Object.mem_names_assign (o := Object.empty) (by simp)).mp hin
      simp only [Object.names_empty, List.not_mem_nil, false_or] at hnames
      exact hnames.1
    · exact List.mem_singleton.mp (htaps item hin)
  obtain ⟨item, hitem⟩ := List.exists_mem_of_ne_nil _ h
  refine eq_singleton (nodup_selectedItems _) fun name => ⟨honly name, ?_⟩
  rintro rfl
  exact honly item hitem ▸ hitem

/-- It can be. -/
theorem exists_alone (lang : Lang) (ingredient : Ingredient) :
    ∃ taps, (∀ name ∈ taps, name ∈ (ingredientsData lang none (some ingredient)).map (·.id)) ∧
      selectedItems (boxesAfter none (some ingredient) taps) = [ingredient.name] := by
  obtain ⟨n, hn⟩ := exists_taps (initialSelections none (some ingredient)) ingredient.name
    fun other hin _ => Object.truthyAt_assign_false (by simp) other hin
  refine ⟨_, fun name hname => ?_, hn⟩
  rw [List.eq_of_mem_replicate hname]
  exact List.mem_singleton.mpr rfl

/-- And so can it among the ingredients of a recipe. -/
theorem exists_among (lang : Lang) (h : recipe.ingredients = some ingredients)
    (hin : ingredient ∈ ingredients) :
    ∃ taps, (∀ name ∈ taps, name ∈ (ingredientsData lang (some recipe) none).map (·.id)) ∧
      selectedItems (boxesAfter (some recipe) none taps) = [ingredient.name] := by
  obtain ⟨n, hn⟩ := exists_taps (initialSelections (some recipe) none) ingredient.name
    fun other hin _ => (initialSelections_spec h).2 other hin
  refine ⟨_, fun name hname => ?_, hn⟩
  rw [List.eq_of_mem_replicate hname, ingredientsData, Option.bind_some, h, List.map_map]
  exact List.mem_map.mpr ⟨ingredient, hin, rfl⟩

/-! ## Hearts -/

/-- A row of a single selected item is not shown unless it says where the item is. -/
theorem heart_location {t : String → String} {lang : Lang} {random : ℕ → Fin 5} {item : String}
    {cards : List StoreCard} {card : StoreCard} {env : Env} {favorites : List Favorite}
    {view : LocationScreen.View} {id : ItemId} {now : String} {favorite : Favorite}
    (hcards : processStoreData t lang random [item] recipe = some cards) (hc : card ∈ cards)
    (hview : openLocation env card recipe favorites = some view)
    (htap : toggleFavorite env card.name recipe view.ingredientsList id now =
      some (.add favorite)) :
    (rowFor env card.name recipe favorites item).location ≠ .str "N/A" := by
  intro hnone
  obtain ⟨row, name, hfind, -⟩ := toggleFavorite_some_add.mp htap
  rw [openLocation_eq hcards, Option.some.injEq] at hview
  subst hview
  have hall : ∀ row ∈ card.includedIngredients.map (rowFor env card.name recipe favorites),
      row.location = .str "N/A" := by
    intro row hrow
    obtain ⟨other, hother, rfl⟩ := List.mem_map.mp hrow
    rw [included_eq hcards hc] at hother
    rw [List.mem_singleton.mp (List.mem_filter.mp hother).1]
    exact hnone
  rw [shownRows_nil hall] at hfind
  cases hfind

theorem exists_cards (h : recipe.ingredients = some ingredients)
    (hstores : ∀ ingredient ∈ ingredients, ingredient.stores.isSome = true)
    (t : String → String) (lang : Lang) (random : ℕ → Fin 5) (selected : List String) :
    ∃ cards, processStoreData t lang random selected recipe = some cards :=
  Option.isSome_iff_exists.mp (processStoreData_isSome.mpr ⟨ingredients, h, hstores⟩)

/-- The heart of an item selected alone, at a shop that has it and says where. -/
theorem exists_heart {t : String → String} {lang : Lang} {random : ℕ → Fin 5} {item : String}
    {cards : List StoreCard} {env : Env} {favorites : List Favorite} {storeName : String}
    {name : Text} (hcards : processStoreData t lang random [item] recipe = some cards)
    (hname : recipe.name = some name)
    (hincluded : isIncluded (recipe.ingredients.getD []) storeName item = true)
    (hlocation : (rowFor env storeName recipe favorites item).location ≠ .str "N/A")
    (hfavorite : (rowFor env storeName recipe favorites item).isFavorite = false)
    (now : String) :
    ∃ card ∈ cards, ∃ view id, openLocation env card recipe favorites = some view ∧
      toggleFavorite env card.name recipe view.ingredientsList id now =
        some (.add (favoriteData env storeName recipe name now
          (rowFor env storeName recipe favorites item))) := by
  obtain ⟨card, hc, rfl, -⟩ := card_of_included hcards (List.mem_singleton.mpr rfl) hincluded
  have hitems : card.includedIngredients = [item] := by
    rw [included_eq hcards hc, List.filter_singleton, hincluded]
    rfl
  refine ⟨card, hc, _, (rowFor env card.name recipe favorites item).id,
    openLocation_eq hcards env card favorites, toggleFavorite_some_add.mpr ?_⟩
  refine ⟨_, name, ?_, hfavorite, hname, rfl⟩
  rw [hitems, shownRows_of_location]
  · simp
  · intro row hrow
    rw [List.mem_singleton.mp hrow]
    exact hlocation

/-- The row of an ingredient is the same wherever it is found under its name. -/
theorem rowFor_eq {recipe' : Recipe} {item : String}
    (h : ingredientNamed (recipe.ingredients.getD []) item =
      ingredientNamed (recipe'.ingredients.getD []) item) (env : Env) (storeName : String)
    (favorites : List Favorite) :
    rowFor env storeName recipe favorites item = rowFor env storeName recipe' favorites item ∧
      isIncluded (recipe.ingredients.getD []) storeName item =
        isIncluded (recipe'.ingredients.getD []) storeName item := by
  constructor
  · rw [rowFor, rowFor, entryFor, entryFor, h]
  · rw [isIncluded, isIncluded, h]

/-- What is saved of a row under one recipe and what under the other. -/
theorem favoriteData_alone (env : Env) (storeName : String) (recipe : Recipe) (name : Text)
    (now : String) (row : Row) {nameAlone : Text}
    (h : (selectedIngredients (some ingredient)).name = some nameAlone) :
    favoriteData env storeName (selectedIngredients (some ingredient)) nameAlone now row =
      savedAlone env ingredient (favoriteData env storeName recipe name now row) := by
  rw [savedAlone, h]
  rfl

end

/-- Salt, in the fourth aisle of one shop, and what is saved of it from a recipe. -/
def aisleSalt : Ingredient :=
  ⟨some (.num 1), "Salt", none, none, some [⟨"Lidl", some (.bool true), some (.num 4)⟩]⟩

def aisleDough : Recipe :=
  { Recipe.bare (.num 9) with
    name := some (.perLang ⟨some "Dough", none, none⟩), ingredients := some [aisleSalt] }

def aisleFavorite : Favorite :=
  favoriteData .plain "Lidl" aisleDough (.perLang ⟨some "Dough", none, none⟩) "noon"
    (rowFor .plain "Lidl" aisleDough [] "Salt")

theorem aisleFavorite_offers : Offers .plain (some aisleDough) none aisleFavorite := by
  have hcards : processStoreData id .en (fun _ => 0) ["Salt"] aisleDough =
      some [storeCard id "500 M" [aisleSalt] ["Salt"] "Lidl"] := rfl
  exact ⟨["Salt"], ⟨["Salt"], [ingredientRow .en aisleSalt], aisleDough⟩, fun _ => 0, _, _, [], _,
    .num 1, "noon", by decide, by decide, hcards, List.mem_singleton.mpr rfl, rfl, rfl⟩

end IngrediGo.RecipeScreen
