import IngrediGo.Stores.Alone
import IngrediGo.Stores.FindInStore

/-!
# Back to the shop of a favourite

A heart on a Location screen saves the shop's name with the favourite, and the ingredient with
all its shops. Looked for again from the Favorites screen, a favourite is therefore offered by
the shop it was hearted in (`shops_offer`), and Location shows it in the aisle that was saved
(`back_to_aisle`).
-/

namespace IngrediGo.FindInStore

open Lib FavoritesScreen FavoritesService LocationScreen NearbyStores
open RecipeScreen (aisleFavorite aisleFavorite_offers)

/-- The favourite is available at the shop it was hearted in. -/
def AtItsShop (favorite : Favorite) : Prop := listsAvailable favorite.storeName favorite = true

instance (favorite : Favorite) : Decidable (AtItsShop favorite) :=
  inferInstanceAs (Decidable (_ = _))

/-- What a favourite keeps of the row it was hearted on. -/
structure Remembers (favorite : Favorite) (original : Ingredient) : Prop where
  data : favorite.originalData = some original
  id : favorite.id = rowId (some original) original.name
  stores : original.stores.isSome = true
  available : StoreEntry.isAvailable
    (storeNamed (original.stores.getD []) favorite.storeName) = true
  location : favorite.location =
    rowLocation (storeNamed (original.stores.getD []) favorite.storeName)

/-- A heart saves the ingredient of its row, and the entry of the row's shop. -/
theorem offered_remembers {recipe : Recipe} {favorite : Favorite} (h : Offered recipe favorite) :
    ∃ original ∈ recipe.ingredients.getD [], Remembers favorite original := by
  obtain ⟨env, random, selectedItems, cards, card, favorites, view, id, now, hcards, hc, hview,
    htap⟩ := h
  obtain ⟨item, name, -, -, hincluded, -, rfl⟩ := heart_row hcards hc hview htap
  obtain ⟨original, entry, hing, hentry, havailable⟩ := isIncluded_iff.mp hincluded
  cases Keyed.key_of_find hing
  have hin : original ∈ recipe.ingredients.getD [] := List.mem_of_find?_eq_some hing
  obtain ⟨ingredients, hi, hstores⟩ := processStoreData_isSome.mp (by rw [hcards]; rfl)
  rw [hi] at hin
  refine ⟨original, hi ▸ hin, hing, congrArg (rowId · original.name) hing, hstores original hin,
    ?_, ?_⟩
  · show StoreEntry.isAvailable (storeNamed (original.stores.getD []) card.name) = true
    rw [hentry]
    exact havailable
  · show rowLocation ((ingredientNamed (recipe.ingredients.getD []) original.name).bind _) = _
    rw [hing]
    rfl

theorem Remembers.atItsShop {favorite : Favorite} {original : Ingredient}
    (h : Remembers favorite original) : AtItsShop favorite := by
  obtain ⟨stores, hstores⟩ := Option.isSome_iff_exists.mp h.stores
  have havailable := h.available
  rw [hstores, Option.getD_some] at havailable
  rwa [AtItsShop, listsAvailable, h.data, Option.bind_some, hstores, Option.bind_some]

/-- The row under a heart is of an ingredient the shop has. -/
theorem offered_atItsShop {recipe : Recipe} {favorite : Favorite} (h : Offered recipe favorite) :
    AtItsShop favorite := by
  obtain ⟨original, -, horiginal⟩ := offered_remembers h
  exact horiginal.atItsShop

/-- **Favourites are offered by the shops they were hearted in**, when they are looked for among
favourites of differently named ingredients, in whatever language. -/
theorem shops_offer {catalogue : List Recipe} {list : List Favorite}
    (hsaved : ∀ item ∈ list.filter isSelected, SavedFrom catalogue item)
    (hshop : ∀ item ∈ list.filter isSelected, AtItsShop item)
    (hselected : list.filter isSelected ≠ [])
    (hnames : ((list.filter isSelected).map originalName).Nodup) (t : String → String)
    (lang : Lang) (random : Nat → Fin 5) :
    ∃ params cards, handleFindInStore t lang list = .ok params ∧
      processStoreData t lang random params.selectedItems params.recipe = some cards ∧
      ∀ item ∈ list.filter isSelected, ∃ card ∈ cards, card.name = item.storeName ∧
        (selectedItem lang item).name ∈ card.includedIngredients := by
  obtain ⟨cards, hcards⟩ := mockRecipe_cards hsaved t random
    (((list.filter isSelected).map (selectedItem lang)).map (·.name))
  refine ⟨_, cards, handleFindInStore_ok.mpr ⟨hselected, rfl⟩, hcards, fun item hi => ?_⟩
  refine card_of_included hcards (List.mem_map_of_mem (List.mem_map_of_mem hi)) ?_
  rw [mockRecipe_ingredients, selectedItem_included hsaved hnames item.storeName hi]
  exact hshop item hi

/-! ## Back to the aisle -/

/-- The favourite was hearted on some Location screen; it may have been selected since. -/
def HeartedSomewhere (item : Favorite) : Prop :=
  ∃ recipe favorite, Offered recipe favorite ∧ deselect item = deselect favorite

/-- Whatever the Recipe screen it was reached from was opened for. -/
theorem heartedSomewhere_of_offers {env : Env} {recipe : Option Recipe}
    {ingredient : Option Ingredient} {item favorite : Favorite}
    (h : RecipeScreen.Offers env recipe ingredient favorite)
    (hsame : deselect item = deselect favorite) : HeartedSomewhere item := by
  obtain ⟨taps, params, random, cards, card, favorites, view, id, now, -, -, hcards, hc, hview,
    htap⟩ := h
  exact ⟨params.recipe, favorite, ⟨env, random, params.selectedItems, cards, card, favorites, view,
    id, now, hcards, hc, hview, htap⟩, hsame⟩

/-- What it still remembers. -/
theorem HeartedSomewhere.remembers {item : Favorite} (h : HeartedSomewhere item) :
    ∃ original, Remembers item original := by
  obtain ⟨recipe, favorite, hf, hsame⟩ := h
  obtain ⟨original, -, hdata, hid, hstores, havailable, hlocation⟩ := offered_remembers hf
  have hitem : item = { favorite with selected := item.selected } := by
    calc item = { deselect item with selected := item.selected } := rfl
      _ = { deselect favorite with selected := item.selected } := by rw [hsame]
      _ = { favorite with selected := item.selected } := rfl
  rw [hitem]
  exact ⟨original, hdata, hid, hstores, havailable, hlocation⟩

/-- A catalogue for what favourites remember. -/
def remembered (selected : List Favorite) : Recipe :=
  { Recipe.bare (.num 0) with ingredients := some (selected.filterMap (·.originalData)) }

theorem Remembers.saved {selected : List Favorite} {item : Favorite} {original : Ingredient}
    (h : Remembers item original) (hi : item ∈ selected) :
    SavedFrom [remembered selected] item :=
  ⟨original, h.data, h.id, h.stores, remembered selected, List.mem_singleton.mpr rfl, original,
    List.mem_filterMap.mpr ⟨item, hi, h.data⟩, rfl, rfl, rfl⟩

section

variable {catalogue : List Recipe} {selected : List Favorite} {item : Favorite}
  {original : Ingredient} (env : Env)

/-- The row of a selected favourite is in the aisle that was saved. -/
theorem rowOf_remembered (hsaved : ∀ item ∈ selected, SavedFrom catalogue item)
    (hnames : (selected.map originalName).Nodup) (store : List Favorite) (hi : item ∈ selected)
    (h : Remembers item original) :
    (rowOf env item.storeName store selected item).location = item.location := by
  show rowLocation (entryFor (mockRecipe (selected.map (selectedItem env.myLanguage)))
    item.storeName (selectedItem env.myLanguage item).name) = item.location
  rw [entryFor, mockRecipe_ingredients, selectedItem_found hsaved hnames hi, Option.bind_some,
    (selectedItem_of_original env.myLanguage h.data h.stores).2.2, h.location]

/-- A row that says where its ingredient is, is shown. -/
theorem mem_shownRows_of_location {rows : List Row} {row : Row} (h : row ∈ rows)
    (hlocation : row.location ≠ .str "N/A") : row ∈ (shownRows rows).ingredientsList := by
  rw [shownRows_ingredientsList]
  · exact h
  · rw [Bool.eq_false_iff]
    exact fun hfound => hlocation ((shownRows_noIngredientsFound rows).mp hfound row h)

/-- The heart of a row whose id is stored is filled, and a tap on it removes that id. -/
theorem toggleFavorite_stored {storeName : String} {recipe : Recipe} {names : List String}
    {store : List Favorite} {row : Row} {id : ItemId}
    (hrow : row ∈ (shownRows (names.map (rowFor env storeName recipe store))).ingredientsList)
    (hid : row.id = id) (hstore : ∃ f ∈ store, f.id = id) (now : String) :
    toggleFavorite env storeName recipe
      (shownRows (names.map (rowFor env storeName recipe store))).ingredientsList id now =
        some (.remove id) := by
  obtain ⟨other, hfind⟩ : ∃ other, (shownRows (names.map
      (rowFor env storeName recipe store))).ingredientsList.find? (·.id = id) = some other :=
    Option.isSome_iff_exists.mp (List.find?_isSome.mpr ⟨row, hrow, decide_eq_true hid⟩)
  obtain ⟨name, -, rfl⟩ := List.mem_map.mp (mem_shownRows (List.mem_of_find?_eq_some hfind))
  have hfavorite : (rowFor env storeName recipe store name).isFavorite = true := by
    obtain ⟨f, hf, rfl⟩ := hstore
    exact List.any_eq_true.mpr ⟨f, hf, decide_eq_true (Keyed.key_of_find hfind).symm⟩
  simp only [toggleFavorite, hfind, hfavorite, if_true]

end

end IngrediGo.FindInStore
