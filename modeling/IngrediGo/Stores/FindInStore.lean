import IngrediGo.Favorites.Screen
import IngrediGo.Stores.Location

/-!
# Find in store

The way of a selected favourite from the Favorites screen through NearbyStores to the
Location screen of a shop. `handleFindInStore` makes a recipe of the selected favourites'
original ingredients; the other two screens find them in it again by their names, and the
favourite by the ingredient's id.

`Hearted` are the stores that hearts tapped on Location screens build. `find_in_store`:
from such a store, a selection whose ingredients have distinct names arrives as it should.
-/

namespace IngrediGo.FindInStore

open Lib FavoritesScreen FavoritesService LocationScreen NearbyStores

/-! ## `handleFindInStore` -/

/-- `{ ...base, ...item }` -/
def spread (base item : Ingredient) : Ingredient where
  id := item.id.or base.id
  name := item.name
  translation := item.translation.or base.translation
  prices := item.prices.or base.prices
  stores := item.stores.or base.stores

/-- What a favourite has of an ingredient's fields. -/
def asIngredient (item : Favorite) : Ingredient where
  id := some item.id
  name := item.name
  translation := item.translation
  prices := item.prices
  stores := none

/-- `{ [lang]: s }` -/
def inLanguage (lang : Lang) (s : String) : Text :=
  match lang with
  | .en => .perLang ⟨some s, none, none⟩
  | .fr => .perLang ⟨none, some s, none⟩
  | .zh => .perLang ⟨none, none, some s⟩

/-- One of `selectedItems`: the favourite's original ingredient over fields of its own. -/
def selectedItem (myLanguage : Lang) (item : Favorite) : Ingredient :=
  let translation := item.originalData.bind (·.translation)
  spread
    { id := none
      name := Js.orElse (Text.get? translation myLanguage) item.name
      translation := some (Js.orElse translation (inLanguage myLanguage item.name))
      prices := item.prices
      stores := some ((item.originalData.bind (·.stores)).getD []) }
    (item.originalData.getD (asIngredient item))

/-- An ingredient of `mockRecipe`. -/
def mockIngredient (item : Ingredient) : Ingredient :=
  spread { item with id := none } item

def mockRecipe (selectedItems : List Ingredient) : Recipe where
  id := some (.str "favorites-selection")
  name := some (.perLang ⟨some "Selected Favorites", some "Favoris sélectionnés", some "选定的收藏"⟩)
  images := none
  description := none
  ingredients := some (selectedItems.map mockIngredient)
  category := none
  bookmarked := none

/-- What the navigation to NearbyStores passes on. -/
structure Params where
  selectedItems : List String
  ingredientData : List Ingredient
  recipe : Recipe
  deriving DecidableEq, Repr

/-- The navigation, or the alert shown instead. -/
def handleFindInStore (t : String → String) (myLanguage : Lang) (favorites : List Favorite) :
    Except (String × String) Params :=
  let selectedItems := (favorites.filter isSelected).map (selectedItem myLanguage)
  if selectedItems.length = 0 then .error (t "No selection", t "Please select at least one item")
  else .ok
    { selectedItems := selectedItems.map (·.name)
      ingredientData := selectedItems
      recipe := mockRecipe selectedItems }

/-- The navigation happens with a selection, and passes on what is selected. -/
theorem handleFindInStore_ok {t : String → String} {lang : Lang} {list : List Favorite}
    {params : Params} :
    handleFindInStore t lang list = .ok params ↔
      list.filter isSelected ≠ [] ∧
        params =
          let selectedItems := (list.filter isSelected).map (selectedItem lang)
          ⟨selectedItems.map (·.name), selectedItems, mockRecipe selectedItems⟩ := by
  simp only [handleFindInStore, List.length_map, List.length_eq_zero_iff]
  split
  · next h => simp [h]
  · next h =>
    simp only [Except.ok.injEq, ne_eq, h, not_false_eq_true, true_and]
    exact eq_comm

/-! ## Stores built by hearts -/

/-- Some Location screen of `recipe`, opened from some card of NearbyStores over some list
of favourites, has a heart whose tap saves `favorite`. -/
def Offered (recipe : Recipe) (favorite : Favorite) : Prop :=
  ∃ (env : Env) (random : Nat → Fin 5) (selectedItems : List String) (cards : List StoreCard)
    (card : StoreCard) (favorites : List Favorite) (view : View) (id : ItemId) (now : String),
    processStoreData env.t env.myLanguage random selectedItems recipe = some cards ∧
      card ∈ cards ∧ openLocation env card recipe favorites = some view ∧
      toggleFavorite env card.name recipe view.ingredientsList id now = some (.add favorite)

/-- The list of the Favorites screen is the store's, but for the selection. -/
def SameFavorites (list store : List Favorite) : Prop := list.map deselect = store.map deselect

/-- The stores that hearts build, on Location screens of the catalogue's recipes and on
those reached through `handleFindInStore`. -/
inductive Hearted (catalogue : List Recipe) : List Favorite → Prop where
  | empty : Hearted catalogue []
  | heart {store store' : List Favorite} {recipe : Recipe} {favorite : Favorite}
      (h : Hearted catalogue store) (hr : recipe ∈ catalogue) (hf : Offered recipe favorite)
      (hs : (Edit.add favorite).updatedFavorites store = some store') : Hearted catalogue store'
  | heartFound {store store' earlier list : List Favorite} {t : String → String} {lang : Lang}
      {params : Params} {favorite : Favorite} (h : Hearted catalogue store)
      (he : Hearted catalogue earlier) (hl : SameFavorites list earlier)
      (hp : handleFindInStore t lang list = .ok params) (hf : Offered params.recipe favorite)
      (hs : (Edit.add favorite).updatedFavorites store = some store') : Hearted catalogue store'
  | unheart {store store' : List Favorite} {id : ItemId} (h : Hearted catalogue store)
      (hs : (Edit.remove id).updatedFavorites store = some store') : Hearted catalogue store'

/-- The favourite was saved for an ingredient of the catalogue. -/
def SavedFrom (catalogue : List Recipe) (favorite : Favorite) : Prop :=
  ∃ original, favorite.originalData = some original ∧
    favorite.id = rowId (some original) original.name ∧ original.stores.isSome = true ∧
    ∃ recipe ∈ catalogue, ∃ ingredient ∈ recipe.ingredients.getD [],
      original.id = ingredient.id ∧ original.name = ingredient.name ∧
        original.stores = ingredient.stores

/-- A heart saves the ingredient of its row. -/
theorem offered_ingredient {recipe : Recipe} {favorite : Favorite} (h : Offered recipe favorite) :
    ∃ ingredient ∈ recipe.ingredients.getD [], favorite.originalData = some ingredient ∧
      favorite.id = rowId (some ingredient) ingredient.name ∧ ingredient.stores.isSome = true := by
  obtain ⟨env, random, selectedItems, cards, card, favorites, view, id, now, hcards, hc, hview,
    htap⟩ := h
  obtain ⟨ingredients, hi, hstores⟩ := processStoreData_isSome.mp (by rw [hcards]; rfl)
  obtain ⟨row, hrow, hid, hdata⟩ := toggleFavorite_add htap
  obtain ⟨name, hn, rfl⟩ := mem_ingredientsList hcards hview hrow
  obtain ⟨ingredient, hing, rfl, -⟩ := included_ingredient hcards hc hn
  have hmem : ingredient ∈ recipe.ingredients.getD [] := List.mem_of_find?_eq_some hing
  have hrowdata : (rowFor env card.name recipe favorites ingredient.name).originalData =
      some ingredient := hing
  have hrowid : (rowFor env card.name recipe favorites ingredient.name).id =
      rowId (some ingredient) ingredient.name := congrArg (rowId · ingredient.name) hing
  refine ⟨ingredient, hmem, hdata.trans hrowdata, hid.trans hrowid, hstores ingredient ?_⟩
  rwa [hi] at hmem

/-! ## The favourites they hold -/

@[simp] theorem mockIngredient_eq (item : Ingredient) : mockIngredient item = item := by
  simp [mockIngredient, spread]

/-- What travels of a favourite saved for an ingredient. -/
theorem selectedItem_of_original {item : Favorite} {original : Ingredient} (lang : Lang)
    (h : item.originalData = some original) (hs : original.stores.isSome = true) :
    (selectedItem lang item).id = original.id ∧ (selectedItem lang item).name = original.name ∧
      (selectedItem lang item).stores = original.stores := by
  obtain ⟨stores, hstores⟩ := Option.isSome_iff_exists.mp hs
  simp [selectedItem, spread, h, hstores]

/-- A favourite on the screen is one of the store's, but for its selection. -/
theorem SameFavorites.exists_mem {list store : List Favorite} (h : SameFavorites list store)
    {item : Favorite} (hi : item ∈ list) :
    ∃ f ∈ store, f.id = item.id ∧ f.originalData = item.originalData := by
  have hmem : deselect item ∈ store.map deselect := h ▸ List.mem_map_of_mem hi
  obtain ⟨f, hf, he⟩ := List.mem_map.mp hmem
  have hid : (deselect f).id = (deselect item).id := by rw [he]
  have hdata : (deselect f).originalData = (deselect item).originalData := by rw [he]
  exact ⟨f, hf, hid, hdata⟩

theorem SavedFrom.of_eq {catalogue : List Recipe} {f item : Favorite} (h : SavedFrom catalogue f)
    (hid : f.id = item.id) (hdata : f.originalData = item.originalData) :
    SavedFrom catalogue item := by
  obtain ⟨original, ho, hoid, hrest⟩ := h
  exact ⟨original, hdata ▸ ho, hid ▸ hoid, hrest⟩

/-- A favourite on the screen was saved for an ingredient of the catalogue, if those of the
store were. -/
theorem SameFavorites.savedFrom {catalogue : List Recipe} {list store : List Favorite}
    (h : SameFavorites list store) (hsaved : ∀ f ∈ store, SavedFrom catalogue f)
    {item : Favorite} (hi : item ∈ list) : SavedFrom catalogue item := by
  obtain ⟨f, hf, hid, hdata⟩ := h.exists_mem hi
  exact (hsaved f hf).of_eq hid hdata

/-- The recipe made of a selection holds ingredients of the catalogue. -/
theorem mock_ingredient {catalogue : List Recipe} {earlier list : List Favorite}
    {t : String → String} {lang : Lang} {params : Params}
    (hsaved : ∀ f ∈ earlier, SavedFrom catalogue f) (hl : SameFavorites list earlier)
    (hp : handleFindInStore t lang list = .ok params) {ingredient : Ingredient}
    (hi : ingredient ∈ params.recipe.ingredients.getD []) :
    ∃ recipe ∈ catalogue, ∃ source ∈ recipe.ingredients.getD [],
      ingredient.id = source.id ∧ ingredient.name = source.name ∧
        ingredient.stores = source.stores := by
  obtain ⟨-, rfl⟩ := handleFindInStore_ok.mp hp
  simp only [mockRecipe, Option.getD_some, List.map_map, List.mem_map, Function.comp_apply,
    mockIngredient_eq] at hi
  obtain ⟨item, hitem, rfl⟩ := hi
  obtain ⟨original, ho, -, hs, recipe, hr, source, hsource, h1, h2, h3⟩ :=
    hl.savedFrom hsaved (List.mem_filter.mp hitem).1
  obtain ⟨g1, g2, g3⟩ := selectedItem_of_original lang ho hs
  exact ⟨recipe, hr, source, hsource, g1.trans h1, g2.trans h2, g3.trans h3⟩

/-- A heart adds a favourite of the ingredient it is offered for. -/
theorem saved_added {catalogue : List Recipe} {recipe : Recipe} {store store' : List Favorite}
    {favorite : Favorite} (hsaved : ∀ f ∈ store, SavedFrom catalogue f)
    (hf : Offered recipe favorite)
    (hs : (Edit.add favorite).updatedFavorites store = some store')
    (hsource : ∀ ingredient ∈ recipe.ingredients.getD [],
      ∃ recipe ∈ catalogue, ∃ source ∈ recipe.ingredients.getD [],
        ingredient.id = source.id ∧ ingredient.name = source.name ∧
          ingredient.stores = source.stores) :
    ∀ f ∈ store', SavedFrom catalogue f := by
  obtain ⟨-, rfl⟩ := added_some.mp hs
  intro f hmem
  rcases List.mem_append.mp hmem with hmem | hmem
  · exact hsaved f hmem
  · cases List.mem_singleton.mp hmem
    obtain ⟨ingredient, hi, hdata, hid, hstores⟩ := offered_ingredient hf
    exact ⟨ingredient, hdata, hid, hstores, hsource ingredient hi⟩

/-- **What hearts build**: favourites of the catalogue's ingredients, with distinct ids. -/
theorem Hearted.sound {catalogue : List Recipe} {store : List Favorite}
    (h : Hearted catalogue store) :
    (∀ f ∈ store, SavedFrom catalogue f) ∧ UniqueIds store := by
  induction h with
  | empty => exact ⟨fun f hf => (by cases hf), List.nodup_nil⟩
  | heart _ hr hf hs ih =>
    refine ⟨saved_added ih.1 hf hs fun ingredient hi => ?_, uniqueIds_updated _ ih.2 hs⟩
    exact ⟨_, hr, ingredient, hi, rfl, rfl, rfl⟩
  | heartFound _ _ hl hp hf hs ih ih' =>
    refine ⟨saved_added ih.1 hf hs fun ingredient hi => ?_, uniqueIds_updated _ ih.2 hs⟩
    exact mock_ingredient ih'.1 hl hp hi
  | unheart _ hs ih =>
    refine ⟨fun f hmem => ?_, uniqueIds_updated _ ih.2 hs⟩
    cases hs
    exact ih.1 f (List.mem_filter.mp hmem).1

/-! ## What Location shows of a selection -/

/-- Every shop entry of the catalogue that is available says in which aisle. -/
def AislesGiven (catalogue : List Recipe) : Prop :=
  ∀ recipe ∈ catalogue, ∀ ingredient ∈ recipe.ingredients.getD [],
    ∀ entry ∈ ingredient.stores.getD [], StoreEntry.isAvailable (some entry) = true →
      HasAisle (some entry)

instance (catalogue : List Recipe) : Decidable (AislesGiven catalogue) :=
  inferInstanceAs (Decidable (∀ recipe ∈ catalogue, _))

/-- The favourite's saved shop entries list the shop as available. -/
def listsAvailable (storeName : String) (item : Favorite) : Bool :=
  StoreEntry.isAvailable ((item.originalData.bind (·.stores)).bind (storeNamed · storeName))

/-- The name of the ingredient a favourite was saved for. -/
def originalName (item : Favorite) : Option String := item.originalData.map (·.name)

/-- The screen shows one row for each of `chosen`, in order, with its heart filled, and
un-hearting a row removes its favourite from the store and no other. -/
structure ShowsExactly (env : Env) (storeName : String) (recipe : Recipe)
    (store chosen : List Favorite) (view : View) : Prop where
  rows : view.ingredientsList.map (·.id) = chosen.map (·.id)
  once : (view.ingredientsList.map (·.id)).Nodup
  hearts : ∀ row ∈ view.ingredientsList, row.isFavorite = true
  unheart : ∀ row ∈ view.ingredientsList, ∀ now,
    toggleFavorite env storeName recipe view.ingredientsList row.id now = some (.remove row.id) ∧
      ∃ f ∈ store, f.id = row.id ∧
        ∀ g, g ∈ (removeFavorite store row.id .answered .answered).1 ↔ g ∈ store ∧ g ≠ f

section Selection

variable {catalogue : List Recipe} {selected : List Favorite} {lang : Lang}

theorem mockRecipe_ingredients (items : List Ingredient) :
    (mockRecipe items).ingredients.getD [] = items :=
  (List.map_congr_left fun item _ => mockIngredient_eq item).trans (List.map_id' items)

/-- A selected item is found again under its name. -/
theorem selectedItem_found (hsaved : ∀ item ∈ selected, SavedFrom catalogue item)
    (hnames : (selected.map originalName).Nodup) {item : Favorite} (hi : item ∈ selected) :
    ingredientNamed (selected.map (selectedItem lang)) (selectedItem lang item).name =
      some (selectedItem lang item) := by
  refine Keyed.find_key ?_ (List.mem_map_of_mem hi)
  have hsome : selected.map originalName =
      ((selected.map (selectedItem lang)).map (·.name)).map some := by
    rw [List.map_map, List.map_map]
    refine List.map_congr_left fun item hi => ?_
    obtain ⟨original, ho, -, hs, -⟩ := hsaved item hi
    simp [originalName, ho, (selectedItem_of_original lang ho hs).2.1]
  rw [hsome] at hnames
  exact hnames.of_map

/-- The card includes it exactly when the favourite lists the shop as available. -/
theorem selectedItem_included (hsaved : ∀ item ∈ selected, SavedFrom catalogue item)
    (hnames : (selected.map originalName).Nodup) (storeName : String) {item : Favorite}
    (hi : item ∈ selected) :
    isIncluded (selected.map (selectedItem lang)) storeName (selectedItem lang item).name =
      listsAvailable storeName item := by
  obtain ⟨original, ho, -, hs, -⟩ := hsaved item hi
  obtain ⟨stores, hstores⟩ := Option.isSome_iff_exists.mp hs
  have hsel : (selectedItem lang item).stores = some stores :=
    (selectedItem_of_original lang ho hs).2.2.trans hstores
  simp [isIncluded, selectedItem_found hsaved hnames hi, listsAvailable, ho, hstores, hsel]

/-- The row of a selected favourite. -/
def rowOf (env : Env) (storeName : String) (store selected : List Favorite) (item : Favorite) :
    Row :=
  rowFor env storeName (mockRecipe (selected.map (selectedItem env.myLanguage))) store
    (selectedItem env.myLanguage item).name

/-- It has the favourite's id. -/
theorem rowOf_id (hsaved : ∀ item ∈ selected, SavedFrom catalogue item)
    (hnames : (selected.map originalName).Nodup) (env : Env) (storeName : String)
    (store : List Favorite) {item : Favorite} (hi : item ∈ selected) :
    (rowOf env storeName store selected item).id = item.id := by
  obtain ⟨original, ho, hid, hs, -⟩ := hsaved item hi
  obtain ⟨h1, h2, -⟩ := selectedItem_of_original env.myLanguage ho hs
  show rowId (ingredientNamed _ _) _ = item.id
  rw [mockRecipe_ingredients, selectedItem_found hsaved hnames hi, hid]
  simp only [rowId, Option.bind_some, h1, h2]

/-- Its heart is filled. -/
theorem rowOf_isFavorite (hsaved : ∀ item ∈ selected, SavedFrom catalogue item)
    (hnames : (selected.map originalName).Nodup) (env : Env) (storeName : String)
    {store : List Favorite} {item : Favorite} (hi : item ∈ selected)
    (hstore : ∃ f ∈ store, f.id = item.id) :
    (rowOf env storeName store selected item).isFavorite = true := by
  obtain ⟨f, hf, hid⟩ := hstore
  refine List.any_eq_true.mpr ⟨f, hf, decide_eq_true ?_⟩
  exact hid.trans (rowOf_id hsaved hnames env storeName store hi).symm

/-- It has a location where the favourite is available. -/
theorem rowOf_location (haisles : AislesGiven catalogue)
    (hsaved : ∀ item ∈ selected, SavedFrom catalogue item)
    (hnames : (selected.map originalName).Nodup) (env : Env) {storeName : String}
    (store : List Favorite) {item : Favorite} (hi : item ∈ selected)
    (ha : listsAvailable storeName item = true) :
    (rowOf env storeName store selected item).location ≠ .str "N/A" := by
  obtain ⟨original, ho, -, hs, recipe, hr, ingredient, hing, -, -, hstores⟩ := hsaved item hi
  have hsel := (selectedItem_of_original env.myLanguage ho hs).2.2
  have hentry : entryFor (mockRecipe (selected.map (selectedItem env.myLanguage))) storeName
      (selectedItem env.myLanguage item).name =
        storeNamed (ingredient.stores.getD []) storeName := by
    rw [entryFor, mockRecipe_ingredients, selectedItem_found hsaved hnames hi, Option.bind_some,
      hsel, hstores]
  have havail : StoreEntry.isAvailable (storeNamed (ingredient.stores.getD []) storeName) = true := by
    obtain ⟨stores, hst⟩ := Option.isSome_iff_exists.mp hs
    rw [← hstores, hst]
    simpa [listsAvailable, ho, hst] using ha
  show HasAisle (entryFor _ storeName _)
  rw [hentry]
  cases he : storeNamed (ingredient.stores.getD []) storeName with
  | none => rw [he] at havail; cases havail
  | some entry =>
    rw [he] at havail
    exact haisles recipe hr ingredient hing entry (List.mem_of_find?_eq_some he) havail

/-- The rows of a card are those of the favourites that list its shop. -/
theorem included_rows {env : Env} {random : Nat → Fin 5} {cards : List StoreCard}
    {card : StoreCard} (hsaved : ∀ item ∈ selected, SavedFrom catalogue item)
    (hnames : (selected.map originalName).Nodup) (store : List Favorite)
    (hcards : processStoreData env.t env.myLanguage random
      ((selected.map (selectedItem env.myLanguage)).map (·.name))
      (mockRecipe (selected.map (selectedItem env.myLanguage))) = some cards)
    (hc : card ∈ cards) :
    card.includedIngredients.map (rowFor env card.name
      (mockRecipe (selected.map (selectedItem env.myLanguage))) store) =
        (selected.filter (listsAvailable card.name)).map (rowOf env card.name store selected) := by
  rw [included_eq hcards hc, mockRecipe_ingredients, List.map_map, List.filter_map, List.map_map]
  refine congrArg (List.map _) (List.filter_congr fun item hi => ?_)
  exact selectedItem_included hsaved hnames card.name hi

/-- NearbyStores shows its cards for the recipe made of a selection. -/
theorem mockRecipe_cards (hsaved : ∀ item ∈ selected, SavedFrom catalogue item)
    (t : String → String) (random : Nat → Fin 5) (names : List String) :
    ∃ cards, processStoreData t lang random names
      (mockRecipe (selected.map (selectedItem lang))) = some cards := by
  refine Option.isSome_iff_exists.mp (processStoreData_isSome.mpr ⟨_, rfl, fun ingredient hi => ?_⟩)
  obtain ⟨_, hsel, rfl⟩ := List.mem_map.mp hi
  obtain ⟨item, hitem, rfl⟩ := List.mem_map.mp hsel
  obtain ⟨original, ho, -, hs, -⟩ := hsaved item hitem
  rw [mockIngredient_eq, (selectedItem_of_original lang ho hs).2.2]
  exact hs

end Selection

/-- Un-hearting removes the one favourite of that id. -/
theorem mem_removeFavorite {store : List Favorite} (hunique : UniqueIds store) {f : Favorite}
    (hf : f ∈ store) (g : Favorite) :
    g ∈ (removeFavorite store f.id .answered .answered).1 ↔ g ∈ store ∧ g ≠ f := by
  show g ∈ store.filter (·.id ≠ f.id) ↔ _
  simp only [List.mem_filter, decide_eq_true_eq, and_congr_right_iff]
  intro hg
  refine not_congr ⟨fun hid => ?_, fun he => by rw [he]⟩
  exact List.inj_on_of_nodup_map hunique hg hf hid

/-- Rows with the ids of `chosen`, all of them in the store and with their hearts filled. -/
theorem showsExactly_of_rows {env : Env} {storeName : String} {recipe : Recipe}
    {store chosen : List Favorite} {view : View} (hunique : UniqueIds store)
    (hrows : view.ingredientsList.map (·.id) = chosen.map (·.id))
    (honce : (chosen.map (·.id)).Nodup) (hearts : ∀ row ∈ view.ingredientsList, row.isFavorite = true)
    (hstore : ∀ item ∈ chosen, ∃ f ∈ store, f.id = item.id) :
    ShowsExactly env storeName recipe store chosen view where
  rows := hrows
  once := hrows ▸ honce
  hearts := hearts
  unheart row hrow now := by
    constructor
    · obtain ⟨row', hrow'⟩ : ∃ row', view.ingredientsList.find? (·.id = row.id) = some row' :=
        Option.isSome_iff_exists.mp (List.find?_isSome.mpr ⟨row, hrow, by simp⟩)
      simp only [toggleFavorite, hrow', hearts row' (List.mem_of_find?_eq_some hrow'), if_true]
    · have hid : row.id ∈ chosen.map (·.id) := hrows ▸ List.mem_map_of_mem hrow
      obtain ⟨item, hi, hid⟩ := List.mem_map.mp hid
      obtain ⟨f, hf, hfid⟩ := hstore item hi
      have he : f.id = row.id := hfid.trans hid
      exact ⟨f, hf, he, fun g => he ▸ mem_removeFavorite hunique hf g⟩

/-- **Find in store keeps each favourite's identity**, for a selection of favourites of
differently named ingredients. -/
theorem find_in_store {catalogue : List Recipe} {store list : List Favorite}
    (hstore : Hearted catalogue store) (haisles : AislesGiven catalogue)
    (hlist : SameFavorites list store) (hselected : list.filter isSelected ≠ [])
    (hnames : ((list.filter isSelected).map originalName).Nodup) (env : Env)
    (random : Nat → Fin 5) :
    ∃ params cards, handleFindInStore env.t env.myLanguage list = .ok params ∧
      processStoreData env.t env.myLanguage random params.selectedItems params.recipe =
        some cards ∧
      ∀ card ∈ cards, ∃ view, openLocation env card params.recipe store = some view ∧
        ShowsExactly env card.name params.recipe store
          ((list.filter isSelected).filter (listsAvailable card.name)) view := by
  obtain ⟨hsaved, hunique⟩ := hstore.sound
  have hlistIds : (list.map (·.id)).Nodup := by
    show (favoriteIds list).Nodup
    rw [← ids_map_deselect list, hlist, ids_map_deselect store]
    exact hunique
  have hsavedSel : ∀ item ∈ list.filter isSelected, SavedFrom catalogue item :=
    fun item hi => hlist.savedFrom hsaved (List.mem_filter.mp hi).1
  have hstoreSel : ∀ item ∈ list.filter isSelected, ∃ f ∈ store, f.id = item.id := by
    intro item hi
    obtain ⟨f, hf, hid, -⟩ := hlist.exists_mem (List.mem_filter.mp hi).1
    exact ⟨f, hf, hid⟩
  obtain ⟨cards, hcards⟩ := mockRecipe_cards hsavedSel env.t random
    (((list.filter isSelected).map (selectedItem env.myLanguage)).map (·.name))
  refine ⟨_, cards, handleFindInStore_ok.mpr ⟨hselected, rfl⟩, hcards, fun card hc => ?_⟩
  have hrows := included_rows hsavedSel hnames store hcards hc
  have hlocation : ∀ row ∈ card.includedIngredients.map (rowFor env card.name
      (mockRecipe ((list.filter isSelected).map (selectedItem env.myLanguage))) store),
      row.location ≠ .str "N/A" := by
    rw [hrows]
    intro row hrow
    obtain ⟨item, hi, rfl⟩ := List.mem_map.mp hrow
    obtain ⟨hsel, ha⟩ := List.mem_filter.mp hi
    exact rowOf_location haisles hsavedSel hnames env store hsel ha
  have hlist := shownRows_of_location hlocation
  refine ⟨_, openLocation_eq hcards env card store, showsExactly_of_rows hunique ?_ ?_ ?_ ?_⟩
  · rw [hlist, hrows, List.map_map]
    exact List.map_congr_left fun item hi =>
      rowOf_id hsavedSel hnames env card.name store (List.mem_filter.mp hi).1
  · exact hlistIds.sublist ((List.filter_sublist.trans List.filter_sublist).map _)
  · rw [hlist, hrows]
    intro row hrow
    obtain ⟨item, hi, rfl⟩ := List.mem_map.mp hrow
    have hsel := (List.mem_filter.mp hi).1
    exact rowOf_isFavorite hsavedSel hnames env card.name hsel (hstoreSel item hsel)
  · exact fun item hi => hstoreSel item (List.mem_filter.mp hi).1

/-! ## Ingredients of one name -/

/-- The salt with id `n`. -/
def salt (n : ℚ) : Ingredient :=
  ⟨some (.num n), "Salt", none, none, some [⟨"Lidl", some (.bool true), some (.num 4)⟩]⟩

/-- A recipe with a salt of its own. -/
def saltDish (n : ℚ) : Recipe :=
  { Recipe.bare (.num n) with
    name := some (.perLang ⟨some "Dish", none, none⟩)
    ingredients := some [salt n] }

/-- The favourite saved for it. -/
def saltFavorite (n : ℚ) : Favorite :=
  { Favorite.bare (.num n) with
    name := "Salt"
    translation := some (.plain "Salt")
    category := some "Other"
    recipeId := some (.num n)
    recipeName := some "Dish"
    storeName := "Lidl"
    location := .num 4
    originalData := some (salt n) }

/-- The row of the salt, its heart not filled. -/
def saltRow (n : ℚ) : Row :=
  ⟨.num n, "Salt", "Salt", "Other", .num 4, none, false, some (salt n)⟩

theorem saltFavorite_offered {n : ℚ} (hn : n ≠ 0) : Offered (saltDish n) (saltFavorite n) := by
  have hid : rowId (some (salt n)) "Salt" = .num n := by
    simp [rowId, salt, Js.orElse, Js.or, Js.truthy, hn]
  have hrow : processedIngredient .plain "Lidl" (saltDish n) [] "Salt" = some (saltRow n) := by
    have hfound : processedIngredient .plain "Lidl" (saltDish n) [] "Salt" =
        some { saltRow n with id := rowId (some (salt n)) "Salt" } := rfl
    rw [hfound, hid]
    rfl
  have hview : openLocation .plain (storeCard id "500 M" [salt n] ["Salt"] "Lidl") (saltDish n) [] =
      some ⟨false, [saltRow n]⟩ := by
    show (["Salt"].mapM (processedIngredient .plain "Lidl" (saltDish n) [])).map shownRows = _
    rw [List.mapM_cons, hrow]
    rfl
  refine ⟨.plain, fun _ => 0, ["Salt"], [storeCard id "500 M" [salt n] ["Salt"] "Lidl"], _, [],
    _, .num n, "", rfl, List.mem_singleton.mpr rfl, hview, ?_⟩
  simp only [toggleFavorite, List.find?_cons_of_pos, decide_true, saltRow]
  rfl

theorem hearted_salt : Hearted [saltDish 1, saltDish 2] [saltFavorite 1] := by
  have h1 := saltFavorite_offered (n := 1) (by norm_num)
  exact .heart .empty (by simp) h1 rfl

theorem hearted_salts : Hearted [saltDish 1, saltDish 2] [saltFavorite 1, saltFavorite 2] := by
  have h2 := saltFavorite_offered (n := 2) (by norm_num)
  exact .heart hearted_salt (by simp) h2 (by decide)

/-- The store's favourites on the Favorites screen, all selected. -/
def allSelected (store : List Favorite) : List Favorite :=
  store.map fun item => { item with selected := some true }

theorem find_in_store_salt : ∃ params cards,
    handleFindInStore id .en (allSelected [saltFavorite 1]) = .ok params ∧
      processStoreData id .en (fun _ => 0) params.selectedItems params.recipe = some cards ∧
      ∀ card ∈ cards, ∃ view,
        openLocation .plain card params.recipe [saltFavorite 1] = some view ∧
          ShowsExactly .plain card.name params.recipe [saltFavorite 1]
            (((allSelected [saltFavorite 1]).filter isSelected).filter
              (listsAvailable card.name)) view := by
  have hlist : SameFavorites (allSelected [saltFavorite 1]) [saltFavorite 1] := rfl
  exact find_in_store hearted_salt (by decide) hlist (by decide) (by decide) .plain _

/-- The salts of two dishes: Location shows the first one twice. -/
theorem not_find_in_store : ¬ ∀ (catalogue : List Recipe) (store list : List Favorite),
    Hearted catalogue store → AislesGiven catalogue → SameFavorites list store →
    list.filter isSelected ≠ [] →
    ∀ (env : Env) (random : Nat → Fin 5) (params : Params) (cards : List StoreCard)
      (card : StoreCard) (view : View),
      handleFindInStore env.t env.myLanguage list = .ok params →
      processStoreData env.t env.myLanguage random params.selectedItems params.recipe =
        some cards →
      card ∈ cards → openLocation env card params.recipe store = some view →
      ShowsExactly env card.name params.recipe store
        ((list.filter isSelected).filter (listsAvailable card.name)) view := by
  intro h
  have hview := h _ _ (allSelected [saltFavorite 1, saltFavorite 2]) hearted_salts (by decide) rfl
    (by decide) .plain (fun _ => 0) _ _ _ _ rfl rfl (List.mem_singleton.mpr rfl) rfl
  exact absurd hview.once (by decide)

end IngrediGo.FindInStore
