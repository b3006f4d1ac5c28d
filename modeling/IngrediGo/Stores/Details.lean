import IngrediGo.Lib.Runs
import IngrediGo.Recipe.Selection
import IngrediGo.Stores.Location

/-!
# A shop's details

The screen of `nearbyStores.tsx` around its cards: the list or map view, the modal with a
shop's details, and the way on to Location. A change of language draws the cards anew, with
other distances and texts; a modal that is open keeps the card it was opened for, and confirms
with it.

`details_consistent`: whatever was switched in between, the card in the modal and the card
passed on say of the selection what the list says, and Location has a row for each item in it.
-/

namespace IngrediGo.NearbyStores

open Lib LocationScreen

inductive ViewMode where
  | list
  | map
  deriving DecidableEq, Repr

structure Screen where
  lang : Lang
  viewMode : ViewMode
  selectedStore : Option StoreCard
  modalVisible : Bool
  storeData : List StoreCard
  /-- The shops passed on to Location. -/
  confirmed : List StoreCard
  deriving DecidableEq, Repr

/-- The route's parameters, and the texts of each language. -/
structure Route where
  t : Lang → String → String
  selectedItems : List String
  recipe : Recipe

/-- The effect of a mount or a change of language; if it throws nothing is set. -/
def Route.storeData (route : Route) (lang : Lang) (random : ℕ → Fin 5) (old : List StoreCard) :
    List StoreCard :=
  (processStoreData (route.t lang) lang random route.selectedItems route.recipe).getD old

namespace Screen

def mounted (route : Route) (lang : Lang) (random : ℕ → Fin 5) : Screen where
  lang := lang
  viewMode := .list
  selectedStore := none
  modalVisible := false
  storeData := route.storeData lang random []
  confirmed := []

inductive Act where
  | switchLanguage (lang : Lang) (random : ℕ → Fin 5)
  | setViewMode (viewMode : ViewMode)
  /-- A card of the list is pressed. -/
  | openStoreDetails (i : ℕ)
  | closeModal
  | confirm

def closed (s : Screen) : Screen := { s with modalVisible := false, selectedStore := none }

/-- The shop the modal shows, if it is shown. -/
def details (s : Screen) : Option StoreCard := if s.modalVisible then s.selectedStore else none

def step (route : Route) (s : Screen) : Act → Option Screen
  | .switchLanguage lang random =>
    some { s with lang := lang, storeData := route.storeData lang random s.storeData }
  | .setViewMode viewMode => some { s with viewMode := viewMode }
  | .openStoreDetails i =>
    if s.viewMode = .list then
      s.storeData[i]?.map fun store => { s with selectedStore := some store, modalVisible := true }
    else none
  | .closeModal => s.details.map fun _ => s.closed
  | .confirm => s.details.map fun store => { s.closed with confirmed := s.confirmed ++ [store] }

end Screen

/-- `ingredient?.translation?.[lang] || ingredientName` -/
def getIngredientTranslation (recipe : Recipe) (lang : Lang) (ingredientName : String) : String :=
  let ingredient := ingredientNamed (recipe.ingredients.getD []) ingredientName
  Js.orElse (Text.get? (ingredient.bind (·.translation)) lang) ingredientName

/-- What the modal lists of a shop. -/
structure Details where
  available : List String
  unavailable : List String
  deriving DecidableEq, Repr

/-- `renderStoreDetailsModal()` -/
def renderDetails (recipe : Recipe) (lang : Lang) (store : StoreCard) : Details where
  available := store.includedIngredients.map (getIngredientTranslation recipe lang)
  unavailable := store.nonIncludedIngredients.map (getIngredientTranslation recipe lang)

/-! ## Cards of one shop -/

/-- What a card says whatever the language and the distance drawn. -/
def StoreCard.plain (card : StoreCard) : StoreCard :=
  { card with distance := "", ingredientsText := "" }

/-- The card was drawn for the route at some time. -/
def Drawn (route : Route) (card : StoreCard) : Prop :=
  ∃ lang random cards, processStoreData (route.t lang) lang random route.selectedItems
    route.recipe = some cards ∧ card ∈ cards

variable {route : Route} {card card' : StoreCard} {s u : Screen}

/-- Two cards drawn for a shop say the same. -/
theorem Drawn.plain_eq (h : Drawn route card) (h' : Drawn route card')
    (hname : card.name = card'.name) : card.plain = card'.plain := by
  obtain ⟨lang, random, cards, hcards, hc⟩ := h
  obtain ⟨lang', random', cards', hcards', hc'⟩ := h'
  obtain ⟨distance, he⟩ := card_eq hcards hc
  obtain ⟨distance', he'⟩ := card_eq hcards' hc'
  rw [he, he', hname]
  rfl

/-- The route's cards can be drawn. -/
def Route.Drawable (route : Route) : Prop :=
  ∃ ingredients, route.recipe.ingredients = some ingredients ∧
    ∀ ingredient ∈ ingredients, ingredient.stores.isSome = true

theorem Route.Drawable.cards (h : route.Drawable) (lang : Lang) (random : ℕ → Fin 5) :
    ∃ cards, processStoreData (route.t lang) lang random route.selectedItems route.recipe =
      some cards :=
  Option.isSome_iff_exists.mp (processStoreData_isSome.mpr h)

/-- Every list of cards has one of each shop. -/
theorem Drawn.exists_mem (h : Drawn route card) {lang : Lang} {random : ℕ → Fin 5}
    {cards : List StoreCard} (hcards : processStoreData (route.t lang) lang random
      route.selectedItems route.recipe = some cards) :
    ∃ card' ∈ cards, card'.plain = card.plain := by
  obtain ⟨lang', random', cards', hcards', hc⟩ := h
  obtain ⟨stores, hstores, hperm⟩ := names_perm hcards
  obtain ⟨stores', hstores', hperm'⟩ := names_perm hcards'
  cases hstores.symm.trans hstores'
  have hin : card.name ∈ cards.map (·.name) :=
    (hperm.trans hperm'.symm).mem_iff.mpr (List.mem_map_of_mem hc)
  obtain ⟨card', hc', hname⟩ := List.mem_map.mp hin
  exact ⟨card', hc', Drawn.plain_eq ⟨lang, random, cards, hcards, hc'⟩
    ⟨lang', random', cards', hcards', hc⟩ hname⟩

/-! ## Runs -/

/-- What every run keeps: the list is the route's in the language in force, the modal is open
with a shop, and only shops of some such list are shown and passed on. -/
structure Screen.Kept (route : Route) (s : Screen) : Prop where
  list : ∃ random, processStoreData (route.t s.lang) s.lang random route.selectedItems
    route.recipe = some s.storeData
  modal : s.modalVisible = s.selectedStore.isSome
  selected : ∀ card ∈ s.selectedStore, Drawn route card
  confirmed : ∀ card ∈ s.confirmed, Drawn route card

theorem Screen.details_some {s : Screen} (h : s.details = some card) :
    s.selectedStore = some card := by
  unfold Screen.details at h
  split at h
  · exact h
  · cases h

theorem Route.Drawable.storeData (h : route.Drawable) (lang : Lang) (random : ℕ → Fin 5)
    (old : List StoreCard) :
    processStoreData (route.t lang) lang random route.selectedItems route.recipe =
      some (route.storeData lang random old) := by
  obtain ⟨cards, hcards⟩ := h.cards lang random
  rw [Route.storeData, hcards, Option.getD_some]

theorem Screen.Kept.mounted (h : route.Drawable) (lang : Lang) (random : ℕ → Fin 5) :
    Screen.Kept route (.mounted route lang random) where
  list := ⟨random, h.storeData lang random []⟩
  modal := rfl
  selected card hc := by cases hc
  confirmed card hc := by cases hc

/-- The step lemma. -/
theorem Screen.Kept.step (hroute : route.Drawable) {a : Screen.Act} (h : Screen.Kept route s)
    (hs : s.step route a = some u) : Screen.Kept route u := by
  cases a with
  | switchLanguage lang random =>
    cases hs
    exact ⟨⟨random, hroute.storeData lang random _⟩, h.modal, h.selected, h.confirmed⟩
  | setViewMode viewMode =>
    cases hs
    exact ⟨h.list, h.modal, h.selected, h.confirmed⟩
  | openStoreDetails i =>
    simp only [Screen.step, Option.ite_none_right_eq_some] at hs
    obtain ⟨store, hi, rfl⟩ := Option.map_eq_some_iff.mp hs.2
    obtain ⟨random, hlist⟩ := h.list
    refine ⟨h.list, rfl, fun card hc => ?_, h.confirmed⟩
    cases hc
    exact ⟨s.lang, random, s.storeData, hlist, List.mem_of_getElem? hi⟩
  | closeModal =>
    obtain ⟨store, -, rfl⟩ := Option.map_eq_some_iff.mp hs
    exact ⟨h.list, rfl, fun card hc => (by cases hc), h.confirmed⟩
  | confirm =>
    obtain ⟨store, hstore, rfl⟩ := Option.map_eq_some_iff.mp hs
    refine ⟨h.list, rfl, fun card hc => (by cases hc), fun card hc => ?_⟩
    rcases List.mem_append.mp hc with hc | hc
    · exact h.confirmed card hc
    · rw [List.mem_singleton.mp hc]
      exact h.selected store (Screen.details_some hstore)

/-- What a card says fits the selection, and Location can be opened with it. -/
structure Fits (route : Route) (lang : Lang) (storeData : List StoreCard) (card : StoreCard) :
    Prop where
  /-- The list has a card that says the same but for the distance and the count text. -/
  listed : ∃ card' ∈ storeData, card'.plain = card.plain
  /-- The modal lists every selected item once, in the language in force. -/
  details : let details := renderDetails route.recipe lang card
    (details.available ++ details.unavailable).Perm
      (route.selectedItems.map (getIngredientTranslation route.recipe lang))
  /-- Location shows a row for each item the modal lists as available, or none at all. -/
  location : ∀ (env : Env) (favorites : List Favorite), ∃ view,
    openLocation env card route.recipe favorites = some view ∧
      (view.noIngredientsFound = false →
        view.ingredientsList.map (·.originalData.map (·.name)) =
          (route.selectedItems.filter
            (isIncluded (route.recipe.ingredients.getD []) card.name)).map some)

theorem Drawn.fits (h : Drawn route card) {lang : Lang} {random : ℕ → Fin 5}
    {storeData : List StoreCard} (hlist : processStoreData (route.t lang) lang random
      route.selectedItems route.recipe = some storeData) : Fits route lang storeData card := by
  refine ⟨h.exists_mem hlist, ?_, fun env favorites => ?_⟩
  · obtain ⟨lang', random', cards, hcards, hc⟩ := h
    have hsplit := (RecipeScreen.cardsFor hcards).split card hc
    simp only [renderDetails, ← List.map_append]
    exact hsplit.map _
  · obtain ⟨lang', random', cards, hcards, hc⟩ := h
    refine ⟨_, openLocation_eq hcards env card favorites, fun hfound => ?_⟩
    rw [shownRows_ingredientsList hfound, List.map_map, ← included_eq hcards hc]
    refine List.map_congr_left fun name hname => ?_
    obtain ⟨ingredient, hing, hn, -⟩ := included_ingredient hcards hc hname
    show (ingredientNamed _ name).map _ = some name
    rw [hing, Option.map_some, hn]

/-- **A shop's details are consistent** with the list and with Location in every run: the modal
is open exactly with a shop, and the shop it shows and every shop passed on, under whatever
language they were picked, fit the list now on show. -/
theorem details_consistent (hroute : route.Drawable) {lang : Lang} {random : ℕ → Fin 5}
    (h : Reach (Screen.step route) Free (.mounted route lang random) s) :
    (s.modalVisible = true ↔ s.selectedStore.isSome = true) ∧
    (∀ card ∈ s.selectedStore, Fits route s.lang s.storeData card) ∧
    ∀ card ∈ s.confirmed, Fits route s.lang s.storeData card := by
  have hs : s.Kept route := h.invariant (.mounted hroute lang random)
    fun _ _ _ hs _ ht => hs.step hroute ht
  obtain ⟨random', hlist⟩ := hs.list
  exact ⟨by rw [hs.modal], fun card hc => (hs.selected card hc).fits hlist,
    fun card hc => (hs.confirmed card hc).fits hlist⟩

/-- Salt is looked for; the details are opened in English and confirmed in French. -/
def saltRoute : Route := ⟨fun _ => id, ["Salt"], salted (some (.num 4))⟩

theorem details_consistent_salt : ∃ s : Screen, s.lang = .fr ∧
    s.confirmed = [saltCard (some (.num 4))] ∧
      Fits saltRoute .fr s.storeData (saltCard (some (.num 4))) := by
  have hroute : saltRoute.Drawable := ⟨_, rfl, by decide⟩
  have hrun : Reach (Screen.step saltRoute) Free (.mounted saltRoute .en fun _ => 0)
      { lang := .fr
        viewMode := .map
        selectedStore := none
        modalVisible := false
        storeData := saltRoute.storeData .fr (fun _ => 4) []
        confirmed := [saltCard (some (.num 4))] } :=
    (((Reach.start.next (a := .openStoreDetails 0) trivial rfl).next
      (a := .switchLanguage .fr fun _ => 4) trivial rfl).next (a := .setViewMode .map) trivial
        rfl).next (a := .confirm) trivial rfl
  exact ⟨_, rfl, rfl, (details_consistent hroute hrun).2.2 _ (List.mem_singleton.mpr rfl)⟩

end IngrediGo.NearbyStores
