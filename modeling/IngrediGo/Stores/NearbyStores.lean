import IngrediGo.Data.Number
import IngrediGo.Data.Records
import IngrediGo.Lib.Lists
import Mathlib.Data.List.Sort

/-!
# NearbyStores

`processStoreData` of `nearbyStores.tsx`: one card for each shop the recipe's ingredients
name, saying which of the selected items it has. A selected item is a name, and stands for
the first ingredient of that name.
-/

namespace IngrediGo.NearbyStores

/-- What the navigation to a card's Location screen passes on, and what the list shows. -/
structure StoreCard where
  id : String
  name : String
  distance : String
  dotColor : String
  includedIngredients : List String
  nonIncludedIngredients : List String
  /-- `none` is `NaN`. -/
  availabilityPercentage : Option ℤ
  ingredientsText : String
  deriving DecidableEq, Repr

/-- `distances[lang]` -/
def distances : Lang → List String
  | .en => ["500 M", "700 M", "1.2 KM", "2.5 KM", "3 KM"]
  | .fr => ["500 M", "700 M", "1,2 KM", "2,5 KM", "3 KM"]
  | .zh => ["500米", "700米", "1.2公里", "2.5公里", "3公里"]

/-- `random` is the index drawn. -/
def getRandomDistance (lang : Lang) (random : Fin 5) : String :=
  (distances lang).getD random ""

/-- Comparisons with `NaN` fail. -/
def getDotColor : Option ℤ → String
  | some percentage =>
    if percentage ≥ 80 then "#4CAF50" else if percentage ≥ 50 then "#FFC107" else "#FF5722"
  | none => "#FF5722"

/-- `ingredients.find(ing => ing.name === name)` -/
def ingredientNamed (ingredients : List Ingredient) (name : String) : Option Ingredient :=
  ingredients.find? (·.name = name)

/-- `stores.find(s => s.name === storeName)` -/
def storeNamed (stores : List StoreEntry) (storeName : String) : Option StoreEntry :=
  stores.find? (·.name = storeName)

/-- The shops, in the order of their first entry. -/
def allStores (stores : List (List StoreEntry)) : List String :=
  (stores.flatten.map (·.name)).eraseDups

/-- `storeInfo?.available || false` as a condition. -/
def StoreEntry.isAvailable (storeInfo : Option StoreEntry) : Bool :=
  Js.truthy (storeInfo.bind (·.available))

/-- Whether the ingredient named `itemName` is available at `storeName`. -/
def isIncluded (ingredients : List Ingredient) (storeName itemName : String) : Bool :=
  match ingredientNamed ingredients itemName with
  | none => false
  | some ingredient =>
    StoreEntry.isAvailable (storeNamed (ingredient.stores.getD []) storeName)

/-- `Math.round((availableCount / totalSelected) * 100)` -/
def percentage (availableCount totalSelected : Nat) : Option ℤ :=
  if totalSelected = 0 then none
  else some (Number.round ((availableCount : ℚ) / totalSelected * 100))

/-- The card of one shop. -/
def storeCard (t : String → String) (distance : String) (ingredients : List Ingredient)
    (selectedItems : List String) (storeName : String) : StoreCard :=
  let included := selectedItems.filter (isIncluded ingredients storeName)
  let availabilityPercentage := percentage included.length selectedItems.length
  { id := storeName
    name := storeName
    distance := distance
    dotColor := getDotColor availabilityPercentage
    includedIngredients := included
    nonIncludedIngredients := selectedItems.filter (· ∉ included)
    availabilityPercentage := availabilityPercentage
    ingredientsText :=
      toString included.length ++ "/" ++ toString selectedItems.length ++ " " ++
        t "ingredientsAvailable" }

/-- The comparator keeps `a` before `b`: `NaN` counts as no difference. -/
def RanksBefore (a b : StoreCard) : Prop :=
  match a.availabilityPercentage, b.availabilityPercentage with
  | some p, some q => q - p ≤ 0
  | _, _ => True

instance : DecidableRel RanksBefore := fun a b =>
  match ha : a.availabilityPercentage, hb : b.availabilityPercentage with
  | some p, some q => decidable_of_iff (q - p ≤ 0) (by simp [RanksBefore, ha, hb])
  | none, _ => .isTrue (by simp [RanksBefore, ha])
  | some _, none => .isTrue (by simp [RanksBefore, ha, hb])

/-- The lists of shop entries, or `none` when the ingredients or one of the lists is
missing: `forEach` then throws. -/
def storeLists (recipe : Recipe) : Option (List (List StoreEntry)) :=
  recipe.ingredients.bind fun ingredients =>
    if ingredients.all (·.stores.isSome) then some (ingredients.map (·.stores.getD [])) else none

/-- `random i` is what the `i`-th call of `Math.random` draws. -/
def processStoreData (t : String → String) (lang : Lang) (random : Nat → Fin 5)
    (selectedItems : List String) (recipe : Recipe) : Option (List StoreCard) :=
  (storeLists recipe).map fun stores =>
    let processedStores := (allStores stores).mapIdx fun i storeName =>
      storeCard t (getRandomDistance lang (random i)) (recipe.ingredients.getD []) selectedItems
        storeName
    processedStores.insertionSort RanksBefore

/-! ## What the cards say -/

variable {t : String → String} {lang : Lang} {random : Nat → Fin 5} {selectedItems : List String}
  {recipe : Recipe} {cards : List StoreCard}

/-- Every card is the card of some shop. -/
theorem card_eq (h : processStoreData t lang random selectedItems recipe = some cards)
    {card : StoreCard} (hc : card ∈ cards) :
    ∃ distance, card = storeCard t distance (recipe.ingredients.getD []) selectedItems card.name := by
  obtain ⟨stores, -, rfl⟩ := Option.map_eq_some_iff.mp h
  rw [List.mem_insertionSort] at hc
  obtain ⟨i, hi, rfl⟩ := List.mem_mapIdx.mp hc
  exact ⟨_, rfl⟩

/-- The included items are the selected ones the shop has, in the order selected. -/
theorem included_eq (h : processStoreData t lang random selectedItems recipe = some cards)
    {card : StoreCard} (hc : card ∈ cards) :
    card.includedIngredients =
      selectedItems.filter (isIncluded (recipe.ingredients.getD []) card.name) := by
  obtain ⟨distance, he⟩ := card_eq h hc
  exact congrArg StoreCard.includedIngredients he

/-- An included item is an ingredient of the recipe, available at the shop. -/
theorem included_ingredient (h : processStoreData t lang random selectedItems recipe = some cards)
    {card : StoreCard} (hc : card ∈ cards) {itemName : String}
    (hn : itemName ∈ card.includedIngredients) :
    ∃ ingredient, ingredientNamed (recipe.ingredients.getD []) itemName = some ingredient ∧
      ingredient.name = itemName ∧
      StoreEntry.isAvailable (storeNamed (ingredient.stores.getD []) card.name) = true := by
  rw [included_eq h hc, List.mem_filter] at hn
  have hinc := hn.2
  unfold isIncluded at hinc
  split at hinc
  · cases hinc
  · next ingredient hing =>
    exact ⟨ingredient, hing, Lib.Keyed.key_of_find hing, hinc⟩

/-- Cards are drawn exactly when every ingredient has its list of shop entries. -/
theorem processStoreData_isSome :
    (processStoreData t lang random selectedItems recipe).isSome = true ↔
      ∃ ingredients, recipe.ingredients = some ingredients ∧
        ∀ ingredient ∈ ingredients, ingredient.stores.isSome = true := by
  simp only [processStoreData, Option.isSome_map, storeLists]
  cases recipe.ingredients with
  | none => simp
  | some ingredients =>
    simp only [Option.bind_some, Option.some.injEq, exists_eq_left']
    split
    · next h => simpa using h
    · next h => simpa using h

/-- There is one card for each shop. -/
theorem names_perm (h : processStoreData t lang random selectedItems recipe = some cards) :
    ∃ stores, storeLists recipe = some stores ∧ (cards.map (·.name)).Perm (allStores stores) := by
  obtain ⟨stores, hstores, rfl⟩ := Option.map_eq_some_iff.mp h
  refine ⟨stores, hstores, ((List.perm_insertionSort RanksBefore _).map _).trans ?_⟩
  rw [Lib.map_mapIdx_of_leftInverse fun _ _ => rfl]

theorem mem_allStores {stores : List (List StoreEntry)} {storeName : String} :
    storeName ∈ allStores stores ↔ ∃ l ∈ stores, ∃ entry ∈ l, entry.name = storeName := by
  simp only [allStores, List.mem_eraseDups, List.mem_map, List.mem_flatten]
  constructor
  · rintro ⟨entry, ⟨l, hl, he⟩, rfl⟩; exact ⟨l, hl, entry, he, rfl⟩
  · rintro ⟨l, hl, entry, he, rfl⟩; exact ⟨entry, ⟨l, hl, he⟩, rfl⟩

/-- The shops are those the ingredients' entries name. -/
theorem storeLists_mem {stores : List (List StoreEntry)} (h : storeLists recipe = some stores)
    {storeName : String} :
    storeName ∈ allStores stores ↔ ∃ ingredient ∈ recipe.ingredients.getD [],
      ∃ entry ∈ ingredient.stores.getD [], entry.name = storeName := by
  obtain ⟨ingredients, hi, hs⟩ := Option.bind_eq_some_iff.mp h
  rw [Option.ite_none_right_eq_some] at hs
  obtain ⟨-, hs⟩ := hs
  cases hs
  rw [mem_allStores, hi, Option.getD_some]
  simp only [List.mem_map, exists_exists_and_eq_and]

/-- An item is included when the first ingredient of its name has the shop, in its first
entry for it, marked available. -/
theorem isIncluded_iff {ingredients : List Ingredient} {storeName itemName : String} :
    isIncluded ingredients storeName itemName = true ↔
      ∃ ingredient entry, ingredientNamed ingredients itemName = some ingredient ∧
        storeNamed (ingredient.stores.getD []) storeName = some entry ∧
        Js.truthy entry.available = true := by
  unfold isIncluded
  cases ingredientNamed ingredients itemName with
  | none => simp
  | some ingredient =>
    simp only [StoreEntry.isAvailable, Option.some.injEq, exists_and_left, exists_eq_left']
    cases storeNamed (ingredient.stores.getD []) storeName with
    | none => simp [Js.truthy]
    | some entry => simp

/-- The entry that makes an item available also gives the shop its card. -/
theorem card_of_included (h : processStoreData t lang random selectedItems recipe = some cards)
    {itemName : String} (hitem : itemName ∈ selectedItems) {storeName : String}
    (hinc : isIncluded (recipe.ingredients.getD []) storeName itemName = true) :
    ∃ card ∈ cards, card.name = storeName ∧ itemName ∈ card.includedIngredients := by
  obtain ⟨ingredient, entry, hing, hentry, -⟩ := isIncluded_iff.mp hinc
  obtain ⟨stores, hstores, hperm⟩ := names_perm h
  have hcard : storeName ∈ cards.map (·.name) := by
    rw [hperm.mem_iff, storeLists_mem hstores]
    exact ⟨ingredient, List.mem_of_find?_eq_some hing, entry, List.mem_of_find?_eq_some hentry,
      Lib.Keyed.key_of_find hentry⟩
  obtain ⟨card, hc, rfl⟩ := List.mem_map.mp hcard
  refine ⟨card, hc, rfl, ?_⟩
  rw [included_eq h hc]
  exact List.mem_filter.mpr ⟨hitem, hinc⟩

end IngrediGo.NearbyStores
