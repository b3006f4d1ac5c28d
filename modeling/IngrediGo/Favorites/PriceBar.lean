import IngrediGo.Data.Number
import IngrediGo.Data.Records
import IngrediGo.Favorites.Screen
import Mathlib.Algebra.Order.Field.Basic

/-!
# The price bar

How far the bar of an ingredient is filled, on the Recipe screen and on the Favorites screen.
Both put the average between the lowest and the highest price. `getSliderPosition` tells the
range of one price apart and answers 50; `renderFavoriteItem` divides by its length.
-/

namespace IngrediGo.RecipeScreen

/-- An entry of `ingredientsData`. -/
structure IngredientRow where
  id : String
  name : String
  min : ℚ
  max : ℚ
  current : ℚ
  unit : String
  deriving DecidableEq, Repr

/-- `none` is `NaN` or an infinity. -/
def getSliderPosition (min max current : ℚ) : Option ℚ :=
  if min = max then some 50
  else (Number.div (current - min) (max - min)).map (· * 100)

def ingredientRow (lang : Lang) (ing : Ingredient) : IngredientRow where
  id := ing.name
  name := Js.orElse (Text.get? ing.translation lang) ing.name
  min := Js.orElse (ing.prices.bind (·.min)) 0
  max := Js.orElse (ing.prices.bind (·.max)) 0
  current := Js.orElse (ing.prices.bind (·.avg)) 0
  unit := Js.orElse (ing.prices.bind (·.currency)) "€"

/-- The rows of the recipe's ingredients, or of the single ingredient the screen was opened
for. -/
def ingredientsData (lang : Lang) (recipe : Option Recipe) (ingredient : Option Ingredient) :
    List IngredientRow :=
  match recipe.bind (·.ingredients) with
  | some ingredients => ingredients.map (ingredientRow lang)
  | none =>
    match ingredient with
    | some ingredient => [ingredientRow lang ingredient]
    | none => []

/-- The `sliderPosition` of `renderIngredientItem`. -/
def sliderPosition (item : IngredientRow) : Option ℚ :=
  getSliderPosition item.min item.max item.current

/-- The guard leaves nothing to divide by zero. -/
theorem getSliderPosition_eq {min max : ℚ} (current : ℚ) (h : min ≠ max) :
    getSliderPosition min max current = some ((current - min) / (max - min) * 100) := by
  rw [getSliderPosition, if_neg h, Number.div_some (sub_ne_zero.mpr h.symm)]
  rfl

/-- **The slider stands on its bar**, for every average between the two prices. -/
theorem getSliderPosition_range {min max current : ℚ} (hmin : min ≤ current)
    (hmax : current ≤ max) :
    ∃ position, getSliderPosition min max current = some position ∧
      0 ≤ position ∧ position ≤ 100 := by
  by_cases h : min = max
  · refine ⟨50, if_pos h, ?_, ?_⟩ <;> norm_num
  · have hpos : 0 < max - min := by
      have hlt : min < max := lt_of_le_of_ne (hmin.trans hmax) h
      linarith
    refine ⟨_, getSliderPosition_eq current h, ?_, ?_⟩
    · have h0 : 0 ≤ (current - min) / (max - min) := div_nonneg (by linarith) hpos.le
      linarith
    · have h1 : (current - min) / (max - min) ≤ 1 := (div_le_one hpos).mpr (by linarith)
      linarith

end IngrediGo.RecipeScreen

namespace IngrediGo.FavoritesScreen

/-- What `renderFavoriteItem` shows of a favourite. -/
structure Item where
  checked : Bool
  displayName : Text
  /-- Shown below the name unless it is the name or missing. -/
  localTranslation : Option Text
  minPrice : ℚ
  avgPrice : ℚ
  maxPrice : ℚ
  /-- `none` is `NaN` or an infinity. -/
  progressWidth : Option ℚ
  deriving DecidableEq, Repr

def renderFavoriteItem.displayName (myLanguage : Lang) (item : Favorite) : Text :=
  match item.originalData with
  | some originalData =>
    .plain (Js.orElse (Text.get? originalData.translation myLanguage) originalData.name)
  | none =>
    if myLanguage = .en then .plain item.name
    else Js.orElse item.translation (.plain item.name)

def renderFavoriteItem.localTranslation (localLanguage : Lang) (item : Favorite) : Option Text :=
  match item.originalData with
  | some originalData =>
    let translated := Text.get? originalData.translation localLanguage
    if Js.truthy translated then translated.map .plain
    else if localLanguage = .en then some (.plain originalData.name) else none
  | none =>
    match localLanguage with
    | .fr => item.translation
    | .en => some (.plain item.name)
    | .zh => none

def renderFavoriteItem (myLanguage localLanguage : Lang) (item : Favorite) : Item :=
  let minPrice := Js.orElse (item.prices.bind (·.min)) 0
  let maxPrice := Js.orElse (item.prices.bind (·.max)) 1
  let avgPrice := Js.orElse (item.prices.bind (·.avg)) ((minPrice + maxPrice) / 2)
  let displayName := renderFavoriteItem.displayName myLanguage item
  let localTranslation := renderFavoriteItem.localTranslation localLanguage item
  { checked := isSelected item
    displayName := displayName
    localTranslation := localTranslation.filter fun s => Js.truthy s && s ≠ displayName
    minPrice := minPrice
    avgPrice := avgPrice
    maxPrice := maxPrice
    progressWidth := (Number.div (avgPrice - minPrice) (maxPrice - minPrice)).map (· * 100) }

/-! ## The two bars -/

/-- The price record of three prices, none of them missing. -/
def pricesOf (min avg max : ℚ) (currency : Option String) : Prices :=
  ⟨some min, some max, some avg, currency⟩

/-- The bar of a favourite is well defined, and is the bar of the ingredient. -/
def SameBar (myLanguage localLanguage : Lang) (item : Favorite) (ing : Ingredient) : Prop :=
  ∃ width, (renderFavoriteItem myLanguage localLanguage item).progressWidth = some width ∧
    0 ≤ width ∧ width ≤ 100 ∧
    RecipeScreen.sliderPosition (RecipeScreen.ingredientRow myLanguage ing) = some width

variable {myLanguage localLanguage : Lang} {item : Favorite} {ing : Ingredient} {min avg max : ℚ}
  {currency : Option String}

/-- A price that is not zero is not replaced by a default. -/
theorem orElse_pos {x : ℚ} (fallback : ℚ) (h : 0 < x) : Js.orElse (some x) fallback = x :=
  Js.orElse_of_truthy (decide_eq_true h.ne')

/-- A favourite's bar has the width of its price range to divide by. -/
theorem progressWidth_eq (hitem : item.prices = some (pricesOf min avg max currency))
    (hmin : 0 < min) (havg : 0 < avg) (hmax : 0 < max) :
    (renderFavoriteItem myLanguage localLanguage item).progressWidth =
      (Number.div (avg - min) (max - min)).map (· * 100) := by
  have hminPrice : Js.orElse (item.prices.bind (·.min)) 0 = min := by
    rw [hitem]; exact orElse_pos 0 hmin
  have hmaxPrice : Js.orElse (item.prices.bind (·.max)) 1 = max := by
    rw [hitem]; exact orElse_pos 1 hmax
  have havgPrice : Js.orElse (item.prices.bind (·.avg)) ((min + max) / 2) = avg := by
    rw [hitem]; exact orElse_pos _ havg
  simp only [renderFavoriteItem, hminPrice, hmaxPrice, havgPrice]

theorem sliderPosition_eq (hing : ing.prices = some (pricesOf min avg max currency))
    (hmin : 0 < min) (havg : 0 < avg) (hmax : 0 < max) :
    RecipeScreen.sliderPosition (RecipeScreen.ingredientRow myLanguage ing) =
      RecipeScreen.getSliderPosition min max avg := by
  have hrow : Js.orElse (ing.prices.bind (·.min)) 0 = min ∧
      Js.orElse (ing.prices.bind (·.max)) 0 = max ∧
      Js.orElse (ing.prices.bind (·.avg)) 0 = avg := by
    rw [hing]
    exact ⟨orElse_pos 0 hmin, orElse_pos 0 hmax, orElse_pos 0 havg⟩
  obtain ⟨hminRow, hmaxRow, havgRow⟩ := hrow
  simp only [RecipeScreen.sliderPosition, RecipeScreen.ingredientRow, hminRow, hmaxRow, havgRow]

/-- **The two bars agree exactly when there is a range of prices.** -/
theorem same_bar_iff (hitem : item.prices = some (pricesOf min avg max currency))
    (hing : ing.prices = some (pricesOf min avg max currency))
    (hmin : 0 < min) (hminAvg : min ≤ avg) (hmaxAvg : avg ≤ max) :
    SameBar myLanguage localLanguage item ing ↔ min < max := by
  have havg : 0 < avg := hmin.trans_le hminAvg
  have hmax : 0 < max := havg.trans_le hmaxAvg
  rw [SameBar, progressWidth_eq hitem hmin havg hmax, sliderPosition_eq hing hmin havg hmax]
  constructor
  · rintro ⟨width, hwidth, -⟩
    obtain ⟨quotient, hdiv, -⟩ := Option.map_eq_some_iff.mp hwidth
    have hne : max - min ≠ 0 := Number.div_isSome.mp (by rw [hdiv]; rfl)
    exact lt_of_le_of_ne (hminAvg.trans hmaxAvg) fun h => hne (by rw [h, sub_self])
  · intro hlt
    obtain ⟨position, hposition, h0, h100⟩ :=
      RecipeScreen.getSliderPosition_range hminAvg hmaxAvg
    refine ⟨position, ?_, h0, h100, hposition⟩
    rw [← hposition, RecipeScreen.getSliderPosition, if_neg hlt.ne]

/-- An ingredient at these prices. -/
def priced (min avg max : ℚ) : Ingredient :=
  ⟨none, "Salt", none, some (pricesOf min avg max none), none⟩

/-- The favourite a heart saves of it. -/
def pricedFavorite (min avg max : ℚ) : Favorite :=
  { Favorite.bare (.num 1) with
    name := "Salt"
    prices := some (pricesOf min avg max none)
    originalData := some (priced min avg max) }

theorem same_bar_oneToThree : SameBar .en .fr (pricedFavorite 1 2 3) (priced 1 2 3) :=
  (same_bar_iff rfl rfl (by norm_num) (by norm_num) (by norm_num)).mpr (by norm_num)

/-- With one price the favourite's bar is `NaN%` wide, the ingredient's half full. -/
theorem not_same_bar : ¬ ∀ (myLanguage localLanguage : Lang) (item : Favorite) (ing : Ingredient)
    (min avg max : ℚ) (currency : Option String),
    item.prices = some (pricesOf min avg max currency) →
    ing.prices = some (pricesOf min avg max currency) →
    0 < min → min ≤ avg → avg ≤ max → SameBar myLanguage localLanguage item ing := by
  intro h
  obtain ⟨width, hwidth, -⟩ := h .en .fr (pricedFavorite 2 2 2) (priced 2 2 2) 2 2 2 none rfl rfl
    (by norm_num) (by norm_num) (by norm_num)
  rw [progressWidth_eq rfl (by norm_num) (by norm_num) (by norm_num), Number.div,
    if_pos (sub_self 2)] at hwidth
  cases hwidth

end IngrediGo.FavoritesScreen
