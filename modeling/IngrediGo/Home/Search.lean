import IngrediGo.Data.Records
import IngrediGo.Lib.Order
import IngrediGo.Stores.Location

/-!
# Searching on Home

`handleSearch` of `home.tsx` and the suggestions it leads to. An ingredient that several
recipes have stands for the record of the first of them: duplicates are dropped by name
before any translation is looked at (`search_first_records`), so a name whose first record
lacks a translation is not found under the others' (`search_complete_iff`).
-/

namespace IngrediGo.HomeScreen

open Lib LocationScreen

structure Suggestions where
  recipes : List Recipe
  ingredients : List Ingredient
  deriving DecidableEq, Repr

/-- `recipeData.recipes.flatMap(recipe => recipe.ingredients)`, or `none` if a recipe has
none: reading the name of `undefined` throws. -/
def allIngredients (recipes : List Recipe) : Option (List Ingredient) :=
  (recipes.mapM Recipe.ingredients).map List.flatten

/-- The name of a recipe contains the query; reading a missing name throws. -/
def recipeMatches (toLowerCase : String → String) (lang : Lang) (query : String)
    (recipe : Recipe) : Option Bool :=
  (Text.get? recipe.name lang).map fun name => includes (toLowerCase name) (toLowerCase query)

/-- `ingredient.translation?.[lang]?.toLowerCase().includes(query.toLowerCase())` -/
def ingredientMatches (toLowerCase : String → String) (lang : Lang) (query : String)
    (ingredient : Ingredient) : Bool :=
  (Text.get? ingredient.translation lang).any fun translation =>
    includes (toLowerCase translation) (toLowerCase query)

/-- `Array.from(new Set(names)).map(name => allIngredients.find(i => i.name === name))`; each
name is found. -/
def uniqueIngredients (allIngredients : List Ingredient) : List Ingredient :=
  (allIngredients.map (·.name)).eraseDups.filterMap fun name =>
    allIngredients.find? (·.name = name)

/-- The suggestions `handleSearch` sets over the catalogue `recipes`, or `none` if it
throws. -/
def handleSearch (toLowerCase : String → String) (recipes : List Recipe) (lang : Lang)
    (query : String) : Option Suggestions :=
  if query = "" then some ⟨[], []⟩
  else do
    let matching ← recipes.filterM (recipeMatches toLowerCase lang query)
    let allIngredients ← allIngredients recipes
    return {
      recipes := matching
      ingredients :=
        (uniqueIngredients allIngredients).filter (ingredientMatches toLowerCase lang query) }

/-- What a suggested ingredient shows. -/
structure SuggestionItem where
  text : String
  foundIn : Nat
  deriving DecidableEq, Repr

/-- `renderSuggestionItem` in the section of the ingredients, where all recipes have theirs;
`none` if there is no text to show. -/
def renderSuggestionItem (recipes : List Recipe) (lang : Lang) (item : Ingredient) :
    Option SuggestionItem :=
  (Text.get? item.translation lang).map fun text =>
    { text := text
      foundIn := (recipes.filter fun r =>
        (r.ingredients.getD []).any (·.name = item.name)).length }

/-! ## What is suggested -/

/-- The ingredients of the catalogue, repetitions included. -/
def catalogue (recipes : List Recipe) : List Ingredient :=
  recipes.flatMap (·.ingredients.getD [])

def catalogueNames (recipes : List Recipe) : List String := (catalogue recipes).map (·.name)

variable {toLowerCase : String → String} {recipes : List Recipe} {lang : Lang} {query : String}
  {suggestions : Suggestions}

theorem flatten_eq {lists : List (List Ingredient)}
    (h : recipes.mapM Recipe.ingredients = some lists) : lists.flatten = catalogue recipes := by
  induction recipes generalizing lists with
  | nil => cases h; rfl
  | cons recipe recipes ih =>
    rw [List.mapM_cons] at h
    obtain ⟨ingredients, hi, h⟩ := Option.bind_eq_some_iff.mp h
    obtain ⟨rest, hrest, h⟩ := Option.bind_eq_some_iff.mp h
    cases h
    rw [List.flatten_cons, ih hrest, catalogue, catalogue, List.flatMap_cons, hi, Option.getD_some]

theorem ingredients_eq (h : handleSearch toLowerCase recipes lang query = some suggestions)
    (hq : query ≠ "") :
    suggestions.ingredients = (Keyed.firsts (·.name) (catalogue recipes)).filter
      (ingredientMatches toLowerCase lang query) := by
  rw [handleSearch, if_neg hq] at h
  obtain ⟨matching, -, h⟩ := Option.bind_eq_some_iff.mp h
  obtain ⟨ingredients, hall, h⟩ := Option.bind_eq_some_iff.mp h
  obtain ⟨lists, hlists, rfl⟩ := Option.map_eq_some_iff.mp hall
  cases h
  rw [flatten_eq hlists]
  rfl

theorem mem_catalogue {ingredient : Ingredient} :
    ingredient ∈ catalogue recipes ↔
      ∃ recipe ∈ recipes, ingredient ∈ recipe.ingredients.getD [] := List.mem_flatMap

/-- The suggestions are the first records that match. -/
theorem mem_suggested (h : handleSearch toLowerCase recipes lang query = some suggestions)
    (hq : query ≠ "") {ingredient : Ingredient} :
    ingredient ∈ suggestions.ingredients ↔
      (catalogue recipes).find? (·.name = ingredient.name) = some ingredient ∧
        ingredientMatches toLowerCase lang query ingredient = true := by
  rw [ingredients_eq h hq, List.mem_filter, Keyed.mem_firsts]

theorem mem_suggested_names (h : handleSearch toLowerCase recipes lang query = some suggestions)
    (hq : query ≠ "") {name : String} :
    name ∈ suggestions.ingredients.map (·.name) ↔
      ∃ first, (catalogue recipes).find? (·.name = name) = some first ∧
        ingredientMatches toLowerCase lang query first = true := by
  rw [List.mem_map]
  constructor
  · rintro ⟨ingredient, hin, rfl⟩
    exact ⟨ingredient, (mem_suggested h hq).mp hin⟩
  · rintro ⟨first, hfirst, hmatch⟩
    obtain rfl : first.name = name := Keyed.key_of_find hfirst
    exact ⟨first, (mem_suggested h hq).mpr ⟨hfirst, hmatch⟩, rfl⟩

/-- Every suggestion can be drawn: it has a text, which contains the query, and is found in
some recipe. -/
theorem suggested_rendered (h : handleSearch toLowerCase recipes lang query = some suggestions)
    (hq : query ≠ "") {ingredient : Ingredient} (hin : ingredient ∈ suggestions.ingredients) :
    ∃ item, renderSuggestionItem recipes lang ingredient = some item ∧
      includes (toLowerCase item.text) (toLowerCase query) = true ∧ 0 < item.foundIn := by
  obtain ⟨hfirst, hmatch⟩ := (mem_suggested h hq).mp hin
  obtain ⟨recipe, hrecipe, hi⟩ := mem_catalogue.mp (List.mem_of_find?_eq_some hfirst)
  unfold ingredientMatches at hmatch
  unfold renderSuggestionItem
  cases htext : Text.get? ingredient.translation lang with
  | none =>
    rw [htext] at hmatch
    cases hmatch
  | some text =>
    rw [htext] at hmatch
    refine ⟨_, rfl, hmatch, List.length_pos_of_mem (List.mem_filter.mpr ⟨hrecipe, ?_⟩)⟩
    exact List.any_eq_true.mpr ⟨ingredient, hi, by simp⟩

/-- **The search finds first records**: one suggestion for each name whose first record has a
translation with the query in it, in the order of the catalogue, and no other. -/
theorem search_first_records
    (h : handleSearch toLowerCase recipes lang query = some suggestions) (hq : query ≠ "") :
    (suggestions.ingredients.map (·.name)).Nodup ∧
    (∀ name, name ∈ suggestions.ingredients.map (·.name) ↔
      ∃ first, (catalogue recipes).find? (·.name = name) = some first ∧
        ingredientMatches toLowerCase lang query first = true) ∧
    (∀ ingredient ∈ suggestions.ingredients,
      (catalogue recipes).find? (·.name = ingredient.name) = some ingredient) ∧
    suggestions.ingredients.Pairwise fun a b =>
      (catalogueNames recipes).idxOf a.name < (catalogueNames recipes).idxOf b.name := by
  refine ⟨?_, fun name => mem_suggested_names h hq,
    fun ingredient hin => ((mem_suggested h hq).mp hin).1, ?_⟩
  · rw [ingredients_eq h hq]
    refine Keyed.nodup_keys_filter ?_
    rw [Keyed.map_firsts]
    exact nodup_eraseDups _
  · rw [ingredients_eq h hq]
    exact (Keyed.firsts_pairwise _ _).filter _

/-- **The search is complete** exactly when no name is found by a later record alone. -/
theorem search_complete_iff
    (h : handleSearch toLowerCase recipes lang query = some suggestions) (hq : query ≠ "") :
    (∀ name, name ∈ suggestions.ingredients.map (·.name) ↔
      ∃ ingredient ∈ catalogue recipes, ingredient.name = name ∧
        ingredientMatches toLowerCase lang query ingredient = true) ↔
    ∀ ingredient ∈ catalogue recipes,
      ingredientMatches toLowerCase lang query ingredient = true →
      ∃ first, (catalogue recipes).find? (·.name = ingredient.name) = some first ∧
        ingredientMatches toLowerCase lang query first = true := by
  constructor
  · intro hcomplete ingredient hin hmatch
    have hfound := (hcomplete ingredient.name).mpr ⟨ingredient, hin, rfl, hmatch⟩
    exact (mem_suggested_names h hq).mp hfound
  · intro hfirsts name
    rw [mem_suggested_names h hq]
    constructor
    · rintro ⟨first, hfirst, hmatch⟩
      exact ⟨first, List.mem_of_find?_eq_some hfirst, Keyed.key_of_find hfirst, hmatch⟩
    · rintro ⟨ingredient, hin, rfl, hmatch⟩
      exact hfirsts ingredient hin hmatch

/-- A recipe with salt, translated as given. -/
def saltIn (translation : Option Text) : Recipe :=
  { Recipe.bare (.num 1) with
    name := some (.perLang ⟨some "Soup", some "Soupe", some "汤"⟩)
    ingredients := some [⟨none, "Salt", translation, none, none⟩] }

/-- `Sel`, in French. -/
def sel : Text := .perLang ⟨none, some "Sel", none⟩

theorem search_first_records_salt : ∃ suggestions,
    handleSearch id [saltIn (some sel), saltIn none] .fr "Sel" = some suggestions ∧
      suggestions.ingredients.map (·.name) = ["Salt"] ∧
      (suggestions.ingredients.map (·.name)).Nodup := by
  have hsearch : handleSearch id [saltIn (some sel), saltIn none] .fr "Sel" =
      some ⟨[], [⟨none, "Salt", some sel, none, none⟩]⟩ := by decide
  exact ⟨_, hsearch, rfl, (search_first_records hsearch (by decide)).1⟩

/-- Salt has a French name in the second recipe only, and is not found by it. -/
theorem not_search_complete : ¬ ∀ (toLowerCase : String → String) (recipes : List Recipe)
    (lang : Lang) (query : String) (suggestions : Suggestions),
    handleSearch toLowerCase recipes lang query = some suggestions → query ≠ "" →
      (suggestions.ingredients.map (·.name)).Nodup ∧
      (∀ name, name ∈ suggestions.ingredients.map (·.name) ↔
        ∃ ingredient ∈ catalogue recipes, ingredient.name = name ∧
          ingredientMatches toLowerCase lang query ingredient = true) ∧
      suggestions.ingredients.Pairwise fun a b =>
        (catalogueNames recipes).idxOf a.name < (catalogueNames recipes).idxOf b.name := by
  intro h
  have hsearch : handleSearch id [saltIn none, saltIn (some sel)] .fr "Sel" =
      some ⟨[], []⟩ := by decide
  obtain ⟨-, hcomplete, -⟩ := h _ _ _ _ _ hsearch (by decide)
  have hfound := (hcomplete "Salt").mpr
    ⟨⟨none, "Salt", some sel, none, none⟩, by decide, rfl, by decide⟩
  exact absurd hfound (by decide)

end IngrediGo.HomeScreen
