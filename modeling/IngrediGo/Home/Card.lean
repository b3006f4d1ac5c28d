import IngrediGo.Data.Number
import IngrediGo.Recipe.Bookmark
import IngrediGo.Server

/-!
# Home's recipe cards

`fetchData` and the two card renderers of `home.tsx`. A bookmarked recipe travels from the
Recipe screen, which copies its fields one by one, through the server to Home, which fills
a missing category with a default of its own. The category is not among the fields copied,
so the bookmarked card is the catalogue's exactly when the default happens to be right:
`bookmark_preserves_card_iff`.
-/

namespace IngrediGo.HomeScreen

open RecipeScreen

/-! ## Loading -/

/-- The default category of a bookmarked recipe. -/
def defaultCategory : Lang → String
  | .en => "General"
  | .fr => "Général"
  | .zh => "一般"

/-- `recipe.category || …`, of a category that is no object. -/
def normalizedCategory (category : Option Text) (lang : Lang) : String :=
  match category with
  | some (.plain s) => Js.or s (defaultCategory lang)
  | _ => defaultCategory lang

/-- One recipe of `normalizedRecipes`. -/
def normalize (recipe : Recipe) : Recipe :=
  match recipe.category with
  | some (.perLang _) => recipe
  | category =>
    { recipe with category := some (.perLang
        ⟨normalizedCategory category .en, normalizedCategory category .fr,
          normalizedCategory category .zh⟩) }

/-- The `bookmarkedRecipes` that `fetchData` sets over the catalogue `recipes`. -/
def fetchData (recipes : List Recipe) (response : Response (List Recipe)) : List Recipe :=
  let localBookmarked := recipes.filter (Js.truthy ·.bookmarked)
  -- `recipe.category[lang]` throws before the request is made
  if recipes.any (·.category.isNone) then localBookmarked
  else match response with
    | .ok bookmarkedRecipes => bookmarkedRecipes.map normalize
    | .status _ => localBookmarked
    | .rejected _ => localBookmarked

/-! ## Drawing -/

def calculateAveragePrice (recipe : Recipe) : String :=
  match recipe.ingredients with
  | none => "0.00"
  | some [] => "0.00"
  | some ingredients =>
    Number.toFixed2 (ingredients.map fun ingredient =>
      Js.orElse (ingredient.prices.bind (·.avg)) 0).sum

/-- What a card shows. -/
structure Card where
  image : Option String
  title : Text
  price : String
  category : Text
  deriving DecidableEq, Repr

/-- `text?.[lang] || text || fallback` -/
def textIn (lang : Lang) (text : Option Text) (fallback : String) : Text :=
  Js.orElse ((Text.get? text lang).map .plain) (Js.orElse text (.plain fallback))

/-- The card of a recipe, with the texts for a recipe without name or category. -/
def renderCard (lang : Lang) (unnamed uncategorized : String) (recipe : Recipe) : Card where
  image := recipe.images.bind (·.main)
  title := textIn lang recipe.name unnamed
  price := "€" ++ calculateAveragePrice recipe
  category := textIn lang recipe.category uncategorized

/-- The card of a catalogue recipe. `t` translates the interface's texts. -/
def renderRecipeCard (t : String → String) (lang : Lang) (recipe : Recipe) : Card :=
  renderCard lang (t "Unnamed Recipe") (t "Uncategorized") recipe

/-- The card of a bookmarked recipe. -/
def renderRecipeCard2 (t : String → String) (lang : Lang) (recipe : Recipe) : Card :=
  renderCard lang (t "unnamed_recipe") (t "uncategorized") recipe

/-! ## A bookmarked recipe's card -/

/-- The records of `recipe` that Home loads after a tap that bookmarks it in the list `file`. -/
def loadedAs (recipes file : List Recipe) (recipe : Recipe) : List Recipe :=
  let posted := (Server.post file (toggleBookmark.updated recipe true file) .answered).1
  (fetchData recipes (Server.get posted .answered)).filter (·.id = recipe.id)

@[simp] theorem normalize_id (recipe : Recipe) : (normalize recipe).id = recipe.id := by
  unfold normalize; split <;> rfl

theorem fetchData_ok {recipes : List Recipe} (h : ∀ r ∈ recipes, r.category ≠ none)
    (file : List Recipe) : fetchData recipes (.ok file) = file.map normalize := by
  have hnone : ¬ recipes.any (·.category.isNone) = true := by
    rw [List.any_eq_true]
    rintro ⟨r, hr, hc⟩
    exact h r hr (Option.isNone_iff_eq_none.mp hc)
  simp only [fetchData, if_neg hnone]

/-- Home loads one record of a recipe just bookmarked: the one saved, normalized. -/
theorem loadedAs_new {recipes file : List Recipe} {recipe : Recipe}
    (hcatalogue : ∀ r ∈ recipes, r.category ≠ none) (hnew : recipe.id ∉ bookmarkedIds file) :
    loadedAs recipes file recipe = [normalize (toggleBookmark.recipeToSave recipe)] := by
  have hposted : toggleBookmark.updated recipe true file =
      file ++ [toggleBookmark.recipeToSave recipe] := by
    have hb : isBookmarked file recipe = false :=
      Bool.eq_false_iff.mpr fun h => hnew (isBookmarked_iff.mp h)
    simp [toggleBookmark.updated, hb]
  have hold : (file.map normalize).filter (·.id = recipe.id) = [] := by
    rw [List.filter_eq_nil_iff]
    intro r' hr' hid
    obtain ⟨r, hr, rfl⟩ := List.mem_map.mp hr'
    rw [decide_eq_true_eq, normalize_id] at hid
    exact hnew (hid ▸ List.mem_map_of_mem hr)
  have hload : fetchData recipes (Server.get (Server.post file
      (toggleBookmark.updated recipe true file) .answered).1 .answered) =
      (file ++ [toggleBookmark.recipeToSave recipe]).map normalize := by
    rw [hposted]; exact fetchData_ok hcatalogue _
  show List.filter _ _ = _
  rw [hload, List.map_append, List.filter_append, hold]
  simp

/-- A text given as an object never falls back to the interface's text. -/
theorem textIn_perLang (lang : Lang) (tr : Translations) (fallback : String) :
    textIn lang (some (.perLang tr)) fallback =
      Js.orElse ((tr.get lang).map .plain) (.perLang tr) := rfl

/-- The saved record's card: the catalogue's, but for the category. -/
theorem savedCard (t : String → String) (lang : Lang) {recipe : Recipe} {name : Translations}
    (hname : recipe.name = some (.perLang name)) :
    renderRecipeCard2 t lang (normalize (toggleBookmark.recipeToSave recipe)) =
      { renderRecipeCard t lang recipe with category := .plain (defaultCategory lang) } := by
  have hcategory : textIn lang (normalize (toggleBookmark.recipeToSave recipe)).category
      (t "uncategorized") = .plain (defaultCategory lang) := by
    cases lang <;> rfl
  simp only [renderRecipeCard2, renderRecipeCard, renderCard, hcategory]
  congr 1
  show textIn lang recipe.name _ = textIn lang recipe.name _
  rw [hname, textIn_perLang, textIn_perLang]

/-- A text shown as a plain text is the one given in the language. -/
theorem textIn_eq_plain {lang : Lang} {tr : Translations} {s : String} (fallback : String)
    (hs : s ≠ "") :
    textIn lang (some (.perLang tr)) fallback = .plain s ↔ tr.get lang = some s := by
  rw [textIn_perLang]
  cases htr : tr.get lang with
  | none =>
    rw [Option.map_none, Js.orElse_of_falsy rfl]
    simp
  | some s' =>
    rw [Option.map_some]
    by_cases hs' : s' = ""
    · subst hs'
      rw [Js.orElse_of_falsy (by simp [Js.truthy])]
      simp [Ne.symm hs]
    · rw [Js.orElse_of_truthy (by simp [Js.truthy, hs'])]
      simp

/-- **Bookmarking preserves a recipe's card** if and only if the catalogue's category is
the default. -/
theorem bookmark_preserves_card_iff (t : String → String) (lang : Lang)
    {recipes file : List Recipe} {recipe : Recipe} {name category : Translations}
    (hcatalogue : ∀ r ∈ recipes, r.category ≠ none)
    (hname : recipe.name = some (.perLang name))
    (hcategory : recipe.category = some (.perLang category))
    (hnew : recipe.id ∉ bookmarkedIds file) :
    (loadedAs recipes file recipe).map (renderRecipeCard2 t lang) =
        [renderRecipeCard t lang recipe] ↔
      category.get lang = some (defaultCategory lang) := by
  have hne : defaultCategory lang ≠ "" := by cases lang <;> decide
  rw [loadedAs_new hcatalogue hnew, List.map_singleton, savedCard t lang hname,
    ← textIn_eq_plain (t "Uncategorized") hne, ← hcategory, List.singleton_inj]
  constructor
  · intro h
    exact (congrArg Card.category h).symm
  · intro h
    show ({ renderRecipeCard t lang recipe with category := _ } : Card) = _
    rw [← h]
    rfl

/-- A catalogue recipe of one ingredient, with the same category text in every language. -/
def soup (category : String) : Recipe where
  id := some (.num 1)
  name := some (.perLang ⟨some "Soup", some "Soupe", some "汤"⟩)
  images := some ⟨some "soup.png", none, none⟩
  description := none
  ingredients := some [⟨none, "Leek", none, some ⟨none, none, some 2, none⟩, none⟩]
  category := some (.perLang ⟨some category, some category, some category⟩)
  bookmarked := none

theorem bookmark_preserves_card_soup :
    (loadedAs [soup "General"] [] (soup "General")).map (renderRecipeCard2 id .en) =
      [renderRecipeCard id .en (soup "General")] :=
  (bookmark_preserves_card_iff id .en (by simp [soup]) rfl rfl (by simp [bookmarkedIds])).mpr rfl

/-- A recipe that is not filed under the default. -/
theorem not_bookmark_preserves_card : ¬ ∀ (t : String → String) (lang : Lang)
    (recipes file : List Recipe) (recipe : Recipe) (name category : Translations),
    recipe ∈ recipes → (∀ r ∈ recipes, r.category ≠ none) →
    recipe.name = some (.perLang name) → recipe.category = some (.perLang category) →
    (∀ l, ∃ s, category.get l = some s ∧ s ≠ "") → recipe.id ∉ bookmarkedIds file →
    (loadedAs recipes file recipe).map (renderRecipeCard2 t lang) =
      [renderRecipeCard t lang recipe] := by
  intro h
  have hcard := h id .en [soup "Starters"] [] (soup "Starters") _ _ (List.mem_singleton.mpr rfl)
    (by simp [soup]) rfl rfl (fun l => ⟨"Starters", by cases l <;> rfl, by decide⟩)
    (by simp [bookmarkedIds])
  have hcategory := congrArg (·.map Card.category) hcard
  revert hcategory
  decide

end IngrediGo.HomeScreen
