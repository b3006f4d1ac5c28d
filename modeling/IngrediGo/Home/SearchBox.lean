import IngrediGo.Home.Search
import IngrediGo.Lib.Runs

/-!
# The search box

The search box of `home.tsx` with its two timers: leaving the box closes the suggestions 200 ms
later, and a press on a suggestion closes them at once but navigates, and clears the box, only
after 50 ms. In between the box can be typed in, cleared, left and entered again, and the
language changed; suggestions are those of the language they were typed in.

`search_box`: over any run the suggestions are those of the text in the box, every press leads
to one navigation, in the order pressed, and to something the text in the box was found in.
-/

namespace IngrediGo.HomeScreen

open Lib LocationScreen

/-- What the navigation to a Recipe screen passes on. -/
inductive Target where
  | recipe (recipe : Recipe)
  | ingredient (ingredient : Ingredient)
  deriving DecidableEq, Repr

structure SearchBox where
  lang : Lang
  searchQuery : String
  suggestions : Suggestions
  isSearchFocused : Bool
  /-- The presses whose timers are running, in the order they were set. -/
  presses : List Target
  /-- How many timers of `onBlur` are running. -/
  blurs : ℕ
  /-- The navigations made. -/
  opened : List Target
  deriving DecidableEq, Repr

namespace SearchBox

def initial (lang : Lang) : SearchBox := ⟨lang, "", ⟨[], []⟩, false, [], 0, []⟩

inductive Act where
  | switchLanguage (lang : Lang)
  /-- `onChangeText` -/
  | type (query : String)
  | focus
  | blur
  | clear
  | pressRecipe (i : ℕ)
  | pressIngredient (i : ℕ)
  /-- The timer of the first press not yet carried out. -/
  | pressTimer
  | blurTimer
  deriving DecidableEq, Repr

/-- `isSearchFocused && hasSuggestions`: the list is on show. -/
def shown (s : SearchBox) : Bool :=
  s.isSearchFocused && (s.suggestions.recipes.length > 0 || s.suggestions.ingredients.length > 0)

/-- `handleSuggestionPress(item, isIngredient)` -/
def press (s : SearchBox) (item : Target) : SearchBox :=
  { s with isSearchFocused := false, presses := s.presses ++ [item] }

/-- The box and its suggestions are emptied. -/
def cleared (s : SearchBox) : SearchBox :=
  { s with searchQuery := "", suggestions := ⟨[], []⟩ }

def step (toLowerCase : String → String) (recipes : List Recipe) (s : SearchBox) :
    Act → Option SearchBox
  | .switchLanguage lang => some { s with lang := lang }
  | .type query =>
    match handleSearch toLowerCase recipes s.lang query with
    | some suggestions => some { s with searchQuery := query, suggestions := suggestions }
    -- the search threw after the text was set
    | none => some { s with searchQuery := query }
  | .focus => some { s with isSearchFocused := true }
  | .blur => some { s with blurs := s.blurs + 1 }
  | .clear => if s.searchQuery = "" then none else some s.cleared
  | .pressRecipe i =>
    if s.shown then s.suggestions.recipes[i]?.map (s.press ∘ .recipe) else none
  | .pressIngredient i =>
    if s.shown then s.suggestions.ingredients[i]?.map (s.press ∘ .ingredient) else none
  | .pressTimer =>
    match s.presses with
    | item :: presses =>
      some { s.cleared with presses := presses, opened := s.opened ++ [item] }
    | [] => none
  | .blurTimer =>
    if s.blurs = 0 then none else some { s with isSearchFocused := false, blurs := s.blurs - 1 }

end SearchBox

/-! ## What is pressed -/

/-- A press: the item, the text in the box and the language it was typed in. -/
structure Press where
  item : Target
  query : String
  lang : Lang
  deriving DecidableEq, Repr

/-- The language the box was typed in last, and the presses so far. -/
structure Log where
  typedIn : Lang
  pressed : List Press
  deriving DecidableEq, Repr

/-- The log after a press on `item`, if there is one. -/
def Log.press (log : Log) (s : SearchBox) (item : Option Target) : Log :=
  { log with pressed := log.pressed ++ (item.map fun item =>
      Press.mk item s.searchQuery log.typedIn).toList }

def noteSearch (s : SearchBox) (a : SearchBox.Act) (log : Log) : Log :=
  match a with
  | .type _ => { log with typedIn := s.lang }
  | .pressRecipe i => log.press s (s.suggestions.recipes[i]?.map .recipe)
  | .pressIngredient i => log.press s (s.suggestions.ingredients[i]?.map .ingredient)
  | _ => log

abbrev Searching := SearchBox × Log

def Searching.step (toLowerCase : String → String) (recipes : List Recipe) :
    Searching → SearchBox.Act → Option Searching :=
  withHistory (SearchBox.step toLowerCase recipes) noteSearch

def Searching.start (lang : Lang) : Searching := (.initial lang, ⟨lang, []⟩)

/-- Every recipe has a name in every language, and ingredients: no search throws. -/
structure Searchable (recipes : List Recipe) : Prop where
  named : ∀ r ∈ recipes, ∀ lang, (Text.get? r.name lang).isSome = true
  listed : ∀ r ∈ recipes, r.ingredients.isSome = true

/-- What was pressed is of the catalogue, and the text in the box was found in it. -/
def Press.Found (toLowerCase : String → String) (recipes : List Recipe) (p : Press) : Prop :=
  match p.item with
  | .recipe r => r ∈ recipes ∧ recipeMatches toLowerCase p.lang p.query r = some true
  | .ingredient i => (catalogue recipes).find? (·.name = i.name) = some i ∧
      ingredientMatches toLowerCase p.lang p.query i = true

section

variable {toLowerCase : String → String} {recipes : List Recipe} {lang : Lang} {query : String}
  {suggestions : Suggestions}

/-- A search of such a catalogue comes out, and finds the recipes whose names match. -/
theorem handleSearch_spec (h : Searchable recipes) (toLowerCase : String → String) (lang : Lang)
    {query : String} (hq : query ≠ "") :
    ∃ suggestions, handleSearch toLowerCase recipes lang query = some suggestions ∧
      ∀ r, r ∈ suggestions.recipes ↔
        r ∈ recipes ∧ recipeMatches toLowerCase lang query r = some true := by
  obtain ⟨matching, hmatching, hmem⟩ := filterM_spec (p := recipeMatches toLowerCase lang query)
    (l := recipes) fun r hr => by rw [recipeMatches, Option.isSome_map]; exact h.named r hr lang
  obtain ⟨lists, hlists⟩ := mapM_isSome (f := Recipe.ingredients) h.listed
  refine ⟨⟨matching, (uniqueIngredients lists.flatten).filter
    (ingredientMatches toLowerCase lang query)⟩, ?_, hmem⟩
  rw [handleSearch, if_neg hq, hmatching, allIngredients, hlists]
  rfl

theorem handleSearch_isSome (h : Searchable recipes) (toLowerCase : String → String) (lang : Lang)
    (query : String) :
    ∃ suggestions, handleSearch toLowerCase recipes lang query = some suggestions := by
  by_cases hq : query = ""
  · exact ⟨⟨[], []⟩, if_pos hq⟩
  · obtain ⟨suggestions, hs, -⟩ := handleSearch_spec h toLowerCase lang hq
    exact ⟨suggestions, hs⟩

/-- Nothing is suggested for an empty box. -/
theorem query_ne_empty (h : handleSearch toLowerCase recipes lang query = some suggestions)
    (hsome : suggestions ≠ ⟨[], []⟩) : query ≠ "" := by
  rintro rfl
  rw [handleSearch, if_pos rfl] at h
  exact hsome (Option.some.inj h).symm

theorem found_recipe (hcatalogue : Searchable recipes)
    (h : handleSearch toLowerCase recipes lang query = some suggestions) {r : Recipe}
    (hr : r ∈ suggestions.recipes) :
    query ≠ "" ∧ Press.Found toLowerCase recipes ⟨.recipe r, query, lang⟩ := by
  have hq : query ≠ "" := query_ne_empty h (by rintro rfl; cases hr)
  obtain ⟨_, hs, hmem⟩ := handleSearch_spec hcatalogue toLowerCase lang hq
  cases h.symm.trans hs
  exact ⟨hq, (hmem r).mp hr⟩

theorem found_ingredient
    (h : handleSearch toLowerCase recipes lang query = some suggestions) {i : Ingredient}
    (hi : i ∈ suggestions.ingredients) :
    query ≠ "" ∧ Press.Found toLowerCase recipes ⟨.ingredient i, query, lang⟩ := by
  have hq : query ≠ "" := query_ne_empty h (by rintro rfl; cases hi)
  exact ⟨hq, (mem_suggested h hq).mp hi⟩

end

/-! ## Runs -/

/-- What every run keeps. -/
structure Searched (toLowerCase : String → String) (recipes : List Recipe) (p : Searching) :
    Prop where
  suggestions : handleSearch toLowerCase recipes p.2.typedIn p.1.searchQuery =
    some p.1.suggestions
  pressed : p.2.pressed.map (·.item) = p.1.opened ++ p.1.presses
  found : ∀ press ∈ p.2.pressed, press.query ≠ "" ∧ press.Found toLowerCase recipes

variable {toLowerCase : String → String} {recipes : List Recipe} {lang : Lang}
  {p q : Searching} {a : SearchBox.Act}

theorem Searched.start : Searched toLowerCase recipes (Searching.start lang) where
  suggestions := if_pos rfl
  pressed := rfl
  found press hp := by cases hp

/-- A press on an item of the list, which is logged and sets its timer. -/
theorem Searched.press (h : Searched toLowerCase recipes p) {item : Target}
    (hfound : p.1.searchQuery ≠ "" ∧
      Press.Found toLowerCase recipes ⟨item, p.1.searchQuery, p.2.typedIn⟩) :
    Searched toLowerCase recipes (p.1.press item, p.2.press p.1 (some item)) where
  suggestions := h.suggestions
  pressed := by
    show (p.2.pressed ++ [_]).map Press.item = p.1.opened ++ (p.1.presses ++ [item])
    rw [List.map_append, h.pressed, List.append_assoc]
    rfl
  found press hp := by
    rcases List.mem_append.mp hp with hp | hp
    · exact h.found press hp
    · rw [List.mem_singleton.mp hp]
      exact hfound

/-- The step lemma. -/
theorem Searched.step (hcatalogue : Searchable recipes) (h : Searched toLowerCase recipes p)
    (hs : Searching.step toLowerCase recipes p a = some q) :
    Searched toLowerCase recipes q := by
  obtain ⟨hstep, hlog⟩ := withHistory_some.mp hs
  obtain ⟨s, log⟩ := q
  cases a with
  | switchLanguage lang =>
    cases hstep; cases hlog
    exact ⟨h.suggestions, h.pressed, h.found⟩
  | type query =>
    cases hlog
    obtain ⟨suggestions, hsearch⟩ := handleSearch_isSome hcatalogue toLowerCase
      p.1.lang query
    simp only [SearchBox.step, hsearch, Option.some.injEq] at hstep
    cases hstep
    exact ⟨hsearch, h.pressed, h.found⟩
  | focus =>
    cases hstep; cases hlog
    exact ⟨h.suggestions, h.pressed, h.found⟩
  | blur =>
    cases hstep; cases hlog
    exact ⟨h.suggestions, h.pressed, h.found⟩
  | clear =>
    cases hlog
    simp only [SearchBox.step, Option.ite_none_left_eq_some, Option.some.injEq] at hstep
    obtain ⟨-, rfl⟩ := hstep
    exact ⟨if_pos rfl, h.pressed, h.found⟩
  | pressRecipe i =>
    cases hlog
    simp only [SearchBox.step, Option.ite_none_right_eq_some] at hstep
    obtain ⟨-, hstep⟩ := hstep
    obtain ⟨r, hr, rfl⟩ := Option.map_eq_some_iff.mp hstep
    simp only [hr, Option.map_some]
    exact h.press (found_recipe hcatalogue h.suggestions (List.mem_of_getElem? hr))
  | pressIngredient i =>
    cases hlog
    simp only [SearchBox.step, Option.ite_none_right_eq_some] at hstep
    obtain ⟨-, hstep⟩ := hstep
    obtain ⟨ingredient, hi, rfl⟩ := Option.map_eq_some_iff.mp hstep
    simp only [hi, Option.map_some]
    exact h.press (found_ingredient h.suggestions (List.mem_of_getElem? hi))
  | pressTimer =>
    cases hlog
    simp only [SearchBox.step] at hstep
    split at hstep
    · next item presses hpresses =>
      cases hstep
      refine ⟨if_pos rfl, ?_, h.found⟩
      show p.2.pressed.map Press.item = p.1.opened ++ [item] ++ presses
      rw [h.pressed, hpresses, List.append_assoc]
      rfl
    · cases hstep
  | blurTimer =>
    cases hlog
    simp only [SearchBox.step, Option.ite_none_left_eq_some, Option.some.injEq] at hstep
    obtain ⟨-, rfl⟩ := hstep
    exact ⟨h.suggestions, h.pressed, h.found⟩

/-- **The search box** over any run: the suggestions are those of the text in the box, in the
language it was typed in; every press on one leads to one navigation, in the order of the
presses; and what was pressed is of the catalogue and was found by the text then in the box. -/
theorem search_box (hcatalogue : Searchable recipes)
    (h : Reach (Searching.step toLowerCase recipes) Free (Searching.start lang) p) :
    handleSearch toLowerCase recipes p.2.typedIn p.1.searchQuery = some p.1.suggestions ∧
    p.2.pressed.map (·.item) = p.1.opened ++ p.1.presses ∧
    ∀ press ∈ p.2.pressed, press.query ≠ "" ∧ press.Found toLowerCase recipes := by
  have hp : Searched toLowerCase recipes p :=
    h.invariant .start fun _ _ _ hp _ hs => hp.step hcatalogue hs
  exact ⟨hp.suggestions, hp.pressed, hp.found⟩

/-- Salt is found in French and pressed; the box is typed in again before the timer is over. -/
def pressSalt : List SearchBox.Act :=
  [.switchLanguage .fr, .focus, .type "Sel", .pressIngredient 0, .switchLanguage .en, .focus,
    .type "Soup", .pressTimer, .blur, .blurTimer]

theorem search_box_salt : ∃ p : Searching,
    p.1.opened = [.ingredient ⟨none, "Salt", some sel, none, none⟩] ∧
      p.2.pressed.map (·.item) = p.1.opened ++ p.1.presses := by
  have hcatalogue : Searchable [saltIn (some sel)] := by
    refine ⟨fun r hr lang => ?_, fun r hr => ?_⟩
    · cases List.mem_singleton.mp hr
      cases lang <;> rfl
    · cases List.mem_singleton.mp hr
      rfl
  obtain ⟨p, hp, hopened⟩ := Reach.of_exec (Searching.step id [saltIn (some sel)]) Free
    (Searching.start .en) pressSalt
    (fun p => p.1.opened = [.ingredient ⟨none, "Salt", some sel, none, none⟩]) (by decide)
  exact ⟨p, hopened, (search_box hcatalogue hp).2.1⟩

end IngrediGo.HomeScreen
