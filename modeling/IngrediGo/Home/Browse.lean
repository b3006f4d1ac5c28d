import IngrediGo.Home.Loads
import IngrediGo.Lib.Order

/-!
# Browsing on Home by category

The category buttons of `home.tsx` and the cards under them. `filterByCategory` sets three
states that must fit together: the category, its index among the buttons, and its recipes.
Every load sets them back to the first category, also the loads that a change of language
starts, after which the old category is no longer among the buttons.

`browsing_consistent`: on a mounted screen they fit together, in the language in force, and
one button is highlighted. `browsing_complete`: the buttons lead to every recipe once.
-/

namespace IngrediGo.HomeScreen

open Lib

/-- `recipe.category[lang]`, which throws without a category. -/
def categoryIn (lang : Lang) (recipe : Recipe) : Option (Option String) :=
  recipe.category.map fun category => Text.get? (some category) lang

/-- `[...new Set(recipeData.recipes.map(recipe => recipe.category[lang]))]` -/
def categories (recipes : List Recipe) (lang : Lang) : Option (List (Option String)) :=
  (recipes.mapM (categoryIn lang)).map List.eraseDups

/-- `categories.indexOf(category)` -/
def indexOf (categories : List (Option String)) (category : Option String) : ℤ :=
  if category ∈ categories then categories.idxOf category else -1

/-- What is picked of the categories. -/
structure Tabs where
  selectedCategory : Option String
  selectedCategoryIndex : ℤ
  filteredRecipes : List Recipe
  deriving DecidableEq, Repr

def Tabs.initial : Tabs := ⟨none, 0, []⟩

/-- `filterByCategory(category)`, unless it throws. -/
def filterByCategory (recipes : List Recipe) (lang : Lang) (category : Option String) :
    Option Tabs :=
  (categories recipes lang).map fun categories =>
    { selectedCategory := category
      selectedCategoryIndex := indexOf categories category
      filteredRecipes := recipes.filter fun recipe => categoryIn lang recipe = some category }

/-- What `fetchData` does before its request. -/
def selectFirst (recipes : List Recipe) (lang : Lang) (tabs : Tabs) : Tabs :=
  match categories recipes lang with
  | some (category :: _) =>
    (filterByCategory recipes lang category).getD ⟨category, 0, tabs.filteredRecipes⟩
  | some [] => tabs
  | none => tabs

/-- Home, with its category buttons. -/
structure Browsing where
  home : World
  tabs : Tabs
  deriving DecidableEq, Repr

namespace Browsing

def initial (lang : Lang) (file : List Recipe) : Browsing := ⟨.initial lang file, .initial⟩

inductive Act where
  | home (a : HomeScreen.Act)
  /-- The button at an index is pressed. -/
  | press (i : ℕ)
  deriving DecidableEq, Repr

/-- The category buttons. -/
def buttons (recipes : List Recipe) (w : Browsing) : List (Option String) :=
  (categories recipes w.home.lang).getD []

def step (recipes : List Recipe) (w : Browsing) : Act → Option Browsing
  | .home a => (w.home.step recipes a).map fun home =>
    -- `fetchData` is called exactly when a load is started
    if w.home.screen.loads.length < home.screen.loads.length then
      ⟨home, selectFirst recipes home.lang w.tabs⟩
    else ⟨home, w.tabs⟩
  | .press i =>
    if w.home.focused then
      (w.buttons recipes)[i]?.bind fun category =>
        (filterByCategory recipes w.home.lang category).map ({ w with tabs := · })
    else none

end Browsing

/-- The recipe has a category in every language: a button without a text cannot be drawn, and
under an empty one no cards are. -/
def Categorised (recipe : Recipe) : Prop :=
  ∀ lang, ∃ category, categoryIn lang recipe = some (some category) ∧ category ≠ ""

/-! ## The categories -/

variable {recipes : List Recipe} {lang : Lang}

theorem Categorised.ne_none {recipe : Recipe} (h : Categorised recipe) :
    recipe.category ≠ none := by
  obtain ⟨category, hc, -⟩ := h .en
  intro hnone
  simp [categoryIn, hnone] at hc

theorem categoryIn_isSome {recipe : Recipe} (h : recipe.category ≠ none) (lang : Lang) :
    ∃ category, categoryIn lang recipe = some category := by
  obtain ⟨category, hc⟩ := Option.ne_none_iff_exists'.mp h
  exact ⟨_, congrArg (Option.map _) hc⟩

/-- The category of a recipe that has one. -/
def categoryOf (lang : Lang) (recipe : Recipe) : Option String :=
  (categoryIn lang recipe).getD none

theorem categoryIn_eq {recipe : Recipe} (h : recipe.category ≠ none) :
    categoryIn lang recipe = some (categoryOf lang recipe) := by
  obtain ⟨category, hc⟩ := categoryIn_isSome h lang
  rw [categoryOf, hc, Option.getD_some]

/-- Over a catalogue with categories nothing throws. -/
theorem categories_eq (h : ∀ r ∈ recipes, r.category ≠ none) (lang : Lang) :
    categories recipes lang = some (recipes.map (categoryOf lang)).eraseDups := by
  have hall : recipes.mapM (categoryIn lang) = some (recipes.map (categoryOf lang)) := by
    induction recipes with
    | nil => rfl
    | cons r recipes ih =>
      obtain ⟨hr, hrest⟩ := List.forall_mem_cons.mp h
      rw [List.mapM_cons, categoryIn_eq hr, ih hrest]
      rfl
  rw [categories, hall]
  rfl

/-- Every button has a text. -/
theorem text_of_mem (h : ∀ r ∈ recipes, Categorised r) {category : Option String}
    (hmem : category ∈ (recipes.map (categoryOf lang)).eraseDups) :
    ∃ text, category = some text ∧ text ≠ "" := by
  obtain ⟨r, hr, rfl⟩ := List.mem_map.mp (List.mem_eraseDups.mp hmem)
  obtain ⟨text, htext, hne⟩ := h r hr lang
  exact ⟨text, by rw [categoryOf, htext, Option.getD_some], hne⟩

theorem filterByCategory_eq (h : ∀ r ∈ recipes, r.category ≠ none) (lang : Lang)
    (category : Option String) :
    filterByCategory recipes lang category = some
      { selectedCategory := category
        selectedCategoryIndex := indexOf (recipes.map (categoryOf lang)).eraseDups category
        filteredRecipes := recipes.filter (categoryOf lang · = category) } := by
  rw [filterByCategory, categories_eq h, Option.map_some]
  congr 2
  refine List.filter_congr fun r hr => ?_
  rw [categoryIn_eq (h r hr)]
  simp

/-! ## What fits together -/

/-- The category is the button at the index, and the cards are its recipes. -/
structure Fits (recipes : List Recipe) (lang : Lang) (tabs : Tabs) : Prop where
  button : ∃ i : ℕ, (recipes.map (categoryOf lang)).eraseDups[i]? = some tabs.selectedCategory ∧
    tabs.selectedCategoryIndex = i
  cards : tabs.filteredRecipes = recipes.filter (categoryOf lang · = tabs.selectedCategory)

/-- A category among the buttons is picked. -/
theorem fits_of_mem {category : Option String}
    (h : category ∈ (recipes.map (categoryOf lang)).eraseDups) :
    Fits recipes lang
      { selectedCategory := category
        selectedCategoryIndex := indexOf (recipes.map (categoryOf lang)).eraseDups category
        filteredRecipes := recipes.filter (categoryOf lang · = category) } where
  button := by
    refine ⟨(recipes.map (categoryOf lang)).eraseDups.idxOf category, ?_, if_pos h⟩
    rw [List.getElem?_eq_getElem (List.idxOf_lt_length_of_mem h), List.getElem_idxOf]
  cards := rfl

/-- A load picks the first category. -/
theorem fits_selectFirst (hcatalogue : ∀ r ∈ recipes, r.category ≠ none) (hne : recipes ≠ [])
    (tabs : Tabs) : Fits recipes lang (selectFirst recipes lang tabs) := by
  unfold selectFirst
  cases hc : (recipes.map (categoryOf lang)).eraseDups with
  | nil =>
    obtain ⟨r, hr⟩ := List.exists_mem_of_ne_nil recipes hne
    have hin := List.mem_eraseDups.mpr (List.mem_map_of_mem (f := categoryOf lang) hr)
    rw [hc] at hin
    cases hin
  | cons category rest =>
    rw [categories_eq hcatalogue, hc]
    simp only
    rw [filterByCategory_eq hcatalogue, Option.getD_some]
    exact fits_of_mem (hc ▸ .head _)

theorem load_length (recipes : List Recipe) (s : Screen) :
    (s.load recipes).loads.length = s.loads.length + 1 := by
  unfold Screen.load
  split <;> simp [Screen.complete]

/-- Without a load nobody mounts the screen or changes its language. -/
theorem unloaded {home home' : World} {a : Act} (h : home.step recipes a = some home')
    (hloads : ¬ home.screen.loads.length < home'.screen.loads.length) :
    home'.mounted = home.mounted ∧ (home.mounted = true → home'.lang = home.lang) := by
  cases a with
  | mount =>
    simp only [World.step] at h
    split at h
    · cases h
    · cases h
      simp only [load_length] at hloads
      omega
  | focus =>
    simp only [World.step] at h
    split at h
    · cases h; exact ⟨rfl, fun _ => rfl⟩
    · cases h
  | blur =>
    simp only [World.step] at h
    split at h
    · cases h; exact ⟨rfl, fun _ => rfl⟩
    · cases h
  | refresh =>
    simp only [World.step] at h
    split at h
    · cases h; exact ⟨rfl, fun _ => rfl⟩
    · cases h
  | switchLanguage lang =>
    simp only [World.step] at h
    split at h
    · next hsame =>
      cases h
      refine ⟨rfl, fun hm => ?_⟩
      simpa [hm] using hsame
    · split at h
      · cases h
        simp only [load_length] at hloads
        omega
      · cases h
        simp only [load_length] at hloads
        omega
  | change file => cases h; exact ⟨rfl, fun _ => rfl⟩
  | serve i outcome =>
    simp only [World.step] at h
    split at h
    · cases h; exact ⟨rfl, fun _ => rfl⟩
    · cases h
  | reply i =>
    simp only [World.step] at h
    split at h
    · cases h; exact ⟨rfl, fun _ => rfl⟩
    · cases h

namespace Browsing

variable {w w' : Browsing} {file : List Recipe}

theorem buttons_eq (hcatalogue : ∀ r ∈ recipes, r.category ≠ none) (w : Browsing) :
    w.buttons recipes = (recipes.map (categoryOf w.home.lang)).eraseDups := by
  rw [buttons, categories_eq hcatalogue, Option.getD_some]

/-- A press on a button picks its category. -/
theorem press_eq (hcatalogue : ∀ r ∈ recipes, r.category ≠ none) {i : ℕ}
    {category : Option String} (hf : w.home.focused = true)
    (hi : (w.buttons recipes)[i]? = some category) :
    ∃ tabs, w.step recipes (.press i) = some { w with tabs := tabs } ∧
      tabs.selectedCategory = category ∧ Fits recipes w.home.lang tabs := by
  have hin : category ∈ (recipes.map (categoryOf w.home.lang)).eraseDups := by
    rw [← buttons_eq hcatalogue]
    exact List.mem_of_getElem? hi
  refine ⟨_, ?_, rfl, fits_of_mem hin⟩
  rw [step, if_pos hf, hi, Option.bind_some, filterByCategory_eq hcatalogue]
  rfl

/-- The step lemma. -/
theorem fits_step (hcatalogue : ∀ r ∈ recipes, r.category ≠ none) (hne : recipes ≠ []) {a : Act}
    (h : w.home.mounted = true → Fits recipes w.home.lang w.tabs)
    (hs : w.step recipes a = some w') (hm : w'.home.mounted = true) :
    Fits recipes w'.home.lang w'.tabs := by
  cases a with
  | home a =>
    obtain ⟨home, hhome, rfl⟩ := Option.map_eq_some_iff.mp hs
    split
    · exact fits_selectFirst hcatalogue hne _
    · next hloads =>
      rw [if_neg hloads] at hm
      obtain ⟨hmounted, hlang⟩ := unloaded hhome hloads
      have hold : w.home.mounted = true := hmounted ▸ hm
      show Fits recipes home.lang w.tabs
      rw [hlang hold]
      exact h hold
  | press i =>
    have hs' := hs
    simp only [step] at hs
    split at hs
    · next hf =>
      obtain ⟨category, hi, -⟩ := Option.bind_eq_some_iff.mp hs
      obtain ⟨tabs, htabs, -, hfits⟩ := press_eq hcatalogue hf hi
      cases htabs.symm.trans hs'
      exact hfits
    · cases hs

theorem fits_run (hcatalogue : ∀ r ∈ recipes, r.category ≠ none) (hne : recipes ≠ [])
    (h : Reach (step recipes) Free (initial lang file) w) (hm : w.home.mounted = true) :
    Fits recipes w.home.lang w.tabs :=
  h.invariant (I := fun w => w.home.mounted = true → Fits recipes w.home.lang w.tabs)
    (fun hm => by cases hm) (fun _ _ _ hw _ hs => fits_step hcatalogue hne hw hs) hm

/-- **Browsing is consistent**: on a mounted Home one button is highlighted, the one at the
index kept, its text is not empty, and the list under it is of the recipes of its category in
the language in force, at least one. -/
theorem browsing_consistent (hcatalogue : ∀ r ∈ recipes, Categorised r) (hne : recipes ≠ [])
    (h : Reach (step recipes) Free (initial lang file) w) (hm : w.home.mounted = true) :
    (∃ i : ℕ, (w.buttons recipes)[i]? = some w.tabs.selectedCategory ∧
      w.tabs.selectedCategoryIndex = i) ∧
    (w.buttons recipes).count w.tabs.selectedCategory = 1 ∧
    (∃ text, w.tabs.selectedCategory = some text ∧ text ≠ "") ∧
    w.tabs.filteredRecipes =
      recipes.filter (categoryIn w.home.lang · = some w.tabs.selectedCategory) ∧
    w.tabs.filteredRecipes ≠ [] := by
  have hcategory : ∀ r ∈ recipes, r.category ≠ none := fun r hr => (hcatalogue r hr).ne_none
  obtain ⟨⟨i, hi, hindex⟩, hcards⟩ := fits_run hcategory hne h hm
  have hin := List.mem_of_getElem? hi
  rw [buttons_eq hcategory]
  refine ⟨⟨i, hi, hindex⟩, List.count_eq_one_of_mem (nodup_eraseDups _) hin,
    text_of_mem hcatalogue hin, ?_, ?_⟩
  · rw [hcards]
    refine List.filter_congr fun r hr => ?_
    rw [categoryIn_eq (hcategory r hr)]
    simp
  · obtain ⟨r, hr, hselected⟩ := List.mem_map.mp (List.mem_eraseDups.mp hin)
    rw [hcards]
    exact List.ne_nil_of_mem (List.mem_filter.mpr ⟨hr, by simpa using hselected⟩)

/-- A general soup and a starter. -/
def menu : List Recipe := [soup "General", soup "Starters"]

theorem menu_categorised : ∀ r ∈ menu, Categorised r := by
  intro r hr lang
  rcases List.mem_pair.mp hr with rfl | rfl
  · exact ⟨"General", by cases lang <;> rfl, by decide⟩
  · exact ⟨"Starters", by cases lang <;> rfl, by decide⟩

/-- The second category is picked, then the language is changed. -/
theorem browsing_consistent_menu : ∃ w : Browsing, w.home.lang = .fr ∧
    w.tabs.selectedCategory = some "General" ∧
    (w.buttons menu).count w.tabs.selectedCategory = 1 ∧ w.tabs.filteredRecipes ≠ [] := by
  obtain ⟨w, hw, hm, hlang, hselected⟩ := Reach.of_exec (step menu) Free (initial .en [])
    [.home .mount, .press 1, .home (.switchLanguage .fr)]
    (fun w => w.home.mounted = true ∧ w.home.lang = .fr ∧
      w.tabs.selectedCategory = some "General") (by decide)
  obtain ⟨-, hone, -, -, hcards⟩ :=
    browsing_consistent menu_categorised (List.cons_ne_nil _ _) hw hm
  exact ⟨w, hlang, hselected, hone, hcards⟩

/-- The recipes listed after a press on the button at an index. -/
def listedUnder (recipes : List Recipe) (w : Browsing) (i : ℕ) : List Recipe :=
  ((w.step recipes (.press i)).map (·.tabs.filteredRecipes)).getD []

/-- **Browsing is complete**: whatever happened before and whatever the language, every button
has a text, and together they lead to every recipe of the catalogue, each under one button. -/
theorem browsing_complete (hcatalogue : ∀ r ∈ recipes, Categorised r)
    (hf : w.home.focused = true) :
    (∀ category ∈ w.buttons recipes, ∃ text, category = some text ∧ text ≠ "") ∧
      ((List.range (w.buttons recipes).length).flatMap (w.listedUnder recipes)).Perm recipes := by
  have hcategory : ∀ r ∈ recipes, r.category ≠ none := fun r hr => (hcatalogue r hr).ne_none
  refine ⟨fun category hc => text_of_mem hcatalogue (buttons_eq hcategory w ▸ hc), ?_⟩
  rw [flatMap_range (g := fun category => recipes.filter (categoryOf w.home.lang · = category))]
  · rw [buttons_eq hcategory]
    refine Keyed.groups_perm (categoryOf w.home.lang) (nodup_eraseDups _) fun r hr => ?_
    exact List.mem_eraseDups.mpr (List.mem_map_of_mem hr)
  · intro i category hi
    obtain ⟨tabs, hstep, hselected, hfits⟩ := press_eq hcategory hf hi
    rw [listedUnder, hstep, Option.map_some, Option.getD_some, hfits.cards, hselected]

theorem browsing_complete_menu : ∃ w : Browsing, w.home.focused = true ∧
    ((List.range (w.buttons menu).length).flatMap (w.listedUnder menu)).Perm menu := by
  obtain ⟨w, -, hf⟩ := Reach.of_exec (step menu) Free (initial .en [])
    [.home .mount, .press 1, .home (.switchLanguage .zh)]
    (fun w => w.home.focused = true) (by decide)
  exact ⟨w, hf, (browsing_complete menu_categorised hf).2⟩

end Browsing

end IngrediGo.HomeScreen
