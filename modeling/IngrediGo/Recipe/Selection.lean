import IngrediGo.Data.Object
import IngrediGo.Stores.NearbyStores

/-!
# Selecting ingredients

The check boxes of `recipe.tsx` and what `Find in store` passes to NearbyStores. The
selections are a plain object with a property for each ingredient's name. There is one name
it cannot hold at first, `__proto__`: the assignment that should uncheck it sets nothing, and
its box reads the prototype, which counts as checked.

`selection_reaches_cards`: the names toggled an odd number of times are what the cards are
drawn for, exactly as long as that name is not tapped.
-/

namespace IngrediGo.RecipeScreen

open NearbyStores

/-- Unchecked boxes, one for each ingredient of the recipe, or for the single ingredient the
screen was opened for. -/
def initialSelections (recipe : Option Recipe) (ingredient : Option Ingredient) : Object Bool :=
  match recipe.bind (·.ingredients) with
  | some ingredients =>
    ingredients.foldl (fun selections ing => selections.assign ing.name false) .empty
  | none =>
    match ingredient with
    | some ingredient => Object.empty.assign ingredient.name false
    | none => .empty

/-- `{ ...prev, [item]: !prev[item] }` -/
def toggleSelection (prev : Object Bool) (item : String) : Object Bool :=
  prev.define item (!prev.truthyAt item)

/-- `Object.keys(selections).filter(key => selections[key])` -/
def selectedItems (selections : Object Bool) : List String :=
  selections.keys.filter selections.truthyAt

/-- Otherwise the `Find in store` button is disabled. -/
def isAnySelected (selections : Object Bool) : Bool := selections.own.any (·.2 = true)

/-- The check boxes of a recipe's screen after some taps on them. -/
def selectionsAfter (recipe : Recipe) (taps : List String) : Object Bool :=
  taps.foldl toggleSelection (initialSelections (some recipe) none)

def selectedAfter (recipe : Recipe) (taps : List String) : List String :=
  selectedItems (selectionsAfter recipe taps)

/-! ## What the taps select -/

theorem names_toggled (selections : Object Bool) (taps : List String) (name : String) :
    name ∈ (taps.foldl toggleSelection selections).names ↔
      name ∈ selections.names ∨ name ∈ taps := by
  induction taps generalizing selections with
  | nil => simp
  | cons tap taps ih =>
    rw [List.foldl_cons, ih, toggleSelection, Object.mem_names_define, List.mem_cons, or_assoc]

/-- A box flips with every tap on it. -/
theorem truthyAt_toggled (selections : Object Bool) (taps : List String) (name : String) :
    (taps.foldl toggleSelection selections).truthyAt name =
      (selections.truthyAt name ^^ decide (taps.count name % 2 = 1)) := by
  induction taps generalizing selections with
  | nil => simp
  | cons tap taps ih =>
    rw [List.foldl_cons, ih, toggleSelection, Object.truthyAt_define, List.count_cons]
    by_cases h : name = tap
    · subst h
      have hodd : decide ((taps.count name + 1) % 2 = 1) = !decide (taps.count name % 2 = 1) := by
        rw [← decide_not]
        exact decide_eq_decide.mpr (by omega)
      simp [hodd]
    · simp [h, Ne.symm h]

/-- Unchecking box after box. -/
theorem unchecked_spec (ingredients : List Ingredient) (selections : Object Bool)
    (hproto : "__proto__" ∉ selections.names)
    (hfalse : ∀ name ∈ selections.names, selections.truthyAt name = false) :
    let boxes :=
      ingredients.foldl (fun selections ing => selections.assign ing.name false) selections
    (∀ name, name ∈ boxes.names ↔ name ∈ selections.names ∨
      (∃ ingredient ∈ ingredients, ingredient.name = name) ∧ name ≠ "__proto__") ∧
    ∀ name ∈ boxes.names, boxes.truthyAt name = false := by
  induction ingredients generalizing selections with
  | nil => exact ⟨by simp, hfalse⟩
  | cons ingredient ingredients ih =>
    have hproto' : "__proto__" ∉ (selections.assign ingredient.name false).names := by
      rw [Object.mem_names_assign hproto]
      exact fun h => h.elim hproto fun h => h.2 rfl
    obtain ⟨hnames, hboxes⟩ := ih _ hproto' (Object.truthyAt_assign_false hfalse)
    refine ⟨fun name => ?_, hboxes⟩
    have hcons : (∃ i ∈ ingredient :: ingredients, i.name = name) ↔
        name = ingredient.name ∨ ∃ i ∈ ingredients, i.name = name := by
      simp [eq_comm]
    refine (hnames name).trans ?_
    rw [Object.mem_names_assign hproto, or_assoc, ← or_and_right, hcons]

section

variable {recipe : Recipe} {ingredients : List Ingredient} {taps : List String}

/-- The boxes of a recipe: every ingredient's but `__proto__`'s, and all unchecked. -/
theorem initialSelections_spec (h : recipe.ingredients = some ingredients) :
    (∀ name, name ∈ (initialSelections (some recipe) none).names ↔
      (∃ ingredient ∈ ingredients, ingredient.name = name) ∧ name ≠ "__proto__") ∧
    ∀ name ∈ (initialSelections (some recipe) none).names,
      (initialSelections (some recipe) none).truthyAt name = false := by
  have hspec := unchecked_spec ingredients .empty (by simp) (by simp)
  simpa [initialSelections, h] using hspec

theorem nodup_selectedAfter : (selectedAfter recipe taps).Nodup :=
  (Object.nodup_keys _).filter _

/-- A name other than `__proto__` is selected by an odd number of taps. -/
theorem mem_selectedAfter (h : recipe.ingredients = some ingredients)
    (htaps : ∀ name ∈ taps, ∃ ingredient ∈ ingredients, ingredient.name = name) {name : String}
    (hname : name ≠ "__proto__") :
    name ∈ selectedAfter recipe taps ↔ taps.count name % 2 = 1 := by
  obtain ⟨hnames, hfalse⟩ := initialSelections_spec h
  rw [selectedAfter, selectionsAfter, selectedItems, List.mem_filter, Object.mem_keys, names_toggled,
    truthyAt_toggled]
  by_cases hin : name ∈ (initialSelections (some recipe) none).names
  · simp [hin, hfalse name hin]
  · have hnot : name ∉ taps := fun ht => hin ((hnames name).mpr ⟨htaps name ht, hname⟩)
    simp [hin, hnot, List.count_eq_zero_of_not_mem hnot]

/-- `__proto__` is selected by an even number of them, but not by none. -/
theorem proto_selectedAfter (h : recipe.ingredients = some ingredients) :
    "__proto__" ∈ selectedAfter recipe taps ↔
      "__proto__" ∈ taps ∧ ¬ taps.count "__proto__" % 2 = 1 := by
  obtain ⟨hnames, -⟩ := initialSelections_spec h
  have hproto : "__proto__" ∉ (initialSelections (some recipe) none).names := by
    rw [hnames]
    exact fun hin => hin.2 rfl
  rw [selectedAfter, selectionsAfter, selectedItems, List.mem_filter, Object.mem_keys, names_toggled,
    truthyAt_toggled, Object.truthyAt_proto hproto]
  simp [hproto]

/-! ## What the cards make of it -/

/-- The names toggled an odd number of times, once each, and nothing else. -/
def NamesToggled (taps selectedItems : List String) : Prop :=
  selectedItems.Nodup ∧ ∀ name, name ∈ selectedItems ↔ taps.count name % 2 = 1

/-- One card for each shop of the ingredients, each splitting the selected items by what the
first entry for the shop says of the first ingredient of that name, and counting them. -/
structure CardsFor (t : String → String) (ingredients : List Ingredient)
    (selectedItems : List String) (cards : List StoreCard) : Prop where
  once : (cards.map (·.name)).Nodup
  shops : ∀ storeName, storeName ∈ cards.map (·.name) ↔
    ∃ ingredient ∈ ingredients, ∃ entry ∈ ingredient.stores.getD [], entry.name = storeName
  split : ∀ card ∈ cards,
    (card.includedIngredients ++ card.nonIncludedIngredients).Perm selectedItems
  included : ∀ card ∈ cards, ∀ item ∈ selectedItems, item ∈ card.includedIngredients ↔
    ∃ ingredient entry, ingredients.find? (·.name = item) = some ingredient ∧
      (ingredient.stores.getD []).find? (·.name = card.name) = some entry ∧
      Js.truthy entry.available = true
  counted : ∀ card ∈ cards, card.ingredientsText =
    toString card.includedIngredients.length ++ "/" ++ toString selectedItems.length ++ " " ++
      t "ingredientsAvailable"

theorem cardsFor {t : String → String} {lang : Lang} {random : Nat → Fin 5}
    {selectedItems : List String} {cards : List StoreCard}
    (hcards : processStoreData t lang random selectedItems recipe = some cards) :
    CardsFor t (recipe.ingredients.getD []) selectedItems cards := by
  obtain ⟨stores, hstores, hperm⟩ := names_perm hcards
  refine ⟨hperm.nodup_iff.mpr (Lib.nodup_eraseDups _),
    fun storeName => hperm.mem_iff.trans (storeLists_mem hstores), ?_, ?_, ?_⟩
  · intro card hc
    obtain ⟨distance, he⟩ := card_eq hcards hc
    have hrest : card.nonIncludedIngredients = selectedItems.filter
        fun item => !isIncluded (recipe.ingredients.getD []) card.name item := by
      refine (congrArg StoreCard.nonIncludedIngredients he).trans ?_
      refine List.filter_congr fun item hitem => ?_
      simp [hitem]
    rw [included_eq hcards hc, hrest]
    exact List.filter_append_perm _ _
  · intro card hc item hitem
    rw [included_eq hcards hc, List.mem_filter, and_iff_right hitem]
    exact isIncluded_iff
  · intro card hc
    obtain ⟨distance, he⟩ := card_eq hcards hc
    rw [he]
    rfl

/-- **The selection reaches the cards intact** if and only if no ingredient named `__proto__`
is tapped. -/
theorem selection_reaches_cards (t : String → String) (lang : Lang) (random : Nat → Fin 5)
    (h : recipe.ingredients = some ingredients)
    (hstores : ∀ ingredient ∈ ingredients, ingredient.stores.isSome = true)
    (htaps : ∀ name ∈ taps, ∃ ingredient ∈ ingredients, ingredient.name = name) :
    (∃ cards, processStoreData t lang random (selectedAfter recipe taps) recipe = some cards ∧
      NamesToggled taps (selectedAfter recipe taps) ∧
        CardsFor t ingredients (selectedAfter recipe taps) cards) ↔
      "__proto__" ∉ taps := by
  constructor
  · rintro ⟨_, -, ⟨-, hodd⟩, -⟩ hproto
    have hselected : "__proto__" ∈ selectedAfter recipe taps ↔ _ := proto_selectedAfter h
    rw [hodd, and_iff_right hproto] at hselected
    exact iff_not_self hselected
  · intro hproto
    obtain ⟨cards, hcards⟩ : ∃ cards,
        processStoreData t lang random (selectedAfter recipe taps) recipe = some cards :=
      Option.isSome_iff_exists.mp (processStoreData_isSome.mpr ⟨ingredients, h, hstores⟩)
    refine ⟨cards, hcards, ⟨nodup_selectedAfter, fun name => ?_⟩, ?_⟩
    · by_cases hname : name = "__proto__"
      · subst hname
        rw [proto_selectedAfter h]
        simp [hproto, List.count_eq_zero_of_not_mem hproto]
      · exact mem_selectedAfter h htaps hname
    · have hall := cardsFor hcards
      rwa [h] at hall

end

/-- A recipe of two ingredients at one shop, the second one named as given. -/
def saltAnd (name : String) : Recipe :=
  { Recipe.bare (.num 1) with
    ingredients := some (["Salt", name].map fun name =>
      ⟨none, name, none, none, some [⟨"Lidl", some (.bool true), none⟩]⟩) }

theorem selection_reaches_cards_salt : ∃ cards,
    processStoreData id .en (fun _ => 0) (selectedAfter (saltAnd "Milk") ["Salt", "Milk", "Milk"])
        (saltAnd "Milk") = some cards ∧
      NamesToggled ["Salt", "Milk", "Milk"]
        (selectedAfter (saltAnd "Milk") ["Salt", "Milk", "Milk"]) ∧
      CardsFor id ((saltAnd "Milk").ingredients.getD [])
        (selectedAfter (saltAnd "Milk") ["Salt", "Milk", "Milk"]) cards :=
  (selection_reaches_cards id .en _ rfl (by decide) (by decide)).mpr (by decide)

/-- The box of `__proto__` is tapped once, and so is another one's. -/
theorem not_selection_reaches_cards : ¬ ∀ (t : String → String) (lang : Lang)
    (random : Nat → Fin 5) (recipe : Recipe) (ingredients : List Ingredient) (taps : List String),
    recipe.ingredients = some ingredients →
    (∀ ingredient ∈ ingredients, ingredient.stores.isSome = true) →
    (∀ name ∈ taps, ∃ ingredient ∈ ingredients, ingredient.name = name) →
    isAnySelected (selectionsAfter recipe taps) = true →
    ∃ cards, processStoreData t lang random (selectedAfter recipe taps) recipe = some cards ∧
      NamesToggled taps (selectedAfter recipe taps) ∧
        CardsFor t ingredients (selectedAfter recipe taps) cards := by
  intro h
  obtain ⟨-, -, htoggled, -⟩ := h id .en (fun _ => 0) (saltAnd "__proto__") _
    ["Salt", "__proto__"] rfl (by decide) (by decide) (by decide)
  have hproto := (htoggled.2 "__proto__").mpr (by decide)
  exact absurd ((proto_selectedAfter rfl).mp hproto).2 (by decide)

end IngrediGo.RecipeScreen
