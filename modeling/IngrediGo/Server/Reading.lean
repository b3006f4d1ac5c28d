import IngrediGo.Favorites.Screen
import IngrediGo.Server.Clients

/-!
# The records in the JSON

The other modules speak of recipes and favourites; the files hold JSON. A record is read off
an object by its fields, whatever else the object has and in whatever order; a field that is
`null` reads as missing where the code does not tell the two apart, and an object whose fields
are not of the kinds the code expects reads as nothing.

What the clients make of objects that read as records, reads as what the other modules make
of the records: `read_recipeToSave`, `read_normalize`, `read_deselect`.
-/

namespace IngrediGo.Json

variable {α : Type}

/-- What is read off an object. -/
abbrev Reader (α : Type) := (String → Option Json) → Option α

def readObject (read : Reader α) : Json → Option α
  | .obj fields => read (field fields)
  | _ => none

def readString : Json → Option String
  | .str s => some s
  | _ => none

def readBool : Json → Option Bool
  | .bool b => some b
  | _ => none

def readNumber : Json → Option ℚ
  | .num n => some n.value
  | _ => none

def readId : Json → Option ItemId
  | .num n => some (.num n.value)
  | .str s => some (.str s)
  | _ => none

def readList (read : Json → Option α) : Json → Option (List α)
  | .arr items => items.mapM read
  | _ => none

/-- A field that may be missing, or `null`. -/
def optional (read : Json → Option α) : Option Json → Option (Option α)
  | none => some none
  | some .null => some none
  | some json => (read json).map some

/-- An id that may be missing; `===` tells `null` from a missing one. -/
def optionalId : Option Json → Option (Option ItemId)
  | none => some none
  | some json => (readId json).map some

def readTranslations : Reader Translations := fun get => do
  let en ← optional readString (get "en")
  let fr ← optional readString (get "fr")
  let zh ← optional readString (get "zh")
  return ⟨en, fr, zh⟩

def readText : Json → Option Text
  | .str s => some (.plain s)
  | json => (readObject readTranslations json).map .perLang

def readPrices : Reader Prices := fun get => do
  let min ← optional readNumber (get "min")
  let max ← optional readNumber (get "max")
  let avg ← optional readNumber (get "avg")
  let currency ← optional readString (get "currency")
  return ⟨min, max, avg, currency⟩

def readImages : Reader Images := fun get => do
  let main ← optional readString (get "main")
  let alt1 ← optional readString (get "alt1")
  let alt2 ← optional readString (get "alt2")
  return ⟨main, alt1, alt2⟩

section

-- the text kept of an array or object no field of which is read
variable (stringify : Json → String)

def readValue : Json → Value
  | .null => .null
  | .bool b => .bool b
  | .num n => .num n.value
  | .str s => .str s
  | json => .compound (stringify json)

def readStore : Reader StoreEntry := fun get => do
  let name ← (get "name").bind readString
  return ⟨name, (get "available").map (readValue stringify),
    (get "aisle").map (readValue stringify)⟩

def readIngredient : Reader Ingredient := fun get => do
  let id ← optionalId (get "id")
  let name ← (get "name").bind readString
  let translation ← optional readText (get "translation")
  let prices ← optional (readObject readPrices) (get "prices")
  let stores ← optional (readList (readObject (readStore stringify))) (get "stores")
  return ⟨id, name, translation, prices, stores⟩

def readRecipe : Reader Recipe := fun get => do
  let id ← optionalId (get "id")
  let name ← optional readText (get "name")
  let images ← optional (readObject readImages) (get "images")
  let description ← optional readText (get "description")
  let ingredients ← optional (readList (readObject (readIngredient stringify))) (get "ingredients")
  let category ← optional readText (get "category")
  let bookmarked ← optional readBool (get "bookmarked")
  return ⟨id, name, images, description, ingredients, category, bookmarked⟩

def readFavorite : Reader Favorite := fun get => do
  let id ← (get "id").bind readId
  let name ← (get "name").bind readString
  let translation ← optional readText (get "translation")
  let category ← optional readString (get "category")
  let prices ← optional (readObject readPrices) (get "prices")
  let recipeId ← optional readId (get "recipeId")
  let recipeName ← optional readString (get "recipeName")
  let storeName ← (get "storeName").bind readString
  let location ← (get "location").map (readValue stringify)
  let timeAdded ← (get "timeAdded").bind readString
  let originalData ← optional (readObject (readIngredient stringify)) (get "originalData")
  let selected ← optional readBool (get "selected")
  return ⟨id, name, translation, category, prices, recipeId, recipeName, storeName, location,
    timeAdded, originalData, selected⟩

end

/-! ## Fields -/

variable {fields : List (String × Json)} {key k : String} {value : Json}

theorem field_append (fields fields' : List (String × Json)) (k : String) :
    field (fields ++ fields') k = (field fields k).or (field fields' k) := by
  rw [field, field, field, List.find?_append, Option.map_or]

theorem field_eq_none (h : ∀ p ∈ fields, p.1 ≠ k) : field fields k = none := by
  rw [field, Option.map_eq_none_iff, List.find?_eq_none]
  exact fun p hp hk => h p hp (of_decide_eq_true hk)

/-- An object after `{ ...item, [key]: value }`. -/
theorem field_override (fields : List (String × Json)) (key : String) (value : Json) (k : String) :
    field (fields.filter (·.1 ≠ key) ++ [(key, value)]) k =
      if k = key then some value else field fields k := by
  rw [field_append]
  split
  · next h =>
    subst h
    have hdropped : field (fields.filter (·.1 ≠ k)) k = none :=
      field_eq_none fun p hp => by simpa using (List.mem_filter.mp hp).2
    rw [hdropped, Option.none_or]
    simp [field]
  · next h =>
    have hlast : field [(key, value)] k = none :=
      field_eq_none fun p hp => by rw [List.mem_singleton.mp hp]; exact Ne.symm h
    have hfilter : field (fields.filter (·.1 ≠ key)) k = field fields k := by
      rw [field, field, List.find?_filter]
      congr 2
      funext p
      by_cases hp : p.1 = k <;> simp [hp, h]
    rw [hlast, hfilter, Option.or_none]

/-- Some fields of an object, copied one by one. -/
theorem field_copied (fields : List (String × Json)) (keys : List String) (k : String) :
    field (keys.filterMap fun key => (field fields key).map (key, ·)) k =
      if k ∈ keys then field fields k else none := by
  induction keys with
  | nil => rfl
  | cons key keys ih =>
    cases hf : field fields key with
    | none =>
      rw [List.filterMap_cons_none (by rw [hf]; rfl), ih]
      by_cases hk : k = key
      · subst hk; simp [hf]
      · simp [hk]
    | some value =>
      rw [List.filterMap_cons_some (by rw [hf]; rfl)]
      by_cases hk : k = key
      · subst hk
        rw [hf, if_pos (.head _)]
        simp [field]
      · have hne : ¬ key = k := fun h => hk h.symm
        have hskip : field ((key, value) :: keys.filterMap fun key =>
            (field fields key).map (key, ·)) k = field (keys.filterMap fun key =>
              (field fields key).map (key, ·)) k := by simp [field, hne]
        rw [hskip, ih]
        simp [hk]

/-! ## Records -/

section

variable {stringify : Json → String} {get : String → Option Json}

/-- A recipe is read off seven fields. -/
theorem readRecipe_some {r : Recipe} : readRecipe stringify get = some r ↔
    optionalId (get "id") = some r.id ∧ optional readText (get "name") = some r.name ∧
      optional (readObject readImages) (get "images") = some r.images ∧
      optional readText (get "description") = some r.description ∧
      optional (readList (readObject (readIngredient stringify))) (get "ingredients") =
        some r.ingredients ∧
      optional readText (get "category") = some r.category ∧
      optional readBool (get "bookmarked") = some r.bookmarked := by
  obtain ⟨id, name, images, description, ingredients, category, bookmarked⟩ := r
  simp only [readRecipe, Option.bind_eq_bind, Option.bind_eq_some_iff, Option.pure_def,
    Option.some.injEq, Recipe.mk.injEq]
  constructor
  · rintro ⟨_, h1, _, h2, _, h3, _, h4, _, h5, _, h6, _, h7, rfl, rfl, rfl, rfl, rfl, rfl, rfl⟩
    exact ⟨h1, h2, h3, h4, h5, h6, h7⟩
  · rintro ⟨h1, h2, h3, h4, h5, h6, h7⟩
    exact ⟨_, h1, _, h2, _, h3, _, h4, _, h5, _, h6, _, h7, rfl, rfl, rfl, rfl, rfl, rfl, rfl⟩

/-- A favourite is read off twelve. -/
theorem readFavorite_some {f : Favorite} : readFavorite stringify get = some f ↔
    (get "id").bind readId = some f.id ∧ (get "name").bind readString = some f.name ∧
      optional readText (get "translation") = some f.translation ∧
      optional readString (get "category") = some f.category ∧
      optional (readObject readPrices) (get "prices") = some f.prices ∧
      optional readId (get "recipeId") = some f.recipeId ∧
      optional readString (get "recipeName") = some f.recipeName ∧
      (get "storeName").bind readString = some f.storeName ∧
      (get "location").map (readValue stringify) = some f.location ∧
      (get "timeAdded").bind readString = some f.timeAdded ∧
      optional (readObject (readIngredient stringify)) (get "originalData") =
        some f.originalData ∧
      optional readBool (get "selected") = some f.selected := by
  constructor
  · intro h
    obtain ⟨_, h1, h⟩ := Option.bind_eq_some_iff.mp h
    obtain ⟨_, h2, h⟩ := Option.bind_eq_some_iff.mp h
    obtain ⟨_, h3, h⟩ := Option.bind_eq_some_iff.mp h
    obtain ⟨_, h4, h⟩ := Option.bind_eq_some_iff.mp h
    obtain ⟨_, h5, h⟩ := Option.bind_eq_some_iff.mp h
    obtain ⟨_, h6, h⟩ := Option.bind_eq_some_iff.mp h
    obtain ⟨_, h7, h⟩ := Option.bind_eq_some_iff.mp h
    obtain ⟨_, h8, h⟩ := Option.bind_eq_some_iff.mp h
    obtain ⟨_, h9, h⟩ := Option.bind_eq_some_iff.mp h
    obtain ⟨_, h10, h⟩ := Option.bind_eq_some_iff.mp h
    obtain ⟨_, h11, h⟩ := Option.bind_eq_some_iff.mp h
    obtain ⟨_, h12, h⟩ := Option.bind_eq_some_iff.mp h
    cases h
    exact ⟨h1, h2, h3, h4, h5, h6, h7, h8, h9, h10, h11, h12⟩
  · rintro ⟨h1, h2, h3, h4, h5, h6, h7, h8, h9, h10, h11, h12⟩
    rw [readFavorite, h1, h2, h3, h4, h5, h6, h7, h8, h9, h10, h11, h12]
    rfl

theorem readObject_some {α : Type} {read : Reader α} {item : Json} {a : α} :
    readObject read item = some a ↔
      ∃ fields, item = .obj fields ∧ read (field fields) = some a := by
  cases item <;> simp [readObject]

end

end IngrediGo.Json

namespace IngrediGo.Server

open Json RecipeScreen

variable {stringify : Json → String}

/-! ## Ids -/

/-- `===` compares ids as what they are read as. -/
theorem strictEq_read {a b : Option Json} {x y : Option ItemId} (ha : optionalId a = some x)
    (hb : optionalId b = some y) : strictEq a b = decide (x = y) := by
  rcases a with _ | (_ | _ | _ | _ | _ | _) <;> cases ha <;>
    rcases b with _ | (_ | _ | _ | _ | _ | _) <;> cases hb <;>
      simp [strictEq, Number.Double.ext_iff]

/-- An id that must be there. -/
theorem optionalId_of_readId {json : Option Json} {id : ItemId}
    (h : json.bind readId = some id) : optionalId json = some (some id) := by
  obtain ⟨json, rfl, hid⟩ := Option.bind_eq_some_iff.mp h
  exact congrArg (Option.map some) hid

/-! ## What the clients make of a record -/

/-- The record a tap saves has the fields copied, and its flag. -/
theorem field_recipeToSave (fields : Fields) (k : String) :
    (recipeToSave fields).prop k = some
      (if k ∈ ["id", "name", "images", "description", "ingredients"] then field fields k
      else if k = "bookmarked" then some (.bool true) else none) := by
  rw [recipeToSave, prop, field_append, field_copied, Option.some.injEq]
  split
  · next hk =>
    have hne : field [("bookmarked", Json.bool true)] k = none :=
      field_eq_none fun p hp => by
        rw [List.mem_singleton.mp hp]
        rintro rfl
        exact absurd hk (by decide)
    rw [hne, Option.or_none]
  · rw [Option.none_or]
    by_cases hk : k = "bookmarked" <;> simp [field, hk, eq_comm]

/-- It is read as the record saved of the recipe. -/
theorem read_recipeToSave {fields : Fields} {recipe : Recipe}
    (h : readRecipe stringify (field fields) = some recipe) :
    readObject (readRecipe stringify) (recipeToSave fields) =
      some (toggleBookmark.recipeToSave recipe) := by
  obtain ⟨hid, hname, himages, hdescription, hingredients, -, -⟩ := readRecipe_some.mp h
  have hfield (k : String) := Option.some.inj (field_recipeToSave fields k)
  refine readRecipe_some.mpr ?_
  rw [hfield, hfield, hfield, hfield, hfield, hfield, hfield]
  exact ⟨hid, hname, himages, hdescription, hingredients, rfl, rfl⟩

/-- `{ ...item, [key]: value }` of an object. -/
theorem readObject_override {α : Type} {read : Reader α} {fields : Fields} {key : String}
    {value : Json} : readObject read (override fields key value) =
      read fun k => if k = key then some value else field fields k := by
  rw [override, readObject]
  exact congrArg read (funext (field_override fields key value))

/-- The texts a category that is no object is replaced by. -/
def filledCategory (category : Option Json) : Json :=
  .obj (["en", "fr", "zh"].zipWith
    (fun key lang => (key, Js.orElse category (.str (HomeScreen.defaultCategory lang))))
    [.en, .fr, .zh])

/-- A category is an object with texts, or its texts are filled in. -/
inductive CategoryRead : Option Json → Option Text → Prop where
  | texts (fields : Fields) (tr : Translations) :
      CategoryRead (some (.obj fields)) (some (.perLang tr))
  | filled (json : Option Json) (category : Option Text)
      (hobj : ∀ fields, json ≠ some (.obj fields)) (harr : ∀ items, json ≠ some (.arr items))
      (htexts : ∀ tr, category ≠ some (.perLang tr))
      (hfill : ∀ lang, Js.orElse json (.str (HomeScreen.defaultCategory lang)) =
        .str (HomeScreen.normalizedCategory category lang)) : CategoryRead json category

theorem categoryRead {json : Option Json} {category : Option Text}
    (h : optional readText json = some category) : CategoryRead json category := by
  rcases json with _ | (_ | _ | _ | s | _ | fields)
  · cases h
    exact .filled _ _ nofun nofun nofun fun _ => rfl
  · cases h
    exact .filled _ _ nofun nofun nofun fun _ => rfl
  · cases h
  · cases h
  · cases h
    refine .filled _ _ nofun nofun nofun fun lang => ?_
    by_cases hs : s = ""
    · subst hs; rfl
    · simp [Js.orElse, Js.or, Js.truthy, hs, HomeScreen.normalizedCategory]
  · cases h
  · obtain ⟨text, htext, rfl⟩ := Option.map_eq_some_iff.mp h
    obtain ⟨tr, -, rfl⟩ := Option.map_eq_some_iff.mp htext
    exact .texts fields tr

/-- A recipe is normalized to the recipe normalized. -/
theorem read_normalize {item : Json} {recipe : Recipe}
    (h : readObject (readRecipe stringify) item = some recipe) :
    ∃ normalized, normalize item = some normalized ∧
      readObject (readRecipe stringify) normalized = some (HomeScreen.normalize recipe) := by
  obtain ⟨fields, rfl, hread⟩ := readObject_some.mp h
  obtain ⟨hid, hname, himages, hdescription, hingredients, hcategory, hbookmarked⟩ :=
    readRecipe_some.mp hread
  have hprop : (Json.obj fields).prop "category" = some (field fields "category") := rfl
  rw [normalize, hprop, Option.map_some]
  generalize hf : field fields "category" = json at hcategory ⊢
  generalize hc : recipe.category = category at hcategory
  cases categoryRead hcategory with
  | texts texts tr =>
    refine ⟨_, rfl, ?_⟩
    rw [HomeScreen.normalize, hc]
    exact hread
  | filled _ _ hobj harr htexts hfill =>
    have hrecipe : HomeScreen.normalize recipe = { recipe with category := some (.perLang
        ⟨HomeScreen.normalizedCategory category .en, HomeScreen.normalizedCategory category .fr,
          HomeScreen.normalizedCategory category .zh⟩) } := by
      unfold HomeScreen.normalize
      split
      · next tr htr => exact absurd (hc.symm.trans htr) (htexts tr)
      · rw [hc]
    have hcat : optional readText (some (filledCategory json)) = some (some (.perLang
        ⟨HomeScreen.normalizedCategory category .en, HomeScreen.normalizedCategory category .fr,
          HomeScreen.normalizedCategory category .zh⟩)) := by
      simp only [filledCategory, List.zipWith_cons_cons, List.zipWith_nil_left, hfill]
      rfl
    refine ⟨override fields "category" (filledCategory json), ?_, ?_⟩
    · split
      · exact absurd rfl (hobj _)
      · exact absurd rfl (harr _)
      · rfl
    · rw [readObject_override, hrecipe]
      exact readRecipe_some.mpr
        ⟨hid, hname, himages, hdescription, hingredients, hcat, hbookmarked⟩

/-- A favourite is shown unselected. -/
theorem read_deselect {item : Json} {favorite : Favorite}
    (h : readObject (readFavorite stringify) item = some favorite) :
    readObject (readFavorite stringify) (override item.spread "selected" (.bool false)) =
      some (FavoritesScreen.deselect favorite) := by
  obtain ⟨fields, rfl, hread⟩ := readObject_some.mp h
  obtain ⟨h1, h2, h3, h4, h5, h6, h7, h8, h9, h10, h11, -⟩ := readFavorite_some.mp hread
  rw [readObject_override]
  exact readFavorite_some.mpr ⟨h1, h2, h3, h4, h5, h6, h7, h8, h9, h10, h11, rfl⟩

/-! ## Lists of records -/

variable {α : Type} {read : Json → Option α}

/-- The items of an array, read as records. -/
abbrev ReadAs (read : Json → Option α) (items : List Json) (l : List α) : Prop :=
  List.Forall₂ (fun item a => read item = some a) items l

variable {items : List Json} {l : List α}

theorem ReadAs.filterMap (h : ReadAs read items l) : items.filterMap read = l := by
  induction h with
  | nil => rfl
  | cons ha _ ih => rw [List.filterMap_cons_some ha, ih]

theorem ReadAs.concat (h : ReadAs read items l) {item : Json} {a : α}
    (ha : read item = some a) : ReadAs read (items ++ [item]) (l ++ [a]) :=
  List.rel_append h (.cons ha .nil)

/-- What is made of each item is read as what is made of each record. -/
theorem ReadAs.map (h : ReadAs read items l) {f : Json → Json} {g : α → α}
    (hf : ∀ item a, read item = some a → read (f item) = some (g a)) :
    ReadAs read (items.map f) (l.map g) :=
  List.forall₂_map_left_iff.mpr (List.forall₂_map_right_iff.mpr (h.imp hf))

theorem ReadAs.mapM (h : ReadAs read items l) {f : Json → Option Json} {g : α → α}
    (hf : ∀ item a, read item = some a → ∃ item', f item = some item' ∧ read item' = some (g a)) :
    ∃ items', items.mapM f = some items' ∧ ReadAs read items' (l.map g) := by
  induction h with
  | nil => exact ⟨[], rfl, .nil⟩
  | cons ha _ ih =>
    obtain ⟨item', hitem', hread⟩ := hf _ _ ha
    obtain ⟨items', hitems', hrest⟩ := ih
    refine ⟨item' :: items', ?_, .cons hread hrest⟩
    rw [List.mapM_cons, hitem', hitems']
    rfl

section

variable (id : α → Option ItemId)
  (hid : ∀ item a, read item = some a → (item.prop "id").bind optionalId = some (id a))
  {key : Option Json} {keyId : Option ItemId} (hkey : optionalId key = some keyId)

include hid hkey

theorem ReadAs.sameId {item : Json} {a : α} (ha : read item = some a) :
    sameId key item = some (decide (id a = keyId)) := by
  obtain ⟨json, hjson, hread⟩ := Option.bind_eq_some_iff.mp (hid item a ha)
  rw [Server.sameId, hjson, Option.map_some, strictEq_read hread hkey]

theorem ReadAs.otherId {item : Json} {a : α} (ha : read item = some a) :
    otherId key item = some (decide (id a ≠ keyId)) := by
  obtain ⟨json, hjson, hread⟩ := Option.bind_eq_some_iff.mp (hid item a ha)
  rw [Server.otherId, hjson, Option.map_some, strictEq_read hread hkey, decide_not]

theorem ReadAs.someOf (h : ReadAs read items l) :
    Json.someOf (Server.sameId key) items = some (l.any (id · = keyId)) := by
  induction h with
  | nil => rfl
  | @cons item a _ _ ha _ ih =>
    rw [Json.someOf, ReadAs.sameId id hid hkey ha, ih, List.any_cons]
    cases decide (id a = keyId) <;> rfl

theorem ReadAs.filterOf (h : ReadAs read items l) :
    ∃ kept, Json.filterOf (Server.otherId key) items = some kept ∧
      ReadAs read kept (l.filter (id · ≠ keyId)) := by
  induction h with
  | nil => exact ⟨[], rfl, .nil⟩
  | @cons item a _ _ ha _ ih =>
    obtain ⟨kept, hkept, hread⟩ := ih
    rw [Json.filterOf, ReadAs.otherId id hid hkey ha, hkept, List.filter_cons]
    by_cases hk : id a = keyId
    · exact ⟨kept, by simp [hk], by simpa [hk] using hread⟩
    · have hcons : ReadAs read (item :: kept) (a :: _) := .cons ha hread
      exact ⟨item :: kept, by simp [hk], by simpa [hk] using hcons⟩

end

theorem recipe_id {item : Json} {recipe : Recipe}
    (h : readObject (readRecipe stringify) item = some recipe) :
    (item.prop "id").bind optionalId = some recipe.id := by
  obtain ⟨fields, rfl, hread⟩ := readObject_some.mp h
  exact (readRecipe_some.mp hread).1

theorem favorite_id {item : Json} {favorite : Favorite}
    (h : readObject (readFavorite stringify) item = some favorite) :
    (item.prop "id").bind optionalId = some (some favorite.id) := by
  obtain ⟨fields, rfl, hread⟩ := readObject_some.mp h
  exact optionalId_of_readId (readFavorite_some.mp hread).1

end IngrediGo.Server
