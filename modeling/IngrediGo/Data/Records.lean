import IngrediGo.Data.Value

/-!
# Records

The records of `data/*.json` and of the two collections the server keeps.
Fields the code reads through `?.` or fills with a default are `Option`s.
-/

namespace IngrediGo

/-- The price range of an ingredient. -/
structure Prices where
  min : Option ℚ
  max : Option ℚ
  avg : Option ℚ
  currency : Option String
  deriving DecidableEq, Repr

/-- One shop of an ingredient's `stores`. -/
structure StoreEntry where
  name : String
  available : Option Value
  aisle : Option Value
  deriving DecidableEq, Repr

structure Ingredient where
  id : Option ItemId
  name : String
  translation : Option Text
  prices : Option Prices
  stores : Option (List StoreEntry)
  deriving DecidableEq, Repr

structure Images where
  main : Option String
  alt1 : Option String
  alt2 : Option String
  deriving DecidableEq, Repr

/-- A recipe of the catalogue or of the bookmarked list. -/
structure Recipe where
  id : Option ItemId
  name : Option Text
  images : Option Images
  description : Option Text
  ingredients : Option (List Ingredient)
  category : Option Text
  bookmarked : Option Bool
  deriving DecidableEq, Repr

/-- A record of the favourites list. The Location screen writes every field but
`selected`, which the Favorites screen adds. -/
structure Favorite where
  id : ItemId
  name : String
  translation : Option Text
  category : Option String
  prices : Option Prices
  recipeId : Option ItemId
  recipeName : Option String
  storeName : String
  location : Value
  timeAdded : String
  originalData : Option Ingredient
  selected : Option Bool
  deriving DecidableEq, Repr

/-- A favourite with nothing but an id, for concrete runs. -/
def Favorite.bare (id : ItemId) : Favorite where
  id := id
  name := ""
  translation := none
  category := none
  prices := none
  recipeId := none
  recipeName := none
  storeName := ""
  location := .null
  timeAdded := ""
  originalData := none
  selected := none

/-- A recipe with nothing but an id, for concrete runs. -/
def Recipe.bare (id : ItemId) : Recipe where
  id := some id
  name := none
  images := none
  description := none
  ingredients := none
  category := none
  bookmarked := none

/-- The ids of a favourites list, in order. -/
def favoriteIds (favorites : List Favorite) : List ItemId := favorites.map (·.id)

abbrev UniqueIds (favorites : List Favorite) : Prop := (favoriteIds favorites).Nodup

end IngrediGo
