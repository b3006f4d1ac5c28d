import IngrediGo.Data.Number
import IngrediGo.Data.Value
import Mathlib.Data.List.Basic

/-!
# JSON values

Any JSON value, for the code that takes what it is given without a check. Reading a property
of `null` throws, and so does calling an array's method on anything but an array; `none` is
an exception.
-/

namespace IngrediGo

open Number (Double)

inductive Json where
  | null
  | bool (b : Bool)
  | num (n : Double)
  | str (s : String)
  | arr (items : List Json)
  | obj (fields : List (String × Json))

instance : Js Json where
  truthy
    | .null => false
    | .bool b => b
    | .num n => Js.truthy n.value
    | .str s => Js.truthy s
    | .arr _ => true
    | .obj _ => true

namespace Json

/-- The value of a field, or `none` when there is none. -/
def field (fields : List (String × Json)) (key : String) : Option Json :=
  (fields.find? (·.1 = key)).map (·.2)

/-- `item[key]`, of a name that only a record has: `some none` is `undefined`. -/
def prop (key : String) : Json → Option (Option Json)
  | .null => none
  | .obj fields => some (field fields key)
  | _ => some none

/-- A whole number below 2⁵³. -/
abbrev nat (n : ℕ) (h : n < 2 ^ 53 := by decide) : Json := .num (.ofNat n h)

/-- `a === b`. No two arrays or objects read from different texts are the same. -/
def strictEq : Option Json → Option Json → Bool
  | none, none => true
  | some .null, some .null => true
  | some (.bool a), some (.bool b) => a = b
  | some (.num a), some (.num b) => a = b
  | some (.str a), some (.str b) => a = b
  | _, _ => false

/-- The list whose `some`, `map` and `filter` are called. -/
def asArray : Json → Option (List Json)
  | .arr items => some items
  | _ => none

/-- The fields of `{ ...item }`. -/
def spread : Json → List (String × Json)
  | .obj fields => fields
  | .arr items => items.mapIdx fun i item => (toString i, item)
  | .str s => s.toList.mapIdx fun i c => (toString i, .str c.toString)
  | _ => []

/-- `{ ...fields, [key]: value }` -/
def override (fields : List (String × Json)) (key : String) (value : Json) : Json :=
  .obj (fields.filter (·.1 ≠ key) ++ [(key, value)])

/-- `items.some(f)` -/
def someOf (f : Json → Option Bool) : List Json → Option Bool
  | [] => some false
  | item :: items =>
    match f item with
    | none => none
    | some true => some true
    | some false => someOf f items

/-- `items.filter(f)` -/
def filterOf (f : Json → Option Bool) : List Json → Option (List Json)
  | [] => some []
  | item :: items =>
    match f item with
    | none => none
    | some keep => (filterOf f items).map fun kept => if keep then item :: kept else kept

variable {f : Json → Option Bool} {items : List Json}

@[simp] theorem prop_eq_none {key : String} {item : Json} : item.prop key = none ↔ item = null := by
  cases item <;> simp [prop]

/-- `some` stops at the first item that meets the condition. -/
theorem someOf_isSome (h : ∀ item ∈ items, f item ≠ none) : (someOf f items).isSome = true := by
  induction items with
  | nil => rfl
  | cons item items ih =>
    obtain ⟨hitem, hrest⟩ := List.forall_mem_cons.mp h
    unfold someOf
    split
    · next hf => exact absurd hf hitem
    · rfl
    · exact ih hrest

/-- `filter` looks at every item. -/
theorem filterOf_isSome : (filterOf f items).isSome = true ↔ ∀ item ∈ items, f item ≠ none := by
  induction items with
  | nil => simp [filterOf]
  | cons item items ih =>
    rw [List.forall_mem_cons, ← ih, filterOf]
    cases hf : f item with
    | none => exact iff_of_false Bool.false_ne_true fun h => h.1 rfl
    | some keep =>
      rw [Option.isSome_map]
      exact (and_iff_right (Option.some_ne_none keep)).symm

end Json

end IngrediGo
