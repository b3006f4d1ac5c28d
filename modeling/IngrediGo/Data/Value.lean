import Mathlib.Data.Rat.Defs

/-!
# JavaScript values

What the screens read out of the JSON they are given: texts, numbers, ids and
scalar fields. A field that may be missing is an `Option`; `Js.or a b` is
JavaScript's `a || b`, which falls through a missing field and through every
falsy value alike. Numbers are exact (`ℚ`).
-/

namespace IngrediGo

/-- Types whose values JavaScript tests for truth. -/
class Js (α : Type) where
  truthy : α → Bool

/-- `a || b` -/
def Js.or {α : Type} [Js α] (a b : α) : α := if truthy a then a else b

/-- `a || b` for a field that may be missing. -/
def Js.orElse {α : Type} [Js α] (a : Option α) (b : α) : α :=
  match a with
  | some a => Js.or a b
  | none => b

instance : Js Bool where
  truthy b := b

/-- The empty string is falsy. -/
instance : Js String where
  truthy s := s ≠ ""

instance : Js ℚ where
  truthy q := q ≠ 0

/-- A missing field is falsy. -/
instance {α : Type} [Js α] : Js (Option α) where
  truthy
    | some a => Js.truthy a
    | none => false

/-- An id: a JSON number or string. `===` is equality of constructors and contents. -/
inductive ItemId where
  | num (n : ℚ)
  | str (s : String)
  deriving DecidableEq, Repr

instance : Js ItemId where
  truthy
    | .num n => Js.truthy n
    | .str s => Js.truthy s

/-- A field whose shape the code does not check. Arrays and objects are kept as
their JSON text: they are truthy and equal no string. -/
inductive Value where
  | null
  | bool (b : Bool)
  | num (n : ℚ)
  | str (s : String)
  | compound (json : String)
  deriving DecidableEq, Repr

instance : Js Value where
  truthy
    | .null => false
    | .bool b => b
    | .num n => Js.truthy n
    | .str s => Js.truthy s
    | .compound _ => true

/-- The values of `languageOptions`. -/
inductive Lang where
  | en | fr | zh
  deriving DecidableEq, Repr

/-- An object with one text for each language. -/
structure Translations where
  en : Option String
  fr : Option String
  zh : Option String
  deriving DecidableEq, Repr

/-- `tr[lang]` -/
def Translations.get (tr : Translations) : Lang → Option String
  | .en => tr.en
  | .fr => tr.fr
  | .zh => tr.zh

/-- A text given either as one string or as one string for each language. -/
inductive Text where
  | plain (s : String)
  | perLang (tr : Translations)
  deriving DecidableEq, Repr

/-- An object is truthy. -/
instance : Js Text where
  truthy
    | .plain s => Js.truthy s
    | .perLang _ => true

/-- `text?.[lang]`: indexing a string by a language gives `undefined`. -/
def Text.get? (text : Option Text) (lang : Lang) : Option String :=
  match text with
  | some (.perLang tr) => tr.get lang
  | _ => none

/-! ## Reading `a || b` -/

theorem Js.orElse_of_truthy {α : Type} [Js α] {a b : α} (h : Js.truthy a = true) :
    Js.orElse (some a) b = a := by
  simp [Js.orElse, Js.or, h]

theorem Js.orElse_of_falsy {α : Type} [Js α] {a : Option α} {b : α}
    (h : Js.truthy a = false) : Js.orElse a b = b := by
  cases a with
  | none => rfl
  | some a =>
    have ha : Js.truthy a = false := h
    simp [Js.orElse, Js.or, ha]

end IngrediGo
