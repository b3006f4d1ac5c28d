import IngrediGo.Lib.Lists
import Mathlib.Data.List.Sort

/-!
# Plain objects

JavaScript objects used as maps from strings: the own properties in the order they were
created. Reading a property the object does not have falls through to `Object.prototype`,
and assigning `__proto__` sets the prototype instead of a property; a property written in
an object literal (`{ ...prev, [key]: value }`) is always an own one.
-/

namespace IngrediGo

open Lib

structure Object (α : Type) where
  own : List (String × α)
  nodup : (own.map (·.1)).Nodup

namespace Object

variable {α : Type}

/-- The names of the own properties. -/
def names (o : Object α) : List String := o.own.map (·.1)

/-- `{}` -/
def empty : Object α := ⟨[], List.nodup_nil⟩

/-- The value of an own property. -/
def lookup (o : Object α) (key : String) : Option α :=
  (o.own.find? (·.1 = key)).map (·.2)

/-- What `define` leaves in the place of a property. -/
def redefined (key : String) (value : α) (p : String × α) : String × α :=
  if p.1 = key then (key, value) else p

/-- The properties once `key` is an own one, with this value. -/
def defined (own : List (String × α)) (key : String) (value : α) : List (String × α) :=
  if key ∈ own.map (·.1) then own.map (redefined key value) else own ++ [(key, value)]

theorem redefined_fst (key : String) (value : α) (p : String × α) :
    (redefined key value p).1 = p.1 := by
  unfold redefined
  split
  · next h => exact h.symm
  · rfl

theorem map_redefined (own : List (String × α)) (key : String) (value : α) :
    (own.map (redefined key value)).map (·.1) = own.map (·.1) := by
  rw [List.map_map]
  exact List.map_congr_left fun p _ => redefined_fst key value p

theorem nodup_defined {own : List (String × α)} (h : (own.map (·.1)).Nodup) (key : String)
    (value : α) : ((defined own key value).map (·.1)).Nodup := by
  unfold defined
  split
  · rwa [map_redefined]
  · next hk => exact Keyed.nodup_keys_concat h hk

/-- `{ ...o, [key]: value }` -/
def define (o : Object α) (key : String) (value : α) : Object α :=
  ⟨defined o.own key value, nodup_defined o.nodup key value⟩

/-- `o[key] = value`, of a value that is no object. -/
def assign (o : Object α) (key : String) (value : α) : Object α :=
  if key = "__proto__" ∧ key ∉ o.names then o else o.define key value

/-- The properties of `Object.prototype`; all of them are functions or objects. -/
def inherited : List String :=
  ["__defineGetter__", "__defineSetter__", "__lookupGetter__", "__lookupSetter__", "__proto__",
   "constructor", "hasOwnProperty", "isPrototypeOf", "propertyIsEnumerable", "toLocaleString",
   "toString", "valueOf"]

/-- `o[key]` as a condition. -/
def truthyAt (o : Object Bool) (key : String) : Bool :=
  match o.lookup key with
  | some value => value
  | none => key ∈ inherited

/-- The number a canonical array index stands for, below 2³² - 1. -/
def arrayIndex (key : String) : Option Nat :=
  let n := key.toList.foldl (fun n c => 10 * n + (c.toNat - '0'.toNat)) 0
  if toString n = key ∧ n < 4294967295 then some n else none

/-- `Object.keys(o)`: array indices in numeric order, then the other names as created. -/
def keys (o : Object α) : List String :=
  (o.names.filter fun key => (arrayIndex key).isSome).insertionSort
      (fun a b => (arrayIndex a).getD 0 ≤ (arrayIndex b).getD 0) ++
    o.names.filter fun key => !(arrayIndex key).isSome

/-! ## Reading what was written -/

variable {o : Object α} {key k : String} {value : α}

theorem keys_perm (o : Object α) : o.keys.Perm o.names := by
  refine ((List.perm_insertionSort _ _).append_right _).trans ?_
  exact List.filter_append_perm _ _

theorem nodup_keys (o : Object α) : o.keys.Nodup := (keys_perm o).nodup_iff.mpr o.nodup

@[simp] theorem mem_keys : k ∈ o.keys ↔ k ∈ o.names := (keys_perm o).mem_iff

@[simp] theorem names_empty : (empty : Object α).names = [] := rfl

theorem lookup_eq_none : o.lookup k = none ↔ k ∉ o.names := by
  rw [lookup, Option.map_eq_none_iff, List.find?_eq_none, names, Keyed.mem_keys]
  simp only [decide_eq_true_eq, not_exists, not_and]

@[simp] theorem mem_names_define : k ∈ (o.define key value).names ↔ k ∈ o.names ∨ k = key := by
  show k ∈ (defined o.own key value).map (·.1) ↔ _
  unfold defined
  split
  · next h =>
    rw [map_redefined]
    exact ⟨.inl, fun hk => hk.elim (fun hk => hk) fun hk => hk ▸ h⟩
  · simp [names]

theorem find_redefined (own : List (String × α)) (key k : String) (value : α) :
    (own.map (redefined key value)).find? (·.1 = k) =
      (own.find? (·.1 = k)).map (redefined key value) := by
  rw [List.find?_map]
  congr 2
  funext p
  simp [redefined_fst]

@[simp] theorem lookup_define_self : (o.define key value).lookup key = some value := by
  show ((defined o.own key value).find? (·.1 = key)).map (·.2) = _
  unfold defined
  split
  · next h =>
    rw [find_redefined]
    cases hp : o.own.find? (·.1 = key) with
    | none => exact absurd h (lookup_eq_none.mp (by simp [lookup, hp]))
    | some p =>
      have hpk : p.1 = key := Lib.Keyed.key_of_find hp
      simp [redefined, hpk]
  · next h =>
    have hnone : o.own.find? (·.1 = key) = none := by
      simpa [lookup] using lookup_eq_none.mpr h
    rw [List.find?_append, hnone]
    simp

theorem lookup_define_ne (h : k ≠ key) : (o.define key value).lookup k = o.lookup k := by
  show ((defined o.own key value).find? (·.1 = k)).map (·.2) = _
  unfold defined lookup
  split
  · rw [find_redefined]
    cases hp : o.own.find? (·.1 = k) with
    | none => rfl
    | some p =>
      have hpk : p.1 = k := Lib.Keyed.key_of_find hp
      simp [redefined, hpk, h]
  · rw [List.find?_append]
    cases o.own.find? (·.1 = k) with
    | none => simp [Ne.symm h]
    | some p => rfl

@[simp] theorem truthyAt_define (o : Object Bool) (key k : String) (value : Bool) :
    (o.define key value).truthyAt k = if k = key then value else o.truthyAt k := by
  unfold truthyAt
  by_cases h : k = key
  · subst h
    rw [lookup_define_self, if_pos rfl]
  · rw [lookup_define_ne h, if_neg h]

/-- An assignment creates the property, unless it sets the prototype. -/
theorem mem_names_assign (h : "__proto__" ∉ o.names) :
    k ∈ (o.assign key value).names ↔ k ∈ o.names ∨ k = key ∧ k ≠ "__proto__" := by
  unfold assign
  split
  · next hkey =>
    refine (or_iff_left_of_imp ?_).symm
    rintro ⟨rfl, hk⟩
    exact absurd hkey.1 hk
  · next hkey =>
    rw [mem_names_define]
    refine or_congr_right (and_iff_left_of_imp ?_).symm
    rintro rfl rfl
    exact hkey ⟨rfl, h⟩

/-- Assigning `false` leaves nothing checked that was not. -/
theorem truthyAt_assign_false {o : Object Bool} (h : ∀ k ∈ o.names, o.truthyAt k = false) :
    ∀ k ∈ (o.assign key false).names, (o.assign key false).truthyAt k = false := by
  unfold assign
  split
  · exact h
  · intro k hk
    rw [truthyAt_define]
    split
    · rfl
    · next hne => exact h k ((mem_names_define.mp hk).resolve_right hne)

/-- Without an own `__proto__` the prototype is read, and counts as true. -/
theorem truthyAt_proto {o : Object Bool} (h : "__proto__" ∉ o.names) :
    o.truthyAt "__proto__" = true := by
  rw [truthyAt, lookup_eq_none.mpr h]
  decide

end Object

end IngrediGo
