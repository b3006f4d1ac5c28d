import IngrediGo.Favorites.Service
import IngrediGo.Lib.ReadModifyWrite

/-!
# Overlapping favourite edits

Any number of `addFavorite` and `removeFavorite` calls, from any number of screens, with
their requests interleaved in any way and none failing: the read-modify-write calls of
`Lib.Rmw` on the server's list. A call is `done` once it has returned success.

A favourite no call removes stays in every interleaving. What a call adds or removes can
be undone by a call on another id whose `GET` came before that call's `POST` and whose own
`POST` comes after; `edits_kept` says that nothing else can undo it.
-/

namespace IngrediGo.FavoritesService

open Lib Lib.Rmw

/-- One call. -/
inductive Edit where
  | add (favorite : Favorite)
  | remove (favoriteId : ItemId)
  deriving DecidableEq, Repr

/-- The id a call is about. -/
def Edit.id : Edit → ItemId
  | .add favorite => favorite.id
  | .remove favoriteId => favoriteId

def Edit.isAdd : Edit → Bool
  | .add _ => true
  | .remove _ => false

/-- The list a call posts, computed from the list its `GET` answered. -/
def Edit.updatedFavorites : Edit → List Favorite → Option (List Favorite)
  | .add favorite, currentFavorites => addFavorite.updatedFavorites currentFavorites favorite
  | .remove favoriteId, currentFavorites =>
    some (removeFavorite.updatedFavorites currentFavorites favoriteId)

/-- The server's list and the calls made so far. -/
abbrev Edits := Rmw.State (List Favorite) Edit

/-- A call is made, or the server executes the `GET` or the `POST` of a call. -/
abbrev Edits.step (s : Edits) (a : Rmw.Act Edit) : Option Edits :=
  Rmw.step Edit.updatedFavorites s a

/-- The store lists id `x`. -/
abbrev Listed (x : ItemId) (l : List Favorite) : Prop := x ∈ favoriteIds l

/-- When the `POST` of a call on `x` is executed, no call on another id is about to post
a list that disagrees with it about `x`. -/
abbrev NoOverlap (x : ItemId) : Edits → Rmw.Act Edit → Prop :=
  Rmw.Undisturbed (fun e : Edit => e.id = x) (Listed x)

/-! ## One edit -/

/-- A call leaves other ids as it found them. -/
theorem updated_other {x : ItemId} {e : Edit} {l l' : List Favorite} (hx : ¬ e.id = x)
    (h : e.updatedFavorites l = some l') : Listed x l' ↔ Listed x l := by
  cases e with
  | add favorite =>
    obtain ⟨-, rfl⟩ := added_some.mp h
    refine Keyed.mem_keys_concat.trans (or_iff_left ?_)
    exact fun h => hx h.symm
  | remove favoriteId =>
    cases h
    exact mem_removed.trans (and_iff_left fun h => hx h.symm)

theorem updated_add {x : ItemId} {e : Edit} {l l' : List Favorite} (ha : e.isAdd = true)
    (hx : e.id = x) (h : e.updatedFavorites l = some l') : Listed x l' := by
  cases e with
  | add favorite =>
    obtain ⟨-, rfl⟩ := added_some.mp h
    exact Keyed.mem_keys_concat.mpr (.inr hx.symm)
  | remove _ => cases ha

theorem updated_remove {x : ItemId} {e : Edit} {l l' : List Favorite} (ha : e.isAdd = false)
    (hx : e.id = x) (h : e.updatedFavorites l = some l') : ¬ Listed x l' := by
  cases e with
  | add _ => cases ha
  | remove favoriteId =>
    cases h
    exact fun hm => (mem_removed.mp hm).2 hx.symm

/-- Only an `addFavorite` that finds the id posts nothing. -/
theorem updated_none {e : Edit} {l : List Favorite} (h : e.updatedFavorites l = none) :
    e.isAdd = true ∧ Listed e.id l := by
  cases e with
  | add favorite => exact ⟨rfl, added_none.mp h⟩
  | remove _ => cases h

/-- A record stays when the call does not remove its id. -/
theorem updated_record {f : Favorite} {e : Edit} {l l' : List Favorite}
    (he : e ≠ .remove f.id) (hf : f ∈ l) (h : e.updatedFavorites l = some l') : f ∈ l' := by
  cases e with
  | add favorite =>
    obtain ⟨-, rfl⟩ := added_some.mp h
    exact List.mem_append_left _ hf
  | remove favoriteId =>
    cases h
    refine List.mem_filter.mpr ⟨hf, ?_⟩
    simpa using fun hid => he (by rw [hid])

/-- A call keeps ids distinct. -/
theorem uniqueIds_updated (e : Edit) {l l' : List Favorite} (hl : UniqueIds l)
    (h : e.updatedFavorites l = some l') : UniqueIds l' := by
  cases e with
  | add favorite =>
    obtain ⟨hnew, rfl⟩ := added_some.mp h
    exact Keyed.nodup_keys_concat hl hnew
  | remove favoriteId =>
    cases h
    exact Keyed.nodup_keys_filter hl

/-- The store after the call alone, its two requests answered. -/
def Edit.alone : Edit → List Favorite → List Favorite
  | .add favorite, file => (addFavorite file favorite .answered .answered).1
  | .remove favoriteId, file => (removeFavorite file favoriteId .answered .answered).1

theorem alone_eq (e : Edit) (file : List Favorite) :
    e.alone file = (e.updatedFavorites file).getD file := by
  cases e with
  | add favorite =>
    show (addFavorite file favorite .answered .answered).1 =
      (addFavorite.updatedFavorites file favorite).getD file
    unfold addFavorite
    rw [getFavorites_answered]
    cases addFavorite.updatedFavorites file favorite with
    | none => rfl
    | some _ => rfl
  | remove _ => rfl

/-- One call with nothing in between does what the service's function does. -/
theorem reach_alone (e : Edit) (file : List Favorite) :
    ∃ t : Edits, Reach Edits.step Free (Rmw.State.init file) t ∧ t.Done ∧ t.ops = [e] ∧
      t.store = e.alone file := by
  have hcall : Reach Edits.step Free (Rmw.State.init file) ⟨file, [⟨e, .reading⟩]⟩ :=
    .next (a := .call e) .start trivial rfl
  have hread := hcall.next (a := .read 0) trivial (rfl : Edits.step _ _ = some
    ⟨file, [⟨e, afterRead (e.updatedFavorites file)⟩]⟩)
  rw [alone_eq]
  cases h : e.updatedFavorites file with
  | none =>
    rw [h] at hread
    exact ⟨_, hread, by simp [Rmw.State.Done, afterRead], rfl, rfl⟩
  | some l =>
    rw [h] at hread
    exact ⟨⟨l, [⟨e, .done⟩]⟩, hread.next (a := .write 0) trivial rfl, by simp [Rmw.State.Done],
      rfl, rfl⟩

/-! ## All interleavings -/

/-- Every favourite that some call adds and none removes is in the store. -/
def AddsKept (t : Edits) : Prop :=
  ∀ x, (∃ e ∈ t.ops, e.id = x ∧ e.isAdd = true) → .remove x ∉ t.ops → Listed x t.store

/-- Every favourite that was there at the start and no call removes is in the store. -/
def OthersKept (favorites : List Favorite) (t : Edits) : Prop :=
  ∀ f ∈ favorites, .remove f.id ∉ t.ops → f ∈ t.store

/-- Every id that some call removes and none adds is absent. -/
def RemovesKept (t : Edits) : Prop :=
  ∀ x, .remove x ∈ t.ops → (∀ e ∈ t.ops, e.id = x → e.isAdd = false) → ¬ Listed x t.store

/-- A favourite no call removes is never lost. -/
theorem others_kept {favorites : List Favorite} {t : Edits}
    (h : Reach Edits.step Free (Rmw.State.init favorites) t) : OthersKept favorites t := by
  intro f hf hrem
  refine (Rmw.kept (fun e => e ≠ .remove f.id) (fun l => f ∈ l)
    (fun e l l' he hl hu => updated_record he hl hu) h ?_ hf).store
  rintro e he rfl
  exact hrem he

/-- A call that adds `x`, undisturbed, is not lost to a call on another id. -/
theorem adds_kept {favorites : List Favorite} {t : Edits} {x : ItemId}
    (h : Reach Edits.step (NoOverlap x) (Rmw.State.init favorites) t) (hd : t.Done)
    (hadd : ∃ e ∈ t.ops, e.id = x ∧ e.isAdd = true) (hrem : .remove x ∉ t.ops) :
    Listed x t.store := by
  have hgood : ∀ e ∈ t.ops, e.id = x → e.isAdd = true := by
    rintro (f | y) he rfl
    · rfl
    · exact absurd he hrem
  have hs := Rmw.settled (fun e : Edit => e.id = x → e.isAdd = true)
    (fun e l l' hx hu => updated_other hx hu)
    (fun e l l' hg hx hu => updated_add (hg hx) hx hu)
    (fun e l hg hx hu => hx ▸ (updated_none hu).2) h hgood
  obtain ⟨e, he, hx, -⟩ := hadd
  obtain ⟨c, hc, rfl⟩ := List.mem_map.mp he
  exact hs c hc hx (hd c hc)

/-- A call that removes `x`, undisturbed, is not lost to a call on another id. -/
theorem removes_kept {favorites : List Favorite} {t : Edits} {x : ItemId}
    (h : Reach Edits.step (NoOverlap x) (Rmw.State.init favorites) t) (hd : t.Done)
    (hrem : .remove x ∈ t.ops) (hadd : ∀ e ∈ t.ops, e.id = x → e.isAdd = false) :
    ¬ Listed x t.store := by
  have hs := Rmw.settled (P := fun l => ¬ Listed x l)
    (fun e : Edit => e.id = x → e.isAdd = false)
    (fun e l l' hx hu => not_congr (updated_other hx hu))
    (fun e l l' hg hx hu => updated_remove (hg hx) hx hu)
    (fun e l hg hx hu => by have := (updated_none hu).1; rw [hg hx] at this; cases this)
    (h.mono fun _ _ => Undisturbed.not) hadd
  obtain ⟨c, hc, he⟩ := List.mem_map.mp hrem
  exact hs c hc (by rw [he]; rfl) (hd c hc)

/-- **What overlapping edits keep.** In every interleaving the favourites no call removes
stay. An id that calls only add is in the store, and one that calls only remove is absent,
when no call on another id overlaps a `POST` on that id. -/
theorem edits_kept {favorites : List Favorite} {t : Edits}
    (h : Reach Edits.step Free (Rmw.State.init favorites) t) (hd : t.Done) :
    OthersKept favorites t ∧
    ∀ x, Reach Edits.step (NoOverlap x) (Rmw.State.init favorites) t →
      ((∃ e ∈ t.ops, e.id = x ∧ e.isAdd = true) → .remove x ∉ t.ops → Listed x t.store) ∧
      (.remove x ∈ t.ops → (∀ e ∈ t.ops, e.id = x → e.isAdd = false) → ¬ Listed x t.store) :=
  ⟨others_kept h, fun _ hx => ⟨adds_kept hx hd, removes_kept hx hd⟩⟩

/-- `1` is added by two overlapping calls, and `2` removed by one that overlaps the second of
them but has read the first one's list. -/
def overlapping : List (Rmw.Act Edit) :=
  [.call (.add (.bare (.num 1))), .call (.add (.bare (.num 1))), .read 0, .read 1, .write 0,
    .call (.remove (.num 2)), .read 2, .write 1, .write 2]

theorem edits_kept_overlapping : ∃ t : Edits,
    t.Done ∧ Listed (.num 1) t.store ∧ ¬ Listed (.num 2) t.store := by
  let t : Edits := ⟨[.bare (.num 1)], [⟨.add (.bare (.num 1)), .done⟩,
    ⟨.add (.bare (.num 1)), .done⟩, ⟨.remove (.num 2), .done⟩]⟩
  have h1 : Reach Edits.step (NoOverlap (.num 1)) (Rmw.State.init [.bare (.num 2)]) t :=
    Reach.start.exec overlapping (by decide)
  have h2 : Reach Edits.step (NoOverlap (.num 2)) (Rmw.State.init [.bare (.num 2)]) t :=
    Reach.start.exec overlapping (by decide)
  have hd : t.Done := by decide
  obtain ⟨-, hkept⟩ := edits_kept h1.free hd
  exact ⟨t, hd, (hkept (.num 1) h1).1 (by decide) (by decide),
    (hkept (.num 2) h2).2 (by decide) (by decide)⟩

/-- Two hearts tapped in quick succession: both calls read the empty list, and the second
`POST` drops what the first one added. -/
def twoHearts : List (Rmw.Act Edit) :=
  [.call (.add (.bare (.num 1))), .call (.add (.bare (.num 2))), .read 0, .read 1, .write 0, .write 1]

theorem not_edits_kept : ¬ ∀ (favorites : List Favorite) (t : Edits),
    Reach Edits.step Free (Rmw.State.init favorites) t → t.Done →
      AddsKept t ∧ OthersKept favorites t ∧ RemovesKept t := by
  intro h
  let t : Edits := ⟨[.bare (.num 2)],
    [⟨.add (.bare (.num 1)), .done⟩, ⟨.add (.bare (.num 2)), .done⟩]⟩
  have ht : Reach Edits.step Free (Rmw.State.init []) t := Reach.start.exec twoHearts (by decide)
  have hlost := (h [] t ht (by decide)).1 (.num 1) (by decide) (by decide)
  exact absurd hlost (by decide)

end IngrediGo.FavoritesService
