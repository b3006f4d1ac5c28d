import IngrediGo.Favorites.Edits
import IngrediGo.Favorites.Sync

/-!
# Favourite ids stay unique

One device: its Favorites screen and the hearts tapped on its Location screens, over the
same server. `addFavorite` checks that the id is new; `undoDelete` appends the batch to
the list with no such check. `ids_unique`: the ids in the store and on the screen stay
pairwise distinct exactly as long as `Undo` is only pressed with none of the batch on the
list (`Apart`).
-/

namespace IngrediGo

open Lib FavoritesScreen FavoritesService

structure Device where
  favorites : System
  /-- The calls of the hearts tapped. -/
  hearts : List (Rmw.Call (List Favorite) Edit)
  deriving DecidableEq, Repr

namespace Device

def initial (store : List Favorite) : Device := ⟨.initial store, []⟩

inductive Act where
  | screen (a : FavoritesScreen.Act)
  | heart (a : Rmw.Act Edit)
  deriving DecidableEq, Repr

/-- The server's list and the hearts' calls. -/
def edits (d : Device) : Edits := ⟨d.favorites.store, d.hearts⟩

def step (d : Device) : Act → Option Device
  | .screen a => (d.favorites.step a).map fun favorites => { d with favorites := favorites }
  | .heart a => (d.edits.step a).map fun edits =>
      ⟨{ d.favorites with store := edits.store }, edits.calls⟩

/-- No favourite of the batch is on the list. -/
def Apart (d : Device) : Prop :=
  ∀ id ∈ favoriteIds d.favorites.screen.favorites,
    id ∉ favoriteIds d.favorites.screen.recentlyDeleted

instance (d : Device) : Decidable d.Apart :=
  inferInstanceAs (Decidable (∀ id ∈ favoriteIds _, _))

/-- `Undo` is pressed only with the batch off the list. -/
def UndoApart (d : Device) (a : Act) : Prop := a = .screen .undo → d.Apart

instance (d : Device) (a : Act) : Decidable (d.UndoApart a) := inferInstanceAs (Decidable (_ → _))

/-! ## The invariant -/

/-- The list a request carries. -/
def carried : Flight → List Favorite
  | .save _ body => body
  | .loaded (.ok data) => data
  | _ => []

/-- Every list there is has distinct ids. -/
structure Distinct (d : Device) : Prop where
  edits : Rmw.Kept UniqueIds d.edits
  list : UniqueIds d.favorites.screen.favorites
  batch : UniqueIds d.favorites.screen.recentlyDeleted
  requests : ∀ r ∈ d.favorites.requests, UniqueIds (carried r.flight)

theorem Distinct.initial {store : List Favorite} (h : UniqueIds store) :
    Distinct (.initial store) where
  edits := Rmw.Kept.init h
  list := List.nodup_nil
  batch := List.nodup_nil
  requests r hr := by cases hr

theorem uniqueIds_append {l l' : List Favorite} :
    UniqueIds (l ++ l') ↔
      UniqueIds l ∧ UniqueIds l' ∧ ∀ id ∈ favoriteIds l, id ∉ favoriteIds l' := by
  simp only [UniqueIds, favoriteIds, List.map_append, List.nodup_append']
  rfl

/-- What pressing `Undo` does to the ids of the list. -/
theorem uniqueIds_restored {d : Device} (h : Distinct d) :
    UniqueIds d.favorites.screen.restoredItems ↔ d.Apart := by
  refine uniqueIds_append.trans ⟨fun hu => hu.2.2, fun ha => ⟨h.list, h.batch, ha⟩⟩

/-- A tap, a tick or a request of the Favorites screen. -/
theorem Distinct.screen {d : Device} {s : System} {a : FavoritesScreen.Act} (h : Distinct d)
    (hg : d.UndoApart (.screen a)) (hs : d.favorites.step a = some s) :
    Distinct { d with favorites := s } := by
  have hrequests : ∀ r ∈ s.requests, UniqueIds (carried r.flight) := by
    refine forall_requests_step h.requests hs ?_ ?_ ?_ ?_ ?_
    · exact fun _ => List.nodup_nil
    · exact fun _ => Keyed.nodup_keys_filter h.list
    · exact fun ha => (uniqueIds_restored h).mpr (hg (by rw [ha]))
    · intro n outcome tag _ _
      cases outcome with
      | answered => exact h.edits.store
      | errorStatus => exact List.nodup_nil
      | unreachable _ => exact List.nodup_nil
    · exact fun _ _ _ _ _ _ _ => List.nodup_nil
  cases stepped hs with
  | focus _ _ => exact ⟨h.edits, h.list, h.batch, hrequests⟩
  | blur _ => exact ⟨h.edits, h.list, h.batch, hrequests⟩
  | unmount _ => exact ⟨h.edits, h.list, h.batch, hrequests⟩
  | select itemId _ _ _ =>
    refine ⟨h.edits, ?_, h.batch, hrequests⟩
    show (favoriteIds (d.favorites.screen.toggleSelection itemId).favorites).Nodup
    rw [ids_toggleSelection]
    exact h.list
  | delete _ _ =>
    exact ⟨h.edits, Keyed.nodup_keys_filter h.list, Keyed.nodup_keys_filter h.list, hrequests⟩
  | undo _ _ =>
    exact ⟨h.edits, (uniqueIds_restored h).mpr (hg rfl), h.batch, hrequests⟩
  | tick _ _ =>
    refine ⟨h.edits, ?_, ?_, hrequests⟩
    · show UniqueIds d.favorites.screen.tick.favorites
      rw [tick_favorites]
      exact h.list
    · show UniqueIds d.favorites.screen.tick.recentlyDeleted
      rcases tick_recentlyDeleted d.favorites.screen with ht | ht <;> rw [ht]
      · exact h.batch
      · exact List.nodup_nil
  | serveLoad _ _ _ _ _ => exact ⟨h.edits, h.list, h.batch, hrequests⟩
  | serveSave outcome tag kind body before after hr =>
    have hbody : UniqueIds body := h.requests ⟨tag, .save kind body⟩ (by simp [hr])
    refine ⟨h.edits.overwrite ?_, h.list, h.batch, hrequests⟩
    rcases Server.post_or d.favorites.store body outcome with hs | hs <;> rw [hs]
    · exact h.edits.store
    · exact hbody
  | replyLoad tag response before after hr =>
    have hdata : UniqueIds (carried (.loaded response)) :=
      h.requests ⟨tag, .loaded response⟩ (by simp [hr])
    refine ⟨h.edits, ?_, h.batch, hrequests⟩
    show (favoriteIds ((loadFavorites response).1.map deselect)).Nodup
    rw [ids_map_deselect]
    cases response with
    | ok data => exact hdata
    | status _ => exact List.nodup_nil
    | rejected _ => exact List.nodup_nil
  | replySave tag kind response before after hr =>
    refine ⟨h.edits, ?_, ?_, hrequests⟩
    · show UniqueIds (d.favorites.screen.saveOver kind response).favorites
      rw [saveOver_favorites]
      exact h.list
    · cases kind with
      | delete => exact h.batch
      | undo => exact List.nodup_nil

theorem Distinct.step {d e : Device} {a : Act} (h : Distinct d) (hg : d.UndoApart a)
    (hs : d.step a = some e) : Distinct e := by
  cases a with
  | screen a =>
    obtain ⟨s, hstep, rfl⟩ := Option.map_eq_some_iff.mp hs
    exact h.screen hg hstep
  | heart a =>
    obtain ⟨edits, hstep, rfl⟩ := Option.map_eq_some_iff.mp hs
    exact ⟨h.edits.step (fun c _ _ _ => uniqueIds_updated c.op) hstep, h.list, h.batch, h.requests⟩

/-- **Ids stay unique** as long as `Undo` finds the batch off the list, and no longer. -/
theorem ids_unique {store : List Favorite} (h0 : UniqueIds store) {d : Device}
    (h : Reach step UndoApart (initial store) d) :
    UniqueIds d.favorites.store ∧ UniqueIds d.favorites.screen.favorites ∧
      ∀ e, d.step (.screen .undo) = some e →
        (UniqueIds e.favorites.screen.favorites ↔ d.Apart) := by
  have hd : Distinct d := h.invariant (.initial h0) fun _ _ _ hd hg hs => hd.step hg hs
  refine ⟨hd.edits.store, hd.list, fun e he => ?_⟩
  obtain ⟨s, hs, rfl⟩ := Option.map_eq_some_iff.mp he
  generalize ha : FavoritesScreen.Act.undo = a at hs
  cases stepped hs with
  | undo _ _ => exact uniqueIds_restored hd
  | _ => cases ha

/-- `2` is hearted; `1` is deleted and restored. -/
def heartDeleteUndo : List Act :=
  [.heart (.call (.add (.bare (.num 2)))), .heart (.read 0), .heart (.write 0)] ++
  [.focus, .serve 0 .answered, .reply 0, .select (.num 1), .delete, .serve 0 .answered, .reply 0,
    .undo].map .screen

theorem ids_unique_heartDeleteUndo : ∃ d : Device,
    d.favorites.screen.favorites.length = 2 ∧ UniqueIds d.favorites.screen.favorites := by
  obtain ⟨d, hd, hlen⟩ := Reach.of_exec step UndoApart (initial [.bare (.num 1)]) heartDeleteUndo
    (fun d => d.favorites.screen.favorites.length = 2) (by decide)
  exact ⟨d, hlen, (ids_unique (by decide) hd).2.1⟩

/-! ## Ids that repeat -/

/-- What a run on one device is: no request fails, and every heart is over before
anything happens on the Favorites screen. -/
def OneDevice (d : Device) : Act → Prop
  | .screen a => NoFailure d.favorites a ∧ ∀ c ∈ d.hearts, c.phase = .done
  | .heart _ => True

instance (d : Device) : ∀ a, Decidable (d.OneDevice a)
  | .screen a =>
    inferInstanceAs (Decidable (NoFailure d.favorites a ∧ ∀ c ∈ d.hearts, c.phase = .done))
  | .heart _ => .isTrue trivial

/-- `Undo` is pressed twice before its save is over. -/
def undoTwice : List Act :=
  [.focus, .serve 0 .answered, .reply 0, .select (.num 1), .delete, .serve 0 .answered, .reply 0,
    .undo, .undo].map .screen

theorem not_ids_unique : ¬ ∀ store : List Favorite, UniqueIds store → ∀ d : Device,
    Reach step OneDevice (initial store) d →
      UniqueIds d.favorites.store ∧ UniqueIds d.favorites.screen.favorites := by
  intro h
  obtain ⟨d, hd, hrep⟩ := Reach.of_exec step OneDevice (initial [.bare (.num 1)]) undoTwice
    (fun d => ¬ UniqueIds d.favorites.screen.favorites) (by decide)
  exact hrep (h _ (by decide) d hd).2

end Device

end IngrediGo
