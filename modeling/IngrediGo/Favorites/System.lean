import IngrediGo.Favorites.Screen
import IngrediGo.Lib.Lists
import IngrediGo.Lib.Runs

/-!
# The Favorites screen and its requests

One Favorites screen, the requests it has sent that are not over, in the order sent, and
the server's list. A request is executed by the server at some moment (`serve`, with its
outcome) and its answer reaches the screen at some later moment (`reply`); in between the
user may act again and the countdown may tick.

`Stepped` lists everything a step can do; the invariants are proved by cases on it.
-/

namespace IngrediGo.FavoritesScreen

open Lib

/-- Which handler awaits a save. -/
inductive Save where
  | delete
  | undo
  deriving DecidableEq, Repr

/-- A request: sent, or executed with its answer on the way back. -/
inductive Flight where
  | load
  | loaded (response : Response (List Favorite))
  | save (kind : Save) (body : List Favorite)
  | saved (kind : Save) (response : Response Unit)
  deriving DecidableEq, Repr

/-- `tag` numbers the screen's requests. -/
structure Request where
  tag : Nat
  flight : Flight
  deriving DecidableEq, Repr

structure System where
  screen : Screen
  requests : List Request
  nextTag : Nat
  store : List Favorite
  deriving DecidableEq, Repr

/-- The screen just mounted, over a store. -/
def System.initial (store : List Favorite) : System where
  screen := .initial
  requests := []
  nextTag := 0
  store := store

inductive Act where
  | focus
  | blur
  | unmount
  | select (itemId : ItemId)
  | delete
  | undo
  | tick (interval : Nat)
  /-- The server executes request `n` of those in flight, or it fails before that. -/
  | serve (n : Nat) (outcome : Outcome)
  /-- The answer to request `n` of those in flight reaches the screen. -/
  | reply (n : Nat)
  deriving DecidableEq, Repr

/-- Send one more request. -/
def System.send (s : System) (screen : Screen) (flight : Flight) : System :=
  { s with
    screen := screen
    requests := s.requests ++ [⟨s.nextTag, flight⟩]
    nextTag := s.nextTag + 1 }

theorem mem_send {s : System} {screen : Screen} {flight : Flight} {r : Request} :
    r ∈ (s.send screen flight).requests ↔ r ∈ s.requests ∨ r = ⟨s.nextTag, flight⟩ := by
  simp [System.send]

/-- The screen once a save is over. -/
def Screen.saveOver (s : Screen) : Save → Response Unit → Screen
  | .delete, response => s.deleteSaved response
  | .undo, response => s.undoSaved response

@[simp] theorem saveOver_favorites (s : Screen) (kind : Save) (response : Response Unit) :
    (s.saveOver kind response).favorites = s.favorites := by
  cases kind <;> rfl

/-- The list is on show only when nothing is loading, the trash button only with a
selection, the undo banner only with `showUndoDelete`. -/
def System.step (s : System) : Act → Option System
  | .focus =>
    if s.screen.mounted ∧ !s.screen.focused then some (s.send s.screen.focus .load) else none
  | .blur => if s.screen.focused then some { s with screen := s.screen.blur } else none
  | .unmount => if s.screen.mounted then some { s with screen := s.screen.unmount } else none
  | .select itemId =>
    if s.screen.focused ∧ !s.screen.isLoading ∧ itemId ∈ favoriteIds s.screen.favorites then
      some { s with screen := s.screen.toggleSelection itemId }
    else none
  | .delete =>
    if s.screen.focused ∧ s.screen.hasSelectedItems then
      some (s.send s.screen.deleteSelectedItems (.save .delete s.screen.unselectedItems))
    else none
  | .undo =>
    if s.screen.focused ∧ s.screen.showUndoDelete then
      some (s.send s.screen.undoDelete (.save .undo s.screen.restoredItems))
    else none
  | .tick interval =>
    if interval ∈ s.screen.intervals then some { s with screen := s.screen.tick } else none
  | .serve n outcome =>
    match s.requests[n]? with
    | some ⟨tag, .load⟩ =>
      some { s with requests := s.requests.set n ⟨tag, .loaded (Server.get s.store outcome)⟩ }
    | some ⟨tag, .save kind body⟩ =>
      some { s with
        store := (Server.post s.store body outcome).1
        requests := s.requests.set n ⟨tag, .saved kind (Server.post s.store body outcome).2⟩ }
    | _ => none
  | .reply n =>
    match s.requests[n]? with
    | some ⟨_, .loaded response⟩ =>
      some { s with
        screen := s.screen.initializeFavorites response
        requests := s.requests.eraseIdx n }
    | some ⟨_, .saved kind response⟩ =>
      some { s with
        screen := s.screen.saveOver kind response
        requests := s.requests.eraseIdx n }
    | _ => none

/-- Everything a step can do. -/
inductive Stepped (s : System) : Act → System → Prop where
  | focus (hm : s.screen.mounted = true) (hf : s.screen.focused = false) :
      Stepped s .focus (s.send s.screen.focus .load)
  | blur (hf : s.screen.focused = true) : Stepped s .blur { s with screen := s.screen.blur }
  | unmount (hm : s.screen.mounted = true) :
      Stepped s .unmount { s with screen := s.screen.unmount }
  | select (itemId : ItemId) (hf : s.screen.focused = true) (hl : s.screen.isLoading = false)
      (hi : itemId ∈ favoriteIds s.screen.favorites) :
      Stepped s (.select itemId) { s with screen := s.screen.toggleSelection itemId }
  | delete (hf : s.screen.focused = true) (hs : s.screen.hasSelectedItems = true) :
      Stepped s .delete
        (s.send s.screen.deleteSelectedItems (.save .delete s.screen.unselectedItems))
  | undo (hf : s.screen.focused = true) (hs : s.screen.showUndoDelete = true) :
      Stepped s .undo (s.send s.screen.undoDelete (.save .undo s.screen.restoredItems))
  | tick (interval : Nat) (hi : interval ∈ s.screen.intervals) :
      Stepped s (.tick interval) { s with screen := s.screen.tick }
  | serveLoad (outcome : Outcome) (tag : Nat) (before after : List Request)
      (hr : s.requests = before ++ ⟨tag, .load⟩ :: after) :
      Stepped s (.serve before.length outcome)
        { s with requests := before ++ ⟨tag, .loaded (Server.get s.store outcome)⟩ :: after }
  | serveSave (outcome : Outcome) (tag : Nat) (kind : Save) (body : List Favorite)
      (before after : List Request) (hr : s.requests = before ++ ⟨tag, .save kind body⟩ :: after) :
      Stepped s (.serve before.length outcome)
        { s with
          store := (Server.post s.store body outcome).1
          requests := before ++ ⟨tag, .saved kind (Server.post s.store body outcome).2⟩ :: after }
  | replyLoad (tag : Nat) (response : Response (List Favorite)) (before after : List Request)
      (hr : s.requests = before ++ ⟨tag, .loaded response⟩ :: after) :
      Stepped s (.reply before.length)
        { s with screen := s.screen.initializeFavorites response, requests := before ++ after }
  | replySave (tag : Nat) (kind : Save) (response : Response Unit) (before after : List Request)
      (hr : s.requests = before ++ ⟨tag, .saved kind response⟩ :: after) :
      Stepped s (.reply before.length)
        { s with screen := s.screen.saveOver kind response, requests := before ++ after }

theorem stepped {s t : System} {a : Act} (h : s.step a = some t) : Stepped s a t := by
  cases a with
  | focus =>
    simp only [System.step, Option.ite_none_right_eq_some, Option.some.injEq,
      Bool.not_eq_eq_eq_not, Bool.not_true] at h
    obtain ⟨⟨hm, hf⟩, rfl⟩ := h; exact .focus hm hf
  | blur =>
    simp only [System.step, Option.ite_none_right_eq_some, Option.some.injEq] at h
    obtain ⟨hf, rfl⟩ := h; exact .blur hf
  | unmount =>
    simp only [System.step, Option.ite_none_right_eq_some, Option.some.injEq] at h
    obtain ⟨hm, rfl⟩ := h; exact .unmount hm
  | select itemId =>
    simp only [System.step, Option.ite_none_right_eq_some, Option.some.injEq,
      Bool.not_eq_eq_eq_not, Bool.not_true] at h
    obtain ⟨⟨hf, hl, hi⟩, rfl⟩ := h; exact .select itemId hf hl hi
  | delete =>
    simp only [System.step, Option.ite_none_right_eq_some, Option.some.injEq] at h
    obtain ⟨⟨hf, hs⟩, rfl⟩ := h; exact .delete hf hs
  | undo =>
    simp only [System.step, Option.ite_none_right_eq_some, Option.some.injEq] at h
    obtain ⟨⟨hf, hs⟩, rfl⟩ := h; exact .undo hf hs
  | tick interval =>
    simp only [System.step, Option.ite_none_right_eq_some, Option.some.injEq] at h
    obtain ⟨hi, rfl⟩ := h; exact .tick interval hi
  | serve n outcome =>
    simp only [System.step] at h
    split at h
    · next tag hn =>
      cases h
      obtain ⟨before, after, hr, rfl, hset, -⟩ := split_at hn
      rw [hset]; exact .serveLoad outcome tag before after hr
    · next tag kind body hn =>
      cases h
      obtain ⟨before, after, hr, rfl, hset, -⟩ := split_at hn
      rw [hset]; exact .serveSave outcome tag kind body before after hr
    · cases h
  | reply n =>
    simp only [System.step] at h
    split at h
    · next tag response hn =>
      cases h
      obtain ⟨before, after, hr, rfl, -, herase⟩ := split_at hn
      rw [herase]; exact .replyLoad tag response before after hr
    · next tag kind response hn =>
      cases h
      obtain ⟨before, after, hr, rfl, -, herase⟩ := split_at hn
      rw [herase]; exact .replySave tag kind response before after hr
    · cases h

/-- What holds of every request in flight: asked of the requests a step sends and of the
answers it produces. -/
theorem forall_requests_step {s t : System} {a : Act} {P : Request → Prop}
    (h : ∀ r ∈ s.requests, P r) (hs : s.step a = some t)
    (hload : a = .focus → P ⟨s.nextTag, .load⟩)
    (hdelete : a = .delete → P ⟨s.nextTag, .save .delete s.screen.unselectedItems⟩)
    (hundo : a = .undo → P ⟨s.nextTag, .save .undo s.screen.restoredItems⟩)
    (hloaded : ∀ n outcome tag, a = .serve n outcome → ⟨tag, .load⟩ ∈ s.requests →
      P ⟨tag, .loaded (Server.get s.store outcome)⟩)
    (hsaved : ∀ n outcome tag kind body, a = .serve n outcome →
      ⟨tag, .save kind body⟩ ∈ s.requests →
      P ⟨tag, .saved kind (Server.post s.store body outcome).2⟩) :
    ∀ r ∈ t.requests, P r := by
  have hsend : ∀ {screen flight}, P ⟨s.nextTag, flight⟩ →
      ∀ r ∈ (s.send screen flight).requests, P r := by
    intro screen flight hnew r hr
    rcases mem_send.mp hr with hr | rfl
    · exact h r hr
    · exact hnew
  cases stepped hs with
  | blur _ | unmount _ | select _ _ _ _ | tick _ _ => exact h
  | focus _ _ => exact hsend (hload rfl)
  | delete _ _ => exact hsend (hdelete rfl)
  | undo _ _ => exact hsend (hundo rfl)
  | serveLoad outcome tag before after hr =>
    intro r hmem
    rcases mem_of_mem_set_at hmem with rfl | hmem
    · exact hloaded _ outcome tag rfl (by simp [hr])
    · exact h r (hr ▸ hmem)
  | serveSave outcome tag kind body before after hr =>
    intro r hmem
    rcases mem_of_mem_set_at hmem with rfl | hmem
    · exact hsaved _ outcome tag kind body rfl (by simp [hr])
    · exact h r (hr ▸ hmem)
  | replyLoad tag response before after hr => exact fun r hmem => h r (hr ▸ mem_of_mem_erase_at hmem)
  | replySave tag kind response before after hr =>
    exact fun r hmem => h r (hr ▸ mem_of_mem_erase_at hmem)

end IngrediGo.FavoritesScreen
