import IngrediGo.Favorites.Timer
import Mathlib.Data.List.Basic

/-!
# Delete and undo

A delete or an undo from the tap to the answer of its save (`completed`), and the taps and
ticks between the two. Taps change the very field a delete filters on, and ticks take the
batch away in the end: `undo_restores` says what the server has after an undo that comes in
time, and what it has after the fifth tick.
-/

namespace IngrediGo.FavoritesScreen

open Lib

/-- Take the actions in order, as long as each is enabled. -/
def System.run (s : System) (acts : List Act) : Option System := acts.foldlM System.step s

@[simp] theorem run_nil (s : System) : s.run [] = some s := rfl

@[simp] theorem run_cons (s : System) (a : Act) (acts : List Act) :
    s.run (a :: acts) = (s.step a).bind (·.run acts) := rfl

theorem run_append (s : System) (acts acts' : List Act) :
    s.run (acts ++ acts') = (s.run acts).bind (·.run acts') := by
  unfold System.run
  rw [List.foldlM_append]
  rfl

/-- The tap, its save executed as `outcome` says, and the answer, with nothing in between.
`n` requests are in flight before. -/
def completed (tap : Act) (n : Nat) (outcome : Outcome) : List Act :=
  [tap, .serve n outcome, .reply n]

/-- The state a save leaves behind, from the tap to its answer. -/
def System.saved (s : System) (screen : Screen) (kind : Save) (body : List Favorite)
    (outcome : Outcome) : System where
  screen := screen.saveOver kind (Server.post s.store body outcome).2
  requests := s.requests
  nextTag := s.nextTag + 1
  store := (Server.post s.store body outcome).1

theorem run_save (s : System) (screen : Screen) (kind : Save) (body : List Favorite)
    (outcome : Outcome) :
    (s.send screen (.save kind body)).run
        [.serve s.requests.length outcome, .reply s.requests.length] =
      some (s.saved screen kind body outcome) := by
  have hserve : (s.send screen (.save kind body)).step (.serve s.requests.length outcome) =
      some { s.send screen (.save kind body) with
        store := (Server.post s.store body outcome).1
        requests := s.requests ++
          [⟨s.nextTag, .saved kind (Server.post s.store body outcome).2⟩] } := by
    simp only [System.step, System.send, getElem?_at, set_at]
  rw [run_cons, hserve, Option.bind_some, run_cons]
  simp only [System.step, System.send, getElem?_at, erase_at, List.append_nil,
    Option.bind_some, run_nil, System.saved]

/-- `deleteSelectedItems()`, its save turning out as `outcome`, with no other event. -/
def System.deleteSelectedItems (s : System) (outcome : Outcome) : System :=
  s.saved s.screen.deleteSelectedItems .delete s.screen.unselectedItems outcome

/-- `undoDelete()`, its save turning out as `outcome`, with no other event. -/
def System.undoDelete (s : System) (outcome : Outcome) : System :=
  s.saved s.screen.undoDelete .undo s.screen.restoredItems outcome

theorem run_delete {s : System} (hf : s.screen.focused = true)
    (hsel : s.screen.hasSelectedItems = true) (outcome : Outcome) :
    s.run (completed .delete s.requests.length outcome) =
      some (s.deleteSelectedItems outcome) := by
  rw [completed, run_cons, System.step, if_pos ⟨hf, hsel⟩, Option.bind_some, run_save]
  rfl

theorem run_undo {s : System} (hf : s.screen.focused = true)
    (hv : s.screen.showUndoDelete = true) (outcome : Outcome) :
    s.run (completed .undo s.requests.length outcome) =
      some (s.undoDelete outcome) := by
  rw [completed, run_cons, System.step, if_pos ⟨hf, hv⟩, Option.bind_some, run_save]
  rfl

/-! ## Taps and ticks -/

def Act.isTick : Act → Bool
  | .tick _ => true
  | _ => false

def Act.isSelect : Act → Bool
  | .select _ => true
  | _ => false

def ticks (acts : List Act) : Nat := acts.countP Act.isTick

@[simp] theorem ticks_cons (a : Act) (acts : List Act) :
    ticks (a :: acts) = ticks acts + if a.isTick then 1 else 0 := List.countP_cons

/-- A focused screen is mounted. -/
theorem mounted_of_focused {store : List Favorite} {s : System}
    (h : Reach System.step Free (.initial store) s) :
    s.screen.focused = true → s.screen.mounted = true := by
  refine h.invariant (I := fun s => s.screen.focused = true → s.screen.mounted = true)
    (fun _ => rfl) fun s a t ih _ hs => ?_
  cases stepped hs with
  | focus hm _ => exact fun _ => hm
  | blur _ => intro hf; cases hf
  | unmount _ => intro hf; cases hf
  | tick _ _ =>
    show s.screen.tick.focused = true → s.screen.tick.mounted = true
    unfold Screen.tick
    split
    · exact ih
    · split <;> exact ih
  | replySave _ kind _ _ _ _ => cases kind <;> exact ih
  | _ => exact ih

/-- The state `k` ticks after a delete that left `d`: nothing but the selection has changed
before the fifth of them, which takes the banner and the batch away. -/
structure Between (d u : System) (k : Nat) : Prop where
  store : u.store = d.store
  requests : u.requests = d.requests
  focused : u.screen.focused = true
  mounted : u.screen.mounted = true
  timer : u.screen.OneTimer
  list : u.screen.favorites.map deselect = d.screen.favorites.map deselect
  banner : (k < 5 ∧ u.screen.countdownTime = 5 - k ∧ u.screen.showUndoDelete = true ∧
      u.screen.recentlyDeleted = d.screen.recentlyDeleted) ∨
    (k = 5 ∧ u.screen.showUndoDelete = false ∧ u.screen.recentlyDeleted = [] ∧
      u.screen.intervals = [])

@[simp] theorem deselect_flipSelected (itemId : ItemId) (item : Favorite) :
    deselect (flipSelected itemId item) = deselect item := by
  unfold flipSelected
  split <;> rfl

@[simp] theorem map_deselect_toggleSelection (s : Screen) (itemId : ItemId) :
    (s.toggleSelection itemId).favorites.map deselect = s.favorites.map deselect := by
  show (s.favorites.map (flipSelected itemId)).map deselect = _
  rw [List.map_map]
  exact List.map_congr_left fun item _ => deselect_flipSelected itemId item

theorem Between.tick {d u : System} {k interval : Nat} (h : Between d u k)
    (hi : interval ∈ u.screen.intervals) :
    Between d { u with screen := u.screen.tick } (k + 1) := by
  obtain ⟨hk, hc, hv, hrd⟩ : k < 5 ∧ _ := by
    refine h.banner.resolve_right fun ⟨_, _, _, hnone⟩ => ?_
    rw [hnone] at hi
    cases hi
  by_cases hlast : k = 4
  · -- the fifth tick
    have htick : u.screen.tick = { u.screen.clearTimer with
        timerRef := none, showUndoDelete := false, recentlyDeleted := [], countdownTime := 0 } := by
      rw [Screen.tick, if_neg (by simp [h.mounted]), if_pos (by omega)]
    rw [htick]
    exact ⟨h.store, h.requests, h.focused, h.mounted, .inl h.timer.clearTimer, h.list,
      .inr ⟨by omega, rfl, rfl, h.timer.clearTimer⟩⟩
  · have htick : u.screen.tick =
        { u.screen with countdownTime := u.screen.countdownTime - 1 } := by
      rw [Screen.tick, if_neg (by simp [h.mounted]), if_neg (by omega)]
    rw [htick]
    exact ⟨h.store, h.requests, h.focused, h.mounted, h.timer.of_eq rfl rfl, h.list,
      .inl ⟨by omega, by simp only; omega, hv, hrd⟩⟩

theorem Between.step {d u v : System} {k : Nat} {a : Act} (h : Between d u k)
    (ha : a.isSelect = true ∨ a.isTick = true) (hs : u.step a = some v) :
    Between d v (k + if a.isTick then 1 else 0) := by
  cases stepped hs with
  | select itemId _ _ _ =>
    exact ⟨h.store, h.requests, h.focused, h.mounted, h.timer.of_eq rfl rfl,
      (map_deselect_toggleSelection ..).trans h.list, h.banner⟩
  | tick interval hi => exact h.tick hi
  | _ => simp [Act.isSelect, Act.isTick] at ha

/-- Taps and ticks after a delete, by induction on them. -/
theorem Between.run {d u v : System} {k : Nat} {acts : List Act} (h : Between d u k)
    (hacts : ∀ a ∈ acts, a.isSelect = true ∨ a.isTick = true) (hs : u.run acts = some v) :
    Between d v (k + ticks acts) := by
  induction acts generalizing u k with
  | nil => cases hs; exact h
  | cons a acts ih =>
    obtain ⟨w, hw, hs⟩ := Option.bind_eq_some_iff.mp hs
    have hstep := h.step (hacts a List.mem_cons_self) hw
    have hrest := ih hstep (fun b hb => hacts b (List.mem_cons_of_mem _ hb)) hs
    rw [ticks_cons, Nat.add_comm (ticks acts), ← Nat.add_assoc]
    exact hrest

/-! ## The round trip -/

/-- The records the screen does not show as selected, of the list they are a copy of. -/
theorem map_deselect_unselected {store favorites : List Favorite}
    (h : favorites.map deselect = store.map deselect) :
    (favorites.filter (!isSelected ·)).map deselect =
      ((store.zip favorites).filter (!isSelected ·.2)).map (deselect ·.1) := by
  induction favorites generalizing store with
  | nil =>
    cases store with
    | nil => rfl
    | cons _ _ => cases h
  | cons f favorites ih =>
    cases store with
    | nil => cases h
    | cons g store =>
      obtain ⟨hf, hrest⟩ := List.cons.inj h
      rw [List.zip_cons_cons, List.filter_cons, List.filter_cons]
      cases isSelected f with
      | true => exact ih hrest
      | false => exact congrArg₂ List.cons hf (ih hrest)

/-- What stays and what goes make up the whole list. -/
theorem unselected_append_selected (s : Screen) :
    (s.unselectedItems ++ s.selectedItems).Perm s.favorites := by
  refine List.perm_append_comm.trans ?_
  simpa [Screen.selectedItems, Screen.unselectedItems] using
    List.filter_append_perm isSelected s.favorites

theorem between_deleted {s : System} (hf : s.screen.focused = true)
    (hm : s.screen.mounted = true) (ht : s.screen.OneTimer) :
    Between (s.deleteSelectedItems .answered) (s.deleteSelectedItems .answered) 0 where
  store := rfl
  requests := rfl
  focused := hf
  mounted := hm
  timer := Screen.OneTimer.deleteSaved (s := s.screen.deleteSelectedItems) (ht.of_eq rfl rfl) (.ok ())
  list := rfl
  banner := .inl ⟨by decide, rfl, rfl, rfl⟩

/-- **A delete and an undo in time restore the store**, but for the order and the selection;
after five ticks the selected records are gone from it, and from the screen. -/
theorem undo_restores {store₀ : List Favorite} {s : System}
    (hs : Reach System.step Free (.initial store₀) s) (hf : s.screen.focused = true)
    (hsel : s.screen.hasSelectedItems = true)
    (hsame : s.screen.favorites.map deselect = s.store.map deselect) {acts : List Act}
    (hacts : ∀ a ∈ acts, a.isSelect = true ∨ a.isTick = true) {u : System}
    (hu : s.run (completed .delete s.requests.length .answered ++ acts) = some u) :
    (ticks acts < 5 → ∃ t, u.run (completed .undo u.requests.length .answered) = some t ∧
      (t.store.map deselect).Perm (s.store.map deselect) ∧ t.screen.recentlyDeleted = [] ∧
        t.screen.showUndoDelete = false ∧ t.screen.intervals = []) ∧
    (5 ≤ ticks acts → u.screen.showUndoDelete = false ∧ u.screen.recentlyDeleted = [] ∧
      u.store.map deselect =
        ((s.store.zip s.screen.favorites).filter (!isSelected ·.2)).map (deselect ·.1)) := by
  rw [run_append, run_delete hf hsel, Option.bind_some] at hu
  have h0 := between_deleted hf (mounted_of_focused hs hf) (oneTimer hs)
  have h : Between (s.deleteSelectedItems .answered) u (ticks acts) := by
    simpa using h0.run hacts hu
  constructor
  · intro hk
    obtain ⟨-, -, hv, hrd⟩ := h.banner.resolve_right fun ⟨h5, _⟩ => by omega
    refine ⟨_, run_undo h.focused hv .answered, ?_, rfl, rfl, h.timer.clearTimer⟩
    show ((u.screen.favorites ++ u.screen.recentlyDeleted).map deselect).Perm _
    rw [hrd, List.map_append, h.list, ← List.map_append, ← hsame]
    exact (unselected_append_selected s.screen).map deselect
  · intro hk
    obtain ⟨-, hv, hrd, -⟩ := h.banner.resolve_left fun ⟨h5, _⟩ => by omega
    refine ⟨hv, hrd, ?_⟩
    rw [h.store]
    exact map_deselect_unselected hsame

/-- `1` and `2` are loaded, and `2` is selected. -/
def loadSelect : List Act := [.focus, .serve 0 .answered, .reply 0, .select (.num 2)]

theorem undo_restores_loadSelect : ∃ s u t : System,
    s.run (completed .delete s.requests.length .answered ++ [.tick 1, .select (.num 1)]) = some u ∧
      u.run (completed .undo u.requests.length .answered) = some t ∧
      (t.store.map deselect).Perm (s.store.map deselect) := by
  obtain ⟨s, hs, hf, hsel, hsame, hrun⟩ := Reach.of_exec System.step Free
    (.initial [.bare (.num 1), .bare (.num 2)]) loadSelect
    (fun s => s.screen.focused = true ∧ s.screen.hasSelectedItems = true ∧
      s.screen.favorites.map deselect = s.store.map deselect ∧
      (s.run (completed .delete s.requests.length .answered ++
        [.tick 1, .select (.num 1)])).isSome = true) (by decide)
  obtain ⟨u, hu⟩ := Option.isSome_iff_exists.mp hrun
  obtain ⟨t, ht, hperm, -⟩ := (undo_restores hs hf hsel hsame (by decide) hu).1 (by decide)
  exact ⟨s, u, t, hu, ht, hperm⟩

end IngrediGo.FavoritesScreen
