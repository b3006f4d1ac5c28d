import IngrediGo.Lib.Toggles
import IngrediGo.Recipe.Icon
import IngrediGo.Recipe.Rollback

/-!
# Bookmarks, one screen after the other

Recipe screens opened one at a time, their requests all answered and in turn. A mount check
makes a screen's flag agree with the list (`InStep`) and every tap keeps it so: a tap is then
a toggle of the recipe's id, and a session a run of toggles (`session_eq`). It is one of the
runs of `IngrediGo.Recipe.Icon`, where screens and requests overlap (`session_run`).
-/

namespace IngrediGo.RecipeScreen

open Lib

/-- `checkIfBookmarked()`, its request turning out as `get`. A failure is only logged. -/
def checkIfBookmarked (bookmarkedRecipes : List Recipe) (icon : Icon) (recipe : Option Recipe)
    (get : Outcome) : Icon :=
  match recipe with
  | none => icon
  | some recipe =>
    match Server.get bookmarkedRecipes get with
    | .ok data => { icon with bookmarked := isBookmarked data recipe }
    | .status _ => icon
    | .rejected _ => icon

/-- The server's list and the screen open at the moment. -/
structure Session where
  bookmarkedRecipes : List Recipe
  icon : Icon
  /-- The recipes whose icon was filled and not emptied since, in the order it was filled. -/
  newlyBookmarked : List Recipe
  deriving DecidableEq, Repr

/-- A Recipe screen and the number of taps it gets after its check. -/
structure Visit where
  recipe : Recipe
  taps : ℕ
  deriving DecidableEq, Repr

/-- The screen of `recipe` is mounted and its check answered. -/
def Session.opened (s : Session) (recipe : Recipe) : Session :=
  { s with
    icon := checkIfBookmarked s.bookmarkedRecipes ⟨false, []⟩ (some recipe) .answered }

/-- A tap on the bookmark icon, its two requests answered. -/
def Session.tap (recipe : Recipe) (s : Session) : Session :=
  let out := toggleBookmark s.bookmarkedRecipes s.icon (some recipe) .answered .answered
  { bookmarkedRecipes := out.1
    icon := out.2
    newlyBookmarked :=
      if out.2.bookmarked then s.newlyBookmarked ++ [recipe]
      else s.newlyBookmarked.filter (·.id ≠ recipe.id) }

def Session.visit (s : Session) (v : Visit) : Session :=
  (Session.tap v.recipe)^[v.taps] (s.opened v.recipe)

def Session.run (bookmarkedRecipes : List Recipe) (visits : List Visit) : Session :=
  visits.foldl Session.visit ⟨bookmarkedRecipes, ⟨false, []⟩, []⟩

/-- How often the recipe with this id was tapped. -/
def tapsOn : List Visit → Option ItemId → ℕ
  | [], _ => 0
  | v :: visits, id => if v.recipe.id = id then v.taps + tapsOn visits id else tapsOn visits id

/-! ## One tap -/

/-- The screen of `recipe` shows what the list says. -/
def InStep (recipe : Recipe) (s : Session) : Prop :=
  s.icon.bookmarked = isBookmarked s.bookmarkedRecipes recipe

variable {recipe : Recipe} {s : Session} {visits : List Visit}

theorem tap_bookmarkedRecipes (recipe : Recipe) (s : Session) :
    (s.tap recipe).bookmarkedRecipes =
      toggleBookmark.updated recipe (!s.icon.bookmarked) s.bookmarkedRecipes := rfl

theorem tap_bookmarked (recipe : Recipe) (s : Session) :
    (s.tap recipe).icon.bookmarked = !s.icon.bookmarked := rfl

theorem tap_newlyBookmarked (recipe : Recipe) (s : Session) :
    (s.tap recipe).newlyBookmarked =
      if !s.icon.bookmarked then s.newlyBookmarked ++ [recipe]
      else s.newlyBookmarked.filter (·.id ≠ recipe.id) := rfl

theorem opened_inStep (s : Session) (recipe : Recipe) : InStep recipe (s.opened recipe) := rfl

/-- A tap in step keeps the screen in step. -/
theorem tap_inStep (recipe : Recipe) (s : Session) : InStep recipe (s.tap recipe) := by
  rw [InStep, tap_bookmarked, tap_bookmarkedRecipes, Bool.eq_iff_iff, isBookmarked_iff]
  exact (updated_own recipe _ s.bookmarkedRecipes).symm

/-- **A tap in step is a toggle** of the recipe's id. -/
theorem tap_eq (h : InStep recipe s) :
    (s.tap recipe).bookmarkedRecipes =
      Keyed.toggle Recipe.id s.bookmarkedRecipes (toggleBookmark.recipeToSave recipe) := by
  rw [tap_bookmarkedRecipes, h]
  unfold toggleBookmark.updated Keyed.toggle
  by_cases hb : isBookmarked s.bookmarkedRecipes recipe = true
  · have hin : recipe.id ∈ s.bookmarkedRecipes.map Recipe.id := isBookmarked_iff.mp hb
    rw [hb, recipeToSave_id, if_pos hin]
    rfl
  · have hin : recipe.id ∉ s.bookmarkedRecipes.map Recipe.id := mt isBookmarked_iff.mpr hb
    rw [Bool.not_eq_true] at hb
    rw [hb, recipeToSave_id, if_neg hin]
    rfl

/-- What is left of the list `old`, then the recipes bookmarked since. -/
def NewAtEnd (old : List Recipe) (s : Session) : Prop :=
  ∃ kept, kept.Sublist old ∧
    s.bookmarkedRecipes = kept ++ s.newlyBookmarked.map toggleBookmark.recipeToSave

theorem tap_newAtEnd {old : List Recipe} (h : InStep recipe s) (hnew : NewAtEnd old s) :
    NewAtEnd old (s.tap recipe) := by
  obtain ⟨kept, hkept, hlist⟩ := hnew
  rw [NewAtEnd, tap_newlyBookmarked, tap_bookmarkedRecipes, h]
  unfold toggleBookmark.updated
  by_cases hb : isBookmarked s.bookmarkedRecipes recipe = true
  · -- the tap drops the recipe's record, of either kind
    refine ⟨kept.filter (·.id ≠ recipe.id), List.filter_sublist.trans hkept, ?_⟩
    simp only [hb, Bool.not_true, Bool.false_eq_true, if_false]
    rw [hlist, List.filter_append, List.filter_map]
    rfl
  · refine ⟨kept, hkept, ?_⟩
    rw [Bool.not_eq_true] at hb
    simp only [hb, Bool.not_false, if_true]
    rw [hlist, List.map_append, List.append_assoc]
    rfl

/-! ## Whole sessions -/

/-- The records the taps of `visits` toggle, in order. -/
def toggled (visits : List Visit) : List Recipe :=
  visits.flatMap fun v => .replicate v.taps (toggleBookmark.recipeToSave v.recipe)

theorem taps_eq (h : InStep recipe s) (n : ℕ) :
    ((Session.tap recipe)^[n] s).bookmarkedRecipes =
      (List.replicate n (toggleBookmark.recipeToSave recipe)).foldl (Keyed.toggle Recipe.id)
        s.bookmarkedRecipes := by
  induction n generalizing s with
  | zero => rfl
  | succ n ih =>
    rw [Function.iterate_succ_apply, ih (tap_inStep recipe s), tap_eq h, List.replicate_succ,
      List.foldl_cons]

theorem visits_eq (s : Session) (visits : List Visit) :
    (visits.foldl Session.visit s).bookmarkedRecipes =
      (toggled visits).foldl (Keyed.toggle Recipe.id) s.bookmarkedRecipes := by
  induction visits generalizing s with
  | nil => rfl
  | cons v visits ih =>
    rw [List.foldl_cons, ih, Session.visit, taps_eq (opened_inStep s v.recipe)]
    rw [toggled, toggled, List.flatMap_cons, List.foldl_append]
    rfl

/-- **A session is a run of toggles**, one for each tap. -/
theorem session_eq (bookmarkedRecipes : List Recipe) (visits : List Visit) :
    (Session.run bookmarkedRecipes visits).bookmarkedRecipes =
      (toggled visits).foldl (Keyed.toggle Recipe.id) bookmarkedRecipes :=
  visits_eq _ visits

theorem taps_newAtEnd {old : List Recipe} (h : InStep recipe s) (hnew : NewAtEnd old s) (n : ℕ) :
    NewAtEnd old ((Session.tap recipe)^[n] s) := by
  have hboth : InStep recipe ((Session.tap recipe)^[n] s) ∧
      NewAtEnd old ((Session.tap recipe)^[n] s) :=
    Function.Iterate.rec (fun s => InStep recipe s ∧ NewAtEnd old s) ⟨h, hnew⟩
      (fun s hs => ⟨tap_inStep recipe s, tap_newAtEnd hs.1 hs.2⟩) n
  exact hboth.2

theorem session_newAtEnd (bookmarkedRecipes : List Recipe) (visits : List Visit) :
    NewAtEnd bookmarkedRecipes (Session.run bookmarkedRecipes visits) := by
  refine List.foldlRecOn visits Session.visit ?_ fun s h v _ => ?_
  · exact ⟨bookmarkedRecipes, List.Sublist.refl _, (List.append_nil _).symm⟩
  · exact taps_newAtEnd (opened_inStep s v.recipe) h v.taps

/-- The toggles with an id are the taps on the recipe of that id. -/
theorem toggled_count (visits : List Visit) (id : Option ItemId) :
    (toggled visits).countP (·.id = id) = tapsOn visits id := by
  induction visits with
  | nil => rfl
  | cons v visits ih =>
    rw [toggled, List.flatMap_cons, List.countP_append, List.countP_replicate, recipeToSave_id]
    rw [tapsOn]
    by_cases hv : v.recipe.id = id
    · rw [if_pos (by simpa using hv), if_pos hv]
      exact congrArg (v.taps + ·) ih
    · rw [if_neg (by simpa using hv), if_neg hv, Nat.zero_add]
      exact ih

/-- **Sequential taps treat the bookmarked list as a set keyed by id**, whose records stay in
the order they were bookmarked. -/
theorem session_keyed_set (bookmarkedRecipes : List Recipe) (visits : List Visit)
    (h : (bookmarkedIds bookmarkedRecipes).Nodup) :
    let s := Session.run bookmarkedRecipes visits
    (bookmarkedIds s.bookmarkedRecipes).Nodup ∧
    (∀ id, id ∈ bookmarkedIds s.bookmarkedRecipes ↔
      (id ∈ bookmarkedIds bookmarkedRecipes ↔ Even (tapsOn visits id))) ∧
    s.bookmarkedRecipes.filter (tapsOn visits ·.id = 0) =
      bookmarkedRecipes.filter (tapsOn visits ·.id = 0) ∧
    (∃ kept, kept.Sublist bookmarkedRecipes ∧
      s.bookmarkedRecipes = kept ++ s.newlyBookmarked.map toggleBookmark.recipeToSave) ∧
    ∀ recipe, s.newlyBookmarked.getLast? = some recipe →
      s.bookmarkedRecipes.getLast? = some (toggleBookmark.recipeToSave recipe) := by
  intro s
  obtain ⟨kept, hkept, hlist⟩ : NewAtEnd bookmarkedRecipes s :=
    session_newAtEnd bookmarkedRecipes visits
  have hs : s.bookmarkedRecipes =
      (toggled visits).foldl (Keyed.toggle Recipe.id) bookmarkedRecipes :=
    session_eq bookmarkedRecipes visits
  refine ⟨?_, fun id => ?_, ?_, ⟨kept, hkept, hlist⟩, fun recipe hlast => ?_⟩
  · rw [hs]
    exact Keyed.nodup_keys_toggles h (toggled visits)
  · rw [hs, ← toggled_count]
    exact Keyed.mem_keys_toggles Recipe.id bookmarkedRecipes (toggled visits)
  · rw [hs]
    refine Keyed.filter_toggles (fun a ha b hb => ?_) bookmarkedRecipes
    have htapped : 0 < (toggled visits).countP (·.id = b.id) :=
      List.countP_pos_iff.mpr ⟨a, ha, by simp [hb]⟩
    rw [toggled_count] at htapped
    simpa using Nat.pos_iff_ne_zero.mp htapped
  · obtain ⟨front, hfront⟩ := List.getLast?_eq_some_iff.mp hlast
    rw [hlist, hfront, List.map_append, ← List.append_assoc]
    exact List.getLast?_concat

/-- A bookmarked recipe is taken off and put back, and another one is bookmarked. -/
theorem session_keyed_set_swap :
    let visits : List Visit := [⟨.bare (.num 1), 2⟩, ⟨.bare (.num 3), 1⟩]
    let s := Session.run [.bare (.num 1), .bare (.num 2)] visits
    (bookmarkedIds s.bookmarkedRecipes).Nodup ∧
      some (.num 1) ∈ bookmarkedIds s.bookmarkedRecipes ∧
      s.bookmarkedRecipes.filter (tapsOn visits ·.id = 0) = [.bare (.num 2)] ∧
      s.bookmarkedRecipes.getLast? = some (toggleBookmark.recipeToSave (.bare (.num 3))) := by
  obtain ⟨hnodup, hmem, huntapped, -, hlast⟩ := session_keyed_set
    [.bare (.num 1), .bare (.num 2)] [⟨.bare (.num 1), 2⟩, ⟨.bare (.num 3), 1⟩] (by decide)
  exact ⟨hnodup, (hmem _).mpr (by decide), huntapped.trans (by decide), hlast _ (by decide)⟩

/-! ## Sessions among all runs -/

/-- The world stands where the session does, with the screen of `recipe` at `i`. -/
structure OnScreen (i : ℕ) (recipe : Recipe) (w : World) (s : Session) : Prop where
  view : w.views[i]? = some ⟨some recipe, s.icon.bookmarked, .over, true⟩
  store : w.bookmarks.store = s.bookmarkedRecipes
  idle : w.Idle

variable {w₀ w : World} {i : ℕ}

theorem idle_set (h : w.Idle) {v : View} (hv : v.check = .over) {calls : Rmw.State (List Recipe) Tap}
    (hcalls : calls.Done) : World.Idle ⟨w.views.set i v, calls⟩ := by
  refine ⟨hcalls, fun u hu => ?_⟩
  rcases List.mem_or_eq_of_mem_set hu with hold | rfl
  · exact h.2 u hold
  · exact hv

/-- A tap of a session: the icon flips, then its two requests are executed. -/
theorem tap_run (hw : Reach World.step Free w₀ w) (h : OnScreen i recipe w s) :
    ∃ u, Reach World.step Free w₀ u ∧ OnScreen i recipe u (s.tap recipe) := by
  obtain ⟨views, store, calls⟩ := w
  obtain ⟨hview, hstore, hidle⟩ := h
  obtain rfl : store = s.bookmarkedRecipes := hstore
  have hview' : views[i]? = some ⟨some recipe, s.icon.bookmarked, .over, true⟩ := hview
  let tap : Tap := ⟨recipe, !s.icon.bookmarked, i⟩
  let flipped := views.set i ⟨some recipe, !s.icon.bookmarked, .over, true⟩
  have htap : World.step ⟨views, s.bookmarkedRecipes, calls⟩ (.tap i) =
      some ⟨flipped, s.bookmarkedRecipes, calls ++ [⟨tap, .reading⟩]⟩ := by
    simp only [World.step, hview']
    rfl
  have hread : World.step ⟨flipped, s.bookmarkedRecipes, calls ++ [⟨tap, .reading⟩]⟩
      (.read calls.length) = some ⟨flipped, s.bookmarkedRecipes,
        calls ++ [⟨tap, .writing (s.tap recipe).bookmarkedRecipes⟩]⟩ := by
    have hlast : Rmw.step Tap.updated ⟨s.bookmarkedRecipes, calls ++ [⟨tap, .reading⟩]⟩
        (.read calls.length) = some ⟨s.bookmarkedRecipes,
          calls ++ [⟨tap, .writing (s.tap recipe).bookmarkedRecipes⟩]⟩ := Rmw.read_last rfl
    simp only [World.step, hlast]
    rfl
  have hwrite : World.step ⟨flipped, s.bookmarkedRecipes,
      calls ++ [⟨tap, .writing (s.tap recipe).bookmarkedRecipes⟩]⟩ (.write calls.length) =
      some ⟨flipped, (s.tap recipe).bookmarkedRecipes, calls ++ [⟨tap, .done⟩]⟩ := by
    simp only [World.step, Rmw.write_last]
    rfl
  refine ⟨_, ((hw.next trivial htap).next trivial hread).next trivial hwrite, ?_, rfl, ?_⟩
  · exact List.getElem?_set_self (List.getElem?_eq_some_iff.mp hview').1
  · refine idle_set hidle rfl fun call hcall => ?_
    rcases List.mem_append.mp hcall with hold | hnew
    · exact hidle.1 call hold
    · rw [List.mem_singleton.mp hnew]

theorem taps_run (hw : Reach World.step Free w₀ w) (h : OnScreen i recipe w s) (n : ℕ) :
    ∃ u, Reach World.step Free w₀ u ∧ OnScreen i recipe u ((Session.tap recipe)^[n] s) :=
  Function.Iterate.rec (fun s => ∃ u, Reach World.step Free w₀ u ∧ OnScreen i recipe u s)
    ⟨w, hw, h⟩ (fun _ ⟨_, hu, hs⟩ => tap_run hu hs) n

/-- A screen is opened and its check answered. -/
theorem opened_run (hw : Reach World.step Free w₀ w) (hidle : w.Idle)
    (hstore : w.bookmarks.store = s.bookmarkedRecipes) (recipe : Recipe) :
    ∃ u, Reach World.step Free w₀ u ∧ OnScreen w.views.length recipe u (s.opened recipe) := by
  obtain ⟨views, bookmarks⟩ := w
  let found := isBookmarked bookmarks.store recipe
  have hserve : World.step ⟨views ++ [.opened (some recipe)], bookmarks⟩
      (.serveCheck views.length) =
      some ⟨views ++ [⟨some recipe, false, .answered found, true⟩], bookmarks⟩ := by
    simp only [World.step, List.getElem?_concat_length, View.opened, Option.isSome_some, if_true,
      Lib.set_at]
    rfl
  have hreply : World.step ⟨views ++ [⟨some recipe, false, .answered found, true⟩], bookmarks⟩
      (.replyCheck views.length) =
      some ⟨views ++ [⟨some recipe, found, .over, true⟩], bookmarks⟩ := by
    simp only [World.step, List.getElem?_concat_length, Lib.set_at]
    rfl
  have hopen : World.step ⟨views, bookmarks⟩ (.open (some recipe)) =
      some ⟨views ++ [.opened (some recipe)], bookmarks⟩ := rfl
  refine ⟨_, ((hw.next trivial hopen).next trivial hserve).next trivial hreply, ?_, hstore,
    hidle.1, fun v hv => ?_⟩
  · have hfound : found = isBookmarked s.bookmarkedRecipes recipe :=
      congrArg (isBookmarked · recipe) hstore
    rw [hfound]
    exact List.getElem?_concat_length
  · rcases List.mem_append.mp hv with hold | hnew
    · exact hidle.2 v hold
    · rw [List.mem_singleton.mp hnew]

/-- **Every session is a run of the overlapping screens**, with nothing left outstanding. -/
theorem session_run (bookmarkedRecipes : List Recipe) (visits : List Visit) :
    ∃ w, Reach World.step Free (.initial bookmarkedRecipes) w ∧ w.Idle ∧
      w.bookmarks.store = (Session.run bookmarkedRecipes visits).bookmarkedRecipes := by
  refine List.foldlRecOn
    (motive := fun s => ∃ w, Reach World.step Free (.initial bookmarkedRecipes) w ∧ w.Idle ∧
      w.bookmarks.store = s.bookmarkedRecipes)
    visits Session.visit ?_ fun s hs v _ => ?_
  · refine ⟨_, .start, ⟨fun call hcall => ?_, fun v hv => ?_⟩, rfl⟩
    · cases hcall
    · cases hv
  · obtain ⟨w, hw, hidle, hstore⟩ := hs
    obtain ⟨u, hu, hscreen⟩ := opened_run hw hidle hstore v.recipe
    obtain ⟨u', hu', htapped⟩ := taps_run hu hscreen v.taps
    exact ⟨u', hu', htapped.idle, htapped.store⟩

end IngrediGo.RecipeScreen
