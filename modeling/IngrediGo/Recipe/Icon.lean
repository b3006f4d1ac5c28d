import IngrediGo.Lib.ReadModifyWrite
import IngrediGo.Recipe.Bookmark

/-!
# The bookmark icon

Any number of Recipe screens over one bookmarked list, none of whose requests fails. A
screen shows a flag of its own: its mount check sets it to what the check found, a tap
flips it at once. The taps' requests are the read-modify-write calls of `Lib.Rmw`; the
answer to a check reaches the screen some time after the server executed it.

`icon_truthful`: the flag a recipe was last given agrees with the server in the end if
the recipe's screens are tapped only after their check, its `POST`s arrive in the order of
the taps, and no tap on another recipe overlaps one of them (`Careful`).
-/

namespace IngrediGo.RecipeScreen

open Lib Lib.Rmw

/-- Where a screen's mount check stands. -/
inductive Check where
  | sent
  /-- Executed by the server; the answer is on its way. -/
  | answered (isBookmarked : Bool)
  | over
  deriving DecidableEq, Repr

/-- A Recipe screen. It has no recipe when it was opened for an ingredient. -/
structure View where
  recipe : Option Recipe
  bookmarked : Bool
  check : Check
  mounted : Bool
  deriving DecidableEq, Repr

/-- A tap on the bookmark icon of screen `screen`. -/
structure Tap where
  recipe : Recipe
  newBookmarkState : Bool
  screen : Nat
  deriving DecidableEq, Repr

/-- The list a tap posts; it always posts one. -/
def Tap.updated (tap : Tap) (bookmarkedRecipes : List Recipe) : Option (List Recipe) :=
  some (toggleBookmark.updated tap.recipe tap.newBookmarkState bookmarkedRecipes)

structure World where
  views : List View
  /-- The server's list and the taps made so far. -/
  bookmarks : Rmw.State (List Recipe) Tap
  deriving DecidableEq, Repr

def World.initial (bookmarkedRecipes : List Recipe) : World := ⟨[], .init bookmarkedRecipes⟩

inductive Act where
  | «open» (recipe : Option Recipe)
  | close (screen : Nat)
  | tap (screen : Nat)
  /-- The server executes a screen's mount check. -/
  | serveCheck (screen : Nat)
  /-- The answer to it reaches the screen. -/
  | replyCheck (screen : Nat)
  /-- The server executes the `GET` of a tap. -/
  | read (n : Nat)
  /-- The server executes the `POST` of a tap. -/
  | write (n : Nat)
  deriving DecidableEq, Repr

/-- A screen as it is mounted: `checkIfBookmarked` returns at once without a recipe. -/
def View.opened (recipe : Option Recipe) : View where
  recipe := recipe
  bookmarked := false
  check := if recipe.isSome then .sent else .over
  mounted := true

/-- The taps after one more. -/
def World.call (w : World) (tap : Tap) : Rmw.State (List Recipe) Tap :=
  { w.bookmarks with calls := w.bookmarks.calls ++ [⟨tap, .reading⟩] }

def World.step (w : World) : Act → Option World
  | .open recipe => some { w with views := w.views ++ [.opened recipe] }
  | .close i =>
    match w.views[i]? with
    | some v =>
      if v.mounted then some { w with views := w.views.set i { v with mounted := false } } else none
    | none => none
  | .tap i =>
    match w.views[i]? with
    | some ⟨some recipe, bookmarked, check, true⟩ =>
      some {
        views := w.views.set i ⟨some recipe, !bookmarked, check, true⟩
        bookmarks := w.call ⟨recipe, !bookmarked, i⟩ }
    | some ⟨none, _, _, true⟩ => some w
    | _ => none
  | .serveCheck i =>
    match w.views[i]? with
    | some ⟨some recipe, bookmarked, .sent, mounted⟩ =>
      let answer := Check.answered (isBookmarked w.bookmarks.store recipe)
      some { w with views := w.views.set i ⟨some recipe, bookmarked, answer, mounted⟩ }
    | _ => none
  | .replyCheck i =>
    match w.views[i]? with
    | some ⟨recipe, bookmarked, .answered found, mounted⟩ =>
      -- an unmounted screen drops the update
      let bookmarked := if mounted then found else bookmarked
      some { w with views := w.views.set i ⟨recipe, bookmarked, .over, mounted⟩ }
    | _ => none
  | .read n => (Rmw.step Tap.updated w.bookmarks (.read n)).map ({ w with bookmarks := · })
  | .write n => (Rmw.step Tap.updated w.bookmarks (.write n)).map ({ w with bookmarks := · })

/-- No request is outstanding. -/
def World.Idle (w : World) : Prop := w.bookmarks.Done ∧ ∀ v ∈ w.views, v.check = .over

instance (w : World) : Decidable w.Idle := inferInstanceAs (Decidable (_ ∧ _))

/-! ## Everything a step can do -/

/-- A step changes one screen's flag or check, makes a tap, or executes a tap's request. -/
inductive Stepped (w : World) : Act → World → Prop where
  | «open» (recipe : Option Recipe) :
      Stepped w (.open recipe) { w with views := w.views ++ [.opened recipe] }
  | close (i : Nat) (v : View) (hv : w.views[i]? = some v) :
      Stepped w (.close i) { w with views := w.views.set i { v with mounted := false } }
  | tap (i : Nat) (recipe : Recipe) (bookmarked : Bool) (check : Check)
      (hv : w.views[i]? = some ⟨some recipe, bookmarked, check, true⟩) :
      Stepped w (.tap i)
        { views := w.views.set i ⟨some recipe, !bookmarked, check, true⟩
          bookmarks := w.call ⟨recipe, !bookmarked, i⟩ }
  | noTap (i : Nat) : Stepped w (.tap i) w
  | serveCheck (i : Nat) (v : View) (found : Bool) (hv : w.views[i]? = some v)
      (hc : v.check = .sent) :
      Stepped w (.serveCheck i)
        { w with views := w.views.set i { v with check := .answered found } }
  | replyCheck (i : Nat) (v : View) (found bookmarked : Bool) (hv : w.views[i]? = some v)
      (hc : v.check = .answered found) :
      Stepped w (.replyCheck i)
        { w with views := w.views.set i { v with bookmarked := bookmarked, check := .over } }
  | read (n : Nat) (b : Rmw.State (List Recipe) Tap)
      (hb : Rmw.step Tap.updated w.bookmarks (.read n) = some b) :
      Stepped w (.read n) { w with bookmarks := b }
  | write (n : Nat) (b : Rmw.State (List Recipe) Tap)
      (hb : Rmw.step Tap.updated w.bookmarks (.write n) = some b) :
      Stepped w (.write n) { w with bookmarks := b }

theorem stepped {w u : World} {a : Act} (h : w.step a = some u) : Stepped w a u := by
  cases a with
  | «open» recipe =>
    simp only [World.step, Option.some.injEq] at h
    subst h; exact .open recipe
  | close i =>
    simp only [World.step] at h
    split at h
    · next v hv =>
      simp only [Option.ite_none_right_eq_some, Option.some.injEq] at h
      obtain ⟨-, rfl⟩ := h
      exact .close i v hv
    · cases h
  | tap i =>
    simp only [World.step] at h
    split at h
    · next recipe bookmarked check hv => cases h; exact .tap i recipe bookmarked check hv
    · cases h; exact .noTap i
    · cases h
  | serveCheck i =>
    simp only [World.step] at h
    split at h
    · next recipe bookmarked mounted hv =>
      cases h
      exact .serveCheck i _ (isBookmarked w.bookmarks.store recipe) hv rfl
    · cases h
  | replyCheck i =>
    simp only [World.step] at h
    split at h
    · next recipe bookmarked found mounted hv =>
      cases h
      exact .replyCheck i _ found (if mounted then found else bookmarked) hv rfl
    · cases h
  | read n =>
    obtain ⟨b, hb, rfl⟩ := Option.map_eq_some_iff.mp h
    exact .read n b hb
  | write n =>
    obtain ⟨b, hb, rfl⟩ := Option.map_eq_some_iff.mp h
    exact .write n b hb

/-! ## Guards -/

/-- The tap is on the recipe with id `x`. -/
abbrev OnRecipe (x : Option ItemId) (tap : Tap) : Prop := tap.recipe.id = x

/-- The list has the recipe with id `x`. -/
abbrev Listed (x : Option ItemId) (l : List Recipe) : Prop := x ∈ bookmarkedIds l

/-- A screen of recipe `x` is tapped only after its mount check. -/
def TapAfterCheck (x : Option ItemId) (w : World) : Act → Prop
  | .tap i => ∀ v ∈ w.views[i]?, ∀ recipe ∈ v.recipe, recipe.id = x → v.check = .over
  | _ => True

/-- The `POST`s of recipe `x` are executed in the order of its taps. -/
def PostsInOrder (x : Option ItemId) (w : World) : Act → Prop
  | .write n => InOrder (OnRecipe x) w.bookmarks (.write n)
  | _ => True

/-- When a `POST` of recipe `x` is executed, no tap on another recipe is about to post a
list that disagrees with it about `x`. -/
def NoOverlap (x : Option ItemId) (w : World) : Act → Prop
  | .write n => Undisturbed (OnRecipe x) (Listed x) w.bookmarks (.write n)
  | _ => True

def Careful (x : Option ItemId) (w : World) (a : Act) : Prop :=
  TapAfterCheck x w a ∧ PostsInOrder x w a ∧ NoOverlap x w a

instance (x : Option ItemId) (w : World) : ∀ a, Decidable (TapAfterCheck x w a)
  | .tap i => inferInstanceAs (Decidable (∀ v ∈ w.views[i]?, ∀ recipe ∈ v.recipe, _))
  | .open _ | .close _ | .serveCheck _ | .replyCheck _ | .read _ | .write _ => .isTrue trivial

instance (x : Option ItemId) (w : World) : ∀ a, Decidable (PostsInOrder x w a)
  | .write n => inferInstanceAs (Decidable (InOrder (OnRecipe x) w.bookmarks (.write n)))
  | .open _ | .close _ | .tap _ | .serveCheck _ | .replyCheck _ | .read _ => .isTrue trivial

instance (x : Option ItemId) (w : World) : ∀ a, Decidable (NoOverlap x w a)
  | .write n =>
    inferInstanceAs (Decidable (Undisturbed (OnRecipe x) (Listed x) w.bookmarks (.write n)))
  | .open _ | .close _ | .tap _ | .serveCheck _ | .replyCheck _ | .read _ => .isTrue trivial

instance (x : Option ItemId) (w : World) (a : Act) : Decidable (Careful x w a) :=
  inferInstanceAs (Decidable (_ ∧ _ ∧ _))

/-! ## The invariant -/

/-- The last tap on recipe `x`, on any screen. -/
def World.lastTap (x : Option ItemId) (w : World) : Option Tap :=
  w.bookmarks.ops.reverse.find? (·.recipe.id = x)

/-- The screens on which recipe `x` was tapped, and what the last of them shows. -/
structure Shown (x : Option ItemId) (w : World) : Prop where
  checked : ∀ tap ∈ w.bookmarks.ops, tap.recipe.id = x →
    ∃ v, w.views[tap.screen]? = some v ∧ v.recipe = some tap.recipe ∧ v.check = .over
  last : ∀ tap v, w.lastTap x = some tap → w.views[tap.screen]? = some v →
    v.bookmarked = tap.newBookmarkState

theorem lastTap_id {x : Option ItemId} {w : World} {tap : Tap} (h : w.lastTap x = some tap) :
    tap.recipe.id = x := by
  simpa using List.find?_some h

/-- The screen of the last tap is one of those checked. -/
theorem Shown.last_checked {x : Option ItemId} {w : World} {tap : Tap} (h : Shown x w)
    (hl : w.lastTap x = some tap) :
    ∃ v, w.views[tap.screen]? = some v ∧ v.recipe = some tap.recipe ∧ v.check = .over := by
  have hmem : tap ∈ w.bookmarks.ops := List.mem_reverse.mp (List.mem_of_find?_eq_some hl)
  exact h.checked tap hmem (lastTap_id hl)

/-- A step that leaves alone the taps and the screens they were made on. -/
theorem Shown.of_eq {x : Option ItemId} {w u : World} (h : Shown x w)
    (hops : u.bookmarks.ops = w.bookmarks.ops)
    (hviews : ∀ tap ∈ w.bookmarks.ops, tap.recipe.id = x → ∀ v, w.views[tap.screen]? = some v →
      v.recipe = some tap.recipe → v.check = .over →
      ∃ v', u.views[tap.screen]? = some v' ∧ v'.recipe = v.recipe ∧ v'.check = v.check ∧
        v'.bookmarked = v.bookmarked) : Shown x u := by
  have hlast : u.lastTap x = w.lastTap x := by
    unfold World.lastTap; rw [hops]
  refine ⟨fun tap htap hx => ?_, fun tap v' hl hv' => ?_⟩
  · rw [hops] at htap
    obtain ⟨v, hv, hr, hc⟩ := h.checked tap htap hx
    obtain ⟨v', hv', hr', hc', -⟩ := hviews tap htap hx v hv hr hc
    exact ⟨v', hv', hr'.trans hr, hc'.trans hc⟩
  · rw [hlast] at hl
    have htap : tap ∈ w.bookmarks.ops := List.mem_reverse.mp (List.mem_of_find?_eq_some hl)
    obtain ⟨v, hv, hr, hc⟩ := h.last_checked hl
    obtain ⟨v'', hv'', -, -, hb⟩ :=
      hviews tap htap (lastTap_id hl) v hv hr hc
    rw [hv'] at hv''
    cases hv''
    exact hb.trans (h.last tap v hl hv)

/-- A screen whose check is not over was not tapped for recipe `x`. -/
theorem Shown.set_unchecked {x : Option ItemId} {w : World} {i : Nat} {v v' : View}
    (h : Shown x w) (hv : w.views[i]? = some v) (hc : v.check ≠ .over) :
    Shown x { w with views := w.views.set i v' } := by
  refine h.of_eq rfl fun tap htap hx u hu hr hover => ⟨u, ?_, rfl, rfl, rfl⟩
  have hi : i ≠ tap.screen := by
    rintro rfl
    rw [hv] at hu
    cases hu
    exact hc hover
  show (w.views.set i v')[tap.screen]? = some u
  rw [List.getElem?_set_ne hi]
  exact hu

/-- A tap, on a screen of recipe `x` only after its check. -/
theorem Shown.tap {x : Option ItemId} {w : World} {i : Nat} {recipe : Recipe} {bookmarked : Bool}
    {check : Check} (h : Shown x w)
    (hv : w.views[i]? = some ⟨some recipe, bookmarked, check, true⟩)
    (hg : recipe.id = x → check = .over) :
    Shown x {
      views := w.views.set i ⟨some recipe, !bookmarked, check, true⟩
      bookmarks := w.call ⟨recipe, !bookmarked, i⟩ } := by
  have hops : (w.call ⟨recipe, !bookmarked, i⟩).ops = w.bookmarks.ops ++ [⟨recipe, !bookmarked, i⟩] :=
    List.map_append
  have hself : (w.views.set i ⟨some recipe, !bookmarked, check, true⟩)[i]? =
      some ⟨some recipe, !bookmarked, check, true⟩ :=
    List.getElem?_set_self (List.getElem?_eq_some_iff.mp hv).1
  refine ⟨fun tap htap hx => ?_, fun tap v hl htapv => ?_⟩
  · rw [hops] at htap
    rcases List.mem_append.mp htap with htap | htap
    · obtain ⟨v, hv', hr, hc⟩ := h.checked tap htap hx
      by_cases hi : i = tap.screen
      · rw [← hi, hv] at hv'
        cases hv'
        exact ⟨_, (congrArg _ hi.symm).trans hself, hr, hc⟩
      · exact ⟨v, (List.getElem?_set_ne hi).trans hv', hr, hc⟩
    · cases List.mem_singleton.mp htap
      exact ⟨_, hself, rfl, hg hx⟩
  · simp only [World.lastTap, hops, List.reverse_append, List.reverse_singleton,
      List.singleton_append, List.find?_cons] at hl
    split at hl
    · -- the new tap is on recipe `x`: it is the last one
      cases hl
      have hv' : v = ⟨some recipe, !bookmarked, check, true⟩ := by
        have := hself.symm.trans htapv
        exact (Option.some.inj this).symm
      rw [hv']
    · next hne =>
      -- it is on another recipe, hence on another screen
      obtain ⟨u, hu, hr, -⟩ := h.last_checked hl
      have hx : tap.recipe.id = x := lastTap_id hl
      have hi : i ≠ tap.screen := by
        rintro rfl
        rw [hv] at hu
        cases hu
        cases hr
        simp [hx] at hne
      have hkept : (w.views.set i ⟨some recipe, !bookmarked, check, true⟩)[tap.screen]? =
          w.views[tap.screen]? := List.getElem?_set_ne hi
      exact h.last tap v hl (hkept.symm.trans htapv)

theorem Shown.step {x : Option ItemId} {w u : World} {a : Act} (h : Shown x w)
    (hg : TapAfterCheck x w a) (hs : w.step a = some u) : Shown x u := by
  cases stepped hs with
  | «open» recipe =>
    refine h.of_eq rfl fun tap _ _ v hv _ _ => ⟨v, ?_, rfl, rfl, rfl⟩
    show (w.views ++ [.opened recipe])[tap.screen]? = some v
    rw [List.getElem?_append_left (List.getElem?_eq_some_iff.mp hv).1]
    exact hv
  | close i v hv =>
    refine h.of_eq rfl fun tap _ _ v' hv' _ _ => ?_
    by_cases hi : i = tap.screen
    · subst hi
      rw [hv] at hv'
      cases hv'
      exact ⟨_, List.getElem?_set_self (List.getElem?_eq_some_iff.mp hv).1, rfl, rfl, rfl⟩
    · exact ⟨v', (List.getElem?_set_ne hi).trans hv', rfl, rfl, rfl⟩
  | tap i recipe bookmarked check hv => exact h.tap hv (hg _ hv recipe rfl)
  | noTap i => exact h
  | serveCheck i v found hv hc => exact h.set_unchecked hv (by rw [hc]; simp)
  | replyCheck i v found bookmarked hv hc => exact h.set_unchecked hv (by rw [hc]; simp)
  | read n b hb =>
    refine h.of_eq (ops_eq hb fun _ hc => by cases hc) ?_
    exact fun tap _ _ v hv _ _ => ⟨v, hv, rfl, rfl, rfl⟩
  | write n b hb =>
    refine h.of_eq (ops_eq hb fun _ hc => by cases hc) ?_
    exact fun tap _ _ v hv _ _ => ⟨v, hv, rfl, rfl, rfl⟩

/-- What a careful run keeps: what the taps' requests know of `x`, and what is shown. -/
structure Truthful (x : Option ItemId) (w : World) : Prop where
  agree : Agree (OnRecipe x) (Listed x) w.bookmarks
  own : Own (OnRecipe x) (fun tap l => Listed x l ↔ tap.newBookmarkState = true) w.bookmarks
  decided : Decided (OnRecipe x) (Listed x) Tap.newBookmarkState w.bookmarks
  shown : Shown x w

theorem Truthful.initial (x : Option ItemId) (bookmarkedRecipes : List Recipe) :
    Truthful x (.initial bookmarkedRecipes) where
  agree c hc := by cases hc
  own c hc := by cases hc
  decided n c hc := by cases hc
  shown := ⟨fun tap htap => (by cases htap), fun tap v hl => (by cases hl)⟩

/-- A step of the taps' requests. -/
theorem Truthful.requests {x : Option ItemId} {w u : World} {a : Rmw.Act Tap} (h : Truthful x w)
    (horder : InOrder (OnRecipe x) w.bookmarks a)
    (hover : Undisturbed (OnRecipe x) (Listed x) w.bookmarks a)
    (hs : Rmw.step Tap.updated w.bookmarks a = some u.bookmarks) (hshown : Shown x u) :
    Truthful x u where
  agree := h.agree.step (fun tap l l' hx hu => by cases hu; exact updated_other _ _ l hx) hover hs
  own := h.own.step (fun c _ l l' hx hu => by cases hu; exact hx ▸ updated_own _ _ l) hs
  decided := h.decided.step h.agree h.own (fun tap l hn => by cases hn) horder hs
  shown := hshown

theorem Truthful.step {x : Option ItemId} {w u : World} {a : Act} (h : Truthful x w)
    (hg : Careful x w a) (hs : w.step a = some u) : Truthful x u := by
  obtain ⟨hcheck, horder, hover⟩ := hg
  have hshown : Shown x u := h.shown.step hcheck hs
  cases stepped hs with
  | «open» _ => exact ⟨h.agree, h.own, h.decided, hshown⟩
  | close _ _ _ => exact ⟨h.agree, h.own, h.decided, hshown⟩
  | tap i recipe bookmarked _ _ =>
    exact h.requests (a := .call ⟨recipe, !bookmarked, i⟩) trivial trivial rfl hshown
  | noTap _ => exact h
  | serveCheck _ _ _ _ _ => exact ⟨h.agree, h.own, h.decided, hshown⟩
  | replyCheck _ _ _ _ _ _ => exact ⟨h.agree, h.own, h.decided, hshown⟩
  | read n b hb => exact h.requests (a := .read n) trivial trivial hb hshown
  | write n b hb => exact h.requests (a := .write n) horder hover hb hshown

/-- With no request outstanding the icon a recipe was tapped on last tells whether the list has
the recipe. -/
theorem Truthful.icon {x : Option ItemId} {w : World} (h : Truthful x w) (hidle : w.Idle)
    {tap : Tap} (hlast : w.lastTap x = some tap) :
    ∃ v, w.views[tap.screen]? = some v ∧ v.recipe = some tap.recipe ∧
      (v.bookmarked = true ↔ x ∈ bookmarkedIds w.bookmarks.store) := by
  obtain ⟨v, hv, hr, -⟩ := h.shown.last_checked hlast
  refine ⟨v, hv, hr, ?_⟩
  rw [h.shown.last tap v hlast hv]
  -- no call after the last tap's is on the recipe
  obtain ⟨hx, before, after, hops, hnone⟩ := List.find?_eq_some_iff_append.mp hlast
  have hrev : w.bookmarks.ops = after.reverse ++ tap :: before.reverse := by
    rw [← List.reverse_reverse w.bookmarks.ops, hops]; simp
  obtain ⟨l, l', hcalls, -, hl'⟩ := List.map_eq_append_iff.mp hrev
  obtain ⟨c, l'', rfl, rfl, hl''⟩ := List.map_eq_cons_iff.mp hl'
  refine (h.decided.last hcalls (by simpa using hx) (hidle.1 c (by simp [hcalls])) ?_).symm
  intro d hd
  have hmem : d.op ∈ before := by
    rw [← List.mem_reverse, ← hl'']; exact List.mem_map_of_mem hd
  simpa using hnone _ hmem

/-- **The icon tells the truth** about recipe `x` once no request is outstanding, in a run
that is careful about `x`. -/
theorem icon_truthful {x : Option ItemId} {bookmarkedRecipes : List Recipe} {w : World}
    (h : Reach World.step (Careful x) (.initial bookmarkedRecipes) w) (hidle : w.Idle)
    {tap : Tap} (hlast : w.lastTap x = some tap) :
    ∃ v, w.views[tap.screen]? = some v ∧ v.recipe = some tap.recipe ∧
      (v.bookmarked = true ↔ x ∈ bookmarkedIds w.bookmarks.store) := by
  have hw : Truthful x w := h.invariant (.initial x _) fun _ _ _ hw hg hs => hw.step hg hs
  exact hw.icon hidle hlast

/-- Two screens of one recipe: it is bookmarked on the first and dropped on the second. -/
def bookmarkAndDrop : List Act :=
  [.open (some (.bare (.num 1))), .serveCheck 0, .replyCheck 0, .tap 0, .read 0, .write 0,
    .open (some (.bare (.num 1))), .serveCheck 1, .replyCheck 1, .tap 1, .close 1, .read 1, .write 1]

theorem icon_truthful_bookmarkAndDrop : ∃ w : World, ∃ tap v, w.lastTap (some (.num 1)) = some tap ∧
    tap.screen = 1 ∧ w.views[1]? = some v ∧
      (v.bookmarked = true ↔ some (.num 1) ∈ bookmarkedIds w.bookmarks.store) := by
  obtain ⟨w, hw, hidle, hlast⟩ := Reach.of_exec World.step (Careful (some (.num 1)))
    (.initial []) bookmarkAndDrop
    (fun w => w.Idle ∧ w.lastTap (some (.num 1)) = some ⟨.bare (.num 1), false, 1⟩) (by decide)
  obtain ⟨v, hv, -, hiff⟩ := icon_truthful hw hidle hlast
  exact ⟨w, _, v, hlast, rfl, hv, hiff⟩

/-! ## Icons that lie -/

/-- No request is outstanding, and the mounted screen recipe `x` was last tapped on
disagrees with the server. -/
abbrev Lies (x : Option ItemId) (w : World) : Prop :=
  w.Idle ∧ ∃ tap ∈ w.lastTap x, ∃ v ∈ w.views[tap.screen]?, v.mounted = true ∧
    ¬ (v.bookmarked = true ↔ x ∈ bookmarkedIds w.bookmarks.store)

/-- The recipe is tapped before the mount check, executed earlier, has answered. -/
def earlyTap : List Act :=
  [.open (some (.bare (.num 1))), .serveCheck 0, .tap 0, .read 0, .write 0, .replyCheck 0]

/-- Two taps on one screen; the second one's `POST` is executed first. -/
def swappedPosts : List Act :=
  [.open (some (.bare (.num 1))), .serveCheck 0, .replyCheck 0, .tap 0, .tap 0, .read 0, .read 1,
    .write 1, .write 0]

/-- Two recipes are tapped at once: both taps read the empty list. -/
def twoRecipes : List Act :=
  [.open (some (.bare (.num 1))), .serveCheck 0, .replyCheck 0, .open (some (.bare (.num 2))),
    .serveCheck 1, .replyCheck 1, .tap 0, .tap 1, .read 0, .read 1, .write 0, .write 1]

/-- A careful run needs each of its three parts. -/
theorem lies_of_early_tap : ∃ w, Reach World.step
    (fun w a => PostsInOrder (some (.num 1)) w a ∧ NoOverlap (some (.num 1)) w a)
    (.initial []) w ∧ Lies (some (.num 1)) w :=
  Reach.of_exec _ _ _ earlyTap _ (by decide)

theorem lies_of_swapped_posts : ∃ w, Reach World.step
    (fun w a => TapAfterCheck (some (.num 1)) w a ∧ NoOverlap (some (.num 1)) w a)
    (.initial []) w ∧ Lies (some (.num 1)) w :=
  Reach.of_exec _ _ _ swappedPosts _ (by decide)

theorem lies_of_overlap : ∃ w, Reach World.step
    (fun w a => TapAfterCheck (some (.num 1)) w a ∧ PostsInOrder (some (.num 1)) w a)
    (.initial []) w ∧ Lies (some (.num 1)) w :=
  Reach.of_exec _ _ _ twoRecipes _ (by decide)

theorem not_icon_truthful : ¬ ∀ (bookmarkedRecipes : List Recipe) (w : World),
    Reach World.step Free (.initial bookmarkedRecipes) w → w.Idle →
    ∀ x tap v, w.lastTap x = some tap → w.views[tap.screen]? = some v → v.mounted = true →
      (v.bookmarked = true ↔ x ∈ bookmarkedIds w.bookmarks.store) := by
  intro h
  obtain ⟨w, hw, hidle, tap, hlast, v, hv, hm, hlie⟩ := lies_of_early_tap
  exact hlie (h _ w hw.free hidle _ tap v hlast hv hm)

end IngrediGo.RecipeScreen
