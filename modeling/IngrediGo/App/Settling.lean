import IngrediGo.App.Return

/-!
# Requests that come to an end

What happens once the user stops. The requests that are outstanding may still be executed,
fail or be answered (`Answers`), in any order; none of these steps sends another one, and each
leaves fewer of them (`outstanding`).

`settles`: so they come to an end, whatever fails, and then no spinner is left.
`carried_through`: if none fails and those of a recipe are executed in their turn, its last
tap has been carried out.
-/

namespace IngrediGo.App

open Lib Lib.Rmw
open HomeScreen (Phase)
open RecipeScreen (Check View Tap Truthful OnRecipe Listed bookmarkedIds)

/-- A request is executed, fails or is answered. -/
def Act.isAnswer : Act → Bool
  | .home (.serve _ _) | .home (.reply _) => true
  | .recipe (.serveCheck _) | .recipe (.replyCheck _) | .recipe (.read _) | .recipe (.write _) =>
    true
  | .failCheck _ | .failTap _ => true
  | _ => false

/-- The user does nothing. -/
abbrev Answers (_ : World) (a : Act) : Prop := a.isAnswer = true

variable {recipes file : List Recipe} {w u : World} {a : Act} {lang : Lang} {x : Option ItemId}

/-! ## What is outstanding -/

def loadLeft : Phase → ℕ
  | .sent => 2
  | .answered _ => 1
  | .over _ => 0

def checkLeft (v : View) : ℕ :=
  match v.check with
  | .sent => 2
  | .answered _ => 1
  | .over => 0

/-- The steps that the requests made so far can still take. -/
def World.outstanding (w : World) : ℕ :=
  (w.home.screen.loads.map loadLeft).sum + (w.views.map checkLeft).sum + w.bookmarks.left

/-- A load goes on. -/
theorem loads_lt {home home' : HomeScreen.World} {a : HomeScreen.Act}
    (ha : (Act.home a).isAnswer = true) (hs : home.step recipes a = some home') :
    (home'.screen.loads.map loadLeft).sum < (home.screen.loads.map loadLeft).sum := by
  cases a with
  | serve i outcome =>
    obtain ⟨hi, hscreen⟩ := served hs
    rw [hscreen]
    exact sum_map_set_lt hi Nat.one_lt_two
  | reply i =>
    simp only [HomeScreen.World.step] at hs
    split at hs
    · next response hi =>
      cases hs
      exact sum_map_set_lt hi Nat.one_pos
    · cases hs
  | _ => cases ha

/-- A failed tap leaves the checks alone. -/
theorem checks_rolledBack (views : List View) (tap : Tap) :
    (views.modify tap.screen (View.rolledBack tap)).map checkLeft = views.map checkLeft := by
  have hview : ∀ v, checkLeft (View.rolledBack tap v) = checkLeft v := by
    intro v
    unfold View.rolledBack
    split <;> rfl
  refine List.ext_getElem? fun i => ?_
  rw [List.getElem?_map, List.getElem?_map, List.getElem?_modify]
  cases views[i]? with
  | none => rfl
  | some v => by_cases hi : tap.screen = i <;> simp [hi, hview]

/-- A request of the Recipe screens goes on. -/
theorem recipe_lt {r : RecipeScreen.World} {a : RecipeScreen.Act}
    (ha : (Act.recipe a).isAnswer = true) (hs : w.recipes.step a = some r) :
    (r.views.map checkLeft).sum + r.bookmarks.left <
      (w.views.map checkLeft).sum + w.bookmarks.left := by
  cases RecipeScreen.stepped hs with
  | «open» _ => cases ha
  | close _ _ _ => cases ha
  | tap _ _ _ _ _ => cases ha
  | noTap _ => cases ha
  | serveCheck i v found hv hc =>
    have hlt : checkLeft { v with check := .answered found } < checkLeft v := by
      simp only [checkLeft, hc]
      exact Nat.one_lt_two
    exact Nat.add_lt_add_right (sum_map_set_lt hv hlt) _
  | replyCheck i v found bookmarked hv hc =>
    have hlt : checkLeft { v with bookmarked := bookmarked, check := .over } < checkLeft v := by
      simp only [checkLeft, hc]
      exact Nat.one_pos
    exact Nat.add_lt_add_right (sum_map_set_lt hv hlt) _
  | read n b hb => exact Nat.add_lt_add_left (left_step (fun _ hc => by cases hc) hb) _
  | write n b hb => exact Nat.add_lt_add_left (left_step (fun _ hc => by cases hc) hb) _

/-- **Each answer leaves fewer.** -/
theorem outstanding_lt (ha : a.isAnswer = true) (hs : w.step recipes a = some u) :
    u.outstanding < w.outstanding := by
  cases a with
  | home a =>
    cases a with
    | change file => cases ha
    | _ =>
      obtain ⟨home, hhome, rfl⟩ := Option.map_eq_some_iff.mp hs
      exact Nat.add_lt_add_right (Nat.add_lt_add_right (loads_lt ha hhome) _) _
  | recipe a =>
    cases a with
    | «open» recipe => cases ha
    | _ =>
      obtain ⟨r, hr, rfl⟩ := Option.map_eq_some_iff.mp hs
      simp only [World.outstanding, Nat.add_assoc]
      exact Nat.add_lt_add_left (recipe_lt ha hr) _
  | failCheck i =>
    simp only [World.step] at hs
    split at hs
    · next v hv =>
      simp only [Option.ite_none_right_eq_some, Option.some.injEq] at hs
      obtain ⟨hc, rfl⟩ := hs
      have hlt : checkLeft { v with check := .over } < checkLeft v := by
        simp only [checkLeft, hc]
        exact Nat.two_pos
      exact Nat.add_lt_add_right (Nat.add_lt_add_left (sum_map_set_lt hv hlt) _) _
    · cases hs
  | failTap n =>
    simp only [World.step] at hs
    split at hs
    · next c hn =>
      obtain ⟨b, hb, rfl⟩ := Option.map_eq_some_iff.mp hs
      have hlt : b.left < w.bookmarks.left := left_fail hb
      simp only [World.outstanding, checks_rolledBack]
      exact Nat.add_lt_add_left hlt _
    · cases hs
  | _ => cases ha

/-! ## What keeps them going -/

/-- A screen that asks has a recipe to ask about. -/
def Asking (views : List View) : Prop := ∀ v ∈ views, v.check = .sent → v.recipe ≠ none

theorem Asking.set {views : List View} (h : Asking views) {i : ℕ} {v v' : View}
    (hv : views[i]? = some v) (hr : v'.recipe = v.recipe)
    (hc : v'.check = .sent → v.check = .sent) : Asking (views.set i v') := by
  intro y hy hsent
  rcases List.mem_or_eq_of_mem_set hy with hy | rfl
  · exact h y hy hsent
  · rw [hr]
    exact h v (List.mem_of_getElem? hv) (hc hsent)

/-- The step lemma. -/
theorem Asking.step (h : Asking w.views) (hs : w.step recipes a = some u) : Asking u.views := by
  cases stepped hs with
  | home _ _ _ _ => exact h
  | navigate _ recipe _ _ =>
    intro v hv hsent
    rcases List.mem_append.mp hv with hv | hv
    · exact h v hv hsent
    · rw [List.mem_singleton.mp hv] at hsent ⊢
      cases recipe with
      | none => cases hsent
      | some r => exact Option.some_ne_none r
  | recipe a r ha hr =>
    cases RecipeScreen.stepped hr with
    | «open» recipe => exact absurd rfl (ha recipe)
    | close i v hv => exact h.set hv rfl id
    | tap i recipe bookmarked check hv => exact h.set hv rfl id
    | noTap _ => exact h
    | serveCheck i v found hv _ => exact h.set hv rfl fun hc => by cases hc
    | replyCheck i v found bookmarked hv _ => exact h.set hv rfl fun hc => by cases hc
    | read _ _ _ => exact h
    | write _ _ _ => exact h
  | failCheck i v hv _ => exact h.set hv rfl fun hc => by cases hc
  | failTap n c b _ _ =>
    intro v hv hsent
    rcases mem_modify hv with hv | ⟨v', hv', rfl⟩
    · exact h v hv hsent
    · unfold View.rolledBack at hsent ⊢
      split at hsent
      · next hm =>
        rw [if_pos hm]
        exact h v' hv' hsent
      · next hm =>
        rw [if_neg hm]
        exact h v' hv' hsent

theorem asking {G : World → Act → Prop}
    (h : Reach (World.step recipes) G (.initial lang file) w) : Asking w.views :=
  h.invariant (I := fun w => Asking w.views) (fun v hv => by cases hv)
    fun _ _ _ hw _ hs => hw.step hs

/-- A load that is not over can go on. -/
theorem loads_over (hserve : ∀ i, w.step recipes (.home (.serve i .answered)) = none)
    (hreply : ∀ i, w.step recipes (.home (.reply i)) = none) : w.home.screen.Idle := by
  intro phase hphase
  obtain ⟨i, hi⟩ := List.mem_iff_getElem?.mp hphase
  have hs := Option.map_eq_none_iff.mp (hserve i)
  have hr := Option.map_eq_none_iff.mp (hreply i)
  cases phase with
  | sent => simp [HomeScreen.World.step, hi] at hs
  | answered response => simp [HomeScreen.World.step, hi] at hr
  | «over» response => rfl

/-- So can a check. -/
theorem checks_over (h : Asking w.views)
    (hserve : ∀ i, w.step recipes (.recipe (.serveCheck i)) = none)
    (hreply : ∀ i, w.step recipes (.recipe (.replyCheck i)) = none) :
    ∀ v ∈ w.views, v.check = .over := by
  intro v hv
  obtain ⟨i, hi⟩ := List.mem_iff_getElem?.mp hv
  have hs := Option.map_eq_none_iff.mp (hserve i)
  have hr := Option.map_eq_none_iff.mp (hreply i)
  obtain ⟨recipe, bookmarked, check, mounted⟩ := v
  cases check with
  | sent =>
    obtain ⟨r, rfl⟩ := Option.ne_none_iff_exists'.mp (h _ hv rfl)
    simp [RecipeScreen.World.step, World.recipes, hi] at hs
  | answered found => simp [RecipeScreen.World.step, World.recipes, hi] at hr
  | «over» => rfl

/-- And so can a tap. -/
theorem calls_done (hread : ∀ n, w.step recipes (.recipe (.read n)) = none)
    (hwrite : ∀ n, w.step recipes (.recipe (.write n)) = none) : w.bookmarks.Done := by
  intro c hc
  obtain ⟨n, hn⟩ := List.mem_iff_getElem?.mp hc
  by_contra hd
  rcases not_done_step Tap.updated hn hd with ⟨-, t, ht⟩ | ⟨-, t, ht⟩
  · have hnone := Option.map_eq_none_iff.mp (Option.map_eq_none_iff.mp (hread n))
    cases ht.symm.trans hnone
  · have hnone := Option.map_eq_none_iff.mp (Option.map_eq_none_iff.mp (hwrite n))
    cases ht.symm.trans hnone

/-- **Everything settles**: once the user stops, the requests outstanding take no more steps than
`outstanding` says, in whatever order they are executed and whichever fail; and when they can
take none any more, none is outstanding and Home shows no spinner. -/
theorem settles (h : Reach (World.step recipes) Free (.initial lang file) w) :
    (∀ as u, exec (World.step recipes) Answers w as = some u → as.length ≤ w.outstanding) ∧
    ∀ u, Reach (World.step recipes) Answers w u → Halted (World.step recipes) Answers u →
      u.Idle ∧ u.home.screen.isLoading = false ∧ u.home.screen.refreshing = false := by
  refine ⟨fun as u he => exec_length_le (fun _ _ _ => outstanding_lt) he, fun u hu hhalt => ?_⟩
  have hreach := h.trans hu.free
  have hloads := loads_over (fun i => hhalt.eq_none rfl) (fun i => hhalt.eq_none rfl)
  have hchecks := checks_over (asking hreach) (fun i => hhalt.eq_none rfl)
    (fun i => hhalt.eq_none rfl)
  have hcalls := calls_done (fun n => hhalt.eq_none rfl) (fun n => hhalt.eq_none rfl)
  exact ⟨⟨⟨hcalls, hchecks⟩, hloads⟩, HomeScreen.quiet_run (home_run hreach) hloads⟩

/-- The soup's icon is tapped while Home's loads and the mount check are outstanding. -/
def stopEarly : List Act := [.home .mount, .openRecipe 0, .recipe (.tap 0)]

theorem settles_stopEarly : ∃ w : World, w.outstanding = 8 ∧
    ∀ u, Reach (World.step [HomeScreen.soup "General"]) Answers w u →
      Halted (World.step [HomeScreen.soup "General"]) Answers u →
      u.Idle ∧ u.home.screen.isLoading = false ∧ u.home.screen.refreshing = false := by
  obtain ⟨w, hw, hleft⟩ := Reach.of_exec (World.step [HomeScreen.soup "General"]) Free
    (.initial .en []) stopEarly (fun w => w.outstanding = 8) (by decide)
  exact ⟨w, hleft, (settles hw).2⟩

/-! ## The last tap -/

/-- The `POST`s of recipe `x` wait for those of earlier taps. -/
def PostsInTurn (x : Option ItemId) (w : RecipeScreen.World) : RecipeScreen.Act → Prop
  | .write n => Waits (OnRecipe x) w.bookmarks (.write n)
  | _ => True

/-- Requests are executed and answered, those of recipe `x` undisturbed and in their turn. -/
def Steady (x : Option ItemId) (w : World) (a : Act) : Prop :=
  a.isAnswer = true ∧ Unfailing (fun r b => PostsInTurn x r b ∧ RecipeScreen.NoOverlap x r b) w a

/-- What a steady run keeps. -/
structure OnCourse (x : Option ItemId) (ops : List Tap) (r : RecipeScreen.World) : Prop where
  truthful : Truthful x r
  turn : InTurn (OnRecipe x) r.bookmarks
  ops : r.bookmarks.ops = ops

/-- A step of the Recipe screens. -/
theorem OnCourse.recipe {ops : List Tap} {r r' : RecipeScreen.World} {b : RecipeScreen.Act}
    (h : OnCourse x ops r) (ha : (Act.recipe b).isAnswer = true)
    (hg : PostsInTurn x r b ∧ RecipeScreen.NoOverlap x r b) (hs : r.step b = some r') :
    OnCourse x ops r' := by
  have htotal : ∀ (tap : Tap) (l : List Recipe), tap.updated l ≠ none :=
    fun _ _ hn => by cases hn
  have hcareful : RecipeScreen.PostsInOrder x r b → RecipeScreen.Careful x r b := by
    intro horder
    refine ⟨?_, horder, hg.2⟩
    cases b with
    | tap _ => cases ha
    | _ => trivial
  cases RecipeScreen.stepped hs with
  | «open» _ => cases ha
  | close _ _ _ => cases ha
  | tap _ _ _ _ _ => cases ha
  | noTap _ => cases ha
  | serveCheck _ _ _ _ _ => exact ⟨h.truthful.step (hcareful trivial) hs, h.turn, h.ops⟩
  | replyCheck _ _ _ _ _ _ => exact ⟨h.truthful.step (hcareful trivial) hs, h.turn, h.ops⟩
  | read n b hb =>
    exact ⟨h.truthful.step (hcareful trivial) hs,
      h.turn.step (a := .read n) htotal (fun _ hc => by cases hc) trivial hb,
      (ops_eq hb fun _ hc => by cases hc).trans h.ops⟩
  | write n b hb =>
    exact ⟨h.truthful.step (hcareful (h.turn.inOrder hb)) hs,
      h.turn.step (a := .write n) htotal (fun _ hc => by cases hc) hg.1 hb,
      (ops_eq hb fun _ hc => by cases hc).trans h.ops⟩

/-- The step lemma. -/
theorem OnCourse.step {ops : List Tap} (h : OnCourse x ops w.recipes) (hg : Steady x w a)
    (hs : w.step recipes a = some u) : OnCourse x ops u.recipes := by
  obtain ⟨ha, hg⟩ := hg
  cases a with
  | home a =>
    cases a with
    | change file => cases ha
    | _ =>
      obtain ⟨home, hhome, rfl⟩ := Option.map_eq_some_iff.mp hs
      have hfile := home_file (fun _ hc => by cases hc) hhome
      have hsame : ({ w with home := home } : World).recipes = w.recipes := by
        simp only [World.recipes, World.bookmarks, hfile]
      rw [hsame]
      exact h
  | recipe b =>
    cases b with
    | «open» recipe => cases ha
    | _ =>
      obtain ⟨r, hr, rfl⟩ := Option.map_eq_some_iff.mp hs
      exact h.recipe ha hg hr
  | failCheck _ => exact hg.elim
  | failTap _ => exact hg.elim
  | _ => cases ha

/-- A steady run that can go on no more has nothing outstanding. -/
theorem idle_of_halted (hasking : Asking w.views)
    (hhalt : Halted (World.step recipes) (Steady x) w) : w.Idle := by
  have hloads := loads_over (fun i => hhalt.eq_none ⟨rfl, trivial⟩)
    (fun i => hhalt.eq_none ⟨rfl, trivial⟩)
  have hchecks := checks_over hasking (fun i => hhalt.eq_none ⟨rfl, trivial, trivial⟩)
    (fun i => hhalt.eq_none ⟨rfl, trivial, trivial⟩)
  refine ⟨⟨?_, hchecks⟩, hloads⟩
  by_contra hd
  obtain ⟨b, t, hb, hturn, hover, ht⟩ :=
    enabled Tap.updated (OnRecipe x) (Listed x) hd
  cases b with
  | call tap => exact hb tap rfl
  | read n =>
    have hnone := hhalt.eq_none (a := .recipe (.read n)) ⟨rfl, trivial, trivial⟩
    cases ht.symm.trans (Option.map_eq_none_iff.mp (Option.map_eq_none_iff.mp hnone))
  | write n =>
    have hnone := hhalt.eq_none (a := .recipe (.write n)) ⟨rfl, hturn, hover⟩
    cases ht.symm.trans (Option.map_eq_none_iff.mp (Option.map_eq_none_iff.mp hnone))

/-- **The last tap is carried out**: after a run that was careful about a recipe, with none of
its taps overtaken, steady runs come to an end; and wherever they do, nothing is outstanding,
the list has the recipe exactly if its last tap asked for it, and so does its icon. -/
theorem carried_through
    (h : Reach (World.step recipes) (Unfailing (RecipeScreen.Careful x)) (.initial lang file) w)
    (hturn : InTurn (OnRecipe x) w.bookmarks) {tap : Tap} (hlast : w.recipes.lastTap x = some tap) :
    (∃ u, Reach (World.step recipes) (Steady x) w u ∧ Halted (World.step recipes) (Steady x) u) ∧
    ∀ u, Reach (World.step recipes) (Steady x) w u →
      Halted (World.step recipes) (Steady x) u →
      u.Idle ∧ (x ∈ bookmarkedIds u.home.file ↔ tap.newBookmarkState = true) ∧
      ∃ v, u.views[tap.screen]? = some v ∧ v.recipe = some tap.recipe ∧
        v.bookmarked = tap.newBookmarkState := by
  refine ⟨Reach.halts (μ := World.outstanding) (fun _ _ _ hg hs => outstanding_lt hg.1 hs) w,
    fun u hu hhalt => ?_⟩
  have hcourse : OnCourse x w.bookmarks.ops u.recipes :=
    hu.invariant (I := fun u => OnCourse x w.bookmarks.ops u.recipes) ⟨truthful h, hturn, rfl⟩
      fun _ _ _ hw hg hs => hw.step hg hs
  have hidle := idle_of_halted (asking (h.free.trans hu.free)) hhalt
  have hlast' : u.recipes.lastTap x = some tap := by
    unfold RecipeScreen.World.lastTap
    rw [hcourse.ops]
    exact hlast
  obtain ⟨v, hv, hr, hicon⟩ := hcourse.truthful.icon hidle.1 hlast'
  have hflag := hcourse.truthful.shown.last tap v hlast' hv
  exact ⟨hidle, hicon.symm.trans (by rw [hflag]), v, hv, hr, hflag⟩

/-- The icon is tapped after the mount check. -/
def tapAndStop : List Act :=
  [.home .mount, .openRecipe 0, .recipe (.serveCheck 0), .recipe (.replyCheck 0), .recipe (.tap 0)]

theorem carried_through_tapAndStop : ∃ u : World, u.Idle ∧
    some (.num 1) ∈ bookmarkedIds u.home.file := by
  obtain ⟨w, hw, hlength, hlast⟩ := Reach.of_exec (World.step [HomeScreen.soup "General"])
    (Unfailing (RecipeScreen.Careful (some (.num 1)))) (.initial .en []) tapAndStop
    (fun w => w.calls.length = 1 ∧
      w.recipes.lastTap (some (.num 1)) = some ⟨HomeScreen.soup "General", true, 0⟩) (by decide)
  have hturn : InTurn (OnRecipe (some (.num 1))) w.bookmarks := by
    intro n m c d hnm _ hm
    have hlt : m < w.calls.length := (List.getElem?_eq_some_iff.mp hm).1
    omega
  obtain ⟨⟨u, hu, hhalt⟩, hall⟩ := carried_through hw hturn hlast
  obtain ⟨hidle, hlisted, -⟩ := hall u hu hhalt
  exact ⟨u, hidle, hlisted.mpr rfl⟩

end IngrediGo.App
