import IngrediGo.App.Circulation

/-!
# Back on Home

What Home shows once the Recipe screens have settled. Coming back to Home starts loads, and so
does every refresh and change of language there; while no icon is tapped they all read the same
list, so that it does not matter in which order they are answered (`Fresh`).

`home_agrees`: when they are, Home shows exactly the list, and the recipes on it are those
whose icon was left filled.
-/

namespace IngrediGo.App

open Lib Lib.Rmw
open HomeScreen (Phase Tracked produced fetchData)
open RecipeScreen (Check View Tap Truthful bookmarkedIds)

/-- No request is outstanding. -/
def World.Idle (w : World) : Prop := w.recipes.Idle ∧ w.home.screen.Idle

instance (w : World) : Decidable w.Idle := inferInstanceAs (Decidable (_ ∧ _))

/-- No icon is tapped, and the server answers Home's loads. -/
def Reading (_ : World) : Act → Prop
  | .recipe (.tap _) => False
  | .home (.serve _ outcome) => outcome = .answered
  | _ => True

instance (w : World) : ∀ a, Decidable (Reading w a)
  | .recipe (.tap _) => .isFalse fun h => h
  | .home (.serve _ outcome) => inferInstanceAs (Decidable (outcome = .answered))
  | .recipe (.open _) | .recipe (.close _) | .recipe (.serveCheck _) | .recipe (.replyCheck _)
  | .recipe (.read _) | .recipe (.write _) | .home .mount | .home .focus | .home .blur
  | .home .refresh | .home (.switchLanguage _) | .home (.change _) | .home (.reply _)
  | .openRecipe _ | .openBookmarked _ | .openIngredient | .failCheck _ | .failTap _ =>
    .isTrue trivial

variable {recipes file : List Recipe} {w u : World} {a : Act} {lang : Lang} {n : ℕ}

/-! ## Loads that read one list -/

/-- The first `n` loads are over, and those started since read `file`. -/
structure Fresh (file : List Recipe) (n : ℕ) (s : HomeScreen.Screen) : Prop where
  old : ∀ i < n, ∃ response, s.loads[i]? = some (.over response)
  recent : ∀ i phase, n ≤ i → s.loads[i]? = some phase →
    phase = .sent ∨ phase = .answered (.ok file) ∨ phase = .over (some (.ok file))
  /-- The first `n` got over first. -/
  order : ∃ done later, s.completed = done ++ later ∧ (∀ i ∈ done, i < n) ∧ ∀ i ∈ later, n ≤ i

/-- A load that is not over was started since. -/
theorem Fresh.le {s : HomeScreen.Screen} (h : Fresh file n s) {i : ℕ} {phase : Phase}
    (hi : s.loads[i]? = some phase) (hphase : phase.isOver = false) : n ≤ i := by
  by_contra hlt
  obtain ⟨response, hover⟩ := h.old i (Nat.lt_of_not_le hlt)
  cases Option.some.inj (hi.symm.trans hover)
  cases hphase

/-- A load started since goes on. -/
theorem Fresh.set {s t : HomeScreen.Screen} (h : Fresh file n s) {i : ℕ} {old phase : Phase}
    (hi : s.loads[i]? = some old) (hold : old.isOver = false)
    (hphase : phase = .answered (.ok file) ∨ phase = .over (some (.ok file)))
    (hloads : t.loads = s.loads.set i phase)
    (horder : t.completed = s.completed ∨ t.completed = s.completed ++ [i]) :
    Fresh file n t where
  old j hj := by
    have hne : i ≠ j := fun he => absurd (h.le hi hold) (Nat.not_le.mpr (he ▸ hj))
    rw [hloads, List.getElem?_set_ne hne]
    exact h.old j hj
  recent j p hj hp := by
    rw [hloads] at hp
    by_cases hij : i = j
    · subst hij
      rw [List.getElem?_set_self (List.getElem?_eq_some_iff.mp hi).1] at hp
      cases hp
      exact .inr hphase
    · rw [List.getElem?_set_ne hij] at hp
      exact h.recent j p hj hp
  order := by
    obtain ⟨done, later, hcompleted, hdone, hlater⟩ := h.order
    rcases horder with horder | horder
    · exact ⟨done, later, horder.trans hcompleted, hdone, hlater⟩
    · refine ⟨done, later ++ [i], ?_, hdone, fun j hj => ?_⟩
      · rw [horder, hcompleted, List.append_assoc]
      · rcases List.mem_append.mp hj with hj | hj
        · exact hlater j hj
        · rw [List.mem_singleton.mp hj]
          exact h.le hi hold

/-- Loads of a catalogue with categories reach their request. -/
theorem load_eq (hcatalogue : ∀ r ∈ recipes, r.category ≠ none) (s : HomeScreen.Screen) :
    s.load recipes = { s with isLoading := true, loads := s.loads ++ [.sent] } := by
  have hnone : ¬ recipes.any (·.category.isNone) = true := by
    rw [List.any_eq_true]
    rintro ⟨r, hr, hc⟩
    exact hcatalogue r hr (Option.isNone_iff_eq_none.mp hc)
  exact if_neg hnone

theorem Fresh.load {s : HomeScreen.Screen} (hcatalogue : ∀ r ∈ recipes, r.category ≠ none)
    (h : Fresh file n s) (refreshing : Bool) :
    Fresh file n ({ s with refreshing := refreshing }.load recipes) := by
  rw [load_eq hcatalogue]
  refine ⟨fun i hi => ?_, fun i phase hi hp => ?_, h.order⟩
  · obtain ⟨response, hover⟩ := h.old i hi
    refine ⟨response, ?_⟩
    show (s.loads ++ [Phase.sent])[i]? = _
    rw [List.getElem?_append_left (List.getElem?_eq_some_iff.mp hover).1]
    exact hover
  · have hp : (s.loads ++ [Phase.sent])[i]? = some phase := hp
    rcases Nat.lt_or_ge i s.loads.length with hlt | hge
    · rw [List.getElem?_append_left hlt] at hp
      exact h.recent i phase hi hp
    · rw [List.getElem?_append_right hge] at hp
      exact .inl (List.mem_singleton.mp (List.mem_of_getElem? hp))

/-- A step of Home that does not change the list. -/
theorem Fresh.step {home home' : HomeScreen.World} {a : HomeScreen.Act}
    (hcatalogue : ∀ r ∈ recipes, r.category ≠ none) (h : Fresh home.file n home.screen)
    (ha : ∀ i outcome, a = .serve i outcome → outcome = .answered)
    (hs : home.step recipes a = some home') : Fresh home.file n home'.screen := by
  have hm := HomeScreen.moved hs
  generalize ht : home'.screen = t at hm
  cases hm with
  | same _ => exact h
  | load _ => exact h.load hcatalogue home.screen.refreshing
  | twice _ => exact (h.load hcatalogue home.screen.refreshing).load hcatalogue _
  | refresh => exact h.load hcatalogue true
  | serve i outcome response hi =>
    have hanswer := congrArg HomeScreen.Screen.loads (ht.symm.trans (served hs).2)
    rw [ha i outcome rfl] at hanswer
    exact h.set hi rfl (.inl rfl) hanswer (.inl rfl)
  | reply i response hi =>
    refine h.set hi rfl (.inr ?_) rfl (.inr rfl)
    rcases h.recent i _ (h.le hi rfl) hi with hr | hr | hr
    · cases hr
    · cases hr
      rfl
    · cases hr

/-- What the loads have set once they are over, if one was started since. -/
theorem Fresh.shown {s : HomeScreen.Screen} (hcatalogue : ∀ r ∈ recipes, r.category ≠ none)
    (h : Fresh file n s) (ht : Tracked recipes s) (hidle : s.Idle) (hn : n < s.loads.length) :
    s.bookmarkedRecipes = file.map HomeScreen.normalize := by
  obtain ⟨done, later, hcompleted, hdone, hlater⟩ := h.order
  have hin : n ∈ s.completed :=
    (HomeScreen.completed_perm ht hidle).mem_iff.mpr (List.mem_range.mpr hn)
  have hne : later ≠ [] := by
    rintro rfl
    rw [hcompleted, List.append_nil] at hin
    exact absurd (hdone n hin) (Nat.lt_irrefl n)
  have hlast : s.completed.getLast? = some (later.getLast hne) := by
    rw [hcompleted, List.getLast?_append_of_ne_nil _ hne, List.getLast?_eq_some_getLast hne]
  obtain ⟨response, hload, hshown⟩ := ht.shown _ hlast
  have hresponse : response = some (.ok file) := by
    rcases h.recent _ _ (hlater _ (List.getLast_mem hne)) hload with hr | hr | hr
    · cases hr
    · cases hr
    · cases hr
      rfl
  rw [hshown, hresponse]
  exact HomeScreen.fetchData_ok hcatalogue file

/-! ## Screens that have settled -/

/-- A screen goes on showing what it showed, and its check stays over. -/
def Keeps (views views' : List View) : Prop :=
  ∀ (i : ℕ) (v : View), views[i]? = some v → ∃ v', views'[i]? = some v' ∧
    v'.recipe = v.recipe ∧ v'.bookmarked = v.bookmarked ∧ v'.check = .over

/-- What a run keeps after the state `w`, in which no request was outstanding. -/
structure Back (w : World) (n : ℕ) (u : World) : Prop where
  file : u.home.file = w.home.file
  done : u.bookmarks.Done
  views : Keeps w.views u.views
  fresh : Fresh w.home.file n u.home.screen

/-- One screen changes, which was not there or keeps its flag. -/
theorem Keeps.set {views views' : List View} (h : Keeps views views') {i : ℕ} {v v' : View}
    (hv : views'[i]? = some v)
    (hkeep : v.check = .over → v'.recipe = v.recipe ∧ v'.bookmarked = v.bookmarked ∧
      v'.check = .over) : Keeps views (views'.set i v') := by
  intro j x hx
  obtain ⟨x', hx', hr, hb, hc⟩ := h j x hx
  by_cases hij : i = j
  · subst hij
    rw [hv] at hx'
    cases hx'
    obtain ⟨hr', hb', hc'⟩ := hkeep hc
    exact ⟨v', List.getElem?_set_self (List.getElem?_eq_some_iff.mp hv).1, hr'.trans hr,
      hb'.trans hb, hc'⟩
  · exact ⟨x', (List.getElem?_set_ne hij).trans hx', hr, hb, hc⟩

theorem Keeps.append {views views' : List View} (h : Keeps views views') (v : View) :
    Keeps views (views' ++ [v]) := by
  intro i x hx
  obtain ⟨x', hx', hrest⟩ := h i x hx
  refine ⟨x', ?_, hrest⟩
  rw [List.getElem?_append_left (List.getElem?_eq_some_iff.mp hx').1]
  exact hx'

/-- Calls that are over take no step. -/
theorem not_step_of_done {s t : Rmw.State (List Recipe) Tap} (h : s.Done) {a : Rmw.Act Tap}
    (ha : ∀ o, a ≠ .call o) : Rmw.step Tap.updated s a ≠ some t := by
  intro hs
  rcases Rmw.step_cases hs with ⟨o, rfl, -⟩ | ⟨n, o, -, hn, -⟩ | ⟨n, o, v, -, hn, -⟩
  · exact ha o rfl
  · cases h _ (List.mem_of_getElem? hn)
  · cases h _ (List.mem_of_getElem? hn)

/-- The step lemma. -/
theorem Back.step (hcatalogue : ∀ r ∈ recipes, r.category ≠ none) {v : World}
    (h : Back w n u) (hg : Reading u a) (hs : u.step recipes a = some v) : Back w n v := by
  cases stepped hs with
  | home a home hhome hfile =>
    have hfresh : Fresh u.home.file n u.home.screen := h.file ▸ h.fresh
    refine ⟨hfile.trans h.file, h.done, h.views, ?_⟩
    rw [← h.file]
    refine hfresh.step hcatalogue ?_ hhome
    rintro i outcome rfl
    exact hg
  | navigate _ recipe _ _ => exact ⟨h.file, h.done, h.views.append _, h.fresh⟩
  | recipe a r ha hr =>
    cases RecipeScreen.stepped hr with
    | «open» recipe => exact absurd rfl (ha recipe)
    | close i x hx => exact ⟨h.file, h.done, h.views.set hx fun hc => ⟨rfl, rfl, hc⟩, h.fresh⟩
    | tap _ _ _ _ _ => exact hg.elim
    | noTap _ => exact hg.elim
    | serveCheck i x found hx hc =>
      refine ⟨h.file, h.done, h.views.set hx fun hover => ?_, h.fresh⟩
      cases hover.symm.trans hc
    | replyCheck i x found bookmarked hx hc =>
      refine ⟨h.file, h.done, h.views.set hx fun hover => ?_, h.fresh⟩
      cases hover.symm.trans hc
    | read n b hb => exact absurd hb (not_step_of_done h.done fun _ hc => by cases hc)
    | write n b hb => exact absurd hb (not_step_of_done h.done fun _ hc => by cases hc)
  | failCheck i x hx hc =>
    refine ⟨h.file, h.done, h.views.set hx fun hover => ?_, h.fresh⟩
    cases hover.symm.trans hc
  | failTap n c b _ hb =>
    obtain ⟨o, p, hn, hp, -⟩ := Rmw.fail_some hb
    exact absurd (h.done _ (List.mem_of_getElem? hn)) hp

theorem Back.start (hidle : w.Idle) (ht : Tracked recipes w.home.screen) :
    Back w w.home.screen.loads.length w where
  file := rfl
  done := hidle.1.1
  views i v hv := ⟨v, hv, rfl, rfl, hidle.1.2 v (List.mem_of_getElem? hv)⟩
  fresh := by
    refine ⟨fun i hi => ?_, fun i phase hi hp => ?_, w.home.screen.completed, [], ?_, ?_, ?_⟩
    · obtain ⟨response, hresponse⟩ := HomeScreen.isOver_iff.mp (hidle.2 _ (List.getElem_mem hi))
      exact ⟨response, by rw [List.getElem?_eq_getElem hi, hresponse]⟩
    · exact absurd (List.getElem?_eq_some_iff.mp hp).1 (Nat.not_lt.mpr hi)
    · exact (List.append_nil _).symm
    · intro i hi
      obtain ⟨response, hover⟩ := (ht.mem i).mp hi
      exact (List.getElem?_eq_some_iff.mp hover).1
    · intro i hi
      cases hi

/-! ## Home and the icons -/

theorem truthful {x : Option ItemId}
    (h : Reach (World.step recipes) (Unfailing (RecipeScreen.Careful x)) (.initial lang file) w) :
    Truthful x w.recipes :=
  (recipe_run (fun _ _ => ⟨trivial, trivial, trivial⟩) h).invariant (.initial x _)
    fun _ _ _ hw hg hs => hw.step hg hs

/-- **Home and the icons agree**: after a run that was careful about a recipe, and with no
request outstanding, whatever loads Home has started and in whatever order they were answered,
it shows the list as it is, and the recipe on it exactly if its icon was left filled. -/
theorem home_agrees {x : Option ItemId} (hcatalogue : ∀ r ∈ recipes, r.category ≠ none)
    (h : Reach (World.step recipes) (Unfailing (RecipeScreen.Careful x)) (.initial lang file) w)
    (hidle : w.Idle) {tap : Tap} (hlast : w.recipes.lastTap x = some tap)
    (hback : Reach (World.step recipes) Reading w u) (hover : u.home.screen.Idle)
    (hloads : w.home.screen.loads.length < u.home.screen.loads.length) :
    u.home.screen.bookmarkedRecipes = w.home.file.map HomeScreen.normalize ∧
      ∃ v, u.views[tap.screen]? = some v ∧ v.recipe = some tap.recipe ∧
        (v.bookmarked = true ↔ x ∈ bookmarkedIds u.home.screen.bookmarkedRecipes) := by
  have hu : Back w w.home.screen.loads.length u :=
    hback.invariant (Back.start hidle (HomeScreen.tracked_run (home_run h)))
      fun _ _ _ hb hg hs => hb.step hcatalogue hg hs
  have htracked : Tracked recipes u.home.screen :=
    HomeScreen.tracked_run (home_run (h.free.trans hback.free))
  have hshown := hu.fresh.shown hcatalogue htracked hover hloads
  obtain ⟨v, hv, hr, hicon⟩ := (truthful h).icon hidle.1 hlast
  obtain ⟨v', hv', hr', hb', -⟩ := hu.views _ v hv
  refine ⟨hshown, v', hv', hr'.trans hr, ?_⟩
  have hids : bookmarkedIds (w.home.file.map HomeScreen.normalize) = bookmarkedIds w.home.file :=
    Keyed.keys_map fun r _ => HomeScreen.normalize_id r
  rw [hb', hshown, hids]
  exact hicon

/-- The soup is bookmarked on its screen; back on Home it is loaded twice, out of order. -/
def bookmarkSoup : List Act :=
  [.home .mount, .home (.serve 0 .answered), .home (.serve 1 .errorStatus), .home (.reply 1),
    .home (.reply 0), .openRecipe 0, .recipe (.serveCheck 0), .recipe (.replyCheck 0),
    .recipe (.tap 0), .recipe (.read 0), .recipe (.write 0)]

def backHome : List Act :=
  [.home .focus, .home .refresh, .home (.serve 3 .answered), .home (.reply 3),
    .home (.serve 2 .answered), .home (.reply 2)]

theorem home_agrees_soup : ∃ u : World, ∃ v ∈ u.views[0]?,
    (v.bookmarked = true ↔ some (.num 1) ∈ bookmarkedIds u.home.screen.bookmarkedRecipes) := by
  obtain ⟨w, hw, hidle, hlast, u, hback, hover, hloads⟩ : ∃ w,
      Reach (World.step [HomeScreen.soup "General"])
        (Unfailing (RecipeScreen.Careful (some (.num 1)))) (.initial .en []) w ∧
      w.Idle ∧ w.recipes.lastTap (some (.num 1)) = some ⟨HomeScreen.soup "General", true, 0⟩ ∧
      ∃ u, Reach (World.step [HomeScreen.soup "General"]) Reading w u ∧
        u.home.screen.Idle ∧ w.home.screen.loads.length < u.home.screen.loads.length := by
    obtain ⟨w, hw, hidle, hlast, hrest⟩ := Reach.of_exec
      (World.step [HomeScreen.soup "General"])
      (Unfailing (RecipeScreen.Careful (some (.num 1)))) (.initial .en []) bookmarkSoup
      (fun w => w.Idle ∧
        w.recipes.lastTap (some (.num 1)) = some ⟨HomeScreen.soup "General", true, 0⟩ ∧
        (Lib.exec (World.step [HomeScreen.soup "General"]) Reading w backHome).map (fun u =>
          decide (u.home.screen.Idle ∧
            w.home.screen.loads.length < u.home.screen.loads.length)) = some true)
      (by decide)
    obtain ⟨u, hu, hover, hloads⟩ := Reach.of_exec _ _ w backHome _ hrest
    exact ⟨w, hw, hidle, hlast, u, hu, hover, hloads⟩
  obtain ⟨-, v, hv, -, hicon⟩ :=
    home_agrees (by simp [HomeScreen.soup]) hw hidle hlast hback hover hloads
  exact ⟨u, v, hv, hicon⟩

end IngrediGo.App
