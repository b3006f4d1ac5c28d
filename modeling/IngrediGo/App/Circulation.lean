import IngrediGo.Home.Loads
import IngrediGo.Recipe.Icon

/-!
# Bookmarks going round

Home and any number of Recipe screens over the server's one bookmarked list. Home shows the
list, and a card of the list opens a Recipe screen, whose taps save the very record that was
passed to it: what a tap saves may have been saved, loaded, normalized and shown before, by
loads and taps that overlap in any order and may all fail.

`World.step` puts the steps of `HomeScreen.World` and of `RecipeScreen.World` side by side and
adds the requests that fail. Seen from either screen it is a run of that screen's own model
(`home_run`, `recipe_run`). `circulation` says that nothing is worn by going round: every
record stored, in flight, shown or opened is a catalogue recipe or the copy saved of one.
-/

namespace IngrediGo.App

open Lib Lib.Rmw
open RecipeScreen (Check View Tap bookmarkedIds toggleBookmark.recipeToSave toggleBookmark.updated)

/-- Home, the Recipe screens and their taps. The server's bookmarked list is Home's `file`. -/
structure World where
  home : HomeScreen.World
  views : List View
  calls : List (Call (List Recipe) Tap)
  deriving DecidableEq, Repr

def World.initial (lang : Lang) (file : List Recipe) : World := ⟨.initial lang file, [], []⟩

/-- The list and the taps on it. -/
def World.bookmarks (w : World) : Rmw.State (List Recipe) Tap := ⟨w.home.file, w.calls⟩

/-- What the Recipe screens see. -/
def World.recipes (w : World) : RecipeScreen.World := ⟨w.views, w.bookmarks⟩

/-- After a step of theirs. -/
def World.withRecipes (w : World) (r : RecipeScreen.World) : World where
  home := { w.home with file := r.bookmarks.store }
  views := r.views
  calls := r.bookmarks.calls

/-- `navigation.navigate('Recipe', { recipe })`; without a recipe, for an ingredient. -/
def World.navigate (w : World) (recipe : Option Recipe) : World where
  home := { w.home with focused := false }
  views := w.views ++ [.opened recipe]
  calls := w.calls

inductive Act where
  /-- A step of Home. -/
  | home (a : HomeScreen.Act)
  /-- A card of the catalogue or a suggestion is pressed on Home. -/
  | openRecipe (i : ℕ)
  /-- A card of the bookmarked recipes is. -/
  | openBookmarked (i : ℕ)
  | openIngredient
  /-- A step of the Recipe screens. -/
  | recipe (a : RecipeScreen.Act)
  /-- The request of a screen's mount check fails. -/
  | failCheck (screen : ℕ)
  /-- A request of a tap fails. -/
  | failTap (n : ℕ)
  deriving DecidableEq, Repr

/-- `setBookmarked(!bookmarked)` after a failure, with the flag as it was at the tap. -/
def View.rolledBack (tap : Tap) (v : View) : View :=
  if v.mounted then { v with bookmarked := tap.newBookmarkState } else v

def World.step (recipes : List Recipe) (w : World) : Act → Option World
  -- the list changes, and Recipe screens open, only as below
  | .home (.change _) => none
  | .recipe (.open _) => none
  | .home a => (w.home.step recipes a).map ({ w with home := · })
  | .recipe a => (w.recipes.step a).map w.withRecipes
  | .openRecipe i => if w.home.focused then recipes[i]?.map (w.navigate ∘ some) else none
  | .openBookmarked i =>
    -- no cards are shown under the spinner
    if w.home.focused && !w.home.screen.isLoading then
      w.home.screen.bookmarkedRecipes[i]?.map (w.navigate ∘ some)
    else none
  | .openIngredient => if w.home.focused then some (w.navigate none) else none
  | .failCheck i =>
    match w.views[i]? with
    | some v =>
      if v.check = .sent then some { w with views := w.views.set i { v with check := .over } }
      else none
    | none => none
  | .failTap n =>
    match w.calls[n]? with
    | some c =>
      (Rmw.fail w.bookmarks n).map fun b =>
        { w with views := w.views.modify c.op.screen (View.rolledBack c.op), calls := b.calls }
    | none => none

/-! ## Everything a step can do -/

/-- A step is one of Home or one of the Recipe screens, opens a screen of a recipe that Home
shows, or is a request that fails. -/
inductive Stepped (recipes : List Recipe) (w : World) : Act → World → Prop where
  | home (a : HomeScreen.Act) (home : HomeScreen.World) (hs : w.home.step recipes a = some home)
      (hfile : home.file = w.home.file) : Stepped recipes w (.home a) { w with home := home }
  | navigate (a : Act) (recipe : Option Recipe) (hfocused : w.home.focused = true)
      (hr : ∀ r ∈ recipe, r ∈ recipes ∨ r ∈ w.home.screen.bookmarkedRecipes) :
      Stepped recipes w a (w.navigate recipe)
  | recipe (a : RecipeScreen.Act) (r : RecipeScreen.World) (ha : ∀ recipe, a ≠ .open recipe)
      (hs : w.recipes.step a = some r) : Stepped recipes w (.recipe a) (w.withRecipes r)
  | failCheck (i : ℕ) (v : View) (hv : w.views[i]? = some v) (hc : v.check = .sent) :
      Stepped recipes w (.failCheck i) { w with views := w.views.set i { v with check := .over } }
  | failTap (n : ℕ) (c : Call (List Recipe) Tap) (b : Rmw.State (List Recipe) Tap)
      (hn : w.calls[n]? = some c) (hb : Rmw.fail w.bookmarks n = some b) :
      Stepped recipes w (.failTap n)
        { w with views := w.views.modify c.op.screen (View.rolledBack c.op), calls := b.calls }

variable {recipes : List Recipe} {w u : World} {a : Act}

/-- Home's own steps leave the list alone. -/
theorem home_file {home home' : HomeScreen.World} {a : HomeScreen.Act}
    (ha : ∀ file, a ≠ .change file) (h : home.step recipes a = some home') :
    home'.file = home.file := by
  cases a with
  | change file => exact absurd rfl (ha file)
  | _ =>
    simp only [HomeScreen.World.step] at h
    repeat' split at h
    all_goals cases h
    all_goals rfl

/-- The server answers a load with the list, or with the failure of its `GET`. -/
theorem served {home home' : HomeScreen.World} {i : ℕ} {outcome : Outcome}
    (h : home.step recipes (.serve i outcome) = some home') :
    home.screen.loads[i]? = some .sent ∧ home'.screen = { home.screen with
      loads := home.screen.loads.set i (.answered (Server.get home.file outcome)) } := by
  simp only [HomeScreen.World.step] at h
  split at h
  · next hi => cases h; exact ⟨hi, rfl⟩
  · cases h

theorem stepped (h : w.step recipes a = some u) : Stepped recipes w a u := by
  cases a with
  | home a =>
    cases a with
    | change file => cases h
    | _ =>
      obtain ⟨home, hs, rfl⟩ := Option.map_eq_some_iff.mp h
      exact .home _ home hs (home_file (fun _ hc => by cases hc) hs)
  | openRecipe i =>
    simp only [World.step] at h
    split at h
    · next hf =>
      obtain ⟨r, hr, rfl⟩ := Option.map_eq_some_iff.mp h
      refine .navigate _ (some r) hf fun r' hr' => .inl ?_
      cases hr'
      exact List.mem_of_getElem? hr
    · cases h
  | openBookmarked i =>
    simp only [World.step] at h
    split at h
    · next hf =>
      obtain ⟨r, hr, rfl⟩ := Option.map_eq_some_iff.mp h
      refine .navigate _ (some r) (Bool.and_eq_true_iff.mp hf).1 fun r' hr' => .inr ?_
      cases hr'
      exact List.mem_of_getElem? hr
    · cases h
  | openIngredient =>
    simp only [World.step] at h
    split at h
    · next hf =>
      cases h
      exact .navigate _ none hf fun r hr => (by cases hr)
    · cases h
  | recipe a =>
    cases a with
    | «open» recipe => cases h
    | _ =>
      obtain ⟨r, hs, rfl⟩ := Option.map_eq_some_iff.mp h
      exact .recipe _ r (fun _ hc => by cases hc) hs
  | failCheck i =>
    simp only [World.step] at h
    split at h
    · next v hv =>
      simp only [Option.ite_none_right_eq_some, Option.some.injEq] at h
      obtain ⟨hc, rfl⟩ := h
      exact .failCheck i v hv hc
    · cases h
  | failTap n =>
    simp only [World.step] at h
    split at h
    · next c hn =>
      obtain ⟨b, hb, rfl⟩ := Option.map_eq_some_iff.mp h
      exact .failTap n c b hn hb
    · cases h

/-! ## What each screen sees of it -/

variable {lang : Lang} {file : List Recipe} {G : World → Act → Prop}

/-- **Home sees a run of its own**, in which the Recipe screens change the list. -/
theorem home_run (h : Reach (World.step recipes) G (.initial lang file) w) :
    Reach (HomeScreen.World.step recipes) Free (.initial lang file) w.home := by
  refine h.project World.home fun w a u _ hs => ?_
  cases stepped hs with
  | home a home hhome _ => exact .inr ⟨a, trivial, hhome⟩
  | navigate _ recipe hf _ =>
    refine .inr ⟨.blur, trivial, ?_⟩
    rw [HomeScreen.World.step, if_pos hf]
    rfl
  | recipe _ r _ _ => exact .inr ⟨.change r.bookmarks.store, trivial, rfl⟩
  | failCheck _ _ _ _ => exact .inl rfl
  | failTap _ _ _ _ _ => exact .inl rfl

/-- No request of a Recipe screen fails, and its steps meet a guard of the Recipe screens. -/
def Unfailing (G : RecipeScreen.World → RecipeScreen.Act → Prop) (w : World) : Act → Prop
  | .recipe a => G w.recipes a
  | .failCheck _ => False
  | .failTap _ => False
  | _ => True

instance (G : RecipeScreen.World → RecipeScreen.Act → Prop) [∀ w a, Decidable (G w a)]
    (w : World) : ∀ a, Decidable (Unfailing G w a)
  | .recipe a => inferInstanceAs (Decidable (G w.recipes a))
  | .failCheck _ => .isFalse fun h => h
  | .failTap _ => .isFalse fun h => h
  | .home _ => .isTrue trivial
  | .openRecipe _ => .isTrue trivial
  | .openBookmarked _ => .isTrue trivial
  | .openIngredient => .isTrue trivial

/-- **The Recipe screens see a run of their own**, as long as their requests succeed. -/
theorem recipe_run {G : RecipeScreen.World → RecipeScreen.Act → Prop}
    (hopen : ∀ w recipe, G w (.open recipe))
    (h : Reach (World.step recipes) (Unfailing G) (.initial lang file) w) :
    Reach RecipeScreen.World.step G (.initial file) w.recipes := by
  refine h.project World.recipes fun w a u hg hs => ?_
  cases stepped hs with
  | home _ home _ hfile => exact .inl (by simp only [World.recipes, World.bookmarks, hfile])
  | navigate _ recipe _ _ => exact .inr ⟨.open recipe, hopen _ _, rfl⟩
  | recipe a r _ hr => exact .inr ⟨a, hg, hr⟩
  | failCheck _ _ _ _ => exact hg.elim
  | failTap _ _ _ _ _ => exact hg.elim

/-- **The list sees calls** that read it, edit what they read and write it back, or fail. -/
theorem bookmarks_run (h : Reach (World.step recipes) G (.initial lang file) w) :
    Reach (Rmw.attempt Tap.updated) Free (.init file) w.bookmarks := by
  refine h.project World.bookmarks fun w a u _ hs => ?_
  cases stepped hs with
  | home _ home _ hfile => exact .inl (by simp only [World.bookmarks, hfile])
  | navigate _ _ _ _ => exact .inl rfl
  | recipe a r ha hr =>
    show r.bookmarks = w.bookmarks ∨ _
    cases RecipeScreen.stepped hr with
    | «open» recipe => exact absurd rfl (ha recipe)
    | close _ _ _ => exact .inl rfl
    | tap i recipe bookmarked _ _ =>
      exact .inr ⟨.act (.call ⟨recipe, !bookmarked, i⟩), trivial, rfl⟩
    | noTap _ => exact .inl rfl
    | serveCheck _ _ _ _ _ => exact .inl rfl
    | replyCheck _ _ _ _ _ _ => exact .inl rfl
    | read n b hb => exact .inr ⟨.act (.read n), trivial, hb⟩
    | write n b hb => exact .inr ⟨.act (.write n), trivial, hb⟩
  | failCheck _ _ _ _ => exact .inl rfl
  | failTap n c b _ hb =>
    refine .inr ⟨.fail n, trivial, ?_⟩
    obtain ⟨o, p, -, -, rfl⟩ := Rmw.fail_some hb
    exact hb

/-! ## Where records come from -/

/-- The copy saved of a catalogue recipe. -/
def Saved (recipes : List Recipe) (r : Recipe) : Prop :=
  ∃ source ∈ recipes, r = toggleBookmark.recipeToSave source

/-- A recipe Home can pass on: of the catalogue, or saved and loaded again. -/
def Offered (recipes : List Recipe) (r : Recipe) : Prop :=
  r ∈ recipes ∨ ∃ saved, Saved recipes saved ∧ r = HomeScreen.normalize saved

/-- A list of saved copies, none of them of the same id. -/
structure Sound (recipes l : List Recipe) : Prop where
  saved : ∀ r ∈ l, Saved recipes r
  nodup : (bookmarkedIds l).Nodup

theorem Sound.nil : Sound recipes [] := ⟨fun r hr => (by cases hr), List.nodup_nil⟩

/-- Normalizing adds a category, which saving leaves out. -/
theorem recipeToSave_normalize (r : Recipe) :
    toggleBookmark.recipeToSave (HomeScreen.normalize r) = toggleBookmark.recipeToSave r := by
  unfold HomeScreen.normalize
  split <;> rfl

/-- **Whatever Home passes on is saved as the catalogue's recipe is.** -/
theorem Offered.saved {r : Recipe} (h : Offered recipes r) :
    Saved recipes (toggleBookmark.recipeToSave r) := by
  rcases h with h | ⟨_, ⟨source, hsource, rfl⟩, rfl⟩
  · exact ⟨r, h, rfl⟩
  · exact ⟨source, hsource, recipeToSave_normalize _⟩

/-- A tap on such a recipe keeps a list sound. -/
theorem Sound.updated {l : List Recipe} (h : Sound recipes l) {tap : Tap}
    (ht : Offered recipes tap.recipe) :
    Sound recipes (toggleBookmark.updated tap.recipe tap.newBookmarkState l) := by
  unfold toggleBookmark.updated
  split
  · split
    · next hnew =>
      refine ⟨fun r hr => ?_, Keyed.nodup_keys_concat h.nodup fun hin => ?_⟩
      · rcases List.mem_append.mp hr with hr | hr
        · exact h.saved r hr
        · rw [List.mem_singleton.mp hr]
          exact ht.saved
      · have hold : RecipeScreen.isBookmarked l tap.recipe = true :=
          RecipeScreen.isBookmarked_iff.mpr hin
        simp [hold] at hnew
    · exact h
  · exact ⟨fun r hr => h.saved r (List.mem_filter.mp hr).1, Keyed.nodup_keys_filter h.nodup⟩

/-- What Home shows it can pass on, and what it waits for is saved copies. -/
structure Genuine (recipes : List Recipe) (s : HomeScreen.Screen) : Prop where
  shown : ∀ r ∈ s.bookmarkedRecipes, Offered recipes r
  answers : ∀ l, HomeScreen.Phase.answered (.ok l) ∈ s.loads → ∀ r ∈ l, Saved recipes r

/-- What a load sets, Home can pass on: saved copies normalized, or its own recipes. -/
theorem offered_produced {response : Option (Response (List Recipe))}
    (h : ∀ l, response = some (.ok l) → ∀ r ∈ l, Saved recipes r) :
    ∀ r ∈ HomeScreen.produced recipes response, Offered recipes r := by
  have hlocal : ∀ r ∈ recipes.filter (Js.truthy ·.bookmarked), Offered recipes r :=
    fun r hr => .inl (List.mem_filter.mp hr).1
  unfold HomeScreen.produced HomeScreen.fetchData
  split
  · next response =>
    split
    · exact hlocal
    · split
      · intro r hr
        obtain ⟨saved, hsaved, rfl⟩ := List.mem_map.mp hr
        exact .inr ⟨saved, h _ rfl saved hsaved, rfl⟩
      · exact hlocal
      · exact hlocal
  · exact hlocal

section Screen

variable {s : HomeScreen.Screen}

theorem Genuine.sent (h : Genuine recipes s) (isLoading refreshing : Bool) :
    Genuine recipes { s with
      isLoading := isLoading
      refreshing := refreshing
      loads := s.loads ++ [.sent] } := by
  refine ⟨h.shown, fun l hl => h.answers l ?_⟩
  rcases List.mem_append.mp hl with hl | hl
  · exact hl
  · cases List.mem_singleton.mp hl

theorem Genuine.complete (h : Genuine recipes s) (i : ℕ)
    {response : Option (Response (List Recipe))}
    (hresponse : ∀ l, response = some (.ok l) → ∀ r ∈ l, Saved recipes r) :
    Genuine recipes (s.complete recipes i response) := by
  refine ⟨offered_produced hresponse, fun l hl => h.answers l ?_⟩
  rcases List.mem_or_eq_of_mem_set hl with hl | hl
  · exact hl
  · cases hl

theorem Genuine.load (h : Genuine recipes s) (refreshing : Bool) :
    Genuine recipes ({ s with refreshing := refreshing }.load recipes) := by
  have hsent := h.sent true refreshing
  unfold HomeScreen.Screen.load
  split
  · exact hsent.complete _ fun l hl => by cases hl
  · exact hsent

theorem Genuine.answered (h : Genuine recipes s) (i : ℕ) {response : Response (List Recipe)}
    (hresponse : ∀ l, response = .ok l → ∀ r ∈ l, Saved recipes r) :
    Genuine recipes { s with loads := s.loads.set i (.answered response) } := by
  refine ⟨h.shown, fun l hl => ?_⟩
  rcases List.mem_or_eq_of_mem_set hl with hl | hl
  · exact h.answers l hl
  · cases hl
    exact hresponse l rfl

/-- Only an answer of the server brings new records. -/
theorem Genuine.moved {t : HomeScreen.Screen} {a : HomeScreen.Act} (h : Genuine recipes s)
    (hm : HomeScreen.Moved recipes s a t) (ha : ∀ i outcome, a ≠ .serve i outcome) :
    Genuine recipes t := by
  cases hm with
  | same _ => exact h
  | load _ => exact h.load s.refreshing
  | twice _ => exact (h.load s.refreshing).load _
  | refresh => exact h.load true
  | serve i outcome _ _ => exact absurd rfl (ha i outcome)
  | reply i response hi =>
    refine h.complete i fun l hl => h.answers l ?_
    cases hl
    exact List.mem_of_getElem? hi

end Screen

theorem Genuine.step {home home' : HomeScreen.World} {a : HomeScreen.Act}
    (h : Genuine recipes home.screen) (hfile : ∀ r ∈ home.file, Saved recipes r)
    (hs : home.step recipes a = some home') : Genuine recipes home'.screen := by
  have hm := HomeScreen.moved hs
  cases a with
  | serve i outcome =>
    rw [(served hs).2]
    refine h.answered i fun l hl => ?_
    cases outcome with
    | answered => cases hl; exact hfile
    | errorStatus => cases hl
    | unreachable _ => cases hl
  | _ => exact h.moved hm fun _ _ hc => by cases hc

/-! ## The circulation -/

/-- What every run keeps. -/
structure Circulating (recipes : List Recipe) (w : World) : Prop where
  stored : Kept (Sound recipes) w.bookmarks
  home : Genuine recipes w.home.screen
  opened : ∀ v ∈ w.views, ∀ r ∈ v.recipe, Offered recipes r
  tapped : ∀ c ∈ w.calls, Offered recipes c.op.recipe

/-- A screen that goes on showing its recipe. -/
theorem Circulating.view (h : Circulating recipes w) {i : ℕ} {v v' : View}
    (hv : w.views[i]? = some v) (hr : v'.recipe = v.recipe) :
    ∀ x ∈ w.views.set i v', ∀ r ∈ x.recipe, Offered recipes r := by
  intro x hx
  rcases List.mem_or_eq_of_mem_set hx with hx | rfl
  · exact h.opened x hx
  · rw [hr]
    exact h.opened v (List.mem_of_getElem? hv)

/-- A step of the Recipe screens. -/
theorem Circulating.recipe (h : Circulating recipes w) {a : RecipeScreen.Act}
    {r : RecipeScreen.World} (ha : ∀ recipe, a ≠ .open recipe) (hs : w.recipes.step a = some r) :
    Circulating recipes (w.withRecipes r) := by
  have hkept : ∀ {a : Rmw.Act Tap} {b : Rmw.State (List Recipe) Tap},
      Rmw.step Tap.updated w.bookmarks a = some b → Kept (Sound recipes) b := by
    intro a b hb
    refine h.stored.step (fun c hc l l' hl hu => ?_) hb
    cases hu
    exact hl.updated (h.tapped c hc)
  have hops : ∀ {a : Rmw.Act Tap} {b : Rmw.State (List Recipe) Tap}, (∀ o, a ≠ .call o) →
      Rmw.step Tap.updated w.bookmarks a = some b → ∀ c ∈ b.calls, Offered recipes c.op.recipe := by
    intro a b hcall hb c hc
    have hin : c.op ∈ w.bookmarks.ops := Rmw.ops_eq hb hcall ▸ State.mem_ops hc
    obtain ⟨d, hd, hdc⟩ := List.mem_map.mp hin
    rw [← hdc]
    exact h.tapped d hd
  cases RecipeScreen.stepped hs with
  | «open» recipe => exact absurd rfl (ha recipe)
  | close i v hv => exact ⟨h.stored, h.home, h.view hv rfl, h.tapped⟩
  | tap i recipe bookmarked check hv =>
    have hoffered : Offered recipes recipe := h.opened _ (List.mem_of_getElem? hv) recipe rfl
    refine ⟨hkept (a := .call _) rfl, h.home, h.view hv rfl, fun c hc => ?_⟩
    rcases List.mem_append.mp hc with hc | hc
    · exact h.tapped c hc
    · cases List.mem_singleton.mp hc
      exact hoffered
  | noTap _ => exact h
  | serveCheck i v found hv _ => exact ⟨h.stored, h.home, h.view hv rfl, h.tapped⟩
  | replyCheck i v found bookmarked hv _ => exact ⟨h.stored, h.home, h.view hv rfl, h.tapped⟩
  | read n b hb => exact ⟨hkept hb, h.home, h.opened, hops (fun _ hc => by cases hc) hb⟩
  | write n b hb => exact ⟨hkept hb, h.home, h.opened, hops (fun _ hc => by cases hc) hb⟩

/-- The step lemma. -/
theorem Circulating.step (h : Circulating recipes w) (hs : w.step recipes a = some u) :
    Circulating recipes u := by
  cases stepped hs with
  | home a home hhome hfile =>
    refine ⟨?_, h.home.step h.stored.store.saved hhome, h.opened, h.tapped⟩
    show Kept (Sound recipes) ⟨home.file, w.calls⟩
    rw [hfile]
    exact h.stored
  | navigate _ recipe _ hr =>
    refine ⟨h.stored, h.home, fun v hv r hvr => ?_, h.tapped⟩
    rcases List.mem_append.mp hv with hv | hv
    · exact h.opened v hv r hvr
    · rw [List.mem_singleton.mp hv] at hvr
      rcases hr r hvr with hr | hr
      · exact .inl hr
      · exact h.home.shown r hr
  | recipe a r ha hr => exact h.recipe ha hr
  | failCheck i v hv _ => exact ⟨h.stored, h.home, h.view hv rfl, h.tapped⟩
  | failTap n c b hn hb =>
    obtain ⟨o, p, ho, -, rfl⟩ := Rmw.fail_some hb
    refine ⟨h.stored.fail hb, h.home, fun v hv r hvr => ?_, fun d hd => ?_⟩
    · rcases mem_modify hv with hv | ⟨v', hv', rfl⟩
      · exact h.opened v hv r hvr
      · refine h.opened v' hv' r ?_
        unfold View.rolledBack at hvr
        split at hvr
        · exact hvr
        · exact hvr
    · rcases List.mem_or_eq_of_mem_set hd with hd | rfl
      · exact h.tapped d hd
      · exact h.tapped ⟨o, p⟩ (List.mem_of_getElem? ho)

theorem circulating (hfile : Sound recipes file)
    (h : Reach (World.step recipes) G (.initial lang file) w) : Circulating recipes w := by
  refine h.invariant ⟨Kept.init hfile, ⟨?_, ?_⟩, ?_, ?_⟩ fun _ _ _ hw _ hs => hw.step hs
  · intro r hr
    cases hr
  · intro l hl
    cases hl
  · intro v hv
    cases hv
  · intro c hc
    cases hc

/-- **Nothing is worn by going round**: whatever overlaps and whatever fails, each record of
the list, and of every list about to be posted, is the copy saved of a catalogue recipe, in
the list once, and each recipe shown on Home or open on a Recipe screen is the catalogue's or
such a copy, normalized. -/
theorem circulation (hfile : Sound recipes file)
    (h : Reach (World.step recipes) Free (.initial lang file) w) :
    Sound recipes w.home.file ∧
    (∀ c ∈ w.calls, ∀ l, c.phase = .writing l → Sound recipes l) ∧
    (∀ r ∈ w.home.screen.bookmarkedRecipes, Offered recipes r) ∧
    (∀ v ∈ w.views, ∀ r ∈ v.recipe,
      Offered recipes r ∧ Saved recipes (toggleBookmark.recipeToSave r)) := by
  have hw := circulating hfile h
  exact ⟨hw.stored.store, hw.stored.writing, hw.home.shown,
    fun v hv r hr => ⟨hw.opened v hv r hr, (hw.opened v hv r hr).saved⟩⟩

/-- The soup is bookmarked, opened from its bookmark, dropped there and bookmarked again. -/
def roundTrip : List Act :=
  [.home .mount, .home (.serve 0 .answered), .home (.serve 1 .answered), .home (.reply 1),
    .home (.reply 0), .openRecipe 0, .recipe (.serveCheck 0), .recipe (.replyCheck 0),
    .recipe (.tap 0), .recipe (.read 0), .recipe (.write 0), .recipe (.close 0), .home .focus,
    .home (.serve 2 .answered), .home (.reply 2), .openBookmarked 0, .recipe (.serveCheck 1),
    .recipe (.replyCheck 1), .recipe (.tap 1), .recipe (.tap 1), .recipe (.read 1),
    .recipe (.write 1), .recipe (.read 2), .recipe (.write 2)]

theorem circulation_roundTrip : ∃ w : World, w.views.length = 2 ∧ w.home.file ≠ [] ∧
    Sound [HomeScreen.soup "General"] w.home.file := by
  obtain ⟨w, hw, hviews, hfile⟩ := Reach.of_exec (World.step [HomeScreen.soup "General"]) Free
    (.initial .en []) roundTrip (fun w => w.views.length = 2 ∧ w.home.file ≠ []) (by decide)
  exact ⟨w, hviews, hfile, (circulation .nil hw).1⟩

end IngrediGo.App
