import IngrediGo.Home.Card
import IngrediGo.Lib.Runs

/-!
# Home's loads

Every focus, pull-to-refresh and change of language starts a `fetchData`, a mount and a change
of language on the focused screen start two. Nothing orders them: each sets the screen when it
is over. What Home shows is therefore what the load that was over last has set
(`last_over_wins`), which need not be the one started last.
-/

namespace IngrediGo.HomeScreen

open Lib

/-- Where a load stands. -/
inductive Phase where
  | sent
  /-- Executed by the server; the answer is on its way. -/
  | answered (response : Response (List Recipe))
  /-- `none` if it threw before its request. -/
  | over (response : Option (Response (List Recipe)))
  deriving DecidableEq, Repr

/-- What `fetchData` sets and has set. -/
structure Screen where
  bookmarkedRecipes : List Recipe
  isLoading : Bool
  refreshing : Bool
  /-- In the order they were started. -/
  loads : List Phase
  /-- The loads that are over, in the order they got over. -/
  completed : List ℕ
  deriving DecidableEq, Repr

/-- What a load sets that got this far. -/
def produced (recipes : List Recipe) : Option (Response (List Recipe)) → List Recipe
  | some response => fetchData recipes response
  | none => recipes.filter (Js.truthy ·.bookmarked)

/-- A load is over: it sets the recipes, and its `finally` block runs. -/
def Screen.complete (recipes : List Recipe) (s : Screen) (i : ℕ)
    (response : Option (Response (List Recipe))) : Screen where
  bookmarkedRecipes := produced recipes response
  isLoading := false
  refreshing := false
  loads := s.loads.set i (.over response)
  completed := s.completed ++ [i]

/-- `fetchData()` up to its request, which it does not reach if a category is missing. -/
def Screen.load (recipes : List Recipe) (s : Screen) : Screen :=
  let sent := { s with isLoading := true, loads := s.loads ++ [.sent] }
  if recipes.any (·.category.isNone) then sent.complete recipes s.loads.length none else sent

/-- Home, and the bookmarked list of the server. -/
structure World where
  lang : Lang
  mounted : Bool
  focused : Bool
  screen : Screen
  file : List Recipe
  deriving DecidableEq, Repr

def World.initial (lang : Lang) (file : List Recipe) : World :=
  ⟨lang, false, false, ⟨[], false, false, [], []⟩, file⟩

inductive Act where
  | mount
  | focus
  | blur
  | refresh
  | switchLanguage (lang : Lang)
  /-- Another screen writes the bookmarked list. -/
  | change (file : List Recipe)
  /-- The server executes a load's `GET`, which may fail. -/
  | serve (i : ℕ) (outcome : Outcome)
  /-- The answer reaches the load. -/
  | reply (i : ℕ)
  deriving DecidableEq, Repr

def World.step (recipes : List Recipe) (w : World) : Act → Option World
  | .mount =>
    if w.mounted then none
    -- the focus effect, and the effect on `lang`
    else some { w with
      mounted := true
      focused := true
      screen := (w.screen.load recipes).load recipes }
  | .focus =>
    if w.mounted && !w.focused then
      some { w with focused := true, screen := w.screen.load recipes }
    else none
  | .blur => if w.focused then some { w with focused := false } else none
  | .refresh =>
    if w.focused then
      some { w with screen := { w.screen with refreshing := true }.load recipes }
    else none
  | .switchLanguage lang =>
    -- `fetchData` depends on `lang`, and both effects on it
    if !w.mounted || lang = w.lang then some { w with lang := lang }
    else if w.focused then
      some { w with lang := lang, screen := (w.screen.load recipes).load recipes }
    else some { w with lang := lang, screen := w.screen.load recipes }
  | .change file => some { w with file := file }
  | .serve i outcome =>
    match w.screen.loads[i]? with
    | some .sent =>
      let answer := Phase.answered (Server.get w.file outcome)
      some { w with screen := { w.screen with loads := w.screen.loads.set i answer } }
    | _ => none
  | .reply i =>
    match w.screen.loads[i]? with
    | some (.answered response) =>
      some { w with screen := w.screen.complete recipes i (some response) }
    | _ => none

def Phase.isOver : Phase → Bool
  | .over _ => true
  | _ => false

/-- No load is outstanding. -/
def Screen.Idle (s : Screen) : Prop := ∀ phase ∈ s.loads, phase.isOver = true

instance (s : Screen) : Decidable s.Idle := inferInstanceAs (Decidable (∀ _ ∈ _, _))

/-- The screen shows what the `i`-th load has set. -/
def Screen.Shows (recipes : List Recipe) (s : Screen) (i : ℕ) : Prop :=
  ∃ response, s.loads[i]? = some (.over response) ∧
    s.bookmarkedRecipes = produced recipes response

/-! ## One step -/

/-- What a step can do to the screen: a load is started, answered or over, or nothing. -/
inductive Moved (recipes : List Recipe) (s : Screen) : Act → Screen → Prop where
  | same (a : Act) : Moved recipes s a s
  | load (a : Act) : Moved recipes s a (s.load recipes)
  | twice (a : Act) : Moved recipes s a ((s.load recipes).load recipes)
  | refresh : Moved recipes s .refresh ({ s with refreshing := true }.load recipes)
  | serve (i : ℕ) (outcome : Outcome) (response : Response (List Recipe))
      (h : s.loads[i]? = some .sent) :
      Moved recipes s (.serve i outcome) { s with loads := s.loads.set i (.answered response) }
  | reply (i : ℕ) (response : Response (List Recipe))
      (h : s.loads[i]? = some (.answered response)) :
      Moved recipes s (.reply i) (s.complete recipes i (some response))

variable {recipes : List Recipe} {s : Screen} {w w' : World} {i : ℕ}

theorem moved {a : Act} (h : w.step recipes a = some w') :
    Moved recipes w.screen a w'.screen := by
  cases a with
  | mount =>
    simp only [World.step] at h
    split at h
    · cases h
    · cases h; exact .twice _
  | focus =>
    simp only [World.step] at h
    split at h
    · cases h; exact .load _
    · cases h
  | blur =>
    simp only [World.step] at h
    split at h
    · cases h; exact .same _
    · cases h
  | refresh =>
    simp only [World.step] at h
    split at h
    · cases h; exact .refresh
    · cases h
  | switchLanguage lang =>
    simp only [World.step] at h
    split at h
    · cases h; exact .same _
    · split at h
      · cases h; exact .twice _
      · cases h; exact .load _
  | change file => cases h; exact .same _
  | serve i outcome =>
    simp only [World.step] at h
    split at h
    · next hi => cases h; exact .serve i outcome _ hi
    · cases h
  | reply i =>
    simp only [World.step] at h
    split at h
    · next response hi => cases h; exact .reply i response hi
    · cases h

theorem isOver_iff {phase : Phase} : phase.isOver = true ↔ ∃ response, phase = .over response := by
  cases phase <;> simp [Phase.isOver]

/-- The record of the loads that are over is right, and the screen shows the last of them. -/
structure Tracked (recipes : List Recipe) (s : Screen) : Prop where
  nodup : s.completed.Nodup
  mem : ∀ i, i ∈ s.completed ↔ ∃ response, s.loads[i]? = some (.over response)
  shown : ∀ i, s.completed.getLast? = some i → s.Shows recipes i

/-- What leaves the loads that are over alone. -/
theorem Tracked.frame {t : Screen} (h : Tracked recipes s) (hcompleted : t.completed = s.completed)
    (hrecipes : t.bookmarkedRecipes = s.bookmarkedRecipes)
    (hover : ∀ (i : ℕ) (response : Option (Response (List Recipe))),
      t.loads[i]? = some (.over response) ↔ s.loads[i]? = some (.over response)) :
    Tracked recipes t := by
  refine ⟨hcompleted ▸ h.nodup, fun i => ?_, fun i hi => ?_⟩
  · simpa only [hcompleted, hover] using h.mem i
  · rw [hcompleted] at hi
    obtain ⟨response, hload, hshown⟩ := h.shown i hi
    exact ⟨response, (hover i response).mpr hload, hrecipes.trans hshown⟩

/-- A load that is started is not over. -/
theorem tracked_sent (h : Tracked recipes s) (isLoading refreshing : Bool) :
    Tracked recipes { s with
      isLoading := isLoading
      refreshing := refreshing
      loads := s.loads ++ [.sent] } := by
  refine h.frame rfl rfl fun i response => ?_
  show (s.loads ++ [Phase.sent])[i]? = some (.over response) ↔ _
  rw [List.getElem?_append]
  split
  · rfl
  · next hi =>
    rw [List.getElem?_eq_none (Nat.le_of_not_lt hi)]
    simp [List.getElem?_singleton]

/-- Neither is one that is answered. -/
theorem tracked_answered (h : Tracked recipes s) (hi : s.loads[i]? = some .sent)
    (response : Response (List Recipe)) :
    Tracked recipes { s with loads := s.loads.set i (.answered response) } := by
  refine h.frame rfl rfl fun j r => ?_
  show (s.loads.set i (.answered response))[j]? = some (.over r) ↔ _
  by_cases hj : i = j
  · subst hj
    rw [List.getElem?_set_self (List.getElem?_eq_some_iff.mp hi).1, hi]
    simp
  · rw [List.getElem?_set_ne hj]

/-- **The load that is over last decides** what is shown. -/
theorem tracked_complete (h : Tracked recipes s) {phase : Phase} (hi : s.loads[i]? = some phase)
    (hphase : phase.isOver = false) (response : Option (Response (List Recipe))) :
    Tracked recipes (s.complete recipes i response) := by
  have hlt : i < s.loads.length := (List.getElem?_eq_some_iff.mp hi).1
  have hown : (s.loads.set i (.over response))[i]? = some (.over response) := by
    rw [List.getElem?_set_self hlt]
  have hother : ∀ j ≠ i, (s.loads.set i (.over response))[j]? = s.loads[j]? := fun j hj =>
    List.getElem?_set_ne hj.symm
  have hnew : i ∉ s.completed := by
    rw [h.mem i]
    rintro ⟨r, hr⟩
    cases Option.some.inj (hi.symm.trans hr)
    cases hphase
  refine ⟨?_, fun j => ?_, fun j hj => ?_⟩
  · show (s.completed ++ [i]).Nodup
    rw [← List.concat_eq_append]
    exact h.nodup.concat hnew
  · show j ∈ s.completed ++ [i] ↔ ∃ r, (s.loads.set i (.over response))[j]? = some (.over r)
    rw [List.mem_append, List.mem_singleton]
    by_cases hj : j = i
    · subst hj
      exact iff_of_true (.inr rfl) ⟨response, hown⟩
    · rw [hother j hj, ← h.mem j, or_iff_left hj]
  · obtain rfl : i = j := by
      have hlast : (s.completed ++ [i]).getLast? = some j := hj
      rw [List.getLast?_concat] at hlast
      exact Option.some.inj hlast
    exact ⟨response, hown, rfl⟩

theorem tracked_load (h : Tracked recipes s) (refreshing : Bool) :
    Tracked recipes ({ s with refreshing := refreshing }.load recipes) := by
  have hsent := tracked_sent h true refreshing
  unfold Screen.load
  split
  · exact tracked_complete hsent List.getElem?_concat_length rfl none
  · exact hsent

/-- The step lemma. -/
theorem tracked_moved {t : Screen} {a : Act} (h : Tracked recipes s) (hm : Moved recipes s a t) :
    Tracked recipes t := by
  cases hm with
  | same _ => exact h
  | load _ => exact tracked_load h s.refreshing
  | twice _ => exact tracked_load (tracked_load h s.refreshing) _
  | refresh => exact tracked_load h true
  | serve i _ response hi => exact tracked_answered h hi response
  | reply i response hi => exact tracked_complete h hi rfl (some response)

/-! ## Runs -/

variable {lang : Lang} {file : List Recipe}

theorem tracked_initial : Tracked recipes (World.initial lang file).screen where
  nodup := List.nodup_nil
  mem i := by simp [World.initial]
  shown i hi := by cases hi

theorem tracked_run {G : World → Act → Prop}
    (h : Reach (World.step recipes) G (.initial lang file) w) : Tracked recipes w.screen :=
  h.invariant (I := fun w => Tracked recipes w.screen) tracked_initial
    fun _ _ _ ht _ hs => tracked_moved ht (moved hs)

/-- With no load outstanding every load has got over once. -/
theorem completed_perm (h : Tracked recipes s) (hidle : s.Idle) :
    s.completed.Perm (List.range s.loads.length) := by
  rw [List.perm_ext_iff_of_nodup h.nodup List.nodup_range]
  intro i
  rw [h.mem, List.mem_range]
  constructor
  · rintro ⟨response, hi⟩
    exact (List.getElem?_eq_some_iff.mp hi).1
  · intro hi
    obtain ⟨response, hresponse⟩ := isOver_iff.mp (hidle _ (List.getElem_mem hi))
    exact ⟨response, by rw [List.getElem?_eq_getElem hi, hresponse]⟩

/-- **The load that is over last wins**: with no load outstanding Home shows what it has set,
whenever it was started. -/
theorem last_over_wins (h : Reach (World.step recipes) Free (.initial lang file) w)
    (hidle : w.screen.Idle) :
    w.screen.completed.Perm (List.range w.screen.loads.length) ∧
    (w.screen.loads ≠ [] → ∃ i, w.screen.completed.getLast? = some i ∧ w.screen.Shows recipes i) := by
  have ht := tracked_run h
  have hperm := completed_perm ht hidle
  refine ⟨hperm, fun hne => ?_⟩
  cases hlast : w.screen.completed.getLast? with
  | none =>
    rw [List.getLast?_eq_none_iff.mp hlast, List.nil_perm, List.range_eq_nil] at hperm
    exact absurd (List.length_eq_zero_iff.mp hperm) hne
  | some i => exact ⟨i, rfl, ht.shown i hlast⟩

/-- The two loads of a mount, answered in turn. -/
theorem last_over_wins_inTurn : ∃ w : World, w.screen.Idle ∧
    w.screen.completed.getLast? = some 1 ∧ w.screen.Shows [soup "General"] 1 := by
  obtain ⟨w, hw, hidle, hlast, hne⟩ := Reach.of_exec (World.step [soup "General"]) Free
    (.initial .en [.bare (.num 1)])
    [.mount, .serve 0 .answered, .change [], .serve 1 .answered, .reply 0, .reply 1]
    (fun w => w.screen.Idle ∧ w.screen.completed.getLast? = some 1 ∧ w.screen.loads ≠ [])
    (by decide)
  obtain ⟨i, hi, hshows⟩ := (last_over_wins hw hidle).2 hne
  obtain rfl : i = 1 := Option.some.inj (hi.symm.trans hlast)
  exact ⟨w, hidle, hlast, hshows⟩

/-- The first load of a mount reads a bookmark that is gone when the second one reads, and its
answer comes last: the bookmark is shown. -/
theorem not_latest_wins : ¬ ∀ (recipes : List Recipe) (lang : Lang) (file : List Recipe)
    (w : World) (latest : ℕ), Reach (World.step recipes) Free (.initial lang file) w →
      w.screen.Idle → latest + 1 = w.screen.loads.length → w.screen.Shows recipes latest := by
  intro h
  obtain ⟨w, hw, hidle, hlength, hload, hshown⟩ := Reach.of_exec (World.step [soup "General"]) Free
    (.initial .en [.bare (.num 1)])
    [.mount, .serve 0 .answered, .change [], .serve 1 .answered, .reply 1, .reply 0]
    (fun w => w.screen.Idle ∧ 1 + 1 = w.screen.loads.length ∧
      w.screen.loads[1]? = some (.over (some (.ok []))) ∧ w.screen.bookmarkedRecipes ≠ [])
    (by decide)
  obtain ⟨response, hresponse, hrecipes⟩ := h _ .en _ w 1 hw hidle hlength
  cases Option.some.inj (hload.symm.trans hresponse)
  exact hshown hrecipes

/-! ## Spinners -/

/-- With no load outstanding nothing is shown as loading. -/
def Quiet (s : Screen) : Prop := s.Idle → s.isLoading = false ∧ s.refreshing = false

theorem quiet_load (recipes : List Recipe) (s : Screen) : Quiet (s.load recipes) := by
  unfold Screen.load
  split
  · exact fun _ => ⟨rfl, rfl⟩
  · intro hidle
    have hsent := hidle .sent (List.mem_append_right _ (.head _))
    cases hsent

theorem quiet_moved {t : Screen} {a : Act} (h : Quiet s) (hm : Moved recipes s a t) : Quiet t := by
  cases hm with
  | same _ => exact h
  | load _ => exact quiet_load recipes s
  | twice _ => exact quiet_load recipes _
  | refresh => exact quiet_load recipes _
  | serve i _ response hi =>
    intro hidle
    have hlt : i < s.loads.length := (List.getElem?_eq_some_iff.mp hi).1
    have hanswered := hidle _ (List.mem_set hlt (.answered response))
    cases hanswered
  | reply i response _ => exact fun _ => ⟨rfl, rfl⟩

/-- **No spinner stays**, whatever became of the loads. -/
theorem quiet_run {G : World → Act → Prop}
    (h : Reach (World.step recipes) G (.initial lang file) w) : Quiet w.screen :=
  h.invariant (I := fun w => Quiet w.screen) (fun _ => ⟨rfl, rfl⟩)
    fun _ _ _ hq _ hs => quiet_moved hq (moved hs)

/-! ## Answers in order -/

/-- An answer reaches a load when those started before it are over. -/
def InOrder (w : World) : Act → Prop
  | .reply i => ∀ j < i, ∃ response, w.screen.loads[j]? = some (.over response)
  | _ => True

/-- The loads got over in the order they were started. -/
structure Ordered (recipes : List Recipe) (s : Screen) : Prop where
  tracked : Tracked recipes s
  ordered : s.completed = List.range s.completed.length
  /-- Loads that throw early are never outstanding. -/
  early : recipes.any (·.category.isNone) = true → s.Idle

/-- The next number goes on with a range. -/
theorem range_concat {l : List ℕ} (h : l = List.range l.length) (hi : i ∉ l)
    (hearlier : ∀ j < i, j ∈ l) : l ++ [i] = List.range (l ++ [i]).length := by
  have hge : l.length ≤ i := by
    by_contra hlt
    rw [h, List.mem_range] at hi
    exact hi (Nat.lt_of_not_le hlt)
  have hle : i ≤ l.length := by
    by_contra hlt
    have hmem := hearlier l.length (Nat.lt_of_not_le hlt)
    rw [h, List.mem_range, List.length_range] at hmem
    exact absurd hmem (Nat.lt_irrefl _)
  obtain rfl : i = l.length := Nat.le_antisymm hle hge
  rw [List.length_append, List.length_singleton, List.range_succ, ← h]

theorem ordered_load (h : Ordered recipes s) (refreshing : Bool) :
    Ordered recipes ({ s with refreshing := refreshing }.load recipes) := by
  have ht := tracked_load h.tracked refreshing
  unfold Screen.load at ht ⊢
  by_cases hearly : recipes.any (·.category.isNone) = true
  · rw [if_pos hearly] at ht ⊢
    have hidle := h.early hearly
    refine ⟨ht, range_concat h.ordered ?_ fun j hj => ?_, fun _ phase hp => ?_⟩
    · rw [h.tracked.mem]
      rintro ⟨response, hn⟩
      exact absurd (List.getElem?_eq_some_iff.mp hn).1 (Nat.lt_irrefl _)
    · exact (completed_perm h.tracked hidle).mem_iff.mpr (List.mem_range.mpr hj)
    · have hloads : phase ∈ (s.loads ++ [Phase.sent]).set s.loads.length (.over none) := hp
      rw [Lib.set_at, List.mem_append, List.mem_singleton] at hloads
      rcases hloads with hold | rfl
      · exact hidle phase hold
      · rfl
  · rw [if_neg hearly] at ht ⊢
    exact ⟨ht, h.ordered, fun he => absurd he hearly⟩

/-- A catalogue whose loads throw early has none to answer. -/
theorem not_early (h : Ordered recipes s) {phase : Phase} (hi : s.loads[i]? = some phase)
    (hphase : phase.isOver = false) : ¬ recipes.any (·.category.isNone) = true := by
  intro hearly
  exact absurd (h.early hearly phase (List.mem_of_getElem? hi)) (by simp [hphase])

/-- The step lemma. -/
theorem ordered_step {a : Act} (h : Ordered recipes w.screen) (hg : InOrder w a)
    (hs : w.step recipes a = some w') : Ordered recipes w'.screen := by
  have hm := moved hs
  have ht := tracked_moved h.tracked hm
  generalize w'.screen = t at hm ht
  cases hm with
  | same _ => exact h
  | load _ => exact ordered_load h w.screen.refreshing
  | twice _ => exact ordered_load (ordered_load h w.screen.refreshing) _
  | refresh => exact ordered_load h true
  | serve i _ response hi =>
    exact ⟨ht, h.ordered, fun he => absurd he (not_early h hi rfl)⟩
  | reply i response hi =>
    refine ⟨ht, range_concat h.ordered ?_ fun j hj => (h.tracked.mem j).mpr (hg j hj), fun he => ?_⟩
    · rw [h.tracked.mem]
      rintro ⟨r, hr⟩
      cases hi.symm.trans hr
    · exact absurd he (not_early h hi rfl)

/-- **Answered in order, the latest load wins.** -/
theorem latest_wins (h : Reach (World.step recipes) InOrder (.initial lang file) w)
    (hidle : w.screen.Idle) {latest : ℕ} (hlatest : latest + 1 = w.screen.loads.length) :
    w.screen.Shows recipes latest := by
  have hordered : Ordered recipes w.screen := by
    refine h.invariant (I := fun w => Ordered recipes w.screen) ⟨tracked_initial, rfl, ?_⟩
      fun _ _ _ ho hg hs => ordered_step ho hg hs
    intro _ phase hp
    cases hp
  have hlength : w.screen.completed.length = latest + 1 := by
    rw [(completed_perm hordered.tracked hidle).length_eq, List.length_range, hlatest]
  refine hordered.tracked.shown latest ?_
  rw [hordered.ordered, hlength, List.range_succ]
  exact List.getLast?_concat

end IngrediGo.HomeScreen
