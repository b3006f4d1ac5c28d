import IngrediGo.Favorites.Banner
import Mathlib.Logic.Function.Iterate

/-!
# The undo timer

Blurring and unmounting clear the countdown's interval and leave the banner as it is; a
delete whose save is over sets the interval wherever the screen is by then. So a banner can
come back without its interval, and an interval can run with no one looking.

`timer_matches`: in a run where neither happens (`TimerSafe`) the interval is live exactly
with the banner on show, and the first step against it breaks that. At most one interval is
live in any run (`oneTimer`).
-/

namespace IngrediGo.FavoritesScreen

open Lib

/-- No interval is live, or the one the screen holds on to. -/
def Screen.OneTimer (s : Screen) : Prop :=
  s.intervals = [] ∨ ∃ i, s.timerRef = some i ∧ s.intervals = [i]

/-- At most one interval is live; none on a screen that is not focused; one, with one to
five ticks to go, under a visible banner, which goes with the last of them. -/
structure Screen.TimerMatches (s : Screen) : Prop where
  one : s.intervals.length ≤ 1
  shown : s.focused = true → s.showUndoDelete = true →
    s.intervals.length = 1 ∧ 1 ≤ s.countdownTime ∧ s.countdownTime ≤ 5
  away : s.focused = false → s.intervals = []
  expires : s.focused = true → s.showUndoDelete = true → ∀ n ≤ s.countdownTime,
    ((Screen.tick^[n] s).showUndoDelete = true ↔ n < s.countdownTime) ∧
      ((Screen.tick^[n] s).intervals ≠ [] ↔ n < s.countdownTime)

/-- A delete's save is over only on the focused screen, and the screen is focused only with
no banner up. -/
def TimerSafe (s : System) : Act → Prop
  | .focus => s.screen.showUndoDelete = false
  | .reply n =>
    (∃ r ∈ s.requests[n]?, r.flight.save? = some .delete) → s.screen.focused = true
  | _ => True

instance (s : System) : ∀ a, Decidable (TimerSafe s a)
  | .focus => inferInstanceAs (Decidable (_ = _))
  | .reply n => inferInstanceAs (Decidable ((∃ r ∈ s.requests[n]?, _) → _))
  | .blur | .unmount | .select _ | .delete | .undo | .tick _ | .serve _ _ => .isTrue trivial

/-! ## One interval -/

theorem Screen.OneTimer.length_le {s : Screen} (h : s.OneTimer) : s.intervals.length ≤ 1 := by
  rcases h with h | ⟨i, -, h⟩ <;> simp [h]

/-- Clearing it leaves none. -/
@[simp] theorem Screen.OneTimer.clearTimer {s : Screen} (h : s.OneTimer) :
    s.clearTimer.intervals = [] := by
  rcases h with h | ⟨i, hi, h⟩ <;> simp [Screen.clearTimer, h]
  exact hi.symm

theorem Screen.OneTimer.of_eq {s t : Screen} (h : s.OneTimer) (hi : t.intervals = s.intervals)
    (hr : t.timerRef = s.timerRef) : t.OneTimer := by
  unfold Screen.OneTimer
  rw [hi, hr]
  exact h

/-- Clearing the old interval before setting a new one keeps it to one. -/
theorem Screen.OneTimer.deleteSaved {s : Screen} (h : s.OneTimer) (response : Response Unit) :
    (s.deleteSaved response).OneTimer := by
  refine .inr ⟨s.nextInterval, rfl, ?_⟩
  have hclear : s.clearTimer.intervals = [] := h.clearTimer
  show s.clearTimer.intervals ++ [s.nextInterval] = [s.nextInterval]
  rw [hclear, List.nil_append]

theorem Screen.OneTimer.tick {s : Screen} (h : s.OneTimer) : s.tick.OneTimer := by
  unfold Screen.tick
  split
  · exact h
  · split
    · exact .inl h.clearTimer
    · exact h.of_eq rfl rfl

theorem oneTimer_step {s t : System} {a : Act} (h : s.screen.OneTimer) (hs : s.step a = some t) :
    t.screen.OneTimer := by
  cases stepped hs with
  | focus _ _ => exact h.of_eq rfl rfl
  | blur _ => exact .inl h.clearTimer
  | unmount _ => exact .inl h.clearTimer
  | select _ _ _ _ => exact h.of_eq rfl rfl
  | delete _ _ => exact h.of_eq rfl rfl
  | undo _ _ => exact h.of_eq rfl rfl
  | tick _ _ => exact h.tick
  | serveLoad _ _ _ _ _ => exact h
  | serveSave _ _ _ _ _ _ _ => exact h
  | replyLoad _ _ _ _ _ => exact h.of_eq rfl rfl
  | replySave _ kind response _ _ _ =>
    cases kind with
    | delete => exact h.deleteSaved response
    | undo => exact .inl h.clearTimer

/-- **At most one interval is live**, in any run. -/
theorem oneTimer {store : List Favorite} {s : System}
    (h : Reach System.step Free (.initial store) s) : s.screen.OneTimer :=
  h.invariant (I := fun s => s.screen.OneTimer) (.inl rfl) fun _ _ _ hs _ ht => oneTimer_step hs ht

/-! ## Ticking -/

/-- `n` ticks short of the end only count down. -/
theorem tick_counts {s : Screen} (hm : s.mounted = true) :
    ∀ n < s.countdownTime, Screen.tick^[n] s = { s with countdownTime := s.countdownTime - n } := by
  intro n
  induction n with
  | zero => intro _; rfl
  | succ n ih =>
    intro hn
    rw [Function.iterate_succ_apply', ih (by omega)]
    have hcount : ¬ s.countdownTime - n ≤ 1 := by omega
    simp only [Screen.tick, hm, Bool.not_true, Bool.false_eq_true, if_false, hcount]
    rw [Nat.sub_sub]

/-- The last one takes the banner and the interval away. -/
theorem tick_expires {s : Screen} (h : s.OneTimer) (hm : s.mounted = true)
    (hc : 1 ≤ s.countdownTime) :
    (Screen.tick^[s.countdownTime] s).showUndoDelete = false ∧
      (Screen.tick^[s.countdownTime] s).recentlyDeleted = [] ∧
      (Screen.tick^[s.countdownTime] s).intervals = [] := by
  obtain ⟨n, hn⟩ : ∃ n, s.countdownTime = n + 1 := ⟨s.countdownTime - 1, by omega⟩
  have hlast : s.countdownTime - n = 1 := by omega
  rw [hn, Function.iterate_succ_apply', tick_counts hm n (by omega), hlast]
  simp only [Screen.tick, hm, Bool.not_true, Bool.false_eq_true, if_false, le_refl, if_true]
  exact ⟨trivial, trivial, Screen.OneTimer.clearTimer (h.of_eq rfl rfl)⟩

/-! ## The timer and the banner -/

/-- What a timer-safe run knows of the screen. -/
structure Screen.Timed (s : Screen) : Prop where
  timer : s.OneTimer
  mounted : s.focused = true → s.mounted = true
  shown : s.focused = true → s.showUndoDelete = true →
    s.intervals ≠ [] ∧ 1 ≤ s.countdownTime ∧ s.countdownTime ≤ 5
  away : s.focused = false → s.intervals = []

theorem Screen.Timed.matches {s : Screen} (h : s.Timed) : s.TimerMatches where
  one := h.timer.length_le
  shown hf hv := by
    obtain ⟨hne, hc⟩ := h.shown hf hv
    exact ⟨Nat.le_antisymm h.timer.length_le (List.length_pos_of_ne_nil hne), hc⟩
  away := h.away
  expires hf hv n hn := by
    obtain ⟨hne, hc, -⟩ := h.shown hf hv
    rcases Nat.lt_or_eq_of_le hn with hlt | rfl
    · rw [tick_counts (h.mounted hf) n hlt]
      exact ⟨iff_of_true hv hlt, iff_of_true hne hlt⟩
    · obtain ⟨hv', -, hi⟩ := tick_expires h.timer (h.mounted hf) hc
      exact ⟨iff_of_false (by simp [hv']) (Nat.lt_irrefl _),
        iff_of_false (by simp [hi]) (Nat.lt_irrefl _)⟩

/-- A screen away, with no interval. -/
theorem Screen.Timed.of_away {s : Screen} (hf : s.focused = false) (hi : s.intervals = []) :
    s.Timed where
  timer := .inl hi
  mounted hf' := by cases hf.symm.trans hf'
  shown hf' := by cases hf.symm.trans hf'
  away _ := hi

/-- A step that leaves the timer and the banner alone. -/
theorem Screen.Timed.of_eq {s t : Screen} (h : s.Timed) (hi : t.intervals = s.intervals)
    (hr : t.timerRef = s.timerRef) (hf : t.focused = s.focused) (hm : t.mounted = s.mounted)
    (hv : t.showUndoDelete = s.showUndoDelete) (hc : t.countdownTime = s.countdownTime) :
    t.Timed where
  timer := h.timer.of_eq hi hr
  mounted hft := hm ▸ h.mounted (hf ▸ hft)
  shown hft hvt := by
    rw [hi, hc]
    exact h.shown (hf ▸ hft) (hv ▸ hvt)
  away hft := hi ▸ h.away (hf ▸ hft)

theorem Screen.Timed.tick {s : Screen} (h : s.Timed) : s.tick.Timed := by
  unfold Screen.tick
  split
  · exact h
  · next hm =>
    have hm : s.mounted = true := by simpa using hm
    split
    · exact ⟨.inl h.timer.clearTimer, fun _ => hm, fun _ hv => (by cases hv),
        fun _ => h.timer.clearTimer⟩
    · next hc =>
      refine ⟨h.timer.of_eq rfl rfl, fun _ => hm, fun hf hv => ?_, h.away⟩
      obtain ⟨hne, -, h5⟩ := h.shown hf hv
      exact ⟨hne, by simp only; omega, by simp only; omega⟩

theorem Screen.Timed.step {s t : System} {a : Act} (h : s.screen.Timed) (hg : TimerSafe s a)
    (hs : s.step a = some t) : t.screen.Timed := by
  cases stepped hs with
  | focus hm hf =>
    refine ⟨h.timer.of_eq rfl rfl, fun _ => hm, fun _ hv => ?_, fun hf' => by cases hf'⟩
    -- a banner up would be one without its interval
    cases hg.symm.trans hv
  | blur _ => exact .of_away rfl h.timer.clearTimer
  | unmount _ => exact .of_away rfl h.timer.clearTimer
  | select _ _ _ _ => exact h.of_eq rfl rfl rfl rfl rfl rfl
  | delete _ _ => exact h.of_eq rfl rfl rfl rfl rfl rfl
  | undo _ _ => exact h.of_eq rfl rfl rfl rfl rfl rfl
  | tick _ _ => exact h.tick
  | serveLoad _ _ _ _ _ => exact h
  | serveSave _ _ _ _ _ _ _ => exact h
  | replyLoad _ _ _ _ _ => exact h.of_eq rfl rfl rfl rfl rfl rfl
  | replySave tag kind response before after hr =>
    cases kind with
    | delete =>
      have hf : s.screen.focused = true :=
        hg ⟨⟨tag, .saved .delete response⟩, by rw [hr, getElem?_at]; rfl, rfl⟩
      refine ⟨h.timer.deleteSaved response, h.mounted, fun _ _ => ⟨?_, ?_, ?_⟩, fun hf' => ?_⟩
      · show s.screen.clearTimer.intervals ++ [s.screen.nextInterval] ≠ []
        simp
      · show 1 ≤ 5
        decide
      · show 5 ≤ 5
        decide
      · cases hf.symm.trans hf'
    | undo =>
      exact ⟨.inl h.timer.clearTimer, h.mounted, fun _ hv => (by cases hv),
        fun _ => h.timer.clearTimer⟩

/-- A step that is not safe leaves a banner without its interval, or an interval without
its screen. -/
theorem not_matches_of_unsafe {s t : System} {a : Act} (h : s.screen.Timed)
    (hg : ¬ TimerSafe s a) (hs : s.step a = some t) : ¬ t.screen.TimerMatches := by
  intro ht
  cases stepped hs with
  | focus _ hf =>
    have hv : s.screen.showUndoDelete = true := by simpa [TimerSafe] using hg
    have hone : s.screen.intervals.length = 1 := (ht.shown rfl hv).1
    rw [h.away hf] at hone
    cases hone
  | replySave tag kind response before after hr =>
    cases kind with
    | delete =>
      have hf : s.screen.focused = false := by
        rw [TimerSafe, Classical.not_imp] at hg
        simpa using hg.2
      have haway : s.screen.clearTimer.intervals ++ [s.screen.nextInterval] = [] := ht.away hf
      simp at haway
    | undo =>
      refine hg fun ⟨r, hmem, hdel⟩ => ?_
      rw [hr, getElem?_at] at hmem
      cases hmem
      cases hdel
  | replyLoad tag response before after hr =>
    refine hg fun ⟨r, hmem, hdel⟩ => ?_
    rw [hr, getElem?_at] at hmem
    cases hmem
    cases hdel
  | _ => exact hg trivial

/-- **The undo timer matches the banner** in a timer-safe run, and goes on to do so exactly
with a safe step. -/
theorem timer_matches {store : List Favorite} {s : System}
    (h : Reach System.step TimerSafe (.initial store) s) :
    s.screen.TimerMatches ∧
      ∀ a t, s.step a = some t → (t.screen.TimerMatches ↔ TimerSafe s a) := by
  have htimed : s.screen.Timed :=
    h.invariant (I := fun s => s.screen.Timed) (.of_away rfl rfl) fun _ _ _ hs hg ht =>
      hs.step hg ht
  refine ⟨htimed.matches, fun a t hs => ⟨fun ht => ?_, fun hg => (htimed.step hg hs).matches⟩⟩
  by_contra hg
  exact not_matches_of_unsafe htimed hg hs ht

/-- `1` is loaded and deleted. -/
def loadDelete : List Act :=
  [.focus, .serve 0 .answered, .reply 0, .select (.num 1), .delete, .serve 0 .answered]

theorem timer_matches_loadDelete : ∃ s : System,
    s.screen.showUndoDelete = true ∧ s.screen.intervals.length = 1 := by
  obtain ⟨s, hs, hf, hv⟩ := Reach.of_exec System.step TimerSafe (.initial [.bare (.num 1)])
    (loadDelete ++ [.reply 0, .tick 1])
    (fun s => s.screen.focused = true ∧ s.screen.showUndoDelete = true) (by decide)
  exact ⟨s, hv, ((timer_matches hs).1.shown hf hv).1⟩

/-- The screen is left before the delete's save is over. -/
theorem not_timer_matches : ¬ ∀ (store : List Favorite) (s : System),
    Reach System.step Free (.initial store) s → s.screen.TimerMatches := by
  intro h
  obtain ⟨s, hs, hf, hi⟩ := Reach.of_exec System.step Free (.initial [.bare (.num 1)])
    (loadDelete ++ [.blur, .reply 0])
    (fun s => s.screen.focused = false ∧ s.screen.intervals ≠ []) (by decide)
  exact hi ((h _ s hs).away hf)

/-- Or it is left and shown again under a banner. -/
theorem banner_without_timer : ∃ s, Reach System.step Free (.initial [.bare (.num 1)]) s ∧
    s.screen.focused = true ∧ s.screen.showUndoDelete = true ∧ s.screen.intervals = [] :=
  Reach.of_exec _ _ _ (loadDelete ++ [.reply 0, .blur, .focus]) _ (by decide)

end IngrediGo.FavoritesScreen
