import Mathlib.Data.List.Basic

/-!
# Runs of a step function

`step s a = some t`: action `a` is enabled in `s` and leads to `t`. `Reach step G s₀ t`
says `t` is reached from `s₀` by actions that each meet the guard `G` in the state
they are taken in; `Free` guards nothing. `exec` replays a list of actions, so that a
concrete run is checked by evaluation. `withHistory` carries a record of the actions
beside the state. `Reach.project` looks at a run through a function of the state.
`Reach.halts`: runs whose steps lower a number come to an end.
-/

namespace Lib

variable {σ α η τ β : Type*}

/-- The guard that admits every action. -/
abbrev Free (_ : σ) (_ : α) : Prop := True

inductive Reach (step : σ → α → Option σ) (G : σ → α → Prop) (s₀ : σ) : σ → Prop where
  | start : Reach step G s₀ s₀
  | next {s t : σ} {a : α} : Reach step G s₀ s → G s a → step s a = some t → Reach step G s₀ t

variable {step : σ → α → Option σ} {G G' : σ → α → Prop} {s₀ s t : σ}

/-- **Invariants**: what the start has and every guarded step keeps, holds throughout. -/
theorem Reach.invariant {I : σ → Prop} (h : Reach step G s₀ t) (h0 : I s₀)
    (hstep : ∀ s a u, I s → G s a → step s a = some u → I u) : I t := by
  induction h with
  | start => exact h0
  | next _ hg hs ih => exact hstep _ _ _ ih hg hs

theorem Reach.mono (h : Reach step G s₀ t) (hG : ∀ s a, G s a → G' s a) :
    Reach step G' s₀ t := by
  induction h with
  | start => exact .start
  | next _ hg hs ih => exact .next ih (hG _ _ hg) hs

theorem Reach.free (h : Reach step G s₀ t) : Reach step Free s₀ t :=
  h.mono fun _ _ _ => trivial

/-- One run after another. -/
theorem Reach.trans (h : Reach step G s₀ s) (h' : Reach step G s t) : Reach step G s₀ t := by
  induction h' with
  | start => exact h
  | next _ hg hs ih => exact ih.next hg hs

/-- An invariant may be used as a guard. -/
theorem Reach.under {I : σ → Prop} (h : Reach step G s₀ t) (h0 : I s₀)
    (hstep : ∀ s a u, I s → G s a → step s a = some u → I u) :
    I t ∧ Reach step (fun s a => I s ∧ G s a) s₀ t := by
  induction h with
  | start => exact ⟨h0, .start⟩
  | next _ hg hs ih => exact ⟨hstep _ _ _ ih.1 hg hs, ih.2.next ⟨ih.1, hg⟩ hs⟩

/-- **Projections**: what sees each step as a step of another system, or does not see it,
sees a run as a run of that system. -/
theorem Reach.project {step' : τ → β → Option τ} {G' : τ → β → Prop} (f : σ → τ)
    (h : Reach step G s₀ t)
    (hf : ∀ s a u, G s a → step s a = some u →
      f u = f s ∨ ∃ b, G' (f s) b ∧ step' (f s) b = some (f u)) :
    Reach step' G' (f s₀) (f t) := by
  induction h with
  | start => exact .start
  | next _ hg hs ih =>
    rcases hf _ _ _ hg hs with hsame | ⟨b, hb, hstep⟩
    · rw [hsame]
      exact ih
    · exact ih.next hb hstep

/-- **Exact guards**: where guarded runs keep `P`, and a step against the guard can be
continued, within it, to a state without `P`, a step meets the guard exactly if `P` holds
however it is continued. -/
theorem Reach.guard_iff {P : σ → Prop} {a : α} (h : Reach step G s₀ s)
    (hkeep : ∀ u, Reach step G s₀ u → P u) (hs : step s a = some t)
    (hlose : ¬ G s a → ∃ u, Reach step G t u ∧ ¬ P u) :
    G s a ↔ ∀ u, Reach step G t u → P u := by
  constructor
  · intro hg u hu
    exact hkeep u ((h.next hg hs).trans hu)
  · intro hall
    by_contra hg
    obtain ⟨u, hu, hlost⟩ := hlose hg
    exact hlost (hall u hu)

/-! ## Replaying a list of actions -/

/-- Take the actions in order, as long as each is enabled and meets the guard. -/
def exec (step : σ → α → Option σ) (G : σ → α → Prop) [∀ s a, Decidable (G s a)] :
    σ → List α → Option σ
  | s, [] => some s
  | s, a :: as => if G s a then (step s a).bind (exec step G · as) else none

theorem Reach.exec [∀ s a, Decidable (G s a)] (h : Reach step G s₀ s) (as : List α)
    (he : Lib.exec step G s as = some t) : Reach step G s₀ t := by
  induction as generalizing s with
  | nil => cases he; exact h
  | cons a as ih =>
    simp only [Lib.exec] at he
    split at he
    · next hg =>
      obtain ⟨u, hu, he⟩ := Option.bind_eq_some_iff.mp he
      exact ih (h.next hg hu) he
    · cases he

/-- A replay that succeeds and ends in a state with `p`. -/
theorem Reach.of_exec (step : σ → α → Option σ) (G : σ → α → Prop) [∀ s a, Decidable (G s a)]
    (s₀ : σ) (as : List α) (p : σ → Prop) [DecidablePred p]
    (h : (Lib.exec step G s₀ as).map (decide <| p ·) = some true) :
    ∃ t, Reach step G s₀ t ∧ p t := by
  obtain ⟨t, ht, hp⟩ := Option.map_eq_some_iff.mp h
  exact ⟨t, Reach.start.exec as ht, of_decide_eq_true hp⟩

/-! ## Histories -/

/-- `step` beside a history, updated from the state each action is taken in. -/
def withHistory (step : σ → α → Option σ) (note : σ → α → η → η) (p : σ × η) (a : α) :
    Option (σ × η) :=
  (step p.1 a).map fun t => (t, note p.1 a p.2)

theorem withHistory_some {note : σ → α → η → η} {p q : σ × η} {a : α} :
    withHistory step note p a = some q ↔ step p.1 a = some q.1 ∧ q.2 = note p.1 a p.2 := by
  obtain ⟨t, h⟩ := q
  simp only [withHistory, Option.map_eq_some_iff, Prod.mk.injEq]
  constructor
  · rintro ⟨u, hu, rfl, rfl⟩; exact ⟨hu, rfl⟩
  · rintro ⟨hu, rfl⟩; exact ⟨t, hu, rfl, rfl⟩

/-! ## Runs that come to an end -/

/-- No guarded step is possible. -/
def Halted (step : σ → α → Option σ) (G : σ → α → Prop) (s : σ) : Prop :=
  ∀ a t, G s a → step s a ≠ some t

theorem Halted.eq_none (h : Halted step G s) {a : α} (hg : G s a) : step s a = none :=
  Option.eq_none_iff_forall_ne_some.mpr fun t => h a t hg

variable {μ : σ → ℕ}

/-- If every guarded step lowers `μ`, a run has no more steps than `μ` says. -/
theorem exec_length_le [∀ s a, Decidable (G s a)]
    (hμ : ∀ s a t, G s a → step s a = some t → μ t < μ s) {as : List α}
    (h : exec step G s as = some t) : as.length ≤ μ s := by
  induction as generalizing s with
  | nil => exact Nat.zero_le _
  | cons a as ih =>
    simp only [exec] at h
    split at h
    · next hg =>
      obtain ⟨u, hu, h⟩ := Option.bind_eq_some_iff.mp h
      exact Nat.lt_of_le_of_lt (ih h) (hμ s a u hg hu)
    · cases h

/-- And some run goes on until it halts. -/
theorem Reach.halts (hμ : ∀ s a t, G s a → step s a = some t → μ t < μ s) (s : σ) :
    ∃ t, Reach step G s t ∧ Halted step G t := by
  induction hs : μ s using Nat.strongRecOn generalizing s with
  | _ n ih =>
    by_cases hhalt : Halted step G s
    · exact ⟨s, .start, hhalt⟩
    · simp only [Halted, not_forall, not_not] at hhalt
      obtain ⟨a, u, hg, hu⟩ := hhalt
      obtain ⟨t, ht, hhalt⟩ := ih (μ u) (hs ▸ hμ s a u hg hu) u rfl
      exact ⟨t, (Reach.start.next hg hu).trans ht, hhalt⟩

end Lib
