import IngrediGo.Favorites.Deletions
import IngrediGo.Favorites.Sync

/-!
# The undo banner

A delete sets `recentlyDeleted` at the tap, but shows the banner and restarts the
countdown only once its save is over. Until then the countdown of an earlier delete, or an
earlier undo whose save ends, still clears `recentlyDeleted`: the banner that comes up
afterwards has nothing to undo. And an undo hides the banner only once its save is over:
until then the banner offers again what is back on the list.

`banner_undoes_last`: in a run without interruptions (`Uninterrupted`) a visible banner
offers the last delete not undone exactly if the last delete still stands.
-/

namespace IngrediGo.FavoritesScreen

open Lib

/-- The screen and the user's deletes. -/
abbrev Logged := System × List Deletion

abbrev Logged.step : Logged → Act → Option Logged := withHistory System.step noteDeletes

/-- `Undo` would put back the last batch not undone. -/
def OffersLast (p : Logged) : Prop :=
  p.1.screen.recentlyDeleted ≠ [] ∧ lastBatch p.2 = some p.1.screen.recentlyDeleted ∧
    ∀ t, p.1.step .undo = some t →
      t.screen.favorites = p.1.screen.favorites ++ p.1.screen.recentlyDeleted

/-- Which handler awaits the request, if it is a save. -/
def Flight.save? : Flight → Option Save
  | .save kind _ => some kind
  | .saved kind _ => some kind
  | _ => none

/-- A delete's save is outstanding. -/
def System.Deleting (s : System) : Prop := ∃ r ∈ s.requests, r.flight.save? = some .delete

instance (s : System) : Decidable s.Deleting := inferInstanceAs (Decidable (∃ r ∈ s.requests, _))

/-- While a delete's save is outstanding, the countdown does not run out and no undo's
save ends. -/
def Uninterrupted (s : System) : Act → Prop
  | .tick _ => s.screen.countdownTime ≤ 1 → ¬ s.Deleting
  | .reply n => (∃ r ∈ s.requests[n]?, r.flight.save? = some .undo) → ¬ s.Deleting
  | _ => True

instance (s : System) : ∀ a, Decidable (Uninterrupted s a)
  | .tick _ => inferInstanceAs (Decidable (_ → _))
  | .reply n => inferInstanceAs (Decidable ((∃ r ∈ s.requests[n]?, _) → _))
  | .focus | .blur | .unmount | .select _ | .delete | .undo | .serve _ _ => .isTrue trivial

/-! ## The invariant -/

/-- The batch is the newest delete's. -/
def Held (p : Logged) : Prop :=
  p.1.screen.recentlyDeleted ≠ [] ∧ p.2.head?.map (·.batch) = some p.1.screen.recentlyDeleted

/-- The batch is held as long as the banner shows it or is about to. -/
def BannerHeld (p : Logged) : Prop := p.1.screen.showUndoDelete = true ∨ p.1.Deleting → Held p

/-- A step that leaves the batch alone, and the banner shows no earlier than it may. -/
theorem BannerHeld.of_eq {s t : System} {log : List Deletion} (h : BannerHeld (s, log))
    (hshow : t.screen.showUndoDelete = true → s.screen.showUndoDelete = true ∨ s.Deleting)
    (hrd : t.screen.recentlyDeleted = s.screen.recentlyDeleted)
    (hdel : t.Deleting → s.Deleting) : BannerHeld (t, log) := by
  intro ht
  have hs : Held (s, log) := by
    rcases ht with ht | ht
    · exact h (hshow ht)
    · exact h (.inr (hdel ht))
  simpa only [Held, hrd] using hs

/-- The server executes a request: it keeps its handler. -/
theorem BannerHeld.serve {s t : System} {log : List Deletion} (h : BannerHeld (s, log))
    {r q : Request} {before after : List Request} (hs : s.requests = before ++ r :: after)
    (ht : t.requests = before ++ q :: after) (hsave : q.flight.save? = r.flight.save?)
    (hscreen : t.screen = s.screen) : BannerHeld (t, log) := by
  refine h.of_eq (fun hv => .inl (hscreen ▸ hv)) (by rw [hscreen]) ?_
  rintro ⟨x, hx, hdel⟩
  rw [ht] at hx
  rcases mem_of_mem_set_at hx with rfl | hx
  · exact ⟨r, by simp [hs], hsave ▸ hdel⟩
  · exact ⟨x, hs ▸ hx, hdel⟩

/-- An answer that leaves the batch alone reaches the screen. -/
theorem BannerHeld.reply {s t : System} {log : List Deletion} (h : BannerHeld (s, log))
    {r : Request} {before after : List Request} (hs : s.requests = before ++ r :: after)
    (ht : t.requests = before ++ after)
    (hshow : t.screen.showUndoDelete = true → s.screen.showUndoDelete = true ∨ s.Deleting)
    (hrd : t.screen.recentlyDeleted = s.screen.recentlyDeleted) : BannerHeld (t, log) := by
  refine h.of_eq hshow hrd ?_
  rintro ⟨x, hx, hdel⟩
  rw [ht] at hx
  exact ⟨x, hs ▸ mem_of_mem_erase_at hx, hdel⟩

theorem BannerHeld.step {p q : Logged} {a : Act} (h : BannerHeld p) (hg : Uninterrupted p.1 a)
    (hs : Logged.step p a = some q) : BannerHeld q := by
  obtain ⟨s, log⟩ := p
  obtain ⟨t, log'⟩ := q
  obtain ⟨hstep, hnote⟩ := withHistory_some.mp hs
  simp only at hstep hnote hg
  subst hnote
  cases stepped hstep with
  | focus _ _ =>
    refine h.of_eq .inl rfl ?_
    rintro ⟨r, hr, hdel⟩
    rcases mem_send.mp hr with hr | rfl
    · exact ⟨r, hr, hdel⟩
    · cases hdel
  | blur _ => exact h.of_eq .inl rfl id
  | unmount _ => exact h.of_eq .inl rfl id
  | select _ _ _ _ => exact h.of_eq .inl rfl id
  | delete _ hsel =>
    intro _
    obtain ⟨f, hf, hsel⟩ := List.any_eq_true.mp hsel
    exact ⟨List.ne_nil_of_mem (List.mem_filter.mpr ⟨hf, hsel⟩), rfl⟩
  | undo _ hshow =>
    intro _
    obtain ⟨hne, hbatch⟩ := h (.inl hshow)
    exact ⟨hne, (undoLast_head? log).trans hbatch⟩
  | tick interval hi =>
    show BannerHeld ({ s with screen := s.screen.tick }, log)
    unfold Screen.tick
    split
    · exact h
    · split
      · next hcount =>
        -- the countdown runs out: the banner goes, and no delete's save is outstanding
        rintro (hv | hdel)
        · cases hv
        · exact absurd hdel (hg hcount)
      · exact h.of_eq .inl rfl id
  | serveLoad outcome tag before after hr => exact h.serve hr rfl rfl rfl
  | serveSave outcome tag kind body before after hr => exact h.serve hr rfl rfl rfl
  | replyLoad tag response before after hr => exact h.reply hr rfl .inl rfl
  | replySave tag kind response before after hr =>
    cases kind with
    | delete =>
      refine h.reply hr rfl (fun _ => .inr ?_) rfl
      exact ⟨⟨tag, .saved .delete response⟩, by simp [hr], rfl⟩
    | undo =>
      have hnot : ¬ s.Deleting := by
        refine hg ⟨⟨tag, .saved .undo response⟩, ?_, rfl⟩
        simp [hr]
      rintro (hv | ⟨r, hmem, hdel⟩)
      · cases hv
      · exact absurd ⟨r, hr ▸ mem_of_mem_erase_at hmem, hdel⟩ hnot

/-- A banner that holds the newest delete's batch offers the last one not undone exactly
if that delete stands. -/
theorem Held.offersLast_iff {p : Logged} (h : Held p) : OffersLast p ↔ LastStands p.2 := by
  obtain ⟨hne, hbatch⟩ := h
  constructor
  · intro ho
    exact ho.2.1.trans hbatch.symm
  · intro hstands
    refine ⟨hne, hstands.trans hbatch, fun t ht => ?_⟩
    generalize ha : Act.undo = a at ht
    cases stepped ht with
    | undo _ _ => rfl
    | _ => cases ha

/-- No save is outstanding and there is no banner. -/
def System.NoBanner (s : System) : Prop :=
  s.screen.showUndoDelete = false ∧ ∀ r ∈ s.requests, r.flight.save? = none

instance (s : System) : Decidable s.NoBanner := inferInstanceAs (Decidable (_ ∧ _))

/-- **A visible banner undoes the last delete** not undone, in an uninterrupted run:
exactly as long as the last delete stands. -/
theorem banner_undoes_last {s₀ : System} (h0 : s₀.NoBanner) {p : Logged}
    (h : Reach Logged.step (fun p a => Uninterrupted p.1 a) (s₀, []) p)
    (hv : p.1.screen.showUndoDelete = true) : OffersLast p ↔ LastStands p.2 := by
  have hstart : BannerHeld (s₀, []) := by
    rintro (hv | ⟨r, hr, hdel⟩)
    · rw [h0.1] at hv; cases hv
    · rw [h0.2 r hr] at hdel; cases hdel
  have hinv : BannerHeld p := h.invariant hstart fun _ _ _ hp hg hs => hp.step hg hs
  exact (hinv (.inl hv)).offersLast_iff

/-- The screen with its list just loaded. -/
def System.loaded (store : List Favorite) : System :=
  { System.initial store with
    screen := (Screen.initial.focus).initializeFavorites (.ok store) }

/-- A favourite is deleted and restored, still selected, and deleted with the other one. -/
def deleteUndoDelete : List Act :=
  [.select (.num 1), .delete, .serve 0 .answered, .reply 0, .tick 1, .undo, .serve 0 .answered,
    .reply 0, .select (.num 2), .delete, .serve 0 .answered, .reply 0]

theorem banner_undoes_last_deleteUndoDelete : ∃ p : Logged,
    favoriteIds p.1.screen.recentlyDeleted = [.num 2, .num 1] ∧ OffersLast p := by
  obtain ⟨p, hp, hv, hids, hstands⟩ := Reach.of_exec Logged.step (fun p a => Uninterrupted p.1 a)
    (System.loaded [.bare (.num 1), .bare (.num 2)], []) deleteUndoDelete
    (fun p => p.1.screen.showUndoDelete = true ∧
      favoriteIds p.1.screen.recentlyDeleted = [.num 2, .num 1] ∧ LastStands p.2) (by decide)
  exact ⟨p, hids, (banner_undoes_last (by decide) hp hv).mpr hstands⟩

/-! ## A banner with nothing to undo -/

/-- The screen stays focused. -/
def StaysFocused (a : Act) : Prop := a ≠ .focus ∧ a ≠ .blur ∧ a ≠ .unmount

instance (a : Act) : Decidable (StaysFocused a) := inferInstanceAs (Decidable (_ ∧ _ ∧ _))

/-- `1` is deleted, and the second tap on `Undo` comes before the first one's save is over. -/
def undoTwice : List Act :=
  [.select (.num 1), .delete, .serve 0 .answered, .reply 0, .undo, .undo]

/-- No interruption, but the banner offers what is back on the list already. -/
theorem restores_twice : ∃ p, Reach Logged.step
    (fun p a => Uninterrupted p.1 a ∧ StaysFocused a ∧ NoFailure p.1 a)
    (System.loaded [.bare (.num 1), .bare (.num 2)], []) p ∧
      p.1.screen.showUndoDelete = true ∧ lastBatch p.2 = none ∧
        favoriteIds p.1.screen.favorites = [.num 2, .num 1, .num 1] :=
  Reach.of_exec _ _ _ undoTwice _ (by decide)

/-- An interruption clears the batch. -/
theorem interrupted_clears {s t : System} {a : Act} (hm : s.screen.mounted = true)
    (hg : ¬ Uninterrupted s a) (hs : s.step a = some t) : t.screen.recentlyDeleted = [] := by
  cases stepped hs with
  | tick interval hi =>
    have hcount : s.screen.countdownTime ≤ 1 := by
      by_contra hc
      exact hg fun h => absurd h hc
    show s.screen.tick.recentlyDeleted = []
    simp [Screen.tick, hm, hcount]
  | replySave tag kind response before after hr =>
    cases kind with
    | delete =>
      refine absurd (fun hu => ?_) hg
      obtain ⟨r, hmem, hundo⟩ := hu
      rw [hr, getElem?_at] at hmem
      cases hmem
      cases hundo
    | undo => rfl
  | replyLoad tag response before after hr =>
    refine absurd (fun hu => ?_) hg
    obtain ⟨r, hmem, hundo⟩ := hu
    rw [hr, getElem?_at] at hmem
    cases hmem
    cases hundo
  | _ => exact absurd trivial hg

/-- When the delete's save ends next, the banner comes up empty. -/
theorem banner_empty_after {s t : System} {n tag : Nat} {response : Response Unit}
    (hclear : s.screen.recentlyDeleted = [])
    (hr : s.requests[n]? = some ⟨tag, .saved .delete response⟩)
    (hs : s.step (.reply n) = some t) :
    t.screen.showUndoDelete = true ∧ t.screen.recentlyDeleted = [] := by
  simp only [System.step, hr, Option.some.injEq] at hs
  rw [← hs]
  exact ⟨rfl, hclear⟩

/-- The countdown of a first delete runs out while a second one is being saved. -/
def deleteDuringCountdown : List Act :=
  [.select (.num 1), .delete, .serve 0 .answered, .reply 0, .select (.num 2), .delete,
    .tick 1, .tick 1, .tick 1, .tick 1, .tick 1, .serve 0 .answered, .reply 0]

theorem not_banner_undoes_last : ¬ ∀ s₀ : System, s₀.NoBanner → s₀.screen.focused = true →
    ∀ p : Logged,
      Reach Logged.step (fun p a => StaysFocused a ∧ NoFailure p.1 a) (s₀, []) p →
      p.1.screen.showUndoDelete = true → OffersLast p := by
  intro h
  obtain ⟨p, hp, hv, hnil⟩ := Reach.of_exec Logged.step
    (fun p a => StaysFocused a ∧ NoFailure p.1 a)
    (System.loaded [.bare (.num 1), .bare (.num 2)], []) deleteDuringCountdown
    (fun p => p.1.screen.showUndoDelete = true ∧ p.1.screen.recentlyDeleted = []) (by decide)
  exact (h _ (by decide) (by decide) p hp hv).1 hnil

end IngrediGo.FavoritesScreen
