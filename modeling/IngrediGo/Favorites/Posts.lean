import IngrediGo.Favorites.Deletions
import IngrediGo.Favorites.Sync

/-!
# What a post of the Favorites screen may drop

Every save replaces the server's whole list by the screen's. An id the server has just
before is safe if it is on the posted list, or if the user has deleted it and not undone
the deletion by the time the server executes the save (`Gone`).

`posts_keep`: no save of a run drops anything else, as long as the list is edited only
with no load outstanding, and `Undo` is tapped only on a list that was loaded, with the
last delete's items still in `recentlyDeleted` and its save no longer on its way. The
invariant is `Safe`: whatever the server has or is about to get is on the list or gone.
-/

namespace IngrediGo.FavoritesScreen

open Lib

/-- What the user has done, and what the list is. -/
structure Notes where
  deletes : List Deletion
  /-- The list on the screen stems from a load that succeeded. -/
  fresh : Bool

def Notes.initial : Notes := ⟨[], false⟩

/-- The end of a load makes the list the server's, or empty. -/
def noteLoad (s : System) (a : Act) (fresh : Bool) : Bool :=
  match a with
  | .reply n =>
    match s.requests[n]? with
    | some ⟨_, .loaded response⟩ => response.isOk
    | _ => fresh
  | _ => fresh

def note (s : System) (a : Act) (d : Notes) : Notes :=
  ⟨noteDeletes s a d.deletes, noteLoad s a d.fresh⟩

/-- The screen, its requests, and what the user has done. -/
abbrev Watched := System × Notes

abbrev Watched.step : Watched → Act → Option Watched := withHistory System.step note

def Watched.initial (store : List Favorite) : Watched := (System.initial store, .initial)

/-! ## Guards -/

/-- Sent, and not executed by the server yet. -/
def Flight.waiting : Flight → Bool
  | .load => true
  | .save _ _ => true
  | _ => false

/-- A delete's save the server has not executed yet. -/
def Flight.deletes : Flight → Bool
  | .save .delete _ => true
  | _ => false

/-- Requests reach the server in the order sent. -/
def InSendOrder (s : System) : Act → Prop
  | .serve n _ => ∀ r ∈ s.requests.take n, r.flight.waiting = false
  | _ => True

instance (s : System) : ∀ a, Decidable (InSendOrder s a)
  | .serve n _ => inferInstanceAs (Decidable (∀ r ∈ s.requests.take n, r.flight.waiting = false))
  | .focus | .blur | .unmount | .select _ | .delete | .undo | .tick _ | .reply _ =>
    .isTrue trivial

theorem InSendOrder.saves {s : System} {a : Act} (h : InSendOrder s a) : SavesInOrder s a := by
  cases a with
  | serve n outcome =>
    intro r hr
    have hw := h r hr
    unfold Request.unsaved
    cases hf : r.flight with
    | save kind body => rw [hf] at hw; cases hw
    | _ => rfl
  | _ => trivial

/-- `Undo` is tapped only on a list that was loaded. -/
def UndoOfLoaded (p : Watched) (a : Act) : Prop := a = .undo → p.2.fresh = true

/-- `Undo` is tapped only while `recentlyDeleted` holds what the last delete took. -/
def UndoOfHeld (p : Watched) (a : Act) : Prop :=
  a = .undo → ∀ d ∈ p.2.deletes.head?, ∀ id ∈ favoriteIds d.batch,
    id ∈ favoriteIds p.1.screen.recentlyDeleted

/-- `Undo` is tapped only once the server has executed the last delete's save. -/
def UndoOfSaved (p : Watched) (a : Act) : Prop :=
  a = .undo → ∀ r ∈ p.1.requests, r.flight.deletes = false

/-- The taps under which no save drops what it should not. -/
def Careful (p : Watched) (a : Act) : Prop :=
  InSendOrder p.1 a ∧ Calm p.1 a ∧ UndoOfLoaded p a ∧ UndoOfHeld p a ∧ UndoOfSaved p a

instance (p : Watched) (a : Act) : Decidable (UndoOfLoaded p a) :=
  inferInstanceAs (Decidable (_ → _))

instance (p : Watched) (a : Act) : Decidable (UndoOfHeld p a) :=
  inferInstanceAs (Decidable (_ → _))

instance (p : Watched) (a : Act) : Decidable (UndoOfSaved p a) :=
  inferInstanceAs (Decidable (_ → _))

instance (p : Watched) (a : Act) : Decidable (Careful p a) :=
  inferInstanceAs (Decidable (_ ∧ _ ∧ _ ∧ _ ∧ _))

/-! ## What an undo's save holds -/

/-- A list an undo has sent holds all the screen could still put back. -/
def Restores (s : System) : Prop :=
  ∀ tag body, ⟨tag, .save .undo body⟩ ∈ s.requests →
    favoriteIds s.screen.restoredItems ⊆ favoriteIds body

theorem Restores.initial (store : List Favorite) : Restores (.initial store) :=
  fun _ _ hmem => by cases hmem

theorem ids_restored_subset {s t : Screen}
    (hf : favoriteIds t.favorites ⊆ favoriteIds s.favorites)
    (hrd : favoriteIds t.recentlyDeleted ⊆ favoriteIds s.recentlyDeleted) :
    favoriteIds t.restoredItems ⊆ favoriteIds s.restoredItems := by
  intro id hid
  rw [mem_ids_restored] at hid ⊢
  exact hid.imp (hf ·) (hrd ·)

/-- A step that sends no undo's save and gives the screen nothing new. -/
theorem Restores.of_subset {s t : System} (h : Restores s)
    (hr : ∀ tag body, ⟨tag, .save .undo body⟩ ∈ t.requests →
      ⟨tag, .save .undo body⟩ ∈ s.requests)
    (hids : favoriteIds t.screen.restoredItems ⊆ favoriteIds s.screen.restoredItems) :
    Restores t :=
  fun tag body hmem _ hid => h tag body (hr tag body hmem) (hids hid)

/-- The list of a load that was answered came when no save was on its way. -/
theorem Restores.load {s t : System} {tag : Nat} {response : Response (List Favorite)}
    {before after : List Request} (h : Restores s) (hc : Current s)
    (hr : s.requests = before ++ ⟨tag, .loaded response⟩ :: after)
    (ht : t.requests = before ++ after)
    (hscreen : t.screen = s.screen.initializeFavorites response) : Restores t := by
  have hsub : ∀ r ∈ t.requests, r ∈ s.requests := by
    intro r hmem
    rw [hr]
    exact mem_of_mem_erase_at (ht ▸ hmem)
  have hfailed : loadFavorites response = ([], ["Failed to load favorites. Please try again."]) →
      Restores t := by
    intro hl
    refine h.of_subset (fun _ _ hmem => hsub _ hmem) (hscreen ▸ ids_restored_subset ?_ ?_)
    · simp [Screen.initializeFavorites, hl, favoriteIds]
    · exact List.Subset.refl _
  cases response with
  | ok l =>
    intro tag' body hmem
    have hnil := (hc.data ⟨tag, .loaded (.ok l)⟩ (by simp [hr]) l rfl).2
    have hsave : (tag', body) ∈ s.unsaved := List.mem_filterMap.mpr ⟨_, hsub _ hmem, rfl⟩
    rw [hnil] at hsave
    cases hsave
  | status _ => exact hfailed rfl
  | rejected _ => exact hfailed rfl

theorem Restores.step {s t : System} {a : Act} (h : Restores s) (hc : Current s)
    (hs : s.step a = some t) : Restores t := by
  cases stepped hs with
  | focus _ _ =>
    refine h.of_subset (fun tag body hmem => ?_) (List.Subset.refl _)
    rcases mem_send.mp hmem with hmem | hmem
    · exact hmem
    · cases hmem
  | blur _ => exact h
  | unmount _ => exact h
  | select itemId _ _ _ =>
    refine h.of_subset (fun _ _ hmem => hmem) (ids_restored_subset ?_ (List.Subset.refl _))
    rw [ids_toggleSelection]
    exact List.Subset.refl _
  | tick _ _ =>
    refine h.of_subset (fun _ _ hmem => hmem) (ids_restored_subset ?_ ?_)
    · rw [tick_favorites]
      exact List.Subset.refl _
    · rcases tick_recentlyDeleted s.screen with hrd | hrd <;> rw [hrd]
      · exact List.Subset.refl _
      · exact List.nil_subset _
  | delete _ _ =>
    refine h.of_subset (fun tag body hmem => ?_) fun id hid => ?_
    · rcases mem_send.mp hmem with hmem | hmem
      · exact hmem
      · cases hmem
    · -- what was selected was on the list
      refine (mem_ids_restored _ id).mpr (.inl ((mem_ids_split _ id).mpr ?_))
      exact (mem_ids_restored _ id).mp hid
  | undo _ _ =>
    have hsame : favoriteIds s.screen.undoDelete.restoredItems ⊆
        favoriteIds s.screen.restoredItems := by
      intro id hid
      rcases (mem_ids_restored _ id).mp hid with hid | hid
      · exact hid
      · exact (mem_ids_restored _ id).mpr (.inr hid)
    intro tag body hmem
    rcases mem_send.mp hmem with hmem | hmem
    · exact List.Subset.trans hsame (h tag body hmem)
    · cases hmem
      exact hsame
  | serveLoad outcome tag before after hr =>
    refine h.of_subset (fun tag' body hmem => ?_) (List.Subset.refl _)
    rcases mem_of_mem_set_at hmem with hmem | hmem
    · cases hmem
    · exact hr ▸ hmem
  | serveSave outcome tag kind body before after hr =>
    refine h.of_subset (fun tag' body' hmem => ?_) (List.Subset.refl _)
    rcases mem_of_mem_set_at hmem with hmem | hmem
    · cases hmem
    · exact hr ▸ hmem
  | replyLoad tag response before after hr => exact h.load hc hr rfl rfl
  | replySave tag kind response before after hr =>
    refine h.of_subset (fun _ _ hmem => hr ▸ mem_of_mem_erase_at hmem) (ids_restored_subset ?_ ?_)
    · rw [saveOver_favorites]
      exact List.Subset.refl _
    · cases kind with
      | delete => exact List.Subset.refl _
      | undo => exact List.nil_subset _

/-- With no delete's save on its way, every list on its way holds what the screen could
put back. -/
theorem Restores.unsaved {s : System} (h : Restores s)
    (hd : ∀ r ∈ s.requests, r.flight.deletes = false) :
    ∀ u ∈ s.unsaved, favoriteIds s.screen.restoredItems ⊆ favoriteIds u.2 := by
  intro u hu
  obtain ⟨⟨tag, flight⟩, hr, hu⟩ := List.mem_filterMap.mp hu
  cases flight with
  | save kind body =>
    cases hu
    cases kind with
    | delete => cases hd _ hr
    | undo => exact h tag body hr
  | load => cases hu
  | loaded _ => cases hu
  | saved _ _ => cases hu

/-! ## The invariant -/

/-- Everything in `old` is in `new` or gone. -/
def Covers (log : List Deletion) (new old : List Favorite) : Prop :=
  ∀ id ∈ favoriteIds old, id ∈ favoriteIds new ∨ Gone log id

/-- What is known of the lists on their way to the server. -/
structure Safe (p : Watched) : Prop where
  /-- Each list on its way covers the server's. -/
  store : ∀ u ∈ p.1.unsaved, Covers p.2.deletes u.2 p.1.store
  /-- Each list on its way covers those sent before it. -/
  chain : p.1.unsaved.Pairwise fun u v => Covers p.2.deletes v.2 u.2
  /-- A loaded list covers all of them. -/
  list : p.2.fresh = true →
    Covers p.2.deletes p.1.screen.favorites p.1.store ∧
      ∀ u ∈ p.1.unsaved, Covers p.2.deletes p.1.screen.favorites u.2
  /-- A list that was not loaded is empty. -/
  empty : p.2.fresh = false → p.1.screen.favorites = []

theorem Safe.initial (store : List Favorite) : Safe (.initial store) where
  store u hu := by cases hu
  chain := List.Pairwise.nil
  list h := by cases h
  empty _ := rfl

theorem Covers.trans {log log' : List Deletion} {l l' old : List Favorite} (h : Covers log l old)
    (hl : ∀ id, id ∈ favoriteIds l ∨ Gone log id → id ∈ favoriteIds l' ∨ Gone log' id) :
    Covers log' l' old :=
  fun id hid => hl id (h id hid)

/-- Sending the list, after an edit that keeps what each list and the user's deletes cover. -/
theorem Safe.send {s : System} {d : Notes} {log : List Deletion} (screen : Screen) (kind : Save)
    (h : Safe (s, d)) (hfresh : d.fresh = true)
    (hsent : ∀ u ∈ s.unsaved, ∀ id, id ∈ favoriteIds u.2 ∨ Gone d.deletes id →
      id ∈ favoriteIds u.2 ∨ Gone log id)
    (hedit : ∀ id, id ∈ favoriteIds s.screen.favorites ∨ Gone d.deletes id →
      id ∈ favoriteIds screen.favorites ∨ Gone log id) :
    Safe (s.send screen (.save kind screen.favorites), ⟨log, d.fresh⟩) := by
  obtain ⟨hstore, hunsaved⟩ := h.list hfresh
  refine ⟨?_, ?_, fun _ => ⟨hstore.trans hedit, ?_⟩, fun hf => by rw [hfresh] at hf; cases hf⟩
  · intro u hu
    rcases mem_unsaved_send.mp hu with hu | rfl
    · exact (h.store u hu).trans (hsent u hu)
    · exact hstore.trans hedit
  · simp only [unsaved_send_save, List.pairwise_append, List.pairwise_singleton,
      List.mem_singleton, true_and]
    refine ⟨h.chain.imp_of_mem fun _ hv huv => huv.trans (hsent _ hv), ?_⟩
    rintro u hu _ rfl
    exact (hunsaved u hu).trans hedit
  · intro u hu
    rcases mem_unsaved_send.mp hu with hu | rfl
    · exact (hunsaved u hu).trans hedit
    · exact fun id hid => .inl hid

/-- A delete moves ids from the list to the user's deletes. -/
theorem Safe.delete {s : System} {d : Notes} (h : Safe (s, d)) (hfresh : d.fresh = true) :
    Safe (s.send s.screen.deleteSelectedItems (.save .delete s.screen.unselectedItems),
      ⟨⟨s.screen.selectedItems, false⟩ :: d.deletes, d.fresh⟩) := by
  refine h.send s.screen.deleteSelectedItems .delete hfresh (fun u _ id hid => ?_) fun id hid => ?_
  · exact hid.imp_right fun hgone => (gone_delete ..).mpr (.inr hgone)
  · rcases hid with hid | hgone
    · rcases (mem_ids_split s.screen id).mp hid with hid | hid
      · exact .inl hid
      · exact .inr ((gone_delete ..).mpr (.inl hid))
    · exact .inr ((gone_delete ..).mpr (.inr hgone))

/-- An undo moves the last batch back, to the list and to every list on its way. -/
theorem Safe.undo {s : System} {d : Notes} (h : Safe (s, d)) (hr : Restores s)
    (hg : Careful (s, d) .undo) :
    Safe (s.send s.screen.undoDelete (.save .undo s.screen.restoredItems),
      ⟨undoLast d.deletes, d.fresh⟩) := by
  obtain ⟨-, -, hfresh, hheld, hsaved⟩ := hg
  have hback : ∀ id, Gone d.deletes id →
      Gone (undoLast d.deletes) id ∨ id ∈ favoriteIds s.screen.restoredItems := by
    intro id hgone
    rcases hgone.undoLast with hgone | ⟨e, he, hid⟩
    · exact .inl hgone
    · exact .inr ((mem_ids_restored _ id).mpr (.inr (hheld rfl e he id hid)))
  refine h.send s.screen.undoDelete .undo (hfresh rfl) (fun u hu id hid => ?_) fun id hid => ?_
  · rcases hid with hid | hgone
    · exact .inl hid
    · rcases hback id hgone with hgone | hid
      · exact .inr hgone
      · exact .inl (hr.unsaved (hsaved rfl) u hu hid)
  · rcases hid with hid | hgone
    · exact .inl ((mem_ids_restored _ id).mpr (.inl hid))
    · exact (hback id hgone).symm

/-- A step that changes none of what `Safe` looks at. -/
theorem Safe.of_eq {s t : System} {d : Notes} (h : Safe (s, d)) (hu : t.unsaved = s.unsaved)
    (hst : t.store = s.store)
    (hf : favoriteIds t.screen.favorites = favoriteIds s.screen.favorites) : Safe (t, d) := by
  refine ⟨?_, ?_, fun hfresh => ?_, fun hfresh => ?_⟩
  · show ∀ u ∈ t.unsaved, Covers d.deletes u.2 t.store
    rw [hu, hst]; exact h.store
  · show t.unsaved.Pairwise _
    rw [hu]; exact h.chain
  · show Covers d.deletes t.screen.favorites t.store ∧ ∀ u ∈ t.unsaved, _
    unfold Covers
    rw [hu, hst, hf]; exact h.list hfresh
  · have hnil := h.empty hfresh
    rw [hnil] at hf
    exact List.map_eq_nil_iff.mp hf

/-- The server executes the oldest save on its way, or the save fails. -/
theorem Safe.serve {s t : System} {d : Notes} {u : Nat × List Favorite} (h : Safe (s, d))
    (hu : s.unsaved = u :: t.unsaved) (hst : t.store = s.store ∨ t.store = u.2)
    (hscreen : t.screen = s.screen) : Safe (t, d) := by
  have hmem : u ∈ s.unsaved := by rw [hu]; exact List.mem_cons_self
  have hsub : ∀ v ∈ t.unsaved, v ∈ s.unsaved := by
    intro v hv; rw [hu]; exact List.mem_cons_of_mem _ hv
  have hchain := h.chain
  rw [hu, List.pairwise_cons] at hchain
  refine ⟨fun v hv => ?_, hchain.2, fun hfresh => ?_, fun hfresh => ?_⟩
  · show Covers d.deletes v.2 t.store
    rcases hst with hst | hst <;> rw [hst]
    · exact h.store v (hsub v hv)
    · exact hchain.1 v hv
  · obtain ⟨hstore, hunsaved⟩ := h.list hfresh
    show Covers d.deletes t.screen.favorites t.store ∧ ∀ v ∈ t.unsaved, _
    rw [hscreen]
    refine ⟨?_, fun v hv => hunsaved v (hsub v hv)⟩
    rcases hst with hst | hst
    · rw [hst]; exact hstore
    · rw [hst]; exact hunsaved u hmem
  · show t.screen.favorites = []
    rw [hscreen]; exact h.empty hfresh

/-- The end of a load: the list is the server's, or empty. -/
theorem Safe.load {s t : System} {d : Notes} {response : Response (List Favorite)}
    (h : Safe (s, d)) (hc : ∀ l, response = .ok l → l = s.store ∧ s.unsaved = [])
    (hu : t.unsaved = s.unsaved) (hst : t.store = s.store)
    (hscreen : t.screen = s.screen.initializeFavorites response) :
    Safe (t, ⟨d.deletes, response.isOk⟩) := by
  refine ⟨?_, ?_, fun hfresh => ?_, fun hfresh => ?_⟩
  · show ∀ u ∈ t.unsaved, Covers d.deletes u.2 t.store
    rw [hu, hst]; exact h.store
  · show t.unsaved.Pairwise _
    rw [hu]; exact h.chain
  · cases response with
    | ok l =>
      obtain ⟨rfl, hnil⟩ := hc l rfl
      show Covers d.deletes t.screen.favorites t.store ∧ ∀ u ∈ t.unsaved, _
      rw [hu, hnil, hst, hscreen]
      refine ⟨fun id hid => .inl ?_, fun u hu => by cases hu⟩
      simpa [Screen.initializeFavorites, loadFavorites] using hid
    | status _ => cases hfresh
    | rejected _ => cases hfresh
  · show t.screen.favorites = []
    rw [hscreen]
    cases response with
    | ok _ => cases hfresh
    | status _ => rfl
    | rejected _ => rfl

theorem Safe.step {p q : Watched} {a : Act} (h : Safe p) (hc : Current p.1) (hr : Restores p.1)
    (hg : Careful p a) (hs : Watched.step p a = some q) : Safe q := by
  obtain ⟨s, d⟩ := p
  obtain ⟨t, d'⟩ := q
  obtain ⟨hstep, hnote⟩ := withHistory_some.mp hs
  simp only at hstep hnote hc hr
  subst hnote
  cases stepped hstep with
  | focus _ _ => exact h.of_eq (unsaved_send_load ..) rfl rfl
  | blur _ => exact h.of_eq rfl rfl rfl
  | unmount _ => exact h.of_eq rfl rfl rfl
  | select itemId _ _ _ => exact h.of_eq rfl rfl (ids_toggleSelection ..)
  | tick _ _ => exact h.of_eq rfl rfl (congrArg favoriteIds (tick_favorites _))
  | delete _ hsel =>
    refine h.delete ?_
    -- an empty list has nothing to select
    cases hf : d.fresh with
    | true => rfl
    | false =>
      have hnil : s.screen.favorites = [] := h.empty hf
      simp [Screen.hasSelectedItems, hnil] at hsel
  | undo _ _ => exact h.undo hr hg
  | serveLoad outcome tag before after hreq =>
    exact h.of_eq (unsaved_set hreq rfl rfl) rfl rfl
  | serveSave outcome tag kind body before after hreq =>
    exact h.serve (unsaved_serve hreq rfl rfl rfl (hg.1.saves.before hreq))
      (Server.post_or s.store body outcome) rfl
  | replyLoad tag response before after hreq =>
    have hn : note s (.reply before.length) d = ⟨d.deletes, response.isOk⟩ := by
      simp only [note, noteDeletes, noteLoad, hreq, getElem?_at]
    rw [hn]
    exact h.load (fun l hl => hc.data ⟨tag, .loaded response⟩ (by simp [hreq]) l (by rw [hl]))
      (unsaved_erase hreq rfl rfl) rfl rfl
  | replySave tag kind response before after hreq =>
    have hn : note s (.reply before.length) d = d := by
      simp only [note, noteDeletes, noteLoad, hreq, getElem?_at]
    rw [hn]
    exact h.of_eq (unsaved_erase hreq rfl rfl) rfl (by simp)

/-- **No save drops what the user did not delete**, in a careful run. -/
theorem posts_keep {store : List Favorite} {p : Watched}
    (h : Reach Watched.step Careful (.initial store) p)
    {n : Nat} {outcome : Outcome} {t : System} {tag : Nat} {kind : Save} {body : List Favorite}
    (hr : p.1.requests[n]? = some ⟨tag, .save kind body⟩)
    (hs : p.1.step (.serve n outcome) = some t) :
    Covers p.2.deletes t.store p.1.store := by
  have hinv : Current p.1 ∧ Restores p.1 ∧ Safe p := by
    refine h.invariant (I := fun p => Current p.1 ∧ Restores p.1 ∧ Safe p)
      ⟨.initial store, .initial store, .initial store⟩ fun p a q hp hg hs => ?_
    obtain ⟨hc, hrest, hsafe⟩ := hp
    have hstep := (withHistory_some.mp hs).1
    exact ⟨hc.step ⟨hg.1.saves, hg.2.1⟩ hstep, hrest.step hc hstep, hsafe.step hc hrest hg hs⟩
  have hmem : (tag, body) ∈ p.1.unsaved :=
    List.mem_filterMap.mpr ⟨_, List.mem_of_getElem? hr, rfl⟩
  have ht : t.store = (Server.post p.1.store body outcome).1 := by
    simp only [System.step, hr, Option.some.injEq] at hs
    rw [← hs]
  rw [ht]
  rcases Server.post_or p.1.store body outcome with hp | hp <;> rw [hp]
  · exact fun id hid => .inl hid
  · exact hinv.2.2.store _ hmem

/-- Two favourites are loaded and `1` is deleted. -/
def deleteOne : List Act :=
  [.focus, .serve 0 .answered, .reply 0, .select (.num 1), .delete]

/-- `1` is restored and `2` deleted instead. -/
def deleteOther : List Act :=
  deleteOne ++ [.serve 0 .answered, .reply 0, .undo, .serve 0 .answered, .reply 0,
    .select (.num 1), .select (.num 2), .delete]

theorem posts_keep_deleteOther : ∃ p : Watched, ∃ t : System,
    p.1.step (.serve 0 .answered) = some t ∧ ¬ Gone p.2.deletes (.num 1) ∧
      Covers p.2.deletes t.store p.1.store := by
  obtain ⟨p, hp, hr, hgone⟩ := Reach.of_exec Watched.step Careful
    (.initial [.bare (.num 1), .bare (.num 2)]) deleteOther
    (fun p => p.1.requests[0]? = some ⟨3, .save .delete [deselect (.bare (.num 1))]⟩ ∧
      ¬ Gone p.2.deletes (.num 1)) (by decide)
  obtain ⟨t, ht⟩ : ∃ t, p.1.step (.serve 0 .answered) = some t := by
    simp only [System.step, hr]; exact ⟨_, rfl⟩
  exact ⟨p, t, ht, hgone, posts_keep hp hr ht⟩

/-! ## Runs that drop a favourite -/

/-- The oldest request is a save without `id`, which the server has and the user did not
delete, or has put back. -/
def Drops (id : ItemId) (p : Watched) : Prop :=
  ∃ r ∈ p.1.requests.head?, ∃ u ∈ r.unsaved,
    id ∈ favoriteIds p.1.store ∧ id ∉ favoriteIds u.2 ∧ ¬ Gone p.2.deletes id

instance (id : ItemId) (p : Watched) : Decidable (Drops id p) :=
  inferInstanceAs (Decidable (∃ r ∈ p.1.requests.head?, ∃ u ∈ r.unsaved, _))

/-- Executing that save drops `id`. -/
theorem Drops.serve {id : ItemId} {p : Watched} (h : Drops id p) :
    ∃ tag kind body t, p.1.requests[0]? = some ⟨tag, .save kind body⟩ ∧
      p.1.step (.serve 0 .answered) = some t ∧ ¬ Covers p.2.deletes t.store p.1.store := by
  obtain ⟨⟨tag, flight⟩, hr, u, hu, hst, hbody, hgone⟩ := h
  rw [List.head?_eq_getElem?] at hr
  cases flight with
  | save kind body =>
    cases hu
    have hstep : p.1.step (.serve 0 .answered) = some { p.1 with
        store := body, requests := p.1.requests.set 0 ⟨tag, .saved kind (.ok ())⟩ } := by
      simp only [System.step, Option.mem_def.mp hr, Server.post]
    exact ⟨tag, kind, body, _, hr, hstep, fun hc => (hc id hst).elim hbody hgone⟩
  | load => cases hu
  | loaded _ => cases hu
  | saved _ _ => cases hu

/-- `1` is deleted, a reload fails, and `Undo` saves `1` alone. -/
def undoAfterFailedLoad : List Act :=
  deleteOne ++ [.serve 0 .answered, .reply 0, .blur, .focus, .serve 0 .errorStatus, .reply 0, .undo]

/-- `1` is deleted and restored while a reload that does not know it yet is on its way;
then `2` is deleted, and `1` goes with it. -/
def undoWhileLoading : List Act :=
  deleteOne ++ [.serve 0 .answered, .reply 0, .blur, .focus, .serve 0 .answered, .undo,
    .serve 1 .answered, .reply 0, .reply 0, .select (.num 2), .delete]

/-- `1` is deleted and restored, on the list only; `2` is deleted while a reload is on its
way. That save brings `1` to the server, the reload takes it off the list, and it goes with
`3`. -/
def deleteThenLoad : List Act :=
  deleteOne ++ [.serve 0 .answered, .reply 0, .undo, .serve 0 .errorStatus, .reply 0,
    .select (.num 1), .select (.num 2), .blur, .focus, .delete, .serve 0 .answered,
    .serve 1 .answered, .reply 0, .reply 0, .select (.num 3), .delete]

/-- The countdown for `1` runs out while `2` is being deleted; that save fails, and `Undo`
saves the list without `2`. -/
def undoOfNothing : List Act :=
  deleteOne ++ [.serve 0 .answered, .reply 0, .select (.num 2), .delete, .tick 1, .tick 1,
    .tick 1, .tick 1, .tick 1, .serve 0 .errorStatus, .reply 0, .undo]

/-- `2` is deleted and restored under the banner for `1`, before the delete is executed. -/
def undoBeforeSaved : List Act :=
  deleteOne ++ [.serve 0 .answered, .reply 0, .select (.num 2), .delete, .undo]

/-- A careful run needs each of its parts. -/
theorem drops_after_failed_load : ∃ p, Reach Watched.step
    (fun p a => InSendOrder p.1 a ∧ Calm p.1 a ∧ UndoOfHeld p a ∧ UndoOfSaved p a)
    (.initial [.bare (.num 1), .bare (.num 2)]) p ∧ Drops (.num 2) p :=
  Reach.of_exec _ _ _ undoAfterFailedLoad _ (by decide)

theorem drops_after_undo_while_loading : ∃ p, Reach Watched.step
    (fun p a => InSendOrder p.1 a ∧ NoFailure p.1 a ∧ (a = .delete → Calm p.1 a) ∧
      UndoOfLoaded p a ∧ UndoOfHeld p a ∧ UndoOfSaved p a)
    (.initial [.bare (.num 1), .bare (.num 2)]) p ∧ Drops (.num 1) p :=
  Reach.of_exec _ _ _ undoWhileLoading _ (by decide)

theorem drops_after_delete_while_loading : ∃ p, Reach Watched.step
    (fun p a => InSendOrder p.1 a ∧ (a = .undo → Calm p.1 a) ∧
      UndoOfLoaded p a ∧ UndoOfHeld p a ∧ UndoOfSaved p a)
    (.initial [.bare (.num 1), .bare (.num 2), .bare (.num 3)]) p ∧ Drops (.num 1) p :=
  Reach.of_exec _ _ _ deleteThenLoad _ (by decide)

theorem drops_after_countdown : ∃ p, Reach Watched.step
    (fun p a => InSendOrder p.1 a ∧ Calm p.1 a ∧ UndoOfLoaded p a ∧ UndoOfSaved p a)
    (.initial [.bare (.num 1), .bare (.num 2)]) p ∧ Drops (.num 2) p :=
  Reach.of_exec _ _ _ undoOfNothing _ (by decide)

theorem drops_after_undo_before_saved : ∃ p, Reach Watched.step
    (fun p a => InSendOrder p.1 a ∧ NoFailure p.1 a ∧ Calm p.1 a ∧ UndoOfLoaded p a ∧
      UndoOfHeld p a)
    (.initial [.bare (.num 1), .bare (.num 2)]) p ∧ Drops (.num 2) p :=
  Reach.of_exec _ _ _ undoBeforeSaved _ (by decide)

theorem not_posts_keep : ¬ ∀ (store : List Favorite) (p : Watched) (n : Nat) (outcome : Outcome)
    (t : System) (tag : Nat) (kind : Save) (body : List Favorite),
    Reach Watched.step (fun p a => InSendOrder p.1 a) (.initial store) p →
    InSendOrder p.1 (.serve n outcome) → p.1.requests[n]? = some ⟨tag, .save kind body⟩ →
    p.1.step (.serve n outcome) = some t → Covers p.2.deletes t.store p.1.store := by
  intro h
  obtain ⟨p, hp, hdrop⟩ := drops_after_failed_load
  obtain ⟨tag, kind, body, t, hr, hs, hnot⟩ := hdrop.serve
  have horder : InSendOrder p.1 (.serve 0 .answered) := by simp [InSendOrder]
  exact hnot (h _ p 0 .answered t tag kind body (hp.mono fun _ _ hg => hg.1) horder hr hs)

end IngrediGo.FavoritesScreen
