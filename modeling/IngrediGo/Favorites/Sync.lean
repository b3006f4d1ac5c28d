import IngrediGo.Favorites.System

/-!
# The Favorites list against the server's

The screen posts its whole list, and a load replaces its whole list; nothing ties one to
the other. In a settling run a save reaches the server before anything sent after it
(`SavesInOrder`) and the list is not edited while a load is outstanding (`Calm`). Then an
answered load holds the very list the server has (`Current`), and with no failure list and
server have the same ids once nothing is in flight (`list_agrees`).
-/

namespace IngrediGo.FavoritesScreen

open Lib

/-! ## Requests -/

def Flight.isLoad : Flight → Bool
  | .load => true
  | .loaded _ => true
  | _ => false

/-- The list a request still has to bring to the server, with the request's tag. -/
def Request.unsaved (r : Request) : Option (Nat × List Favorite) :=
  match r.flight with
  | .save _ body => some (r.tag, body)
  | _ => none

/-- The saves on their way to the server, oldest first. -/
def System.unsaved (s : System) : List (Nat × List Favorite) := s.requests.filterMap Request.unsaved

@[simp] theorem unsaved_send_load (s : System) (screen : Screen) :
    (s.send screen .load).unsaved = s.unsaved := by
  simp [System.unsaved, System.send, Request.unsaved]

@[simp] theorem unsaved_send_save (s : System) (screen : Screen) (kind : Save)
    (body : List Favorite) :
    (s.send screen (.save kind body)).unsaved = s.unsaved ++ [(s.nextTag, body)] := by
  simp [System.unsaved, System.send, Request.unsaved]

theorem mem_unsaved_send {s : System} {screen : Screen} {kind : Save} {body : List Favorite}
    {u : Nat × List Favorite} :
    u ∈ (s.send screen (.save kind body)).unsaved ↔ u ∈ s.unsaved ∨ u = (s.nextTag, body) := by
  rw [unsaved_send_save, List.mem_append, List.mem_singleton]

section At

variable {s t : System} {before after : List Request} {r q : Request}

theorem unsaved_at (hs : s.requests = before ++ r :: after) :
    s.unsaved = before.filterMap Request.unsaved ++
      (r.unsaved.toList ++ after.filterMap Request.unsaved) := by
  rw [System.unsaved, hs, List.filterMap_append, List.filterMap_cons]
  cases r.unsaved <;> rfl

/-- A request that moves on without a list to save, or with the same one. -/
theorem unsaved_set (hs : s.requests = before ++ r :: after)
    (ht : t.requests = before ++ q :: after) (hu : q.unsaved = r.unsaved) :
    t.unsaved = s.unsaved := by
  rw [unsaved_at hs, unsaved_at ht, hu]

/-- A request that is over. -/
theorem unsaved_erase (hs : s.requests = before ++ r :: after)
    (ht : t.requests = before ++ after) (hu : r.unsaved = none) : t.unsaved = s.unsaved := by
  rw [unsaved_at hs, hu, System.unsaved, ht, List.filterMap_append]
  rfl

/-- The oldest save, executed. -/
theorem unsaved_serve {u : Nat × List Favorite} (hs : s.requests = before ++ r :: after)
    (ht : t.requests = before ++ q :: after) (hr : r.unsaved = some u) (hq : q.unsaved = none)
    (hb : ∀ x ∈ before, x.unsaved = none) : s.unsaved = u :: t.unsaved := by
  rw [unsaved_at hs, unsaved_at ht, hr, hq, List.filterMap_eq_nil_iff.mpr hb]
  rfl

end At

/-! ## Guards -/

/-- A save reaches the server before anything sent after it. -/
def SavesInOrder (s : System) : Act → Prop
  | .serve n _ => ∀ r ∈ s.requests.take n, r.unsaved = none
  | _ => True

/-- The list is not edited while a load is outstanding. -/
def Calm (s : System) : Act → Prop
  | .delete => ∀ r ∈ s.requests, r.flight.isLoad = false
  | .undo => ∀ r ∈ s.requests, r.flight.isLoad = false
  | _ => True

def Settling (s : System) (a : Act) : Prop := SavesInOrder s a ∧ Calm s a

/-- No request fails. -/
def NoFailure (_ : System) : Act → Prop
  | .serve _ outcome => outcome = .answered
  | _ => True

theorem SavesInOrder.before {s : System} {before after : List Request} {r : Request}
    {outcome : Outcome} (h : SavesInOrder s (.serve before.length outcome))
    (hr : s.requests = before ++ r :: after) : ∀ q ∈ before, q.unsaved = none := by
  have ht : s.requests.take before.length = before := by rw [hr, List.take_left]
  intro q hq
  exact h q (ht.symm ▸ hq)

instance (s : System) : ∀ a, Decidable (SavesInOrder s a)
  | .serve n _ => inferInstanceAs (Decidable (∀ r ∈ s.requests.take n, r.unsaved = none))
  | .focus | .blur | .unmount | .select _ | .delete | .undo | .tick _ | .reply _ =>
    .isTrue trivial

instance (s : System) : ∀ a, Decidable (Calm s a)
  | .delete | .undo => inferInstanceAs (Decidable (∀ r ∈ s.requests, r.flight.isLoad = false))
  | .focus | .blur | .unmount | .select _ | .serve _ _ | .tick _ | .reply _ => .isTrue trivial

instance (s : System) (a : Act) : Decidable (Settling s a) := inferInstanceAs (Decidable (_ ∧ _))

instance (s : System) : ∀ a, Decidable (NoFailure s a)
  | .serve _ outcome => inferInstanceAs (Decidable (outcome = .answered))
  | .focus | .blur | .unmount | .select _ | .delete | .undo | .tick _ | .reply _ =>
    .isTrue trivial

/-! ## Loads hold the server's list -/

/-- No save was sent after a load still outstanding. -/
def SavesFirst (l : List Request) : Prop :=
  l.Pairwise fun r q => r.flight.isLoad = true → q.unsaved = none

/-- What a settling run knows of its outstanding loads. -/
structure Current (s : System) : Prop where
  first : SavesFirst s.requests
  data : ∀ r ∈ s.requests, ∀ l, r.flight = .loaded (.ok l) → l = s.store ∧ s.unsaved = []

theorem savesFirst_replace {before after : List Request} {r q : Request}
    (h : SavesFirst (before ++ r :: after)) (hl : q.flight.isLoad = r.flight.isLoad)
    (hu : q.unsaved = none) : SavesFirst (before ++ q :: after) := by
  simp only [SavesFirst, List.pairwise_append, List.pairwise_cons, List.mem_cons] at h ⊢
  obtain ⟨hb, ⟨hra, ha⟩, hc⟩ := h
  refine ⟨hb, ⟨fun x hx hq => hra x hx (hl ▸ hq), ha⟩, fun x hx y hy hxl => ?_⟩
  rcases hy with rfl | hy
  · exact hu
  · exact hc x hx y (.inr hy) hxl

theorem savesFirst_erase {before after : List Request} {r : Request}
    (h : SavesFirst (before ++ r :: after)) : SavesFirst (before ++ after) :=
  h.sublist (List.Sublist.append_left (List.sublist_cons_self ..) _)

theorem savesFirst_send {l : List Request} {r : Request} (h : SavesFirst l)
    (hr : (∀ q ∈ l, q.flight.isLoad = false) ∨ r.unsaved = none) : SavesFirst (l ++ [r]) := by
  simp only [SavesFirst, List.pairwise_append, List.pairwise_singleton, List.mem_singleton,
    true_and]
  refine ⟨h, ?_⟩
  rintro q hq _ rfl hl
  rcases hr with hr | hr
  · rw [hr q hq] at hl; cases hl
  · exact hr

/-- A load with no save before it reads a store no save is heading for. -/
theorem unsaved_nil_of_load {s : System} {before after : List Request} {r : Request}
    (hf : SavesFirst s.requests) (hr : s.requests = before ++ r :: after)
    (hl : r.flight.isLoad = true) (hu : r.unsaved = none)
    (hb : ∀ q ∈ before, q.unsaved = none) : s.unsaved = [] := by
  rw [hr, SavesFirst, List.pairwise_append, List.pairwise_cons] at hf
  have ha : ∀ q ∈ after, q.unsaved = none := fun q hq => hf.2.1.1 q hq hl
  rw [unsaved_at hr, hu, List.filterMap_eq_nil_iff.mpr hb, List.filterMap_eq_nil_iff.mpr ha]
  rfl

theorem Current.initial (store : List Favorite) : Current (System.initial store) :=
  ⟨List.Pairwise.nil, by simp [System.initial]⟩

theorem Current.step {s t : System} {a : Act} (h : Current s) (hg : Settling s a)
    (hs : s.step a = some t) : Current t := by
  obtain ⟨ho, hc⟩ := hg
  have hfirst := h.first
  cases stepped hs with
  | focus _ _ =>
    refine ⟨savesFirst_send hfirst (.inr rfl), fun r hr l hl => ?_⟩
    rcases mem_send.mp hr with hr | rfl
    · rw [unsaved_send_load]; exact h.data r hr l hl
    · cases hl
  | blur _ => exact ⟨hfirst, h.data⟩
  | unmount _ => exact ⟨hfirst, h.data⟩
  | select _ _ _ _ => exact ⟨hfirst, h.data⟩
  | tick _ _ => exact ⟨hfirst, h.data⟩
  | delete _ _ | undo _ _ =>
    refine ⟨savesFirst_send hfirst (.inl hc), fun r hr l hl => ?_⟩
    rcases mem_send.mp hr with hr | rfl
    · have hload := hc r hr
      rw [hl] at hload
      cases hload
    · cases hl
  | serveLoad outcome tag before after hr =>
    have hnil : s.unsaved = [] := unsaved_nil_of_load hfirst hr rfl rfl (ho.before hr)
    rw [hr] at hfirst
    refine ⟨savesFirst_replace hfirst rfl rfl, fun r hmem l hl => ⟨?_, ?_⟩⟩
    · rcases mem_of_mem_set_at hmem with rfl | hmem
      · cases outcome with
        | answered => cases hl; rfl
        | errorStatus => cases hl
        | unreachable _ => cases hl
      · exact (h.data r (hr ▸ hmem) l hl).1
    · exact Eq.trans (unsaved_set hr rfl rfl) hnil
  | serveSave outcome tag kind body before after hr =>
    -- a save is still heading for the server, so no load has been answered
    have hne : s.unsaved ≠ [] := by
      rw [unsaved_at hr]
      simp [Request.unsaved]
    rw [hr] at hfirst
    refine ⟨savesFirst_replace hfirst rfl rfl, fun r hmem l hl => ?_⟩
    rcases mem_of_mem_set_at hmem with rfl | hmem
    · cases hl
    · exact absurd (h.data r (hr ▸ hmem) l hl).2 hne
  | replyLoad tag response before after hr =>
    rw [hr] at hfirst
    refine ⟨savesFirst_erase hfirst, fun r hmem l hl => ?_⟩
    obtain ⟨hd, hu⟩ := h.data r (hr ▸ mem_of_mem_erase_at hmem) l hl
    exact ⟨hd, Eq.trans (unsaved_erase hr rfl rfl) hu⟩
  | replySave tag kind response before after hr =>
    rw [hr] at hfirst
    refine ⟨savesFirst_erase hfirst, fun r hmem l hl => ?_⟩
    obtain ⟨hd, hu⟩ := h.data r (hr ▸ mem_of_mem_erase_at hmem) l hl
    exact ⟨hd, Eq.trans (unsaved_erase hr rfl rfl) hu⟩

/-! ## List and server agree -/

/-- The server's list once the saves on their way are executed. -/
def System.lastSaved (s : System) : List Favorite := (s.unsaved.map (·.2)).getLastD s.store

theorem lastSaved_send_save (s : System) (screen : Screen) (kind : Save) (body : List Favorite) :
    (s.send screen (.save kind body)).lastSaved = body := by
  simp [System.lastSaved]

theorem lastSaved_of_unsaved_eq {s t : System} (hu : t.unsaved = s.unsaved)
    (hst : t.store = s.store) : t.lastSaved = s.lastSaved := by
  rw [System.lastSaved, hu, hst]; rfl

/-- Executing the oldest save on its way changes nothing about where the server ends up. -/
theorem lastSaved_serve {s t : System} (tag : Nat) (body : List Favorite)
    (hs : s.unsaved = (tag, body) :: t.unsaved) (ht : t.store = body) :
    t.lastSaved = s.lastSaved := by
  rw [System.lastSaved, System.lastSaved, hs, ht, List.map_cons, List.getLastD_cons]

/-- Whether a load has completed. -/
def noteLoaded (s : System) (a : Act) (loaded : Bool) : Bool :=
  match a with
  | .reply n => loaded || (s.requests[n]?.any (·.flight.isLoad))
  | _ => loaded

/-- Every load that is over was answered. -/
def AllAnswered (s : System) : Prop :=
  ∀ r ∈ s.requests, ∀ response, r.flight = .loaded response → ∃ l, response = .ok l

theorem AllAnswered.step {s t : System} {a : Act} (h : AllAnswered s) (hg : NoFailure s a)
    (hs : s.step a = some t) : AllAnswered t := by
  refine forall_requests_step h hs ?_ ?_ ?_ ?_ ?_
  · rintro rfl _ hf; cases hf
  · rintro rfl _ hf; cases hf
  · rintro rfl _ hf; cases hf
  · rintro n outcome tag rfl - response hf
    cases (hg : outcome = .answered)
    cases hf
    exact ⟨s.store, rfl⟩
  · rintro n outcome tag kind body rfl - _ hf; cases hf

/-- The list has the ids the server has, or will have once its saves are executed. -/
def SameIds (s : System) : Prop :=
  ∀ id, id ∈ favoriteIds s.screen.favorites ↔ id ∈ favoriteIds s.lastSaved

theorem SameIds.of_eq {s t : System} (h : SameIds s)
    (hf : favoriteIds t.screen.favorites = favoriteIds s.screen.favorites)
    (hl : t.lastSaved = s.lastSaved) : SameIds t := by
  intro id; rw [hf, hl]; exact h id

/-- A step other than the end of a load keeps the two lists together. -/
theorem SameIds.step {s t : System} {a : Act} (h : SameIds s) (ho : SavesInOrder s a)
    (hn : NoFailure s a) (hs : s.step a = some t)
    (hload : ∀ n, a = .reply n → s.requests[n]?.any (·.flight.isLoad) = false) : SameIds t := by
  cases stepped hs with
  | focus _ _ => exact h.of_eq rfl (lastSaved_of_unsaved_eq (unsaved_send_load ..) rfl)
  | blur _ => exact h
  | unmount _ => exact h
  | select itemId _ _ _ => exact h.of_eq (ids_toggleSelection ..) rfl
  | tick _ _ => exact h.of_eq (congrArg favoriteIds (tick_favorites _)) rfl
  | delete _ _ => intro id; rw [lastSaved_send_save]; rfl
  | undo _ _ => intro id; rw [lastSaved_send_save]; rfl
  | serveLoad outcome tag before after hr =>
    exact h.of_eq rfl (lastSaved_of_unsaved_eq (unsaved_set hr rfl rfl) rfl)
  | serveSave outcome tag kind body before after hr =>
    cases (hn : outcome = .answered)
    exact h.of_eq rfl (lastSaved_serve tag body
      (unsaved_serve hr rfl rfl rfl (ho.before hr)) rfl)
  | replyLoad tag response before after hr =>
    have hnot := hload before.length rfl
    rw [hr, getElem?_at] at hnot
    cases hnot
  | replySave tag kind response before after hr =>
    exact h.of_eq (by simp) (lastSaved_of_unsaved_eq (unsaved_erase hr rfl rfl) rfl)

/-- The end of a load brings them together. -/
theorem sameIds_of_load {s t : System} {n : Nat} (h : Current s) (hall : AllAnswered s)
    (hs : s.step (.reply n) = some t) (hload : s.requests[n]?.any (·.flight.isLoad) = true) :
    SameIds t := by
  generalize ha : Act.reply n = a at hs
  cases stepped hs with
  | replyLoad tag response before after hr =>
    have hmem : ⟨tag, .loaded response⟩ ∈ s.requests := by simp [hr]
    obtain ⟨l, rfl⟩ := hall _ hmem _ rfl
    obtain ⟨rfl, hu⟩ := h.data _ hmem _ rfl
    have hnil := (unsaved_erase (t := { s with
      screen := s.screen.initializeFavorites (.ok s.store), requests := before ++ after })
      hr rfl rfl).trans hu
    intro id
    rw [System.lastSaved, hnil]
    simp [Screen.initializeFavorites, loadFavorites]
  | replySave tag kind response before after hr =>
    cases ha
    rw [hr, getElem?_at] at hload
    cases hload
  | _ => cases ha

/-- What a settling run without failures keeps. -/
structure Agreeing (p : System × Bool) : Prop where
  current : Current p.1
  answered : AllAnswered p.1
  ids : p.2 = true → SameIds p.1

theorem Agreeing.step {p q : System × Bool} {a : Act} (h : Agreeing p)
    (hg : Settling p.1 a ∧ NoFailure p.1 a)
    (hs : withHistory System.step noteLoaded p a = some q) : Agreeing q := by
  obtain ⟨hs, hnote⟩ := withHistory_some.mp hs
  refine ⟨h.current.step hg.1 hs, h.answered.step hg.2 hs, fun hq => ?_⟩
  rw [hnote] at hq
  by_cases hload : ∃ n, a = .reply n ∧ p.1.requests[n]?.any (·.flight.isLoad) = true
  · obtain ⟨n, rfl, hload⟩ := hload
    exact sameIds_of_load h.current h.answered hs hload
  · have hload' : ∀ n, a = .reply n → p.1.requests[n]?.any (·.flight.isLoad) = false :=
      fun n ha => Bool.eq_false_iff.mpr fun hl => hload ⟨n, ha, hl⟩
    have hp : p.2 = true := by
      cases a with
      | reply n => simpa [noteLoaded, hload' n rfl] using hq
      | _ => exact hq
    exact (h.ids hp).step hg.1.1 hg.2 hs hload'

/-- **List and server agree once things settle**, in a settling run without failures. -/
theorem list_agrees {store : List Favorite} {s : System}
    (h : Reach (withHistory System.step noteLoaded) (fun p a => Settling p.1 a ∧ NoFailure p.1 a)
      (System.initial store, false) (s, true)) (hidle : s.requests = []) (id : ItemId) :
    id ∈ favoriteIds s.screen.favorites ↔ id ∈ favoriteIds s.store := by
  have h0 : Agreeing (System.initial store, false) :=
    ⟨.initial store, by simp [AllAnswered, System.initial], fun hf => by cases hf⟩
  have hinv : Agreeing (s, true) := h.invariant h0 fun _ _ _ hp hg hs => hp.step hg hs
  have hids := hinv.ids rfl id
  simpa [System.lastSaved, System.unsaved, hidle] using hids

/-- Load, delete `1`, refocus. -/
def deleteAndReload : List Act :=
  [.focus, .serve 0 .answered, .reply 0, .select (.num 1), .delete, .blur, .focus,
    .serve 0 .answered, .reply 0, .serve 0 .answered, .reply 0]

theorem list_agrees_reloaded : ∃ s : System, s.screen.recentlyDeleted ≠ [] ∧
    (.num 1 ∈ favoriteIds s.screen.favorites ↔ .num 1 ∈ favoriteIds s.store) := by
  obtain ⟨⟨s, loaded⟩, hs, hdel, hidle, rfl⟩ :=
    Reach.of_exec (withHistory System.step noteLoaded)
      (fun p a => Settling p.1 a ∧ NoFailure p.1 a)
      (System.initial [.bare (.num 1), .bare (.num 2)], false) deleteAndReload
      (fun p => p.1.screen.recentlyDeleted ≠ [] ∧ p.1.requests = [] ∧ p.2 = true) (by decide)
  exact ⟨s, hdel, list_agrees hs hidle (.num 1)⟩

/-- A list with `1` still selected is reloaded, and `1` is deleted before the answer: the
answer brings `1` back to the list. -/
def deleteWhileLoading : List Act :=
  [.focus, .serve 0 .answered, .reply 0, .select (.num 1), .blur, .focus, .delete,
    .serve 0 .answered, .serve 1 .answered, .reply 1, .reply 0]

/-- A delete's save is executed after the save of its undo: the list keeps `2`, the server
does not. -/
def undoOvertakes : List Act :=
  [.focus, .serve 0 .answered, .reply 0, .select (.num 1), .delete, .serve 0 .answered, .reply 0,
    .select (.num 2), .delete, .undo, .serve 1 .answered, .serve 0 .answered, .reply 1, .reply 0]

/-- Whether list and server are told apart by `id`. -/
abbrev DisagreesOn (id : ItemId) (s : System) : Prop :=
  s.requests = [] ∧ ¬ (id ∈ favoriteIds s.screen.favorites ↔ id ∈ favoriteIds s.store)

/-- Neither half of a settling run is enough. -/
theorem disagrees_inOrder : ∃ p, Reach (withHistory System.step noteLoaded)
    (fun p a => SavesInOrder p.1 a ∧ NoFailure p.1 a)
    (System.initial [.bare (.num 1), .bare (.num 2)], false) p ∧
      p.2 = true ∧ DisagreesOn (.num 1) p.1 :=
  Reach.of_exec _ _ _ deleteWhileLoading _ (by decide)

theorem disagrees_calm : ∃ p, Reach (withHistory System.step noteLoaded)
    (fun p a => Calm p.1 a ∧ NoFailure p.1 a)
    (System.initial [.bare (.num 1), .bare (.num 2)], false) p ∧
      p.2 = true ∧ DisagreesOn (.num 2) p.1 :=
  Reach.of_exec _ _ _ undoOvertakes _ (by decide)

theorem not_list_agrees : ¬ ∀ (store : List Favorite) (s : System),
    Reach (withHistory System.step noteLoaded) (fun p a => NoFailure p.1 a)
      (System.initial store, false) (s, true) → s.requests = [] → ∀ id,
      (id ∈ favoriteIds s.screen.favorites ↔ id ∈ favoriteIds s.store) := by
  intro h
  obtain ⟨⟨s, loaded⟩, hs, rfl, hidle, hne⟩ := disagrees_inOrder
  exact hne (h _ s (hs.mono fun _ _ hg => hg.2) hidle (.num 1))

end IngrediGo.FavoritesScreen
