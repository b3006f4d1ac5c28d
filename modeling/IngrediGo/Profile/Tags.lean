import IngrediGo.Lib.Runs
import Mathlib.Data.Fintype.Basic
import Mathlib.Logic.Function.Basic

/-!
# Profile tags

The two tag lists of `profile.tsx` over any number of visits. A visit starts from the lists
written in the code; `loadData` puts the saved ones in their place whenever it is over, and
from then on every change of a list saves it. `dataLoaded` is not among what the saving
effects depend on, so a list that was changed before is not saved when the load is over.

`tags_persist`: the lists shown are the lists edited, in a run where no edit is made under a
load that will overwrite it and no screen is left with a change it did not save.
-/

namespace IngrediGo.ProfileScreen

open Lib

inductive Kind where
  | dietary
  | allergy
  deriving DecidableEq, Repr

instance : Fintype Kind := ⟨{.dietary, .allergy}, fun kind => by cases kind <;> decide⟩

structure Tag where
  id : Nat
  value : String
  color : String
  deriving DecidableEq, Repr

/-- The lists a visit starts from. -/
def initialTags : Kind → List Tag
  | .dietary => [⟨1, "Halal", "#6B2323"⟩, ⟨2, "Vegan", "#4B6D26"⟩]
  | .allergy => [⟨1, "Nuts", "#1A237E"⟩, ⟨2, "Milk", "#7A4F21"⟩]

/-- What the user does to a list. The tag added is made of the value picked, the time and a
random colour. -/
inductive Edit where
  | add (tag : Tag)
  | remove (id : Nat)
  deriving DecidableEq, Repr

/-- The list `addTag` sets, if it sets one. -/
def addTag (tags : List Tag) (tag : Tag) : Option (List Tag) :=
  if !tags.any (·.value = tag.value) then some (tags ++ [tag]) else none

/-- The list `removeTag` sets. -/
def removeTag (tags : List Tag) (id : Nat) : List Tag := tags.filter (·.id ≠ id)

def Edit.set : Edit → List Tag → Option (List Tag)
  | .add tag, tags => addTag tags tag
  | .remove id, tags => some (removeTag tags id)

/-- The list after an edit. -/
def Edit.apply (e : Edit) (tags : List Tag) : List Tag := (e.set tags).getD tags

structure Screen where
  tags : Kind → List Tag
  dataLoaded : Bool

/-- What `AsyncStorage` holds, and the screen of the visit there is. -/
structure Profile where
  saved : Kind → Option (List Tag)
  screen : Option Screen

inductive Act where
  | mount
  /-- `loadData` is over. -/
  | load
  | leave
  | edit (kind : Kind) (e : Edit)
  deriving DecidableEq, Repr

/-- The effect run after a list was set. -/
def persist (saved : Kind → Option (List Tag)) (kind : Kind) (screen : Screen) :
    Kind → Option (List Tag) :=
  if screen.dataLoaded then Function.update saved kind (some (screen.tags kind)) else saved

/-- `loadData` sets the lists that were saved. Nothing is written before it is over, so it
does not matter when in the visit the storage is read. -/
def loadData (saved : Kind → Option (List Tag)) (screen : Screen) : Screen :=
  ⟨fun kind => (saved kind).getD (screen.tags kind), true⟩

/-- The effects of the lists `loadData` has set. -/
def persistLoaded (saved : Kind → Option (List Tag)) (screen : Screen) :
    Kind → Option (List Tag) :=
  fun kind => if (saved kind).isSome then persist saved kind screen kind else saved kind

def Profile.step (s : Profile) : Act → Option Profile
  | .mount =>
    match s.screen with
    | none => some { s with screen := some ⟨initialTags, false⟩ }
    | some _ => none
  | .load =>
    match s.screen with
    | none => none
    | some screen =>
      if screen.dataLoaded then none
      else
        let loaded := loadData s.saved screen
        some ⟨persistLoaded s.saved loaded, some loaded⟩
  | .leave =>
    match s.screen with
    | none => none
    | some _ => some { s with screen := none }
  | .edit kind e =>
    match s.screen with
    | none => none
    | some screen =>
      match e.set (screen.tags kind) with
      | none => some s
      | some tags =>
        let edited := { screen with tags := Function.update screen.tags kind tags }
        some ⟨persist s.saved kind edited, some edited⟩

/-- The lists with every edit applied, kept beside the run. -/
abbrev History := Kind → List Tag

def note (_ : Profile) : Act → History → History
  | .edit kind e, edited => Function.update edited kind (e.apply (edited kind))
  | _, edited => edited

abbrev step : Profile × History → Act → Option (Profile × History) :=
  withHistory Profile.step note

/-- No visit yet, and in the storage what earlier ones left there. -/
def start (saved : Kind → Option (List Tag)) : Profile × History :=
  (⟨saved, none⟩, fun kind => (saved kind).getD (initialTags kind))

/-- Once loaded, the screen shows the lists as edited. -/
def Exact (p : Profile × History) : Prop :=
  ∀ screen ∈ p.1.screen, screen.dataLoaded = true → ∀ kind, screen.tags kind = p.2 kind

/-- A list is edited before the load is over only if nothing is saved for it, or the edit
changes nothing there; the screen is left only if what has never been saved is what a visit
starts from. -/
def Careful (p : Profile × History) : Act → Prop
  | .edit kind e =>
    (∀ screen ∈ p.1.screen, screen.dataLoaded = true) ∨ ∀ tags ∈ p.1.saved kind, e.apply tags = tags
  | .leave => ∀ screen ∈ p.1.screen, ∀ kind, p.1.saved kind = none →
      screen.tags kind = initialTags kind
  | _ => True

instance (p : Profile × History) : Decidable (Exact p) :=
  inferInstanceAs (Decidable (∀ _ ∈ _, _))

instance (p : Profile × History) : ∀ a, Decidable (Careful p a)
  | .edit _ _ => inferInstanceAs (Decidable ((∀ _ ∈ _, _) ∨ ∀ _ ∈ _, _))
  | .leave => inferInstanceAs (Decidable (∀ _ ∈ _, _))
  | .mount | .load => .isTrue trivial

/-! ## Steps -/

/-- The screen after an edit. -/
def Screen.edited (screen : Screen) (kind : Kind) (e : Edit) : Screen :=
  { screen with tags := Function.update screen.tags kind (e.apply (screen.tags kind)) }

theorem edited_self (screen : Screen) (kind : Kind) (e : Edit) :
    (screen.edited kind e).tags kind = e.apply (screen.tags kind) := Function.update_self ..

theorem edited_other {kind other : Kind} (h : other ≠ kind) (screen : Screen) (e : Edit) :
    (screen.edited kind e).tags other = screen.tags other := Function.update_of_ne h ..

/-- What is saved after an edit. -/
def persistEdit (saved : Kind → Option (List Tag)) (screen : Screen) (kind : Kind) (e : Edit) :
    Kind → Option (List Tag) :=
  if (e.set (screen.tags kind)).isSome then persist saved kind (screen.edited kind e) else saved

/-- What each action does. -/
inductive Stepped (s : Profile) : Act → Profile → Prop where
  | mount (h : s.screen = none) : Stepped s .mount ⟨s.saved, some ⟨initialTags, false⟩⟩
  | load (screen : Screen) (h : s.screen = some screen) (hl : screen.dataLoaded = false) :
    Stepped s .load ⟨s.saved, some (loadData s.saved screen)⟩
  | leave (screen : Screen) (h : s.screen = some screen) : Stepped s .leave ⟨s.saved, none⟩
  | edit (kind : Kind) (e : Edit) (screen : Screen) (h : s.screen = some screen) :
    Stepped s (.edit kind e)
      ⟨persistEdit s.saved screen kind e, some (screen.edited kind e)⟩

/-- What `loadData` has read is written back. -/
theorem persistLoaded_eq (saved : Kind → Option (List Tag)) (screen : Screen) :
    persistLoaded saved (loadData saved screen) = saved := by
  funext kind
  unfold persistLoaded persist
  cases h : saved kind with
  | none => rfl
  | some tags => simp [loadData, h]

theorem apply_of_set_none {e : Edit} {tags : List Tag} (h : e.set tags = none) :
    e.apply tags = tags := by
  rw [Edit.apply, h, Option.getD_none]

/-- Before the load is over nothing is. -/
theorem persistEdit_early {saved : Kind → Option (List Tag)} {screen : Screen}
    (hl : screen.dataLoaded = false) (kind : Kind) (e : Edit) :
    persistEdit saved screen kind e = saved := by
  simp [persistEdit, persist, Screen.edited, hl]

theorem stepped_edit {s t : Profile} {kind : Kind} {e : Edit} {screen : Screen}
    (h : s.screen = some screen) (hs : s.step (.edit kind e) = some t) :
    Stepped s (.edit kind e) t := by
  have hstep := Stepped.edit kind e screen h
  simp only [Profile.step, h] at hs
  unfold persistEdit Screen.edited at hstep
  cases hset : e.set (screen.tags kind) with
  | none =>
    rw [hset] at hs hstep
    cases hs
    rw [apply_of_set_none hset, Function.update_eq_self, ← h] at hstep
    exact hstep
  | some tags =>
    rw [hset] at hs hstep
    cases hs
    rw [Edit.apply, hset] at hstep
    exact hstep

theorem stepped {s t : Profile} {a : Act} (hs : s.step a = some t) : Stepped s a t := by
  cases hscreen : s.screen with
  | none =>
    cases a with
    | mount =>
      simp only [Profile.step, hscreen] at hs
      cases hs
      exact .mount hscreen
    | load => simp [Profile.step, hscreen] at hs
    | leave => simp [Profile.step, hscreen] at hs
    | edit _ _ => simp [Profile.step, hscreen] at hs
  | some screen =>
    cases a with
    | mount => simp [Profile.step, hscreen] at hs
    | load =>
      simp only [Profile.step, hscreen] at hs
      split at hs
      · cases hs
      · next hl =>
        cases hs
        rw [persistLoaded_eq]
        exact .load screen hscreen (Bool.eq_false_iff.mpr hl)
    | leave =>
      simp only [Profile.step, hscreen] at hs
      cases hs
      exact .leave screen hscreen
    | edit _ _ => exact stepped_edit hscreen hs

/-! ## Careful runs -/

/-- What is saved, and what is not yet, is what the user has edited. -/
structure Tracks (p : Profile × History) : Prop where
  saved : ∀ kind tags, p.1.saved kind = some tags → tags = p.2 kind
  away : p.1.screen = none → ∀ kind, p.1.saved kind = none → p.2 kind = initialTags kind
  unsaved : ∀ screen, p.1.screen = some screen → ∀ kind, p.1.saved kind = none →
    screen.tags kind = p.2 kind
  exact : Exact p

theorem tracks_start (saved : Kind → Option (List Tag)) : Tracks (start saved) where
  saved kind tags h := by
    have hsaved : saved kind = some tags := h
    simp [start, hsaved]
  away _ kind h := by
    have hsaved : saved kind = none := h
    simp [start, hsaved]
  unsaved screen h := by cases h
  exact screen h := by cases h

theorem tracks_load {s : Profile} {edited : History} {screen : Screen}
    (h : Tracks (s, edited)) (hscreen : s.screen = some screen) :
    Tracks (⟨s.saved, some (loadData s.saved screen)⟩, edited) := by
  have hloaded (kind : Kind) : (loadData s.saved screen).tags kind = edited kind := by
    show (s.saved kind).getD (screen.tags kind) = edited kind
    cases hsaved : s.saved kind with
    | none => exact h.unsaved screen hscreen kind hsaved
    | some tags => exact h.saved kind tags hsaved
  refine ⟨h.saved, fun hnone => (by cases hnone), ?_, ?_⟩
  · intro screen' hs kind _
    cases hs
    exact hloaded kind
  · intro screen' hs _ kind
    cases hs
    exact hloaded kind

/-- An edit made before the load is over is not saved. -/
theorem tracks_edit_early {s : Profile} {edited : History} {screen : Screen} {kind : Kind}
    {e : Edit} (h : Tracks (s, edited)) (hscreen : s.screen = some screen)
    (hl : screen.dataLoaded = false) (hsame : ∀ tags ∈ s.saved kind, e.apply tags = tags) :
    Tracks (⟨s.saved, some (screen.edited kind e)⟩, note s (.edit kind e) edited) where
  saved kind' tags hsaved := by
    have htags : tags = edited kind' := h.saved kind' tags hsaved
    show tags = Function.update edited kind (e.apply (edited kind)) kind'
    by_cases hk : kind' = kind
    · subst hk
      rw [Function.update_self, ← htags]
      exact (hsame tags hsaved).symm
    · rw [Function.update_of_ne hk, htags]
  away hnone := by cases hnone
  unsaved screen' hs kind' hsaved := by
    cases hs
    have htags : screen.tags kind' = edited kind' := h.unsaved screen hscreen kind' hsaved
    show Function.update screen.tags kind _ kind' = Function.update edited kind _ kind'
    by_cases hk : kind' = kind
    · subst hk
      rw [Function.update_self, Function.update_self, htags]
    · rw [Function.update_of_ne hk, Function.update_of_ne hk, htags]
  exact screen' hs hloaded := by
    cases hs
    exact absurd (hl.symm.trans hloaded) Bool.false_ne_true

/-- After it, an edit saves the list it changes. -/
theorem persistEdit_cases {saved : Kind → Option (List Tag)} {screen : Screen}
    (hl : screen.dataLoaded = true) {kind kind' : Kind} {e : Edit} {tags : List Tag}
    (h : persistEdit saved screen kind e kind' = some tags) :
    (saved kind' = some tags ∧ (screen.edited kind e).tags kind' = screen.tags kind') ∨
      tags = (screen.edited kind e).tags kind' := by
  by_cases hk : kind' = kind
  · subst hk
    cases hset : e.set (screen.tags kind') with
    | none =>
      rw [edited_self, apply_of_set_none hset]
      exact .inl ⟨by simpa [persistEdit, hset] using h, rfl⟩
    | some new =>
      have hnew : some ((screen.edited kind' e).tags kind') = some tags := by
        simpa [persistEdit, hset, persist, Screen.edited, hl] using h
      exact .inr (Option.some.inj hnew).symm
  · refine .inl ⟨?_, edited_other hk screen e⟩
    unfold persistEdit persist at h
    split at h
    · split at h
      · rwa [Function.update_of_ne hk] at h
      · exact h
    · exact h

/-- What an edit leaves saved was so before or is what is shown. -/
theorem persistEdit_some {saved : Kind → Option (List Tag)} {screen : Screen} {kind kind' : Kind}
    {e : Edit} {tags : List Tag} (h : persistEdit saved screen kind e kind' = some tags) :
    saved kind' = some tags ∨ tags = (screen.edited kind e).tags kind' := by
  cases hl : screen.dataLoaded with
  | true => exact (persistEdit_cases hl h).imp_left And.left
  | false =>
    rw [persistEdit_early hl] at h
    exact .inl h

/-- Once loaded, what is saved is what is shown. -/
theorem persistEdit_late {saved : Kind → Option (List Tag)} {screen : Screen}
    (hl : screen.dataLoaded = true)
    (hsaved : ∀ kind tags, saved kind = some tags → tags = screen.tags kind) (kind : Kind)
    (e : Edit) {kind' : Kind} {tags : List Tag}
    (h : persistEdit saved screen kind e kind' = some tags) :
    tags = (screen.edited kind e).tags kind' := by
  rcases persistEdit_cases hl h with ⟨hold, hsame⟩ | hnew
  · rw [hsame]
    exact hsaved kind' tags hold
  · exact hnew

theorem tracks_edit_late {s : Profile} {edited : History} {screen : Screen} {kind : Kind}
    {e : Edit} (h : Tracks (s, edited)) (hscreen : s.screen = some screen)
    (hl : screen.dataLoaded = true) :
    Tracks (⟨persistEdit s.saved screen kind e, some (screen.edited kind e)⟩,
      note s (.edit kind e) edited) := by
  have hall : screen.tags = edited := funext (h.exact screen hscreen hl)
  have hshown : (screen.edited kind e).tags = note s (.edit kind e) edited := by
    rw [← hall]
    rfl
  refine ⟨fun kind' tags hsaved => ?_, fun hnone => (by cases hnone), ?_, ?_⟩
  · refine (persistEdit_late hl (fun k l hk => ?_) kind e hsaved).trans (congrFun hshown kind')
    rw [hall]
    exact h.saved k l hk
  · intro screen' hs kind' _
    cases hs
    exact congrFun hshown kind'
  · intro screen' hs _ kind'
    cases hs
    exact congrFun hshown kind'

/-- The step lemma. -/
theorem tracks_step {p q : Profile × History} {a : Act} (h : Tracks p) (hg : Careful p a)
    (hs : step p a = some q) : Tracks q := by
  obtain ⟨s, edited⟩ := p
  obtain ⟨t, edited'⟩ := q
  obtain ⟨hst, rfl⟩ := withHistory_some.mp hs
  cases stepped hst with
  | mount hnone =>
    refine ⟨h.saved, fun hsome => (by cases hsome), ?_, ?_⟩
    · intro screen hscreen kind hsaved
      cases hscreen
      exact (h.away hnone kind hsaved).symm
    · intro screen hscreen hloaded
      cases hscreen
      cases hloaded
  | load screen hscreen _ => exact tracks_load h hscreen
  | leave screen hscreen =>
    refine ⟨h.saved, fun _ kind hsaved => ?_, fun _ hnone => (by cases hnone),
      fun _ hnone => (by cases hnone)⟩
    exact (h.unsaved screen hscreen kind hsaved).symm.trans (hg screen hscreen kind hsaved)
  | edit kind e screen hscreen =>
    cases hl : screen.dataLoaded with
    | true => exact tracks_edit_late h hscreen hl
    | false =>
      rw [persistEdit_early hl]
      refine tracks_edit_early h hscreen hl (hg.resolve_left fun hloaded => ?_)
      exact Bool.false_ne_true (hl.symm.trans (hloaded screen hscreen))

/-! ## Steps that lose an edit -/

theorem step_load {saved : Kind → Option (List Tag)} {screen : Screen} (edited : History)
    (hl : screen.dataLoaded = false) :
    step (⟨saved, some screen⟩, edited) .load =
      some (⟨saved, some (loadData saved screen)⟩, edited) := by
  refine withHistory_some.mpr ⟨?_, rfl⟩
  simp only [Profile.step, hl, Bool.false_eq_true, if_false, persistLoaded_eq]

/-- A list never saved starts the next visit as it started this one. -/
theorem careless_leave {s : Profile} {edited : History} {screen : Screen} {kind : Kind}
    (h : Tracks (s, edited)) (hscreen : s.screen = some screen) (hsaved : s.saved kind = none)
    (hne : screen.tags kind ≠ initialTags kind) :
    ∃ r, Reach step Careful (⟨s.saved, none⟩, edited) r ∧ ¬ Exact r := by
  have hmount : Reach step Careful (⟨s.saved, none⟩, edited)
      (⟨s.saved, some ⟨initialTags, false⟩⟩, edited) := .next (a := .mount) .start trivial rfl
  refine ⟨_, hmount.next (a := .load) trivial (step_load edited rfl), fun hexact => hne ?_⟩
  have hshown : (s.saved kind).getD (initialTags kind) = edited kind := hexact _ rfl rfl kind
  have hedited : screen.tags kind = edited kind := h.unsaved screen hscreen kind hsaved
  rw [hedited, ← hshown, hsaved, Option.getD_none]

/-- The load of this visit shows the saved list, without the edit. -/
theorem careless_edit {s : Profile} {edited : History} {screen : Screen} {kind : Kind}
    {e : Edit} {tags : List Tag} (h : Tracks (s, edited)) (hl : screen.dataLoaded = false)
    (hsaved : s.saved kind = some tags) (hne : e.apply tags ≠ tags) :
    ∃ r, Reach step Careful
      (⟨s.saved, some (screen.edited kind e)⟩, note s (.edit kind e) edited) r ∧ ¬ Exact r := by
  refine ⟨_, .next (a := .load) .start trivial (step_load _ hl), fun hexact => hne ?_⟩
  have hshown : (s.saved kind).getD ((screen.edited kind e).tags kind) =
      Function.update edited kind (e.apply (edited kind)) kind := hexact _ rfl rfl kind
  have hedited : tags = edited kind := h.saved kind tags hsaved
  rw [hsaved, Option.getD_some, Function.update_self, ← hedited] at hshown
  exact hshown.symm

/-- After a step that is not careful the next load shows other lists than those edited. -/
theorem careless {p q : Profile × History} {a : Act} (h : Tracks p) (hg : ¬ Careful p a)
    (hs : step p a = some q) : ∃ r, Reach step Careful q r ∧ ¬ Exact r := by
  obtain ⟨s, edited⟩ := p
  obtain ⟨t, edited'⟩ := q
  obtain ⟨hst, rfl⟩ := withHistory_some.mp hs
  cases stepped hst with
  | mount _ => exact absurd trivial hg
  | load _ _ _ => exact absurd trivial hg
  | leave screen hscreen =>
    simp only [Careful, not_forall] at hg
    obtain ⟨screen', hscreen', kind, hsaved, hne⟩ := hg
    cases Option.some.inj (hscreen.symm.trans hscreen')
    exact careless_leave h hscreen hsaved hne
  | edit kind e screen hscreen =>
    simp only [Careful, not_or, not_forall] at hg
    obtain ⟨⟨screen', hscreen', hloaded⟩, tags, hsaved, hne⟩ := hg
    cases Option.some.inj (hscreen.symm.trans hscreen')
    have hl : screen.dataLoaded = false := Bool.eq_false_iff.mpr hloaded
    rw [persistEdit_early hl]
    exact careless_edit h hl hsaved hne

/-- **Tags persist as edited** in a careful run, whatever was saved at its start, and a step
keeps that so, whatever careful steps follow, exactly if it is careful. -/
theorem tags_persist {saved : Kind → Option (List Tag)} {p : Profile × History}
    (h : Reach step Careful (start saved) p) :
    Exact p ∧ ∀ a q, step p a = some q →
      (Careful p a ↔ ∀ r, Reach step Careful q r → Exact r) := by
  have htracks : ∀ r, Reach step Careful (start saved) r → Tracks r :=
    fun _ hr => hr.invariant (tracks_start saved) fun _ _ _ hp hg hs => tracks_step hp hg hs
  refine ⟨(htracks p h).exact, fun a q hs => ?_⟩
  exact h.guard_iff (fun r hr => (htracks r hr).exact) hs fun hg => careless (htracks p h) hg hs

/-- Kosher is added once the first visit has loaded, and is there on the second one. -/
def addKosher : List Act :=
  [.mount, .load, .edit .dietary (.add ⟨3, "Kosher", "#880E4F"⟩), .leave, .mount, .load]

theorem tags_persist_kosher : ∃ p : Profile × History,
    (∃ screen ∈ p.1.screen, screen.dataLoaded = true) ∧ Exact p := by
  obtain ⟨p, hp, hscreen⟩ := Reach.of_exec step Careful (start fun _ => none) addKosher
    (fun p => ∃ screen ∈ p.1.screen, screen.dataLoaded = true) (by decide)
  exact ⟨p, hscreen, (tags_persist hp).1⟩

/-- Added before the load is over, it is shown for the rest of the visit and never saved. -/
theorem not_tags_persist : ¬ ∀ (saved : Kind → Option (List Tag)) (p : Profile × History),
    Reach step Free (start saved) p → Exact p := by
  intro h
  obtain ⟨p, hp, hlost⟩ := Reach.of_exec step Free (start fun _ => none)
    [.mount, .edit .dietary (.add ⟨3, "Kosher", "#880E4F"⟩), .load, .leave, .mount, .load]
    (fun p => ¬ Exact p) (by decide)
  exact hlost (h _ p hp)

end IngrediGo.ProfileScreen
