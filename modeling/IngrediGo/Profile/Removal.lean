import IngrediGo.Lib.Lists
import IngrediGo.Profile.Tags

/-!
# Removing a tag

`removeTag` drops every tag with the id tapped, and a tag's id is the reading of `Date.now()`
it was added at. `addTag` checks that its value is new; nothing checks the reading
(`FreshKey Tag.id`). Values are therefore distinct in every run, ids in the runs whose
readings are new where they are used, and there a tap removes the one tag tapped.
-/

namespace IngrediGo.ProfileScreen

open Lib

variable {κ : Type} {key : Tag → κ}

/-- Every list shown or saved has distinct keys. -/
structure KeysDistinct (key : Tag → κ) (s : Profile) : Prop where
  saved : ∀ kind tags, s.saved kind = some tags → (tags.map key).Nodup
  shown : ∀ screen ∈ s.screen, ∀ kind, ((screen.tags kind).map key).Nodup

/-- A tag that is added has a key its list does not have yet. -/
def FreshKey (key : Tag → κ) (s : Profile) : Act → Prop
  | .edit kind (.add tag) => ∀ screen ∈ s.screen,
      tag.value ∉ (screen.tags kind).map (·.value) → key tag ∉ (screen.tags kind).map key
  | _ => True

instance [DecidableEq κ] (s : Profile) : ∀ a, Decidable (FreshKey key s a)
  | .edit _ (.add _) => inferInstanceAs (Decidable (∀ _ ∈ _, _ → _))
  | .edit _ (.remove _) | .mount | .load | .leave => .isTrue trivial

/-- The clock reads what is not the id of a tag of the list that gets one. -/
abbrev FreshReading : Profile → Act → Prop := FreshKey Tag.id

/-- The lists of the screen have distinct values and distinct ids, and a tap on any of their
tags removes that tag and nothing else. -/
structure RemovesTapped (s : Profile) : Prop where
  values : ∀ screen ∈ s.screen, ∀ kind, ((screen.tags kind).map (·.value)).Nodup
  ids : ∀ screen ∈ s.screen, ∀ kind, ((screen.tags kind).map (·.id)).Nodup
  removes : ∀ screen ∈ s.screen, ∀ kind, ∀ tag ∈ screen.tags kind,
    ∃ t screen', s.step (.edit kind (.remove tag.id)) = some t ∧ t.screen = some screen' ∧
      screen'.tags kind = (screen.tags kind).erase tag ∧
      ∀ other ≠ kind, screen'.tags other = screen.tags other

/-! ## Edits -/

theorem addTag_apply (tags : List Tag) (tag : Tag) :
    (Edit.add tag).apply tags =
      if tag.value ∈ tags.map (·.value) then tags else tags ++ [tag] := by
  show (addTag tags tag).getD tags = _
  unfold addTag
  by_cases h : tag.value ∈ tags.map (·.value)
  · rw [if_pos h, (Keyed.any_key Tag.value).mpr h]
    rfl
  · rw [if_neg h, Bool.eq_false_iff.mpr (mt (Keyed.any_key Tag.value).mp h)]
    rfl

/-- An edit keeps the keys distinct if a tag it adds has a new one. -/
theorem nodup_apply {tags : List Tag} {e : Edit} (h : (tags.map key).Nodup)
    (hadd : ∀ tag, e = .add tag → tag.value ∉ tags.map (·.value) → key tag ∉ tags.map key) :
    ((e.apply tags).map key).Nodup := by
  cases e with
  | add tag =>
    rw [addTag_apply]
    split
    · exact h
    · next hvalue => exact Keyed.nodup_keys_concat h (hadd tag rfl hvalue)
  | remove id => exact Keyed.nodup_keys_filter h

/-! ## Runs -/

/-- The step lemma, for any key the built-in tags do not repeat. -/
theorem keysDistinct_step {s t : Profile} {a : Act}
    (h0 : ∀ kind, ((initialTags kind).map key).Nodup) (h : KeysDistinct key s)
    (hg : FreshKey key s a) (hs : s.step a = some t) : KeysDistinct key t := by
  cases stepped hs with
  | mount _ =>
    refine ⟨h.saved, fun screen hscreen kind => ?_⟩
    cases hscreen
    exact h0 kind
  | load screen hscreen _ =>
    refine ⟨h.saved, fun screen' hscreen' kind => ?_⟩
    cases hscreen'
    show (((s.saved kind).getD (screen.tags kind)).map key).Nodup
    cases hsaved : s.saved kind with
    | none => exact h.shown screen hscreen kind
    | some tags => exact h.saved kind tags hsaved
  | leave screen hscreen => exact ⟨h.saved, fun screen hnone => by cases hnone⟩
  | edit kind e screen hscreen =>
    have hshown : ∀ kind', (((screen.edited kind e).tags kind').map key).Nodup := by
      intro kind'
      by_cases hk : kind' = kind
      · subst hk
        rw [edited_self]
        refine nodup_apply (h.shown screen hscreen kind') fun tag he hvalue => ?_
        subst he
        exact hg screen hscreen hvalue
      · rw [edited_other hk]
        exact h.shown screen hscreen kind'
    constructor
    · intro kind' tags hsaved
      rcases persistEdit_some hsaved with hold | rfl
      · exact h.saved kind' tags hold
      · exact hshown kind'
    · intro screen' hscreen'
      cases hscreen'
      exact hshown

/-- The start of the first visit ever. -/
def Profile.fresh : Profile := ⟨fun _ => none, none⟩

theorem keysDistinct_run {s : Profile} (h0 : ∀ kind, ((initialTags kind).map key).Nodup)
    (h : Reach Profile.step (FreshKey key) .fresh s) : KeysDistinct key s := by
  refine h.invariant ⟨fun kind tags hsaved => ?_, fun screen hscreen => ?_⟩
    fun _ _ _ hd hg hs => keysDistinct_step h0 hd hg hs
  · cases hsaved
  · cases hscreen

/-- **Values are distinct in every run**, whatever the clock reads. -/
theorem values_distinct {s : Profile} (h : Reach Profile.step Free .fresh s) :
    KeysDistinct Tag.value s := by
  refine keysDistinct_run (by decide) (h.mono fun s a _ => ?_)
  cases a with
  | edit kind e =>
    cases e with
    | add tag => exact fun _ _ hvalue => hvalue
    | remove id => trivial
  | mount => trivial
  | load => trivial
  | leave => trivial

/-- Distinct ids single out the tag tapped. -/
theorem removesTapped_of {s : Profile} (hvalues : KeysDistinct Tag.value s)
    (hids : KeysDistinct Tag.id s) : RemovesTapped s := by
  refine ⟨hvalues.shown, hids.shown, fun screen hscreen kind tag htag => ?_⟩
  obtain ⟨saved, shown⟩ := s
  obtain rfl : shown = some screen := hscreen
  refine ⟨_, screen.edited kind (.remove tag.id), rfl, rfl, ?_, fun other hother => ?_⟩
  · rw [edited_self]
    exact Keyed.drop_eq_erase (hids.shown screen rfl kind) htag
  · exact edited_other hother screen _

/-- A reading that is not new puts its id into a list twice. -/
theorem not_removesTapped_of_stale {s t : Profile} {a : Act} (hg : ¬ FreshReading s a)
    (hs : s.step a = some t) : ¬ RemovesTapped t := by
  cases stepped hs with
  | mount _ => exact absurd trivial hg
  | load _ _ _ => exact absurd trivial hg
  | leave _ _ => exact absurd trivial hg
  | edit kind e screen hscreen =>
    cases e with
    | remove id => exact absurd trivial hg
    | add tag =>
      simp only [FreshKey, not_forall, not_not] at hg
      obtain ⟨screen', hscreen', hvalue, hid⟩ := hg
      cases Option.some.inj (hscreen.symm.trans hscreen')
      intro h
      have hnodup := h.ids _ rfl kind
      rw [edited_self, addTag_apply, if_neg hvalue, List.map_append, List.nodup_append] at hnodup
      exact hnodup.2.2 tag.id hid tag.id (.head _) rfl

/-- **A tap removes exactly the tag tapped** as long as every tag is added at a reading its
list does not have yet; the first other reading ends that. -/
theorem removal_exact {s : Profile} (h : Reach Profile.step FreshReading .fresh s) :
    RemovesTapped s ∧ ∀ a t, s.step a = some t → (RemovesTapped t ↔ FreshReading s a) := by
  have hids : KeysDistinct Tag.id s := keysDistinct_run (by decide) h
  have hvalues : KeysDistinct Tag.value s := values_distinct h.free
  refine ⟨removesTapped_of hvalues hids, fun a t hs => ⟨fun ht => ?_, fun hg => ?_⟩⟩
  · by_contra hg
    exact not_removesTapped_of_stale hg hs ht
  · exact removesTapped_of (values_distinct (h.free.next trivial hs))
      (keysDistinct_step (by decide) hids hg hs)

/-- Two diets are added at different times, and one of the built-in ones is removed. -/
theorem removal_exact_twoDiets : ∃ s : Profile,
    (∃ screen ∈ s.screen,
      (screen.tags .dietary).map (·.value) = ["Vegan", "Kosher", "Pescatarian"]) ∧
      RemovesTapped s := by
  obtain ⟨s, hs, hscreen⟩ := Reach.of_exec Profile.step FreshReading .fresh
    [.mount, .load, .edit .dietary (.add ⟨7, "Kosher", "#880E4F"⟩),
      .edit .dietary (.add ⟨8, "Pescatarian", "#4A148C"⟩), .edit .dietary (.remove 1)]
    (fun s => ∃ screen ∈ s.screen,
      (screen.tags .dietary).map (·.value) = ["Vegan", "Kosher", "Pescatarian"]) (by decide)
  exact ⟨s, hscreen, (removal_exact hs).1⟩

/-- Two diets are added at one reading: a tap on one of them removes both. -/
theorem not_removal_exact : ¬ ∀ s : Profile, Reach Profile.step Free .fresh s →
    RemovesTapped s := by
  intro h
  obtain ⟨s, hs, screen, hscreen, hdup⟩ := Reach.of_exec Profile.step Free .fresh
    [.mount, .load, .edit .dietary (.add ⟨7, "Kosher", "#880E4F"⟩),
      .edit .dietary (.add ⟨7, "Pescatarian", "#4A148C"⟩)]
    (fun s => ∃ screen ∈ s.screen, ¬ ((screen.tags .dietary).map (·.id)).Nodup) (by decide)
  exact hdup ((h s hs).ids screen hscreen .dietary)

end IngrediGo.ProfileScreen
