import IngrediGo.Stores.QuietTaps

/-!
# Hearts that are out of date

Any number of Location screens, of any places and on any devices, over one store that the
Favorites screens also write. A Location screen loads the favourites when it is opened and after
its own taps only, so its hearts may be out of date. A tap still asks for what its heart does not
show, and never for the other thing.

`stale_hearts`: whichever screens the taps are made on, one after the other, the store has an id
exactly if the last tap on it that reached the store was on an empty heart, or if there was none
and the last list another screen has written had it.
-/

namespace IngrediGo.LocationScreen

open FavoritesService Lib

/-- The store, and the screens that are open. -/
structure Devices where
  file : List Favorite
  opened : List (Place × Screen)

namespace Devices

inductive Act where
  /-- A screen is opened, its first load turning out as `get`. -/
  | openLocation (place : Place) (get : Outcome)
  /-- A tap on a screen, once its requests and the reload are over. -/
  | tap (i : ℕ) (id : ItemId) (now : String) (get post reload : Outcome)
  /-- Another screen posts a list of favourites. -/
  | write (favorites : List Favorite)

def start (file : List Favorite) : Devices := ⟨file, []⟩

/-- What a tap on an open screen leads to. -/
def tapped (d : Devices) (o : Place × Screen) (id : ItemId) (now : String)
    (get post reload : Outcome) : System :=
  toggleFavorite.settled o.1 id now get post reload ⟨d.file, o.2⟩

def step (d : Devices) : Act → Option Devices
  | .openLocation place get => some { d with
      opened := d.opened ++ [(place, Screen.mounted.loadFavorites place d.file get)] }
  | .tap i id now get post reload => d.opened[i]?.map fun o =>
      let s := d.tapped o id now get post reload
      ⟨s.file, d.opened.set i (o.1, s.screen)⟩
  | .write favorites => some { d with file := favorites }

/-- The read a tap's edit starts with is answered, and lists are posted with distinct ids;
everything else may fail. -/
def ReadsAnswered (_ : Devices) : Act → Prop
  | .openLocation _ _ => True
  | .tap _ _ _ get _ _ => get = .answered
  | .write favorites => UniqueIds favorites

instance (d : Devices) : ∀ a, Decidable (ReadsAnswered d a)
  | .tap _ _ _ _ _ _ => inferInstanceAs (Decidable (_ = _))
  | .openLocation _ _ => .isTrue trivial
  | .write _ => inferInstanceAs (Decidable (List.Nodup _))

/-- The row a tap is made on, if the tap sends anything: an empty heart of a recipe without a
name does not. -/
def sends (o : Place × Screen) (id : ItemId) : Option Row :=
  (o.2.ingredientsList.find? (·.id = id)).filter fun row =>
    row.isFavorite || o.1.recipe.name.isSome

end Devices

structure Noted where
  /-- The list that was last written by another screen. -/
  written : List Favorite
  /-- For each id, whether the last tap on it that reached the store since was on an empty
  heart. -/
  wanted : ItemId → Option Bool
  /-- For each screen, whether it was loaded since anything but its own taps reached the store. -/
  current : List Bool

/-- The id should be in the store. -/
def Noted.asks (noted : Noted) (id : ItemId) : Bool :=
  (noted.wanted id).getD (decide (id ∈ favoriteIds noted.written))

def noteTap (d : Devices) (a : Devices.Act) (noted : Noted) : Noted :=
  match a with
  | .openLocation _ get => { noted with current := noted.current ++ [decide (get = .answered)] }
  | .tap i id _ _ post reload =>
    match d.opened[i]?.bind (Devices.sends · id) with
    | none => noted
    | some row =>
      let others := if post = .answered then noted.current.map fun _ => false else noted.current
      { noted with
        wanted :=
          if post = .answered then Function.update noted.wanted id (some !row.isFavorite)
          else noted.wanted
        current := others.set i (decide (reload = .answered)) }
  | .write favorites => ⟨favorites, fun _ => none, noted.current.map fun _ => false⟩

abbrev Tapping := Devices × Noted

def Tapping.step : Tapping → Devices.Act → Option Tapping := withHistory Devices.step noteTap

def Tapping.start (file : List Favorite) : Tapping := (.start file, ⟨file, fun _ => none, []⟩)

/-! ## One edit -/

variable {file : List Favorite} {id j : ItemId} {favorite : Favorite} {post : Outcome}

theorem mem_removeFavorite_ids :
    j ∈ favoriteIds (removeFavorite file id .answered post).1 ↔
      j ∈ favoriteIds file ∧ ¬ (post = .answered ∧ j = id) := by
  rw [removeFavorite, save_store, getFavorites_answered]
  by_cases hpost : post = .answered
  · rw [if_pos hpost, mem_removed]
    simp [hpost]
  · simp [hpost]

theorem mem_addFavorite_ids :
    j ∈ favoriteIds (addFavorite file favorite .answered post).1 ↔
      j ∈ favoriteIds file ∨ post = .answered ∧ j = favorite.id := by
  rw [addFavorite, getFavorites_answered]
  cases hadded : addFavorite.updatedFavorites file favorite with
  | none =>
    refine (or_iff_left_of_imp ?_).symm
    rintro ⟨-, rfl⟩
    exact added_none.mp hadded
  | some l =>
    obtain ⟨-, rfl⟩ := added_some.mp hadded
    show j ∈ favoriteIds (save file _ post _ _).1 ↔ _
    rw [save_store]
    by_cases hpost : post = .answered
    · rw [if_pos hpost]
      simp [hpost, favoriteIds]
    · simp [hpost]

theorem uniqueIds_removeFavorite (h : UniqueIds file) (id : ItemId) (post : Outcome) :
    UniqueIds (removeFavorite file id .answered post).1 := by
  rw [removeFavorite, save_store, getFavorites_answered]
  split
  · exact Keyed.nodup_keys_filter h
  · exact h

theorem uniqueIds_addFavorite (h : UniqueIds file) (favorite : Favorite) (post : Outcome) :
    UniqueIds (addFavorite file favorite .answered post).1 := by
  rw [addFavorite, getFavorites_answered]
  cases hadded : addFavorite.updatedFavorites file favorite with
  | none => exact h
  | some l =>
    obtain ⟨hnot, rfl⟩ := added_some.mp hadded
    show UniqueIds (save file _ post _ _).1
    rw [save_store]
    split
    · exact Keyed.nodup_keys_concat h hnot
    · exact h

/-- An edit that is not posted changes nothing. -/
theorem removeFavorite_unposted (file : List Favorite) (id : ItemId) (h : post ≠ .answered) :
    (removeFavorite file id .answered post).1 = file := by
  rw [removeFavorite, save_store, if_neg h]

theorem addFavorite_unposted (file : List Favorite) (favorite : Favorite) (h : post ≠ .answered) :
    (addFavorite file favorite .answered post).1 = file := by
  unfold addFavorite
  split
  · rfl
  · rw [save_store, if_neg h]

/-! ## One tap -/

section

variable {o : Place × Screen} {row : Row} (d : Devices) (now : String) (post reload : Outcome)

/-- A tap that sends nothing leaves the store and the hearts alone. -/
theorem tapped_of_none (h : Devices.sends o id = none) :
    (d.tapped o id now .answered post reload).file = d.file ∧
      (d.tapped o id now .answered post reload).screen.ingredientsList = o.2.ingredientsList := by
  unfold Devices.tapped
  cases hfind : o.2.ingredientsList.find? (·.id = id) with
  | none => simp only [toggleFavorite.settled, hfind, and_self]
  | some row =>
    rw [Devices.sends, hfind, Option.filter_eq_none_iff] at h
    have hsilent := h row rfl
    rw [Bool.or_eq_true, not_or, Bool.not_eq_true, Bool.not_eq_true,
      Option.isSome_eq_false_iff, Option.isNone_iff_eq_none] at hsilent
    rw [settled_nameless hfind hsilent.1 hsilent.2]
    exact ⟨rfl, rfl⟩

/-- A tap that sends something is an edit against the heart shown, and a reload. -/
theorem tapped_of_some (h : Devices.sends o id = some row) :
    ∃ (file' : List Favorite) (screen : Screen), d.tapped o id now .answered post reload =
        ⟨file', screen.loadFavorites o.1 file' reload⟩ ∧ screen.view.isSome = true ∧
      (row.isFavorite = true ∧ file' = (removeFavorite d.file id .answered post).1 ∨
        row.isFavorite = false ∧ ∃ favorite : Favorite, favorite.id = id ∧
          file' = (addFavorite d.file favorite .answered post).1) := by
  obtain ⟨hrow, hsends⟩ := Option.filter_eq_some_iff.mp h
  have hfind : (System.mk d.file o.2).screen.ingredientsList.find? (·.id = id) = some row := hrow
  have hview : (o.2.setIngredientsList (toggleFavorite.flipped o.2.ingredientsList id)).view.isSome
      = true := by
    rw [Screen.setIngredientsList, Option.isSome_map]
    exact isSome_of_find hrow
  unfold Devices.tapped
  cases hrow : row.isFavorite with
  | true => exact ⟨_, _, settled_remove hfind hrow, hview, .inl ⟨rfl, rfl⟩⟩
  | false =>
    rw [hrow, Bool.false_or] at hsends
    obtain ⟨name, hname⟩ := Option.isSome_iff_exists.mp hsends
    obtain ⟨favorite, hid, hsettled⟩ := settled_add now .answered post reload hfind hrow hname
    exact ⟨_, _, hsettled, hview, .inr ⟨rfl, favorite, hid, rfl⟩⟩

/-- What a tap that sends something does to the store, and to the hearts of its screen. -/
theorem tapped_spec (h : Devices.sends o id = some row) :
    (∀ j, j ∈ favoriteIds (d.tapped o id now .answered post reload).file ↔
      if post = .answered ∧ j = id then row.isFavorite = false else j ∈ favoriteIds d.file) ∧
    (UniqueIds d.file → UniqueIds (d.tapped o id now .answered post reload).file) ∧
    (post ≠ .answered → (d.tapped o id now .answered post reload).file = d.file) ∧
    (reload = .answered → HeartsRight (d.tapped o id now .answered post reload).file
      (d.tapped o id now .answered post reload).screen) := by
  obtain ⟨file', screen, htapped, hview, hedit⟩ := tapped_of_some d now post reload h
  rw [htapped]
  refine ⟨fun j => ?_, fun hunique => ?_, fun hpost => ?_, ?_⟩
  · rcases hedit with ⟨hrow, rfl⟩ | ⟨hrow, favorite, rfl, rfl⟩
    · rw [mem_removeFavorite_ids, hrow]
      split
      · next hj => simp [hj]
      · next hj => simp [hj]
    · rw [mem_addFavorite_ids, hrow]
      split
      · next hj => simp [hj]
      · next hj => simp [hj]
  · rcases hedit with ⟨-, rfl⟩ | ⟨-, favorite, -, rfl⟩
    · exact uniqueIds_removeFavorite hunique id post
    · exact uniqueIds_addFavorite hunique favorite post
  · rcases hedit with ⟨-, rfl⟩ | ⟨-, favorite, -, rfl⟩
    · exact removeFavorite_unposted d.file id hpost
    · exact addFavorite_unposted d.file favorite hpost
  · rintro rfl
    exact (synced_load hview).hearts

end

/-! ## Runs -/

/-- The store is what the taps have asked for, and screens that are current show it. -/
structure Asked (p : Tapping) : Prop where
  unique : UniqueIds p.1.file
  ids : ∀ id, id ∈ favoriteIds p.1.file ↔ p.2.asks id = true
  length : p.2.current.length = p.1.opened.length
  hearts : ∀ (i : ℕ) (o : Place × Screen), p.1.opened[i]? = some o →
    p.2.current[i]? = some true → HeartsRight p.1.file o.2

theorem Asked.start (h : UniqueIds file) : Asked (.start file) :=
  ⟨h, fun _ => decide_eq_true_iff.symm, rfl, fun i o ho => by cases ho⟩

/-- A screen is opened. -/
theorem Asked.openLocation {p : Tapping} (h : Asked p) (place : Place) (get : Outcome) :
    Asked ({ p.1 with
      opened := p.1.opened ++ [(place, Screen.mounted.loadFavorites place p.1.file get)] },
      noteTap p.1 (.openLocation place get) p.2) := by
  refine ⟨h.unique, h.ids, ?_, fun i o ho hcurrent => ?_⟩
  · show (p.2.current ++ _).length = (p.1.opened ++ _).length
    rw [List.length_append, List.length_append, h.length]
    rfl
  · rcases getElem?_concat_some ho with hold | ⟨rfl, rfl⟩
    · rcases getElem?_concat_some hcurrent with hcurrent | ⟨rfl, -⟩
      · exact h.hearts i o hold hcurrent
      · have hlt := (List.getElem?_eq_some_iff.mp hold).1
        rw [h.length] at hlt
        exact absurd hlt (Nat.lt_irrefl _)
    · have hanswered : some (decide (get = .answered)) = some true := by
        rw [← hcurrent, ← h.length]
        exact List.getElem?_concat_length.symm
      cases of_decide_eq_true (Option.some.inj hanswered)
      exact (synced_opened place p.1.file).hearts

/-- A tap sends something. -/
theorem Asked.tap {p : Tapping} (h : Asked p) {i : ℕ} {o : Place × Screen} {row : Row}
    (ho : p.1.opened[i]? = some o) (hsends : Devices.sends o id = some row) (now : String)
    (post reload : Outcome) :
    Asked
      (⟨(p.1.tapped o id now .answered post reload).file,
        p.1.opened.set i (o.1, (p.1.tapped o id now .answered post reload).screen)⟩,
      noteTap p.1 (.tap i id now .answered post reload) p.2) := by
  obtain ⟨hids, hunique, hunposted, hright⟩ := tapped_spec p.1 now post reload hsends
  have hnote : noteTap p.1 (.tap i id now .answered post reload) p.2 =
      { p.2 with
        wanted :=
          if post = .answered then Function.update p.2.wanted id (some !row.isFavorite)
          else p.2.wanted
        current := (if post = .answered then p.2.current.map fun _ => false
          else p.2.current).set i (decide (reload = .answered)) } := by
    simp only [noteTap, ho, Option.bind_some, hsends]
  rw [hnote]
  refine ⟨hunique h.unique, fun j => (hids j).trans ?_, ?_, fun j o' ho' hcurrent => ?_⟩
  · rw [Noted.asks]
    by_cases hpost : post = .answered
    · simp only [hpost, if_true, true_and]
      by_cases hj : j = id
      · rw [if_pos hj, hj, Function.update_self, Option.getD_some, Bool.not_eq_true']
      · rw [if_neg hj, Function.update_of_ne hj]
        exact h.ids j
    · simp only [hpost, if_false, false_and]
      exact h.ids j
  · show (List.set _ i _).length = (List.set _ i _).length
    rw [List.length_set, List.length_set, ← h.length]
    split
    · exact List.length_map ..
    · rfl
  · rcases getElem?_set_some ho' with ⟨rfl, rfl⟩ | ⟨hij, hold⟩
    · rcases getElem?_set_some hcurrent with ⟨-, hreload⟩ | ⟨hne, -⟩
      · exact hright (of_decide_eq_true hreload.symm)
      · exact absurd rfl hne
    · rcases getElem?_set_some hcurrent with ⟨rfl, -⟩ | ⟨-, hcurrent⟩
      · exact absurd rfl hij
      · by_cases hpost : post = .answered
        · rw [if_pos hpost, List.getElem?_map] at hcurrent
          obtain ⟨_, -, hfalse⟩ := Option.map_eq_some_iff.mp hcurrent
          cases hfalse
        · rw [if_neg hpost] at hcurrent
          show HeartsRight (p.1.tapped o id now .answered post reload).file o'.2
          rw [hunposted hpost]
          exact h.hearts j o' hold hcurrent

/-- A tap sends nothing. -/
theorem Asked.silent {p : Tapping} (h : Asked p) {i : ℕ} {o : Place × Screen}
    (ho : p.1.opened[i]? = some o) (hsends : Devices.sends o id = none) (now : String)
    (post reload : Outcome) :
    Asked
      (⟨(p.1.tapped o id now .answered post reload).file,
        p.1.opened.set i (o.1, (p.1.tapped o id now .answered post reload).screen)⟩,
      noteTap p.1 (.tap i id now .answered post reload) p.2) := by
  have hnote : noteTap p.1 (.tap i id now .answered post reload) p.2 = p.2 := by
    simp only [noteTap, ho, Option.bind_some, hsends]
  obtain ⟨hfile, hrows⟩ := tapped_of_none p.1 now post reload hsends
  rw [hnote, hfile]
  refine ⟨h.unique, h.ids, ?_, fun j o' ho' hcurrent => ?_⟩
  · show p.2.current.length = (p.1.opened.set i _).length
    rw [List.length_set, h.length]
  · rcases getElem?_set_some ho' with ⟨rfl, rfl⟩ | ⟨-, hold⟩
    · show ∀ row ∈ (p.1.tapped o id now .answered post reload).screen.ingredientsList, _
      rw [hrows]
      exact h.hearts i o ho hcurrent
    · exact h.hearts j o' hold hcurrent

/-- Another screen writes. -/
theorem Asked.write {p : Tapping} (h : Asked p) {favorites : List Favorite}
    (hunique : UniqueIds favorites) :
    Asked ({ p.1 with file := favorites }, noteTap p.1 (.write favorites) p.2) := by
  refine ⟨hunique, fun _ => decide_eq_true_iff.symm, (List.length_map ..).trans h.length,
    fun i o _ hcurrent => ?_⟩
  have hnone : (p.2.current.map fun _ => false)[i]? = some true := hcurrent
  rw [List.getElem?_map] at hnone
  obtain ⟨_, -, hfalse⟩ := Option.map_eq_some_iff.mp hnone
  cases hfalse

/-- The step lemma. -/
theorem Asked.step {p q : Tapping} {a : Devices.Act} (h : Asked p)
    (hg : Devices.ReadsAnswered p.1 a) (hs : Tapping.step p a = some q) : Asked q := by
  obtain ⟨hstep, hnote⟩ := withHistory_some.mp hs
  obtain ⟨d, noted⟩ := q
  cases hnote
  cases a with
  | openLocation place get =>
    cases hstep
    exact h.openLocation place get
  | tap i id now get post reload =>
    cases hg
    obtain ⟨o, ho, rfl⟩ := Option.map_eq_some_iff.mp hstep
    cases hsends : Devices.sends o id with
    | none => exact h.silent ho hsends now post reload
    | some row => exact h.tap ho hsends now post reload
  | write favorites =>
    cases hstep
    exact h.write hg

end IngrediGo.LocationScreen
