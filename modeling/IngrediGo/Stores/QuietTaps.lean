import IngrediGo.Stores.Hearts

/-!
# Taps on a quiet network

One Location screen is the only writer, every request is answered, and each tap's requests
and reload are over before the next tap. The screen then stays a view of the store: an id is
toggled by every tap on one of its rows, and the hearts show which ids the store has.

An add needs the recipe's name: `quiet_taps_iff` says what becomes of a run on a recipe that
has none.
-/

namespace IngrediGo.LocationScreen

open FavoritesService NearbyStores Lib

/-! ## The rows, whatever the favourites -/

/-- The row with its heart as the favourites say. -/
def Row.withHeart (favorites : List Favorite) (row : Row) : Row :=
  { row with isFavorite := favorites.any (·.id = row.id) }

def View.withHearts (favorites : List Favorite) (view : View) : View :=
  { view with ingredientsList := view.ingredientsList.map (Row.withHeart favorites) }

theorem processedIngredient_withHeart (env : Env) (storeName : String) (recipe : Recipe)
    (favorites : List Favorite) (ingredientName : String) :
    processedIngredient env storeName recipe favorites ingredientName =
      (processedIngredient env storeName recipe [] ingredientName).map
        (Row.withHeart favorites) := by
  unfold processedIngredient
  rw [Option.map_bind]
  congr 1
  funext ingredients
  rw [Function.comp_apply, Option.map_map]
  rfl

/-- The hearts do not decide which rows are shown. -/
theorem shownRows_withHeart (favorites : List Favorite) (rows : List Row) :
    shownRows (rows.map (Row.withHeart favorites)) = (shownRows rows).withHearts favorites := by
  have hvalid : hasValidIngredients (rows.map (Row.withHeart favorites)) =
      hasValidIngredients rows := by
    rw [hasValidIngredients, List.any_map]
    rfl
  unfold shownRows
  rw [List.isEmpty_map, hvalid]
  split <;> rfl

/-- Two views of one place differ in their hearts only. -/
theorem openLocation_withHearts (env : Env) (store : StoreCard) (recipe : Recipe)
    (favorites : List Favorite) :
    openLocation env store recipe favorites =
      (openLocation env store recipe []).map (View.withHearts favorites) := by
  have hrows : store.includedIngredients.mapM (processedIngredient env store.name recipe favorites) =
      (store.includedIngredients.mapM (processedIngredient env store.name recipe [])).map
        (List.map (Row.withHeart favorites)) := by
    rw [← mapM_map_option]
    congr 1
    funext ingredientName
    exact processedIngredient_withHeart ..
  rw [openLocation, hrows, openLocation, Option.map_map, Option.map_map]
  congr 1
  funext rows
  exact shownRows_withHeart favorites rows

/-- The rows the screen shows there. -/
def Place.rows (place : Place) (favorites : List Favorite) : List Row :=
  match openLocation place.env place.store place.recipe favorites with
  | some view => view.ingredientsList
  | none => []

theorem Place.rows_eq (place : Place) (favorites : List Favorite) :
    place.rows favorites = (place.rows []).map (Row.withHeart favorites) := by
  unfold Place.rows
  rw [openLocation_withHearts]
  cases openLocation place.env place.store place.recipe [] with
  | none => rfl
  | some view => rfl

theorem Place.map_id_rows (place : Place) (favorites : List Favorite) :
    (place.rows favorites).map (·.id) = (place.rows []).map (·.id) := by
  rw [Place.rows_eq, List.map_map]
  rfl

theorem isFavorite_of_rows {place : Place} {favorites : List Favorite} {row : Row}
    (h : row ∈ place.rows favorites) :
    row.isFavorite = true ↔ row.id ∈ favoriteIds favorites := by
  rw [Place.rows_eq] at h
  obtain ⟨row, -, rfl⟩ := List.mem_map.mp h
  exact Keyed.any_key Favorite.id

/-! ## Runs -/

/-- A tap on the heart of one of the rows, at the time `now`. -/
structure Tap (place : Place) where
  id : ItemId
  now : String
  row : id ∈ (place.rows []).map (·.id)

/-- The screen opened, its first load answered. -/
def opened (place : Place) (file : List Favorite) : System :=
  ⟨file, Screen.mounted.loadFavorites place file .answered⟩

/-- A tap whose requests are all answered. -/
def tap (place : Place) (s : System) (tap : Tap place) : System :=
  toggleFavorite.settled place tap.id tap.now .answered .answered .answered s

def run (place : Place) (file : List Favorite) (taps : List (Tap place)) : System :=
  taps.foldl (tap place) (opened place file)

/-- What a sequence of taps should come to: the store is the fold of the toggles, each with a
record of the tapped id, the ids stay distinct, and the hearts show them. -/
structure Faithful {place : Place} (file : List Favorite) (taps : List (Tap place)) (s : System) :
    Prop where
  store : ∃ records : List Favorite, records.map (·.id) = taps.map (·.id) ∧
    s.file = records.foldl (Keyed.toggle Favorite.id) file
  unique : UniqueIds s.file
  hearts : HeartsRight s.file s.screen

/-- The screen shows the rows of the store. -/
def Synced (place : Place) (s : System) : Prop := s.screen.ingredientsList = place.rows s.file

section

variable {place : Place} {s : System} {file : List Favorite}

theorem Synced.hearts (h : Synced place s) : HeartsRight s.file s.screen := by
  intro row hrow
  rw [h] at hrow
  exact isFavorite_of_rows hrow

/-- A load that is answered leaves the screen synced. -/
theorem synced_load {screen : Screen} (h : screen.view.isSome = true) :
    Synced place ⟨file, screen.loadFavorites place file .answered⟩ := by
  obtain ⟨view, hview⟩ := Option.isSome_iff_exists.mp h
  rw [loadFavorites_eq, getFavorites_answered, hview]
  rfl

theorem synced_opened (place : Place) (file : List Favorite) : Synced place (opened place file) :=
  synced_load rfl

/-- The row a tap finds. -/
theorem Synced.find (h : Synced place s) (t : Tap place) :
    ∃ row, s.screen.ingredientsList.find? (·.id = t.id) = some row ∧
      (row.isFavorite = true ↔ t.id ∈ favoriteIds s.file) := by
  have hid := t.row
  rw [← Place.map_id_rows place s.file, ← h] at hid
  obtain ⟨row, hrow, hkey⟩ := List.mem_map.mp hid
  obtain ⟨found, hfound⟩ := Option.isSome_iff_exists.mp
    (List.find?_isSome (p := (·.id = t.id)) |>.mpr ⟨row, hrow, by simpa using hkey⟩)
  have hright := h.hearts found (List.mem_of_find?_eq_some hfound)
  rw [id_of_find hfound] at hright
  exact ⟨found, hfound, hright⟩

/-- What a tap does to the store: it toggles the id, or drops it when the recipe has no
name to add it under. -/
theorem tap_store (h : Synced place s) (t : Tap place) :
    Synced place (tap place s t) ∧
      (place.recipe.name ≠ none → ∃ record : Favorite, record.id = t.id ∧
        (tap place s t).file = Keyed.toggle Favorite.id s.file record) ∧
      (place.recipe.name = none → (tap place s t).file = s.file.filter (·.id ≠ t.id)) := by
  obtain ⟨row, hrow, hheart⟩ := h.find t
  have hview := isSome_of_find hrow
  have hset (rows : List Row) : (s.screen.setIngredientsList rows).view.isSome = true := by
    simpa [Screen.setIngredientsList] using hview
  by_cases hin : t.id ∈ favoriteIds s.file
  · have hremoved : (removeFavorite s.file t.id .answered .answered).1 =
        s.file.filter (·.id ≠ t.id) := rfl
    rw [tap, settled_remove hrow (hheart.mpr hin), hremoved]
    refine ⟨synced_load (hset _), fun _ => ⟨.bare t.id, rfl, ?_⟩, fun _ => rfl⟩
    exact (if_pos hin).symm
  · have hempty : row.isFavorite = false := Bool.eq_false_iff.mpr fun hf => hin (hheart.mp hf)
    cases hname : place.recipe.name with
    | none =>
      rw [tap, settled_nameless hrow hempty hname]
      refine ⟨h, fun hn => absurd rfl hn, fun _ => ?_⟩
      refine (List.filter_eq_self.mpr fun favorite hf => ?_).symm
      simpa using fun hid => hin (List.mem_map.mpr ⟨favorite, hf, hid⟩)
    | some name =>
      obtain ⟨record, hid, hsettled⟩ :=
        settled_add t.now .answered .answered .answered hrow hempty hname
      have hadded : (addFavorite s.file record .answered .answered).1 = s.file ++ [record] := by
        rw [addFavorite, getFavorites_answered,
          added_some.mpr ⟨by rw [hid]; exact hin, rfl⟩]
        rfl
      rw [tap, hsettled, hadded]
      refine ⟨synced_load (hset _), fun _ => ⟨record, hid, ?_⟩, fun hn => by cases hn⟩
      exact (if_neg (by rw [hid]; exact hin)).symm

theorem run_concat (taps : List (Tap place)) (t : Tap place) :
    run place file (taps ++ [t]) = tap place (run place file taps) t := by
  rw [run, List.foldl_append]
  rfl

theorem run_synced (file : List Favorite) (taps : List (Tap place)) :
    Synced place (run place file taps) := by
  induction taps using List.reverseRecOn with
  | nil => exact synced_opened place file
  | append_singleton taps t ih =>
    rw [run_concat]
    exact (tap_store ih t).1

/-! ## Recipes with a name -/

/-- Every tap on a recipe with a name toggles its id. -/
theorem run_toggles (hname : place.recipe.name ≠ none) (file : List Favorite)
    (taps : List (Tap place)) :
    ∃ records : List Favorite, records.map (·.id) = taps.map (·.id) ∧
      (run place file taps).file = records.foldl (Keyed.toggle Favorite.id) file := by
  induction taps using List.reverseRecOn with
  | nil => exact ⟨[], rfl, rfl⟩
  | append_singleton taps t ih =>
    obtain ⟨records, hids, hfile⟩ := ih
    obtain ⟨record, hid, htap⟩ := (tap_store (run_synced file taps) t).2.1 hname
    refine ⟨records ++ [record], ?_, ?_⟩
    · rw [List.map_append, List.map_append, hids, List.map_singleton, hid, List.map_singleton]
    · rw [run_concat, htap, hfile, List.foldl_append]
      rfl

theorem unique_foldl (h : UniqueIds file) (records : List Favorite) :
    UniqueIds (records.foldl (Keyed.toggle Favorite.id) file) := by
  induction records generalizing file with
  | nil => exact h
  | cons record records ih => exact ih (Keyed.nodup_keys_toggle h record)

theorem faithful_of_toggles {taps : List (Tap place)} (h : UniqueIds file)
    (hstore : ∃ records : List Favorite, records.map (·.id) = taps.map (·.id) ∧
      (run place file taps).file = records.foldl (Keyed.toggle Favorite.id) file) :
    Faithful file taps (run place file taps) := by
  refine ⟨hstore, ?_, (run_synced file taps).hearts⟩
  obtain ⟨records, -, hfile⟩ := hstore
  rw [hfile]
  exact unique_foldl h records

/-! ## Recipes without a name -/

/-- The taps only remove. -/
theorem run_nameless (hname : place.recipe.name = none) (file : List Favorite)
    (taps : List (Tap place)) :
    (run place file taps).file = file.filter (·.id ∉ taps.map (·.id)) := by
  induction taps using List.reverseRecOn with
  | nil => exact (List.filter_eq_self.mpr fun _ _ => by simp).symm
  | append_singleton taps t ih =>
    rw [run_concat, (tap_store (run_synced file taps) t).2.2 hname, ih, List.filter_filter]
    refine List.filter_congr fun favorite _ => ?_
    rw [List.map_append, List.map_singleton]
    simp only [List.mem_append, List.mem_singleton, not_or, Bool.decide_and]
    exact Bool.and_comm _ _

theorem mem_run_nameless (hname : place.recipe.name = none) {taps : List (Tap place)}
    {id : ItemId} :
    id ∈ favoriteIds (run place file taps).file ↔
      id ∈ favoriteIds file ∧ id ∉ taps.map (·.id) := by
  rw [run_nameless hname, favoriteIds, favoriteIds, Keyed.mem_keys, Keyed.mem_keys]
  simp only [List.mem_filter, decide_eq_true_eq]
  constructor
  · rintro ⟨favorite, ⟨hf, hnot⟩, rfl⟩
    exact ⟨⟨favorite, hf, rfl⟩, hnot⟩
  · rintro ⟨⟨favorite, hf, rfl⟩, hnot⟩
    exact ⟨favorite, ⟨hf, hnot⟩, rfl⟩

/-- A tap that only removes is a toggle if the id is there. -/
theorem nameless_toggles (hname : place.recipe.name = none) {taps : List (Tap place)}
    (hnodup : (taps.map (·.id)).Nodup) (hin : ∀ t ∈ taps, t.id ∈ favoriteIds file) :
    ∃ records : List Favorite, records.map (·.id) = taps.map (·.id) ∧
      (run place file taps).file = records.foldl (Keyed.toggle Favorite.id) file := by
  induction taps using List.reverseRecOn with
  | nil => exact ⟨[], rfl, rfl⟩
  | append_singleton taps t ih =>
    rw [List.map_append, List.map_singleton, List.nodup_append] at hnodup
    obtain ⟨hnodup, -, hdisjoint⟩ := hnodup
    obtain ⟨records, hids, hfile⟩ := ih hnodup fun u hu => hin u (List.mem_append_left _ hu)
    have hthere : t.id ∈ favoriteIds (run place file taps).file :=
      (mem_run_nameless hname).mpr ⟨hin t (by simp), fun hm =>
        hdisjoint t.id hm t.id (List.mem_singleton_self _) rfl⟩
    refine ⟨records ++ [.bare t.id], ?_, ?_⟩
    · rw [List.map_append, List.map_append, hids]
      rfl
    · rw [run_concat, (tap_store (run_synced file taps) t).2.2 hname, List.foldl_append, ← hfile]
      exact (if_pos hthere).symm

/-- When each tap was a toggle, the last of them found its id. -/
theorem found_of_toggles (hname : place.recipe.name = none) {taps : List (Tap place)}
    {t : Tap place} (hbefore : Faithful file taps (run place file taps))
    (hafter : Faithful file (taps ++ [t]) (run place file (taps ++ [t]))) :
    t.id ∈ favoriteIds (run place file taps).file := by
  obtain ⟨records, hids, hfile⟩ := hbefore.store
  obtain ⟨records', hids', hfile'⟩ := hafter.store
  rw [List.map_append, List.map_singleton] at hids'
  obtain ⟨before, last, rfl, hbeforeIds, hlast⟩ := List.map_eq_append_iff.mp hids'
  obtain ⟨record, rfl, hid⟩ := List.map_eq_singleton_iff.mp hlast
  -- the fold of the records before it has the ids of the store before it
  have hsame : favoriteIds (before.foldl (Keyed.toggle Favorite.id) file) =
      favoriteIds (run place file taps).file := by
    rw [hfile, favoriteIds, favoriteIds]
    rw [Keyed.map_foldl_toggle Favorite.id, Keyed.map_foldl_toggle Favorite.id]
    exact congrArg (List.foldl _ _) (hbeforeIds.trans hids.symm)
  have hgone : t.id ∉ favoriteIds (run place file (taps ++ [t])).file := by
    rw [mem_run_nameless hname]
    exact fun h => h.2 (by simp)
  rw [hfile', List.foldl_append, ← hid] at hgone
  have hfound := (not_congr (Keyed.mem_keys_toggle Favorite.id _ record)).mp hgone
  rw [← hsame, ← hid]
  exact not_not.mp hfound

theorem nameless_taps_iff (hname : place.recipe.name = none) (h : UniqueIds file)
    (taps : List (Tap place)) :
    (∀ before, before <+: taps → Faithful file before (run place file before)) ↔
      (taps.map (·.id)).Nodup ∧ ∀ t ∈ taps, t.id ∈ favoriteIds file := by
  constructor
  · intro hall
    induction taps using List.reverseRecOn with
    | nil => exact ⟨List.nodup_nil, fun t ht => by cases ht⟩
    | append_singleton taps t ih =>
      obtain ⟨hnodup, hin⟩ := ih fun before hb => hall before (hb.trans (List.prefix_append ..))
      have hfound := found_of_toggles hname (hall taps (List.prefix_append ..))
        (hall (taps ++ [t]) (List.prefix_refl _))
      obtain ⟨hfile, hnew⟩ := (mem_run_nameless hname).mp hfound
      constructor
      · rw [List.map_append, List.map_singleton, ← List.concat_eq_append]
        exact hnodup.concat hnew
      · intro u hu
        rcases List.mem_append.mp hu with hu | hu
        · exact hin u hu
        · rw [List.mem_singleton.mp hu]
          exact hfile
  · rintro ⟨hnodup, hin⟩ before hb
    refine faithful_of_toggles h (nameless_toggles hname ?_ fun t ht => hin t (hb.subset ht))
    exact hnodup.sublist (hb.sublist.map _)

end

/-- **When the screen is a faithful view of the store.** After every tap of a run, whatever
the shop, if the recipe has a name; on a recipe without one, if the run only removes. -/
theorem quiet_taps_iff {place : Place} {file : List Favorite} (h : UniqueIds file)
    (taps : List (Tap place)) :
    (∀ before, before <+: taps → Faithful file before (run place file before)) ↔
      place.recipe.name ≠ none ∨
        (taps.map (·.id)).Nodup ∧ ∀ t ∈ taps, t.id ∈ favoriteIds file := by
  by_cases hname : place.recipe.name = none
  · rw [nameless_taps_iff hname h taps]
    exact (or_iff_right (not_not_intro hname)).symm
  · exact iff_of_true (fun before _ => faithful_of_toggles h (run_toggles hname file before))
      (.inl hname)

/-- A tap on the salt's heart. -/
def saltTap : Tap saltPlace := ⟨.num 1, "", by decide⟩

theorem quiet_taps_salt :
    Faithful [] [saltTap, saltTap] (run saltPlace [] [saltTap, saltTap]) := by
  have hempty : UniqueIds [] := List.nodup_nil
  exact (quiet_taps_iff hempty [saltTap, saltTap]).mpr (.inl (by decide)) _ (List.prefix_refl _)

/-- The same place with a recipe that has no name. -/
def namelessPlace : Place := { saltPlace with recipe := salted (some (.num 4)) }

def namelessTap : Tap namelessPlace := ⟨.num 1, "", by decide⟩

/-- Its salt cannot be saved: the tap throws before its first request. -/
theorem not_quiet_taps : ¬ ∀ (place : Place) (file : List Favorite), UniqueIds file →
    ∀ taps : List (Tap place), Faithful file taps (run place file taps) := by
  intro h
  obtain ⟨records, hids, hfile⟩ := (h namelessPlace [] List.nodup_nil [namelessTap]).store
  obtain ⟨record, rfl, -⟩ := List.map_eq_singleton_iff.mp hids
  have hstore : (run namelessPlace [] [namelessTap]).file = [] := rfl
  rw [hstore] at hfile
  simp [Keyed.toggle] at hfile

end IngrediGo.LocationScreen
