import IngrediGo.Favorites.Edits
import IngrediGo.Recipe.Icon
import IngrediGo.Server.Reading

/-!
# Traffic on a collection

The server's files and any number of client calls on one of its routes, each a `GET` and a
`POST` of JSON, interleaved in any way with each other and with requests that leave the
collection alone, and any of which may fail.

The other modules speak of such calls on lists of records. Here that is proved of the JSON, in
two steps: calls on a file are calls on the list of its items (`listed_run`), and those are
calls on the records that the items are read as (`read_run`). `bookmarks_traffic` and
`favorites_traffic` say so of the two routes, and what the screens then read.
-/

namespace IngrediGo.Server

open Lib Lib.Rmw Json

variable {ω υ α : Type}

/-- The clients of a route: what a call posts, if it posts, given the files at its `GET`.
Of a file with a list it is computed from the items. -/
structure Client (ω : Type) where
  route : Route
  posts : ω → Files → Option (List Json)
  edit : ω → List Json → Option (List Json)
  posts_array : ∀ o files items, files route = some (.arr items) → posts o files = edit o items

/-- The files, and the calls made on a route. -/
structure Traffic (ω : Type) where
  files : Files
  calls : List (Call (List Json) ω)

namespace Traffic

inductive Act (ω : Type) where
  | call (o : ω)
  /-- The server executes the `GET` of a call. -/
  | get (n : ℕ)
  /-- The server executes its `POST`. -/
  | post (n : ℕ)
  /-- One of its requests fails. -/
  | fail (n : ℕ)
  /-- Any other request. -/
  | other (request : Request)

def step (client : Client ω) (w : Traffic ω) : Act ω → Option (Traffic ω)
  | .call o => some { w with calls := w.calls ++ [⟨o, .reading⟩] }
  | .get n =>
    match w.calls[n]? with
    | some ⟨o, .reading⟩ =>
      some { files := (handle w.files (.get client.route)).1
             calls := w.calls.set n ⟨o, afterRead (client.posts o w.files)⟩ }
    | _ => none
  | .post n =>
    match w.calls[n]? with
    | some ⟨o, .writing items⟩ =>
      some { files := (handle w.files (.post client.route (.ofList items))).1
             calls := w.calls.set n ⟨o, .done⟩ }
    | _ => none
  | .fail n => (Rmw.fail ⟨[], w.calls⟩ n).map ({ w with calls := ·.calls })
  | .other request =>
    match request.posted client.route with
    | some _ => none
    | none => some { w with files := (handle w.files request).1 }

/-- The items of a collection. -/
def items (files : Files) (route : Route) : List Json :=
  ((files route).bind Json.asArray).getD []

/-- The calls, on the list of items. -/
def listed (route : Route) (w : Traffic ω) : Rmw.State (List Json) ω :=
  ⟨items w.files route, w.calls⟩

/-- The collection is a list. -/
def IsList (route : Route) (w : Traffic ω) : Prop :=
  w.files route = some (.arr (items w.files route))

variable {client : Client ω} {w w' : Traffic ω} {a : Act ω} {route : Route} {l : List Json}

theorem listed_eq {files : Files} (calls : List (Call (List Json) ω))
    (h : files route = some (.arr l)) :
    IsList route ⟨files, calls⟩ ∧ listed route ⟨files, calls⟩ = ⟨l, calls⟩ := by
  have hitems : items files route = l := by
    rw [items, h]
    rfl
  exact ⟨h.trans (by rw [hitems]), by rw [listed, hitems]⟩

/-- What a step does to a list is a step of the calls on it, or is not seen. -/
theorem listed_step (h : w.IsList client.route) (hs : w.step client a = some w') :
    w'.IsList client.route ∧ (w'.listed client.route = w.listed client.route ∨
      ∃ b, Rmw.attempt client.edit (w.listed client.route) b = some (w'.listed client.route)) := by
  cases a with
  | call o =>
    cases hs
    exact ⟨h, .inr ⟨.act (.call o), rfl⟩⟩
  | get n =>
    simp only [step, handle_get h] at hs
    split at hs
    · next o hn =>
      cases hs
      refine ⟨h, .inr ⟨.act (.read n), ?_⟩⟩
      rw [client.posts_array o _ _ h]
      simp only [attempt, Rmw.step, listed, hn]
    · cases hs
  | post n =>
    simp only [step] at hs
    split at hs
    · next o posted hn =>
      cases hs
      have hfile : write w.files client.route (.arr posted) client.route = some (.arr posted) :=
        Function.update_self ..
      obtain ⟨hlist, hlisted⟩ := listed_eq (w.calls.set n ⟨o, .done⟩) hfile
      refine ⟨hlist, .inr ⟨.act (.write n), ?_⟩⟩
      refine Eq.trans ?_ (congrArg some hlisted.symm)
      simp only [attempt, Rmw.step, listed, hn]
    · cases hs
  | fail n =>
    obtain ⟨b, hb, rfl⟩ := Option.map_eq_some_iff.mp hs
    obtain ⟨o, p, hn, hp, rfl⟩ := fail_some hb
    refine ⟨h, .inr ⟨.fail n, ?_⟩⟩
    have hn' : (w.listed client.route).calls[n]? = some ⟨o, p⟩ := hn
    rw [attempt, fail_of hn' hp]
    rfl
  | other request =>
    simp only [step] at hs
    split at hs
    · cases hs
    · next hposted =>
      cases hs
      have hfile := handle_file h request
      rw [hposted, Option.getD_none] at hfile
      obtain ⟨hlist, hlisted⟩ := listed_eq w.calls hfile
      exact ⟨hlist, .inl hlisted⟩

/-- **Calls on a file are calls on the list of its items.** -/
theorem listed_run {G : Traffic ω → Act ω → Prop} {files : Files} {l : List Json}
    (hfile : files client.route = some (.arr l)) (h : Reach (step client) G ⟨files, []⟩ w) :
    w.IsList client.route ∧
      Reach (Rmw.attempt client.edit) Free (.init l) (w.listed client.route) := by
  obtain ⟨h0, hinit⟩ := listed_eq ([] : List (Call (List Json) ω)) hfile
  obtain ⟨hw, hrun⟩ := h.under h0 fun _ _ _ hw _ hs => (listed_step hw hs).1
  refine ⟨hw, ?_⟩
  rw [State.init, ← hinit]
  refine hrun.project (listed client.route) fun s a u hs hstep => ?_
  rcases (listed_step hs.1 hstep).2 with hsame | ⟨b, hb⟩
  · exact .inl hsame
  · exact .inr ⟨b, trivial, hb⟩

end Traffic

/-! ## Calls on the records -/

section

variable {read : Json → Option α} {g : ω → υ} {edit : ω → List Json → Option (List Json)}
  {edit' : υ → List α → Option (List α)} {items : List Json} {l : List α}
  {s : Rmw.State (List Json) ω}

/-- Edits of items are edits of the records they are read as. -/
def EditsRead (read : Json → Option α) (g : ω → υ) (edit : ω → List Json → Option (List Json))
    (edit' : υ → List α → Option (List α)) : Prop :=
  ∀ o items l, ReadAs read items l →
    (edit o items = none ∧ edit' (g o) l = none) ∨
    ∃ posted l', edit o items = some posted ∧ edit' (g o) l = some l' ∧ ReadAs read posted l'

/-- The list of items, and every list about to be posted, is read as records. -/
abbrev AllRead (read : Json → Option α) : Rmw.State (List Json) ω → Prop :=
  Kept fun items => ∃ l, ReadAs read items l

theorem allRead_attempt (hedit : EditsRead read g edit edit') {a : Rmw.Attempt ω}
    (h : AllRead read s) {t : Rmw.State (List Json) ω} (hs : Rmw.attempt edit s a = some t) :
    AllRead read t := by
  cases a with
  | act a =>
    refine h.step (fun c _ items posted hitems hc => ?_) hs
    obtain ⟨l, hl⟩ := hitems
    rcases hedit c.op items l hl with ⟨hnone, -⟩ | ⟨_, l', hposted, -, hl'⟩
    · cases hnone.symm.trans hc
    · cases hposted.symm.trans hc
      exact ⟨l', hl'⟩
  | fail n => exact h.fail hs

/-- **Calls on the items are calls on the records.** -/
theorem read_run (hedit : EditsRead read g edit edit') (hl : ReadAs read items l)
    (h : Reach (Rmw.attempt edit) Free (.init items) s) :
    Reach (Rmw.attempt edit') Free (.init l) (s.map (List.filterMap read) g) ∧
      ReadAs read s.store (s.store.filterMap read) := by
  obtain ⟨hs, hrun⟩ := h.under (Kept.init ⟨l, hl⟩) fun _ _ _ hs _ ha => allRead_attempt hedit hs ha
  obtain ⟨l', hl'⟩ := hs.store
  refine ⟨?_, hl'.filterMap.symm ▸ hl'⟩
  have hinit : (State.init (ω := ω) items).map (List.filterMap read) g = .init l := by
    rw [State.map, State.init, hl.filterMap]
    rfl
  rw [← hinit]
  refine hrun.project _ fun s a u hg ha => .inr ⟨a.map g, trivial, attempt_map (fun o => ?_) ha⟩
  obtain ⟨l, hl⟩ := hg.1.store
  rw [hl.filterMap]
  rcases hedit o s.store l hl with ⟨hnone, hnone'⟩ | ⟨posted, l', hposted, hl', hread⟩
  · rw [hnone, hnone', Option.map_none]
  · rw [hposted, hl', Option.map_some, hread.filterMap]

end

/-! ## Bookmarked recipes -/

/-- An object and what it is read as. -/
structure Record (read : Reader α) where
  fields : Fields
  value : α
  reads : read (field fields) = some value

open RecipeScreen (Tap isBookmarked toggleBookmark.recipeToSave toggleBookmark.updated)

variable {stringify : Json → String}

structure JsonTap (read : Reader Recipe) where
  recipe : Record read
  newBookmarkState : Bool
  screen : ℕ

def JsonTap.tap {read : Reader Recipe} (tap : JsonTap read) : Tap :=
  ⟨tap.recipe.value, tap.newBookmarkState, tap.screen⟩

/-- `toggleBookmark()`, as far as its `POST`. -/
def bookmarks (stringify : Json → String) : Client (JsonTap (readRecipe stringify)) where
  route := .bookmarked
  posts tap files := ((getBookmarked files).bind Json.asArray).bind
    (updatedBookmarks tap.recipe.fields tap.newBookmarkState)
  edit tap := updatedBookmarks tap.recipe.fields tap.newBookmarkState
  posts_array tap files items h := by rw [getBookmarked_eq h rfl]; rfl

theorem Record.recipe_id (recipe : Record (readRecipe stringify)) :
    optionalId (field recipe.fields "id") = some recipe.value.id :=
  (readRecipe_some.mp recipe.reads).1

/-- What a tap posts is read as the recipes a tap posts. -/
theorem bookmarks_read : EditsRead (readObject (readRecipe stringify)) JsonTap.tap
    (bookmarks stringify).edit Tap.updated := by
  rintro ⟨recipe, newBookmarkState, screen⟩ items l hl
  suffices ∃ posted, updatedBookmarks recipe.fields newBookmarkState items = some posted ∧
      ReadAs (readObject (readRecipe stringify)) posted
        (toggleBookmark.updated recipe.value newBookmarkState l) by
    obtain ⟨posted, hposted, hread⟩ := this
    exact .inr ⟨posted, _, hposted, rfl, hread⟩
  unfold updatedBookmarks toggleBookmark.updated
  cases newBookmarkState with
  | true =>
    rw [if_pos rfl, if_pos rfl, hl.someOf Recipe.id (fun _ _ => Server.recipe_id) recipe.recipe_id]
    refine ⟨_, rfl, ?_⟩
    show ReadAs _ (if !isBookmarked l recipe.value then _ else _) _
    split
    · exact hl.concat (read_recipeToSave recipe.reads)
    · exact hl
  | false => exact hl.filterOf Recipe.id (fun _ _ => Server.recipe_id) recipe.recipe_id

/-- The recipes of the bookmarked list and the taps on it, read off the traffic. -/
def Traffic.recipes (w : Traffic (JsonTap (readRecipe stringify))) : Rmw.State (List Recipe) Tap :=
  (w.listed .bookmarked).map (List.filterMap (readObject (readRecipe stringify))) JsonTap.tap

/-- **The bookmarked list in JSON**: from a list of objects that are read as recipes, whatever
else they have, any traffic is a run of taps on a list of recipes, the file always read as that
list; Home loads the objects of those recipes normalized, and a screen's check tells whether
its recipe is among them. -/
theorem bookmarks_traffic {files : Files} {items : List Json} {l : List Recipe}
    (hfile : files .bookmarked = some (.arr items))
    (hl : ReadAs (readObject (readRecipe stringify)) items l)
    {w : Traffic (JsonTap (readRecipe stringify))}
    (h : Reach (Traffic.step (bookmarks stringify)) Free ⟨files, []⟩ w) :
    Reach (Rmw.attempt Tap.updated) Free (.init l) w.recipes ∧
    (∃ items, w.files .bookmarked = some (.arr items) ∧
      ReadAs (readObject (readRecipe stringify)) items w.recipes.store) ∧
    (∃ shown, fetchData w.files = some shown ∧
      ReadAs (readObject (readRecipe stringify)) shown
        (w.recipes.store.map HomeScreen.normalize)) ∧
    ∀ recipe : Record (readRecipe stringify),
      checkIfBookmarked w.files recipe.fields =
        some (isBookmarked w.recipes.store recipe.value) := by
  have hroute : files (bookmarks stringify).route = some (.arr items) := hfile
  obtain ⟨hlist, hrun⟩ := Traffic.listed_run hroute h
  obtain ⟨hrecipes, hread⟩ := read_run bookmarks_read hl hrun
  have hdata : w.files .bookmarked = some (.arr (w.listed .bookmarked).store) := hlist
  refine ⟨hrecipes, ⟨_, hdata, hread⟩, ?_, fun recipe => ?_⟩
  · rw [fetchData, handle_get hdata]
    exact hread.mapM fun item a ha => read_normalize ha
  · rw [checkIfBookmarked, getBookmarked_eq hdata rfl, Option.bind_some, Json.asArray,
      Option.bind_some]
    exact hread.someOf Recipe.id (fun _ _ => Server.recipe_id) recipe.recipe_id

/-- A soup with a field no screen reads, bookmarked in an earlier session. -/
def oldSoup : Json :=
  .obj [("likes", .nat 3), ("bookmarked", .bool true), ("id", .nat 1), ("category", .str "Soups")]

/-- A stew that is not bookmarked yet. -/
def stew : Record (readRecipe fun _ => "") where
  fields := [("name", .obj [("en", .str "Stew")]), ("id", .nat 2)]
  value := ⟨some (.num 2), some (.perLang ⟨some "Stew", none, none⟩), none, none, none, none, none⟩
  reads := rfl

/-- The stew is bookmarked while Home loads and a second tap fails. -/
theorem bookmarks_traffic_stew : ∃ w : Traffic (JsonTap (readRecipe fun _ => "")),
    w.recipes.store.map (·.id) = [some (.num 1), some (.num 2)] ∧
      ∃ shown, fetchData w.files = some shown ∧ ReadAs (readObject (readRecipe fun _ => ""))
        shown (w.recipes.store.map HomeScreen.normalize) := by
  have hl : ReadAs (readObject (readRecipe fun _ => "")) [oldSoup]
      [⟨some (.num 1), none, none, none, none, some (.plain "Soups"), some true⟩] :=
    .cons rfl .nil
  have hrun : ∃ w, Reach (Traffic.step (bookmarks fun _ => "")) Free
      ⟨fun _ => some (.arr [oldSoup]), []⟩ w ∧
        w.recipes.store.map (·.id) = [some (.num 1), some (.num 2)] :=
    ⟨_, (((((Reach.start.next (a := .call ⟨stew, true, 0⟩) trivial rfl).next
      (a := .get 0) trivial rfl).next (a := .call ⟨stew, false, 1⟩) trivial rfl).next
        (a := .other (.get .bookmarked)) trivial rfl).next (a := .fail 1) trivial rfl).next
          (a := .post 0) trivial rfl, rfl⟩
  obtain ⟨w, hw, hids⟩ := hrun
  exact ⟨w, hids, (bookmarks_traffic rfl hl hw).2.2.1⟩

/-! ## Favourites -/

/-- An id and what it is read as. -/
structure JsonId where
  json : Json
  value : ItemId
  reads : readId json = some value

inductive JsonEdit (read : Reader Favorite) where
  | add (favorite : Record read)
  | remove (favoriteId : JsonId)

open FavoritesService (Edit)

def JsonEdit.edit {read : Reader Favorite} : JsonEdit read → Edit
  | .add favorite => .add favorite.value
  | .remove favoriteId => .remove favoriteId.value

/-- The list `addFavorite` posts, or `none` when it finds the id, or throws. -/
def addedFavorites (favorite : Fields) (currentFavorites : List Json) : Option (List Json) :=
  match Json.someOf (sameId (field favorite "id")) currentFavorites with
  | some false => some (currentFavorites ++ [.obj favorite])
  | _ => none

/-- The list an edit posts. -/
def JsonEdit.updated {read : Reader Favorite} :
    JsonEdit read → List Json → Option (List Json)
  | .add favorite => addedFavorites favorite.fields
  | .remove favoriteId => Json.filterOf (otherId (some favoriteId.json))

/-- `addFavorite(favorite)` and `removeFavorite(favoriteId)`, as far as their `POST`. -/
def favorites (stringify : Json → String) : Client (JsonEdit (readFavorite stringify)) where
  route := .favorites
  posts edit files := (getFavorites files).asArray.bind edit.updated
  edit := JsonEdit.updated
  posts_array edit files items h := by rw [getFavorites_eq h]; rfl

theorem favorites_read : EditsRead (readObject (readFavorite stringify)) JsonEdit.edit
    (favorites stringify).edit Edit.updatedFavorites := by
  rintro (favorite | favoriteId) items l hl
  · have hid : optionalId (field favorite.fields "id") = some (some favorite.value.id) :=
      optionalId_of_readId (readFavorite_some.mp favorite.reads).1
    have hsome : Json.someOf (sameId (field favorite.fields "id")) items =
        some (l.any (·.id = favorite.value.id)) := by
      rw [hl.someOf (fun f => some f.id) (fun _ _ => favorite_id) hid]
      simp only [Option.some.injEq]
    show addedFavorites favorite.fields items = none ∧
      FavoritesService.addFavorite.updatedFavorites l favorite.value = none ∨
      ∃ posted l', addedFavorites favorite.fields items = some posted ∧
        FavoritesService.addFavorite.updatedFavorites l favorite.value = some l' ∧ _
    rw [addedFavorites, hsome, FavoritesService.addFavorite.updatedFavorites]
    cases l.any (·.id = favorite.value.id) with
    | true => exact .inl ⟨rfl, rfl⟩
    | false =>
      have hread : readObject (readFavorite stringify) (.obj favorite.fields) =
        some favorite.value := favorite.reads
      exact .inr ⟨_, _, rfl, rfl, hl.concat hread⟩
  · have hid : optionalId (some favoriteId.json) = some (some favoriteId.value) :=
      optionalId_of_readId favoriteId.reads
    obtain ⟨kept, hkept, hread⟩ := hl.filterOf (fun f => some f.id) (fun _ _ => favorite_id) hid
    refine .inr ⟨kept, _, hkept, rfl, ?_⟩
    have hfilter : l.filter (fun f => some f.id ≠ some favoriteId.value) =
        FavoritesService.removeFavorite.updatedFavorites l favoriteId.value := by
      simp only [ne_eq, Option.some.injEq]
      rfl
    rw [← hfilter]
    exact hread

/-- The favourites and the calls on them, read off the traffic. -/
def Traffic.favorites (w : Traffic (JsonEdit (readFavorite stringify))) :
    Rmw.State (List Favorite) Edit :=
  (w.listed .favorites).map (List.filterMap (readObject (readFavorite stringify))) JsonEdit.edit

/-- No `GET` of a call fails; after one that does the call goes on with an empty list. -/
def GetsAnswered (w : Traffic ω) : Traffic.Act ω → Prop
  | .fail n => ∀ c ∈ w.calls[n]?, c.phase ≠ .reading
  | _ => True

/-- **The favourites in JSON**: the same of `addFavorite` and `removeFavorite`, and of what the
Favorites screen loads. -/
theorem favorites_traffic {files : Files} {items : List Json} {l : List Favorite}
    (hfile : files .favorites = some (.arr items))
    (hl : ReadAs (readObject (readFavorite stringify)) items l)
    {w : Traffic (JsonEdit (readFavorite stringify))}
    (h : Reach (Traffic.step (favorites stringify)) GetsAnswered ⟨files, []⟩ w) :
    Reach (Rmw.attempt Edit.updatedFavorites) Free (.init l) w.favorites ∧
    (∃ items, w.files .favorites = some (.arr items) ∧
      ReadAs (readObject (readFavorite stringify)) items w.favorites.store) ∧
    ∃ shown, initializeFavorites w.files = some shown ∧
      ReadAs (readObject (readFavorite stringify)) shown
        (w.favorites.store.map FavoritesScreen.deselect) := by
  have hroute : files (Server.favorites stringify).route = some (.arr items) := hfile
  obtain ⟨hlist, hrun⟩ := Traffic.listed_run hroute h
  obtain ⟨hfavorites, hread⟩ := read_run favorites_read hl hrun
  have hdata : w.files .favorites = some (.arr (w.listed .favorites).store) := hlist
  refine ⟨hfavorites, ⟨_, hdata, hread⟩, (w.listed .favorites).store.map fun item =>
    Json.override item.spread "selected" (.bool false), ?_, hread.map ?_⟩
  · rw [initializeFavorites, getFavorites_eq hdata]
    rfl
  · intro item favorite hitem
    exact read_deselect hitem

/-- The record of salt. -/
def salt : Record (readFavorite fun _ => "") where
  fields := [("timeAdded", .str "now"), ("id", .str "s"), ("name", .str "Salt"),
    ("storeName", .str "Corner"), ("location", .null)]
  value :=
    { Favorite.bare (.str "s") with name := "Salt", storeName := "Corner", timeAdded := "now" }
  reads := rfl

/-- Salt is added to an empty list, and again by a call that reads before the first one posts;
the two agree on the list. -/
theorem favorites_traffic_salt : ∃ w : Traffic (JsonEdit (readFavorite fun _ => "")),
    w.favorites.store = [salt.value] ∧
      ∃ shown, initializeFavorites w.files = some shown ∧
        ReadAs (readObject (readFavorite fun _ => "")) shown
          (w.favorites.store.map FavoritesScreen.deselect) := by
  have hrun : ∃ w, Reach (Traffic.step (favorites fun _ => "")) GetsAnswered
      ⟨fun _ => some (.arr []), []⟩ w ∧ w.favorites.store = [salt.value] :=
    ⟨_, ((((((Reach.start.next (a := .call (.add salt)) trivial rfl).next (a := .get 0) trivial
      rfl).next (a := .call (.add salt)) trivial rfl).next (a := .get 1) trivial rfl).next
        (a := .post 0) trivial rfl).next (a := .other (.post .bookmarked (.ofList []))) trivial
          rfl).next (a := .post 1) trivial rfl, rfl⟩
  obtain ⟨w, hw, hstore⟩ := hrun
  exact ⟨w, hstore, (favorites_traffic rfl .nil hw).2.2⟩

end IngrediGo.Server
