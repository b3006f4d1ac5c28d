import IngrediGo.Favorites.Unique
import IngrediGo.Stores.SameShop

/-!
# Favourites going round

One device's favourites: the Favorites screen, the hearts of the Location screens, and the
selections looked for in stores. A favourite may be hearted on a Location screen that was
reached from a selection of other favourites, on the list of the screen at that moment, while
loads, deletes, undos and hearts overlap in any order and any of their requests fail.

Every favourite there is, wherever it is kept, comes from a heart on an ingredient of the
catalogue (`Everywhere`), so that a selection, whenever it is made, is offered by the shops its
favourites were hearted in: `favorites_circulation`.
-/

namespace IngrediGo.Hearts

open Lib Lib.Rmw FavoritesScreen FavoritesService FindInStore NearbyStores

/-- The device, and the selections `handleFindInStore` has passed on. -/
structure World where
  device : Device
  found : List Params

namespace World

def initial (store : List Favorite) : World := ⟨.initial store, []⟩

inductive Act where
  | device (a : Device.Act)
  /-- The `GET` of a heart's call fails. -/
  | failGet (n : ℕ)
  /-- Its `POST` does. -/
  | failPost (n : ℕ)
  | findInStore (lang : Lang)

/-- The device with other calls. -/
def withHearts (w : World) (hearts : List (Call (List Favorite) Edit)) : World :=
  { w with device := { w.device with hearts := hearts } }

def step (t : String → String) (w : World) : Act → Option World
  | .device a => (w.device.step a).map ({ w with device := · })
  | .failGet n =>
    match w.device.hearts[n]? with
    -- `getFavorites` answers `[]`
    | some ⟨o, .reading⟩ =>
      some (w.withHearts (w.device.hearts.set n ⟨o, afterRead (o.updatedFavorites [])⟩))
    | _ => none
  | .failPost n =>
    match w.device.hearts[n]? with
    | some ⟨o, .writing _⟩ => some (w.withHearts (w.device.hearts.set n ⟨o, .done⟩))
    | _ => none
  | .findInStore lang =>
    if w.device.favorites.screen.focused then
      match handleFindInStore t lang w.device.favorites.screen.favorites with
      | .ok params => some { w with found := w.found ++ [params] }
      | .error _ => some w
    else none

/-- A heart that adds is one of a Location screen, of a recipe of the catalogue or of one
passed on before. -/
def Tapped (catalogue : List Recipe) (w : World) (a : Act) : Prop :=
  ∀ favorite, a = .device (.heart (.call (.add favorite))) →
    ∃ recipe, (recipe ∈ catalogue ∨ recipe ∈ w.found.map (·.recipe)) ∧ Offered recipe favorite

/-- No heart adds. -/
def Quiet (_ : World) (a : Act) : Prop :=
  match a with
  | .device (.heart (.call (.add _))) => False
  | _ => True

instance (w : World) (a : Act) : Decidable (Quiet w a) := by
  unfold Quiet
  split <;> infer_instance

theorem Quiet.tapped {catalogue : List Recipe} {w : World} {a : Act} (h : Quiet w a) :
    w.Tapped catalogue a := by
  rintro f rfl
  exact h.elim

end World

/-! ## Where favourites come from -/

variable {catalogue : List Recipe}

/-- The ingredients of a recipe are the catalogue's. -/
def Sourced (catalogue : List Recipe) (recipe : Recipe) : Prop :=
  ∀ ingredient ∈ recipe.ingredients.getD [],
    ∃ recipe ∈ catalogue, ∃ source ∈ recipe.ingredients.getD [],
      ingredient.id = source.id ∧ ingredient.name = source.name ∧
        ingredient.stores = source.stores

/-- A favourite saved for an ingredient of the catalogue, at a shop that has it. -/
structure FromHeart (catalogue : List Recipe) (favorite : Favorite) : Prop where
  saved : SavedFrom catalogue favorite
  shop : AtItsShop favorite

theorem sourced_of_mem {recipe : Recipe} (h : recipe ∈ catalogue) : Sourced catalogue recipe :=
  fun ingredient hi => ⟨recipe, h, ingredient, hi, rfl, rfl, rfl⟩

theorem Sourced.fromHeart {recipe : Recipe} (h : Sourced catalogue recipe) {favorite : Favorite}
    (hf : Offered recipe favorite) : FromHeart catalogue favorite := by
  obtain ⟨ingredient, hi, hdata, hid, hstores⟩ := offered_ingredient hf
  exact ⟨⟨ingredient, hdata, hid, hstores, h ingredient hi⟩, offered_atItsShop hf⟩

/-- The recipe made of a selection is of such ingredients. -/
theorem sourced_found {t : String → String} {lang : Lang} {list : List Favorite} {params : Params}
    (h : ∀ f ∈ list, FromHeart catalogue f) (hp : handleFindInStore t lang list = .ok params) :
    Sourced catalogue params.recipe :=
  fun _ hi => mock_ingredient (fun f hf => (h f hf).saved) rfl hp hi

/-- Selecting a favourite does not matter. -/
theorem FromHeart.select {f : Favorite} (h : FromHeart catalogue f) (selected : Option Bool) :
    FromHeart catalogue { f with selected := selected } :=
  ⟨h.saved.of_eq rfl rfl, h.shop⟩

/-! ## Everywhere -/

/-- Every favourite of the device, wherever it is kept, has `P`. -/
structure Everywhere (P : Favorite → Prop) (d : Device) : Prop where
  edits : Kept (fun l => ∀ f ∈ l, P f) d.edits
  added : ∀ c ∈ d.hearts, ∀ f, c.op = .add f → P f
  list : ∀ f ∈ d.favorites.screen.favorites, P f
  batch : ∀ f ∈ d.favorites.screen.recentlyDeleted, P f
  requests : ∀ r ∈ d.favorites.requests, ∀ f ∈ Device.carried r.flight, P f

variable {P : Favorite → Prop} {d : Device}

theorem Everywhere.initial {store : List Favorite} (h : ∀ f ∈ store, P f) :
    Everywhere P (.initial store) where
  edits := Kept.init h
  added c hc := by cases hc
  list f hf := by cases hf
  batch f hf := by cases hf
  requests r hr := by cases hr

/-- A list an edit posts. -/
theorem everywhere_updated {o : Edit} {l l' : List Favorite} (hadd : ∀ f, o = .add f → P f)
    (hl : ∀ f ∈ l, P f) (h : o.updatedFavorites l = some l') : ∀ f ∈ l', P f := by
  cases o with
  | add favorite =>
    obtain ⟨-, rfl⟩ := added_some.mp h
    exact List.forall_mem_append.mpr ⟨hl, fun f hf => List.mem_singleton.mp hf ▸ hadd _ rfl⟩
  | remove id =>
    cases h
    exact fun f hf => hl f (List.mem_filter.mp hf).1

theorem carried_loaded {store : List Favorite} (h : ∀ f ∈ store, P f) (outcome : Outcome) :
    ∀ f ∈ Device.carried (.loaded (Server.get store outcome)), P f := by
  cases outcome with
  | answered => exact h
  | errorStatus => exact fun f hf => by cases hf
  | unreachable _ => exact fun f hf => by cases hf

/-- The list shown after a load. -/
theorem loaded_list {response : Response (List Favorite)}
    (h : ∀ f ∈ Device.carried (.loaded response), P f) :
    ∀ f ∈ (loadFavorites response).1, P f := by
  cases response with
  | ok _ => exact h
  | status _ => exact fun f hf => by cases hf
  | rejected _ => exact fun f hf => by cases hf

/-- A tap, a tick or a request of the Favorites screen. -/
theorem Everywhere.screen (hP : ∀ f selected, P f → P { f with selected := selected })
    (h : Everywhere P d) {s : System} {a : FavoritesScreen.Act} (hs : d.favorites.step a = some s) :
    Everywhere P { d with favorites := s } := by
  have hkept {q : Favorite → Bool} : ∀ f ∈ d.favorites.screen.favorites.filter q, P f :=
    fun f hf => h.list f (List.mem_filter.mp hf).1
  have hrestored : ∀ f ∈ d.favorites.screen.restoredItems, P f :=
    List.forall_mem_append.mpr ⟨h.list, h.batch⟩
  have hrequests : ∀ r ∈ s.requests, ∀ f ∈ Device.carried r.flight, P f := by
    refine forall_requests_step h.requests hs ?_ ?_ ?_ ?_ ?_
    · exact fun _ f hf => by cases hf
    · exact fun _ => hkept
    · exact fun _ => hrestored
    · exact fun _ outcome _ _ _ => carried_loaded h.edits.store outcome
    · exact fun _ _ _ _ _ _ _ f hf => by cases hf
  cases stepped hs with
  | focus _ _ => exact ⟨h.edits, h.added, h.list, h.batch, hrequests⟩
  | blur _ => exact ⟨h.edits, h.added, h.list, h.batch, hrequests⟩
  | unmount _ => exact ⟨h.edits, h.added, h.list, h.batch, hrequests⟩
  | select itemId _ _ _ =>
    refine ⟨h.edits, h.added, fun f hf => ?_, h.batch, hrequests⟩
    obtain ⟨item, hitem, rfl⟩ := List.mem_map.mp hf
    unfold flipSelected
    split
    · exact hP item _ (h.list item hitem)
    · exact h.list item hitem
  | delete _ _ => exact ⟨h.edits, h.added, hkept, hkept, hrequests⟩
  | undo _ _ => exact ⟨h.edits, h.added, hrestored, h.batch, hrequests⟩
  | tick _ _ =>
    refine ⟨h.edits, h.added, ?_, ?_, hrequests⟩
    · show ∀ f ∈ d.favorites.screen.tick.favorites, P f
      rw [tick_favorites]
      exact h.list
    · show ∀ f ∈ d.favorites.screen.tick.recentlyDeleted, P f
      rcases tick_recentlyDeleted d.favorites.screen with ht | ht <;> rw [ht]
      · exact h.batch
      · exact fun f hf => by cases hf
  | serveLoad _ _ _ _ _ => exact ⟨h.edits, h.added, h.list, h.batch, hrequests⟩
  | serveSave outcome tag kind body before after hr =>
    have hbody : ∀ f ∈ body, P f := h.requests ⟨tag, .save kind body⟩ (by simp [hr])
    refine ⟨h.edits.overwrite ?_, h.added, h.list, h.batch, hrequests⟩
    rcases Server.post_or d.favorites.store body outcome with hs | hs <;> rw [hs]
    · exact h.edits.store
    · exact hbody
  | replyLoad tag response before after hr =>
    refine ⟨h.edits, h.added, fun f hf => ?_, h.batch, hrequests⟩
    obtain ⟨item, hitem, rfl⟩ := List.mem_map.mp hf
    exact hP item _ (loaded_list (h.requests ⟨tag, .loaded response⟩ (by simp [hr])) item hitem)
  | replySave tag kind response before after hr =>
    refine ⟨h.edits, h.added, ?_, ?_, hrequests⟩
    · show ∀ f ∈ (d.favorites.screen.saveOver kind response).favorites, P f
      rw [saveOver_favorites]
      exact h.list
    · cases kind with
      | delete => exact h.batch
      | undo => exact fun f hf => by cases hf

/-- A call of a heart is made, or goes on. -/
theorem Everywhere.heart (h : Everywhere P d) {a : Rmw.Act Edit} {edits : Edits}
    (hadd : ∀ f, a = .call (.add f) → P f) (hs : d.edits.step a = some edits) :
    Everywhere P ⟨{ d.favorites with store := edits.store }, edits.calls⟩ where
  edits := h.edits.step (fun c hc _ _ => everywhere_updated (h.added c hc)) hs
  added c hc f hf := by
    rcases step_cases hs with ⟨o, rfl, rfl⟩ | ⟨n, o, rfl, hn, rfl⟩ | ⟨n, o, v, rfl, hn, rfl⟩
    · rcases List.mem_append.mp hc with hc | hc
      · exact h.added c hc f hf
      · rw [List.mem_singleton.mp hc] at hf
        exact hadd f (by rw [← hf])
    · rcases List.mem_or_eq_of_mem_set hc with hc | rfl
      · exact h.added c hc f hf
      · exact h.added _ (List.mem_of_getElem? hn) f hf
    · rcases List.mem_or_eq_of_mem_set hc with hc | rfl
      · exact h.added c hc f hf
      · exact h.added _ (List.mem_of_getElem? hn) f hf
  list := h.list
  batch := h.batch
  requests := h.requests

/-- A call goes on after a request that failed. -/
theorem Everywhere.failed (h : Everywhere P d) {n : ℕ} {o : Edit}
    {phase phase' : Phase (List Favorite)} (hn : d.hearts[n]? = some ⟨o, phase⟩)
    (hphase : ∀ l, phase' = .writing l → ∀ f ∈ l, P f) :
    Everywhere P { d with hearts := d.hearts.set n ⟨o, phase'⟩ } where
  edits := by
    refine ⟨h.edits.store, fun c hc l hl => ?_⟩
    rcases List.mem_or_eq_of_mem_set hc with hc | rfl
    · exact h.edits.writing c hc l hl
    · exact hphase l hl
  added c hc f hf := by
    rcases List.mem_or_eq_of_mem_set hc with hc | rfl
    · exact h.added c hc f hf
    · exact h.added _ (List.mem_of_getElem? hn) f hf
  list := h.list
  batch := h.batch
  requests := h.requests

/-! ## Runs -/

namespace World

variable {t : String → String} {store : List Favorite} {w u : World} {a : Act}

/-- What every run keeps. -/
structure Going (catalogue : List Recipe) (w : World) : Prop where
  device : Everywhere (FromHeart catalogue) w.device
  found : ∀ params ∈ w.found, Sourced catalogue params.recipe

/-- The step lemma. -/
theorem Going.step (h : Going catalogue w) (hg : w.Tapped catalogue a)
    (hs : w.step t a = some u) : Going catalogue u := by
  cases a with
  | device a =>
    obtain ⟨d, hd, rfl⟩ := Option.map_eq_some_iff.mp hs
    refine ⟨?_, h.found⟩
    cases a with
    | screen a =>
      obtain ⟨s, hstep, rfl⟩ := Option.map_eq_some_iff.mp hd
      exact h.device.screen (fun f selected hf => hf.select selected) hstep
    | heart a =>
      obtain ⟨edits, hstep, rfl⟩ := Option.map_eq_some_iff.mp hd
      refine h.device.heart (fun f hf => ?_) hstep
      obtain ⟨recipe, hrecipe, hoffered⟩ := hg f (by rw [hf])
      have hsourced : Sourced catalogue recipe := by
        rcases hrecipe with hrecipe | hrecipe
        · exact sourced_of_mem hrecipe
        · obtain ⟨params, hparams, rfl⟩ := List.mem_map.mp hrecipe
          exact h.found params hparams
      exact hsourced.fromHeart hoffered
  | failGet n =>
    simp only [World.step] at hs
    split at hs
    · next o hn =>
      cases hs
      refine ⟨h.device.failed hn fun l hl => ?_, h.found⟩
      cases hu : o.updatedFavorites [] with
      | none => rw [hu] at hl; cases hl
      | some l' =>
        rw [hu] at hl
        cases hl
        exact everywhere_updated (h.device.added _ (List.mem_of_getElem? hn))
          (fun f hf => by cases hf) hu
    · cases hs
  | failPost n =>
    simp only [World.step] at hs
    split at hs
    · next o l hn =>
      cases hs
      exact ⟨h.device.failed hn fun l hl => (by cases hl), h.found⟩
    · cases hs
  | findInStore lang =>
    simp only [World.step, Option.ite_none_right_eq_some] at hs
    obtain ⟨-, hs⟩ := hs
    split at hs
    · next params hp =>
      cases hs
      refine ⟨h.device, List.forall_mem_append.mpr ⟨h.found, fun p hmem => ?_⟩⟩
      rw [List.mem_singleton.mp hmem]
      exact sourced_found h.device.list hp
    · cases hs
      exact h

/-- **Favourites going round**: whatever overlaps and whatever fails, every favourite that is
stored or shown was saved for an ingredient of the catalogue, at a shop that has it; and a
selection of differently named ones, looked for at any moment and in any language, is offered
by the shop each was hearted in. -/
theorem favorites_circulation (hstore : ∀ f ∈ store, FromHeart catalogue f)
    (h : Reach (World.step t) (Tapped catalogue) (initial store) w) :
    (∀ f ∈ w.device.favorites.store, FromHeart catalogue f) ∧
    (∀ f ∈ w.device.favorites.screen.restoredItems, FromHeart catalogue f) ∧
    let list := w.device.favorites.screen.favorites
    (list.filter isSelected ≠ [] → ((list.filter isSelected).map originalName).Nodup →
      ∀ (lang : Lang) (random : ℕ → Fin 5), ∃ params cards,
        handleFindInStore t lang list = .ok params ∧
        processStoreData t lang random params.selectedItems params.recipe = some cards ∧
        ∀ item ∈ list.filter isSelected, ∃ card ∈ cards, card.name = item.storeName ∧
          (selectedItem lang item).name ∈ card.includedIngredients) := by
  have hw : Going catalogue w := h.invariant ⟨.initial hstore, fun p hp => by cases hp⟩
    fun _ _ _ hw hg hs => hw.step hg hs
  refine ⟨hw.device.edits.store,
    List.forall_mem_append.mpr ⟨hw.device.list, hw.device.batch⟩, ?_⟩
  intro list hselected hnames lang random
  have hsel : ∀ item ∈ list.filter isSelected, FromHeart catalogue item :=
    fun item hi => hw.device.list item (List.mem_filter.mp hi).1
  exact shops_offer (fun item hi => (hsel item hi).saved) (fun item hi => (hsel item hi).shop)
    hselected hnames t lang random

/-- Salt is hearted in one dish; the call's `POST` overlaps a load of the Favorites screen,
which then loads again and shows it, selected. -/
theorem favorites_circulation_salt : ∃ w : World,
    (w.device.favorites.screen.favorites.filter isSelected).map (·.storeName) = ["Lidl"] ∧
      ∃ params cards,
        handleFindInStore id .fr w.device.favorites.screen.favorites = .ok params ∧
        processStoreData id .fr (fun _ => 0) params.selectedItems params.recipe = some cards ∧
        ∀ item ∈ w.device.favorites.screen.favorites.filter isSelected,
          ∃ card ∈ cards, card.name = item.storeName ∧
            (selectedItem .fr item).name ∈ card.includedIngredients := by
  have hoffered := saltFavorite_offered (n := 1) (by norm_num)
  have hcall : Reach (step id) (Tapped [saltDish 1]) (initial [])
      ⟨⟨.initial [], [⟨.add (saltFavorite 1), .reading⟩]⟩, []⟩ := by
    refine Reach.start.next (a := .device (.heart (.call (.add (saltFavorite 1))))) ?_ rfl
    intro f hf
    cases hf
    exact ⟨_, .inl (.head _), hoffered⟩
  obtain ⟨w, hw, hshown⟩ := Reach.of_exec (step id) Quiet
    ⟨⟨.initial [], [⟨.add (saltFavorite 1), .reading⟩]⟩, []⟩
    [.device (.screen .focus), .device (.heart (.read 0)), .device (.screen (.serve 0 .answered)),
      .device (.heart (.write 0)), .device (.screen (.reply 0)), .device (.screen .blur),
      .device (.screen .focus), .device (.screen (.serve 0 .answered)),
      .device (.screen (.reply 0)), .device (.screen (.select (.num 1))), .findInStore .fr]
    (fun w => w.device.favorites.screen.favorites = allSelected [saltFavorite 1]) (by decide)
  have hrun := hcall.trans (hw.mono fun w a h => h.tapped)
  have hsome := (favorites_circulation (fun f hf => by cases hf) hrun).2.2
  refine ⟨w, ?_⟩
  rw [hshown] at hsome ⊢
  exact ⟨rfl, hsome (by decide) (by decide) .fr _⟩

end World

end IngrediGo.Hearts
