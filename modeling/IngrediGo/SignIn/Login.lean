import IngrediGo.Data.Value
import IngrediGo.Lib.Lists
import IngrediGo.Lib.Runs

/-!
# Signing in

The login popups of `signIn.tsx`, the saves of `userData` they start, and the Profile screens
that load it. The store, any number of screens of both kinds and the saves in flight make up
one system; a save may fail before or after it has written.

`Loading`: a screen says it is logging in exactly while one save of its is in flight.
-/

namespace IngrediGo.SignInScreen

open Lib

/-- What `AsyncStorage` holds under `userData`. -/
structure UserData where
  name : String
  profession : String
  deriving DecidableEq, Repr

structure Screen where
  showLoginPopup : Bool
  username : String
  password : String
  errorMessage : String
  isLoading : Bool
  deriving DecidableEq, Repr

/-- What has become of a save. -/
inductive Phase where
  | writing
  /-- The storage has the record, and the answer is on its way. -/
  | written
  /-- `navigation.navigate('Home')` -/
  | home
  | failed
  deriving DecidableEq, Repr

structure Save where
  screen : ℕ
  userData : UserData
  phase : Phase
  deriving DecidableEq, Repr

/-- What has become of `loadUserData`. -/
inductive Load where
  | reading
  | read (savedUserData : Option UserData)
  | loaded
  | failed
  deriving DecidableEq, Repr

structure Profile where
  userData : UserData
  load : Load
  /-- Home had been navigated to when the screen was mounted. -/
  entered : Bool
  deriving DecidableEq, Repr

/-- `none` is a screen that is unmounted. -/
structure System where
  screens : List (Option Screen)
  saves : List Save
  saved : Option UserData
  profiles : List (Option Profile)
  /-- The saves that have led to Home, in order. -/
  homes : List ℕ
  deriving DecidableEq, Repr

inductive Act where
  | mount
  | unmount (i : ℕ)
  /-- `CONNECT WITH OUTLOOK` -/
  | connect (i : ℕ)
  | setUsername (i : ℕ) (username : String)
  | setPassword (i : ℕ) (password : String)
  /-- `Login as Guest` -/
  | guestLogin (i : ℕ)
  /-- `LOGIN` -/
  | login (i : ℕ)
  | written (k : ℕ)
  | settled (k : ℕ)
  | failed (k : ℕ)
  | openProfile
  | closeProfile (j : ℕ)
  | read (j : ℕ)
  | loaded (j : ℕ)
  | loadFailed (j : ℕ)
  deriving DecidableEq, Repr

/-! ## The login popup -/

namespace Screen

def initial : Screen := ⟨false, "", "", "", false⟩

def handlePress (screen : Screen) : Screen :=
  { screen with showLoginPopup := true, errorMessage := "" }

def handleGuestLogin (screen : Screen) : Screen :=
  { screen with username := "usertest", password := "usertest" }

/-- The condition of `handleLogin`. -/
def accepted (screen : Screen) : Bool :=
  screen.username = "usertest" && screen.password = "usertest"

/-- The screen while `AsyncStorage.setItem` is awaited. -/
def saving (screen : Screen) : Screen := { screen with isLoading := true, errorMessage := "" }

/-- The screen `handleLogin` leaves without saving. -/
def rejected (screen : Screen) : Screen :=
  { screen with
    isLoading := false
    errorMessage :=
      if Js.truthy screen.username && Js.truthy screen.password then
        "Invalid credentials. Please try again or login as guest."
      else "Please enter both username and password" }

/-- The record saved. -/
def record (screen : Screen) : UserData := ⟨screen.username, "University Student"⟩

def entered (screen : Screen) : Screen :=
  { screen with showLoginPopup := false, isLoading := false }

def saveFailed (screen : Screen) : Screen :=
  { screen with errorMessage := "Failed to save user data", isLoading := false }

end Screen

/-! ## The Profile screen -/

def Profile.initial (entered : Bool) : Profile := ⟨⟨"", ""⟩, .reading, entered⟩

/-- What `loadUserData` sets. -/
def loadUserData (savedUserData : Option UserData) (userData : UserData) : UserData :=
  match savedUserData with
  | none => userData
  | some parsedData =>
    ⟨parsedData.name, Js.orElse (some parsedData.profession) "University Student"⟩

/-- `userData.name || 'Guest User'` -/
def Profile.profileName (profile : Profile) : String :=
  Js.orElse (some profile.userData.name) "Guest User"

/-! ## Steps -/

namespace System

def start : System := ⟨[], [], none, [], []⟩

/-- A screen, while it is mounted. -/
def screen? (s : System) (i : ℕ) : Option Screen := s.screens[i]?.join

def profile? (s : System) (j : ℕ) : Option Profile := s.profiles[j]?.join

def setScreen (s : System) (i : ℕ) (screen : Screen) : System :=
  { s with screens := s.screens.set i (some screen) }

/-- What the user does on a screen. -/
def onScreen (s : System) (i : ℕ) (set : Screen → Screen) : Option System :=
  (s.screen? i).map fun screen => s.setScreen i (set screen)

/-- What the user does in its popup, if that is shown. -/
def onPopup (s : System) (i : ℕ) (set : Screen → Screen) : Option System :=
  if (s.screen? i).any (·.showLoginPopup) then s.onScreen i set else none

def handleLogin (s : System) (i : ℕ) (screen : Screen) : System :=
  if screen.accepted then
    { s.setScreen i screen.saving with saves := s.saves ++ [⟨i, screen.record, .writing⟩] }
  else s.setScreen i screen.rejected

/-- A save goes on, and sets the state of its screen if that is still mounted. -/
def advance (s : System) (k : ℕ) (save : Save) (set : Screen → Screen) : System :=
  { s with
    saves := s.saves.set k save
    screens := s.screens.modify save.screen (Option.map set) }

/-- What comes after a phase of a save. -/
def awaiting (s : System) (k : ℕ) (phases : List Phase) (next : Save → System) : Option System :=
  match s.saves[k]? with
  | none => none
  | some save => if save.phase ∈ phases then some (next save) else none

/-- What comes after `load` of a Profile screen; nothing if it is not mounted. -/
def onLoad (s : System) (j : ℕ) (next : Profile → Option Profile) : Option System :=
  ((s.profile? j).bind next).map fun profile =>
    { s with profiles := s.profiles.set j (some profile) }

def step (s : System) : Act → Option System
  | .mount => some { s with screens := s.screens ++ [some .initial] }
  | .unmount i => some { s with screens := s.screens.set i none }
  | .connect i => s.onScreen i .handlePress
  | .setUsername i username => s.onPopup i ({ · with username := username })
  | .setPassword i password => s.onPopup i ({ · with password := password })
  | .guestLogin i => s.onPopup i .handleGuestLogin
  | .login i =>
    match s.screen? i with
    | none => none
    | some screen =>
      if screen.showLoginPopup && !screen.isLoading then some (s.handleLogin i screen) else none
  | .written k => s.awaiting k [.writing] fun save =>
    { s.advance k { save with phase := .written } id with saved := some save.userData }
  | .settled k => s.awaiting k [.written] fun save =>
    { s.advance k { save with phase := .home } .entered with homes := s.homes ++ [k] }
  -- a save that fails may have written all the same
  | .failed k => s.awaiting k [.writing, .written] fun save =>
    s.advance k { save with phase := .failed } .saveFailed
  | .openProfile => some { s with profiles := s.profiles ++ [some (.initial (!s.homes.isEmpty))] }
  | .closeProfile j => some { s with profiles := s.profiles.set j none }
  | .read j => s.onLoad j fun profile =>
    if profile.load = .reading then some { profile with load := .read s.saved } else none
  | .loaded j => s.onLoad j fun profile =>
    match profile.load with
    | .read savedUserData => some
      { profile with userData := loadUserData savedUserData profile.userData, load := .loaded }
    | _ => none
  | .loadFailed j => s.onLoad j fun profile =>
    match profile.load with
    | .reading | .read _ => some { profile with load := .failed }
    | _ => none

end System

/-- The one record that is ever saved. -/
def student : UserData := ⟨"usertest", "University Student"⟩

/-- The save is one of screen `i`, and in flight. -/
def Save.pending (i : ℕ) (save : Save) : Bool :=
  save.screen = i && (save.phase = .writing || save.phase = .written)

/-! ## One step -/

variable {s t : System} {i k : ℕ} {screen : Screen} {save : Save}

theorem onScreen_some {set : Screen → Screen} (h : s.onScreen i set = some t) :
    ∃ screen, s.screen? i = some screen ∧ t = s.setScreen i (set screen) := by
  obtain ⟨screen, hscreen, rfl⟩ := Option.map_eq_some_iff.mp h
  exact ⟨screen, hscreen, rfl⟩

theorem onPopup_some {set : Screen → Screen} (h : s.onPopup i set = some t) :
    ∃ screen, s.screen? i = some screen ∧ t = s.setScreen i (set screen) := by
  unfold System.onPopup at h
  split at h
  · exact onScreen_some h
  · cases h

theorem awaiting_some {phases : List Phase} {next : Save → System}
    (h : s.awaiting k phases next = some t) :
    ∃ save, s.saves[k]? = some save ∧ save.phase ∈ phases ∧ next save = t := by
  unfold System.awaiting at h
  split at h
  · cases h
  · next save hk =>
    split at h
    · next hphase => exact ⟨save, hk, hphase, Option.some.inj h⟩
    · cases h

theorem onLoad_some {j : ℕ} {next : Profile → Option Profile} (h : s.onLoad j next = some t) :
    ∃ profile profile', s.profile? j = some profile ∧ next profile = some profile' ∧
      t = { s with profiles := s.profiles.set j (some profile') } := by
  obtain ⟨profile', hbind, rfl⟩ := Option.map_eq_some_iff.mp h
  obtain ⟨profile, hprofile, hnext⟩ := Option.bind_eq_some_iff.mp hbind
  exact ⟨profile, profile', hprofile, hnext, rfl⟩

/-- A press on `LOGIN` is a save of the record, or sets an error. -/
theorem login_some (h : s.step (.login i) = some t) :
    ∃ screen, s.screen? i = some screen ∧ screen.isLoading = false ∧
      (t = { s.setScreen i screen.saving with saves := s.saves ++ [⟨i, student, .writing⟩] } ∨
        t = s.setScreen i screen.rejected) := by
  simp only [System.step] at h
  split at h
  · cases h
  · next screen hscreen =>
    split at h
    · next hpopup =>
      rw [Bool.and_eq_true, Bool.not_eq_true'] at hpopup
      refine ⟨screen, hscreen, hpopup.2, ?_⟩
      cases Option.some.inj h
      unfold System.handleLogin
      split
      · next haccepted =>
        rw [Screen.accepted, Bool.and_eq_true, decide_eq_true_eq, decide_eq_true_eq] at haccepted
        rw [Screen.record, haccepted.1]
        exact .inl rfl
      · exact .inr rfl
    · cases h

/-! ## Saves in flight -/

/-- A mounted screen is loading exactly while one save of its is in flight, and shows no error
meanwhile. -/
structure Loading (screens : List (Option Screen)) (saves : List Save) : Prop where
  counted : ∀ (i : ℕ) (screen : Screen), screens[i]? = some (some screen) →
    saves.countP (Save.pending i) = if screen.isLoading then 1 else 0
  quiet : ∀ (i : ℕ) (screen : Screen), screens[i]? = some (some screen) →
    screen.isLoading = true → screen.errorMessage = ""
  known : ∀ save ∈ saves, save.screen < screens.length

section

variable {screens : List (Option Screen)} {saves : List Save} {screen' : Screen} {save' : Save}

/-- The screen of a pending save waits for it. -/
theorem Loading.isLoading (h : Loading screens saves) (hk : saves[k]? = some save)
    (hpending : save.pending i = true) (hi : screens[i]? = some (some screen)) :
    screen.isLoading = true := by
  have hpos : 0 < saves.countP (Save.pending i) :=
    List.countP_pos_iff.mpr ⟨save, List.mem_of_getElem? hk, hpending⟩
  rw [h.counted i screen hi] at hpos
  by_contra hloading
  rw [if_neg hloading] at hpos
  exact Nat.lt_irrefl 0 hpos

theorem Loading.mount (h : Loading screens saves) :
    Loading (screens ++ [some .initial]) saves := by
  refine ⟨fun i screen hi => ?_, fun i screen hi hloading => ?_, fun save hsave => ?_⟩
  · rcases getElem?_concat_some hi with hi | ⟨rfl, hscreen⟩
    · exact h.counted i screen hi
    · cases hscreen
      rw [List.countP_eq_zero.mpr]
      · rfl
      · intro save hsave hpending
        simp only [Save.pending, Bool.and_eq_true, decide_eq_true_eq] at hpending
        have hknown := h.known save hsave
        omega
  · rcases getElem?_concat_some hi with hi | ⟨rfl, hscreen⟩
    · exact h.quiet i screen hi hloading
    · cases hscreen
      rfl
  · rw [List.length_append]
    exact Nat.lt_add_right _ (h.known save hsave)

theorem Loading.unmount (h : Loading screens saves) (i : ℕ) :
    Loading (screens.set i none) saves := by
  have hold : ∀ (j : ℕ) (screen : Screen), (screens.set i none)[j]? = some (some screen) →
      screens[j]? = some (some screen) := by
    intro j screen hj
    rcases getElem?_set_some hj with ⟨-, hnone⟩ | ⟨-, hj⟩
    · cases hnone
    · exact hj
  refine ⟨fun j screen hj => h.counted j screen (hold j screen hj),
    fun j screen hj => h.quiet j screen (hold j screen hj), fun save hsave => ?_⟩
  rw [List.length_set]
  exact h.known save hsave

/-- One screen changes, together with the saves that are its. -/
theorem Loading.set (h : Loading screens saves) {saves' : List Save}
    (hcount : saves'.countP (Save.pending i) = if screen'.isLoading then 1 else 0)
    (hothers : ∀ j, i ≠ j → saves'.countP (Save.pending j) = saves.countP (Save.pending j))
    (hquiet : screen'.isLoading = true → screen'.errorMessage = "")
    (hknown : ∀ save ∈ saves', save.screen < screens.length) :
    Loading (screens.set i (some screen')) saves' := by
  refine ⟨fun j other hj => ?_, fun j other hj hloading => ?_, fun save hsave => ?_⟩
  · rcases getElem?_set_some hj with ⟨rfl, hnew⟩ | ⟨hij, hj⟩
    · cases hnew
      exact hcount
    · rw [hothers j hij]
      exact h.counted j other hj
  · rcases getElem?_set_some hj with ⟨rfl, hnew⟩ | ⟨-, hj⟩
    · cases hnew
      exact hquiet hloading
    · exact h.quiet j other hj hloading
  · rw [List.length_set]
    exact hknown save hsave

/-- What the user does besides pressing `LOGIN`, and what `LOGIN` does without saving. -/
theorem Loading.edit (h : Loading screens saves) (hi : screens[i]? = some (some screen))
    (hsame : screen'.isLoading = screen.isLoading)
    (hquiet : screen.isLoading = true → screen.errorMessage = "" → screen'.errorMessage = "") :
    Loading (screens.set i (some screen')) saves := by
  refine h.set ?_ (fun _ _ => rfl) (fun hloading => ?_) h.known
  · rw [hsame]
    exact h.counted i screen hi
  · rw [hsame] at hloading
    exact hquiet hloading (h.quiet i screen hi hloading)

/-- A save is started. -/
theorem Loading.start (h : Loading screens saves) (hi : screens[i]? = some (some screen))
    (hloading : screen.isLoading = false) (userData : UserData) :
    Loading (screens.set i (some screen.saving)) (saves ++ [⟨i, userData, .writing⟩]) := by
  refine h.set ?_ (fun j hij => ?_) (fun _ => rfl) (fun save hsave => ?_)
  · rw [List.countP_append, h.counted i screen hi, hloading]
    simp [Save.pending, Screen.saving]
  · rw [List.countP_append]
    simp [Save.pending, hij]
  · rcases List.mem_append.mp hsave with hold | hnew
    · exact h.known save hold
    · rw [List.mem_singleton.mp hnew]
      exact (List.getElem?_eq_some_iff.mp hi).1

/-- A save is known by its screen whatever its phase. -/
theorem Loading.known_set (h : Loading screens saves) (hk : saves[k]? = some save)
    (hsame : save'.screen = save.screen) :
    ∀ other ∈ saves.set k save', other.screen < screens.length := by
  intro other hother
  rcases List.mem_or_eq_of_mem_set hother with hold | rfl
  · exact h.known other hold
  · rw [hsame]
    exact h.known save (List.mem_of_getElem? hk)

/-- A pending save has written. -/
theorem Loading.written (h : Loading screens saves) (hk : saves[k]? = some save)
    (hsame : save'.screen = save.screen)
    (hpending : ∀ i, save'.pending i = save.pending i) : Loading screens (saves.set k save') := by
  refine ⟨fun i screen hi => ?_, h.quiet, h.known_set hk hsame⟩
  obtain ⟨hlt, rfl⟩ := List.getElem?_eq_some_iff.mp hk
  have hcount := h.counted i screen hi
  rw [List.countP_set hlt, hpending]
  split
  · next hp =>
    have hpos : 0 < saves.countP (Save.pending i) :=
      List.countP_pos_iff.mpr ⟨_, List.getElem_mem hlt, hp⟩
    omega
  · omega

/-- A pending save is over. -/
theorem Loading.over (h : Loading screens saves) (save' : Save) (hk : saves[k]? = some save)
    (hsame : save'.screen = save.screen) (hpending : save.pending save.screen = true)
    (hover : ∀ i, save'.pending i = false) {set : Screen → Screen}
    (hset : ∀ screen, (set screen).isLoading = false) :
    Loading (screens.modify save.screen (Option.map set)) (saves.set k save') := by
  refine ⟨fun i screen' hi => ?_, fun i screen' hi hloading => ?_, fun other hother => ?_⟩
  · obtain ⟨hlt, hget⟩ := List.getElem?_eq_some_iff.mp hk
    rw [List.countP_set hlt, hover, hget]
    rcases getElem?_modify_some hi with ⟨rfl, entry, hentry, hnew⟩ | ⟨hne, hi⟩
    · obtain ⟨screen, rfl, rfl⟩ := Option.map_eq_some_iff.mp hnew.symm
      rw [h.counted _ screen hentry, h.isLoading hk hpending hentry, hpending, hset]
      rfl
    · have hother : save.pending i = false := by
        rw [Save.pending, decide_eq_false hne, Bool.false_and]
      rw [h.counted i screen' hi, hother]
      rfl
  · rcases getElem?_modify_some hi with ⟨rfl, entry, hentry, hnew⟩ | ⟨-, hi⟩
    · obtain ⟨screen, rfl, rfl⟩ := Option.map_eq_some_iff.mp hnew.symm
      rw [hset] at hloading
      cases hloading
    · exact h.quiet i screen' hi hloading
  · rw [List.length_modify]
    exact h.known_set hk hsame other hother

end

end IngrediGo.SignInScreen
