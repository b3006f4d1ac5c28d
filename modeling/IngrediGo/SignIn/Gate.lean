import IngrediGo.SignIn.Login

/-!
# The login gate

What the saves of the login popups lead to. `login_gate`: Home is navigated to once for each save
that succeeds, not before the record is stored, and a Profile screen opened after that shows the
user. `can_enter`: no screen is ever stuck.
-/

namespace IngrediGo.SignInScreen

open Lib

variable {s t : System} {i k : ℕ} {screen : Screen} {save : Save}

/-! ## What is stored -/

/-- Every save is of the one record, and those that have written have stored it; Home has been
navigated to once for each that succeeded. -/
structure Stored (saves : List Save) (saved : Option UserData) (homes : List ℕ) : Prop where
  records : ∀ save ∈ saves, save.userData = student ∧
    (save.phase = .written ∨ save.phase = .home → saved = some student)
  saved : ∀ userData ∈ saved, userData = student
  once : homes.Nodup
  homes : ∀ k, k ∈ homes ↔ ∃ save, saves[k]? = some save ∧ save.phase = .home

section

variable {saves : List Save} {saved : Option UserData} {homes : List ℕ} {save' : Save}

theorem Stored.start (h : Stored saves saved homes) (i : ℕ) :
    Stored (saves ++ [⟨i, student, .writing⟩]) saved homes := by
  refine ⟨fun save hsave => ?_, h.saved, h.once, fun k => ?_⟩
  · rcases List.mem_append.mp hsave with hold | hnew
    · exact h.records save hold
    · rw [List.mem_singleton.mp hnew]
      exact ⟨rfl, fun hphase => by rcases hphase with hphase | hphase <;> cases hphase⟩
  · rw [h.homes]
    constructor
    · rintro ⟨save, hk, hphase⟩
      exact ⟨save, List.getElem?_append_left (List.getElem?_eq_some_iff.mp hk).1 ▸ hk, hphase⟩
    · rintro ⟨save, hk, hphase⟩
      rcases getElem?_concat_some hk with hold | ⟨-, rfl⟩
      · exact ⟨save, hold, hphase⟩
      · cases hphase

/-- Which saves have led to Home, once one has changed. -/
theorem home_set (hk : saves[k]? = some save) (hnot : save.phase ≠ .home) (j : ℕ) :
    (∃ other, (saves.set k save')[j]? = some other ∧ other.phase = .home) ↔
      (∃ other, saves[j]? = some other ∧ other.phase = .home) ∨
        j = k ∧ save'.phase = .home := by
  constructor
  · rintro ⟨other, hj, hphase⟩
    rcases getElem?_set_some hj with ⟨rfl, rfl⟩ | ⟨-, hj⟩
    · exact .inr ⟨rfl, hphase⟩
    · exact .inl ⟨other, hj, hphase⟩
  · rintro (⟨other, hj, hphase⟩ | ⟨rfl, hphase⟩)
    · have hne : k ≠ j := by
        rintro rfl
        rw [hk] at hj
        cases hj
        exact hnot hphase
      exact ⟨other, (List.getElem?_set_ne hne).trans hj, hphase⟩
    · exact ⟨save', List.getElem?_set_self (List.getElem?_eq_some_iff.mp hk).1, hphase⟩

theorem Stored.records_set (h : Stored saves saved homes) (hk : saves[k]? = some save)
    (save' : Save) (hsame : save'.userData = save.userData) {saved' : Option UserData}
    (hold : saved = some student → saved' = some student)
    (hnew : save'.phase = .written ∨ save'.phase = .home → saved' = some student) :
    ∀ other ∈ saves.set k save', other.userData = student ∧
      (other.phase = .written ∨ other.phase = .home → saved' = some student) := by
  intro other hother
  rcases List.mem_or_eq_of_mem_set hother with hmem | rfl
  · obtain ⟨hrecord, hstored⟩ := h.records other hmem
    exact ⟨hrecord, fun hphase => hold (hstored hphase)⟩
  · exact ⟨hsame.trans (h.records save (List.mem_of_getElem? hk)).1, hnew⟩

/-- A save writes. -/
theorem Stored.written (h : Stored saves saved homes) (hk : saves[k]? = some save)
    (hphase : save.phase = .writing) :
    Stored (saves.set k { save with phase := .written }) (some save.userData) homes := by
  have hrecord := (h.records save (List.mem_of_getElem? hk)).1
  refine ⟨h.records_set hk { save with phase := .written } rfl (fun _ => congrArg some hrecord)
    (fun _ => congrArg some hrecord), fun userData hin => ?_, h.once, fun j => ?_⟩
  · exact (Option.some.inj hin).symm.trans hrecord
  · rw [h.homes, home_set hk (by rw [hphase]; decide)]
    simp

/-- A save succeeds. -/
theorem Stored.home (h : Stored saves saved homes) (hk : saves[k]? = some save)
    (hphase : save.phase = .written) :
    Stored (saves.set k { save with phase := .home }) saved (homes ++ [k]) := by
  have hstored := (h.records save (List.mem_of_getElem? hk)).2 (.inl hphase)
  refine ⟨h.records_set hk { save with phase := .home } rfl id fun _ => hstored, h.saved, ?_,
    fun j => ?_⟩
  · rw [List.nodup_append_comm]
    refine List.nodup_cons.mpr ⟨fun hin => ?_, h.once⟩
    obtain ⟨other, hother, hhome⟩ := (h.homes k).mp hin
    rw [hk] at hother
    cases hother
    rw [hphase] at hhome
    cases hhome
  · rw [home_set hk (by rw [hphase]; decide), List.mem_append, h.homes, List.mem_singleton]
    simp

/-- A save fails. -/
theorem Stored.failed (h : Stored saves saved homes) (hk : saves[k]? = some save)
    (hphase : save.phase ≠ .home) :
    Stored (saves.set k { save with phase := .failed }) saved homes := by
  refine ⟨h.records_set hk { save with phase := .failed } rfl id fun hfailed => ?_, h.saved, h.once,
    fun j => ?_⟩
  · rcases hfailed with hfailed | hfailed <;> cases hfailed
  · rw [h.homes, home_set hk hphase]
    simp

/-- The storage keeps the record once it has it. -/
theorem Stored.of_homes (h : Stored saves saved homes) (hne : homes ≠ []) :
    saved = some student := by
  obtain ⟨k, hk⟩ := List.exists_mem_of_ne_nil _ hne
  obtain ⟨save, hsave, hphase⟩ := (h.homes k).mp hk
  exact (h.records save (List.mem_of_getElem? hsave)).2 (.inr hphase)

end

/-! ## What Profile shows -/

/-- What a Profile screen has read and shows; one opened from Home finds the record. -/
structure Profile.Kept (saved : Option UserData) (profile : Profile) : Prop where
  entered : profile.entered = true → saved = some student
  reads : ∀ savedUserData, profile.load = .read savedUserData →
    (∀ userData ∈ savedUserData, userData = student) ∧
      (profile.entered = true → savedUserData = some student)
  shows : profile.userData = ⟨"", ""⟩ ∨ profile.userData = student
  loaded : profile.load = .loaded → profile.entered = true → profile.userData = student

/-- The storage only gains the record. -/
theorem Profile.Kept.mono {saved saved' : Option UserData} {profile : Profile}
    (h : profile.Kept saved) (hs : saved = some student → saved' = some student) :
    profile.Kept saved' :=
  ⟨fun hentered => hs (h.entered hentered), h.reads, h.shows, h.loaded⟩

theorem Profile.Kept.loadUserData {saved savedUserData : Option UserData} {profile : Profile}
    (h : profile.Kept saved) (hload : profile.load = .read savedUserData) :
    ({ profile with
      userData := SignInScreen.loadUserData savedUserData profile.userData
      load := .loaded } : Profile).Kept saved := by
  obtain ⟨hrecord, hentered⟩ := h.reads savedUserData hload
  refine ⟨h.entered, fun _ hread => (by cases hread), ?_, fun _ hin => ?_⟩
  · cases savedUserData with
    | none => exact h.shows
    | some userData =>
      rw [hrecord userData rfl]
      exact .inr rfl
  · show SignInScreen.loadUserData savedUserData profile.userData = student
    rw [hentered hin]
    rfl

/-! ## Runs -/

structure System.Kept (s : System) : Prop where
  loading : Loading s.screens s.saves
  stored : Stored s.saves s.saved s.homes
  profiles : ∀ profile, some profile ∈ s.profiles → profile.Kept s.saved

theorem System.Kept.start : System.start.Kept where
  loading := ⟨fun _ _ hi => (by cases hi), fun _ _ hi => (by cases hi), fun _ hs => (by cases hs)⟩
  stored := ⟨fun _ hs => (by cases hs), fun _ hs => (by cases hs), List.nodup_nil,
    fun _ => ⟨fun hk => (by cases hk), fun ⟨_, hk, _⟩ => (by cases hk)⟩⟩
  profiles _ hp := by cases hp

/-- One Profile screen changes. -/
theorem System.Kept.onLoad (h : s.Kept) {j : ℕ} {next : Profile → Option Profile}
    (hs : s.onLoad j next = some t)
    (hnext : ∀ profile profile', profile.Kept s.saved → next profile = some profile' →
      profile'.Kept s.saved) : t.Kept := by
  obtain ⟨profile, profile', hprofile, hn, rfl⟩ := onLoad_some hs
  refine ⟨h.loading, h.stored, fun other hother => ?_⟩
  rcases List.mem_or_eq_of_mem_set hother with hold | hnew
  · exact h.profiles other hold
  · cases hnew
    have hin : some profile ∈ s.profiles :=
      List.mem_of_getElem? (Option.join_eq_some_iff.mp hprofile)
    exact hnext profile profile' (h.profiles profile hin) hn

/-- The user does something that neither starts a save nor ends one. -/
theorem System.Kept.edit (h : s.Kept) {screen' : Screen} (hi : s.screen? i = some screen)
    (hsame : screen'.isLoading = screen.isLoading)
    (hquiet : screen.isLoading = true → screen.errorMessage = "" → screen'.errorMessage = "") :
    (s.setScreen i screen').Kept :=
  ⟨h.loading.edit (Option.join_eq_some_iff.mp hi) hsame hquiet, h.stored, h.profiles⟩

/-- The step lemma. -/
theorem kept_step {a : Act} (h : s.Kept) (hs : s.step a = some t) : t.Kept := by
  cases a with
  | mount => cases hs; exact ⟨h.loading.mount, h.stored, h.profiles⟩
  | unmount i => cases hs; exact ⟨h.loading.unmount i, h.stored, h.profiles⟩
  | connect i =>
    obtain ⟨screen, hi, rfl⟩ := onScreen_some hs
    exact h.edit hi rfl fun _ _ => rfl
  | setUsername i username =>
    obtain ⟨screen, hi, rfl⟩ := onPopup_some hs
    exact h.edit hi rfl fun _ hquiet => hquiet
  | setPassword i password =>
    obtain ⟨screen, hi, rfl⟩ := onPopup_some hs
    exact h.edit hi rfl fun _ hquiet => hquiet
  | guestLogin i =>
    obtain ⟨screen, hi, rfl⟩ := onPopup_some hs
    exact h.edit hi rfl fun _ hquiet => hquiet
  | login i =>
    obtain ⟨screen, hi, hloading, rfl | rfl⟩ := login_some hs
    · exact ⟨h.loading.start (Option.join_eq_some_iff.mp hi) hloading student, h.stored.start i,
        h.profiles⟩
    · refine h.edit hi hloading.symm fun htrue => ?_
      rw [hloading] at htrue
      cases htrue
  | written k =>
    obtain ⟨save, hk, hphase, rfl⟩ := awaiting_some hs
    have hphase := List.mem_singleton.mp hphase
    have hrecord := (h.stored.records save (List.mem_of_getElem? hk)).1
    refine ⟨?_, h.stored.written hk hphase, fun profile hp => ?_⟩
    · show Loading (s.screens.modify save.screen (Option.map id)) _
      rw [Option.map_id, List.modify_id]
      refine h.loading.written hk rfl fun i => ?_
      simp [Save.pending, hphase]
    · exact (h.profiles profile hp).mono fun _ => congrArg some hrecord
  | settled k =>
    obtain ⟨save, hk, hphase, rfl⟩ := awaiting_some hs
    have hphase := List.mem_singleton.mp hphase
    refine ⟨?_, h.stored.home hk hphase, h.profiles⟩
    refine h.loading.over { save with phase := .home } hk rfl ?_ (fun i => ?_)
      fun screen => (rfl : screen.entered.isLoading = _)
    · simp [Save.pending, hphase]
    · simp [Save.pending]
  | failed k =>
    obtain ⟨save, hk, hphase, rfl⟩ := awaiting_some hs
    have hphase : save.phase = .writing ∨ save.phase = .written := by simpa using hphase
    refine ⟨?_, h.stored.failed hk ?_, h.profiles⟩
    · refine h.loading.over { save with phase := .failed } hk rfl ?_ (fun i => ?_)
        fun screen => (rfl : screen.saveFailed.isLoading = _)
      · simp [Save.pending, hphase]
      · simp [Save.pending]
    · rcases hphase with hphase | hphase <;> rw [hphase] <;> decide
  | openProfile =>
    cases hs
    refine ⟨h.loading, h.stored, fun profile hp => ?_⟩
    rcases List.mem_append.mp hp with hold | hnew
    · exact h.profiles profile hold
    · cases List.mem_singleton.mp hnew
      refine ⟨fun hentered => h.stored.of_homes ?_, fun _ hread => (by cases hread), .inl rfl,
        fun hloaded => (by cases hloaded)⟩
      rintro hnil
      simp [Profile.initial, hnil] at hentered
  | closeProfile j =>
    cases hs
    refine ⟨h.loading, h.stored, fun profile hp => ?_⟩
    rcases List.mem_or_eq_of_mem_set hp with hold | hnew
    · exact h.profiles profile hold
    · cases hnew
  | read j =>
    refine h.onLoad hs fun profile profile' hp hnext => ?_
    obtain ⟨-, hnext⟩ := Option.ite_none_right_eq_some.mp hnext
    cases hnext
    refine ⟨hp.entered, fun savedUserData hread => ?_, hp.shows, fun hloaded => (by cases hloaded)⟩
    cases hread
    exact ⟨h.stored.saved, hp.entered⟩
  | loaded j =>
    refine h.onLoad hs fun profile profile' hp hnext => ?_
    split at hnext
    · next savedUserData hload =>
      cases hnext
      exact hp.loadUserData hload
    · cases hnext
  | loadFailed j =>
    refine h.onLoad hs fun profile profile' hp hnext => ?_
    have hfailed : ({ profile with load := .failed } : Profile).Kept s.saved :=
      ⟨hp.entered, fun _ hread => (by cases hread), hp.shows, fun hloaded => (by cases hloaded)⟩
    split at hnext
    · cases hnext; exact hfailed
    · cases hnext; exact hfailed
    · cases hnext

/-- **The login gate**: in every run, a mounted screen is loading exactly while one save of its
is in flight, and shows no error then; Home is navigated to once for each save that succeeds, and
never before the record is stored; Profile shows the guest or the record, and once loaded the
record if Home was navigated to before. -/
theorem login_gate (h : Reach System.step Free .start s) :
    (∀ i screen, s.screen? i = some screen →
      s.saves.countP (Save.pending i) = (if screen.isLoading then 1 else 0) ∧
        (screen.isLoading = true → screen.errorMessage = "")) ∧
    s.homes.Nodup ∧
    (∀ k, k ∈ s.homes ↔ ∃ save, s.saves[k]? = some save ∧ save.phase = .home) ∧
    (s.homes ≠ [] → s.saved = some student) ∧
    ∀ profile, some profile ∈ s.profiles →
      (profile.profileName = "Guest User" ∨ profile.profileName = "usertest") ∧
        (profile.load = .loaded → profile.entered = true → profile.userData = student) := by
  have hkept : s.Kept := h.invariant .start fun _ _ _ hs _ ht => kept_step hs ht
  refine ⟨fun i screen hi => ?_, hkept.stored.once, hkept.stored.homes, hkept.stored.of_homes,
    fun profile hp => ⟨?_, (hkept.profiles profile hp).loaded⟩⟩
  · have hi := Option.join_eq_some_iff.mp hi
    exact ⟨hkept.loading.counted i screen hi, hkept.loading.quiet i screen hi⟩
  · unfold Profile.profileName
    rcases (hkept.profiles profile hp).shows with hshows | hshows
    · rw [hshows]
      exact .inl rfl
    · rw [hshows]
      exact .inr rfl

/-- A guest logs in, and looks at Profile. -/
def guestRun : List Act :=
  [.mount, .connect 0, .guestLogin 0, .login 0, .written 0, .settled 0, .openProfile, .read 0,
   .loaded 0]

theorem login_gate_guest : ∃ s : System, s.homes = [0] ∧ s.saved = some student ∧
    ∃ profile, some profile ∈ s.profiles ∧ profile.userData = student := by
  obtain ⟨s, hs, hhomes, hloaded⟩ := Reach.of_exec System.step Free .start guestRun
    (fun s => s.homes = [0] ∧ some ⟨student, .loaded, true⟩ ∈ s.profiles) (by decide)
  obtain ⟨-, -, -, hsaved, hprofiles⟩ := login_gate hs
  exact ⟨s, hhomes, hsaved (by rw [hhomes]; exact List.cons_ne_nil _ _), _, hloaded,
    (hprofiles _ hloaded).2 rfl rfl⟩

/-! ## Getting in -/

/-- A screen is in after a run, and Home has been navigated to once more. -/
def Enters (s : System) (i : ℕ) : Prop :=
  ∃ t, Reach System.step Free s t ∧ t.homes.length = s.homes.length + 1 ∧
    ∃ screen, t.screen? i = some screen ∧ screen.isLoading = false ∧ screen.showLoginPopup = false

theorem Enters.of_reach (h : Enters t i) (hs : Reach System.step Free s t)
    (hhomes : t.homes = s.homes) : Enters s i := by
  obtain ⟨u, hu, hlength, hscreen⟩ := h
  exact ⟨u, hs.trans hu, hhomes ▸ hlength, hscreen⟩

theorem screen?_setScreen (hi : s.screen? i = some screen) (screen' : Screen) :
    (s.setScreen i screen').screen? i = some screen' := by
  have hlt := (List.getElem?_eq_some_iff.mp (Option.join_eq_some_iff.mp hi)).1
  show (s.screens.set i (some screen'))[i]?.join = _
  rw [List.getElem?_set_self hlt]
  rfl

theorem awaiting_eq {phases : List Phase} (hk : s.saves[k]? = some save)
    (hphase : save.phase ∈ phases) (next : Save → System) :
    s.awaiting k phases next = some (next save) := by
  unfold System.awaiting
  rw [hk]
  exact if_pos hphase

/-- By a save that has written. -/
theorem enters_of_written (hi : s.screen? i = some screen) (hk : s.saves[k]? = some save)
    (hscreen : save.screen = i) (hphase : save.phase = .written) : Enters s i := by
  have hstep : s.step (.settled k) = some _ :=
    awaiting_eq hk (List.mem_singleton.mpr hphase) _
  refine ⟨_, .next .start trivial hstep, List.length_append, screen.entered, ?_, rfl, rfl⟩
  show (s.screens.modify save.screen (Option.map Screen.entered))[i]?.join = _
  rw [hscreen, List.getElem?_modify_eq, Option.join_eq_some_iff.mp hi]
  rfl

/-- By a save in flight. -/
theorem enters_of_pending (hi : s.screen? i = some screen) (hk : s.saves[k]? = some save)
    (hpending : save.pending i = true) : Enters s i := by
  simp only [Save.pending, Bool.and_eq_true, Bool.or_eq_true, decide_eq_true_eq] at hpending
  obtain ⟨hscreen, hphase | hphase⟩ := hpending
  · have hstep : s.step (.written k) = some _ :=
      awaiting_eq hk (List.mem_singleton.mpr hphase) _
    refine Enters.of_reach ?_ (.next .start trivial hstep) rfl
    have hlt := (List.getElem?_eq_some_iff.mp hk).1
    have hi' : (s.screens.modify save.screen (Option.map id))[i]?.join = some screen := by
      rw [Option.map_id, List.modify_id]
      exact hi
    exact enters_of_written hi' (List.getElem?_set_self hlt) hscreen rfl
  · exact enters_of_written hi hk hscreen hphase

/-- As a guest. -/
theorem enters_of_guest (hi : s.screen? i = some screen) (hloading : screen.isLoading = false) :
    Enters s i := by
  let pressed := screen.handlePress
  let guest := pressed.handleGuestLogin
  let s₁ := s.setScreen i pressed
  let s₂ := s₁.setScreen i guest
  let save : Save := ⟨i, student, .writing⟩
  let s₃ := { s₂.setScreen i guest.saving with saves := s.saves ++ [save] }
  have hi₁ : s₁.screen? i = some pressed := screen?_setScreen hi pressed
  have hi₂ : s₂.screen? i = some guest := screen?_setScreen hi₁ guest
  have hconnect : s.step (.connect i) = some s₁ := by
    simp only [System.step, System.onScreen, hi, Option.map_some]
    rfl
  have hguest : s₁.step (.guestLogin i) = some s₂ := by
    simp only [System.step, System.onPopup, System.onScreen, hi₁, Option.map_some]
    rfl
  have hlogin : s₂.step (.login i) = some s₃ := by
    simp only [System.step, hi₂]
    rw [if_pos]
    · rfl
    · show (true && !screen.isLoading) = true
      rw [hloading]
      rfl
  have hrun : Reach System.step Free s s₃ :=
    ((Reach.start.next trivial hconnect).next trivial hguest).next trivial hlogin
  refine Enters.of_reach ?_ hrun rfl
  refine enters_of_pending (screen?_setScreen hi₂ guest.saving) List.getElem?_concat_length ?_
  simp [Save.pending, save]

/-- **No screen is stuck**: in every run, from every state, whatever has been entered and whatever
has failed, a mounted screen can get in. -/
theorem can_enter (h : Reach System.step Free .start s) (hi : s.screen? i = some screen) :
    Enters s i := by
  have hkept : s.Kept := h.invariant .start fun _ _ _ hs _ ht => kept_step hs ht
  cases hloading : screen.isLoading with
  | false => exact enters_of_guest hi hloading
  | true =>
    have hcount := hkept.loading.counted i screen (Option.join_eq_some_iff.mp hi)
    rw [hloading, if_pos rfl] at hcount
    obtain ⟨save, hin, hpending⟩ := List.countP_pos_iff.mp (hcount ▸ Nat.one_pos)
    obtain ⟨k, hk⟩ := List.mem_iff_getElem?.mp hin
    exact enters_of_pending hi hk hpending

/-- The save has failed after it had written, and the fields hold something else. -/
theorem can_enter_after_failure : ∃ s : System, Reach System.step Free .start s ∧
    s.screen? 0 = some ⟨true, "usertest", "", "Failed to save user data", false⟩ ∧ Enters s 0 := by
  obtain ⟨s, hs, hi⟩ := Reach.of_exec System.step Free .start
    [.mount, .connect 0, .guestLogin 0, .login 0, .written 0, .setPassword 0 "", .failed 0]
    (fun s => s.screen? 0 = some ⟨true, "usertest", "", "Failed to save user data", false⟩)
    (by decide)
  exact ⟨s, hs, hi, can_enter hs hi⟩

end IngrediGo.SignInScreen
