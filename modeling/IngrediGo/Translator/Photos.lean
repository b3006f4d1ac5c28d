import IngrediGo.Data.Value
import IngrediGo.Lib.Lists
import IngrediGo.Lib.Runs

/-!
# Photos to translate

`translation.tsx`: the Translator screens that are mounted, the photos in flight, and the
translator's one language pair. A screen reads the languages when it renders, and a change of
the local language renders nothing; a photo goes by the languages of the render its shutter
was pressed on, through the OCR and into `prepare`, but `translate` takes whatever pair was
prepared last.

`languages_kept`: a photo is read and translated with the languages in force when it was
taken, as long as no shutter is pressed on a screen that shows another local language and no
pair is prepared while another photo waits under a different one.
-/

namespace IngrediGo.TranslatorScreen

open Lib

/-- What the `i18n` object holds. -/
structure I18n where
  language : Lang
  localLanguage : Option Lang
  deriving DecidableEq, Repr

structure Languages where
  localLanguage : Lang
  currentLanguage : Lang
  deriving DecidableEq, Repr

/-- The languages in force; `i18n.localLanguage ?? 'fr'`. -/
def I18n.current (i18n : I18n) : Languages := ⟨i18n.localLanguage.getD .fr, i18n.language⟩

def languageMap : Lang → String
  | .en => "English"
  | .fr => "French"
  | .zh => "Chinese"

/-- What `FastTranslator.prepare` is given. -/
structure Pair where
  source : String
  target : String
  deriving DecidableEq, Repr

def Languages.pair (languages : Languages) : Pair :=
  ⟨languageMap languages.localLanguage, languageMap languages.currentLanguage⟩

/-! ## Screens -/

/-- A mounted screen, with the languages its last render has read. -/
structure Screen where
  languages : Languages
  /-- The text recognized last; `none` is a list without texts. -/
  text : Option String
  isLoading : Bool
  translatedText : Option String
  deriving DecidableEq, Repr

namespace Screen

def mounted (i18n : I18n) : Screen := ⟨i18n.current, none, false, none⟩

def render (i18n : I18n) (screen : Screen) : Screen := { screen with languages := i18n.current }

/-- `setText(…)`: a text that is there already renders nothing, a list is always a new one. -/
def setText (i18n : I18n) (text : Option String) (screen : Screen) : Screen :=
  if text.isSome ∧ screen.text = text then screen
  else { screen with text := text }.render i18n

def setIsLoading (i18n : I18n) (isLoading : Bool) (screen : Screen) : Screen :=
  if screen.isLoading = isLoading then screen
  else { screen with isLoading := isLoading }.render i18n

def setTranslatedText (i18n : I18n) (translatedText : Option String) (screen : Screen) : Screen :=
  if screen.translatedText = translatedText then screen
  else { screen with translatedText := translatedText }.render i18n

end Screen

/-! ## Photos -/

/-- What a photo waits for. -/
inductive Phase where
  /-- `takePictureAsync` -/
  | taking
  /-- `OcrModule.recognizeTextAsync` -/
  | recognizing
  /-- `FastTranslator.prepare` -/
  | preparing
  /-- `FastTranslator.translate` -/
  | translating
  | over
  deriving DecidableEq, Repr

structure Photo where
  screen : Nat
  /-- The languages of the render whose shutter was pressed. -/
  languages : Languages
  /-- The languages in force when it was. -/
  chosen : Languages
  phase : Phase
  /-- The code passed to `OcrModule`. -/
  languageCode : Option Lang
  /-- The pair its text was translated under. -/
  translatedUnder : Option Pair
  deriving DecidableEq, Repr

/-- `none` is a screen that is unmounted. -/
structure System where
  i18n : I18n
  screens : List (Option Screen)
  photos : List Photo
  translator : Option Pair
  deriving DecidableEq, Repr

inductive Act where
  /-- My language is picked in Profile. -/
  | changeLanguage (lang : Lang)
  /-- The local language is picked in Profile. -/
  | setLocalLanguage (lang : Lang)
  | mount
  | unmount (i : Nat)
  /-- The shutter of a screen is pressed. -/
  | takePicture (i : Nat)
  | taken (n : Nat) (uri : Bool)
  | recognized (n : Nat) (recognizedText : Option String)
  | prepared (n : Nat) (ready : Bool)
  | translated (n : Nat) (translations : Option String)
  deriving DecidableEq, Repr

/-- A screen, while it is mounted. -/
def System.screen? (s : System) (i : Nat) : Option Screen := s.screens[i]?.join

/-- What comes after an await of a photo. -/
def System.awaiting (s : System) (n : Nat) (phase : Phase) (next : Photo → System) :
    Option System :=
  match s.photos[n]? with
  | none => none
  | some photo => if photo.phase = phase then some (next photo) else none

/-- A photo goes on, and sets the state of its screen if that is still mounted. -/
def System.advance (s : System) (n : Nat) (photo : Photo) (set : Screen → Screen) : System :=
  { s with
    photos := s.photos.set n photo
    screens := s.screens.modify photo.screen (Option.map set) }

/-- The photo of a press on `screen`, the `i`-th one. -/
def System.newPhoto (s : System) (i : Nat) (screen : Screen) : Photo where
  screen := i
  languages := screen.languages
  chosen := s.i18n.current
  phase := .taking
  languageCode := none
  translatedUnder := none

def System.step (s : System) : Act → Option System
  | .changeLanguage lang =>
    let i18n := { s.i18n with language := lang }
    some { s with i18n := i18n, screens := s.screens.map (Option.map (Screen.render i18n)) }
  | .setLocalLanguage lang => some { s with i18n := { s.i18n with localLanguage := some lang } }
  | .mount => some { s with screens := s.screens ++ [some (Screen.mounted s.i18n)] }
  | .unmount i => some { s with screens := s.screens.set i none }
  | .takePicture i =>
    match s.screen? i with
    | none => none
    | some screen =>
      some { s with
        screens := s.screens.set i
          (some ((screen.setText s.i18n none).setTranslatedText s.i18n none))
        photos := s.photos ++ [s.newPhoto i screen] }
  | .taken n uri => s.awaiting n .taking fun photo =>
    if uri then
      s.advance n
        { photo with phase := .recognizing, languageCode := some photo.languages.localLanguage }
        (Screen.setIsLoading s.i18n true)
    else s.advance n { photo with phase := .over } id
  | .recognized n recognizedText => s.awaiting n .recognizing fun photo =>
    -- `none` is a rejection: the `catch` sets the text to a list
    if recognizedText.any Js.truthy then
      s.advance n { photo with phase := .preparing } fun screen =>
        (screen.setText s.i18n recognizedText).setIsLoading s.i18n false
    else
      s.advance n { photo with phase := .over } fun screen =>
        ((screen.setText s.i18n recognizedText).setTranslatedText s.i18n none).setIsLoading
          s.i18n false
  | .prepared n ready => s.awaiting n .preparing fun photo =>
    if ready then
      { s.advance n { photo with phase := .translating } id with
        translator := some photo.languages.pair }
    else s.advance n { photo with phase := .over } (Screen.setTranslatedText s.i18n none)
  | .translated n translations => s.awaiting n .translating fun photo =>
    match translations with
    | some _ => s.advance n { photo with phase := .over, translatedUnder := s.translator }
        (Screen.setTranslatedText s.i18n translations)
    | none => s.advance n { photo with phase := .over } (Screen.setTranslatedText s.i18n none)

/-- No screen yet, and any languages. -/
def System.start (i18n : I18n) : System := ⟨i18n, [], [], none⟩

/-- A photo is read and translated with the languages in force when it was taken. -/
def Photo.Right (photo : Photo) : Prop :=
  (∀ code ∈ photo.languageCode, code = photo.chosen.localLanguage) ∧
    ∀ pair ∈ photo.translatedUnder, pair = photo.chosen.pair

/-- A shutter is pressed only on a screen that shows the local language, and a pair is
prepared only while every photo waiting to be translated was prepared under the same. -/
def Careful (s : System) : Act → Prop
  | .takePicture i => ∀ screen ∈ s.screen? i,
      screen.languages.localLanguage = s.i18n.current.localLanguage
  | .prepared n true => ∀ photo ∈ s.photos[n]?, ∀ other ∈ s.photos, other.phase = .translating →
      other.languages.pair = photo.languages.pair
  | _ => True

instance (photo : Photo) : Decidable photo.Right := inferInstanceAs (Decidable (_ ∧ _))

instance (s : System) : ∀ a, Decidable (Careful s a)
  | .takePicture i => inferInstanceAs (Decidable (∀ _ ∈ s.screen? i, _))
  | .prepared n true => inferInstanceAs (Decidable (∀ _ ∈ s.photos[n]?, _))
  | .prepared _ false | .changeLanguage _ | .setLocalLanguage _ | .mount | .unmount _
  | .taken _ _ | .recognized _ _ | .translated _ _ => .isTrue trivial

/-! ## Setting a screen's state -/

/-- The screen shows my language, which every change of it renders. -/
def Screen.Shows (screen : Screen) (i18n : I18n) : Prop :=
  screen.languages.currentLanguage = i18n.language

section

variable {i18n : I18n} {screen : Screen}

theorem shows_render (i18n : I18n) (screen : Screen) : (screen.render i18n).Shows i18n := rfl

theorem Screen.Shows.setText (h : screen.Shows i18n) (text : Option String) :
    (screen.setText i18n text).Shows i18n := by
  unfold Screen.setText
  split
  · exact h
  · exact shows_render ..

theorem Screen.Shows.setIsLoading (h : screen.Shows i18n) (isLoading : Bool) :
    (screen.setIsLoading i18n isLoading).Shows i18n := by
  unfold Screen.setIsLoading
  split
  · exact h
  · exact shows_render ..

theorem Screen.Shows.setTranslatedText (h : screen.Shows i18n) (translatedText : Option String) :
    (screen.setTranslatedText i18n translatedText).Shows i18n := by
  unfold Screen.setTranslatedText
  split
  · exact h
  · exact shows_render ..

end

/-! ## Careful runs -/

/-- What a photo has met and will meet, while the translator's pair is `translator`. -/
structure Photo.Kept (translator : Option Pair) (photo : Photo) : Prop where
  languages : photo.languages = photo.chosen
  code : ∀ code ∈ photo.languageCode, code = photo.languages.localLanguage
  waiting : photo.phase = .translating → translator = some photo.languages.pair
  pair : ∀ pair ∈ photo.translatedUnder, pair = photo.languages.pair

theorem Photo.Kept.right {translator : Option Pair} {photo : Photo} (h : photo.Kept translator) :
    photo.Right := by
  refine ⟨fun code hc => ?_, fun pair hp => ?_⟩
  · rw [h.code code hc, h.languages]
  · rw [h.pair pair hp, h.languages]

/-- A photo that is not about to be translated does not depend on the translator. -/
theorem Photo.Kept.phase {translator translator' : Option Pair} {photo : Photo}
    (h : photo.Kept translator) {phase : Phase} (hp : phase ≠ .translating) :
    ({ photo with phase := phase } : Photo).Kept translator' :=
  ⟨h.languages, h.code, fun hphase => absurd hphase hp, h.pair⟩

structure System.Kept (s : System) : Prop where
  screens : ∀ screen, some screen ∈ s.screens → screen.Shows s.i18n
  photos : ∀ photo ∈ s.photos, photo.Kept s.translator

variable {s t : System}

theorem awaiting_some {n : Nat} {phase : Phase} {next : Photo → System}
    (h : s.awaiting n phase next = some t) :
    ∃ photo, s.photos[n]? = some photo ∧ photo.phase = phase ∧ next photo = t := by
  unfold System.awaiting at h
  split at h
  · cases h
  · next photo hn =>
    split at h
    · next hp => exact ⟨photo, hn, hp, Option.some.inj h⟩
    · cases h

theorem System.Kept.advance (h : s.Kept) (n : Nat) {photo : Photo} (hp : photo.Kept s.translator)
    {set : Screen → Screen} (hset : ∀ screen, screen.Shows s.i18n → (set screen).Shows s.i18n) :
    (s.advance n photo set).Kept := by
  constructor
  · intro screen hscreen
    rcases mem_modify hscreen with hold | ⟨old, hold, hnew⟩
    · exact h.screens screen hold
    · obtain ⟨old, rfl, rfl⟩ := Option.map_eq_some_iff.mp hnew.symm
      exact hset old (h.screens old hold)
  · intro photo' hphoto
    rcases List.mem_or_eq_of_mem_set hphoto with hold | rfl
    · exact h.photos photo' hold
    · exact hp

/-- A photo goes on from what it has been so far. -/
theorem System.Kept.awaiting (h : s.Kept) {n : Nat} {phase : Phase} {next : Photo → System}
    (hs : s.awaiting n phase next = some t)
    (hnext : ∀ photo, s.photos[n]? = some photo → photo.phase = phase →
      photo.Kept s.translator → (next photo).Kept) : t.Kept := by
  obtain ⟨photo, hn, hphase, rfl⟩ := awaiting_some hs
  exact hnext photo hn hphase (h.photos photo (List.mem_of_getElem? hn))

theorem mem_screens {i : Nat} {screen : Screen} (h : s.screen? i = some screen) :
    some screen ∈ s.screens :=
  List.mem_of_getElem? (Option.join_eq_some_iff.mp h)

/-- A press on a screen that shows the languages in force. -/
theorem System.Kept.takePicture (h : s.Kept) {i : Nat} {screen : Screen}
    (hscreen : s.screen? i = some screen)
    (hlocal : screen.languages.localLanguage = s.i18n.current.localLanguage)
    (hs : s.step (.takePicture i) = some t) : t.Kept := by
  simp only [System.step, hscreen] at hs
  cases hs
  constructor
  · intro screen' hscreen'
    rcases List.mem_or_eq_of_mem_set hscreen' with hold | hnew
    · exact h.screens screen' hold
    · cases hnew
      exact ((h.screens screen (mem_screens hscreen)).setText none).setTranslatedText none
  · intro photo hphoto
    rcases List.mem_append.mp hphoto with hold | hnew
    · exact h.photos photo hold
    · rw [List.mem_singleton.mp hnew]
      have hmine : screen.languages.currentLanguage = s.i18n.language :=
        h.screens screen (mem_screens hscreen)
      have hlanguages : screen.languages = s.i18n.current := by
        rw [show screen.languages =
          ⟨screen.languages.localLanguage, screen.languages.currentLanguage⟩ from rfl,
          hlocal, hmine]
        rfl
      exact ⟨hlanguages, fun _ hc => (by cases hc), fun hp => (by cases hp),
        fun _ hp => (by cases hp)⟩

/-- A pair prepared while every photo waiting was prepared under the same. -/
theorem System.Kept.prepared (h : s.Kept) {n : Nat} {photo : Photo}
    (hphoto : s.photos[n]? = some photo)
    (hsame : ∀ other ∈ s.photos, other.phase = .translating →
      other.languages.pair = photo.languages.pair) :
    System.Kept { s.advance n { photo with phase := .translating } id with
      translator := some photo.languages.pair } := by
  have hp := h.photos photo (List.mem_of_getElem? hphoto)
  constructor
  · intro screen hscreen
    refine h.screens screen ?_
    rcases mem_modify hscreen with hold | ⟨old, hold, hnew⟩
    · exact hold
    · rw [Option.map_id, id_eq] at hnew
      rwa [hnew]
  · intro other hother
    rcases List.mem_or_eq_of_mem_set hother with hold | rfl
    · have ho := h.photos other hold
      exact ⟨ho.languages, ho.code, fun hwait => congrArg some (hsame other hold hwait).symm, ho.pair⟩
    · exact ⟨hp.languages, hp.code, fun _ => rfl, hp.pair⟩

/-- The OCR is passed the language the photo was taken with. -/
theorem System.Kept.taken (h : s.Kept) {n : Nat} {uri : Bool}
    (hs : s.step (.taken n uri) = some t) : t.Kept := by
  refine h.awaiting hs fun photo _ _ hp => ?_
  cases uri with
  | true =>
    have hread : Photo.Kept s.translator { photo with
        phase := .recognizing, languageCode := some photo.languages.localLanguage } :=
      ⟨hp.languages, fun code hc => (Option.some.inj hc).symm, fun hw => (by cases hw), hp.pair⟩
    exact h.advance n hread fun _ hscreen => hscreen.setIsLoading true
  | false => exact h.advance n (hp.phase (by decide)) fun _ hscreen => hscreen

theorem System.Kept.recognized (h : s.Kept) {n : Nat} {recognizedText : Option String}
    (hs : s.step (.recognized n recognizedText) = some t) : t.Kept := by
  refine h.awaiting hs fun photo _ _ hp => ?_
  split
  · exact h.advance n (hp.phase (by decide)) fun _ hscreen =>
      (hscreen.setText recognizedText).setIsLoading false
  · exact h.advance n (hp.phase (by decide)) fun _ hscreen =>
      ((hscreen.setText recognizedText).setTranslatedText none).setIsLoading false

/-- A photo that waits is translated under its own pair. -/
theorem System.Kept.translated (h : s.Kept) {n : Nat} {translations : Option String}
    (hs : s.step (.translated n translations) = some t) : t.Kept := by
  refine h.awaiting hs fun photo _ hwait hp => ?_
  cases translations with
  | some text =>
    have hpair : s.translator = some photo.languages.pair := hp.waiting hwait
    have hread : Photo.Kept s.translator { photo with
        phase := .over, translatedUnder := s.translator } :=
      ⟨hp.languages, hp.code, fun hw => (by cases hw), fun pair hunder =>
        Option.some.inj (hunder.symm.trans hpair)⟩
    exact h.advance n hread fun _ hscreen => hscreen.setTranslatedText (some text)
  | none =>
    exact h.advance n (hp.phase (by decide)) fun _ hscreen => hscreen.setTranslatedText none

/-- The step lemma. -/
theorem kept_step {a : Act} (h : s.Kept) (hg : Careful s a) (hs : s.step a = some t) : t.Kept := by
  cases a with
  | changeLanguage lang =>
    cases hs
    refine ⟨fun screen hscreen => ?_, h.photos⟩
    obtain ⟨old, -, hnew⟩ := List.mem_map.mp hscreen
    obtain ⟨old, -, rfl⟩ := Option.map_eq_some_iff.mp hnew
    exact shows_render _ old
  | setLocalLanguage lang =>
    cases hs
    exact ⟨h.screens, h.photos⟩
  | mount =>
    cases hs
    refine ⟨fun screen hscreen => ?_, h.photos⟩
    rcases List.mem_append.mp hscreen with hold | hnew
    · exact h.screens screen hold
    · cases List.mem_singleton.mp hnew
      rfl
  | unmount i =>
    cases hs
    refine ⟨fun screen hscreen => ?_, h.photos⟩
    rcases List.mem_or_eq_of_mem_set hscreen with hold | hnew
    · exact h.screens screen hold
    · cases hnew
  | takePicture i =>
    cases hscreen : s.screen? i with
    | none => simp [System.step, hscreen] at hs
    | some screen => exact h.takePicture hscreen (hg screen hscreen) hs
  | taken n uri => exact h.taken hs
  | recognized n recognizedText => exact h.recognized hs
  | prepared n ready =>
    refine h.awaiting hs fun photo hn _ hp => ?_
    cases ready with
    | true => exact h.prepared hn (hg photo hn)
    | false =>
      exact h.advance n (hp.phase (by decide)) fun _ hscreen => hscreen.setTranslatedText none
  | translated n translations => exact h.translated hs

/-! ## Steps that go wrong -/

theorem awaiting_eq {n : Nat} {phase : Phase} {photo : Photo} (hn : s.photos[n]? = some photo)
    (hp : photo.phase = phase) (next : Photo → System) :
    s.awaiting n phase next = some (next photo) := by
  simp only [System.awaiting, hn, hp, if_true]

/-- The photo of a press on a screen that shows another local language is read in that one. -/
theorem careless_press {i : Nat} {screen : Screen} (hscreen : s.screen? i = some screen)
    (hne : screen.languages.localLanguage ≠ s.i18n.current.localLanguage)
    (hs : s.step (.takePicture i) = some t) :
    ∃ u, Reach System.step Careful t u ∧ ∃ photo ∈ u.photos, ¬ photo.Right := by
  simp only [System.step, hscreen] at hs
  have ht : t.photos = s.photos ++ [s.newPhoto i screen] := by
    cases hs
    rfl
  have hlast : t.photos[s.photos.length]? = some (s.newPhoto i screen) := by
    rw [ht]
    exact getElem?_at
  have htaken : t.step (.taken s.photos.length true) = some _ := awaiting_eq hlast rfl _
  refine ⟨_, .next (a := .taken s.photos.length true) .start trivial htaken, {
    s.newPhoto i screen with
    phase := .recognizing, languageCode := some screen.languages.localLanguage }, ?_, ?_⟩
  · show _ ∈ t.photos.set s.photos.length _
    rw [ht, set_at]
    exact mem_at.mpr (.inl rfl)
  · intro hright
    exact hne (hright.1 _ rfl)

/-- A photo that waits while another pair is prepared is translated under that one. -/
theorem careless_prepare {n : Nat} {photo other : Photo} (hn : s.photos[n]? = some photo)
    (hphase : photo.phase = .preparing) (hother : other ∈ s.photos)
    (hwait : other.phase = .translating) (hchosen : other.languages = other.chosen)
    (hne : other.languages.pair ≠ photo.languages.pair) (hs : s.step (.prepared n true) = some t) :
    ∃ u, Reach System.step Careful t u ∧ ∃ photo ∈ u.photos, ¬ photo.Right := by
  obtain ⟨m, hm⟩ := List.mem_iff_getElem?.mp hother
  have hnm : n ≠ m := by
    rintro rfl
    rw [hn] at hm
    cases hm
    rw [hphase] at hwait
    cases hwait
  obtain ⟨photo', hn', -, rfl⟩ := awaiting_some hs
  cases Option.some.inj (hn.symm.trans hn')
  have hstill : (s.photos.set n { photo with phase := .translating })[m]? = some other := by
    rw [List.getElem?_set_ne hnm, hm]
  refine ⟨_, .next (a := .translated m (some "")) .start trivial (awaiting_eq hstill hwait _),
    { other with phase := .over, translatedUnder := some photo.languages.pair }, ?_, ?_⟩
  · refine List.mem_of_getElem? (List.getElem?_set_self ?_)
    exact (List.getElem?_eq_some_iff.mp hstill).1
  · intro hright
    have hpair : photo.languages.pair = other.chosen.pair := hright.2 _ rfl
    rw [hpair, hchosen] at hne
    exact hne rfl

theorem careless {a : Act} (h : s.Kept) (hg : ¬ Careful s a) (hs : s.step a = some t) :
    ∃ u, Reach System.step Careful t u ∧ ∃ photo ∈ u.photos, ¬ photo.Right := by
  cases a with
  | takePicture i =>
    simp only [Careful, not_forall] at hg
    obtain ⟨screen, hscreen, hne⟩ := hg
    exact careless_press hscreen hne hs
  | prepared n ready =>
    cases ready with
    | false => exact absurd trivial hg
    | true =>
      simp only [Careful, not_forall] at hg
      obtain ⟨photo, hn, other, hother, hwait, hne⟩ := hg
      obtain ⟨photo', hn', hphase, -⟩ := awaiting_some hs
      cases Option.some.inj (Eq.trans (Eq.symm hn) hn')
      exact careless_prepare hn hphase hother hwait (h.photos other hother).languages hne hs
  | changeLanguage _ => exact absurd trivial hg
  | setLocalLanguage _ => exact absurd trivial hg
  | mount => exact absurd trivial hg
  | unmount _ => exact absurd trivial hg
  | taken _ _ => exact absurd trivial hg
  | recognized _ _ => exact absurd trivial hg
  | translated _ _ => exact absurd trivial hg

/-- **A photo keeps the languages it was taken with** in a careful run, and a step keeps that
so, whatever careful steps follow, exactly if it is careful. -/
theorem languages_kept {i18n : I18n} {s : System}
    (h : Reach System.step Careful (.start i18n) s) :
    (∀ photo ∈ s.photos, photo.Right) ∧ ∀ a t, s.step a = some t →
      (Careful s a ↔ ∀ u, Reach System.step Careful t u → ∀ photo ∈ u.photos, photo.Right) := by
  have hstart : System.Kept (.start i18n) :=
    ⟨fun _ hscreen => (by cases hscreen), fun _ hphoto => (by cases hphoto)⟩
  have hkept : ∀ u, Reach System.step Careful (.start i18n) u → u.Kept :=
    fun _ hu => hu.invariant hstart fun _ _ _ hs hg ht => kept_step hs hg ht
  have hright : ∀ u, Reach System.step Careful (.start i18n) u →
      ∀ photo ∈ u.photos, photo.Right :=
    fun u hu photo hphoto => ((hkept u hu).photos photo hphoto).right
  refine ⟨hright s h, fun a t hs => h.guard_iff hright hs fun hg => ?_⟩
  obtain ⟨u, hu, photo, hphoto, hwrong⟩ := careless (hkept s h) hg hs
  exact ⟨u, hu, fun hall => hwrong (hall photo hphoto)⟩

/-- Two photos of one screen, one after the other in flight. -/
def twoPhotos : List Act :=
  [.mount, .takePicture 0, .taken 0 true, .takePicture 0, .recognized 0 (some "sel"),
   .prepared 0 true, .taken 1 true, .recognized 1 (some "lait"), .prepared 1 true,
   .translated 0 (some "salt")]

theorem languages_kept_twoPhotos : ∃ s : System,
    (∃ photo ∈ s.photos, photo.translatedUnder = some ⟨"French", "English"⟩) ∧
      ∀ photo ∈ s.photos, photo.Right := by
  obtain ⟨s, hs, hread⟩ := Reach.of_exec System.step Careful (.start ⟨.en, none⟩) twoPhotos
    (fun s => ∃ photo ∈ s.photos, photo.translatedUnder = some ⟨"French", "English"⟩) (by decide)
  exact ⟨s, hread, (languages_kept hs).1⟩

/-- The second of two equal texts renders nothing: a local language picked in between is not
shown, and the next press is not careful. -/
example : (exec System.step Careful (.start ⟨.en, none⟩)
    [.mount, .takePicture 0, .takePicture 0, .taken 0 true, .taken 1 true,
      .recognized 0 (some "sel"), .setLocalLanguage .zh, .recognized 1 (some "sel")]).map
    (decide <| Careful · (.takePicture 0)) = some false := by decide

/-- The local language is changed in Profile, and the screen returned to has not rendered. -/
theorem not_languages_kept : ¬ ∀ (i18n : I18n) (s : System),
    Reach System.step Free (.start i18n) s → ∀ photo ∈ s.photos, photo.Right := by
  intro h
  obtain ⟨s, hs, hwrong⟩ := Reach.of_exec System.step Free (.start ⟨.en, none⟩)
    [.mount, .setLocalLanguage .zh, .takePicture 0, .taken 0 true]
    (fun s => ¬ ∀ photo ∈ s.photos, photo.Right) (by decide)
  exact hwrong (h _ s hs)

end IngrediGo.TranslatorScreen
