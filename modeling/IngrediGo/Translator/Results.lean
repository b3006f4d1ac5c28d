import IngrediGo.Translator.Photos

/-!
# The results of photos

Every photo that is taken ends on the Translated screen, which is navigated to with its
translation or with nothing, also when the OCR or the translator fails and when the screen has
been left. The texts recognized and the navigations are kept in a log beside the photos.

`photo_results`: a photo leads to one navigation, when it is over. In careful runs the text
shown is the translation of what the OCR reads off that photo, from the local language to my
language, as they were when the shutter was pressed.
-/

namespace IngrediGo.TranslatorScreen

open Lib

/-- `navigation.navigate('Translated', { translatedText })`, for a photo. -/
structure Result where
  photo : ℕ
  translatedText : Option String
  deriving DecidableEq, Repr

structure Log where
  /-- What `translateAll` is called with, for a photo. -/
  texts : List (ℕ × String)
  results : List Result
  deriving DecidableEq, Repr

/-- The texts of a photo, and what it led to. -/
def Log.textsOf (log : Log) (n : ℕ) : List String :=
  (log.texts.filter (·.1 = n)).map (·.2)

def Log.resultsOf (log : Log) (n : ℕ) : List (Option String) :=
  (log.results.filter (·.photo = n)).map (·.translatedText)

def Log.text (log : Log) (n : ℕ) (text : String) : Log :=
  { log with texts := log.texts ++ [(n, text)] }

def Log.result (log : Log) (n : ℕ) (translatedText : Option String) : Log :=
  { log with results := log.results ++ [⟨n, translatedText⟩] }

def noteResults (_ : System) (a : Act) (log : Log) : Log :=
  match a with
  | .recognized n recognizedText =>
    match recognizedText.filter Js.truthy with
    | some text => log.text n text
    | none => log.result n none
  | .prepared n false => log.result n none
  -- `translations || null`
  | .translated n translations => log.result n (translations.filter Js.truthy)
  | _ => log

abbrev Session := System × Log

def Session.step : Session → Act → Option Session := withHistory System.step noteResults

def Session.start (i18n : I18n) : Session := (.start i18n, ⟨[], []⟩)

/-- What the OCR reads off a photo in a language, and what the translator makes of a text. -/
structure Services where
  ocr : ℕ → Lang → String
  translate : Pair → String → String

/-- A careful step, in which the services answer with what they compute or fail. -/
def Served (services : Services) (p : Session) (a : Act) : Prop :=
  Careful p.1 a ∧
  match a with
  | .recognized n recognizedText => ∀ text ∈ recognizedText, ∀ photo ∈ p.1.photos[n]?,
      ∀ code ∈ photo.languageCode, text = services.ocr n code
  | .translated n translations => ∀ translated ∈ translations, ∀ entry ∈ p.2.texts, entry.1 = n →
      ∀ pair ∈ p.1.translator, translated = services.translate pair entry.2
  | _ => True

instance (services : Services) (p : Session) : ∀ a, Decidable (Served services p a)
  | .recognized _ _ => inferInstanceAs (Decidable (_ ∧ ∀ _ ∈ _, ∀ _ ∈ p.1.photos[_]?, _))
  | .translated _ _ => inferInstanceAs (Decidable (_ ∧ ∀ _ ∈ _, ∀ _ ∈ p.2.texts, _))
  | .changeLanguage _ | .setLocalLanguage _ | .mount | .unmount _ | .takePicture _
  | .taken _ _ | .prepared _ _ => inferInstanceAs (Decidable (_ ∧ True))

/-! ## One photo -/

section

variable (log : Log) (n m : ℕ) (text : String) (translatedText : Option String)

@[simp] theorem text_resultsOf : (log.text n text).resultsOf m = log.resultsOf m := rfl

@[simp] theorem result_textsOf : (log.result n translatedText).textsOf m = log.textsOf m := rfl

theorem text_textsOf : (log.text n text).textsOf m =
    log.textsOf m ++ if n = m then [text] else [] := by
  rw [Log.textsOf, Log.textsOf, Log.text, List.filter_append, List.map_append]
  by_cases h : n = m <;> simp [h]

theorem result_resultsOf : (log.result n translatedText).resultsOf m =
    log.resultsOf m ++ if n = m then [translatedText] else [] := by
  rw [Log.resultsOf, Log.resultsOf, Log.result, List.filter_append, List.map_append]
  by_cases h : n = m <;> simp [h]

end

/-- What is logged of a photo at each phase; `Read` is true of the text read off it and `Out` of
the translation shown. -/
def Stands (Read Out : String → Prop) (photo : Photo) (texts : List String)
    (results : List (Option String)) : Prop :=
  match photo.phase with
  | .taking => photo.languageCode = none ∧ texts = [] ∧ results = []
  | .recognizing => photo.languageCode.isSome = true ∧ texts = [] ∧ results = []
  | .preparing | .translating => photo.languageCode.isSome = true ∧
      (∃ text, texts = [text] ∧ Read text) ∧ results = []
  | .over => photo.languageCode = none ∧ results = [] ∨
      photo.languageCode.isSome = true ∧ ∃ result, results = [result] ∧ ∀ text ∈ result, Out text

/-- Every photo stands somewhere, and nothing is logged of others. -/
structure Standing (Read Out : ℕ → Languages → String → Prop) (p : Session) : Prop where
  photos : ∀ n photo, p.1.photos[n]? = some photo →
    Stands (Read n photo.chosen) (Out n photo.chosen) photo (p.2.textsOf n) (p.2.resultsOf n)
  fresh : ∀ n, p.1.photos.length ≤ n → p.2.textsOf n = [] ∧ p.2.resultsOf n = []

variable {Read Out : ℕ → Languages → String → Prop} {p q : Session} {a : Act} {i18n : I18n}

theorem Standing.start : Standing Read Out (Session.start i18n) where
  photos n photo hn := by cases hn
  fresh n _ := ⟨rfl, rfl⟩

/-- One photo moves, and only of it something is logged. -/
theorem Standing.set (h : Standing Read Out p) {n : ℕ} {photo photo' : Photo}
    (hn : p.1.photos[n]? = some photo) (hphotos : q.1.photos = p.1.photos.set n photo')
    (hlog : ∀ m, n ≠ m → q.2.textsOf m = p.2.textsOf m ∧ q.2.resultsOf m = p.2.resultsOf m)
    (hnew : Stands (Read n photo'.chosen) (Out n photo'.chosen) photo' (q.2.textsOf n)
      (q.2.resultsOf n)) : Standing Read Out q where
  photos m photo'' hm := by
    rw [hphotos] at hm
    rcases getElem?_set_some hm with ⟨rfl, rfl⟩ | ⟨hnm, hm⟩
    · exact hnew
    · rw [(hlog m hnm).1, (hlog m hnm).2]
      exact h.photos m photo'' hm
  fresh m hm := by
    rw [hphotos, List.length_set] at hm
    have hlt := (List.getElem?_eq_some_iff.mp hn).1
    have hnm : n ≠ m := by omega
    rw [(hlog m hnm).1, (hlog m hnm).2]
    exact h.fresh m hm

/-- The text of a photo is read. -/
theorem Standing.text (h : Standing Read Out p) {n : ℕ} {photo : Photo} {s : System}
    (hn : p.1.photos[n]? = some photo)
    (hphotos : s.photos = p.1.photos.set n { photo with phase := .preparing })
    (hcode : photo.languageCode.isSome = true) (htexts : p.2.textsOf n = [])
    (hresults : p.2.resultsOf n = []) {text : String} (htext : Read n photo.chosen text) :
    Standing Read Out (s, p.2.text n text) := by
  refine h.set hn hphotos (fun m hm => ⟨?_, rfl⟩) ⟨hcode, ⟨text, ?_, htext⟩, hresults⟩
  · rw [text_textsOf, if_neg hm, List.append_nil]
  · rw [text_textsOf, if_pos rfl, htexts, List.nil_append]

/-- A photo is over, and leads to a result. -/
theorem Standing.result (h : Standing Read Out p) {n : ℕ} {photo : Photo} (photo' : Photo)
    {s : System} (hn : p.1.photos[n]? = some photo) (hphotos : s.photos = p.1.photos.set n photo')
    (hover : photo'.phase = .over) (hcode : photo'.languageCode.isSome = true)
    (hresults : p.2.resultsOf n = []) {result : Option String}
    (hresult : ∀ text ∈ result, Out n photo'.chosen text) :
    Standing Read Out (s, p.2.result n result) := by
  refine h.set hn hphotos (fun m hm => ⟨rfl, ?_⟩) ?_
  · rw [result_resultsOf, if_neg hm, List.append_nil]
  · rw [Stands, hover, result_resultsOf, if_pos rfl, hresults]
    exact .inr ⟨hcode, result, rfl, hresult⟩

/-- The step lemma. -/
theorem Standing.step (h : Standing Read Out p)
    (hread : ∀ n text, a = .recognized n (some text) → text ≠ "" →
      ∀ photo, p.1.photos[n]? = some photo → photo.phase = .recognizing →
        Read n photo.chosen text)
    (hout : ∀ n translated, a = .translated n (some translated) → translated ≠ "" →
      ∀ photo text, p.1.photos[n]? = some photo → photo.phase = .translating →
        p.2.textsOf n = [text] → Read n photo.chosen text → Out n photo.chosen translated)
    (hs : Session.step p a = some q) : Standing Read Out q := by
  obtain ⟨hstep, hlog⟩ := withHistory_some.mp hs
  obtain ⟨s, log⟩ := q
  cases a with
  | changeLanguage lang => cases hstep; cases hlog; exact ⟨h.photos, h.fresh⟩
  | setLocalLanguage lang => cases hstep; cases hlog; exact ⟨h.photos, h.fresh⟩
  | mount => cases hstep; cases hlog; exact ⟨h.photos, h.fresh⟩
  | unmount i => cases hstep; cases hlog; exact ⟨h.photos, h.fresh⟩
  | takePicture i =>
    cases hlog
    simp only [System.step] at hstep
    split at hstep
    · cases hstep
    · cases hstep
      refine ⟨fun n photo hn => ?_, fun n hn => h.fresh n ?_⟩
      · rcases getElem?_concat_some hn with hn | ⟨rfl, rfl⟩
        · exact h.photos n photo hn
        · exact ⟨rfl, h.fresh _ (Nat.le_refl _)⟩
      · rw [List.length_append] at hn
        omega
  | taken n uri =>
    cases hlog
    obtain ⟨photo, hn, hp, rfl⟩ := awaiting_some hstep
    have hstands := h.photos n photo hn
    rw [Stands, hp] at hstands
    obtain ⟨hcode, htexts, hresults⟩ := hstands
    cases uri with
    | true => exact h.set hn rfl (fun m _ => ⟨rfl, rfl⟩) ⟨rfl, htexts, hresults⟩
    | false => exact h.set hn rfl (fun m _ => ⟨rfl, rfl⟩) (.inl ⟨hcode, hresults⟩)
  | recognized n recognizedText =>
    obtain ⟨photo, hn, hp, rfl⟩ := awaiting_some hstep
    have hstands := h.photos n photo hn
    rw [Stands, hp] at hstands
    obtain ⟨hcode, htexts, hresults⟩ := hstands
    cases recognizedText with
    | none =>
      cases hlog
      exact h.result { photo with phase := .over } hn rfl rfl hcode hresults
        (fun text ht => by cases ht)
    | some text =>
      by_cases hempty : text = ""
      · cases hempty
        cases hlog
        exact h.result { photo with phase := .over } hn rfl rfl hcode hresults
          (fun text ht => by cases ht)
      · have htruthy : Js.truthy text = true := decide_eq_true hempty
        simp only [noteResults, Option.filter_some, htruthy, if_true] at hlog
        cases hlog
        refine h.text hn ?_ hcode htexts hresults (hread n text rfl hempty photo hn hp)
        simp only [Option.any_some, htruthy, if_true]
        rfl
  | prepared n ready =>
    obtain ⟨photo, hn, hp, rfl⟩ := awaiting_some hstep
    have hstands := h.photos n photo hn
    rw [Stands, hp] at hstands
    obtain ⟨hcode, htexts, hresults⟩ := hstands
    cases ready with
    | true => cases hlog; exact h.set hn rfl (fun m _ => ⟨rfl, rfl⟩) ⟨hcode, htexts, hresults⟩
    | false =>
      cases hlog
      exact h.result { photo with phase := .over } hn rfl rfl hcode hresults
        (fun text ht => by cases ht)
  | translated n translations =>
    obtain ⟨photo, hn, hp, rfl⟩ := awaiting_some hstep
    have hstands := h.photos n photo hn
    rw [Stands, hp] at hstands
    obtain ⟨hcode, ⟨text, htexts, htext⟩, hresults⟩ := hstands
    cases translations with
    | some translated =>
      cases hlog
      refine h.result { photo with phase := .over, translatedUnder := p.1.translator } hn rfl rfl
        hcode hresults fun t ht => ?_
      obtain ⟨hsome, htruthy⟩ := Option.filter_eq_some_iff.mp ht
      cases hsome
      exact hout n translated rfl (by simpa [Js.truthy] using htruthy) photo text hn hp htexts htext
    | none =>
      cases hlog
      exact h.result { photo with phase := .over } hn rfl rfl hcode hresults
        (fun text ht => by cases ht)

/-- No result is of anything but a photo. -/
theorem Standing.lt (h : Standing Read Out p) {result : Result} (hr : result ∈ p.2.results) :
    result.photo < p.1.photos.length ∧ result.translatedText ∈ p.2.resultsOf result.photo := by
  have hin : result.translatedText ∈ p.2.resultsOf result.photo :=
    List.mem_map_of_mem (List.mem_filter.mpr ⟨hr, decide_eq_true rfl⟩)
  refine ⟨?_, hin⟩
  by_contra hlt
  rw [(h.fresh result.photo (Nat.not_lt.mp hlt)).2] at hin
  cases hin

/-- A translation shown is one of `Out`. -/
theorem Stands.out {Read Out : String → Prop} {photo : Photo} {texts : List String}
    {results : List (Option String)}
    (h : Stands Read Out photo texts results) {text : String} (ht : some text ∈ results) :
    Out text := by
  unfold Stands at h
  split at h
  · cases h.2.2 ▸ ht
  · cases h.2.2 ▸ ht
  · cases h.2.2 ▸ ht
  · cases h.2.2 ▸ ht
  · rcases h with ⟨-, hresults⟩ | ⟨-, result, hresults, hout⟩
    · cases hresults ▸ ht
    · rw [hresults, List.mem_singleton] at ht
      exact hout text ht.symm

/-! ## Runs -/

/-- **A photo leads to one result**, in every run: none until it is over, and then one, unless
the camera gave no image; and no result is of anything but a photo. -/
theorem photo_results (h : Reach Session.step Free (Session.start i18n) p) :
    (∀ n photo, p.1.photos[n]? = some photo → (p.2.resultsOf n).length =
      if photo.phase = .over ∧ photo.languageCode.isSome = true then 1 else 0) ∧
    ∀ result ∈ p.2.results, result.photo < p.1.photos.length := by
  have hp : Standing (fun _ _ _ => True) (fun _ _ _ => True) p :=
    h.invariant .start fun _ _ _ hp _ hs =>
      hp.step (fun _ _ _ _ _ _ _ => trivial) (fun _ _ _ _ _ _ _ _ _ _ => trivial) hs
  refine ⟨fun n photo hn => ?_, fun result hr => ?_⟩
  · have hstands := hp.photos n photo hn
    rw [Stands] at hstands
    split at hstands
    · next hphase => simp [hphase, hstands.2.2]
    · next hphase => simp [hphase, hstands.2.2]
    · next hphase => simp [hphase, hstands.2.2]
    · next hphase => simp [hphase, hstands.2.2]
    · next hphase =>
      rcases hstands with ⟨hcode, hresults⟩ | ⟨hcode, result, hresults, -⟩
      · simp [hcode, hresults]
      · simp [hphase, hcode, hresults]
  · exact (hp.lt hr).1

theorem photo_results_twoPhotos : ∃ p : Session, p.2.results = [⟨0, some "salt"⟩] ∧
    (∀ n photo, p.1.photos[n]? = some photo → (p.2.resultsOf n).length =
      if photo.phase = .over ∧ photo.languageCode.isSome = true then 1 else 0) ∧
    ∀ result ∈ p.2.results, result.photo < p.1.photos.length := by
  obtain ⟨p, hp, hshown⟩ := Reach.of_exec Session.step Free (Session.start ⟨.en, none⟩) twoPhotos
    (fun p => p.2.results = [⟨0, some "salt"⟩]) (by decide)
  exact ⟨p, hshown, photo_results hp⟩

/-- What the OCR reads off a photo. -/
def Services.Reads (services : Services) (n : ℕ) (chosen : Languages) (text : String) : Prop :=
  text = services.ocr n chosen.localLanguage

/-- What is shown of it. -/
def Services.Shows (services : Services) (n : ℕ) (chosen : Languages) (translated : String) :
    Prop :=
  translated = services.translate chosen.pair (services.ocr n chosen.localLanguage) ∧
    translated ≠ ""

section

variable {services : Services} {n : ℕ} {photo : Photo} {text : String}

/-- The OCR is asked for the text in the local language. -/
theorem reads_of_served (hkept : p.1.Kept) (h : Standing Read Out p)
    (hg : Served services p (.recognized n (some text))) (hn : p.1.photos[n]? = some photo)
    (hphase : photo.phase = .recognizing) : services.Reads n photo.chosen text := by
  have hphoto := hkept.photos photo (List.mem_of_getElem? hn)
  have hstands := h.photos n photo hn
  rw [Stands, hphase] at hstands
  obtain ⟨code, hcode⟩ := Option.isSome_iff_exists.mp hstands.1
  have htext := hg.2 text rfl photo hn code hcode
  rwa [hphoto.code code hcode, hphoto.languages] at htext

/-- The translator works under the photo's pair. -/
theorem shows_of_served {translated : String} (hkept : p.1.Kept)
    (hg : Served services p (.translated n (some translated)))
    (hn : p.1.photos[n]? = some photo) (hphase : photo.phase = .translating)
    (htexts : p.2.textsOf n = [text]) :
    translated = services.translate photo.chosen.pair text := by
  have hphoto := hkept.photos photo (List.mem_of_getElem? hn)
  have hmem : text ∈ p.2.textsOf n := by
    rw [htexts]
    exact List.mem_singleton.mpr rfl
  obtain ⟨entry, hentry, rfl⟩ := List.mem_map.mp hmem
  obtain ⟨hin, hkey⟩ := List.mem_filter.mp hentry
  have htranslated := hg.2 translated rfl entry hin (of_decide_eq_true hkey) _
    (hphoto.waiting hphase)
  rwa [hphoto.languages] at htranslated

end

/-- **What is shown is the photo's translation**: in careful runs, whatever overlaps and fails,
every text shown is of some photo, and it is what the translator makes, between the languages
in force when that photo was taken, of what the OCR reads off it in the local one. -/
theorem photo_translated {services : Services}
    (h : Reach Session.step (Served services) (Session.start i18n) p) :
    ∀ result ∈ p.2.results, ∀ translated ∈ result.translatedText,
      ∃ photo, p.1.photos[result.photo]? = some photo ∧
        services.Shows result.photo photo.chosen translated := by
  have hkept : System.Kept (System.start i18n) :=
    ⟨fun _ hscreen => (by cases hscreen), fun _ hphoto => (by cases hphoto)⟩
  have hp : p.1.Kept ∧ Standing services.Reads services.Shows p := by
    refine h.invariant (I := fun p => p.1.Kept ∧ Standing services.Reads services.Shows p)
      ⟨hkept, .start⟩ fun p a q hp hg hs => ⟨?_, hp.2.step ?_ ?_ hs⟩
    · exact kept_step hp.1 hg.1 (withHistory_some.mp hs).1
    · rintro n text rfl - photo hn hphase
      exact reads_of_served hp.1 hp.2 hg hn hphase
    · rintro n translated rfl hne photo text hn hphase htexts htext
      have hshown := shows_of_served hp.1 hg hn hphase htexts
      rw [htext] at hshown
      exact ⟨hshown, hne⟩
  intro result hr translated htranslated
  obtain ⟨hlt, hin⟩ := hp.2.lt hr
  have hn := List.getElem?_eq_getElem hlt
  refine ⟨_, hn, (hp.2.photos _ _ hn).out ?_⟩
  rwa [← htranslated]

/-- The first photo is of a jar of salt, and the second of a bottle of milk. -/
def jars : Services where
  ocr n _ := if n = 0 then "sel" else "lait"
  translate _ text := if text = "sel" then "salt" else "milk"

theorem photo_translated_twoPhotos : ∃ p : Session, ⟨0, some "salt"⟩ ∈ p.2.results ∧
    ∃ photo, p.1.photos[0]? = some photo ∧ jars.Shows 0 photo.chosen "salt" := by
  obtain ⟨p, hp, hshown⟩ := Reach.of_exec Session.step (Served jars) (Session.start ⟨.en, none⟩)
    twoPhotos (fun p => ⟨0, some "salt"⟩ ∈ p.2.results) (by decide)
  exact ⟨p, hshown, photo_translated hp _ hshown "salt" rfl⟩

end IngrediGo.TranslatorScreen
