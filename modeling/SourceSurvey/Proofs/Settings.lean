import Mathlib.Tactic.ByContra
import SourceSurvey.Proofs.Text.Decoding
import SourceSurvey.Settings.Basic

/-!
# What a settings file leads to

A settings file is expected to do no harm (`Settings.Expected`): it sets what its section sets, everything else
keeps its default, and a file that is broken is reported and passed over. Reading keeps to this for files that
are the encoding of a text and have nothing under the name of the section that breaks the lookup of a key
(`Settings.Askable`). Every other file leads to an error instead, and no report (`Settings.load_expected_iff`).
All of this holds whatever reads the documents.
-/

namespace SourceSurvey

theorem Text.contains_iff_infix {part s : String} : contains part s = true ↔ part.toList <:+: s.toList := by
  rw [contains]
  induction s.toList with
  | nil => simp [occursIn]
  | cons c rest ih => rw [occursIn, Bool.or_eq_true, ih, List.isPrefixOf_iff_prefix, List.infix_cons_iff]

namespace Settings

def entries (s : Settings) : List (String × Value) :=
  keys.zip [s.base, s.title, s.logLevel]

/-- The document in a file. There is none in a broken file, be it that it is no text or that the text is not
well formed. -/
def document? (read : DocumentReader) (bytes : Bytes) : Option (List (String × Value)) :=
  (Text.Utf8.decode? bytes).bind fun text => read (Text.readLines text)

def sectionOf? (read : DocumentReader) (bytes : Bytes) : Option Value :=
  (document? read bytes).bind fun document => document.lookup sectionName

/-- What a section sets; only a table sets anything. -/
def assigned : Value → List (String × Value)
  | .table entries => entries
  | _ => []

/-- The defaults, each of them overridden if its key is set. -/
def overridden (set : List (String × Value)) : List (String × Value) :=
  ({} : Settings).entries.map fun e => (e.1, (set.lookup e.1).getD e.2)

def passedOver (path cause : String) : Record :=
  { level := .warning, origin := .settings, message := "Ignoring config file " ++ path, cause := some cause }

/-- What reading a settings file is expected to result in. -/
structure Expected (read : DocumentReader) (path : String) (bytes : Bytes)
    (result : Logged (Except SettingsError Settings)) : Prop where
  settings : ∃ s, result.value = .ok s ∧ s.entries = overridden (((sectionOf? read bytes).map assigned).getD [])
  broken : document? read bytes = none → ∃ cause, result.log = [passedOver path cause]
  sound : document? read bytes ≠ none → result.log = []

/-! ## Sections -/

/-- The keys can be looked for in the value: it is a table, or a text or a list in which none of them is. -/
def Askable : Value → Prop
  | .table _ => True
  | .text s => ∀ k ∈ keys, ¬ k.toList <:+: s.toList
  | .list items => ∀ k ∈ keys, ∀ v ∈ items, v ≠ .text k
  | _ => False

variable {v : Value}

theorem exists_ofSection (h : Askable v) : ∃ s, ofSection v = .ok s ∧ s.entries = overridden (assigned v) := by
  cases v with
  | table entries => exact ⟨_, rfl, rfl⟩
  | text s =>
      refine ⟨{}, ?_, rfl⟩
      rw [ofSection, if_neg]
      rw [List.any_eq_true]
      rintro ⟨k, key, found⟩
      exact h k key (Text.contains_iff_infix.mp found)
  | list items =>
      refine ⟨{}, ?_, rfl⟩
      rw [ofSection, if_neg]
      rw [List.any_eq_true]
      rintro ⟨v, item, found⟩
      cases v with
      | text s => exact h s (List.contains_iff_mem.mp found) (.text s) item rfl
      | null | boolean | integer | decimal | moment | list | table => cases found
  | null | boolean | integer | decimal | moment => exact h.elim

theorem ofSection_of_not_askable (h : ¬ Askable v) : ofSection v = .error .notSection := by
  cases v with
  | table entries => exact absurd trivial h
  | text s =>
      simp only [Askable, not_forall, not_not] at h
      obtain ⟨k, key, found⟩ := h
      rw [ofSection, if_pos]
      exact List.any_eq_true.mpr ⟨k, key, Text.contains_iff_infix.mpr found⟩
  | list items =>
      simp only [Askable, not_forall, not_not] at h
      obtain ⟨k, key, _, item, rfl⟩ := h
      rw [ofSection, if_pos]
      exact List.any_eq_true.mpr ⟨.text k, item, List.contains_iff_mem.mpr key⟩
  | null | boolean | integer | decimal | moment => rfl

/-! ## Files -/

variable {read : DocumentReader} {path : String} {bytes : Bytes}

theorem load_of_not_text (h : Text.Utf8.decode? bytes = none) :
    (load read path (some bytes)).run = { value := .error .notText } := by
  rw [load, textOf, h]
  rfl

theorem load_of_broken {text : String} (decoded : Text.Utf8.decode? bytes = some text)
    (h : document? read bytes = none) :
    (load read path (some bytes)).run = { value := .ok {}, log := [passedOver path "not well formed"] } := by
  rw [document?, decoded, Option.bind_some] at h
  rw [load, textOf, decoded]
  dsimp only
  rw [h]
  rfl

theorem load_of_document {document : List (String × Value)} (h : document? read bytes = some document) :
    (load read path (some bytes)).run = { value := ((sectionOf? read bytes).map ofSection).getD (.ok {}) } := by
  obtain ⟨text, decoded, parsed⟩ := Option.bind_eq_some_iff.mp h
  rw [sectionOf?, h, Option.bind_some, load, textOf, decoded]
  dsimp only
  rw [parsed]
  dsimp only
  cases document.lookup sectionName with
  | none => rfl
  | some v =>
      show (load.liftExcept (ofSection v)).run = { value := ofSection v }
      cases ofSection v with
      | error e => rfl
      | ok s => rfl

theorem exists_encode_iff : (∃ text, Text.Utf8.encode text = bytes) ↔ Text.Utf8.decode? bytes ≠ none := by
  rw [Option.ne_none_iff_exists']
  exact exists_congr fun text => Text.Utf8.decode?_eq_some_iff.symm

/-- A file that is the encoding of a text and has a section that can be asked for its keys, if it has one, does
what is expected. -/
theorem expected_of_askable (encoded : Text.Utf8.decode? bytes ≠ none)
    (h : ∀ v ∈ sectionOf? read bytes, Askable v) :
    Expected read path bytes (load read path (some bytes)).run := by
  obtain ⟨text, decoded⟩ := Option.ne_none_iff_exists'.mp encoded
  cases found : document? read bytes with
  | none =>
      have nothing : sectionOf? read bytes = none := by
        rw [sectionOf?, found]
        rfl
      rw [load_of_broken decoded found]
      refine ⟨⟨{}, rfl, ?_⟩, fun _ => ⟨_, rfl⟩, fun sound => absurd found sound⟩
      rw [nothing]
      rfl
  | some document =>
      rw [load_of_document found]
      refine ⟨?_, fun broken => ?_, fun _ => rfl⟩
      · cases held : sectionOf? read bytes with
        | none => exact ⟨{}, rfl, rfl⟩
        | some v =>
            obtain ⟨s, made, set⟩ := exists_ofSection (h v held)
            exact ⟨s, made, set⟩
      · rw [found] at broken
        cases broken

theorem load_of_not_askable (held : sectionOf? read bytes = some v) (h : ¬ Askable v) :
    (load read path (some bytes)).run = { value := .error .notSection } := by
  obtain ⟨document, found, -⟩ := Option.bind_eq_some_iff.mp held
  rw [load_of_document found, held, Option.map_some, Option.getD_some, ofSection_of_not_askable h]

theorem not_expected_of_error {e : SettingsError} {result : Logged (Except SettingsError Settings)}
    (h : result = { value := .error e }) : ¬ Expected read path bytes result := by
  rintro ⟨⟨s, made, -⟩, -, -⟩
  rw [h] at made
  cases made

/-- **Which settings files do what is expected of them:** those that are the encoding of a text and in which
the keys can be looked for under the name of the section, if anything is there. What is no text is an error, also
where it could be passed over, and so is a section that is no table and yet seems to have one of the keys, or
cannot have any. -/
theorem load_expected_iff (read : DocumentReader) (path : String) (bytes : Bytes) :
    (Expected read path bytes (load read path (some bytes)).run ↔
      (∃ text, Text.Utf8.encode text = bytes) ∧ ∀ v ∈ sectionOf? read bytes, Askable v) ∧
      ((¬ ∃ text, Text.Utf8.encode text = bytes) →
        (load read path (some bytes)).run = { value := .error .notText }) ∧
      ∀ v ∈ sectionOf? read bytes, ¬ Askable v →
        (load read path (some bytes)).run = { value := .error .notSection } := by
  rw [exists_encode_iff]
  refine ⟨⟨fun expected => ⟨fun noText => ?_, fun v held => ?_⟩, fun h => expected_of_askable h.1 h.2⟩,
    fun noText => load_of_not_text (not_not.mp noText), fun v held h => load_of_not_askable held h⟩
  · exact not_expected_of_error (load_of_not_text noText) expected
  · by_contra refused
    exact not_expected_of_error (load_of_not_askable held refused) expected

/-- A text that sets a title and a log level. -/
def titledText : String := "[tsgraph]\ntitle = 'a'\nlog_level = 3\n"

def titledSection : Value := .table [("title", .text "a"), ("log_level", .integer 3)]

/-- Reads the one text above. -/
def readTitled : DocumentReader := fun text => if text = titledText then some [(sectionName, titledSection)] else none

/-- The base keeps its default, and the log level is a number. -/
theorem load_expected_iff_titled :
    Expected readTitled "config.toml" (Text.Utf8.encode titledText)
        (load readTitled "config.toml" (some (Text.Utf8.encode titledText))).run ∧
      sectionOf? readTitled (Text.Utf8.encode titledText) = some titledSection := by
  have held : sectionOf? readTitled (Text.Utf8.encode titledText) = some titledSection := by
    have lines : Text.readLines titledText = titledText := by decide +kernel
    rw [sectionOf?, document?, Text.Utf8.decode?_eq_some_iff.mpr rfl, Option.bind_some, lines, readTitled, if_pos rfl]
    rfl
  refine ⟨(load_expected_iff readTitled "config.toml" _).1.mpr ⟨⟨titledText, rfl⟩, ?_⟩, held⟩
  rw [held]
  rintro v ⟨⟩
  trivial

/-- A single byte that is no text is not passed over: it leads to an error, and nothing is reported. -/
theorem not_expected_notText :
    ¬ Expected readTitled "config.toml" [0xFF] (load readTitled "config.toml" (some [0xFF])).run := by
  have noText : Text.Utf8.decode? [0xFF] = none := by decide +kernel
  exact not_expected_of_error (load_of_not_text noText)

end Settings

end SourceSurvey
