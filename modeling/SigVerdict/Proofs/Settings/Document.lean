import SigVerdict.Proofs.Format.Json.Parser
import SigVerdict.Proofs.Settings.Merge
import SigVerdict.Proofs.Settings.Variables
import SigVerdict.Proofs.Time.Span

set_option autoImplicit false

/-! # Settings as a document

The settings are shown as a document with a section for the verification and one for the log. What
its JSON value says is these settings (`says_document`), the time limit included, which is written
as a row of counts. So settings that are stored as they are shown are loaded again unchanged, but
for the way in which the standard path of the command is written (`ofFile_document`). -/

namespace SigVerdict.Settings

variable {w : World} {path : FilePath} {s : Settings} {cs : List Char}

/-- The texts of a list are read back. -/
theorem texts?_ofDocument (items : List String) :
    Json.reading.texts? (Json.ofDocument (Document.texts items)) = some items := by
  show (Json.ofItems (items.map .text)).mapM Json.reading.text? = some items
  induction items with
  | nil => rfl
  | cons item items ih =>
      rw [List.map_cons, Json.ofItems, List.mapM_cons, ih]
      rfl

theorem optionalText?_ofDocument (text : Option String) :
    Json.reading.optionalText? (Json.ofDocument (Document.optionalText text)) = some text := by
  cases text <;> rfl

theorem readSpan?_ofDocument (timeout : Option Span) :
    readSpan? Json.reading (Json.ofDocument (Document.optionalText (timeout.map Span.toText))) =
      some timeout := by
  rw [readSpan?, optionalText?_ofDocument]
  cases timeout with
  | none => rfl
  | some span =>
      have hread := Span.parse?_render span
      rw [← Span.toList_toText] at hread
      simp [hread]

/-- The document of settings says the settings. -/
theorem says_document (s : Settings) : Says Json.reading (Json.ofDocument s.document) s := by
  have hsections : Json.reading.fields? sections (Json.ofDocument s.document) =
      some [some _, some _] := rfl
  refine .intro hsections (.found rfl) ?_ (.found rfl) (.found rfl)
  exact
    { executable := .found rfl
      keyring := .found (optionalText?_ofDocument s.keyring)
      timeout := .found (readSpan?_ofDocument s.timeout)
      requiredCount := .found rfl
      ignoredCodes := .found (texts?_ofDocument s.ignoredCodes)
      disabled := .found rfl }

/-- A text is settings as they are shown: their tokens, in any layout. -/
def Shows (text : String) (s : Settings) : Prop :=
  Json.Laid (Json.tokensOf (Json.ofDocument s.document)) text.toList

theorem readText_of_content {text : String}
    (h : w.look path = .content (Text.Utf8.encode text.toList)) : w.readText path = .ok text := by
  have hdecode := Text.Utf8.decode?_eq_some_iff.2 (rfl : Text.Utf8.encode text.toList = _)
  rw [World.readText, h, Found.read]
  simp only [hdecode, String.ofList_toList]

/-- Settings that are stored as they are shown are what the file says. -/
theorem ofFile_of_shows {text : String} (hextension : path.extension = "json")
    (hcontent : w.look path = .content (Text.Utf8.encode text.toList)) (hshows : Shows text s) :
    ofFile w path = .ok s.respelt := by
  refine ofFile_eq_ok_iff.2 ⟨text, s, readText_of_content hcontent, ?_, rfl⟩
  rw [hextension]
  exact ⟨_, Json.parse?_of_laid_document hshows, says_document s⟩

/-- **Settings that are stored as they are shown are loaded again unchanged**, but for the path of
    the command, which may be written in another way. What a printer writes is one of the ways to
    show them. The time limit keeps its seconds and nanoseconds, whatever they are: no number leaves
    64 bits when its text is read. So different time limits have different texts, and this makes a
    difference to the messages about them, for whatever commands. -/
theorem ofFile_document :
    (∀ (w : World) (path : FilePath) (s : Settings) (text : String), path.extension = "json" →
      w.look path = .content (Text.Utf8.encode text.toList) → Shows text s →
      ofFile w path = .ok s.respelt ∧ SameButPath s.respelt s) ∧
    (∀ s : Settings, Shows (String.ofList (Json.render (Json.ofDocument s.document))) s) ∧
    (∀ span : Span, Span.parse? span.toText.toList = some span) ∧
    ∀ a b : Span, a ≠ b → a.toText ≠ b.toText ∧ ∀ command command' : String,
      (Fault.timeout command a).message ≠ (Fault.timeout command' b).message := by
  refine ⟨fun w path s text hextension hcontent hshows => ?_, fun s => ?_, fun span => ?_,
    fun a b hne => ?_⟩
  · exact ⟨ofFile_of_shows hextension hcontent hshows, respelt_sameButPath s⟩
  · have hlaid := Json.laid_render (Json.ofDocument s.document) (List.forall_mem_nil _)
    rwa [List.append_nil, ← String.toList_ofList (l := Json.render _)] at hlaid
  · rw [Span.toList_toText, Span.parse?_render]
  · exact ⟨fun h => hne (Span.toText_injective h),
      fun command command' h => hne (Span.message_timeout_inj h)⟩

/-- The longest span of time. -/
def longestSpan : Span := ⟨Span.mostSeconds, 999999999, by decide, by decide⟩

/-- Settings with the longest time limit, and with another way to write the standard path. -/
def longestLimit : Settings := { executable := "gpg/", timeout := some longestSpan }

/-- The path is loaded as the standard one, and the time limit as it was. One nanosecond less can be
    told from it. -/
theorem ofFile_document_longestLimit :
    ofFile (worldOfVariables []
        (String.ofList (Json.render (Json.ofDocument longestLimit.document)))) (.ofText "c.json") =
      .ok { timeout := some longestSpan } ∧
    (Fault.timeout "gpg" longestSpan).message ≠
      (Fault.timeout "gpg" ⟨Span.mostSeconds, 999999998, by decide, by decide⟩).message := by
  obtain ⟨hload, hshows, -, hmessage⟩ := ofFile_document
  refine ⟨(hload _ (.ofText "c.json") longestLimit _ (by rfl) rfl (hshows longestLimit)).1, ?_⟩
  exact (hmessage longestSpan _ (by decide)).2 "gpg" "gpg"

end SigVerdict.Settings
