/-
QueryTerms.Proofs.DialectFiles — a file describes what its text describes.

The bytes of a file are taken for the text that they encode, and the file then describes what this text
describes, or has the same problem. A file that is missing, or whose bytes encode no text, cannot be
read, and that comes before any problem of the text in front of the first wrong byte. Nothing else about
a file is seen by the commands (`ofFile_follows_text`).
-/
import QueryTerms.Proofs.CommandRuns
import QueryTerms.Proofs.EncodedText

namespace QueryTerms

open CommandLine

namespace Dialect

/-- The text of a file is read, whatever it is. -/
theorem ofFile_of_text {content : ByteArray} {t : String} (h : content.data.toList = utf8 t) :
    ofFile (some content) = ofDocument t := by
  rw [ofFile, Option.bind_some, Utf8.fromUTF8?_eq_some_iff.2 h]

/-- Bytes that are no text cannot be read. -/
theorem ofFile_of_not_wellFormed {content : ByteArray}
    (h : ¬ Utf8.WellFormed content.data.toList) : ofFile (some content) = .error .unreadable := by
  rw [ofFile, Option.bind_some, Utf8.fromUTF8?_eq_none_iff.2 h]

/-- A text can always be read, be it the description of a dialect or not. -/
theorem ofDocument_ne_unreadable (t : String) : ofDocument t ≠ .error .unreadable := by
  rw [ofDocument]
  cases Json.Reader.readAll value t.toList with
  | ok d => exact fun h => nomatch h
  | error p => exact fun h => nomatch h

/-- A file cannot be read exactly if it is missing or its bytes are not well-formed. -/
theorem ofFile_eq_unreadable_iff {file : Option ByteArray} :
    ofFile file = .error .unreadable
      ↔ file = none ∨ ∃ content, file = some content ∧ ¬ Utf8.WellFormed content.data.toList := by
  constructor
  · intro h
    cases file with
    | none => exact .inl rfl
    | some content =>
      refine .inr ⟨content, rfl, fun hwell => ?_⟩
      obtain ⟨t, ht⟩ := Utf8.wellFormed_iff.1 hwell
      exact ofDocument_ne_unreadable t (ofFile_of_text ht ▸ h)
  · rintro (rfl | ⟨content, rfl, hnot⟩)
    · rfl
    · exact ofFile_of_not_wellFormed hnot

end Dialect

namespace CommandLine

section Invoked

variable {arguments : List String} {inv : Invocation}
  (hinv : Invocation.ofArguments? arguments = some inv) {files : String → Option ByteArray}
  {path : String} (hpath : inv.config = some path) (hwords : ∀ text, ¬ inv.Wordless text)

include hinv hpath hwords

/-- A command that is right but for the file fails exactly if the file does not load. -/
theorem exitCode_run_eq_one_iff_file :
    (run arguments files).exitCode = 1 ↔ ∃ e, Dialect.ofFile (files path) = .error e := by
  rw [exitCode_run_eq_one_iff hinv files]
  constructor
  · rintro (⟨other, hother, hload⟩ | ⟨text, htext⟩)
    · obtain rfl : path = other := Option.some.inj (hpath.symm.trans hother)
      exact hload
    · exact absurd htext (hwords text)
  · exact fun hload => .inl ⟨path, hpath, hload⟩

/-- It succeeds exactly if the file describes a dialect. -/
theorem exitCode_run_eq_zero_iff_file :
    (run arguments files).exitCode = 0 ↔ ∃ d, Dialect.ofFile (files path) = .ok d := by
  have hone : (run arguments files).exitCode = 1 ↔ _ :=
    exitCode_run_eq_one_iff_file hinv hpath hwords
  have htwo : (run arguments files).exitCode ≠ 2 := fun h => by
    rw [exitCode_run_eq_two_iff, hinv] at h
    cases h
  have hmem := Outcome.exitCode_mem (run arguments files)
  cases hload : Dialect.ofFile (files path) with
  | ok d =>
    have hnot : (run arguments files).exitCode ≠ 1 := fun h => by
      obtain ⟨e, he⟩ := hone.1 h
      rw [hload] at he
      cases he
    exact iff_of_true (by simpa [hnot, htwo] using hmem) ⟨d, rfl⟩
  | error e =>
    rw [hone.2 ⟨e, hload⟩]
    exact iff_of_false (by decide) (by rintro ⟨d, ⟨⟩⟩)

end Invoked

end CommandLine

/-- **A file describes what its text describes.** If its bytes encode a text, it has the outcome of the
text: the same dialect or the same problem. It cannot be read exactly if it is missing or its bytes are
not well-formed. Bytes are well-formed exactly if they encode a text; otherwise they go wrong somewhere
behind the encoding of a text, and then the file cannot be read, whatever problem the text has. A
command that names the file and is right otherwise exits with 0 or 1 as the file loads or does not. -/
theorem Dialect.ofFile_follows_text (file : Option ByteArray) :
    (∀ content t, file = some content → content.data.toList = utf8 t → ofFile file = ofDocument t)
    ∧ (ofFile file = .error .unreadable
        ↔ file = none ∨ ∃ content, file = some content ∧ ¬ Utf8.WellFormed content.data.toList)
    ∧ (∀ bytes, Utf8.WellFormed bytes ↔ ∃ t, bytes = utf8 t)
    ∧ (∀ bytes, ¬ Utf8.WellFormed bytes ↔ ∃ t wrong, bytes = utf8 t ++ wrong ∧ Utf8.Fault wrong)
    ∧ (∀ content t wrong, file = some content → content.data.toList = utf8 t ++ wrong →
        Utf8.Fault wrong → ofFile file = .error .unreadable)
    ∧ ∀ (arguments : List String) (inv : Invocation) (files : String → Option ByteArray)
        (path : String),
      Invocation.ofArguments? arguments = some inv → inv.config = some path → files path = file →
      (∀ text, ¬ inv.Wordless text) →
        ((run arguments files).exitCode = 0 ↔ ∃ d, ofFile file = .ok d)
        ∧ ((run arguments files).exitCode = 1 ↔ ∃ e, ofFile file = .error e) := by
  refine ⟨?_, ofFile_eq_unreadable_iff, fun _ => Utf8.wellFormed_iff, fun _ => Utf8.not_wellFormed_iff,
    ?_, ?_⟩
  · rintro content t rfl ht
    exact ofFile_of_text ht
  · rintro content t wrong rfl hbytes hfault
    exact ofFile_of_not_wellFormed (Utf8.not_wellFormed_iff.2 ⟨t, wrong, hbytes, hfault⟩)
  · rintro arguments inv files path hinv hpath rfl hwords
    exact ⟨exitCode_run_eq_zero_iff_file hinv hpath hwords,
      exitCode_run_eq_one_iff_file hinv hpath hwords⟩

/-- An unknown member in front of an encoded surrogate: the text has a problem of its own, but the file
cannot be read. -/
theorem Dialect.ofFile_follows_text_surrogate :
    let text := "\x7b\"colour\":"
    let wrong : List UInt8 := [0xED, 0xA0, 0x80]
    let file := some (utf8 text ++ wrong).toByteArray
    let arguments := ["render", "-c", "d.json"]
    ofDocument text = .error (.problem (.misfit (.unknownMember "colour")))
    ∧ ofFile file = .error .unreadable
    ∧ (run arguments fun _ => file).exitCode = 1 := by
  intro text wrong file arguments
  have hsequence : Utf8.Sequence wrong 2 0xD800 :=
    @Utf8.Sequence.mk 0xED 2 0xD [0xA0, 0x80] rfl rfl (by simp [Utf8.Continues])
  have hfault : Utf8.Fault (wrong ++ []) := .surrogate hsequence (Nat.le_refl _) (by omega)
  obtain ⟨-, -, -, -, hwrong, hruns⟩ := Dialect.ofFile_follows_text file
  have hunreadable := hwrong _ text wrong rfl (Utf8.eq_toByteArray_iff.1 rfl) hfault
  let inv : Invocation :=
    { dialect := .postgres, config := some "d.json", debug := false, command := .render "false" false }
  have hinv : Invocation.ofArguments? arguments = some inv := by decide +kernel
  have hwords : ∀ other, ¬ inv.Wordless other := by
    rintro other ⟨⟨_, ⟨⟩⟩, hnot⟩
    exact hnot (show String.ofList ("false".toList.map Char.toLower) ∈ parameterWords by decide +kernel)
  obtain ⟨-, hfails⟩ := hruns arguments inv (fun _ => file) "d.json" hinv rfl rfl hwords
  exact ⟨by decide +kernel, hunreadable, hfails.2 ⟨_, hunreadable⟩⟩

end QueryTerms
