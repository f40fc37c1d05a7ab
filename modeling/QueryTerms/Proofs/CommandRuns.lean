/-
QueryTerms.Proofs.CommandRuns — a run prints all of its answer or nothing.

The program looks for the dialect first, then does the command's work, and each may fail. Nothing can
fail once a line is printed, also where lines are printed between fetches: §1 says so of a program that
prints each line as soon as it is known (`Invocation.printing`), which ends as the collected lines do
and has printed them all or none (`Invocation.run_printing`). That is so because writing the predicate
and decoding values never fail at all (`spelled_predicate`, `decodeLines_eq`), which leaves two failures:
a file that does not load, and a parameter that has no value. Where neither is there, the answer is known
in advance (`Invocation.answer`).

  §1  printing line by line
  §2  dialects and answers
  §3  the ways of an invocation
  §4  runs
  §5  all or nothing
  §6  decoding
-/
import QueryTerms.Proofs.DecodedRows
import QueryTerms.Proofs.DialectArguments
import QueryTerms.Proofs.RenderedPredicate

namespace QueryTerms.CommandLine

/-! ## 1. Printing line by line -/

/-- Work that prints lines as it goes and may fail; what was printed before a failure stays. -/
abbrev Printing := ExceptT Failure (StateM (List String))

namespace Printing

/-- Prints a line. -/
def say (line : String) : Printing Unit :=
  modify (· ++ [line])

/-- Prints nothing, and fails where the result is a failure. -/
def ofResult {α : Type} (x : Except Failure α) : Printing α :=
  ExceptT.mk (pure x)

/-- A failure keeps what was printed before it. -/
theorem run_bind {α β : Type} (p : Printing α) (f : α → Printing β) (out : List String) :
    (p >>= f).run.run out =
      match p.run.run out with
      | (.ok a, out) => (f a).run.run out
      | (.error e, out) => (.error e, out) := by
  simp only [ExceptT.run_bind, StateT.run_bind]
  rcases p.run.run out with ⟨_ | _, y⟩ <;> rfl

theorem run_say (line : String) (out : List String) :
    (say line).run.run out = (.ok (), out ++ [line]) :=
  rfl

theorem run_ofResult {α : Type} (x : Except Failure α) (out : List String) :
    (ofResult x).run.run out = (x, out) :=
  rfl

/-- Lines that are said one by one stand behind all that was said before. -/
theorem run_forM_say : ∀ lines out : List String,
    (lines.forM say).run.run out = (.ok (), out ++ lines)
  | [], out => by rw [List.append_nil]; rfl
  | line :: lines, out => by
    show (say line >>= fun _ => lines.forM say).run.run out = _
    rw [run_bind, run_say]
    simp only [run_forM_say lines, List.append_assoc, List.singleton_append]

end Printing

open Printing

/-- Reports every row that is left, each before the next one is fetched; answers the cursor that has
run dry. -/
def reportRows (number : Nat) (c : Cursor) (s : Store) : Printing (Cursor × Store) :=
  match h : c.next s with
  | (.ok true, c', s') =>
    have := Cursor.rows_length_of_next h
    do
      let fields ← ofResult ((readings c'.row s').mapError .access)
      say (rowLine number fields)
      reportRows (number + 1) c' s'
  | (.ok false, c', s') => pure (c', s')
  | (.error e, _, _) => throw (.row e)
termination_by c.source.rows.length

/-- Decoding, line by line. -/
def printDecoded (values : List String) : Printing Unit := do
  let (c, s) ← reportRows 1 (decodingCursor values).1 (decodingCursor values).2
  (endLines c.row s).forM say

/-- An invocation that prints each line as soon as it is known. -/
def Invocation.printing (inv : Invocation) (files : String → Option ByteArray) : Printing Unit := do
  let d ← ofResult (inv.dialect? files)
  match inv.command with
  | .render text trivialIsNull =>
    let lines ← ofResult (renderLines d text trivialIsNull)
    lines.forM say
  | .decode values => printDecoded values

/-- Where no row is left, reporting prints nothing more. -/
theorem run_reportRows_of_end {c : Cursor} {s : Store} {last : Cursor × Store}
    (h : c.next s = (.ok false, last)) (number : Nat) (out : List String) :
    (reportRows number c s).run.run out = (.ok last, out) := by
  rw [reportRows]
  split
  · next hnext => simp [h] at hnext
  · next hnext => rw [h] at hnext; cases hnext; rfl
  · next hnext => simp [h] at hnext

/-- A row that can be read is reported before the next one is fetched. -/
theorem run_reportRows_of_row {c c' : Cursor} {s s' : Store} {fields : List (String × Bool)}
    (h : c.next s = (.ok true, c', s')) (hread : readings c'.row s' = .ok fields) (number : Nat)
    (out : List String) :
    (reportRows number c s).run.run out
      = (reportRows (number + 1) c' s').run.run (out ++ [rowLine number fields]) := by
  rw [reportRows]
  split
  · next hnext =>
    rw [h] at hnext
    cases hnext
    rw [hread]
    rfl
  · next hnext => simp [h] at hnext
  · next hnext => simp [h] at hnext

/-- If a walk can read every row, then reporting row by row prints their lines. -/
theorem run_reportRows : ∀ (rows : List (List (String × Bool))) {c : Cursor} {s : Store}
    {last : Cursor × Store} (number : Nat) (out : List String),
    c.visitAll readings s = .ok (rows.map .ok, last) →
      (reportRows number c s).run.run out
        = (.ok last, out ++ rows.mapIdx fun i fields => rowLine (i + number) fields)
  | rows, c, s, last, number, out, h => by
    rcases Cursor.visitAll_eq_ok h with ⟨hnext, hrows⟩ | ⟨c', s', rest, hnext, hrows, hwalk⟩
    · obtain rfl := List.map_eq_nil_iff.1 hrows
      rw [run_reportRows_of_end hnext, List.mapIdx_nil, List.append_nil]
    · obtain ⟨fields, others, rfl, hread, rfl⟩ := List.map_eq_cons_iff.1 hrows
      rw [run_reportRows_of_row hnext hread.symm, run_reportRows others _ _ hwalk, List.mapIdx_cons,
        List.append_assoc]
      simp only [Nat.zero_add, Nat.add_assoc, Nat.add_comm 1, List.singleton_append]
termination_by rows => rows.length

/-- Decoding prints its lines one by one, and never fails. -/
theorem run_printDecoded (values out : List String) :
    (printDecoded values).run.run out = (.ok (), out ++ reportLines values) := by
  obtain ⟨last, t, hwalk, hend⟩ := visitAll_decodingCursor values
  rw [printDecoded, run_bind, run_reportRows _ 1 out hwalk]
  refine (run_forM_say _ _).trans ?_
  rw [hend, mapIdx_rowLine, List.append_assoc]
  rfl

/-- Printing each line as soon as it is known ends as the collected lines do, and prints all of them
or none. -/
theorem Invocation.run_printing (inv : Invocation) (files : String → Option ByteArray) :
    (inv.printing files).run.run []
      = match inv.lines files with
        | .ok lines => (.ok (), lines)
        | .error f => (.error f, []) := by
  rw [printing, run_bind, run_ofResult, lines]
  cases inv.dialect? files with
  | error f => rfl
  | ok d =>
    cases inv.command with
    | render text trivialIsNull =>
      show (ofResult (renderLines d text trivialIsNull) >>= (·.forM say)).run.run []
        = match renderLines d text trivialIsNull with
          | .ok lines => (.ok (), lines)
          | .error f => (.error f, [])
      rw [run_bind, run_ofResult]
      cases renderLines d text trivialIsNull with
      | error f => rfl
      | ok lines => exact run_forM_say lines []
    | decode values =>
      show (printDecoded values).run.run []
        = match decodeLines values with
          | .ok lines => (.ok (), lines)
          | .error f => (.error f, [])
      rw [run_printDecoded, decodeLines_eq]
      rfl

/-! ## 2. Dialects and answers -/

namespace Invocation

/-- The file that is to describe the dialect is at this path, and does not load. -/
def Unloadable (inv : Invocation) (files : String → Option ByteArray) (path : String) : Prop :=
  inv.config = some path ∧ ∃ e, Dialect.ofFile (files path) = .error e

/-- The command renders a parameter whose text is no word for a value. -/
def Wordless (inv : Invocation) (text : String) : Prop :=
  (∃ trivialIsNull, inv.command = .render text trivialIsNull) ∧ ¬ IsParameterWord text

/-- The dialect that an invocation works with: the described one if a file is named, else the named
one. -/
def Uses (inv : Invocation) (files : String → Option ByteArray) (d : Dialect) : Prop :=
  (inv.config = none ∧ d = { kind := inv.dialect })
  ∨ ∃ path, inv.config = some path ∧ Dialect.ofFile (files path) = .ok d

/-- The dialect that is found is the one that the invocation works with. -/
theorem dialect?_eq_ok_iff {inv : Invocation} {files : String → Option ByteArray}
    {d : Dialect} : inv.dialect? files = .ok d ↔ inv.Uses files d := by
  rw [dialect?, Uses]
  cases inv.config with
  | none => simp [eq_comm]
  | some path =>
    have hload : (Dialect.ofFile (files path)).mapError (fun _ => Failure.config path) = .ok d
        ↔ Dialect.ofFile (files path) = .ok d := by
      cases Dialect.ofFile (files path) with
      | ok d' => exact ⟨fun h => congrArg _ (Except.ok.inj h), fun h => congrArg _ (Except.ok.inj h)⟩
      | error e => exact iff_of_false (by rintro ⟨⟩) (by rintro ⟨⟩)
    simpa using hload

/-- A dialect is found, unless a file is named that does not load. -/
theorem unloadable_or_uses (inv : Invocation) (files : String → Option ByteArray) :
    (∃ path, inv.Unloadable files path) ∨ ∃ d, inv.Uses files d := by
  cases hconfig : inv.config with
  | none => exact .inr ⟨_, .inl ⟨hconfig, rfl⟩⟩
  | some path =>
    cases hload : Dialect.ofFile (files path) with
    | error e => exact .inl ⟨path, hconfig, e, hload⟩
    | ok d => exact .inr ⟨d, .inr ⟨path, hconfig, hload⟩⟩

/-- An invocation that works with a dialect names no file that does not load. -/
theorem not_unloadable_of_uses {inv : Invocation} {files : String → Option ByteArray} {d : Dialect}
    (h : inv.Uses files d) (path : String) : ¬ inv.Unloadable files path := by
  rintro ⟨hpath, e, herror⟩
  rcases h with ⟨hnone, -⟩ | ⟨other, hother, hload⟩
  · rw [hpath] at hnone
    cases hnone
  · obtain rfl : path = other := Option.some.inj (hpath.symm.trans hother)
    rw [hload] at herror
    cases herror

/-- The whole answer to an invocation that works with a dialect. -/
def answer (inv : Invocation) (d : Dialect) : List String :=
  match inv.command with
  | .render text trivialIsNull => renderReport d (parameterValue? text).join trivialIsNull
  | .decode values => reportLines values

/-! ## 3. The ways of an invocation -/

section Ways

variable {inv : Invocation} {files : String → Option ByteArray}

/-- A file that does not load fails whatever the command. -/
theorem lines_of_unloadable {path : String} (h : inv.Unloadable files path) :
    inv.lines files = .error (.config path) := by
  obtain ⟨hpath, e, herror⟩ := h
  simp only [lines, dialect?, hpath, herror]
  rfl

/-- A parameter without a value fails once the dialect is there. -/
theorem lines_of_wordless {d : Dialect} (hd : inv.Uses files d) {text : String}
    (h : inv.Wordless text) : inv.lines files = .error (.parameter text) := by
  obtain ⟨⟨trivialIsNull, hcommand⟩, hword⟩ := h
  rw [lines, dialect?_eq_ok_iff.2 hd, hcommand]
  exact renderLines_of_wordless d hword trivialIsNull

/-- With a dialect and a value for the parameter, there is a whole answer. -/
theorem lines_of_uses {d : Dialect} (hd : inv.Uses files d) (hwords : ∀ text, ¬ inv.Wordless text) :
    inv.lines files = .ok (inv.answer d) := by
  rw [lines, dialect?_eq_ok_iff.2 hd, answer]
  cases hcommand : inv.command with
  | decode values => exact decodeLines_eq values
  | render text trivialIsNull =>
    cases hvalue : parameterValue? text with
    | none =>
      exact absurd ⟨⟨trivialIsNull, hcommand⟩, parameterValue?_eq_none_iff.1 hvalue⟩ (hwords text)
    | some value =>
      show renderLines d text trivialIsNull
        = .ok (renderReport d (parameterValue? text).join trivialIsNull)
      rw [renderLines_of_parameterValue? d hvalue, hvalue]
      rfl

/-- The ways of an invocation: the file does not load, whatever the command; else the parameter has no
value; else there is an answer. -/
theorem lines_cases (inv : Invocation) (files : String → Option ByteArray) :
    (∃ path, inv.Unloadable files path ∧ inv.lines files = .error (.config path))
    ∨ ∃ d, inv.Uses files d
        ∧ ((∃ text, inv.Wordless text ∧ inv.lines files = .error (.parameter text))
          ∨ ((∀ text, ¬ inv.Wordless text) ∧ inv.lines files = .ok (inv.answer d))) := by
  rcases inv.unloadable_or_uses files with ⟨path, hpath⟩ | ⟨d, hd⟩
  · exact .inl ⟨path, hpath, lines_of_unloadable hpath⟩
  · refine .inr ⟨d, hd, ?_⟩
    by_cases hword : ∃ text, inv.Wordless text
    · obtain ⟨text, htext⟩ := hword
      exact .inl ⟨text, htext, lines_of_wordless hd htext⟩
    · have hwords : ∀ text, ¬ inv.Wordless text := fun text h => hword ⟨text, h⟩
      exact .inr ⟨hwords, lines_of_uses hd hwords⟩

end Ways

/-- A named file takes the place of the named dialect. -/
theorem lines_leveled {inv : Invocation} (h : inv.config ≠ none)
    (files : String → Option ByteArray) : inv.leveled.lines files = inv.lines files := by
  obtain ⟨path, hpath⟩ := Option.ne_none_iff_exists'.1 h
  have hdialect : inv.leveled.dialect? files = inv.dialect? files := by
    simp only [dialect?, leveled, hpath]
  rw [lines, lines, hdialect]
  rfl

end Invocation

/-! ## 4. Runs -/

theorem run_of_lines {arguments : List String} {inv : Invocation}
    (h : Invocation.ofArguments? arguments = some inv) {files : String → Option ByteArray}
    {lines : List String} (hlines : inv.lines files = .ok lines) :
    run arguments files = .success lines := by
  simp only [run, h, hlines]

theorem run_of_failure {arguments : List String} {inv : Invocation}
    (h : Invocation.ofArguments? arguments = some inv) {files : String → Option ByteArray}
    {f : Failure} (hlines : inv.lines files = .error f) : run arguments files = .failure f := by
  simp only [run, h, hlines]

namespace Outcome

theorem exitCode_mem (o : Outcome) : o.exitCode ∈ [0, 1, 2] := by
  cases o <;> simp [exitCode]

theorem standardOutput_of_exitCode_ne {o : Outcome} (h : o.exitCode ≠ 0) :
    o.standardOutput = "" := by
  cases o with
  | success lines => exact absurd rfl h
  | failure f => rfl
  | usage => rfl

end Outcome

/-- Only a breach of the rules for arguments makes a run exit with 2. -/
theorem exitCode_run_eq_two_iff (arguments : List String) (files : String → Option ByteArray) :
    (run arguments files).exitCode = 2 ↔ Invocation.ofArguments? arguments = none := by
  cases hinv : Invocation.ofArguments? arguments with
  | none => simp [run, hinv, Outcome.exitCode]
  | some inv =>
    cases hanswer : inv.lines files with
    | ok lines => simp [run_of_lines hinv hanswer, Outcome.exitCode]
    | error f => simp [run_of_failure hinv hanswer, Outcome.exitCode]

section Invoked

variable {arguments : List String} {inv : Invocation}
  (hinv : Invocation.ofArguments? arguments = some inv) {files : String → Option ByteArray}

include hinv

/-- A file that does not load is what is reported. -/
theorem run_of_unloadable {path : String} (h : inv.Unloadable files path) :
    run arguments files = .failure (.config path) :=
  run_of_failure hinv (Invocation.lines_of_unloadable h)

/-- With a dialect, a parameter that has no value is what is reported. -/
theorem run_of_wordless {d : Dialect} (hd : inv.Uses files d) {text : String}
    (h : inv.Wordless text) : run arguments files = .failure (.parameter text) :=
  run_of_failure hinv (Invocation.lines_of_wordless hd h)

/-- With a dialect and a value for the parameter, the run succeeds with the whole answer. -/
theorem run_of_uses {d : Dialect} (hd : inv.Uses files d) (hwords : ∀ text, ¬ inv.Wordless text) :
    run arguments files = .success (inv.answer d) :=
  run_of_lines hinv (Invocation.lines_of_uses hd hwords)

variable (files)

/-- Of arguments that break no rule, a file and a parameter are all that can fail. -/
theorem exitCode_run_eq_one_iff :
    (run arguments files).exitCode = 1
      ↔ (∃ path, inv.Unloadable files path) ∨ ∃ text, inv.Wordless text := by
  rcases inv.lines_cases files with ⟨path, hpath, hlines⟩ | ⟨d, hd, ⟨text, htext, hlines⟩
    | ⟨hwords, hlines⟩⟩
  · rw [run_of_failure hinv hlines]
    exact iff_of_true rfl (.inl ⟨path, hpath⟩)
  · rw [run_of_failure hinv hlines]
    exact iff_of_true rfl (.inr ⟨text, htext⟩)
  · rw [run_of_lines hinv hlines]
    refine iff_of_false (by simp [Outcome.exitCode]) ?_
    rintro (⟨path, h⟩ | ⟨text, h⟩)
    · exact Invocation.not_unloadable_of_uses hd path h
    · exact hwords text h

/-- A run that exits with 0 has a dialect and a value for the parameter, and gives the whole answer. -/
theorem exists_answer_of_exitCode_eq_zero (h : (run arguments files).exitCode = 0) :
    ∃ d, inv.Uses files d ∧ (∀ text, ¬ inv.Wordless text)
      ∧ run arguments files = .success (inv.answer d) := by
  rcases inv.lines_cases files with ⟨path, -, hlines⟩ | ⟨d, hd, ⟨text, -, hlines⟩ | ⟨hwords, hlines⟩⟩
  · rw [run_of_failure hinv hlines] at h
    cases h
  · rw [run_of_failure hinv hlines] at h
    cases h
  · exact ⟨d, hd, hwords, run_of_lines hinv hlines⟩

/-- What a run answers is what line by line it has printed at its end. -/
theorem run_printing_of_success {lines : List String} (h : run arguments files = .success lines) :
    (inv.printing files).run.run [] = (.ok (), lines) := by
  rw [inv.run_printing files]
  cases hanswer : inv.lines files with
  | ok answer =>
    rw [run_of_lines hinv hanswer] at h
    cases h
    rfl
  | error f =>
    rw [run_of_failure hinv hanswer] at h
    cases h

/-- A run that fails has printed no line, line by line either. -/
theorem run_printing_of_failure {f : Failure} (h : run arguments files = .failure f) :
    (inv.printing files).run.run [] = (.error f, []) := by
  rw [inv.run_printing files]
  cases hanswer : inv.lines files with
  | ok answer =>
    rw [run_of_lines hinv hanswer] at h
    cases h
  | error g =>
    rw [run_of_failure hinv hanswer] at h
    cases h
    rfl

/-- While a file is named, other names of dialects change nothing. -/
theorem run_of_sameButDialect {arguments' : List String} (hconfig : inv.config ≠ none)
    (h : SameButDialect arguments arguments') : run arguments' files = run arguments files := by
  have hleveled := Invocation.map_leveled_ofArguments? h
  rw [hinv, Option.map_some] at hleveled
  obtain ⟨inv', hinv', hsame⟩ := Option.map_eq_some_iff.1 hleveled.symm
  have hconfig' : inv'.config ≠ none := by
    have hpath : inv'.leveled.config = inv.leveled.config := by rw [hsame]
    rw [show inv'.config = inv.config from hpath]
    exact hconfig
  have hlines : inv'.lines files = inv.lines files := by
    rw [← Invocation.lines_leveled hconfig', hsame, Invocation.lines_leveled hconfig]
  cases hanswer : inv.lines files with
  | ok lines => rw [run_of_lines hinv hanswer, run_of_lines hinv' (hlines.trans hanswer)]
  | error f => rw [run_of_failure hinv hanswer, run_of_failure hinv' (hlines.trans hanswer)]

end Invoked

/-! ## 5. All or nothing -/

/-- **A run prints all of its answer or nothing.** It exits with 0, 1 or 2, and unless with 0 it
prints nothing; with 2 it exits exactly when the arguments break a rule. If they break none, it exits
with 1 exactly when a named file does not load, or a parameter to be rendered has no word for a value
as its text; the file is what is reported, whatever else is wrong and whatever the command, and else the
parameter. If it exits with 0, it has printed the whole answer, each line with its end, for the dialect
that the arguments ask for. Printing each line as soon as it is known prints the same: the whole answer,
or no line before a failure. And where a file is named, lists of arguments that differ only in known
names of dialects run alike. -/
theorem run_all_or_nothing (arguments : List String) (files : String → Option ByteArray) :
    (run arguments files).exitCode ∈ [0, 1, 2]
    ∧ ((run arguments files).exitCode ≠ 0 → (run arguments files).standardOutput = "")
    ∧ ((run arguments files).exitCode = 2 ↔ Invocation.ofArguments? arguments = none)
    ∧ ∀ inv, Invocation.ofArguments? arguments = some inv →
      ((run arguments files).exitCode = 1
        ↔ (∃ path, inv.Unloadable files path) ∨ ∃ text, inv.Wordless text)
      ∧ (∀ path, inv.Unloadable files path →
          (run arguments files).exitCode = 1
          ∧ (run arguments files).error? = some ("Failed to load dialect config " ++ path))
      ∧ (∀ d text, inv.Uses files d → inv.Wordless text →
          (run arguments files).exitCode = 1
          ∧ (run arguments files).error?
              = some ("Invalid parameter value: " ++ text ++ " (expected true, false or null)"))
      ∧ ((run arguments files).exitCode = 0 → ∃ d, inv.Uses files d
          ∧ run arguments files = .success (inv.answer d)
          ∧ (run arguments files).standardOutput
              = String.join ((inv.answer d).map (· ++ "\n"))
          ∧ (inv.printing files).run.run [] = (.ok (), inv.answer d))
      ∧ (∀ f, run arguments files = .failure f →
          (inv.printing files).run.run [] = (.error f, []))
      ∧ (∀ arguments', inv.config ≠ none → SameButDialect arguments arguments' →
          run arguments' files = run arguments files) := by
  refine ⟨Outcome.exitCode_mem _, Outcome.standardOutput_of_exitCode_ne,
    exitCode_run_eq_two_iff arguments files, fun inv hinv => ?_⟩
  refine ⟨exitCode_run_eq_one_iff hinv files, fun path hpath => ?_, fun d text hd htext => ?_,
    fun hzero => ?_, fun _ => run_printing_of_failure hinv files,
    fun _ => run_of_sameButDialect hinv files⟩
  · rw [run_of_unloadable hinv hpath]
    exact ⟨rfl, rfl⟩
  · rw [run_of_wordless hinv hd htext]
    exact ⟨rfl, rfl⟩
  · obtain ⟨d, hd, -, hrun⟩ := exists_answer_of_exitCode_eq_zero hinv files hzero
    exact ⟨d, hd, hrun, by rw [hrun]; rfl, run_printing_of_success hinv files hrun⟩

/-- Two spellings of two dialects beside a file that does not load and a parameter without a value; and
both mended. -/
theorem run_all_or_nothing_wrong_then_mended :
    let arguments := ["--dialect", "mysql", "-c", "d.json", "render", "--param", "maybe"]
    let arguments' := ["-d=SQLite", "-c", "d.json", "render", "--param", "maybe"]
    let mended := ["--dialect", "mysql", "-c", "d.json", "render", "--param", "True"]
    let missing : String → Option ByteArray := fun _ => none
    let described : String → Option ByteArray := fun _ => some "[\"sqlite\"]".toUTF8
    (run arguments missing).exitCode = 1
    ∧ (run arguments missing).standardOutput = ""
    ∧ (run arguments missing).error? = some "Failed to load dialect config d.json"
    ∧ run arguments' missing = run arguments missing
    ∧ (run mended described).exitCode = 0
    ∧ (run mended described).standardOutput
        = "dialect:   sqlite\n"
          ++ "predicate: ((users.active AND (NOT users.banned)) OR 1)\n"
          ++ "parameter: 1\n" := by
  intro arguments arguments' mended missing described
  let inv : Invocation :=
    { dialect := .mysql, config := some "d.json", debug := false, command := .render "maybe" false }
  have hinv : Invocation.ofArguments? arguments = some inv := by decide +kernel
  have hpath : inv.Unloadable missing "d.json" := ⟨rfl, .unreadable, rfl⟩
  have hapart : look "--dialect" = .option (.long "dialect") none := by decide +kernel
  have hattached : look "-d=SQLite" = .option (.short 'd') (some "SQLite") := by decide +kernel
  have hsame : SameButDialect arguments arguments' :=
    .dialect (.dialect_apart hapart rfl (by decide +kernel)) (by decide +kernel)
      (.attached hattached rfl rfl) (by decide +kernel)
      (.same (by decide) (.same (by decide) (.same (by decide) (.same (by decide)
        (.same (by decide) .nil)))))
  obtain ⟨-, hsilent, -, hall⟩ := run_all_or_nothing arguments missing
  obtain ⟨-, hconfig, -, -, -, hrenamed⟩ := hall inv hinv
  obtain ⟨hexit, herror⟩ := hconfig "d.json" hpath
  -- the same with a file that loads and a word for a value
  let inv' : Invocation := { inv with command := .render "True" false }
  have hinv' : Invocation.ofArguments? mended = some inv' := by decide +kernel
  have hfile : Dialect.ofFile (described "d.json") = .ok { kind := .sqlite } := by decide +kernel
  have hzero : (run mended described).exitCode = 0 := by decide +kernel
  obtain ⟨-, -, -, hall'⟩ := run_all_or_nothing mended described
  obtain ⟨-, -, -, hanswer, -⟩ := hall' inv' hinv'
  obtain ⟨d, hd, -, hprinted, -⟩ := hanswer hzero
  obtain rfl : d = { kind := .sqlite } := by
    rcases hd with ⟨⟨⟩, -⟩ | ⟨path, hpath, hload⟩
    obtain rfl : "d.json" = path := Option.some.inj hpath
    exact Except.ok.inj (hload.symm.trans hfile)
  refine ⟨hexit, hsilent ?_, herror, hrenamed arguments' ?_ hsame, hzero, hprinted.trans ?_⟩
  · rw [hexit]
    decide
  · simp [inv]
  · decide +kernel

/-! ## 6. Decoding -/

/-- **Decoding reports every value, once, in order, and ends.** Any values can be asked for, under any
name of any dialect, with any file and with debugging or not. Whatever arguments ask for them, unless a
file is named that does not load, the run exits with 0 and prints one line for each value and one for the
end; printing each line as soon as its row is fetched ends well with the same lines. -/
theorem decode_reports_values {values : List String} (hvalues : values ≠ []) :
    (∀ (inv : Invocation) (name : String), inv.command = .decode values → inv.config ≠ some "" →
      Among inv.dialect.userNames name →
        Invocation.ofArguments? (inv.arguments name) = some inv)
    ∧ ∀ (arguments : List String) (inv : Invocation) (files : String → Option ByteArray),
      Invocation.ofArguments? arguments = some inv → inv.command = .decode values →
      (∀ path, ¬ inv.Unloadable files path) →
        (run arguments files).exitCode = 0
        ∧ (run arguments files).standardOutput
            = String.join ((reportLines values).map (· ++ "\n"))
        ∧ (reportLines values).length = values.length + 1
        ∧ (inv.printing files).run.run [] = (.ok (), reportLines values) := by
  refine ⟨fun inv name hcommand hconfig hname => ?_,
    fun arguments inv files hinv hcommand hloads => ?_⟩
  · refine Invocation.ofArguments?_arguments (Dialect.Kind.ofUserName?_eq_some_iff.2 hname) hconfig ?_
    rw [hcommand]
    exact fun h => hvalues (Command.decode.inj h)
  · obtain ⟨d, hd⟩ := (inv.unloadable_or_uses files).resolve_left fun ⟨path, h⟩ => hloads path h
    -- nothing is rendered, so no parameter can be wrong
    have hwords : ∀ text, ¬ inv.Wordless text := by
      rintro text ⟨⟨_, hrender⟩, -⟩
      rw [hcommand] at hrender
      cases hrender
    have hanswer : inv.answer d = reportLines values := by rw [Invocation.answer, hcommand]
    have hrun := run_of_uses hinv hd hwords
    rw [hanswer] at hrun
    rw [hrun]
    exact ⟨rfl, rfl, length_reportLines values, run_printing_of_success hinv files hrun⟩

/-- Values between options, under a dialect that a file describes: a word for NULL in letters of both
cases, no text at all, and a first byte that only looks like one for true. -/
theorem decode_reports_values_between_options :
    let arguments := ["decode", "true", "--debug", "nULL", "", "-c", "d.json", "1st", "T"]
    let inv : Invocation :=
      { dialect := .postgres
        config := some "d.json"
        debug := true
        command := .decode ["true", "nULL", "", "1st", "T"] }
    let files : String → Option ByteArray := fun _ => some "[\"mysql\"]".toUTF8
    Invocation.ofArguments? arguments = some inv
    ∧ (∀ path, ¬ inv.Unloadable files path)
    ∧ (run arguments files).exitCode = 0
    ∧ (run arguments files).standardOutput
        = "row 1: value=true is_null=false\nrow 2: value=false is_null=true\n"
          ++ "row 3: value=false is_null=false\nrow 4: value=true is_null=false\n"
          ++ "row 5: value=false is_null=false\n"
          ++ "after last row: accessing value in non-existing row\n" := by
  intro arguments inv files
  have hinv : Invocation.ofArguments? arguments = some inv := by decide +kernel
  have hfile : Dialect.ofFile (files "d.json") = .ok { kind := .mysql } := by decide +kernel
  have hloads : ∀ path, ¬ inv.Unloadable files path := by
    rintro path ⟨hpath, e, herror⟩
    obtain rfl : "d.json" = path := Option.some.inj hpath
    rw [hfile] at herror
    cases herror
  have hvalues : ["true", "nULL", "", "1st", "T"] ≠ [] := by decide
  obtain ⟨-, hruns⟩ := decode_reports_values hvalues
  obtain ⟨hexit, hprinted, -⟩ := hruns arguments inv files hinv rfl hloads
  refine ⟨hinv, hloads, hexit, hprinted.trans ?_⟩
  decide +kernel

end QueryTerms.CommandLine
