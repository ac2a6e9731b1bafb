import CStruct.Command

/-!
# The command agrees with the library

What a run of the command leaves, for every use of it and every source that can be read: with the
exit code 0 the structs of `Program.ofSource`, or nothing with the exit code 1, and in any case a
line for each diagnostic. The main statement is `run_eq_libraryOutcome`.
-/

namespace CStruct.Command

/-! ## What the library says of a source -/

/-- The line about a source with errors. -/
def abortLines (u : TranslationUnit) : List String :=
  if ∃ d ∈ u.diagnostics.toList, d.severity = .error then ["Aborting due to previous errors"]
  else []

/-- The line about a source without errors that has no program. -/
def faultLines (u : TranslationUnit) (o : LayoutOptions) : List String :=
  match Program.ofUnit u o with
  | .ok _ => []
  | .error e =>
    if ∃ d ∈ u.diagnostics.toList, d.severity = .error then [] else [s!"Model error: {e.message}"]

/-- What is to be left of a source that was read from `path`. If it has a program, the output is the
text of each struct and an end of line, else it is empty. -/
def libraryOutcome (path source : String) (o : LayoutOptions) : Outcome :=
  let u := TranslationUnit.ofSource source
  let errors := unlines ((u.diagnostics.toList.map fun d => s!"{path}: {d}") ++ abortLines u ++
    faultLines u o)
  match Program.ofSource source o with
  | .ok p => .finished 0 (String.join (p.structs.map fun s => s.render ++ "\n")) errors
  | .error _ => .finished 1 "" errors

section Lines

variable {u : TranslationUnit}

theorem hasErrors_iff :
    u.hasErrors = true ↔ ∃ d ∈ u.diagnostics.toList, d.severity = .error := by
  rw [TranslationUnit.hasErrors, Diagnostics.hasErrors, List.any_eq_true]
  simp only [Diagnostic.isError, beq_iff_eq]

theorem abortLines_of_hasErrors (h : u.hasErrors = true) :
    abortLines u = ["Aborting due to previous errors"] := if_pos (hasErrors_iff.1 h)

theorem abortLines_of_clean (h : u.hasErrors = false) : abortLines u = [] :=
  if_neg fun hex => absurd (h.symm.trans (hasErrors_iff.2 hex)) nofun

theorem faultLines_of_hasErrors (h : u.hasErrors = true) (o : LayoutOptions) :
    faultLines u o = [] := by
  unfold faultLines
  split
  · rfl
  · exact if_pos (hasErrors_iff.1 h)

theorem faultLines_of_ok {o : LayoutOptions} {p : Program} (h : Program.ofUnit u o = .ok p) :
    faultLines u o = [] := by
  rw [faultLines, h]

theorem faultLines_of_error (h : u.hasErrors = false) {o : LayoutOptions} {e : ModelError}
    (he : Program.ofUnit u o = .error e) : faultLines u o = [s!"Model error: {e.message}"] := by
  rw [faultLines, he]
  exact if_neg fun hex => absurd (h.symm.trans (hasErrors_iff.2 hex)) nofun

end Lines

/-- A source with errors has no program, one without has that of its translation unit. -/
theorem ofSource_eq_ofUnit {source : String} (o : LayoutOptions)
    (h : (TranslationUnit.ofSource source).hasErrors = false) :
    Program.ofSource source o = Program.ofUnit (TranslationUnit.ofSource source) o := by
  have hnone : (TranslationUnit.ofSource source).diagnostics.toList.filter Diagnostic.isError = [] :=
    List.filter_eq_nil_iff.2 (List.any_eq_false.1 h)
  unfold Program.ofSource
  dsimp only
  rw [hnone]

theorem ofSource_of_hasErrors {source : String} (o : LayoutOptions)
    (h : (TranslationUnit.ofSource source).hasErrors = true) :
    ∃ errors, Program.ofSource source o = .error (.parse errors) := by
  unfold Program.ofSource
  dsimp only
  split
  · rename_i hnone
    exact absurd (h.symm.trans (List.any_eq_false.2 (List.filter_eq_nil_iff.1 hnone))) nofun
  · exact ⟨_, rfl⟩

/-! ## Runs of the command -/

theorem unlines_map {α : Type} (f : α → String) (as : List α) :
    unlines (as.map f) = String.join (as.map fun a => f a ++ "\n") := by
  rw [unlines, List.map_map]
  rfl

/-- Laying out a source leaves what the library says of it. -/
theorem runSource_eq (path source : String) (o : LayoutOptions) :
    runSource path source o = libraryOutcome path source o := by
  unfold runSource libraryOutcome diagnosticLines
  dsimp only
  cases herrors : (TranslationUnit.ofSource source).hasErrors with
  | true =>
    obtain ⟨errors, heq⟩ := ofSource_of_hasErrors o herrors
    rw [if_pos rfl, heq, abortLines_of_hasErrors herrors, faultLines_of_hasErrors herrors,
      List.append_nil]
  | false =>
    rw [if_neg Bool.false_ne_true, ofSource_eq_ofUnit o herrors, abortLines_of_clean herrors,
      List.append_nil]
    cases hp : Program.ofUnit (TranslationUnit.ofSource source) o with
    | error e => rw [faultLines_of_error herrors hp]
    | ok p =>
      rw [faultLines_of_ok hp, List.append_nil]
      dsimp only
      rw [unlines_map Struct.render]

/-- Where the command is used in a right way and the source can be read, a run leaves what the
library says of the source with the options that were given. -/
theorem run_eq_libraryOutcome {read : String → Except ReadFailure String} {args : List String}
    {a : Arguments} {path source : String} (hargs : readArguments {} args = some a)
    (hpath : a.path? = some path) (hread : read path = .ok source) :
    run read args = libraryOutcome path source a.options := by
  rw [run, hargs]
  dsimp only
  rw [hpath]
  dsimp only
  rw [hread]
  exact runSource_eq path source a.options

/-- Reads a source where it is the only one there is. -/
def onlyFile (path source asked : String) : Except ReadFailure String :=
  if asked = path then .ok source else .error .missing

/-- A struct whose layout depends on the packing. -/
def charAndInt : String := "struct a \x7b char x; int y; \x7d;"

theorem run_eq_libraryOutcome_packed :
    readArguments {} ["--packed", "--", "-a.c"] = some { path? := some "-a.c", packed := true } ∧
    onlyFile "-a.c" charAndInt "-a.c" = .ok charAndInt ∧
    run (onlyFile "-a.c" charAndInt) ["--packed", "--", "-a.c"] =
      libraryOutcome "-a.c" charAndInt { packing := .packed } := by
  have hargs : readArguments {} ["--packed", "--", "-a.c"] =
      some { path? := some "-a.c", packed := true } := by
    decide +kernel
  have hread : onlyFile "-a.c" charAndInt "-a.c" = .ok charAndInt := if_pos rfl
  have hrun := run_eq_libraryOutcome hargs rfl hread
  exact ⟨hargs, hread, hrun⟩

/-- The length of an array is not written as a number, which is an error in the source. -/
def namedLength : String := "struct a \x7b int x[n]; \x7d;"

/-- The fault that its member has besides. -/
def namedLengthFault : ModelError := .invalidDimension "x" "n"

/-- A source with errors is not looked at for other faults: no line says that its translation unit
has no program. -/
theorem run_of_namedLength :
    Program.ofUnit (TranslationUnit.ofSource namedLength) {} = .error namedLengthFault ∧
      (TranslationUnit.ofSource namedLength).hasErrors = true ∧
      run (onlyFile "input.c" namedLength) ["input.c"] ≠ .finished 1 "" (unlines
        (diagnosticLines "input.c" (TranslationUnit.ofSource namedLength) ++
          ["Aborting due to previous errors", s!"Model error: {namedLengthFault.message}"])) := by
  have hfault : (match Program.ofUnit (TranslationUnit.ofSource namedLength) {} with
      | .ok _ => false
      | .error e => decide (e = namedLengthFault)) = true := by
    decide +kernel
  refine ⟨?_, by decide +kernel, by decide +kernel⟩
  -- programs cannot be compared, so the outcome is split before the fault is read off
  cases he : Program.ofUnit (TranslationUnit.ofSource namedLength) {} with
  | ok p =>
    rw [he] at hfault
    cases hfault
  | error e =>
    rw [he] at hfault
    rw [of_decide_eq_true hfault]

end CStruct.Command
