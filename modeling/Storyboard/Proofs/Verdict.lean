import Storyboard.Proofs.Command
import Storyboard.Proofs.Consistency

set_option autoImplicit false

namespace Storyboard.Command
variable {σ : Type} {host : Host (StateM σ)} {input output : String} {config : Option String}
variable {s : σ}

def verdictLine (input : String) (spec : Spec Float) : String :=
  s!"Error: {input}: {spec.issues.length} problem(s) found"

theorem run_runArgs_validate {args : List String} (hargs : ofArgs? args = some (.validate input))
    (s : σ) : (runArgs host args).run s =
      (.ofResult ((validateFile host input).run.run s).1,
        ((validateFile host input).run.run s).2) := by
  rw [runArgs, hargs]
  rfl

def Passes (host : Host (StateM σ)) (s : σ) (input : String) : Prop :=
  ∃ text spec, host.Reads s input text ∧ Spec.ofText text = .ok spec ∧ spec.issues = []

section Loaded
variable {e : Failure} {spec : Spec Float}

theorem run_compileFiles_of_unread (hrun : (attempt (host.loadSpec input)).run.run s = (.error e, s))
    (check : Bool) : (compileFiles host input output config check).run.run s = (.error e, s) := by
  rw [compileFiles, run_bind, makeProject, run_bind, hrun]

theorem run_validateFile_of_unread
    (hrun : (attempt (host.loadSpec input)).run.run s = (.error e, s)) :
    (validateFile host input).run.run s = (.error e, s) := by
  rw [validateFile, run_bind, hrun]

theorem run_compileFiles_of_sound
    (hrun : (attempt (host.loadSpec input)).run.run s = (.ok spec, s)) (h : spec.issues = []) :
    (compileFiles host input output config true).run.run s =
      (compileFiles host input output config false).run.run s := by
  have hcheck : (checkSpec input spec : ExceptT Failure (StateM σ) Unit) = pure () := by
    rw [checkSpec, Spec.check, h]
    rfl
  have hmake : (makeProject host input config true).run.run s =
      (makeProject host input config false).run.run s := by
    rw [makeProject, makeProject, run_bind, run_bind, hrun]
    simp only [hcheck]
    rfl
  rw [compileFiles, compileFiles, run_bind, run_bind, hmake]

theorem run_validateFile_of_sound
    (hrun : (attempt (host.loadSpec input)).run.run s = (.ok spec, s)) (h : spec.issues = []) :
    (validateFile host input).run.run s = (.ok [s!"{input}: ok"], s) := by
  rw [validateFile, run_bind, hrun]
  simp only [h, List.isEmpty_nil, if_true]
  rfl

theorem run_compileFiles_of_issues
    (hrun : (attempt (host.loadSpec input)).run.run s = (.ok spec, s)) (h : spec.issues ≠ []) :
    ∃ e : Failure, (compileFiles host input output config true).run.run s = (.error e, s) := by
  have hcheck : spec.check = .error (.issues spec.issues) := by
    rw [Spec.check, List.isEmpty_eq_false_iff.mpr h]
    rfl
  rw [compileFiles, run_bind, makeProject, run_bind, hrun]
  simp only [if_true, run_bind, checkSpec, hcheck]
  exact ⟨_, rfl⟩

theorem run_validateFile_of_issues
    (hrun : (attempt (host.loadSpec input)).run.run s = (.ok spec, s)) (h : spec.issues ≠ []) :
    ∃ e : Failure, (validateFile host input).run.run s = (.error e, s) ∧
      e.said ++ [e.report] = spec.issues.map Issue.text ++ [verdictLine input spec] := by
  rw [← List.isEmpty_eq_false_iff] at h
  rw [validateFile, run_bind, hrun]
  simp only [h, Bool.false_eq_true, if_false]
  exact ⟨_, rfl, rfl⟩

end Loaded

section Reading
variable (hread : ∀ path s, ((host.read path).run s).2 = s)
include hread

theorem run_loadSpec {text : String} {spec : Spec Float} (htext : host.Reads s input text)
    (hspec : Spec.ofText text = .ok spec) :
    (attempt (host.loadSpec input)).run.run s = (.ok spec, s) := by
  obtain ⟨r, hrun, hr⟩ := asks_load hread .spec Spec.ofText input s
  obtain rfl : r = .ok spec := (hr spec).mpr ⟨text, htext, hspec⟩
  exact hrun

variable (output config) in
theorem Passes.run (h : Passes host s input) :
    (∃ said, (validateFile host input).run.run s = (.ok said, s)) ∧
      (compileFiles host input output config true).run.run s =
        (compileFiles host input output config false).run.run s := by
  obtain ⟨text, spec, htext, hspec, hissues⟩ := h
  have hrun := run_loadSpec hread htext hspec
  exact ⟨⟨_, run_validateFile_of_sound hrun hissues⟩, run_compileFiles_of_sound hrun hissues⟩

variable (output config) in
/-- Whatever is wrong with an input, it fails both commands before anything is written. -/
theorem run_of_not_passes (h : ¬ Passes host s input) :
    (∃ e : Failure, (validateFile host input).run.run s = (.error e, s)) ∧
      ∃ e : Failure, (compileFiles host input output config true).run.run s = (.error e, s) := by
  obtain ⟨r, hrun, hr⟩ := asks_load hread .spec Spec.ofText input s
  cases r with
  | error e => exact ⟨⟨e, run_validateFile_of_unread hrun⟩, e, run_compileFiles_of_unread hrun true⟩
  | ok spec =>
    obtain ⟨text, htext, hspec⟩ := (hr spec).mp rfl
    have hissues : spec.issues ≠ [] := fun hnone => h ⟨text, spec, htext, hspec, hnone⟩
    obtain ⟨e, hvalidate, -⟩ := run_validateFile_of_issues hrun hissues
    exact ⟨⟨e, hvalidate⟩, run_compileFiles_of_issues hrun hissues⟩

end Reading

/-- `compile` with its check is done exactly if `validate` is done and `compile` without the check
is, all on the same files; then both compilations say the same and leave the same files. `validate`
changes nothing. It is done exactly if its input is a spec without issues; of a spec with issues it
prints these in order, one a line, and then how many there are. -/
theorem runArgs_compile_iff_validate
    (hread : ∀ path s, ((host.read path).run s).2 = s) {checked unchecked validating : List String}
    (hchecked : ofArgs? checked = some (.compile input output config true))
    (hunchecked : ofArgs? unchecked = some (.compile input output config false))
    (hvalidating : ofArgs? validating = some (.validate input)) (s : σ) :
    let strict := (runArgs host checked).run s
    let loose := (runArgs host unchecked).run s
    let verdict := (runArgs host validating).run s
    (strict.1.code = 0 ↔ verdict.1.code = 0 ∧ loose.1.code = 0) ∧
      (strict.1.code = 0 → strict = loose) ∧
      verdict.2 = s ∧
      (verdict.1.code = 0 ↔ Passes host s input) ∧
      ∀ text spec, host.Reads s input text → Spec.ofText text = .ok spec → spec.issues ≠ [] →
        verdict.1.code = 1 ∧
          verdict.1.errors = spec.issues.map Issue.text ++ [verdictLine input spec] := by
  intro strict loose verdict
  have hstrict : strict = (.ofResult ((compileFiles host input output config true).run.run s).1,
      ((compileFiles host input output config true).run.run s).2) := run_runArgs hchecked s
  have hloose : loose = (.ofResult ((compileFiles host input output config false).run.run s).1,
      ((compileFiles host input output config false).run.run s).2) := run_runArgs hunchecked s
  have hverdict : verdict = (.ofResult ((validateFile host input).run.run s).1,
      ((validateFile host input).run.run s).2) := run_runArgs_validate hvalidating s
  by_cases hpasses : Passes host s input
  · obtain ⟨⟨said, hvalidate⟩, hcompile⟩ := hpasses.run output config hread
    have hsame : strict = loose := by rw [hstrict, hloose, hcompile]
    rw [hvalidate] at hverdict
    rw [hsame, hverdict]
    refine ⟨by simp [Outcome.ofResult], fun _ => rfl, rfl, iff_of_true rfl hpasses, ?_⟩
    intro text spec htext hspec hissues
    have hrun := run_loadSpec hread htext hspec
    obtain ⟨e, herror, -⟩ := run_validateFile_of_issues hrun hissues
    cases herror.symm.trans hvalidate
  · obtain ⟨⟨e, hvalidate⟩, e', hcompile⟩ := run_of_not_passes output config hread hpasses
    rw [hcompile] at hstrict
    rw [hvalidate] at hverdict
    rw [hstrict, hverdict]
    refine ⟨by simp [Outcome.ofResult], by simp [Outcome.ofResult], rfl,
      iff_of_false (by simp [Outcome.ofResult]) hpasses, ?_⟩
    intro text spec htext hspec hissues
    have hrun := run_loadSpec hread htext hspec
    obtain ⟨e'', herror, hlines⟩ := run_validateFile_of_issues hrun hissues
    cases herror.symm.trans hvalidate
    exact ⟨rfl, hlines⟩

/-- A storyboard without a rate and with a scene that starts too early. -/
def draft : Spec Float where
  heading := ⟨"Draft", "1", ⟨640, 360⟩, 0, none⟩
  assets := ⟨[], [], []⟩
  scenes := [⟨"sky", "Sky", -1.0, 2.0, none, none, []⟩]

theorem draft_refused :
    let disk := Disk.ofFiles [("draft.json", draft.toText.toUTF8)]
    let checked := ["compile", "--in", "draft.json", "--out=draft.json"]
    let unchecked := ["compile", "--no-validate", "--in", "draft.json", "--out", "draft.json"]
    let validating := ["validate", "--in=draft.json"]
    ofArgs? checked = some (.compile "draft.json" "draft.json" none true) ∧
      ofArgs? unchecked = some (.compile "draft.json" "draft.json" none false) ∧
      ofArgs? validating = some (.validate "draft.json") ∧
      ((runArgs Disk.host checked).run disk).1.code ≠ 0 ∧
      ((runArgs Disk.host validating).run disk).1.errors =
        ["$.meta.fps: must be > 0", "$.scenes[0]: startTime must be >= 0",
          "Error: draft.json: 2 problem(s) found"] := by
  intro disk checked unchecked validating
  have hchecked : ofArgs? checked = some (.compile "draft.json" "draft.json" none true) := by
    decide +kernel
  have hunchecked : ofArgs? unchecked = some (.compile "draft.json" "draft.json" none false) := by
    decide +kernel
  have hvalidating : ofArgs? validating = some (.validate "draft.json") := by decide +kernel
  have hissues : draft.issues =
      [⟨[.field "meta", .field "fps"], .zeroRate⟩,
        ⟨[.field "scenes", .index 0], .earlyStart⟩] := by
    rw [Spec.issues, Spec.overlaps_of_singleton rfl]
    decide +kernel
  have htext : Disk.host.Reads disk "draft.json" draft.toText :=
    Disk.reads_iff.mpr ⟨["tmp", "work", "draft.json"], by decide +kernel, by decide +kernel, rfl⟩
  have hread (path : String) (s : Disk) : ((Disk.host.read path).run s).2 = s := rfl
  obtain ⟨hiff, -, -, -, hlines⟩ :=
    runArgs_compile_iff_validate hread hchecked hunchecked hvalidating disk
  obtain ⟨hcode, herrors⟩ := hlines draft.toText draft htext (Spec.ofText_toText (by decide +kernel))
    (by rw [hissues]; exact List.cons_ne_nil _ _)
  refine ⟨hchecked, hunchecked, hvalidating, fun hzero => ?_, ?_⟩
  · rw [(hiff.mp hzero).1] at hcode
    cases hcode
  · rw [herrors, verdictLine, hissues]
    decide +kernel

end Storyboard.Command
