import Storyboard.Command
import Storyboard.Proofs.Host.Disk
import Storyboard.Proofs.SpecFinite

set_option autoImplicit false

namespace Storyboard.Command
variable {σ ι β γ : Type}

def configOf : Option String → Except (Fault Float) (Config Float)
  | none => .ok default
  | some text => Config.ofText text

/-- The project that the text of a spec comes to with that of a configuration, on the resolution of
the spec and with the standard fonts. A spec that is checked has no issues. -/
def Builds (check : Bool) (spec : String) (config : Option String) (project : Project Float) :
    Prop :=
  ∃ s c canvas, Spec.ofText spec = .ok s ∧ (check = true → s.issues = []) ∧
    configOf config = .ok c ∧ s.canvas = .ok canvas ∧
    (Compiler.create canvas FontTable.standard c).compile s = .ok project

def Makes (reads : String → String → Prop) (input : String) (config : Option String)
    (check : Bool) (project : Project Float) : Prop :=
  ∃ spec configText, reads input spec ∧ Option.Rel reads config configText ∧
    Builds check spec configText project

theorem Makes.imp {reads reads' : String → String → Prop} {input : String} {config : Option String}
    {check : Bool} {project : Project Float}
    (hreads : ∀ path text, reads path text → reads' path text)
    (h : Makes reads input config check project) : Makes reads' input config check project := by
  obtain ⟨spec, configText, hspec, hconfig, hbuilds⟩ := h
  refine ⟨spec, configText, hreads input spec hspec, ?_, hbuilds⟩
  cases hconfig with
  | none => exact .none
  | some h => exact .some (hreads _ _ h)

def Stores (host : Host (StateM σ)) (s : σ) (output text : String) : Prop :=
  ((store host output text).run.run s).1 = .ok ()

theorem stores_iff_of_parentText? {host : Host (StateM σ)} {output text : String} {s : σ}
    (h : Path.parentText? output = some "") :
    Stores host s output text ↔ ((host.write output text).run s).1 = .ok () := by
  rw [Stores, store, h]
  exact mapError_eq_ok_iff

/-- A step that leaves everything as it is, and comes to the results given. -/
def Asks (step : ExceptT Failure (StateM σ) β) (s : σ) (results : β → Prop) : Prop :=
  ∃ r, step.run.run s = (r, s) ∧ ∀ b, r = .ok b ↔ results b

theorem run_bind (step : ExceptT Failure (StateM σ) β) (f : β → ExceptT Failure (StateM σ) γ)
    (s : σ) : (step >>= f).run.run s = match step.run.run s with
      | (.ok b, s') => (f b).run.run s'
      | (.error e, s') => (.error e, s') := by
  rw [ExceptT.run_bind, StateT.run_bind]
  rcases step.run.run s with ⟨b | e, s'⟩ <;> rfl

theorem asks_pure (b : β) (s : σ) : Asks (pure b) s (b = ·) := ⟨.ok b, rfl, by simp⟩

theorem Asks.bind {step : ExceptT Failure (StateM σ) β} {f : β → ExceptT Failure (StateM σ) γ}
    {s : σ} {first : β → Prop} {second : β → γ → Prop} (h : Asks step s first)
    (hf : ∀ b, first b → Asks (f b) s (second b)) :
    Asks (step >>= f) s fun c => ∃ b, first b ∧ second b c := by
  obtain ⟨r, hrun, hr⟩ := h
  cases r with
  | error e =>
    refine ⟨.error e, by rw [run_bind, hrun], fun c => iff_of_false (by simp) ?_⟩
    rintro ⟨b, hb, -⟩
    cases (hr b).mpr hb
  | ok b =>
    obtain ⟨r', hrun', hr'⟩ := hf b ((hr b).mp rfl)
    refine ⟨r', by rw [run_bind, hrun]; exact hrun', fun c => (hr' c).trans ⟨fun hc => ?_, ?_⟩⟩
    · exact ⟨b, (hr b).mp rfl, hc⟩
    · rintro ⟨b', hb', hc⟩
      cases (hr b').mpr hb'
      exact hc

theorem Asks.congr {step : ExceptT Failure (StateM σ) β} {s : σ} {results results' : β → Prop}
    (h : Asks step s results) (hr : ∀ b, results b ↔ results' b) : Asks step s results' := by
  obtain ⟨r, hrun, hresults⟩ := h
  exact ⟨r, hrun, fun b => (hresults b).trans (hr b)⟩

theorem run_attempt (step : StateM σ (Except (Fault Float) β)) (s : σ) :
    (attempt step).run.run s = ((step.run s).1.mapError Failure.ofFault, (step.run s).2) := rfl

theorem asks_attempt_pure (x : Except (Fault Float) β) (s : σ) :
    Asks (attempt (pure x)) s fun b => x = .ok b :=
  ⟨x.mapError Failure.ofFault, rfl, fun _ => mapError_eq_ok_iff⟩

theorem asks_checkSpec (input : String) (spec : Spec Float) (s : σ) :
    Asks (checkSpec input spec) s fun _ => spec.issues = [] := by
  refine ⟨_, rfl, fun _ => mapError_eq_ok_iff.trans ?_⟩
  rw [Spec.check]
  cases spec.issues <;> simp

section Reading
variable {host : Host (StateM σ)} (hread : ∀ path s, ((host.read path).run s).2 = s)
include hread

theorem asks_load (document : Document) (ofText : String → Except (Fault Float) β) (path : String)
    (s : σ) : Asks (attempt (host.load document ofText path)) s fun b =>
      ∃ text, host.Reads s path text ∧ ofText text = .ok b := by
  unfold Host.Reads
  rcases hrun : (host.read path).run s with ⟨cause | text, s'⟩
  all_goals obtain rfl : s' = s := by simpa [hrun] using hread path s
  · refine ⟨.error _, by rw [run_attempt, Host.load, StateT.run_bind, hrun]; rfl, ?_⟩
    simp
  · refine ⟨(ofText text).mapError Failure.ofFault,
      by rw [run_attempt, Host.load, StateT.run_bind, hrun]; rfl, ?_⟩
    simp [mapError_eq_ok_iff]

theorem asks_loadConfig (config : Option String) (s : σ) :
    Asks (loadConfig host config) s fun c =>
      ∃ text, Option.Rel (host.Reads s) config text ∧ configOf text = .ok c := by
  cases config with
  | none =>
    refine (asks_pure default s).congr fun c => ⟨?_, ?_⟩
    · rintro rfl
      exact ⟨none, .none, rfl⟩
    · rintro ⟨text, ⟨⟩, hc⟩
      exact Except.ok.inj hc
  | some path =>
    refine (asks_load hread .config Config.ofText path s).congr fun c => ⟨?_, ?_⟩
    · rintro ⟨text, hreads, hc⟩
      exact ⟨some text, .some hreads, hc⟩
    · rintro ⟨text, ⟨hreads⟩, hc⟩
      exact ⟨_, hreads, hc⟩

theorem asks_compileSpec (input : String) (config : Option String) (check : Bool)
    (spec : Spec Float) (s : σ) :
    Asks (do
        if check then checkSpec input spec
        let config ← loadConfig host config
        let canvas ← attempt (pure spec.canvas)
        attempt (pure ((Compiler.create canvas FontTable.standard config).compile spec))) s
      fun project => (check = true → spec.issues = []) ∧
        ∃ c, (∃ text, Option.Rel (host.Reads s) config text ∧ configOf text = .ok c) ∧
          ∃ canvas, spec.canvas = .ok canvas ∧
            (Compiler.create canvas FontTable.standard c).compile spec = .ok project := by
  have hrest := (asks_loadConfig hread config s).bind fun c _ =>
    (asks_attempt_pure spec.canvas s).bind fun canvas _ =>
      asks_attempt_pure ((Compiler.create canvas FontTable.standard c).compile spec) s
  cases check with
  | false => exact hrest.congr fun project => by simp
  | true => exact ((asks_checkSpec input spec s).bind fun _ _ => hrest).congr fun project => by simp

theorem asks_makeProject (input : String) (config : Option String) (check : Bool) (s : σ) :
    Asks (makeProject host input config check) s (Makes (host.Reads s) input config check) := by
  refine ((asks_load hread .spec Spec.ofText input s).bind fun spec _ =>
    asks_compileSpec hread input config check spec s).congr fun project => ⟨?_, ?_⟩
  · rintro ⟨spec, ⟨text, hreads, hspec⟩, hcheck, c, ⟨configText, hconfig, hc⟩, canvas, hcanvas,
      hcompile⟩
    exact ⟨text, configText, hreads, hconfig, spec, c, canvas, hspec, hcheck, hc, hcanvas, hcompile⟩
  · rintro ⟨text, configText, hreads, hconfig, spec, c, canvas, hspec, hcheck, hc, hcanvas,
      hcompile⟩
    exact ⟨spec, ⟨text, hreads, hspec⟩, hcheck, c, ⟨configText, hconfig, hc⟩, canvas, hcanvas,
      hcompile⟩

end Reading

section Writing
variable {host : Host (StateM σ)} {v : FileView σ ι} (hhost : host.Faithful v)

/-- A step that has replaced a file once it is done, and has changed none if it fails. -/
def Commits (v : FileView σ ι) (step : ExceptT Failure (StateM σ) Unit) (s : σ)
    (output text : String) : Prop :=
  ((step.run.run s).1 = .ok () → v.Replaced output text s (step.run.run s).2) ∧
    ((step.run.run s).1 ≠ .ok () → v.Unchanged s (step.run.run s).2)

theorem run_touch (purpose : String) (step : StateM σ (Except String Unit)) (s : σ) :
    (touch purpose step).run.run s =
      ((step.run s).1.mapError fun cause => { message := purpose, cause := some cause },
        (step.run s).2) := rfl

include hhost

theorem commits_write (purpose output text : String) (s : σ) :
    Commits v (touch purpose (host.write output text)) s output text := by
  rw [Commits, run_touch]
  cases h : ((host.write output text).run s).1 with
  | ok done => exact ⟨fun _ => hhost.write_ok output text s h, fun hne => absurd rfl hne⟩
  | error cause =>
    exact ⟨fun hok => absurd hok (by simp [Except.mapError]),
      fun _ => hhost.write_error output text s cause h⟩

omit hhost in
/-- What happens before a step and changes no file is forgotten once the step is done. -/
theorem Commits.bind {first second : ExceptT Failure (StateM σ) Unit} {s : σ} {output text : String}
    (hfirst : v.Unchanged s (first.run.run s).2) (h : ∀ s', Commits v second s' output text) :
    Commits v (first >>= fun _ => second) s output text := by
  rw [Commits, run_bind]
  rcases hrun : first.run.run s with ⟨e | _, s'⟩
  · rw [hrun] at hfirst
    exact ⟨fun hok => absurd hok (by simp), fun _ => hfirst⟩
  · rw [hrun] at hfirst
    obtain ⟨hdone, hfailed⟩ := h s'
    exact ⟨fun hok => (hdone hok).of_unchanged hfirst, fun hne => hfirst.trans (hfailed hne)⟩

theorem commits_store (output text : String) (s : σ) :
    Commits v (store host output text) s output text := by
  have hwrite (s : σ) := commits_write hhost s!"write project '{output}'" output text s
  unfold store
  split
  · exact hwrite s
  · exact hwrite s
  · rename_i folder _ _
    exact .bind (hhost.makeFolder folder s) hwrite

end Writing

theorem run_runArgs {host : Host (StateM σ)} {args : List String} {input output : String}
    {config : Option String} {check : Bool}
    (hargs : ofArgs? args = some (.compile input output config check)) (s : σ) :
    (runArgs host args).run s =
      (.ofResult ((compileFiles host input output config check).run.run s).1,
        ((compileFiles host input output config check).run.run s).2) := by
  rw [runArgs, hargs]
  rfl

/-- The compile command is done exactly if the documents it is given come to a project that can be
stored. Then the file of its output holds that project, and every other file what it held before;
if the command fails, every file does. -/
theorem runArgs_compile_all_or_nothing {host : Host (StateM σ)} {v : FileView σ ι}
    (hhost : host.Faithful v) {args : List String} {input output : String}
    {config : Option String} {check : Bool}
    (hargs : ofArgs? args = some (.compile input output config check)) (s : σ) :
    ∃ outcome s', (runArgs host args).run s = (outcome, s') ∧
      (outcome.code = 0 ↔ ∃ project, Makes (host.Reads s) input config check project ∧
        Stores host s output project.toText) ∧
      (outcome.code = 0 → ∃ project, Makes (v.Holds s) input config check project ∧
        v.Replaced output project.toText s s') ∧
      (outcome.code ≠ 0 → v.Unchanged s s') := by
  obtain ⟨r, hrun, hr⟩ := asks_makeProject hhost.read_state input config check s
  rw [run_runArgs hargs, compileFiles, run_bind, hrun]
  cases r with
  | error e =>
    refine ⟨_, _, rfl, iff_of_false (by simp [Outcome.ofResult]) ?_, fun hzero => ?_,
      fun _ _ => rfl⟩
    · rintro ⟨project, hmakes, -⟩
      cases (hr project).mpr hmakes
    · simp [Outcome.ofResult] at hzero
  | ok project =>
    have hmakes := (hr project).mp rfl
    have hunique (other : Project Float) (h : Makes (host.Reads s) input config check other) :
        project = other := Except.ok.inj ((hr other).mpr h)
    obtain ⟨hdone, hfailed⟩ := commits_store hhost output project.toText s
    dsimp only
    rw [run_bind]
    rcases hstore : (store host output project.toText).run.run s with ⟨e | _, s'⟩
    · rw [hstore] at hfailed
      refine ⟨_, _, rfl, iff_of_false (by simp [Outcome.ofResult]) ?_, fun hzero => ?_,
        fun _ => hfailed (by simp)⟩
      · rintro ⟨other, hother, hstores⟩
        obtain rfl := hunique other hother
        simp [Stores, hstore] at hstores
      · simp [Outcome.ofResult] at hzero
    · rw [hstore] at hdone
      refine ⟨_, _, rfl, iff_of_true rfl ⟨project, hmakes, by rw [Stores, hstore]⟩, fun _ => ?_,
        fun hne => absurd rfl hne⟩
      exact ⟨project, hmakes.imp fun path text => hhost.read_ok path s text, hdone rfl⟩

/-- A folder with a spec that has no issues and a configuration that overlays nothing. -/
def board : Disk :=
  .ofFiles [("board.json", Spec.everyForm.toText.toUTF8), ("config.json", "{}".toUTF8)]


theorem board_replaced :
    ofArgs? ["compile", "--in", "board.json", "--config", "config.json", "--out", "board.json"] =
      some (.compile "board.json" "board.json" (some "config.json") true) ∧
    ∃ outcome d, (runArgs Disk.host
      ["compile", "--in", "board.json", "--config", "config.json", "--out", "board.json"]).run board
        = (outcome, d) ∧
      outcome.code = 0 ∧ ∃ project,
        Makes (Disk.fileView.Holds board) "board.json" (some "config.json") true project ∧
          Disk.fileView.Replaced "board.json" project.toText board d := by
  have hargs : ofArgs?
      ["compile", "--in", "board.json", "--config", "config.json", "--out", "board.json"] =
        some (.compile "board.json" "board.json" (some "config.json") true) := by decide +kernel
  have hissues : Spec.everyForm.issues = [] := by
    have hsorted : Spec.everyForm.timeline = Spec.everyForm.scenes.zipIdx :=
      List.mergeSort_of_pairwise (by decide +kernel)
    rw [Spec.issues, Spec.overlaps, hsorted, ← List.isEmpty_iff]
    decide +kernel
  have hspec : Disk.host.Reads board "board.json" Spec.everyForm.toText :=
    Disk.reads_iff.mpr ⟨["tmp", "work", "board.json"], by decide +kernel, by decide +kernel, rfl⟩
  have hconfig : Disk.host.Reads board "config.json" "{}" :=
    Disk.reads_iff.mpr ⟨["tmp", "work", "config.json"], by decide +kernel, by decide +kernel, rfl⟩
  have hany : (Config.ofText "{}").toOption.any (fun c =>
      ((Compiler.create ⟨1920, 1080⟩ FontTable.standard c).compile
        Spec.everyForm).toOption.isSome) = true := by decide +kernel
  obtain ⟨c, hc, hcompile⟩ := any_toOption_iff.mp hany
  obtain ⟨project, hproject⟩ := isSome_toOption_iff.mp hcompile
  have hmakes : Makes (Disk.host.Reads board) "board.json" (some "config.json") true project :=
    ⟨Spec.everyForm.toText, some "{}", hspec, .some hconfig, Spec.everyForm, c, ⟨1920, 1080⟩,
      Spec.ofText_toText (by decide +kernel), fun _ => hissues, hc, rfl, hproject⟩
  have hstores : Stores Disk.host board "board.json" project.toText := by
    rw [stores_iff_of_parentText? (by decide +kernel), Disk.writes_iff, Disk.isSome_write _ _ _ ""]
    decide +kernel
  obtain ⟨outcome, d, hrun, hdone, hreplaced, -⟩ :=
    runArgs_compile_all_or_nothing Disk.host_faithful hargs board
  have hzero := hdone.mpr ⟨project, hmakes, hstores⟩
  exact ⟨hargs, outcome, d, hrun, hzero, hreplaced hzero⟩

end Storyboard.Command
