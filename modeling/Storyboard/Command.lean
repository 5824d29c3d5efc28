import Storyboard.Compiler
import Storyboard.Host
import Storyboard.Path
import Storyboard.Text.Split

set_option autoImplicit false

namespace Storyboard

inductive Command where
  | compile (input output : String) (config : Option String) (check : Bool)
  | validate (input : String)
  | version
  deriving DecidableEq, Repr

/-- What has been said on the command line so far. Nothing may be said twice. -/
structure CommandOptions where
  input : Option String := none
  output : Option String := none
  config : Option String := none
  noValidate : Bool := false
  verbose : Bool := false
  deriving DecidableEq, Repr

namespace CommandOptions

/-- A value that stands alone does not look like an option. -/
def isValue (arg : String) : Bool := arg != "" && (arg == "-" || arg.toList.head? != some '-')

/-- Sets an option that takes a value. Those of `compile` are unknown elsewhere. -/
def set? (compiling : Bool) (o : CommandOptions) (name value : String) : Option CommandOptions :=
  if value = "" then none
  else match name, compiling with
    | "--in", _ => if o.input.isNone then some { o with input := some value } else none
    | "--out", true => if o.output.isNone then some { o with output := some value } else none
    | "--config", true => if o.config.isNone then some { o with config := some value } else none
    | _, _ => none

def setFlag? (compiling : Bool) (o : CommandOptions) (name : String) : Option CommandOptions :=
  match name, compiling with
  | "--verbose", _ => if o.verbose then none else some { o with verbose := true }
  | "--no-validate", true => if o.noValidate then none else some { o with noValidate := true }
  | _, _ => none

def assignment? (arg : String) : Option (String × String) :=
  match arg.toList.span (· != '=') with
  | (name, _ :: value) => some (String.ofList name, String.ofList value)
  | (_, []) => none

def read? (compiling : Bool) : List String → CommandOptions → Option CommandOptions
  | [], o => some o
  | arg :: rest, o =>
    if arg = "--" then (if rest.isEmpty then some o else none)
    else match assignment? arg with
      | some (name, value) => (o.set? compiling name value).bind (read? compiling rest)
      | none => match o.setFlag? compiling arg with
        | some o => read? compiling rest o
        | none => match rest with
          | value :: rest =>
            if isValue value then (o.set? compiling arg value).bind (read? compiling rest) else none
          | [] => none

end CommandOptions

namespace Command

def ofOptions? (compiling : Bool) (o : CommandOptions) : Option Command := do
  let input ← o.input
  if compiling then return .compile input (← o.output) o.config !o.noValidate
  else return .validate input

/-- The short form counts as soon as it is read, whatever follows its letter. -/
def asksVersion (arg : String) : Bool := arg == "--version" || ['-', 'V'].isPrefixOf arg.toList

def subcommand? : List String → Option Command
  | "compile" :: rest => (CommandOptions.read? true rest {}).bind (ofOptions? true)
  | "validate" :: rest => (CommandOptions.read? false rest {}).bind (ofOptions? false)
  | arg :: _ => if asksVersion arg then some .version else none
  | [] => none

/-- The command that the arguments spell; none if they are not understood. -/
def ofArgs? : List String → Option Command
  | "--verbose" :: rest => subcommand? rest
  | args => subcommand? args

structure Failure where
  said : List String := []
  message : String
  cause : Option String := none

def Failure.ofFault (f : Fault Float) : Failure := { message := f.message, cause := f.cause? }

def Failure.report (f : Failure) : String :=
  match f.cause with
  | none => s!"Error: {f.message}"
  | some cause =>
    let indented := String.intercalate "\n" ((Text.split '\n' cause).map fun line => s!"    {line}")
    s!"Error: {f.message}\n\nCaused by:\n{indented}"

structure Outcome where
  code : UInt32
  output : String := ""
  errors : List String := []

variable {m : Type → Type} [Monad m]

def attempt {β : Type} (step : m (Except (Fault Float) β)) : ExceptT Failure m β :=
  ExceptT.mk do return (← step).mapError Failure.ofFault

def touch (purpose : String) (step : m (Except String Unit)) : ExceptT Failure m Unit :=
  ExceptT.mk do return (← step).mapError fun cause => { message := purpose, cause := some cause }

def checkSpec (input : String) (spec : Spec Float) : ExceptT Failure m Unit :=
  ExceptT.mk <| pure <| spec.check.mapError fun f =>
    { message := s!"validate '{input}'", cause := some f.message }

def loadConfig (host : Host m) : Option String → ExceptT Failure m (Config Float)
  | some path => attempt (host.loadConfig path)
  | none => pure default

def makeProject (host : Host m) (input : String) (config : Option String) (check : Bool) :
    ExceptT Failure m (Project Float) := do
  let spec ← attempt (host.loadSpec input)
  if check then checkSpec input spec
  let config ← loadConfig host config
  let canvas ← attempt (pure spec.canvas)
  attempt (pure ((Compiler.create canvas FontTable.standard config).compile spec))

/-- Writes a project, into a folder that is made if it is not there. -/
def store (host : Host m) (output text : String) : ExceptT Failure m Unit := do
  match Path.parentText? output with
  | none | some "" => pure ()
  | some folder => touch s!"create output dir '{folder}'" (host.makeFolder folder)
  touch s!"write project '{output}'" (host.write output text)

def compileFiles (host : Host m) (input output : String) (config : Option String) (check : Bool) :
    ExceptT Failure m (List String) := do
  let project ← makeProject host input config check
  store host output project.toText
  return [s!"wrote {output}"]

def validateFile (host : Host m) (input : String) : ExceptT Failure m (List String) := do
  let spec ← attempt (host.loadSpec input)
  if spec.issues.isEmpty then return [s!"{input}: ok"]
  else
    throw {
      said := spec.issues.map Issue.text
      message := s!"{input}: {spec.issues.length} problem(s) found" }

def Outcome.ofResult : Except Failure (List String) → Outcome
  | .ok said => { code := 0, errors := said }
  | .error f => { code := 1, errors := f.said ++ [f.report] }

def run (host : Host m) : Command → m Outcome
  | .compile input output config check =>
    return .ofResult (← (compileFiles host input output config check).run)
  | .validate input => return .ofResult (← (validateFile host input).run)
  | .version => return { code := 0, output := "scene-layout 0.1.0\n" }

/-- Runs the program. Arguments that are not understood are answered with the usage and the code 2.
So is a request for help (`help`, `--help` or `-h`), as there is no help text here; a program that
has one prints it and ends with the code 0. -/
def runArgs (host : Host m) (args : List String) : m Outcome :=
  match ofArgs? args with
  | some command => run host command
  | none => return {
      code := 2
      errors := [
        "Usage: scene-layout [--verbose] compile --in FILE --out FILE",
        "                    [--config FILE] [--no-validate]",
        "       scene-layout [--verbose] validate --in FILE"] }

end Command
end Storyboard
