import Storyboard.Command

set_option autoImplicit false

namespace Storyboard

def systemText (e : IO.Error) : String :=
  match e with
  | .noFileOrDirectory _ code details | .alreadyExists _ code details
  | .inappropriateType _ code details | .permissionDenied _ code details
  | .invalidArgument _ code details =>
    s!"{details} (os error {code})"
  | e => toString e

def attemptIO {β : Type} (action : IO β) : IO (Except String β) := do
  match ← action.toBaseIO with
  | .ok b => return .ok b
  | .error e => return .error (systemText e)

def systemHost : Host IO where
  read path := do
    match ← attemptIO (IO.FS.readBinFile path) with
    | .ok bytes => return (String.fromUTF8? bytes).elim (.error Host.notText) .ok
    | .error cause => return .error cause
  makeFolder path := attemptIO (IO.FS.createDirAll path)
  write path text := attemptIO (IO.FS.writeFile path text)

end Storyboard

def main (args : List String) : IO UInt32 := do
  let outcome ← Storyboard.Command.runArgs Storyboard.systemHost args
  IO.print outcome.output
  for line in outcome.errors do
    IO.eprintln line
  return outcome.code
