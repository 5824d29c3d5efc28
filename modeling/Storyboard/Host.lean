import Storyboard.Config.Format
import Storyboard.Project.Format
import Storyboard.Spec.Format

set_option autoImplicit false

/-!
Files as a command needs them, whether they are real or kept in memory. An operation that fails says
why in the words of the system.
-/

namespace Storyboard

structure Host (m : Type → Type) where
  read : String → m (Except String String)
  /-- Makes a folder, and those it lies in, unless it is there. -/
  makeFolder : String → m (Except String Unit)
  /-- Makes a file with a text, or replaces what the file holds. -/
  write : String → String → m (Except String Unit)

namespace Host
variable {m : Type → Type} [Monad m] {α : Type}

/-- The answer to reading a file whose bytes are no text. -/
def notText : String := "stream did not contain valid UTF-8"

def load (host : Host m) (document : Document) (ofText : String → Except (Fault Float) α)
    (path : String) : m (Except (Fault Float) α) :=
  return match ← host.read path with
    | .ok text => ofText text
    | .error cause => .error (.unreadable document path cause)

def loadSpec (host : Host m) : String → m (Except (Fault Float) (Spec Float)) :=
  host.load .spec Spec.ofText

def loadConfig (host : Host m) : String → m (Except (Fault Float) (Config Float)) :=
  host.load .config Config.ofText

def loadProject (host : Host m) : String → m (Except (Fault Float) (Project Float)) :=
  host.load .project Project.ofText

end Host

end Storyboard
