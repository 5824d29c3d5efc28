import Storyboard.Host
import Storyboard.Path

set_option autoImplicit false

/-!
Files in memory. A path is walked part by part: each part but the last must lead to a folder, also
one that is left again by two dots. The first part that leads nowhere decides what is refused.
-/

namespace Storyboard

/-- Where a file or a folder is: the names on the way from the root. -/
abbrev Place := List String

/-- A folder is there if something lies in it, if it was made, or if work is done in it. -/
structure Disk where
  files : List (Place × ByteArray) := []
  folders : List Place := []
  /-- The folder where relative paths start. -/
  home : Place := ["tmp", "work"]

namespace Disk

inductive Refusal where
  | notFound
  | alreadyThere
  | notAFolder
  | isAFolder
  | nameTooLong
  | notText
  deriving DecidableEq, Repr

def Refusal.text : Refusal → String
  | .notFound => "No such file or directory (os error 2)"
  | .alreadyThere => "File exists (os error 17)"
  | .notAFolder => "Not a directory (os error 20)"
  | .isAFolder => "Is a directory (os error 21)"
  | .nameTooLong => "File name too long (os error 36)"
  | .notText => Host.notText

/-- The files given by their names in the working folder, and the device that is always empty. -/
def ofFiles (files : List (String × ByteArray)) : Disk :=
  let disk : Disk := {}
  { disk with
    files := (["dev", "null"], .empty) ::
      files.map fun (name, content) => (disk.home ++ Path.parts name, content) }

def content? (d : Disk) (p : Place) : Option ByteArray := d.files.lookup p

def isFile (d : Disk) (p : Place) : Bool := (d.content? p).isSome

def isFolder (d : Disk) (p : Place) : Bool :=
  p.isPrefixOf d.home || (d.folders.any fun q => p.isPrefixOf q) ||
    d.files.any fun (q, _) => p.isPrefixOf q && p != q

/-- Names have 255 bytes at most, and whole paths fewer than 4096. -/
def fits (name : String) : Bool := name.utf8ByteSize ≤ 255

def step (d : Disk) (p : Place) (part : String) : Except Refusal Place :=
  if !d.isFolder p then .error .notAFolder
  else if part = "" ∨ part = "." then .ok p
  else if part = ".." then .ok p.dropLast
  else if !fits part then .error .nameTooLong
  else if d.isFile (p ++ [part]) || d.isFolder (p ++ [part]) then .ok (p ++ [part])
  else .error .notFound

def start (d : Disk) (path : String) : Except Refusal Place :=
  if 4096 ≤ path.utf8ByteSize then .error .nameTooLong
  else .ok (if Path.isAbsolute path then [] else d.home)

def find (d : Disk) (path : String) : Except Refusal Place := do
  (Path.parts path).foldlM d.step (← d.start path)

/-- The folder that the last name of a path stands in, and the name, which need not be there. Dots
are no name. -/
def locate (d : Disk) (path : String) : Except Refusal (Place × Option String) := do
  let named := ((Path.parts path).reverse.dropWhile (· == "")).reverse
  let folder ← named.dropLast.foldlM d.step (← d.start path)
  if !d.isFolder folder then throw .notAFolder
  return (folder, named.getLast?.filter fun name => name != "." && name != "..")

def read (d : Disk) (path : String) : Except Refusal String := do
  let p ← d.find path
  if d.isFolder p then throw .isAFolder
  match d.content? p with
  | some bytes => (String.fromUTF8? bytes).elim (.error .notText) .ok
  | none => throw .notFound

def makeOne (d : Disk) (path : String) : Except Refusal Disk := do
  let (folder, some name) ← d.locate path | throw .alreadyThere
  if !fits name then throw .nameTooLong
  let p := folder ++ [name]
  if d.isFile p || d.isFolder p then throw .alreadyThere
  return { d with folders := p :: d.folders }

def leadsToFolder (d : Disk) (path : String) : Bool :=
  match d.find path with
  | .ok p => d.isFolder p
  | .error _ => false

/-- Makes the first of some folders, and before it those of the others that it needs. Each lies in
the next one. Folders that were made stay where a later one is refused. -/
def makeAll (d : Disk) : List String → Except Refusal Unit × Disk
  | [] => (.ok (), d)
  | path :: above =>
    match d.makeOne path with
    | .ok d => (.ok (), d)
    | .error .notFound =>
      match d.makeAll above with
      | (.error e, d) => (.error e, d)
      | (.ok (), d) =>
        match d.makeOne path with
        | .ok d => (.ok (), d)
        | .error e => (if d.leadsToFolder path then .ok () else .error e, d)
    | .error e => (if d.leadsToFolder path then .ok () else .error e, d)

def makeFolder (d : Disk) (path : String) : Except Refusal Unit × Disk :=
  d.makeAll (Path.lineage path)

def write (d : Disk) (path text : String) : Except Refusal Disk := do
  let (folder, some name) ← d.locate path | throw .isAFolder
  if Path.endsInSlash path then throw .isAFolder
  if !fits name then throw .nameTooLong
  let p := folder ++ [name]
  if d.isFolder p then throw .isAFolder
  return { d with files := (p, text.toUTF8) :: d.files.filter fun (q, _) => q != p }

def host : Host (StateM Disk) where
  read path := fun d => ((d.read path).mapError Refusal.text, d)
  makeFolder path := fun d =>
    let (result, d) := d.makeFolder path
    (result.mapError Refusal.text, d)
  write path text := fun d =>
    match d.write path text with
    | .ok d => (.ok (), d)
    | .error e => (.error e.text, d)

end Disk
end Storyboard
