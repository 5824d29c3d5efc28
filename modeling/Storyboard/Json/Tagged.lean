import Storyboard.Json.Record

set_option autoImplicit false

/-!
Records of several kinds in JSON, told apart by a field `type`. The other fields are kept until the
kind is known, wherever the tag stands among them.
-/

namespace Storyboard

structure Kind (σ : Type) where
  tag : String
  read : Json → Except Misread σ
  /-- The entries besides the tag, for values of this kind. -/
  write : σ → Option (List (String × Json))

def Kind.of {σ β : Type} (tag : String) (r : Record β) (into : β → σ) (out? : σ → Option β) :
    Kind σ where
  tag := tag
  read j := (r.codec.read .kept j).map into
  write s := (out? s).map r.entries

structure Tagged (σ : Type) where
  name : String
  kinds : List (Kind σ)

namespace Tagged
variable {σ : Type}

/-- How deep arrays and objects may nest inside a tagged record. A document nests 127 deep at most,
and its tagged records stand at the fifth level. -/
def depth : Nat := 122

def kind (t : Tagged σ) : Json → Except Misread (Kind σ)
  | .str name =>
    match t.kinds.find? fun k => k.tag == name with
    | some k => .ok k
    | none => .error (.unknownVariant name (t.kinds.map Kind.tag))
  | j => .error (j.mismatch "variant identifier")

/-- Entries in the order of the document: the tag is read at once, the others are kept. -/
def readEntries (t : Tagged σ) :
    List (Option String × Json) → Option (Kind σ) → List (Option String × Json) → Except Misread σ
  | [], none, _ => .error (.missingField "type")
  | [], some k, kept => k.read (.obj kept.reverse)
  | (none, _) :: _, _, _ => .error .malformed
  | (some key, x) :: es, found, kept =>
    if key = "type" then
      match found with
      | some _ => .error (.duplicateField "type")
      | none => do t.readEntries es (some (← t.kind x)) kept
    else if x.keepable depth then t.readEntries es found ((some key, x) :: kept)
    else .error .malformed

def write (t : Tagged σ) (s : σ) : Json :=
  match t.kinds.findSome? fun k => (k.write s).map (k.tag, ·) with
  | some (tag, es) => Json.record (("type", .str tag) :: es)
  | none => .null

def codec (t : Tagged σ) : Codec σ where
  read
    | _, .obj es => t.readEntries es none []
    | _, .arr [] => .error (.missingField "type")
    | _, .arr (x :: xs) => do
      let k ← t.kind x
      if xs.all (Json.keepable depth) then k.read (.arr xs) else throw .malformed
    | _, j => .error (j.mismatch s!"internally tagged enum {t.name}")
  write := t.write

end Tagged
end Storyboard
