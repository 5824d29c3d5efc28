import Storyboard.Json.Codec

set_option autoImplicit false

/-!
Records in JSON. A record is described once, by its fields in order, and is read from an object in
any order or from an array in that order.
-/

namespace Storyboard

structure Field (σ : Type) where
  key : String
  needed : Bool
  read : Origin → Json → σ → Except Misread σ
  write : σ → Option Json

namespace Field
variable {σ τ β : Type}

def required (key : String) (c : Codec β) (get : σ → β) (set : β → σ → σ) : Field σ where
  key := key
  needed := true
  read o j s := return set (← c.read o j) s
  write s := some (c.write (get s))

def defaulted (key : String) (c : Codec β) (get : σ → β) (set : β → σ → σ) : Field σ :=
  { required key c get set with needed := false }

def listed (key : String) (c : Codec β) (get : σ → List β) (set : List β → σ → σ) : Field σ :=
  { defaulted key c.list get set with
    write := fun s => if (get s).isEmpty then none else some (c.list.write (get s)) }

def optional (key : String) (c : Codec β) (get : σ → Option β) (set : Option β → σ → σ) :
    Field σ where
  key := key
  needed := false
  read o j s :=
    match j with
    | .null => .ok (set none s)
    | j => return set (some (← c.read o j)) s
  write s := (get s).map c.write

def within (get : σ → τ) (set : τ → σ → σ) (f : Field τ) : Field σ where
  key := f.key
  needed := f.needed
  read o j s := return set (← f.read o j (get s)) s
  write s := f.write (get s)

end Field

structure Record (σ : Type) where
  name : String
  /-- What an empty document means; reading starts from it. -/
  blank : σ
  fields : List (Field σ)

namespace Record
variable {σ : Type}

def lengthText (r : Record σ) : String :=
  let n := r.fields.length
  let noun := if n = 1 then "element" else "elements"
  s!"struct {r.name} with {n} {noun}"

def excess (fields items : Nat) : Origin → Misread
  | .document => .malformed
  | .kept =>
    let noun := if fields = 1 then "element" else "elements"
    .invalidLength items s!"{fields} {noun} in sequence"
  | .memory => .invalidLength items "fewer elements in array"

/-- Items in the order of the fields. Those left out at the end keep their blank values. -/
def readItems (r : Record σ) (o : Origin) :
    List (Field σ) → Nat → List Json → σ → Except Misread σ
  | [], _, [], s => .ok s
  | [], i, x :: xs, _ => .error (excess i (i + (x :: xs).length) o)
  | f :: fs, i, [], s =>
    if f.needed then .error (.invalidLength i r.lengthText) else r.readItems o fs (i + 1) [] s
  | f :: fs, i, x :: xs, s => do r.readItems o fs (i + 1) xs (← f.read o x s)

/-- Entries in the order of the document. A repeated field is refused before its value is read, an
unknown one is passed over, and a missing one is noticed at the end. -/
def readEntries (r : Record σ) (o : Origin) :
    List (Option String × Json) → List String → σ → Except Misread σ
  | [], seen, s =>
    match r.fields.find? fun f => f.needed && !seen.contains f.key with
    | some f => .error (.missingField f.key)
    | none => .ok s
  | (none, _) :: _, _, _ => .error .malformed
  | (some k, x) :: es, seen, s =>
    match r.fields.find? fun f => f.key == k with
    | none => if x.whole then r.readEntries o es seen s else .error .malformed
    | some f =>
      if seen.contains k then .error (.duplicateField k)
      else do r.readEntries o es (k :: seen) (← f.read o x s)

def entries (r : Record σ) (s : σ) : List (String × Json) :=
  r.fields.filterMap fun f => (f.write s).map (f.key, ·)

def codec (r : Record σ) : Codec σ where
  read
    | o, .obj es => r.readEntries o es [] r.blank
    | o, .arr xs => r.readItems o r.fields 0 xs r.blank
    | _, j => .error (j.mismatch s!"struct {r.name}")
  write s := Json.record (r.entries s)

end Record
end Storyboard
