set_option autoImplicit false

namespace Storyboard

structure Table (β : Type) where
  entries : List (String × β) := []
  deriving BEq, DecidableEq, Repr

namespace Table
variable {β : Type}

def insertEntry (name : String) (value : β) : List (String × β) → List (String × β)
  | [] => [(name, value)]
  | (n, v) :: es =>
    if name < n then (name, value) :: (n, v) :: es
    else if name = n then (name, value) :: es
    else (n, v) :: insertEntry name value es

def insert (t : Table β) (name : String) (value : β) : Table β := ⟨insertEntry name value t.entries⟩

def get? (t : Table β) (name : String) : Option β := t.entries.lookup name

def names (t : Table β) : List String := t.entries.map Prod.fst

def size (t : Table β) : Nat := t.entries.length

/-- Inserted in turn, so that of values under one name the last stays. -/
def ofList (es : List (String × β)) : Table β := es.foldl (fun t e => t.insert e.1 e.2) {}

end Table
end Storyboard
