set_option autoImplicit false

namespace Storyboard.Text

/-- The length of a text in 16-bit units: a character beyond U+FFFF takes two. -/
def units16 (s : String) : Nat :=
  s.toList.foldl (fun n c => n + if c.toNat < 0x10000 then 1 else 2) 0

end Storyboard.Text
