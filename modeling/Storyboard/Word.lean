set_option autoImplicit false

namespace Storyboard

class Word (κ : Type) where
  all : List κ
  key : κ → String

namespace Word
variable {κ : Type} [Word κ]

def ofKey? (key : String) : Option κ := all.find? fun w => Word.key w == key

def keys (κ : Type) [Word κ] : List String := (all : List κ).map key

end Word

/-- A set in which every key means something. What an absent word means is its `default`. -/
class Keyword (κ : Type) extends Word κ where
  fallback : κ

def Keyword.ofKey {κ : Type} [Keyword κ] (key : String) : κ := (Word.ofKey? key).getD fallback

end Storyboard
