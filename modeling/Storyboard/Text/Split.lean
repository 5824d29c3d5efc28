set_option autoImplicit false

namespace Storyboard.Text

def splitChars (sep : Char) : List Char → List (List Char)
  | [] => [[]]
  | c :: cs =>
    if c = sep then [] :: splitChars sep cs
    else match splitChars sep cs with
      | piece :: pieces => (c :: piece) :: pieces
      | [] => [[c]]

def split (sep : Char) (s : String) : List String := (splitChars sep s.toList).map String.ofList

end Storyboard.Text
