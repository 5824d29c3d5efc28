import Storyboard.Font
import Storyboard.Json.Record

set_option autoImplicit false

namespace Storyboard

def Family.record : Record (Family Float) where
  name := "FontEntry"
  blank := ⟨"", 0.0, .remote⟩
  fields := [
    .required "url" .string Family.url fun v f => { f with url := v },
    .required "char_width_ratio" .real Family.advance fun v f => { f with advance := v },
    .required "locality" .word Family.locality fun v f => { f with locality := v }]

def Family.ofText (text : String) : Except (Fault Float) (Family Float) :=
  (record.codec.ofText text).mapError (.misread none)

end Storyboard
