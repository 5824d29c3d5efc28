import Storyboard.Geometry
import Storyboard.Json.Record

set_option autoImplicit false

namespace Storyboard

def Size.record : Record (Size Float) where
  name := "Dimensions"
  blank := ⟨0.0, 0.0⟩
  fields := [
    .required "width" .real Size.width fun v s => { s with width := v },
    .required "height" .real Size.height fun v s => { s with height := v }]

def Point.record : Record (Point Float) where
  name := "Vec2"
  blank := ⟨0.0, 0.0⟩
  fields := [
    .required "x" .real Point.x fun v p => { p with x := v },
    .required "y" .real Point.y fun v p => { p with y := v }]

def Canvas.record : Record Canvas where
  name := "Canvas"
  blank := ⟨0, 0⟩
  fields := [
    .required "width" .natural32 Canvas.width fun v c => { c with width := v },
    .required "height" .natural32 Canvas.height fun v c => { c with height := v }]

end Storyboard
