import Storyboard.Geometry.Format
import Storyboard.Layout

set_option autoImplicit false

namespace Storyboard

def Placing.record : Record (Placing Float) where
  name := "SingleLayout"
  blank := ⟨default, none, none, none⟩
  fields := [
    .defaulted "position" .keyword Placing.position fun v l => { l with position := v },
    .optional "region" .keyword Placing.region fun v l => { l with region := v },
    .optional "size" .keyword Placing.size fun v l => { l with size := v },
    .optional "offset" Point.record.codec Placing.offset fun v l => { l with offset := v }]

def Flow.record : Record (Flow Float) where
  name := "GroupLayout"
  blank := ⟨default, none, none, none, none, none, none⟩
  fields := [
    .required "direction" .keyword Flow.direction fun v l => { l with direction := v },
    .optional "region" .keyword Flow.region fun v l => { l with region := v },
    .optional "justify" .keyword Flow.justify fun v l => { l with justify := v },
    .optional "align" .keyword Flow.align fun v l => { l with align := v },
    .optional "sizing" .keyword Flow.sizing fun v l => { l with sizing := v },
    .optional "gap" .real Flow.gap fun v l => { l with gap := v },
    .optional "padding" .real Flow.padding fun v l => { l with padding := v }]

def Endpoint.record : Record Endpoint where
  name := "Endpoint"
  blank := default
  fields := [
    .required "region" .keyword Endpoint.region fun v e => { e with region := v },
    .required "anchor" .keyword Endpoint.anchor fun v e => { e with anchor := v }]

def Connection.record : Record Connection where
  name := "ConnectionLayout"
  blank := default
  fields := [
    .required "from" Endpoint.record.codec Connection.source fun v c => { c with source := v },
    .required "to" Endpoint.record.codec Connection.target fun v c => { c with target := v }]

/-- What can be read as a connection is one. -/
def ShapePlacing.codec : Codec (ShapePlacing Float) :=
  (Codec.either "ShapeLayout" Connection.record.codec Placing.record.codec).iso
    (fun
      | .inl c => .between c
      | .inr l => .inside l)
    fun
      | .between c => .inl c
      | .inside l => .inr l

end Storyboard
