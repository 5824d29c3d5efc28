import Storyboard.Config
import Storyboard.Fault
import Storyboard.Geometry.Format

set_option autoImplicit false

namespace Storyboard

def Measures.record : Record (Measures Float) where
  name := "EngineConfig"
  blank := default
  fields := [
    .defaulted "position_padding" .real Measures.positionPadding
      fun v c => { c with positionPadding := v },
    .defaulted "group_padding" .real Measures.groupPadding
      fun v c => { c with groupPadding := v },
    .defaulted "group_gap" .real Measures.groupGap fun v c => { c with groupGap := v },
    .defaulted "cross_axis_cap" .real Measures.crossAxisCap
      fun v c => { c with crossAxisCap := v },
    .defaulted "line_height" .real Measures.lineHeight fun v c => { c with lineHeight := v },
    .defaulted "default_char_width_ratio" .real Measures.unlistedAdvance
      fun v c => { c with unlistedAdvance := v }]

def Defaults.record : Record (Defaults Float) where
  name := "CompileDefaults"
  blank := default
  fields := [
    .defaulted "font_family" .string Defaults.fontFamily fun v d => { d with fontFamily := v },
    .defaulted "font_size" .real Defaults.fontSize fun v d => { d with fontSize := v },
    .defaulted "text_color" .string Defaults.textColor fun v d => { d with textColor := v },
    .defaulted "shape_color" .string Defaults.shapeColor fun v d => { d with shapeColor := v },
    .defaulted "stroke_width" .real Defaults.strokeWidth fun v d => { d with strokeWidth := v },
    .defaulted "arrow_head_size" .real Defaults.arrowHeadSize
      fun v d => { d with arrowHeadSize := v },
    .defaulted "volume" .real Defaults.volume fun v d => { d with volume := v },
    .defaulted "generic_asset_size" Size.record.codec Defaults.assetSize
      fun v d => { d with assetSize := v },
    .defaulted "image_size" Size.record.codec Defaults.imageSize
      fun v d => { d with imageSize := v },
    .defaulted "shape_intrinsic_size" Size.record.codec Defaults.shapeSize
      fun v d => { d with shapeSize := v },
    .defaulted "group_text_char_width" .real Defaults.groupTextAdvance
      fun v d => { d with groupTextAdvance := v },
    .defaulted "text_animation" .string Defaults.textAnimation
      fun v d => { d with textAnimation := v },
    .defaulted "image_animation" .string Defaults.imageAnimation
      fun v d => { d with imageAnimation := v }]

def Config.record : Record (Config Float) where
  name := "LayoutConfig"
  blank := default
  fields := [
    .defaulted "engine" Measures.record.codec Config.measures
      fun v c => { c with measures := v },
    .defaulted "defaults" Defaults.record.codec Config.defaults
      fun v c => { c with defaults := v }]

def Config.ofText (text : String) : Except (Fault Float) (Config Float) :=
  (record.codec.ofText text).mapError (.misread (some .config))

end Storyboard
