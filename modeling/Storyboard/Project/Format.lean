import Storyboard.Fault
import Storyboard.Geometry.Format
import Storyboard.Json.Tagged
import Storyboard.Project

set_option autoImplicit false

namespace Storyboard

def ProjectInfo.record : Record (ProjectInfo Float) where
  name := "ProjectMeta"
  blank := ⟨"", "", ⟨0, 0⟩, 0, 0.0, none⟩
  fields := [
    .required "title" .string ProjectInfo.title fun v i => { i with title := v },
    .required "version" .string ProjectInfo.version fun v i => { i with version := v },
    .required "resolution" Canvas.record.codec ProjectInfo.resolution
      fun v i => { i with resolution := v },
    .required "fps" .natural32 ProjectInfo.fps fun v i => { i with fps := v },
    .required "duration" .real ProjectInfo.duration fun v i => { i with duration := v },
    .optional "backgroundColor" .string ProjectInfo.backgroundColor
      fun v i => { i with backgroundColor := v }]

def Asset.record : Record (Asset Float) where
  name := "ProjectAsset"
  blank := ⟨"", .svg, "", none, none⟩
  fields := [
    .required "id" .string Asset.id fun v a => { a with id := v },
    .required "type" .word Asset.kind fun v a => { a with kind := v },
    .required "url" .string Asset.url fun v a => { a with url := v },
    .optional "width" .real Asset.width fun v a => { a with width := v },
    .optional "height" .real Asset.height fun v a => { a with height := v }]

def AssetTable.record : Record (AssetTable Float) where
  name := "ProjectAssets"
  blank := ⟨none, none, none, none⟩
  fields := [
    .optional "svgs" (.list Asset.record.codec) AssetTable.svgs
      fun v a => { a with svgs := v },
    .optional "videos" (.list Asset.record.codec) AssetTable.videos
      fun v a => { a with videos := v },
    .optional "audio" (.list Asset.record.codec) AssetTable.audio
      fun v a => { a with audio := v },
    .optional "images" (.list Asset.record.codec) AssetTable.images
      fun v a => { a with images := v }]

def PixelPoint.record : Record PixelPoint where
  name := "PixelPoint"
  blank := ⟨0, 0⟩
  fields := [
    .required "x" .pixel PixelPoint.x fun v p => { p with x := v },
    .required "y" .pixel PixelPoint.y fun v p => { p with y := v }]

def PixelBox.fields : List (Field PixelBox) := [
  .required "x" .pixel PixelBox.x fun v b => { b with x := v },
  .required "y" .pixel PixelBox.y fun v b => { b with y := v },
  .required "width" .pixel PixelBox.width fun v b => { b with width := v },
  .required "height" .pixel PixelBox.height fun v b => { b with height := v }]

def SvgDeed.fields : List (Field (SvgDeed Float)) :=
  [.required "assetId" .string SvgDeed.asset fun v d => { d with asset := v }] ++
    PixelBox.fields.map (.within SvgDeed.box fun v d => { d with box := v }) ++ [
    .required "scale" .real SvgDeed.scale fun v d => { d with scale := v },
    .required "startTime" .real SvgDeed.start fun v d => { d with start := v },
    .required "duration" .real SvgDeed.duration fun v d => { d with duration := v },
    .optional "animationType" .string SvgDeed.animation fun v d => { d with animation := v }]

def TextDeed.fields : List (Field (TextDeed Float)) :=
  [.required "text" .string TextDeed.text fun v d => { d with text := v }] ++
    PixelBox.fields.map (.within TextDeed.box fun v d => { d with box := v }) ++ [
    .required "fontSize" .real TextDeed.fontSize fun v d => { d with fontSize := v },
    .required "fontFamily" .string TextDeed.fontFamily fun v d => { d with fontFamily := v },
    .required "color" .string TextDeed.color fun v d => { d with color := v },
    .required "animationType" .string TextDeed.animation fun v d => { d with animation := v },
    .required "startTime" .real TextDeed.start fun v d => { d with start := v },
    .required "duration" .real TextDeed.duration fun v d => { d with duration := v }]

def ShapeDeed.fields : List (Field (ShapeDeed Float)) := [
  .required "shape" .word ShapeDeed.shape fun v d => { d with shape := v },
  .required "x" .pixel ShapeDeed.x fun v d => { d with x := v },
  .required "y" .pixel ShapeDeed.y fun v d => { d with y := v },
  .optional "x2" .pixel ShapeDeed.x2 fun v d => { d with x2 := v },
  .optional "y2" .pixel ShapeDeed.y2 fun v d => { d with y2 := v },
  .optional "width" .pixel ShapeDeed.width fun v d => { d with width := v },
  .optional "height" .pixel ShapeDeed.height fun v d => { d with height := v },
  .optional "radius" .pixel ShapeDeed.radius fun v d => { d with radius := v },
  .optional "points" (.list PixelPoint.record.codec) ShapeDeed.points
    fun v d => { d with points := v },
  .required "color" .string ShapeDeed.color fun v d => { d with color := v },
  .required "fill" .bool ShapeDeed.fill fun v d => { d with fill := v },
  .required "strokeWidth" .real ShapeDeed.strokeWidth fun v d => { d with strokeWidth := v },
  .optional "arrowHeadSize" .real ShapeDeed.arrowHeadSize
    fun v d => { d with arrowHeadSize := v },
  .required "startTime" .real ShapeDeed.start fun v d => { d with start := v },
  .required "duration" .real ShapeDeed.duration fun v d => { d with duration := v }]

def ImageDeed.fields : List (Field (ImageDeed Float)) :=
  [.required "assetId" .string ImageDeed.asset fun v d => { d with asset := v }] ++
    PixelBox.fields.map (.within ImageDeed.box fun v d => { d with box := v }) ++ [
    .required "scale" .real ImageDeed.scale fun v d => { d with scale := v },
    .required "animationType" .string ImageDeed.animation fun v d => { d with animation := v },
    .required "startTime" .real ImageDeed.start fun v d => { d with start := v },
    .required "duration" .real ImageDeed.duration fun v d => { d with duration := v }]

def AudioDeed.fields : List (Field (AudioDeed Float)) := [
  .required "assetId" .string AudioDeed.asset fun v d => { d with asset := v },
  .required "volume" .real AudioDeed.volume fun v d => { d with volume := v },
  .required "startTime" .real AudioDeed.start fun v d => { d with start := v },
  .required "duration" .real AudioDeed.duration fun v d => { d with duration := v }]

def Action.record {δ : Type} (name : String) (blank : δ) (fields : List (Field δ)) :
    Record (String × δ) where
  name := name
  blank := ("", blank)
  fields :=
    .required "id" .string Prod.fst (fun v a => (v, a.2)) ::
      fields.map (.within Prod.snd fun v a => (a.1, v))

def Action.tagged : Tagged (Action Float) where
  name := "Action"
  kinds := [
    .of "svgAnimation"
      (record "SvgAnimationAction" ⟨"", ⟨0, 0, 0, 0⟩, 0.0, 0.0, 0.0, none⟩ SvgDeed.fields)
      (fun (id, d) => ⟨id, .svg d⟩) fun | ⟨id, .svg d⟩ => some (id, d) | _ => none,
    .of "text"
      (record "TextAction" ⟨"", ⟨0, 0, 0, 0⟩, 0.0, "", "", "", 0.0, 0.0⟩ TextDeed.fields)
      (fun (id, d) => ⟨id, .text d⟩) fun | ⟨id, .text d⟩ => some (id, d) | _ => none,
    .of "shape"
      (record "ShapeAction"
        ⟨.line, 0, 0, none, none, none, none, none, none, "", false, 0.0, none, 0.0, 0.0⟩
        ShapeDeed.fields)
      (fun (id, d) => ⟨id, .shape d⟩) fun | ⟨id, .shape d⟩ => some (id, d) | _ => none,
    .of "image"
      (record "ImageAction" ⟨"", ⟨0, 0, 0, 0⟩, 0.0, "", 0.0, 0.0⟩ ImageDeed.fields)
      (fun (id, d) => ⟨id, .image d⟩) fun | ⟨id, .image d⟩ => some (id, d) | _ => none,
    .of "audio" (record "AudioAction" ⟨"", 0.0, 0.0, 0.0⟩ AudioDeed.fields)
      (fun (id, d) => ⟨id, .audio d⟩) fun | ⟨id, .audio d⟩ => some (id, d) | _ => none]

def PlayedScene.record : Record (PlayedScene Float) where
  name := "CompiledScene"
  blank := ⟨"", "", 0.0, 0.0, none, []⟩
  fields := [
    .required "id" .string PlayedScene.id fun v s => { s with id := v },
    .required "name" .string PlayedScene.name fun v s => { s with name := v },
    .required "startTime" .real PlayedScene.start fun v s => { s with start := v },
    .required "duration" .real PlayedScene.duration fun v s => { s with duration := v },
    .optional "background" .string PlayedScene.background fun v s => { s with background := v },
    .required "actions" (.list Action.tagged.codec) PlayedScene.actions
      fun v s => { s with actions := v }]

def Project.record : Record (Project Float) where
  name := "Project"
  blank := ⟨ProjectInfo.record.blank, AssetTable.record.blank, []⟩
  fields := [
    .required "meta" ProjectInfo.record.codec Project.info fun v p => { p with info := v },
    .required "assets" AssetTable.record.codec Project.assets fun v p => { p with assets := v },
    .required "scenes" (.list PlayedScene.record.codec) Project.scenes
      fun v p => { p with scenes := v }]

def Project.ofText (text : String) : Except (Fault Float) (Project Float) :=
  (record.codec.ofText text).mapError (.misread (some .project))

def Project.toText (p : Project Float) : String := record.codec.toText p

end Storyboard
