import Storyboard.Fault
import Storyboard.Json.Tagged
import Storyboard.Layout.Format
import Storyboard.Spec

set_option autoImplicit false

namespace Storyboard

def Heading.record : Record Heading where
  name := "SpecMeta"
  blank := ⟨"", "", ⟨0, 0⟩, 0, none⟩
  fields := [
    .required "title" .string Heading.title fun v h => { h with title := v },
    .required "version" .string Heading.version fun v h => { h with version := v },
    .required "resolution" Canvas.record.codec Heading.resolution
      fun v h => { h with resolution := v },
    .required "fps" .natural32 Heading.fps fun v h => { h with fps := v },
    .optional "backgroundColor" .string Heading.backgroundColor
      fun v h => { h with backgroundColor := v }]

def SvgSource.record : Record (SvgSource Float) where
  name := "SvgAssetDecl"
  blank := ⟨"", "", Size.record.blank⟩
  fields := [
    .required "id" .string SvgSource.id fun v s => { s with id := v },
    .required "url" .string SvgSource.url fun v s => { s with url := v }] ++
    Size.record.fields.map (.within SvgSource.size fun v s => { s with size := v })

def AudioSource.record : Record AudioSource where
  name := "AudioAssetDecl"
  blank := ⟨"", ""⟩
  fields := [
    .required "id" .string AudioSource.id fun v s => { s with id := v },
    .required "url" .string AudioSource.url fun v s => { s with url := v }]

def ImageSource.record : Record (ImageSource Float) where
  name := "ImageAssetDecl"
  blank := ⟨"", "", none, none⟩
  fields := [
    .required "id" .string ImageSource.id fun v s => { s with id := v },
    .required "url" .string ImageSource.url fun v s => { s with url := v },
    .optional "width" .real ImageSource.width fun v s => { s with width := v },
    .optional "height" .real ImageSource.height fun v s => { s with height := v }]

def Sources.record : Record (Sources Float) where
  name := "SpecAssets"
  blank := ⟨[], [], []⟩
  fields := [
    .defaulted "svgs" (.list SvgSource.record.codec) Sources.svgs fun v a => { a with svgs := v },
    .defaulted "audio" (.list AudioSource.record.codec) Sources.audio
      fun v a => { a with audio := v },
    .defaulted "images" (.list ImageSource.record.codec) Sources.images
      fun v a => { a with images := v }]

def Soundtrack.record : Record (Soundtrack Float) where
  name := "AudioRef"
  blank := ⟨"", none⟩
  fields := [
    .required "assetId" .string Soundtrack.asset fun v t => { t with asset := v },
    .optional "volume" .real Soundtrack.volume fun v t => { t with volume := v }]

def Picture.record (name : String) : Record (Picture Float) where
  name := name
  blank := ⟨"", Placing.record.blank, 0.0, 0.0, none⟩
  fields := [
    .required "assetId" .string Picture.asset fun v e => { e with asset := v },
    .required "layout" Placing.record.codec Picture.layout fun v e => { e with layout := v },
    .defaulted "startTime" .real Picture.start fun v e => { e with start := v },
    .required "duration" .real Picture.duration fun v e => { e with duration := v },
    .optional "animationType" .string Picture.animation fun v e => { e with animation := v }]

def TextLine.record : Record (TextLine Float) where
  name := "TextElement"
  blank := ⟨"", Placing.record.blank, 0.0, 0.0, none, none, none, none⟩
  fields := [
    .required "text" .string TextLine.text fun v e => { e with text := v },
    .required "layout" Placing.record.codec TextLine.layout
      fun v e => { e with layout := v },
    .defaulted "startTime" .real TextLine.start fun v e => { e with start := v },
    .required "duration" .real TextLine.duration fun v e => { e with duration := v },
    .optional "color" .string TextLine.color fun v e => { e with color := v },
    .optional "fontSize" .real TextLine.fontSize fun v e => { e with fontSize := v },
    .optional "fontFamily" .string TextLine.fontFamily fun v e => { e with fontFamily := v },
    .optional "animationType" .string TextLine.animation fun v e => { e with animation := v }]

def Figure.record : Record (Figure Float) where
  name := "ShapeElement"
  blank := ⟨.line, .between default, 0.0, 0.0, none, none, none, none, []⟩
  fields := [
    .required "shape" .word Figure.shape fun v e => { e with shape := v },
    .required "layout" ShapePlacing.codec Figure.layout fun v e => { e with layout := v },
    .defaulted "startTime" .real Figure.start fun v e => { e with start := v },
    .required "duration" .real Figure.duration fun v e => { e with duration := v },
    .optional "color" .string Figure.color fun v e => { e with color := v },
    .optional "fill" .bool Figure.fill fun v e => { e with fill := v },
    .optional "strokeWidth" .real Figure.strokeWidth fun v e => { e with strokeWidth := v },
    .optional "arrowHeadSize" .real Figure.arrowHeadSize
      fun v e => { e with arrowHeadSize := v },
    .listed "points" Point.record.codec Figure.points fun v e => { e with points := v }]

def Item.record : Record (Item Float) where
  name := "GroupItem"
  blank := ⟨.svg, none, none, none, none, none, none, none, none⟩
  fields := [
    .required "type" .word Item.kind fun v i => { i with kind := v },
    .optional "assetId" .string Item.asset fun v i => { i with asset := v },
    .optional "text" .string Item.text fun v i => { i with text := v },
    .optional "color" .string Item.color fun v i => { i with color := v },
    .optional "fontSize" .real Item.fontSize fun v i => { i with fontSize := v },
    .optional "fontFamily" .string Item.fontFamily fun v i => { i with fontFamily := v },
    .optional "animationType" .string Item.animation fun v i => { i with animation := v },
    .optional "startTime" .real Item.start fun v i => { i with start := v },
    .optional "duration" .real Item.duration fun v i => { i with duration := v }]

def Group.record : Record (Group Float) where
  name := "GroupElement"
  blank := ⟨Flow.record.blank, [], 0.0, 0.0⟩
  fields := [
    .required "layout" Flow.record.codec Group.layout
      fun v e => { e with layout := v },
    .defaulted "items" (.list Item.record.codec) Group.items
      fun v e => { e with items := v },
    .defaulted "startTime" .real Group.start fun v e => { e with start := v },
    .required "duration" .real Group.duration fun v e => { e with duration := v }]

def Element.tagged : Tagged (Element Float) where
  name := "Element"
  kinds := [
    .of "svg" (Picture.record "SvgElement") .svg fun | .svg e => some e | _ => none,
    .of "text" TextLine.record .text fun | .text e => some e | _ => none,
    .of "shape" Figure.record .shape fun | .shape e => some e | _ => none,
    .of "image" (Picture.record "ImageElement") .image fun | .image e => some e | _ => none,
    .of "group" Group.record .group fun | .group e => some e | _ => none]

def Scene.record : Record (Scene Float) where
  name := "Scene"
  blank := ⟨"", "", 0.0, 0.0, none, none, []⟩
  fields := [
    .required "id" .string Scene.id fun v s => { s with id := v },
    .required "name" .string Scene.name fun v s => { s with name := v },
    .required "startTime" .real Scene.start fun v s => { s with start := v },
    .required "duration" .real Scene.duration fun v s => { s with duration := v },
    .optional "background" .string Scene.background fun v s => { s with background := v },
    .optional "audio" Soundtrack.record.codec Scene.audio fun v s => { s with audio := v },
    .defaulted "elements" (.list Element.tagged.codec) Scene.elements
      fun v s => { s with elements := v }]

def Spec.record : Record (Spec Float) where
  name := "LayoutSpec"
  blank := ⟨Heading.record.blank, Sources.record.blank, []⟩
  fields := [
    .required "meta" Heading.record.codec Spec.heading fun v s => { s with heading := v },
    .defaulted "assets" Sources.record.codec Spec.assets fun v s => { s with assets := v },
    .defaulted "scenes" (.list Scene.record.codec) Spec.scenes fun v s => { s with scenes := v }]

def Spec.ofText (text : String) : Except (Fault Float) (Spec Float) :=
  (record.codec.ofText text).mapError (.misread (some .spec))

def Spec.toText (s : Spec Float) : String := record.codec.toText s

def Sources.ofText (text : String) : Except (Fault Float) (Sources Float) :=
  (record.codec.ofText text).mapError (.misread none)

end Storyboard
