import Storyboard.Config.Format
import Storyboard.Proofs.Binary64
import Storyboard.Proofs.Json.Reordered
import Storyboard.Proofs.SpecText

set_option autoImplicit false

namespace Storyboard

section Overlays
variable {α : Type} (keys : List String)

/-- The measures under the given keys, over those of a base. -/
def Measures.overlay (m base : Measures α) : Measures α where
  positionPadding := if "position_padding" ∈ keys then m.positionPadding else base.positionPadding
  groupPadding := if "group_padding" ∈ keys then m.groupPadding else base.groupPadding
  groupGap := if "group_gap" ∈ keys then m.groupGap else base.groupGap
  crossAxisCap := if "cross_axis_cap" ∈ keys then m.crossAxisCap else base.crossAxisCap
  lineHeight := if "line_height" ∈ keys then m.lineHeight else base.lineHeight
  unlistedAdvance :=
    if "default_char_width_ratio" ∈ keys then m.unlistedAdvance else base.unlistedAdvance

def Defaults.overlay (d base : Defaults α) : Defaults α where
  fontFamily := if "font_family" ∈ keys then d.fontFamily else base.fontFamily
  fontSize := if "font_size" ∈ keys then d.fontSize else base.fontSize
  textColor := if "text_color" ∈ keys then d.textColor else base.textColor
  shapeColor := if "shape_color" ∈ keys then d.shapeColor else base.shapeColor
  strokeWidth := if "stroke_width" ∈ keys then d.strokeWidth else base.strokeWidth
  arrowHeadSize := if "arrow_head_size" ∈ keys then d.arrowHeadSize else base.arrowHeadSize
  volume := if "volume" ∈ keys then d.volume else base.volume
  assetSize := if "generic_asset_size" ∈ keys then d.assetSize else base.assetSize
  imageSize := if "image_size" ∈ keys then d.imageSize else base.imageSize
  shapeSize := if "shape_intrinsic_size" ∈ keys then d.shapeSize else base.shapeSize
  groupTextAdvance :=
    if "group_text_char_width" ∈ keys then d.groupTextAdvance else base.groupTextAdvance
  textAnimation := if "text_animation" ∈ keys then d.textAnimation else base.textAnimation
  imageAnimation := if "image_animation" ∈ keys then d.imageAnimation else base.imageAnimation

theorem Measures.overlay_nil (m base : Measures α) : m.overlay [] base = base := by
  simp [overlay]

theorem Defaults.overlay_nil (d base : Defaults α) : d.overlay [] base = base := by
  simp [overlay]

def Config.overlay (engine defaults : List String) (c base : Config α) : Config α :=
  ⟨c.measures.overlay engine base.measures, c.defaults.overlay defaults base.defaults⟩

end Overlays

section Reals
variable {α : Type}

def Measures.reals (m : Measures α) : List α :=
  [m.positionPadding, m.groupPadding, m.groupGap, m.crossAxisCap, m.lineHeight, m.unlistedAdvance]

def Config.reals (c : Config α) : List α :=
  c.measures.reals ++
    [c.defaults.fontSize, c.defaults.strokeWidth, c.defaults.arrowHeadSize, c.defaults.volume,
      c.defaults.groupTextAdvance] ++
    c.defaults.assetSize.reals ++ c.defaults.imageSize.reals ++ c.defaults.shapeSize.reals

end Reals

variable {P : Float → Prop} {d : Nat}

theorem Size.lawful : Size.record.Lawful := ⟨by decide, by simp [Size.record]⟩

theorem Measures.lawful : Measures.record.Lawful := ⟨by decide, by simp [Measures.record]⟩

theorem Defaults.lawful : Defaults.record.Lawful := ⟨by decide, by simp [Defaults.record]⟩

theorem Config.lawful : Config.record.Lawful := ⟨by decide, by simp [Config.record]⟩

theorem Size.keepsReordered {s : Size Float} (h : ∀ x ∈ s.reals, P x) :
    Size.record.codec.KeepsReordered P (d + 1) s := by
  simp only [Size.reals, List.forall_mem_cons] at h
  obtain ⟨hwidth, hheight, -⟩ := h
  exact Record.keepsReordered Size.lawful <|
    .required (.real hwidth) (by decide) <|
    .required (.real hheight) (by decide) <|
    .nil _

theorem Measures.overlays {m : Measures Float} (h : ∀ x ∈ m.reals, P x) (keys : List String) :
    Overlays P d keys m Measures.record.fields default (m.overlay keys default) := by
  simp only [Measures.reals, List.forall_mem_cons] at h
  obtain ⟨hposition, hpadding, hgap, hcap, hline, hadvance, -⟩ := h
  exact .defaulted (.real hposition) rfl <|
    .defaulted (.real hpadding) rfl <|
    .defaulted (.real hgap) rfl <|
    .defaulted (.real hcap) rfl <|
    .defaulted (.real hline) rfl <|
    .defaulted (.real hadvance) rfl <|
    .nil _

theorem Defaults.overlays {f : Defaults Float} {keys : List String}
    (h : ∀ x ∈ [f.fontSize, f.strokeWidth, f.arrowHeadSize, f.volume, f.groupTextAdvance], P x)
    (hasset : ∀ x ∈ f.assetSize.reals, P x) (himage : ∀ x ∈ f.imageSize.reals, P x)
    (hshape : ∀ x ∈ f.shapeSize.reals, P x) :
    Overlays P (d + 1) keys f Defaults.record.fields default (f.overlay keys default) := by
  simp only [List.forall_mem_cons] at h
  obtain ⟨hfont, hstroke, hhead, hvolume, hadvance, -⟩ := h
  exact .defaulted (.string _) rfl <|
    .defaulted (.real hfont) rfl <|
    .defaulted (.string _) rfl <|
    .defaulted (.string _) rfl <|
    .defaulted (.real hstroke) rfl <|
    .defaulted (.real hhead) rfl <|
    .defaulted (.real hvolume) rfl <|
    .defaulted (Size.keepsReordered hasset) rfl <|
    .defaulted (Size.keepsReordered himage) rfl <|
    .defaulted (Size.keepsReordered hshape) rfl <|
    .defaulted (.real hadvance) rfl <|
    .defaulted (.string _) rfl <|
    .defaulted (.string _) rfl <|
    .nil _

namespace Config

/-- The document of a configuration that gives the settings under some keys. A section is left out,
or has the settings that are chosen, which may be none. -/
def excerpt (engine defaults : Option (List String)) (c : Config Float) : Json :=
  .record ((engine.map fun keys => ("engine", Measures.record.excerpt keys c.measures)).toList ++
    (defaults.map fun keys => ("defaults", Defaults.record.excerpt keys c.defaults)).toList)

variable {c : Config Float} {engine defaults : Option (List String)} {j : Json}

theorem under_engine : Json.under "engine" (Json.named
    ((engine.map fun keys => ("engine", Measures.record.excerpt keys c.measures)).toList ++
      (defaults.map fun keys => ("defaults", Defaults.record.excerpt keys c.defaults)).toList)) =
    (engine.map fun keys => Measures.record.excerpt keys c.measures).toList := by
  cases engine <;> cases defaults <;> rfl

theorem under_defaults : Json.under "defaults" (Json.named
    ((engine.map fun keys => ("engine", Measures.record.excerpt keys c.measures)).toList ++
      (defaults.map fun keys => ("defaults", Defaults.record.excerpt keys c.defaults)).toList)) =
    (defaults.map fun keys => Defaults.record.excerpt keys c.defaults).toList := by
  cases engine <;> cases defaults <;> rfl

theorem overlays_measures (h : ∀ x ∈ c.reals, P x) (keys : List String) :
    Overlays P d keys c.measures Measures.record.fields default
      (c.measures.overlay keys default) := by
  simp only [reals, List.forall_mem_append] at h
  exact Measures.overlays h.1.1.1.1 keys

theorem overlays_defaults (h : ∀ x ∈ c.reals, P x) (keys : List String) :
    Overlays P (d + 1) keys c.defaults Defaults.record.fields default
      (c.defaults.overlay keys default) := by
  simp only [reals, List.forall_mem_append] at h
  obtain ⟨⟨⟨⟨-, hnumbers⟩, hasset⟩, himage⟩, hshape⟩ := h
  exact Defaults.overlays hnumbers hasset himage hshape

theorem written_excerpt (h : ∀ x ∈ c.reals, P x) (engine defaults : Option (List String)) :
    Json.Written P (d + 3) (c.excerpt engine defaults) := by
  refine .record fun e he => ?_
  rcases List.mem_append.mp he with he | he
  · obtain ⟨keys, -, rfl⟩ := Option.map_eq_some_iff.mp (Option.mem_toList.mp he)
    exact Record.written_excerpt (overlays_measures h keys)
  · obtain ⟨keys, -, rfl⟩ := Option.map_eq_some_iff.mp (Option.mem_toList.mp he)
    exact Record.written_excerpt (overlays_defaults h keys)

theorem read_excerpt (hj : (c.excerpt engine defaults).Reordered j) (o : Origin) :
    record.codec.read o j =
      .ok (c.overlay (engine.getD []) (defaults.getD []) default) := by
  have hany : ∀ x ∈ c.reals, True := fun _ _ => trivial
  have hwritten := (written_excerpt (d := 0) hany engine defaults).reordered hj
  obtain ⟨fs, rfl, hunder⟩ := hj.exists_under
  have hengine := hunder "engine" (by rw [under_engine]; cases engine <;> simp)
  have hdefaults := hunder "defaults" (by rw [under_defaults]; cases defaults <;> simp)
  rw [under_engine] at hengine
  rw [under_defaults] at hdefaults
  have hmeasures := Record.read_section (v := fun keys => c.measures.overlay keys default)
    Measures.lawful (overlays_measures (d := 0) hany) (Measures.overlay_nil _ _) hengine o
  have hrest := Record.read_section (v := fun keys => c.defaults.overlay keys default)
    Defaults.lawful (overlays_defaults (d := 0) hany) (Defaults.overlay_nil _ _) hdefaults o
  refine (Record.read_record_eq_ok_iff lawful hwritten).mpr ?_
  refine (Gathers.defaulted_iff rfl).mpr ⟨_, _, _, rfl, hmeasures, ?_⟩
  refine (Gathers.defaulted_iff rfl).mpr ⟨_, _, _, rfl, hrest, ?_⟩
  exact Gathers.nil_iff.mpr ⟨rfl, rfl⟩

theorem overlay_keys (c base : Config Float) :
    c.overlay (Measures.record.fields.map Field.key) (Defaults.record.fields.map Field.key) base =
      c := by
  simp [overlay, Measures.overlay, Defaults.overlay, Measures.record, Defaults.record,
    Field.defaulted, Field.required]

theorem excerpt_keys (c : Config Float) :
    c.excerpt (some (Measures.record.fields.map Field.key))
      (some (Defaults.record.fields.map Field.key)) = record.codec.write c := by
  have hmeasures := Record.excerpt_of_forall_mem (r := Measures.record) (fun _ h => h) c.measures
  have hdefaults := Record.excerpt_of_forall_mem (r := Defaults.record) (fun _ h => h) c.defaults
  simp only [excerpt, Option.map_some, hmeasures, hdefaults]
  rfl

/-- A document that gives some settings of a configuration, in any order, is read as the defaults
with these settings changed, from the text that the library writes for it and from any other. A
document that gives all settings is that of the configuration itself. -/
theorem ofText_excerpt (hfinite : AllFinite c.reals)
    (hnumbers : ∀ x ∈ c.reals, x.isFinite = true → Json.Rereads x) :
    (∀ (engine defaults : Option (List String)) (j : Json),
      (c.excerpt engine defaults).Reordered j →
        ∀ text : String, text = j.pretty ∨ (Json.scan text.toList).1 = j ∧
            ((Json.scan text.toList).2.getD []).all Json.isBlank = true →
          ofText text = .ok (c.overlay (engine.getD []) (defaults.getD []) default)) ∧
    ofText (record.codec.toText c) = .ok c := by
  have hreals : ∀ x ∈ c.reals, Json.Rereads x := fun x hx => hnumbers x hx (hfinite x hx)
  have htext : ∀ (engine defaults : Option (List String)) (j : Json),
      (c.excerpt engine defaults).Reordered j →
        ∀ text : String, text = j.pretty ∨ (Json.scan text.toList).1 = j ∧
            ((Json.scan text.toList).2.getD []).all Json.isBlank = true →
          ofText text = .ok (c.overlay (engine.getD []) (defaults.getD []) default) := by
    intro engine defaults j hj text h
    have hscan : (Json.scan text.toList).1 = j ∧
        ((Json.scan text.toList).2.getD []).all Json.isBlank = true := by
      rcases h with rfl | hscan
      · rw [Json.scan_pretty ((written_excerpt (d := 0) hreals engine defaults).reordered hj)]
        exact ⟨rfl, rfl⟩
      · exact hscan
    refine mapError_eq_ok_iff.mpr (Codec.ofText_eq_ok_iff.mpr ⟨?_, hscan.2⟩)
    rw [hscan.1]
    exact read_excerpt hj .document
  refine ⟨htext, ?_⟩
  have hall := htext (some (Measures.record.fields.map Field.key))
    (some (Defaults.record.fields.map Field.key)) _ (.refl _) _ (.inl rfl)
  rwa [Option.getD_some, Option.getD_some, overlay_keys, excerpt_keys] at hall

/-- Wide gaps, and smaller images after the default font. -/
def airy : Config Float :=
  let measures : Measures Float := default
  let defaults : Defaults Float := default
  ⟨{ measures with groupGap := 80.5 }, { defaults with imageSize := ⟨320.0, 240.0⟩ }⟩

theorem airy_overlaid :
    let size : Json := .record [("height", .float 240.0), ("width", .float 320.0)]
    AllFinite airy.reals ∧ (∀ x ∈ airy.reals, x.isFinite = true → Json.Rereads x) ∧
      ofText (Json.record [("defaults", .record [("image_size", size)]),
        ("engine", .record [("group_gap", .float 80.5)])]).pretty = .ok airy := by
  intro size
  have hfinite : AllFinite airy.reals := by decide +kernel
  have hnumbers : ∀ x ∈ airy.reals, x.isFinite = true → Json.Rereads x := by decide +kernel
  have hsize : (Json.record [("width", .float 320.0), ("height", .float 240.0)]).Reordered size :=
    .record rfl (.cons (.refl _) (.cons (.refl _) .nil)) (.swap _ _ _)
  have hdefaults : (Defaults.record.excerpt ["image_size"] airy.defaults).Reordered
      (.record [("image_size", size)]) :=
    @Json.Reordered.record _ [("image_size", size)] _ rfl (.cons hsize .nil) (.refl _)
  have hreordered : (airy.excerpt (some ["group_gap"]) (some ["image_size"])).Reordered
      (.record [("defaults", .record [("image_size", size)]),
        ("engine", .record [("group_gap", .float 80.5)])]) :=
    @Json.Reordered.record _ [("engine", .record [("group_gap", .float 80.5)]),
      ("defaults", .record [("image_size", size)])] _
      rfl (.cons (.refl _) (.cons hdefaults .nil)) (.swap _ _ _)
  exact ⟨hfinite, hnumbers, (ofText_excerpt hfinite hnumbers).1 _ _ _ hreordered _ (.inl rfl)⟩

end Config
end Storyboard
