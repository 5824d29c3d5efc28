import Storyboard.Proofs.Composition
import Storyboard.Proofs.Cue

set_option autoImplicit false

namespace Storyboard
variable {α β : Type}

/-- An optional field left as it is, or filled in where it was absent. -/
inductive FilledBy (d : β) : Option β → Option β → Prop where
  | same (x : Option β) : FilledBy d x x
  | filled : FilledBy d none (some d)

theorem FilledBy.getD_eq {d : β} {x y : Option β} (h : FilledBy d x y) : y.getD d = x.getD d := by
  cases h <;> rfl

theorem filledBy_some_getD (d : β) (x : Option β) : FilledBy d x (some (x.getD d)) := by
  cases x with
  | none => exact .filled
  | some b => exact .same (some b)

section Relations
variable [Scalar α]

inductive Placing.Filled (l : Placing α) : Placing α → Prop where
  | mk {region : Option Region} {size : Option SizeHint} {offset : Option (Point α)}
    (hregion : FilledBy .full l.region region) (hsize : FilledBy .auto l.size size)
    (hoffset : FilledBy ⟨0.0, 0.0⟩ l.offset offset) : Filled l { l with region, size, offset }

/-- The layout of a group takes its gap and its padding from the measures of the stage. -/
inductive Flow.Filled (m : Measures α) (l : Flow α) : Flow α → Prop where
  | mk {region : Option Region} {justify : Option Justify} {align : Option Align}
    {sizing : Option Sizing} {gap padding : Option α}
    (hregion : FilledBy .full l.region region) (hjustify : FilledBy .center l.justify justify)
    (halign : FilledBy .center l.align align) (hsizing : FilledBy .uniform l.sizing sizing)
    (hgap : FilledBy m.groupGap l.gap gap) (hpadding : FilledBy m.groupPadding l.padding padding) :
    Filled m l { l with region, justify, align, sizing, gap, padding }

inductive ShapePlacing.Filled : ShapePlacing α → ShapePlacing α → Prop where
  | between (c : Connection) : Filled (.between c) (.between c)
  | inside {l l' : Placing α} (h : l.Filled l') : Filled (.inside l) (.inside l')

end Relations

def Compiler.config (c : Compiler α) : Config α := ⟨c.stage.measures, c.defaults⟩

inductive Soundtrack.Filled (d : Defaults α) (t : Soundtrack α) : Soundtrack α → Prop where
  | mk {volume : Option α} (hvolume : FilledBy d.volume t.volume volume) :
    Filled d t { t with volume }

/-- An item of a group may also be given the times of the group. -/
inductive Item.Filled (d : Defaults α) (g : Group α) (i : Item α) : Item α → Prop where
  | svg (hkind : i.kind = .svg) {start duration : Option α}
    (hstart : FilledBy g.start i.start start) (hduration : FilledBy g.duration i.duration duration) :
    Filled d g i { i with start, duration }
  | image (hkind : i.kind = .image) {start duration : Option α} {animation : Option String}
    (hstart : FilledBy g.start i.start start) (hduration : FilledBy g.duration i.duration duration)
    (hanimation : FilledBy d.imageAnimation i.animation animation) :
    Filled d g i { i with start, duration, animation }
  | text (hkind : i.kind = .text) {start duration fontSize : Option α}
    {color fontFamily animation : Option String}
    (hstart : FilledBy g.start i.start start) (hduration : FilledBy g.duration i.duration duration)
    (hcolor : FilledBy d.textColor i.color color) (hfontSize : FilledBy d.fontSize i.fontSize fontSize)
    (hfontFamily : FilledBy d.fontFamily i.fontFamily fontFamily)
    (hanimation : FilledBy d.textAnimation i.animation animation) :
    Filled d g i { i with start, duration, color, fontSize, fontFamily, animation }

section Contents
variable [Scalar α]

/-- An svg has no animation but its own, so there is none to fill in. -/
inductive Element.Filled (c : Config α) : Element α → Element α → Prop where
  | svg {e : Picture α} {layout : Placing α} (hlayout : e.layout.Filled layout) :
    Filled c (.svg e) (.svg { e with layout })
  | image {e : Picture α} {layout : Placing α} {animation : Option String}
    (hlayout : e.layout.Filled layout)
    (hanimation : FilledBy c.defaults.imageAnimation e.animation animation) :
    Filled c (.image e) (.image { e with layout, animation })
  | text {e : TextLine α} {layout : Placing α} {color fontFamily animation : Option String}
    {fontSize : Option α} (hlayout : e.layout.Filled layout)
    (hcolor : FilledBy c.defaults.textColor e.color color)
    (hfontSize : FilledBy c.defaults.fontSize e.fontSize fontSize)
    (hfontFamily : FilledBy c.defaults.fontFamily e.fontFamily fontFamily)
    (hanimation : FilledBy c.defaults.textAnimation e.animation animation) :
    Filled c (.text e) (.text { e with layout, color, fontSize, fontFamily, animation })
  | shape {e : Figure α} {layout : ShapePlacing α} {color : Option String} {fill : Option Bool}
    {strokeWidth arrowHeadSize : Option α} (hlayout : e.layout.Filled layout)
    (hcolor : FilledBy c.defaults.shapeColor e.color color) (hfill : FilledBy false e.fill fill)
    (hstrokeWidth : FilledBy c.defaults.strokeWidth e.strokeWidth strokeWidth)
    (harrowHeadSize : FilledBy c.defaults.arrowHeadSize e.arrowHeadSize arrowHeadSize) :
    Filled c (.shape e) (.shape { e with layout, color, fill, strokeWidth, arrowHeadSize })
  | group {g : Group α} {layout : Flow α} {items : List (Item α)}
    (hlayout : g.layout.Filled c.measures layout)
    (hitems : List.Forall₂ (Item.Filled c.defaults g) g.items items) :
    Filled c (.group g) (.group { g with layout, items })

def Scene.Filled (c : Config α) (s t : Scene α) : Prop :=
  ∃ audio elements, Option.Rel (Soundtrack.Filled c.defaults) s.audio audio ∧
    List.Forall₂ (Element.Filled c) s.elements elements ∧ t = { s with audio, elements }

/-- The same spec, with any of the fields that it leaves out filled in with their defaults. -/
def Spec.Filled (c : Config α) (s t : Spec α) : Prop :=
  ∃ scenes, List.Forall₂ (Scene.Filled c) s.scenes scenes ∧ t = { s with scenes }

end Contents

section Fill

def Flow.fill (m : Measures α) (l : Flow α) : Flow α :=
  { l with
    region := some (l.region.getD .full)
    justify := some (l.justify.getD .center)
    align := some (l.align.getD .center)
    sizing := some (l.sizing.getD .uniform)
    gap := some (l.gap.getD m.groupGap)
    padding := some (l.padding.getD m.groupPadding) }

def Item.fill (d : Defaults α) (g : Group α) (i : Item α) : Item α :=
  let start := some (i.start.getD g.start)
  let duration := some (i.duration.getD g.duration)
  match i.kind with
  | .svg => { i with start, duration }
  | .image => { i with start, duration, animation := some (i.animation.getD d.imageAnimation) }
  | .text =>
    { i with
      start
      duration
      color := some (i.color.getD d.textColor)
      fontSize := some (i.fontSize.getD d.fontSize)
      fontFamily := some (i.fontFamily.getD d.fontFamily)
      animation := some (i.animation.getD d.textAnimation) }

theorem Flow.filled_fill (m : Measures α) (l : Flow α) : l.Filled m (l.fill m) :=
  .mk (filledBy_some_getD _ _) (filledBy_some_getD _ _) (filledBy_some_getD _ _)
    (filledBy_some_getD _ _) (filledBy_some_getD _ _) (filledBy_some_getD _ _)

theorem Item.filled_fill (d : Defaults α) (g : Group α) (i : Item α) : i.Filled d g (i.fill d g) := by
  unfold fill
  split
  case h_1 hkind => exact .svg hkind (filledBy_some_getD _ _) (filledBy_some_getD _ _)
  case h_2 hkind =>
    exact .image hkind (filledBy_some_getD _ _) (filledBy_some_getD _ _) (filledBy_some_getD _ _)
  case h_3 hkind =>
    exact .text hkind (filledBy_some_getD _ _) (filledBy_some_getD _ _) (filledBy_some_getD _ _)
      (filledBy_some_getD _ _) (filledBy_some_getD _ _) (filledBy_some_getD _ _)

variable [Scalar α]

def Placing.fill (l : Placing α) : Placing α :=
  { l with
    region := some (l.region.getD .full)
    size := some (l.size.getD .auto)
    offset := some (l.offset.getD ⟨0.0, 0.0⟩) }

def ShapePlacing.fill : ShapePlacing α → ShapePlacing α
  | .between c => .between c
  | .inside l => .inside l.fill

def Element.fill (c : Config α) : Element α → Element α
  | .svg e => .svg { e with layout := e.layout.fill }
  | .image e =>
    .image { e with
      layout := e.layout.fill
      animation := some (e.animation.getD c.defaults.imageAnimation) }
  | .text e =>
    .text { e with
      layout := e.layout.fill
      color := some (e.color.getD c.defaults.textColor)
      fontSize := some (e.fontSize.getD c.defaults.fontSize)
      fontFamily := some (e.fontFamily.getD c.defaults.fontFamily)
      animation := some (e.animation.getD c.defaults.textAnimation) }
  | .shape e =>
    .shape { e with
      layout := e.layout.fill
      color := some (e.color.getD c.defaults.shapeColor)
      fill := some (e.fill.getD false)
      strokeWidth := some (e.strokeWidth.getD c.defaults.strokeWidth)
      arrowHeadSize := some (e.arrowHeadSize.getD c.defaults.arrowHeadSize) }
  | .group g =>
    .group { g with layout := g.layout.fill c.measures, items := g.items.map (Item.fill c.defaults g) }

def Scene.fill (c : Config α) (s : Scene α) : Scene α :=
  { s with
    audio := s.audio.map fun t => { t with volume := some (t.volume.getD c.defaults.volume) }
    elements := s.elements.map (Element.fill c) }

def Spec.fill (c : Config α) (s : Spec α) : Spec α :=
  { s with scenes := s.scenes.map (Scene.fill c) }

theorem Placing.filled_fill (l : Placing α) : l.Filled l.fill :=
  .mk (filledBy_some_getD _ _) (filledBy_some_getD _ _) (filledBy_some_getD _ _)

theorem ShapePlacing.filled_fill (l : ShapePlacing α) : l.Filled l.fill := by
  cases l with
  | between c => exact .between c
  | inside l => exact .inside l.filled_fill

theorem Element.filled_fill (c : Config α) (e : Element α) : e.Filled c (e.fill c) := by
  cases e with
  | svg e => exact .svg e.layout.filled_fill
  | image e => exact .image e.layout.filled_fill (filledBy_some_getD _ _)
  | text e =>
    exact .text e.layout.filled_fill (filledBy_some_getD _ _) (filledBy_some_getD _ _)
      (filledBy_some_getD _ _) (filledBy_some_getD _ _)
  | shape e =>
    exact .shape e.layout.filled_fill (filledBy_some_getD _ _) (filledBy_some_getD _ _)
      (filledBy_some_getD _ _) (filledBy_some_getD _ _)
  | group g =>
    refine .group (g.layout.filled_fill c.measures) (List.forall₂_map_right_iff.mpr ?_)
    exact List.forall₂_same.mpr fun i _ => i.filled_fill c.defaults g

theorem Scene.filled_fill (c : Config α) (s : Scene α) : s.Filled c (s.fill c) := by
  refine ⟨_, _, ?_, List.forall₂_map_right_iff.mpr ?_, rfl⟩
  · cases s.audio with
    | none => exact .none
    | some t => exact .some (.mk (filledBy_some_getD _ _))
  · exact List.forall₂_same.mpr fun e _ => e.filled_fill c

theorem Spec.filled_fill (c : Config α) (s : Spec α) : s.Filled c (s.fill c) :=
  ⟨_, List.forall₂_map_right_iff.mpr (List.forall₂_same.mpr fun scene _ => scene.filled_fill c), rfl⟩

end Fill

theorem Compiler.soundtrack_filled {c : Compiler α} {scene : Scene α} {t t' : Soundtrack α}
    (h : t.Filled c.defaults t') : c.soundtrack scene t' = c.soundtrack scene t := by
  obtain ⟨hvolume⟩ := h
  simp only [soundtrack, hvolume.getD_eq]

variable [Scalar α]

section Layouts
variable {s : Stage α}

theorem Placing.Filled.origin_eq {l l' : Placing α} (h : l.Filled l') (size : Size α) :
    s.origin l' size = s.origin l size := by
  obtain @⟨region, _, _, hregion, -, hoffset⟩ := h
  have hregion : region.getD default = l.region.getD default := hregion.getD_eq
  simp only [Stage.origin, hregion, hoffset.getD_eq]

theorem Placing.Filled.room_eq {l l' : Placing α} (h : l.Filled l') : s.room l' = s.room l := by
  obtain @⟨region, size, _, hregion, hsize, -⟩ := h
  have hregion : region.getD default = l.region.getD default := hregion.getD_eq
  have hsize : size.getD default = l.size.getD default := hsize.getD_eq
  simp only [Stage.room, hregion, hsize]

theorem Placing.Filled.fit_eq {l l' : Placing α} (h : l.Filled l') (size : Size α) :
    s.fit l' size = s.fit l size := by
  simp only [Stage.fit, h.room_eq, h.origin_eq]

theorem Placing.Filled.placeText_eq {l l' : Placing α} (h : l.Filled l') (text : String)
    (fontSize : α) (family : String) :
    s.placeText l' text fontSize family = s.placeText l text fontSize family := by
  simp only [Stage.placeText, h.origin_eq]

theorem Flow.Filled.arrange_eq {l l' : Flow α} (h : l.Filled s.measures l')
    (items : List (Member α)) : s.arrange l' items = s.arrange l items := by
  obtain @⟨region, justify, align, sizing, _, _, hregion, hjustify, halign, hsizing, hgap, hpadding⟩ :=
    h
  have hregion : region.getD default = l.region.getD default := hregion.getD_eq
  have hjustify : justify.getD default = l.justify.getD default := hjustify.getD_eq
  have halign : align.getD default = l.align.getD default := halign.getD_eq
  have hsizing : sizing.getD default = l.sizing.getD default := hsizing.getD_eq
  simp only [Stage.arrange, Stage.groupSizes, Stage.content, hregion, hjustify, halign, hsizing,
    hgap.getD_eq, hpadding.getD_eq]

end Layouts

namespace Compiler
variable {c : Compiler α} {sizes : Sizes α} {scene : Scene α}

section Group
variable {g : Group α}

theorem itemSize?_filled {i i' : Item α} (h : i.Filled c.defaults g i') :
    c.itemSize? sizes i' = c.itemSize? sizes i := by
  cases h with
  | svg => rfl
  | image hkind => simp only [itemSize?, hkind]
  | text hkind _ _ _ hfontSize => simp only [itemSize?, hkind, hfontSize.getD_eq]

theorem itemDeed_filled {i i' : Item α} (h : i.Filled c.defaults g i') (f : Fitted α) :
    c.itemDeed scene g i' f = c.itemDeed scene g i f := by
  cases h with
  | svg hkind hstart hduration =>
    simp only [itemDeed, hkind, hstart.getD_eq, hduration.getD_eq]
  | image hkind hstart hduration hanimation =>
    simp only [itemDeed, imageDeed, hkind, hstart.getD_eq, hduration.getD_eq, hanimation.getD_eq]
  | text hkind hstart hduration hcolor hfontSize hfontFamily hanimation =>
    simp only [itemDeed, textDeed, hkind, hstart.getD_eq, hduration.getD_eq, hcolor.getD_eq,
      hfontSize.getD_eq, hfontFamily.getD_eq, hanimation.getD_eq]

theorem members_filled {items items' : List (Item α)}
    (h : List.Forall₂ (Item.Filled c.defaults g) items items') :
    List.Forall₂ (fun m m' => m.1.Filled c.defaults g m'.1 ∧ m'.2 = m.2) (c.members sizes items)
      (c.members sizes items') := by
  refine List.rel_filterMap ?_ (forall₂_zipIdx 0 h)
  rintro ⟨i, k⟩ ⟨i', k'⟩ ⟨hi, rfl⟩
  have hsize : c.itemSize? sizes i' = c.itemSize? sizes i := itemSize?_filled hi
  simp only [hsize]
  cases c.itemSize? sizes i with
  | none => exact .none
  | some size => exact .some ⟨hi, rfl⟩

theorem group_filled {layout : Flow α} {items : List (Item α)}
    (hlayout : g.layout.Filled c.stage.measures layout)
    (hitems : List.Forall₂ (Item.Filled c.defaults g) g.items items) :
    c.groupDeeds sizes scene { g with layout, items } = c.groupDeeds sizes scene g := by
  have hmembers : List.Forall₂ (fun m m' => m.1.Filled c.defaults g m'.1 ∧ m'.2 = m.2)
      (c.members sizes g.items) (c.members sizes items) := members_filled hitems
  have hcreate : (c.members sizes items).mapM (fun m => Member.create (itemId m.2.2) m.2.1) =
      (c.members sizes g.items).mapM fun m => Member.create (itemId m.2.2) m.2.1 := by
    symm
    refine mapM_eq_of_forall₂ (hmembers.imp ?_)
    rintro m m' ⟨-, hm⟩
    rw [hm]
  have hdeeds (places : Table (Fitted α)) :
      ((c.members sizes items).filterMap fun m =>
          (places.get? (itemId m.2.2)).map (c.itemDeed scene { g with layout, items } m.1)) =
        (c.members sizes g.items).filterMap fun m =>
          (places.get? (itemId m.2.2)).map (c.itemDeed scene g m.1) := by
    symm
    refine filterMap_eq_of_forall₂ (hmembers.imp ?_)
    rintro m m' ⟨hitem, hm⟩
    have hdeed : c.itemDeed scene { g with layout, items } m'.1 = c.itemDeed scene g m.1 :=
      funext fun f => itemDeed_filled hitem f
    rw [hm, hdeed]
  simp only [groupDeeds, places, Stage.placesById, hlayout.arrange_eq, hcreate, hdeeds]

end Group

section Elements
variable {layout : Placing α} {color fontFamily animation : Option String} {fontSize : Option α}

theorem image_filled {e : Picture α} (hlayout : e.layout.Filled layout)
    (hanimation : FilledBy c.defaults.imageAnimation e.animation animation) :
    c.image sizes scene { e with layout, animation } = c.image sizes scene e := by
  simp only [image, imageDeed, hlayout.fit_eq, hanimation.getD_eq]

theorem text_filled {e : TextLine α} (hlayout : e.layout.Filled layout)
    (hcolor : FilledBy c.defaults.textColor e.color color)
    (hfontSize : FilledBy c.defaults.fontSize e.fontSize fontSize)
    (hfontFamily : FilledBy c.defaults.fontFamily e.fontFamily fontFamily)
    (hanimation : FilledBy c.defaults.textAnimation e.animation animation) :
    c.text scene { e with layout, color, fontSize, fontFamily, animation } = c.text scene e := by
  simp only [text, textDeed, hlayout.placeText_eq, hcolor.getD_eq, hfontSize.getD_eq,
    hfontFamily.getD_eq, hanimation.getD_eq]

theorem shape_filled {e : Figure α} {layout : ShapePlacing α} {fill : Option Bool}
    {strokeWidth arrowHeadSize : Option α} (hlayout : e.layout.Filled layout)
    (hcolor : FilledBy c.defaults.shapeColor e.color color) (hfill : FilledBy false e.fill fill)
    (hstrokeWidth : FilledBy c.defaults.strokeWidth e.strokeWidth strokeWidth)
    (harrowHeadSize : FilledBy c.defaults.arrowHeadSize e.arrowHeadSize arrowHeadSize) :
    c.shape scene { e with layout, color, fill, strokeWidth, arrowHeadSize } = c.shape scene e := by
  have hdeed (p : Point α) :
      c.shapeDeed scene { e with layout, color, fill, strokeWidth, arrowHeadSize } p =
        c.shapeDeed scene e p := by
    simp only [shapeDeed, hcolor.getD_eq, hfill.getD_eq, hstrokeWidth.getD_eq]
  have hclosed :
      c.closedDeed scene { e with layout, color, fill, strokeWidth, arrowHeadSize } =
        c.closedDeed scene e := by
    funext f
    simp only [closedDeed, hdeed]
  have hconnector (connection : Connection) :
      c.connectorDeed scene { e with layout, color, fill, strokeWidth, arrowHeadSize } connection =
        c.connectorDeed scene e connection := by
    simp only [connectorDeed, hdeed, harrowHeadSize.getD_eq]
  unfold shape
  cases hl : e.layout with
  | between connection =>
    rw [hl] at hlayout
    cases hlayout
    cases e.shape.isOpen <;> simp only [hconnector]
  | inside l =>
    rw [hl] at hlayout
    cases hlayout with
    | inside h => cases e.shape.isOpen <;> simp only [h.fit_eq, hclosed]

end Elements

theorem element_filled {e e' : Element α} (h : e.Filled c.config e') :
    c.elementDeeds sizes scene e' = c.elementDeeds sizes scene e := by
  cases h with
  | svg hlayout => simp only [elementDeeds, svg, hlayout.fit_eq]
  | image hlayout hanimation => exact congrArg (Except.map _) (image_filled hlayout hanimation)
  | text hlayout hcolor hfontSize hfontFamily hanimation =>
    exact congrArg (Except.map _) (text_filled hlayout hcolor hfontSize hfontFamily hanimation)
  | shape hlayout hcolor hfill hstrokeWidth harrowHeadSize =>
    exact congrArg (Except.map _) (shape_filled hlayout hcolor hfill hstrokeWidth harrowHeadSize)
  | group hlayout hitems => exact group_filled hlayout hitems

theorem scene_filled {s t : Scene α} (h : s.Filled c.config t) :
    c.sceneDeeds sizes t = c.sceneDeeds sizes s := by
  obtain ⟨audio, elements, haudio, helements, rfl⟩ := h
  have hdrawn : elements.mapM (c.elementDeeds sizes { s with audio, elements }) =
      s.elements.mapM (c.elementDeeds sizes s) := by
    symm
    refine mapM_eq_of_forall₂ (helements.imp fun e e' he => ?_)
    exact ((element_of_scene s audio elements e').trans (element_filled he)).symm
  have hsound : audio.map (c.soundtrack { s with audio, elements }) =
      s.audio.map (c.soundtrack s) := by
    generalize s.audio = before at haudio ⊢
    cases haudio with
    | none => rfl
    | some ht => exact congrArg some (soundtrack_filled ht)
  simp only [sceneDeeds, hdrawn, hsound]

theorem compileWith_of_filled {s t : Spec α} (h : s.Filled c.config t) :
    c.compileWith sizes t = c.compileWith sizes s := by
  obtain ⟨scenes, hscenes, rfl⟩ := h
  have hredrawn : List.Forall₂ Scene.Redrawn s.scenes scenes :=
    hscenes.imp fun _ _ ⟨audio, elements, _, _, hs⟩ => ⟨audio, elements, hs⟩
  have hdeeds : scenes.mapM (c.sceneDeeds sizes) = s.scenes.mapM (c.sceneDeeds sizes) := by
    symm
    exact mapM_eq_of_forall₂ (hscenes.imp fun _ _ hs => (scene_filled hs).symm)
  simp only [compileWith_eq, hdeeds, info_redrawn hredrawn, ← playAll_redrawn hredrawn]

/-- A spec compiles as it does with any of the fields that it leaves out filled in, also with all of
them, to the same project or with the same fault. -/
theorem compile_filled (c : Compiler α) (s : Spec α) :
    (∀ t, s.Filled c.config t →
      (∀ sizes, c.compileWith sizes t = c.compileWith sizes s) ∧ c.compile t = c.compile s) ∧
    s.Filled c.config (s.fill c.config) := by
  refine ⟨fun t h => ?_, s.filled_fill c.config⟩
  have hassets : t.assets = s.assets := by
    obtain ⟨scenes, -, rfl⟩ := h
    rfl
  refine ⟨fun sizes => compileWith_of_filled h, ?_⟩
  unfold compile
  rw [hassets, compileWith_of_filled h]

theorem sample_filled :
    let c : Compiler Rat := plain ⟨1920, 1080⟩
    let full := Spec.sample.fill c.config
    Spec.sample.Filled c.config full ∧ full ≠ Spec.sample ∧
      ∃ p, c.compile Spec.sample = .ok p ∧ c.compile full = .ok p := by
  intro c full
  have h : (c.compile Spec.sample).toOption.isSome := by decide +kernel
  obtain ⟨p, hp⟩ := isSome_toOption_iff.mp h
  obtain ⟨hsame, hfull⟩ := compile_filled c Spec.sample
  refine ⟨hfull, by decide +kernel, p, hp, ?_⟩
  rw [(hsame full hfull).2, hp]

end Compiler
end Storyboard
