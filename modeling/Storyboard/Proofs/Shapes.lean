import Storyboard.Proofs.Compiler

set_option autoImplicit false

namespace Storyboard
variable {α : Type}

def Element.figure? : Element α → Option (Figure α)
  | .shape e => some e
  | .svg _ | .text _ | .image _ | .group _ => none

def Scene.figures (s : Scene α) : List (Figure α) := s.elements.filterMap Element.figure?

def Deed.shape? : Deed α → Option (ShapeDeed α)
  | .shape d => some d
  | .svg _ | .text _ | .image _ | .audio _ => none

def PlayedScene.shapes (p : PlayedScene α) : List (ShapeDeed α) :=
  p.actions.filterMap fun a => a.deed.shape?

/-- Which measures a shape has is a matter of its kind. -/
structure ShapeDeed.Formed (d : ShapeDeed α) : Prop where
  x2 : d.x2.isSome ↔ d.shape = .line ∨ d.shape = .arrow
  y2 : d.y2.isSome ↔ d.shape = .line ∨ d.shape = .arrow
  arrowHeadSize : d.arrowHeadSize.isSome ↔ d.shape = .arrow
  radius : d.radius.isSome ↔ d.shape = .circle
  width : d.width.isSome ↔ d.shape = .rectangle ∨ d.shape = .ellipse
  height : d.height.isSome ↔ d.shape = .rectangle ∨ d.shape = .ellipse
  points : d.points.isSome ↔ d.shape = .polygon

variable [Scalar α]

namespace Compiler

structure Joins (c : Compiler α) (connection : Connection) (d : ShapeDeed α) : Prop where
  source : (⟨d.x, d.y⟩ : PixelPoint) = .round (c.stage.connect connection).1
  x2 : d.x2 = some (Scalar.round (c.stage.connect connection).2.x)
  y2 : d.y2 = some (Scalar.round (c.stage.connect connection).2.y)

/-- A closed shape in a box, with one pixel for each vertex if it is a polygon. -/
structure Fills (f : Fitted α) (vertices : List (Point α)) (d : ShapeDeed α) : Prop where
  center : (⟨d.x, d.y⟩ : PixelPoint) = .round f.box.center
  vertices : ∀ pixels ∈ d.points, List.Forall₂ (fun (v : Point α) (p : PixelPoint) =>
    p = .round ⟨f.box.center.x + v.x * f.scale, f.box.center.y + v.y * f.scale⟩) vertices pixels

/-- The drawing of a figure. An arrow is filled and a line is not, whatever the figure says. -/
structure Renders (c : Compiler α) (e : Figure α) (d : ShapeDeed α) : Prop where
  shape : d.shape = e.shape
  formed : d.Formed
  arrow : e.shape = .arrow → d.fill = true
  line : e.shape = .line → d.fill = false
  closed : e.shape.isOpen = false → d.fill = e.fill.getD false
  joins : e.shape.isOpen = true → ∃ connection, e.layout = .between connection ∧
    c.Joins connection d
  fills : e.shape.isOpen = false → ∃ layout f, e.layout = .inside layout ∧
    c.stage.fit layout c.defaults.shapeSize = .ok f ∧ Fills f e.points d

variable {c : Compiler α} {sizes : Sizes α} {scene : Scene α}

theorem formed_connectorDeed {e : Figure α} (hopen : e.shape.isOpen = true)
    (connection : Connection) : (c.connectorDeed scene e connection).Formed := by
  cases hshape : e.shape with
  | line | arrow => constructor <;> simp [connectorDeed, shapeDeed, hshape]
  | circle | rectangle | ellipse | polygon => simp [hshape, Shape.isOpen] at hopen

theorem formed_closedDeed {e : Figure α} (hclosed : e.shape.isOpen = false) (f : Fitted α) :
    (c.closedDeed scene e f).Formed := by
  cases hshape : e.shape with
  | line | arrow => simp [hshape, Shape.isOpen] at hclosed
  | circle | rectangle | ellipse | polygon =>
    constructor <;> simp [closedDeed, shapeDeed, hshape]

theorem closedDeed_bare (c : Compiler α) (scene : Scene α) (e : Figure α) (f : Fitted α) :
    (c.closedDeed scene e f).shape = e.shape ∧
      (c.closedDeed scene e f).fill = e.fill.getD false ∧
      (⟨(c.closedDeed scene e f).x, (c.closedDeed scene e f).y⟩ : PixelPoint) =
        .round f.box.center := by
  unfold closedDeed
  dsimp only
  split <;> exact ⟨rfl, rfl, rfl⟩

theorem fills_closedDeed (e : Figure α) (f : Fitted α) :
    Fills f e.points (c.closedDeed scene e f) := by
  refine ⟨(closedDeed_bare _ _ e f).2.2, fun pixels hpixels => ?_⟩
  cases hshape : e.shape with
  | polygon =>
    have hpoints : pixels = e.points.map fun v => .round (f.box.center.move (v.scale f.scale)) := by
      simpa [closedDeed, hshape, eq_comm] using hpixels
    rw [hpoints, List.forall₂_map_right_iff, List.forall₂_same]
    exact fun v _ => rfl
  | line | arrow | circle | rectangle | ellipse =>
    simp [closedDeed, shapeDeed, hshape] at hpixels

theorem shape_renders {e : Figure α} {d : ShapeDeed α} (h : c.shape scene e = .ok d) :
    c.Renders e d := by
  unfold shape at h
  split at h
  · rename_i connection hlayout hopen
    cases h
    refine ⟨rfl, formed_connectorDeed hopen connection, fun harrow => ?_, fun hline => ?_,
      fun hclosed => ?_, fun _ => ⟨connection, hlayout, rfl, rfl, rfl⟩, fun hclosed => ?_⟩
    · simp [connectorDeed, harrow]
    · simp [connectorDeed, hline]
    · simp [hclosed] at hopen
    · simp [hclosed] at hopen
  · rename_i layout hlayout hclosed
    obtain ⟨f, hf, rfl⟩ := map_eq_ok_iff.mp h
    obtain ⟨hshape, hfill, -⟩ := closedDeed_bare c scene e f
    refine ⟨hshape, formed_closedDeed hclosed f, fun harrow => ?_, fun hline => ?_,
      fun _ => hfill, fun hopen => ?_, fun _ => ⟨layout, f, hlayout, hf, fills_closedDeed e f⟩⟩
    · simp [harrow, Shape.isOpen] at hclosed
    · simp [hline, Shape.isOpen] at hclosed
    · simp [hclosed] at hopen
  · cases h
  · cases h

theorem shape?_itemDeed (g : Group α) (item : Item α) (f : Fitted α) :
    (c.itemDeed scene g item f).shape? = none := by
  unfold itemDeed
  cases item.kind <;> rfl

theorem element_renders {e : Element α} {deeds : List (Deed α)}
    (h : c.elementDeeds sizes scene e = .ok deeds) :
    List.Forall₂ c.Renders e.figure?.toList (deeds.filterMap Deed.shape?) := by
  cases e with
  | svg e | text e | image e =>
    obtain ⟨d, -, rfl⟩ := map_eq_ok_iff.mp h
    exact .nil
  | shape e =>
    obtain ⟨d, hd, rfl⟩ := map_eq_ok_iff.mp h
    exact .cons (shape_renders hd) .nil
  | group g =>
    have hnone : deeds.filterMap Deed.shape? = [] := by
      rw [List.filterMap_eq_nil_iff]
      intro d hd
      obtain ⟨item, -, f, rfl⟩ := exists_item_of_group h d hd
      exact shape?_itemDeed g item f
    rw [hnone]
    exact .nil

theorem scene_renders {deeds : List (Deed α)} (h : c.sceneDeeds sizes scene = .ok deeds) :
    List.Forall₂ c.Renders scene.figures (deeds.filterMap Deed.shape?) := by
  obtain ⟨drawn, hdrawn, rfl⟩ := scene_eq_ok_iff.mp h
  have hsound : (scene.audio.map (c.soundtrack scene)).toList.filterMap Deed.shape? = [] := by
    cases scene.audio <;> rfl
  rw [List.filterMap_append, hsound, List.nil_append]
  unfold Scene.figures
  rw [List.filterMap_eq_flatMap_toList]
  clear h
  generalize scene.elements = elements at hdrawn
  induction hdrawn with
  | nil => exact .nil
  | @cons e deeds elements drawn he _ ih =>
    rw [List.flatten_cons, List.filterMap_append, List.flatMap_cons]
    exact List.rel_append (element_renders he) ih

/-- The shapes of a compiled scene are the drawings of the shapes of the scene, one each and in
order. -/
theorem compileWith_renders {s : Spec α} {p : Project α} (h : c.compileWith sizes s = .ok p) :
    List.Forall₂ (fun played scene => List.Forall₂ c.Renders scene.figures played.shapes) p.scenes
      s.scenes := by
  refine (forall₂_scenes_of_compileWith h).imp ?_
  rintro _ scene ⟨k, deeds, hdeeds, rfl⟩
  have hshapes : (scene.play k deeds).shapes = deeds.filterMap Deed.shape? := by
    conv_rhs => rw [← map_deed_play k scene deeds, List.filterMap_map]
    rfl
  rw [hshapes]
  exact scene_renders hdeeds

end Compiler

/-- A shape of every kind, between other elements. The line asks to be filled, the arrow not to be. -/
def Spec.gallery : Spec Rat where
  heading := ⟨"Gallery", "1", ⟨1920, 1080⟩, 30, none⟩
  assets := ⟨[⟨"cloud", "cloud.svg", ⟨200, 100⟩⟩], [⟨"voice", "voice.mp3"⟩], []⟩
  scenes :=
    let ends : ShapePlacing Rat := .between ⟨⟨.leftThird, .center⟩, ⟨.rightThird, .bottomRight⟩⟩
    let box : ShapePlacing Rat := .inside ⟨.topLeft, some .bottomBanner, some .xl, some ⟨5, -5⟩⟩
    let figure (shape : Shape) (layout : ShapePlacing Rat) (fill : Option Bool) : Element Rat :=
      .shape ⟨shape, layout, 0, 1, none, fill, none, none, [⟨-1, 0⟩, ⟨1 / 2, 3⟩, ⟨0, -4⟩]⟩
    [{ id := "wall", name := "Wall", start := 0, duration := 6, background := none
       audio := some ⟨"voice", none⟩
       elements := [
        figure .line ends (some true),
        figure .arrow ends (some false),
        .svg ⟨"cloud", ⟨.center, none, none, none⟩, 1, 5, none⟩,
        figure .circle box none,
        figure .rectangle box (some true),
        .group {
          layout := ⟨.row, none, none, none, none, none, none⟩
          items := [⟨.svg, some "cloud", none, none, none, none, none, none, none⟩]
          start := 2
          duration := 3 },
        figure .ellipse box (some false),
        figure .polygon box (some true)] }]

namespace Compiler

theorem gallery_renders :
    ∃ p, (plain ⟨1920, 1080⟩).compile Spec.gallery = .ok p ∧
      List.Forall₂ (fun played scene =>
        List.Forall₂ (plain ⟨1920, 1080⟩).Renders scene.figures played.shapes) p.scenes
        Spec.gallery.scenes ∧
      p.scenes.map (fun played => played.shapes.map ShapeDeed.fill) =
        [[false, true, false, true, false, true]] := by
  have h : ((plain ⟨1920, 1080⟩).compile Spec.gallery).toOption.any (fun p =>
      p.scenes.map (fun played => played.shapes.map ShapeDeed.fill) ==
        [[false, true, false, true, false, true]]) = true := by
    decide +kernel
  obtain ⟨p, hp, hfill⟩ := any_toOption_iff.mp h
  exact ⟨p, hp, compileWith_renders hp, beq_iff_eq.mp hfill⟩

end Compiler
end Storyboard
