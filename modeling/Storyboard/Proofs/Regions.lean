import Storyboard.Proofs.Anchors
import Storyboard.Proofs.Shapes

set_option autoImplicit false

namespace Storyboard

def Canvas.box (c : Canvas) : Box Rat := ⟨0, 0, c.width.toNat, c.height.toNat⟩

/-- A pixel between the edges of a canvas. The last edges count. -/
structure PixelPoint.On (p : PixelPoint) (c : Canvas) : Prop where
  x : 0 ≤ p.x.toInt ∧ p.x.toInt ≤ c.width.toNat
  y : 0 ≤ p.y.toInt ∧ p.y.toInt ≤ c.height.toNat

namespace Box

structure Holds (b : Box Rat) (p : Point Rat) : Prop where
  x : b.x ≤ p.x ∧ p.x ≤ b.x + b.width
  y : b.y ≤ p.y ∧ p.y ≤ b.y + b.height

/-- A point of a box. An edge that it shares with the next box along an axis belongs to that one. -/
structure Covers (b : Box Rat) (p : Point Rat) : Prop where
  x : b.x ≤ p.x ∧ p.x < b.x + b.width
  y : b.y ≤ p.y ∧ p.y < b.y + b.height

theorem Holds.of_within {a b : Box Rat} {p : Point Rat} (h : a.Holds p) (hab : a.Within b) :
    b.Holds p where
  x := ⟨hab.left.trans h.x.1, h.x.2.trans hab.right⟩
  y := ⟨hab.top.trans h.y.1, h.y.2.trans hab.bottom⟩

theorem holds_of_within_zero {b : Box Rat} {p : Point Rat}
    (h : ((⟨0, 0⟩ : Size Rat).boxAt p).Within b) : b.Holds p where
  x := ⟨h.left, by simpa [Size.boxAt] using h.right⟩
  y := ⟨h.top, by simpa [Size.boxAt] using h.bottom⟩

end Box

theorem PixelPoint.round_on {c : Canvas} {p : Point Rat} (h : c.box.Holds p) :
    (PixelPoint.round p).On c where
  x := Scalar.toInt_rat_round_mem h.x.1 (by simpa [Canvas.box] using h.x.2)
  y := Scalar.toInt_rat_round_mem h.y.1 (by simpa [Canvas.box] using h.y.2)

namespace Direction

def coordinate (d : Direction) (p : Point Rat) : Rat := (d.extent ⟨p.x, p.y⟩).main

theorem covers_iff (d : Direction) (b : Box Rat) (p : Point Rat) :
    b.Covers p ↔ (d.near b ≤ d.coordinate p ∧ d.coordinate p < d.far b) ∧
      (d.across.near b ≤ d.across.coordinate p ∧ d.across.coordinate p < d.across.far b) := by
  cases d with
  | row => exact ⟨fun ⟨hx, hy⟩ => ⟨hx, hy⟩, fun ⟨hx, hy⟩ => ⟨hx, hy⟩⟩
  | column => exact ⟨fun ⟨hx, hy⟩ => ⟨hy, hx⟩, fun ⟨hy, hx⟩ => ⟨hx, hy⟩⟩

/-- Boxes that part a stretch of an axis: each starts where the one before it ends. -/
def Tiles (d : Direction) : Rat → List (Box Rat) → Rat → Prop
  | start, [], stop => start = stop
  | start, b :: bs, stop => d.near b = start ∧ start ≤ d.far b ∧ d.Tiles (d.far b) bs stop

section Tiles
variable {d : Direction} {β : Type} {box : β → Box Rat} {start stop x : Rat} {bs : List β}

theorem Tiles.le_near (h : d.Tiles start (bs.map box) stop) :
    ∀ b ∈ bs, start ≤ d.near (box b) := by
  induction bs generalizing start with
  | nil => simp
  | cons b bs ih =>
    obtain ⟨hnear, hfar, hrest⟩ := h
    rw [List.forall_mem_cons]
    exact ⟨hnear.ge, fun b' hb' => hfar.trans (ih hrest b' hb')⟩

/-- No coordinate falls between two boxes, and none into two of them. -/
theorem Tiles.existsUnique (h : d.Tiles start (bs.map box) stop) (hstart : start ≤ x)
    (hstop : x < stop) : ∃! b, b ∈ bs ∧ d.near (box b) ≤ x ∧ x < d.far (box b) := by
  induction bs generalizing start with
  | nil =>
    have hempty : start = stop := h
    exact absurd (hempty ▸ hstart) (not_le.mpr hstop)
  | cons b bs ih =>
    obtain ⟨hnear, hfar, hrest⟩ := h
    by_cases hx : x < d.far (box b)
    · -- the boxes after this one start no earlier than it ends
      refine ⟨b, ⟨List.mem_cons_self, hnear.trans_le hstart, hx⟩, ?_⟩
      rintro b' ⟨hb', hnear', -⟩
      rcases List.mem_cons.mp hb' with rfl | hb'
      · rfl
      · exact absurd ((hrest.le_near b' hb').trans hnear') (not_le.mpr hx)
    · obtain ⟨b', ⟨hb', hin⟩, hunique⟩ := ih hrest (not_lt.mp hx)
      refine ⟨b', ⟨List.mem_cons_of_mem _ hb', hin⟩, ?_⟩
      rintro b'' ⟨hb'', hin''⟩
      rcases List.mem_cons.mp hb'' with rfl | hb''
      · exact absurd hin''.2 hx
      · exact hunique b'' ⟨hb'', hin''⟩

end Tiles

def halves : Direction → List Region
  | .row => [.leftHalf, .rightHalf]
  | .column => [.topHalf, .bottomHalf]

def thirds : Direction → List Region
  | .row => [.leftThird, .centerThird, .rightThird]
  | .column => [.topThird, .middleThird, .bottomThird]

/-- The anchors at the end of a box along an axis, each with the anchor of the next box that it
meets. -/
def meeting : Direction → List (Anchor × Anchor)
  | .row => [(.right, .left), (.topRight, .topLeft), (.bottomRight, .bottomLeft)]
  | .column => [(.bottom, .top), (.bottomLeft, .topLeft), (.bottomRight, .topRight)]

end Direction

namespace Stage
variable {s : Stage Rat}

structure Parts (s : Stage Rat) (d : Direction) (regions : List Region) : Prop where
  across : ∀ r ∈ regions, d.across.near (s.region r) = d.across.near s.canvas.box ∧
    d.across.far (s.region r) = d.across.far s.canvas.box
  tiles : d.Tiles (d.near s.canvas.box) (regions.map s.region) (d.far s.canvas.box)
  meet : regions.IsChain fun a b => ∀ e ∈ d.meeting, s.pointAt ⟨a, e.1⟩ = s.pointAt ⟨b, e.2⟩
  covers : ∀ p, s.canvas.box.Covers p → ∃! r, r ∈ regions ∧ (s.region r).Covers p

theorem anchors_meet {d : Direction} {a b : Region}
    (hjoined : d.far (s.region a) = d.near (s.region b))
    (hnear : d.across.near (s.region a) = d.across.near (s.region b))
    (hfar : d.across.far (s.region a) = d.across.far (s.region b)) :
    ∀ e ∈ d.meeting, s.pointAt ⟨a, e.1⟩ = s.pointAt ⟨b, e.2⟩ := by
  cases d <;>
    simp only [Direction.far, Direction.near, Direction.extent, Direction.across]
      at hjoined hnear hfar <;>
    simp only [Direction.meeting, List.forall_mem_cons, List.not_mem_nil, false_imp_iff,
      implies_true, and_true, pointAt, Anchor.place, Scalar.rat_zero, Scalar.rat_two, sub_zero,
      add_zero, Point.mk.injEq]
  · refine ⟨⟨hjoined, ?_⟩, ⟨hjoined, hnear⟩, ⟨hjoined, hfar⟩⟩
    linarith
  · refine ⟨⟨?_, hjoined⟩, ⟨hnear, hjoined⟩, ⟨hfar, hjoined⟩⟩
    linarith

section Parts
variable {d : Direction} {regions : List Region}
  (hacross : ∀ r ∈ regions, d.across.near (s.region r) = d.across.near s.canvas.box ∧
    d.across.far (s.region r) = d.across.far s.canvas.box)
include hacross

theorem isChain_meet_of_tiles {start stop : Rat}
    (htiles : d.Tiles start (regions.map s.region) stop) :
    regions.IsChain fun a b => ∀ e ∈ d.meeting, s.pointAt ⟨a, e.1⟩ = s.pointAt ⟨b, e.2⟩ := by
  induction regions generalizing start with
  | nil => exact .nil
  | cons a regions ih =>
    cases regions with
    | nil => exact .singleton a
    | cons b regions =>
      rw [List.forall_mem_cons] at hacross
      obtain ⟨ha, hrest⟩ := hacross
      have hb := hrest b List.mem_cons_self
      obtain ⟨-, -, hnext⟩ := htiles
      exact .cons_cons (anchors_meet hnext.1.symm (ha.1.trans hb.1.symm) (ha.2.trans hb.2.symm))
        (ih hrest hnext)

theorem existsUnique_covers_of_tiles
    (htiles : d.Tiles (d.near s.canvas.box) (regions.map s.region) (d.far s.canvas.box))
    {p : Point Rat} (hp : s.canvas.box.Covers p) :
    ∃! r, r ∈ regions ∧ (s.region r).Covers p := by
  obtain ⟨⟨hnear, hfar⟩, hdeep⟩ := (d.covers_iff _ p).mp hp
  obtain ⟨r, ⟨hr, hin⟩, hunique⟩ := htiles.existsUnique hnear hfar
  refine ⟨r, ⟨hr, (d.covers_iff _ p).mpr ⟨hin, ?_⟩⟩, ?_⟩
  · rwa [(hacross r hr).1, (hacross r hr).2]
  · rintro r' ⟨hr', hcovers⟩
    exact hunique r' ⟨hr', ((d.covers_iff _ p).mp hcovers).1⟩

theorem parts_of_tiles
    (htiles : d.Tiles (d.near s.canvas.box) (regions.map s.region) (d.far s.canvas.box)) :
    s.Parts d regions :=
  ⟨hacross, htiles, isChain_meet_of_tiles hacross htiles,
    fun _ hp => existsUnique_covers_of_tiles hacross htiles hp⟩

end Parts

theorem parts_halves (s : Stage Rat) (d : Direction) : s.Parts d d.halves := by
  have hw : (0 : Rat) ≤ s.canvas.width.toNat := Nat.cast_nonneg _
  have hh : (0 : Rat) ≤ s.canvas.height.toNat := Nat.cast_nonneg _
  apply parts_of_tiles
  · cases d <;>
      simp [Direction.halves, Direction.across, Direction.near, Direction.far, Direction.extent,
        region, Region.bounds, Canvas.box, Canvas.size]
  · cases d <;>
      simp only [Direction.halves, List.map_cons, List.map_nil, Direction.Tiles] <;>
      refine ⟨?_, ?_, ?_, ?_, ?_⟩ <;>
      simp only [Direction.near, Direction.far, Direction.extent, region, Region.bounds, Canvas.box,
        Canvas.size, Scalar.rat_zero, Scalar.rat_two, Scalar.rat_ofNat] <;>
      linarith

/-- The last third is measured from the end of the canvas, and yet starts where the second ends. -/
theorem parts_thirds (s : Stage Rat) (d : Direction) : s.Parts d d.thirds := by
  have hw : (0 : Rat) ≤ s.canvas.width.toNat := Nat.cast_nonneg _
  have hh : (0 : Rat) ≤ s.canvas.height.toNat := Nat.cast_nonneg _
  have hthree : (3.0 : Rat) = 3 := by norm_num
  apply parts_of_tiles
  · cases d <;>
      simp [Direction.thirds, Direction.across, Direction.near, Direction.far, Direction.extent,
        region, Region.bounds, Canvas.box, Canvas.size]
  · cases d <;>
      simp only [Direction.thirds, List.map_cons, List.map_nil, Direction.Tiles] <;>
      refine ⟨?_, ?_, ?_, ?_, ?_, ?_, ?_⟩ <;>
      simp only [Direction.near, Direction.far, Direction.extent, region, Region.bounds, Canvas.box,
        Canvas.size, Scalar.rat_zero, hthree, Scalar.rat_ofNat] <;>
      linarith

theorem region_holds_pointAt (s : Stage Rat) (e : Endpoint) :
    (s.region e.region).Holds (s.pointAt e) := by
  have hregion := s.region_nonneg e.region
  have hextent (d : Direction) : 0 ≤ (d.extent (s.region e.region).size).main := by
    cases d with
    | row => exact hregion.1
    | column => exact hregion.2
  have hleaves (d : Direction) := e.anchor.place_leaves d (s.region e.region) ⟨0, 0⟩ 0
  have hzero (d : Direction) : (d.extent (⟨0, 0⟩ : Size Rat)).main = 0 := by cases d <;> rfl
  apply Box.holds_of_within_zero
  unfold pointAt
  rw [Scalar.rat_zero, Anchor.within_iff_hasRoom hleaves (le_refl 0)]
  intro d
  change (_ → (d.extent (⟨0, 0⟩ : Size Rat)).main ≤ _) ∧
    (_ → (d.extent (⟨0, 0⟩ : Size Rat)).main + 0 ≤ _)
  rw [hzero, add_zero]
  exact ⟨fun _ => hextent d, fun _ => hextent d⟩

theorem box_holds_pointAt (s : Stage Rat) (e : Endpoint) : s.canvas.box.Holds (s.pointAt e) :=
  (s.region_holds_pointAt e).of_within (s.region_within e.region)

end Stage

namespace Compiler
variable {c : Compiler Rat} {sizes : Sizes Rat} {s : Spec Rat} {p : Project Rat}

theorem exists_renders_of_mem_actions (h : c.compileWith sizes s = .ok p) {a : Action Rat}
    (ha : a ∈ p.actions) {d : ShapeDeed Rat} (hd : a.deed = .shape d) : ∃ e, c.Renders e d := by
  obtain ⟨played, hplayed, ha⟩ := List.mem_flatMap.mp ha
  obtain ⟨scene, k, deeds, hdeeds, rfl⟩ :=
    exists_of_forall₂ (forall₂_scenes_of_compileWith h) played hplayed
  have hmem : Deed.shape d ∈ deeds := by
    rw [← map_deed_play k scene deeds, ← hd]
    exact List.mem_map_of_mem ha
  exact exists_of_forall₂ (scene_renders hdeeds).flip d
    (List.mem_filterMap.mpr ⟨_, hmem, rfl⟩)

theorem on_canvas_of_mem_actions (h : c.compileWith sizes s = .ok p) {a : Action Rat}
    (ha : a ∈ p.actions) {d : ShapeDeed Rat} (hd : a.deed = .shape d)
    (hopen : d.shape = .line ∨ d.shape = .arrow) :
    (⟨d.x, d.y⟩ : PixelPoint).On c.stage.canvas ∧
      ∃ x2 y2, d.x2 = some x2 ∧ d.y2 = some y2 ∧ (⟨x2, y2⟩ : PixelPoint).On c.stage.canvas := by
  obtain ⟨e, he⟩ := exists_renders_of_mem_actions h ha hd
  have hshape : e.shape.isOpen = true := by
    rw [← he.shape]
    rcases hopen with h | h <;> rw [h] <;> rfl
  obtain ⟨connection, -, hjoins⟩ := he.joins hshape
  refine ⟨?_, _, _, hjoins.x2, hjoins.y2, ?_⟩
  · rw [hjoins.source]
    exact PixelPoint.round_on (c.stage.box_holds_pointAt connection.source)
  · exact PixelPoint.round_on (c.stage.box_holds_pointAt connection.target)

/-- On a canvas of any size, no region leaves the canvas and no anchor its region, so that lines and
arrows end on the canvas, up to its last edges. The halves and the thirds part it along either axis:
their anchors meet, and no point is in none of them or in two. -/
theorem regions_lie_on_canvas_and_part_it (s : Stage Rat) :
    (∀ r, (0 ≤ (s.region r).x ∧ 0 ≤ (s.region r).y) ∧
      (0 ≤ (s.region r).width ∧ 0 ≤ (s.region r).height) ∧
      (s.region r).x + (s.region r).width ≤ s.canvas.width.toNat ∧
      (s.region r).y + (s.region r).height ≤ s.canvas.height.toNat) ∧
    (∀ e : Endpoint, (s.region e.region).Holds (s.pointAt e)) ∧
    (∀ (c : Compiler Rat) (sizes : Sizes Rat) (spec : Spec Rat) (p : Project Rat),
      c.stage.canvas = s.canvas → c.compileWith sizes spec = .ok p →
      ∀ a ∈ p.actions, ∀ d, a.deed = .shape d → d.shape = .line ∨ d.shape = .arrow →
        (⟨d.x, d.y⟩ : PixelPoint).On s.canvas ∧
          ∃ x2 y2, d.x2 = some x2 ∧ d.y2 = some y2 ∧ (⟨x2, y2⟩ : PixelPoint).On s.canvas) ∧
    ∀ d : Direction, s.Parts d d.halves ∧ s.Parts d d.thirds := by
  refine ⟨fun r => ?_, s.region_holds_pointAt, ?_, fun d => ⟨s.parts_halves d, s.parts_thirds d⟩⟩
  · have hwithin := s.region_within r
    exact ⟨⟨hwithin.left, hwithin.top⟩, s.region_nonneg r, by simpa using hwithin.right,
      by simpa using hwithin.bottom⟩
  · intro c sizes spec p hcanvas h a ha d hd hopen
    rw [← hcanvas]
    exact on_canvas_of_mem_actions h ha hd hopen

theorem gallery_arrow_on_canvas :
    ∃ p, (plain ⟨1921, 1081⟩).compile Spec.gallery = .ok p ∧
      ∃ a ∈ p.actions, ∃ d, a.deed = .shape d ∧ d.shape = .arrow ∧
        (⟨d.x, d.y⟩ : PixelPoint).On ⟨1921, 1081⟩ ∧
        ∃ x2 y2, d.x2 = some x2 ∧ d.y2 = some y2 ∧ (⟨x2, y2⟩ : PixelPoint).On ⟨1921, 1081⟩ := by
  have h : ((plain ⟨1921, 1081⟩).compile Spec.gallery).toOption.any (fun p =>
      p.actions.any fun a => a.deed.shape?.any fun d => d.shape = .arrow) = true := by
    decide +kernel
  obtain ⟨p, hp, hany⟩ := any_toOption_iff.mp h
  obtain ⟨⟨id, deed⟩, ha, hshape⟩ := List.any_eq_true.mp hany
  cases deed with
  | svg d | text d | image d | audio d => simp [Deed.shape?] at hshape
  | shape d =>
    have harrow : d.shape = .arrow := by simpa [Deed.shape?] using hshape
    have hcanvas := (regions_lie_on_canvas_and_part_it (plain ⟨1921, 1081⟩).stage).2.2.1 _ _ _ p rfl
      hp _ ha d rfl (.inr harrow)
    exact ⟨p, hp, _, ha, d, rfl, harrow, hcanvas⟩

end Compiler
end Storyboard
