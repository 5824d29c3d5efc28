import Storyboard.Proofs.FirstFault
import Storyboard.Proofs.Rational
import Storyboard.Proofs.Shapes

set_option autoImplicit false

namespace Storyboard

namespace Scalar

theorem abs_center_sub_corner_le {p w : Rat} (hp : InPixels p) (hw : InPixels w)
    (hcenter : InPixels (p + w / 2)) :
    |2 * (round (p + w / 2)).toInt - (2 * (round p).toInt + (round w).toInt)| ≤ 2 := by
  obtain ⟨hp₁, hp₂⟩ := hp.nearest_round
  obtain ⟨hw₁, hw₂⟩ := hw.nearest_round
  obtain ⟨hcenter₁, hcenter₂⟩ := hcenter.nearest_round
  generalize (round (p + w / 2)).toInt = m at *
  generalize (round p).toInt = k at *
  generalize (round w).toInt = n at *
  -- the three are off by less than five halves together, and the difference is a whole number
  have hlow : (-3 : Rat) < (2 * m - (2 * k + n) : Int) := by
    push_cast
    linarith
  have hhigh : ((2 * m - (2 * k + n) : Int) : Rat) < 3 := by
    push_cast
    linarith
  norm_cast at hlow hhigh
  rw [abs_le]
  omega

end Scalar

/-- No pixel of the box is cut off, by its corner or by its center. -/
def Box.InPixels (b : Box Rat) : Prop :=
  ∀ p ∈ [b.x, b.y, b.width, b.height, b.center.x, b.center.y], Scalar.InPixels p

/-- An svg and an image that show one box: the svg by its corner and the image by its center. -/
structure Fitted.Views (f : Fitted Rat) (svg : SvgDeed Rat) (image : ImageDeed Rat) : Prop where
  width : svg.box.width = image.box.width
  height : svg.box.height = image.box.height
  scale : svg.scale = image.scale
  start : svg.start = image.start
  duration : svg.duration = image.duration
  x : f.box.InPixels →
    |2 * image.box.x.toInt - (2 * svg.box.x.toInt + svg.box.width.toInt)| ≤ 2
  y : f.box.InPixels →
    |2 * image.box.y.toInt - (2 * svg.box.y.toInt + svg.box.height.toInt)| ≤ 2

/-- An svg and an image that are laid out alike, in one size and at one time. -/
structure Picture.Alike (c : Compiler Rat) (sizes : Sizes Rat) (size : Size Rat)
    (svg image : Picture Rat) : Prop where
  layout : svg.layout = image.layout
  start : svg.start = image.start
  duration : svg.duration = image.duration
  svgSize : (sizes svg.asset).getD c.defaults.assetSize = size
  imageSize : (sizes image.asset).getD c.defaults.imageSize = size

structure Item.Alike (c : Compiler Rat) (sizes : Sizes Rat) (size : Size Rat)
    (svg image : Item Rat) : Prop where
  svgKind : svg.kind = .svg
  imageKind : image.kind = .image
  start : svg.start = image.start
  duration : svg.duration = image.duration
  svgSize : c.itemSize? sizes svg = some size
  imageSize : c.itemSize? sizes image = some size

namespace Compiler
variable {c : Compiler Rat} {sizes : Sizes Rat} {scene : Scene Rat} {size : Size Rat}

theorem views_place (f : Fitted Rat) (t : Span Rat) (svg image : String)
    (svgAnimation imageAnimation : Option String) :
    f.Views (.place svg f t svgAnimation) (c.imageDeed image f t imageAnimation) := by
  refine ⟨rfl, rfl, rfl, rfl, rfl, fun hpixels => ?_, fun hpixels => ?_⟩
  · have hcenter : f.box.center.x = f.box.x + f.box.width / 2 := by simp [Box.center]
    change |2 * (Scalar.round f.box.center.x).toInt - _| ≤ 2
    rw [hcenter]
    exact Scalar.abs_center_sub_corner_le (hpixels _ (by simp)) (hpixels _ (by simp))
      (hcenter ▸ hpixels _ (by simp))
  · have hcenter : f.box.center.y = f.box.y + f.box.height / 2 := by simp [Box.center]
    change |2 * (Scalar.round f.box.center.y).toInt - _| ≤ 2
    rw [hcenter]
    exact Scalar.abs_center_sub_corner_le (hpixels _ (by simp)) (hpixels _ (by simp))
      (hcenter ▸ hpixels _ (by simp))

theorem element_alike {svg image : Picture Rat} (h : svg.Alike c sizes size image) :
    (∀ fault, c.elementDeeds sizes scene (.svg svg) = .error fault ↔
      c.elementDeeds sizes scene (.image image) = .error fault) ∧
    ∀ deeds, c.elementDeeds sizes scene (.svg svg) = .ok deeds →
      ∃ f s i, c.stage.fit svg.layout size = .ok f ∧ deeds = [.svg s] ∧
        c.elementDeeds sizes scene (.image image) = .ok [.image i] ∧ f.Views s i := by
  have hsvg : c.elementDeeds sizes scene (.svg svg) = (c.stage.fit svg.layout size).map fun f =>
      [.svg (.place svg.asset f (scene.span svg.start svg.duration) svg.animation)] := by
    rw [elementDeeds, Compiler.svg, h.svgSize]
    cases c.stage.fit svg.layout size <;> rfl
  have himage : c.elementDeeds sizes scene (.image image) =
      (c.stage.fit svg.layout size).map fun f =>
        [.image (c.imageDeed image.asset f (scene.span svg.start svg.duration) image.animation)] := by
    rw [elementDeeds, Compiler.image, h.imageSize, h.layout, h.start, h.duration]
    cases c.stage.fit image.layout size <;> rfl
  rw [hsvg, himage]
  cases c.stage.fit svg.layout size with
  | error fault =>
    refine ⟨fun _ => Iff.rfl, fun deeds hdeeds => ?_⟩
    cases hdeeds
  | ok f =>
    refine ⟨fun fault => ?_, fun deeds hdeeds => ?_⟩
    · constructor <;> intro hfault <;> cases hfault
    · cases hdeeds
      exact ⟨f, _, _, rfl, rfl, rfl, views_place f _ _ _ _ _⟩

section Groups
variable {g : Group Rat} {before after : List (Item Rat)}

theorem members_append_cons (c : Compiler Rat) (sizes : Sizes Rat) (size : Size Rat)
    (before after : List (Item Rat)) :
    ∃ first last, ∀ item, c.itemSize? sizes item = some size →
      c.members sizes (before ++ item :: after) =
        first ++ (item, size, before.length) :: last := by
  refine ⟨c.members sizes before, (after.zipIdx (before.length + 1)).filterMap fun (item, i) =>
    (c.itemSize? sizes item).map (item, ·, i), fun item hitem => ?_⟩
  simp [members, List.zipIdx_append, hitem]

theorem exists_place {item : Item Rat} {n : Nat} {first last : List (Item Rat × Size Rat × Nat)}
    {deeds : List (Deed Rat)}
    (hmembers : c.members sizes g.items = first ++ (item, size, n) :: last)
    (h : c.groupDeeds sizes scene g = .ok deeds) :
    ∃ places f front back,
      c.stage.placesById g.layout (c.groupMembers sizes g) = .ok places ∧
      places.get? (itemId n) = some f ∧ first.length = front.length ∧
      c.stage.arrange g.layout (c.groupMembers sizes g) = .ok (front ++ f :: back) := by
  obtain ⟨flex, fitted, hflex, ha, -⟩ := group_eq_ok_iff.mp h
  obtain ⟨-, rfl⟩ := mapM_create_eq_ok_iff.mp hflex
  have hids := map_id_of_mapM_create hflex
  have hfound := Stage.forall₂_get?_of_arrange ha (hids ▸ nodup_members_itemId g.items)
  have hplaces : c.stage.placesById g.layout (c.groupMembers sizes g) =
      .ok (Table.ofList (((c.groupMembers sizes g).map Member.id).zip fitted)) :=
    map_eq_ok_iff.mpr ⟨fitted, ha, rfl⟩
  generalize Table.ofList (((c.groupMembers sizes g).map Member.id).zip fitted) = places at *
  have hsplit : c.groupMembers sizes g =
      first.map (fun m => .ofSize (itemId m.2.2) m.2.1) ++ .ofSize (itemId n) size ::
        last.map fun m => .ofSize (itemId m.2.2) m.2.1 := by
    simp only [groupMembers, hmembers, List.map_append, List.map_cons]
  rw [hsplit] at hfound
  obtain ⟨front, rest, rfl, hfront, hrest⟩ := exists_append_of_forall₂ hfound
  obtain ⟨f, back, hf, -, rfl⟩ := List.forall₂_cons_left_iff.mp hrest
  refine ⟨places, f, front, back, hplaces, hf, ?_, ha⟩
  rw [← hfront.length_eq, List.length_map]

/-- The kind of an item only shows in what is made of it once it has its place. -/
theorem group_alike {svg image : Item Rat} (hitems : g.items = before ++ svg :: after)
    (h : svg.Alike c sizes size image) :
    let imaged : Group Rat := { g with items := before ++ image :: after }
    (∀ fault,
      c.groupDeeds sizes scene g = .error fault ↔ c.groupDeeds sizes scene imaged = .error fault) ∧
    ∀ deeds, c.groupDeeds sizes scene g = .ok deeds →
      ∃ places f s i first last,
        c.stage.placesById g.layout (c.groupMembers sizes g) = .ok places ∧
        places.get? (itemId before.length) = some f ∧
        deeds = first ++ .svg s :: last ∧
        c.groupDeeds sizes scene imaged = .ok (first ++ .image i :: last) ∧ f.Views s i := by
  intro imaged
  obtain ⟨first, last, hmembers⟩ := members_append_cons c sizes size before after
  have hsvg : c.members sizes g.items = first ++ (svg, size, before.length) :: last :=
    hitems ▸ hmembers svg h.svgSize
  have himage : c.members sizes imaged.items = first ++ (image, size, before.length) :: last :=
    hmembers image h.imageSize
  have hcreate : (c.members sizes imaged.items).mapM (fun m =>
      Member.create (itemId m.2.2) m.2.1) =
        (c.members sizes g.items).mapM fun m => Member.create (itemId m.2.2) m.2.1 := by
    simp only [hsvg, himage, List.mapM_append, List.mapM_cons]
  have hflex : c.groupMembers sizes imaged = c.groupMembers sizes g := by
    simp only [groupMembers, hsvg, himage, List.map_append, List.map_cons]
  constructor
  · intro fault
    rw [← failure?_eq_some_iff, ← failure?_eq_some_iff, failure?_group, failure?_group,
      ← failure?_mapM_create, ← failure?_mapM_create, hcreate, hflex]
  · intro deeds hdeeds
    obtain ⟨places, f, front, back, hplaces, hf, hlength, ha⟩ := exists_place hsvg hdeeds
    obtain ⟨flex, fitted, hmade, ha', rfl⟩ := group_eq_ok_iff.mp hdeeds
    obtain ⟨-, rfl⟩ := mapM_create_eq_ok_iff.mp hmade
    obtain rfl : fitted = front ++ f :: back := Except.ok.inj (ha'.symm.trans ha)
    have himaged : c.groupDeeds sizes scene imaged = .ok ((c.members sizes imaged.items).zipWith
        (fun m f => c.itemDeed scene imaged m.1 f) (front ++ f :: back)) :=
      group_eq_ok_iff.mpr ⟨_, _, hcreate.trans hmade, ha, rfl⟩
    rw [himage, List.zipWith_append hlength, List.zipWith_cons_cons] at himaged
    rw [hsvg, List.zipWith_append hlength, List.zipWith_cons_cons]
    have hsvgDeed : c.itemDeed scene g svg f = .svg (.place (svg.asset.getD "") f
        (scene.span (svg.start.getD g.start) (svg.duration.getD g.duration)) svg.animation) := by
      rw [itemDeed, h.svgKind]
    have himageDeed : c.itemDeed scene imaged image f = .image (c.imageDeed (image.asset.getD "") f
        (scene.span (svg.start.getD g.start) (svg.duration.getD g.duration)) image.animation) := by
      rw [itemDeed, h.imageKind, ← h.start, ← h.duration]
    rw [hsvgDeed]
    rw [himageDeed] at himaged
    exact ⟨places, f, _, _, _, _, hplaces, hf, rfl, himaged, views_place f _ _ _ _ _⟩

end Groups

/-- An svg and an image that are laid out alike fail alike or come out in one box, each by itself
and in the same place of a group. -/
theorem svg_and_image_view_one_box (c : Compiler Rat) (sizes : Sizes Rat) (scene : Scene Rat)
    (size : Size Rat) :
    (∀ svg image : Picture Rat, svg.Alike c sizes size image →
      (∀ fault, c.element sizes scene (.svg svg) = .error fault ↔
        c.element sizes scene (.image image) = .error fault) ∧
      ∀ deeds, c.element sizes scene (.svg svg) = .ok deeds →
        ∃ f s i, c.stage.fit svg.layout size = .ok f ∧ deeds = [.svg s] ∧
          c.element sizes scene (.image image) = .ok [.image i] ∧ f.Views s i) ∧
    ∀ (g : Group Rat) (before after : List (Item Rat)) (svg image : Item Rat),
      g.items = before ++ svg :: after → svg.Alike c sizes size image →
      let imaged : Group Rat := { g with items := before ++ image :: after }
      (∀ fault, c.element sizes scene (.group g) = .error fault ↔
        c.element sizes scene (.group imaged) = .error fault) ∧
      ∀ deeds, c.element sizes scene (.group g) = .ok deeds →
        ∃ places f s i first last,
          c.stage.placesById g.layout (c.groupMembers sizes g) = .ok places ∧
          places.get? (itemId before.length) = some f ∧
          deeds = first ++ .svg s :: last ∧
          c.element sizes scene (.group imaged) = .ok (first ++ .image i :: last) ∧
          f.Views s i := by
  simp only [element_eq]
  exact ⟨fun _ _ h => element_alike h, fun _ _ _ _ _ hitems h => group_alike hitems h⟩

theorem lighthouse_views_one_box :
    let c : Compiler Rat := plain ⟨1921, 1081⟩
    let sizes : Sizes Rat := fun _ => some ⟨7, 5⟩
    let scene : Scene Rat := ⟨"coast", "The coast", 2, 5, none, none, []⟩
    let picture : Picture Rat := ⟨"lighthouse", ⟨.center, some .leftThird, none, none⟩, 1, 2, none⟩
    let item (kind : ItemKind) (asset text : Option String) : Item Rat :=
      ⟨kind, asset, text, none, none, none, none, none, none⟩
    let row (kind : ItemKind) : Group Rat :=
      { layout := ⟨.row, none, none, none, none, none, none⟩
        items := [item .text none (some "The coast")] ++
          item kind (some "lighthouse") none :: [item .image (some "moon") none]
        start := 1
        duration := 2 }
    (∃ s i, c.element sizes scene (.svg picture) = .ok [.svg s] ∧
      c.element sizes scene (.image picture) = .ok [.image i] ∧
      s.box = ⟨208, 460, 224, 160⟩ ∧ i.box = ⟨320, 541, 224, 160⟩ ∧
      |2 * i.box.y.toInt - (2 * s.box.y.toInt + s.box.height.toInt)| ≤ 2) ∧
    ∃ first s i last, c.element sizes scene (.group (row .svg)) = .ok (first ++ .svg s :: last) ∧
      c.element sizes scene (.group (row .image)) = .ok (first ++ .image i :: last) ∧
      s.box.width = i.box.width ∧ s.box.height = i.box.height := by
  intro c sizes scene picture item row
  obtain ⟨halone, hgrouped⟩ := svg_and_image_view_one_box c sizes scene ⟨7, 5⟩
  constructor
  · have hmade : c.element sizes scene (.svg picture) =
        .ok [.svg ⟨"lighthouse", ⟨208, 460, 224, 160⟩, 1921 / 60, 3, 2, none⟩] :=
      toOption_eq_some_iff.mp (by decide +kernel)
    have hshown : c.element sizes scene (.image picture) =
        .ok [.image ⟨"lighthouse", ⟨320, 541, 224, 160⟩, 1921 / 60, "fade", 3, 2⟩] :=
      toOption_eq_some_iff.mp (by decide +kernel)
    have hfitted : c.stage.fit picture.layout ⟨7, 5⟩ =
        .ok ⟨⟨24973 / 120, 11051 / 24, 13447 / 60, 1921 / 12⟩, 1921 / 60⟩ :=
      toOption_eq_some_iff.mp (by decide +kernel)
    obtain ⟨-, hok⟩ := halone picture picture ⟨rfl, rfl, rfl, rfl, rfl⟩
    obtain ⟨f, s, i, hf, hs, hi, hviews⟩ := hok _ hmade
    obtain rfl := Except.ok.inj (hfitted.symm.trans hf)
    have hpixels : Box.InPixels (⟨24973 / 120, 11051 / 24, 13447 / 60, 1921 / 12⟩ : Box Rat) := by
      intro p hp
      have hround : ∀ p ∈ [(24973 / 120 : Rat), 11051 / 24, 13447 / 60, 1921 / 12,
          24973 / 120 + 13447 / 60 / 2.0, 11051 / 24 + 1921 / 12 / 2.0],
          Scalar.Nearest p (Scalar.round p).toInt := by
        decide +kernel
      exact ⟨_, hround p hp⟩
    have hy := hviews.y hpixels
    obtain rfl : _ = s := by simpa using hs
    obtain rfl : _ = i := by simpa using hshown.symm.trans hi
    exact ⟨_, _, hmade, hi, rfl, rfl, hy⟩
  · have hmade : (c.element sizes scene (.group (row .svg))).toOption.isSome := by decide +kernel
    obtain ⟨deeds, hdeeds⟩ := isSome_toOption_iff.mp hmade
    obtain ⟨-, hok⟩ := hgrouped (row .svg) [item .text none (some "The coast")]
      [item .image (some "moon") none] (item .svg (some "lighthouse") none)
      (item .image (some "lighthouse") none) rfl ⟨rfl, rfl, rfl, rfl, rfl, rfl⟩
    obtain ⟨places, f, s, i, first, last, -, -, rfl, himaged, hviews⟩ := hok _ hdeeds
    exact ⟨first, s, i, last, hdeeds, himaged, hviews.width, hviews.height⟩

end Compiler
end Storyboard
