import Storyboard.Proofs.Group
import Storyboard.Proofs.Timeline

set_option autoImplicit false

/-!
The assets that elements refer to, and the sizes they are laid out in. The check of a spec looks for
a reference among the declarations of its own kind; the sizes are in one table for both kinds.
-/

namespace Storyboard
variable {α : Type}

def Item.reference? (i : Item α) : Option (ItemKind × String) :=
  match i.kind with
  | .text => none
  | kind => i.asset.map (kind, ·)

/-- The assets that an element shows, by the kind it takes them for. -/
def Element.references : Element α → List (ItemKind × String)
  | .svg e => [(.svg, e.asset)]
  | .image e => [(.image, e.asset)]
  | .group g => g.items.filterMap Item.reference?
  | .text _ | .shape _ => []

theorem Item.reference?_eq_some_iff {i : Item α} {kind : ItemKind} {id : String} :
    i.reference? = some (kind, id) ↔ i.kind = kind ∧ kind ≠ .text ∧ i.asset = some id := by
  unfold reference?
  cases hk : i.kind with
  | svg => cases kind <;> simp
  | image => cases kind <;> simp
  | text => cases kind <;> simp

theorem Element.ne_text_of_mem_references {e : Element α} {kind : ItemKind} {id : String}
    (h : (kind, id) ∈ e.references) : kind ≠ .text := by
  cases e with
  | svg e =>
    cases List.mem_singleton.mp h
    exact ItemKind.noConfusion
  | image e =>
    cases List.mem_singleton.mp h
    exact ItemKind.noConfusion
  | group g =>
    obtain ⟨i, -, hi⟩ := List.mem_filterMap.mp h
    exact (Item.reference?_eq_some_iff.mp hi).2.1
  | text e => cases h
  | shape e => cases h

section Lookup
variable {β γ : Type} {name : β → String} {value? : β → Option γ} {xs : List β} {id : String}

theorem lookup_filterMap : (xs.filterMap fun x => (value? x).map (name x, ·)).lookup id =
    xs.findSome? fun x => if name x = id then value? x else none := by
  induction xs with
  | nil => rfl
  | cons x xs ih =>
    cases hv : value? x with
    | none => simp [hv, ih]
    | some v =>
      rw [List.filterMap_cons_some (by rw [hv]; rfl), List.lookup_cons, List.findSome?_cons, ih, hv]
      by_cases hn : name x = id
      · simp [hn]
      · simp [hn, beq_false_of_ne (Ne.symm hn)]

theorem exists_of_lookup_filterMap {v : γ}
    (h : (xs.filterMap fun x => (value? x).map (name x, ·)).lookup id = some v) :
    ∃ x ∈ xs, name x = id ∧ value? x = some v := by
  rw [lookup_filterMap] at h
  obtain ⟨x, hx, hv⟩ := List.exists_of_findSome?_eq_some h
  exact ⟨x, hx, by simpa using hv⟩

theorem lookup_filterMap_eq_none_iff :
    (xs.filterMap fun x => (value? x).map (name x, ·)).lookup id = none ↔
      ∀ x ∈ xs, name x = id → value? x = none := by
  rw [lookup_filterMap, List.findSome?_eq_none_iff]
  simp

end Lookup

namespace Sources
variable (a : Sources α)

def sizesImage (id : String) : Bool :=
  a.images.any fun image => image.id == id && image.size?.isSome

/-- A size that the declarations of one kind give to an id. An image none of whose declarations says
both sides comes in the size that stands in for it. -/
def Gives (a : Sources α) (kind : ItemKind) (standIn : Size α) (id : String) (size : Size α) :
    Prop :=
  match kind with
  | .svg => ∃ svg ∈ a.svgs, svg.id = id ∧ svg.size = size
  | .image => (∃ image ∈ a.images, image.id = id ∧ image.size? = some size) ∨
      (∀ image ∈ a.images, image.id = id → image.size? = none) ∧ size = standIn
  | .text => False

/-- The kind by whose declarations an id is measured: the one that it is taken for, unless the id
is declared for both. Then it is the image, if that has a size, and otherwise the svg. -/
def measuredAs (kind : ItemKind) (id : String) : ItemKind :=
  if a.declaresSvg id && a.declaresImage id then if a.sizesImage id then .image else .svg else kind

/-- No id is declared for an svg and for an image as well. -/
def Apart : Prop := ∀ id, a.declaresSvg id = true → a.declaresImage id = false

variable {a}

theorem Apart.measuredAs_eq (h : a.Apart) (kind : ItemKind) (id : String) :
    a.measuredAs kind id = kind := by
  unfold measuredAs
  cases hs : a.declaresSvg id with
  | true => simp [h id hs]
  | false => rfl

theorem declaresImage_of_sizesImage {id : String} (h : a.sizesImage id = true) :
    a.declaresImage id = true := by
  obtain ⟨image, hi, hsized⟩ := List.any_eq_true.mp h
  exact List.any_eq_true.mpr ⟨image, hi, (Bool.and_eq_true_iff.mp hsized).1⟩

theorem measuredAs_of_sizesImage {kind : ItemKind} {id : String} (hk : kind ≠ .text)
    (hd : a.declares kind id = true) (h : a.sizesImage id = true) :
    a.measuredAs kind id = .image := by
  have himage := declaresImage_of_sizesImage h
  cases kind with
  | svg =>
    have hsvg : a.declaresSvg id = true := hd
    simp [measuredAs, hsvg, himage, h]
  | image => cases hsvg : a.declaresSvg id <;> simp [measuredAs, hsvg, himage, h]
  | text => exact absurd rfl hk

theorem measuredAs_of_declaresSvg {kind : ItemKind} {id : String} (hk : kind ≠ .text)
    (hd : a.declares kind id = true) (hsvg : a.declaresSvg id = true)
    (h : a.sizesImage id = false) : a.measuredAs kind id = .svg := by
  cases kind with
  | svg => cases himage : a.declaresImage id <;> simp [measuredAs, hsvg, himage, h]
  | image =>
    have himage : a.declaresImage id = true := hd
    simp [measuredAs, hsvg, himage, h]
  | text => exact absurd rfl hk

theorem measuredAs_of_not_declaresSvg {kind : ItemKind} {id : String} (hk : kind ≠ .text)
    (hd : a.declares kind id = true) (hsvg : a.declaresSvg id = false) :
    a.measuredAs kind id = .image := by
  cases kind with
  | svg => exact absurd hd (by simp [declares, hsvg])
  | image => simp [measuredAs, hsvg]
  | text => exact absurd rfl hk

theorem sizes_eq (id : String) : a.sizes id =
    ((a.images.reverse.filterMap fun i => i.size?.map (i.id, ·)).lookup id).or
      ((a.svgs.reverse.filterMap fun s => (some s.size).map (s.id, ·)).lookup id) := by
  unfold sizes
  rw [List.lookup_append, ← List.filterMap_reverse, ← List.map_reverse, ← List.filterMap_eq_map]
  rfl

theorem gives_measuredAs {kind : ItemKind} {id : String} (hk : kind ≠ .text)
    (hd : a.declares kind id = true) (standIn : Size α) :
    a.Gives (a.measuredAs kind id) standIn id ((a.sizes id).getD standIn) := by
  rw [sizes_eq]
  -- the table holds the images in front of the svgs, so an image with a size is found first
  cases himage : (a.images.reverse.filterMap fun i => i.size?.map (i.id, ·)).lookup id with
  | some size =>
    obtain ⟨image, hmem, rfl, hsize⟩ := exists_of_lookup_filterMap himage
    rw [List.mem_reverse] at hmem
    have hsized : a.sizesImage image.id = true :=
      List.any_eq_true.mpr ⟨image, hmem, by simp [hsize]⟩
    rw [measuredAs_of_sizesImage hk hd hsized]
    exact .inl ⟨image, hmem, rfl, hsize⟩
  | none =>
    have hnone := lookup_filterMap_eq_none_iff.mp himage
    simp only [List.mem_reverse] at hnone
    have hsizeless : a.sizesImage id = false := by
      rw [sizesImage, List.any_eq_false]
      intro image hi
      by_cases hid : image.id = id
      · simp [hnone image hi hid]
      · simp [hid]
    cases hsvg : (a.svgs.reverse.filterMap fun s => (some s.size).map (s.id, ·)).lookup id with
    | some size =>
      obtain ⟨svg, hmem, rfl, hsize⟩ := exists_of_lookup_filterMap hsvg
      rw [List.mem_reverse] at hmem
      have hdeclared : a.declaresSvg svg.id = true := List.any_eq_true.mpr ⟨svg, hmem, by simp⟩
      rw [measuredAs_of_declaresSvg hk hd hdeclared hsizeless]
      exact ⟨svg, hmem, rfl, Option.some.inj hsize⟩
    | none =>
      have hundeclared : a.declaresSvg id = false := by
        rw [declaresSvg, List.any_eq_false]
        simpa using lookup_filterMap_eq_none_iff.mp hsvg
      rw [measuredAs_of_not_declaresSvg hk hd hundeclared]
      exact .inr ⟨hnone, rfl⟩

end Sources

theorem Element.declares_of_referenceIssues {a : Sources α} {e : Element α} {path : List Step}
    (h : e.referenceIssues a path = []) {kind : ItemKind} {id : String}
    (hr : (kind, id) ∈ e.references) : a.declares kind id = true := by
  cases e with
  | svg e =>
    cases List.mem_singleton.mp hr
    simpa [referenceIssues, Sources.declares] using h
  | image e =>
    cases List.mem_singleton.mp hr
    simpa [referenceIssues, Sources.declares] using h
  | group g =>
    have hitems : ∀ i ∈ g.items, ∀ id, i.asset = some id → a.declares i.kind id = true := by
      rw [← forall_mem_zipIdx_iff g.items]
      intro p hp id hid
      simpa [hid] using List.flatMap_eq_nil_iff.mp h p hp
    obtain ⟨i, hi, href⟩ := List.mem_filterMap.mp hr
    obtain ⟨rfl, -, hasset⟩ := Item.reference?_eq_some_iff.mp href
    exact hitems i hi id hasset
  | text e => cases hr
  | shape e => cases hr

variable [Scalar α]

theorem Spec.exists_scene_issues_eq_nil {s : Spec α} (h : s.issues = []) {scene : Scene α}
    (hscene : scene ∈ s.scenes) : ∃ path, scene.issues s.assets path = [] := by
  rw [issues_eq] at h
  have hscenes := List.append_eq_nil_iff.mp (List.append_eq_nil_iff.mp h).1
  have hall : ∀ scene ∈ s.scenes, ∃ path, scene.issues s.assets path = [] := by
    rw [← forall_mem_zipIdx_iff s.scenes]
    exact fun p hp => ⟨_, List.flatMap_eq_nil_iff.mp hscenes.2 p hp⟩
  exact hall scene hscene

theorem Spec.declares_of_issues {s : Spec α} (h : s.issues = []) {scene : Scene α}
    (hscene : scene ∈ s.scenes) {e : Element α} (he : e ∈ scene.elements) {kind : ItemKind}
    {id : String} (hr : (kind, id) ∈ e.references) : s.assets.declares kind id = true := by
  obtain ⟨path, hissues⟩ := exists_scene_issues_eq_nil h hscene
  have helements := (List.append_eq_nil_iff.mp hissues).2
  have hall : ∀ e ∈ scene.elements, ∀ kind id, (kind, id) ∈ e.references →
      s.assets.declares kind id = true := by
    rw [← forall_mem_zipIdx_iff scene.elements]
    intro q hq kind id hr
    have hissues := List.flatMap_eq_nil_iff.mp helements q hq
    exact Element.declares_of_referenceIssues (List.append_eq_nil_iff.mp hissues).2 hr
  exact hall e he kind id hr

namespace Compiler
variable (c : Compiler α) (gives : ItemKind → Size α → String → Size α → Prop)

/-- The size that a group item comes in, if assets come in the sizes given. -/
inductive Sized : Item α → Size α → Prop where
  | asset {i : Item α} {id : String} {size : Size α} (reference : i.reference? = some (i.kind, id))
    (given : gives i.kind c.defaults.assetSize id size) : Sized i size
  | text {i : Item α} {line : String} (kind : i.kind = .text) (text : i.text = some line) :
    Sized i (c.stage.textSize line (i.fontSize.getD c.defaults.fontSize)
      c.defaults.groupTextAdvance)

/-- What an element comes to, if assets come in the sizes given. -/
inductive Draws (scene : Scene α) : Element α → List (Deed α) → Prop where
  | svg {e : Picture α} {size : Size α} {f : Fitted α}
    (given : gives .svg c.defaults.assetSize e.asset size)
    (fit : c.stage.fit e.layout size = .ok f) :
    Draws scene (.svg e) [.svg (.place e.asset f (scene.span e.start e.duration) e.animation)]
  | image {e : Picture α} {size : Size α} {f : Fitted α}
    (given : gives .image c.defaults.imageSize e.asset size)
    (fit : c.stage.fit e.layout size = .ok f) :
    Draws scene (.image e)
      [.image (c.imageDeed e.asset f (scene.span e.start e.duration) e.animation)]
  | text {e : TextLine α} {d : TextDeed α} (text : c.text scene e = .ok d) :
    Draws scene (.text e) [.text d]
  | shape {e : Figure α} {d : ShapeDeed α} (shape : c.shape scene e = .ok d) :
    Draws scene (.shape e) [.shape d]
  | group {g : Group α} {sizes : List (Size α)} {fitted : List (Fitted α)}
    (sized : List.Forall₂ (c.Sized gives) (g.items.filter (·.subject?.isSome)) sizes)
    (arranged : c.stage.arrange g.layout (sizes.map (.ofSize "")) = .ok fitted) :
    Draws scene (.group g)
      ((g.items.filter (·.subject?.isSome)).zipWith (c.itemDeed scene g) fitted)

/-- The played scene shows what the elements of the scene come to, after its sound. -/
def Shows (p : PlayedScene α) (scene : Scene α) : Prop :=
  ∃ drawn, List.Forall₂ (c.Draws gives scene) scene.elements drawn ∧
    p.actions.map Action.deed = (scene.audio.map (c.soundtrack scene)).toList ++ drawn.flatten

variable {c gives} {sizes : Sizes α} {scene : Scene α}

theorem sized_of_itemSize? {i : Item α} {size : Size α}
    (hg : ∀ kind id, i.reference? = some (kind, id) →
      gives kind c.defaults.assetSize id ((sizes id).getD c.defaults.assetSize))
    (h : c.itemSize? sizes i = some size) : c.Sized gives i size := by
  have hasset (hk : i.kind ≠ .text)
      (ha : i.asset.map (fun id => (sizes id).getD c.defaults.assetSize) = some size) :
      c.Sized gives i size := by
    obtain ⟨id, hid, rfl⟩ := Option.map_eq_some_iff.mp ha
    have href : i.reference? = some (i.kind, id) := Item.reference?_eq_some_iff.mpr ⟨rfl, hk, hid⟩
    exact .asset href (hg _ _ href)
  unfold itemSize? at h
  cases hk : i.kind with
  | svg => exact hasset (by simp [hk]) (by simpa [hk] using h)
  | image => exact hasset (by simp [hk]) (by simpa [hk] using h)
  | text =>
    simp only [hk] at h
    obtain ⟨text, ht, h⟩ := Option.bind_eq_some_iff.mp h
    obtain ⟨-, -, h⟩ := Option.bind_eq_some_iff.mp h
    cases h
    exact .text hk ht

theorem map_fst_sizedItems (g : Group α) :
    (c.sizedItems sizes g).map Prod.fst = g.items.filter (·.subject?.isSome) := by
  simp only [← isSome_itemSize? c sizes, sizedItems, List.map_filterMap, ← List.filterMap_eq_filter]
  congr 1
  funext item
  cases h : c.itemSize? sizes item <;> simp [Option.guard, h]

theorem element_draws {e : Element α} {deeds : List (Deed α)}
    (hg : ∀ kind id, (kind, id) ∈ e.references → ∀ standIn,
      gives kind standIn id ((sizes id).getD standIn))
    (h : c.elementDeeds sizes scene e = .ok deeds) : c.Draws gives scene e deeds := by
  cases e with
  | svg e =>
    obtain ⟨d, hd, rfl⟩ := map_eq_ok_iff.mp h
    obtain ⟨f, hf, rfl⟩ := map_eq_ok_iff.mp hd
    exact .svg (hg .svg e.asset List.mem_cons_self _) hf
  | image e =>
    obtain ⟨d, hd, rfl⟩ := map_eq_ok_iff.mp h
    obtain ⟨f, hf, rfl⟩ := map_eq_ok_iff.mp hd
    exact .image (hg .image e.asset List.mem_cons_self _) hf
  | text e =>
    obtain ⟨d, hd, rfl⟩ := map_eq_ok_iff.mp h
    exact .text hd
  | shape e =>
    obtain ⟨d, hd, rfl⟩ := map_eq_ok_iff.mp h
    exact .shape hd
  | group g =>
    obtain ⟨-, fitted, ha, rfl⟩ := group_eq_ok_iff_sizedItems.mp h
    have hsized : List.Forall₂ (c.Sized gives) (g.items.filter (·.subject?.isSome))
        (c.intrinsicSizes sizes g) := by
      simp only [← isSome_itemSize? c sizes]
      have hmem : ∀ i ∈ g.items.filter (fun i => (c.itemSize? sizes i).isSome), i ∈ g.items :=
        fun i hi => (List.mem_filter.mp hi).1
      refine ((List.forall₂_and_left _ _).mpr ⟨hmem, forall₂_filter_filterMap _ _⟩).imp ?_
      rintro i size ⟨hi, hsize⟩
      refine sized_of_itemSize? (fun kind id href => ?_) hsize
      exact hg kind id (List.mem_filterMap.mpr ⟨i, hi, href⟩) _
    have hdeeds : (c.sizedItems sizes g).zipWith (fun m f => c.itemDeed scene g m.1 f) fitted =
        (g.items.filter (·.subject?.isSome)).zipWith (c.itemDeed scene g) fitted := by
      rw [← map_fst_sizedItems, List.zipWith_map_left]
    rw [hdeeds]
    exact .group hsized ha

theorem scene_shows {deeds : List (Deed α)} (k : Nat)
    (hg : ∀ e ∈ scene.elements, ∀ kind id, (kind, id) ∈ e.references → ∀ standIn,
      gives kind standIn id ((sizes id).getD standIn))
    (h : c.sceneDeeds sizes scene = .ok deeds) : c.Shows gives (scene.play k deeds) scene := by
  obtain ⟨drawn, hdrawn, rfl⟩ := scene_eq_ok_iff.mp h
  refine ⟨drawn, ((List.forall₂_and_left _ _).mpr ⟨hg, hdrawn⟩).imp ?_, map_deed_play _ _ _⟩
  rintro e deeds ⟨he, hdeeds⟩
  exact element_draws he hdeeds

theorem element_eq_ok_of_draws {a : Sources α} {e : Picture α} {deeds : List (Deed α)}
    (h : c.Draws a.Gives scene (.image e) deeds)
    (hnone : ∀ image ∈ a.images, image.id = e.asset → image.size? = none) :
    c.elementDeeds (fun _ => none) scene (.image e) = .ok deeds := by
  cases h with
  | image given fit =>
    rcases given with ⟨image, hi, hid, hsize⟩ | ⟨-, rfl⟩
    · exact absurd hsize (by simp [hnone image hi hid])
    · simp only [elementDeeds, image, Option.getD_none, fit]
      rfl

/-- In a spec without issues every element is laid out from a size that the declarations of its own
kind give to its asset, if no id is declared for both kinds. For such an id the image decides, if
one of its declarations has a size, and the svg otherwise, for svgs and images alike. -/
theorem compile_shows {s : Spec α} {p : Project α} (hs : s.issues = []) (h : c.compile s = .ok p) :
    List.Forall₂ (c.Shows fun kind standIn id => s.assets.Gives (s.assets.measuredAs kind id)
      standIn id) p.scenes s.scenes ∧
    (s.assets.Apart → List.Forall₂ (c.Shows s.assets.Gives) p.scenes s.scenes) := by
  have hshows : List.Forall₂ (c.Shows fun kind standIn id =>
      s.assets.Gives (s.assets.measuredAs kind id) standIn id) p.scenes s.scenes := by
    have hgives : ∀ scene ∈ s.scenes, ∀ e ∈ scene.elements, ∀ kind id, (kind, id) ∈ e.references →
        ∀ standIn, s.assets.Gives (s.assets.measuredAs kind id) standIn id
          ((s.assets.sizes id).getD standIn) :=
      fun _ hscene _ he _ _ hr => Sources.gives_measuredAs (Element.ne_text_of_mem_references hr)
        (Spec.declares_of_issues hs hscene he hr)
    have hscenes := (forall₂_scenes_of_compileWith h).flip
    refine (((List.forall₂_and_left _ _).mpr ⟨hgives, hscenes⟩).imp ?_).flip
    rintro scene _ ⟨hg, k, deeds, hdeeds, rfl⟩
    exact scene_shows k hg hdeeds
  refine ⟨hshows, fun hapart => ?_⟩
  simpa only [hapart.measuredAs_eq] using hshows

theorem sample_shows : Spec.sample.issues = [] ∧ Spec.sample.assets.Apart ∧
    ∃ p, (plain ⟨1920, 1080⟩).compile Spec.sample = .ok p ∧
      List.Forall₂ ((plain ⟨1920, 1080⟩).Shows Spec.sample.assets.Gives) p.scenes
        Spec.sample.scenes := by
  have hapart : Spec.sample.assets.Apart := by
    simp +contextual [Sources.Apart, Sources.declaresSvg, Sources.declaresImage, Spec.sample]
  have h : ((plain ⟨1920, 1080⟩).compile Spec.sample).toOption.isSome := by decide +kernel
  obtain ⟨p, hp⟩ := isSome_toOption_iff.mp h
  exact ⟨Spec.issues_sample, hapart, p, hp, (compile_shows Spec.issues_sample hp).2 hapart⟩

end Compiler

/-- An image without a size that is called like an svg. -/
def Spec.namesakes : Spec Float where
  heading := ⟨"Namesakes", "1", ⟨1920, 1080⟩, 30, none⟩
  assets := ⟨[⟨"cloud", "cloud.svg", ⟨200, 100⟩⟩], [], [⟨"cloud", "cloud.png", none, none⟩]⟩
  scenes := [{
    id := "sky", name := "Sky", start := 0, duration := 5, background := none, audio := none
    elements := [.image ⟨"cloud", ⟨.center, none, none, none⟩, 0, 5, none⟩] }]

def Deed.imageBox? : Deed α → Option PixelBox
  | .image d => some d.box
  | .svg _ | .text _ | .shape _ | .audio _ => none

namespace Compiler

theorem namesakes_not_shown : Spec.namesakes.issues = [] ∧
    ∃ p, (plain ⟨1920, 1080⟩).compile Spec.namesakes = .ok p ∧
      ¬List.Forall₂ ((plain ⟨1920, 1080⟩).Shows Spec.namesakes.assets.Gives) p.scenes
        Spec.namesakes.scenes := by
  have hissues : Spec.namesakes.issues = [] := by
    rw [Spec.issues, Spec.overlaps_of_singleton rfl, ← List.isEmpty_iff]
    decide +kernel
  have hany : ((plain ⟨1920, 1080⟩).compile Spec.namesakes).toOption.any (fun p =>
      (p.actions.map Action.deed).map Deed.imageBox? == [some ⟨960, 540, 672, 336⟩]) = true := by
    decide +kernel
  obtain ⟨p, hp, hcompiled⟩ := any_toOption_iff.mp hany
  refine ⟨hissues, p, hp, fun hshows => ?_⟩
  obtain ⟨played, _, ⟨drawn, hdrawn, hactions⟩, hrest, hscenes⟩ :=
    List.forall₂_cons_right_iff.mp hshows
  obtain ⟨deeds, _, hdeeds, hnil, rfl⟩ := List.forall₂_cons_left_iff.mp hdrawn
  obtain rfl := List.forall₂_nil_left_iff.mp hnil
  obtain rfl := List.forall₂_nil_right_iff.mp hrest
  have helement := element_eq_ok_of_draws hdeeds (by decide)
  have hstandIn : some (deeds.map Deed.imageBox?) = some [some ⟨960, 540, 504, 378⟩] :=
    (congrArg (fun x => x.toOption.map (List.map Deed.imageBox?)) helement).symm.trans
      (by decide +kernel)
  have hactions : p.actions.map Action.deed = deeds := by
    simpa [Project.actions, hscenes] using hactions
  rw [hactions, beq_iff_eq] at hcompiled
  rw [hcompiled] at hstandIn
  exact absurd hstandIn (by decide)

end Compiler
end Storyboard
