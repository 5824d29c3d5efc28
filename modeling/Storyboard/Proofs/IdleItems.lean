import Storyboard.Proofs.Composition
import Storyboard.Proofs.Group

set_option autoImplicit false

namespace Storyboard
variable {α : Type}

def Item.Idle (i : Item α) : Prop :=
  match i.kind with
  | .svg | .image => i.asset = none
  | .text => i.text = none ∨ i.text = some ""

/-- The second list is the first with idle items put in between. -/
inductive Item.Strewn : List (Item α) → List (Item α) → Prop where
  | nil : Strewn [] []
  | keep (i : Item α) {xs ys : List (Item α)} (rest : Strewn xs ys) : Strewn (i :: xs) (i :: ys)
  | idle {i : Item α} {xs ys : List (Item α)} (idle : i.Idle) (rest : Strewn xs ys) :
    Strewn xs (i :: ys)

inductive Element.Strewn : Element α → Element α → Prop where
  | same (e : Element α) : Strewn e e
  | group (g : Group α) {items : List (Item α)} (strewn : Item.Strewn g.items items) :
    Strewn (.group g) (.group { g with items })

def Scene.Strewn (s t : Scene α) : Prop :=
  ∃ elements, List.Forall₂ Element.Strewn s.elements elements ∧ t = { s with elements }

def Spec.Strewn (s t : Spec α) : Prop :=
  ∃ scenes, List.Forall₂ Scene.Strewn s.scenes scenes ∧ t = { s with scenes }

theorem Item.Strewn.filterMap_eq {β : Type} {f : Item α → Option β}
    (hf : ∀ i : Item α, i.Idle → f i = none) {xs ys : List (Item α)} (h : Strewn xs ys) :
    ys.filterMap f = xs.filterMap f := by
  induction h with
  | nil => rfl
  | keep i _ ih => simp only [List.filterMap_cons, ih]
  | idle hi _ ih => rw [List.filterMap_cons_none (hf _ hi), ih]

theorem Scene.Strewn.redrawn {s t : Scene α} (h : s.Strewn t) : s.Redrawn t := by
  obtain ⟨elements, -, rfl⟩ := h
  exact ⟨s.audio, elements, rfl⟩

variable [Scalar α]

namespace Compiler
variable {c : Compiler α} {sizes : Sizes α} {scene : Scene α}

theorem itemSize?_of_idle {i : Item α} (h : i.Idle) : c.itemSize? sizes i = none := by
  unfold Item.Idle at h
  unfold itemSize?
  cases hk : i.kind with
  | svg => simp_all
  | image => simp_all
  | text =>
    rw [hk] at h
    rcases h with h | h <;> simp [h, guard]

section Group
variable {g : Group α} {items : List (Item α)}

theorem sizedItems_strewn (h : Item.Strewn g.items items) :
    c.sizedItems sizes { g with items } = c.sizedItems sizes g :=
  h.filterMap_eq fun i hi => by rw [itemSize?_of_idle hi, Option.map_none]

theorem intrinsicSizes_strewn (h : Item.Strewn g.items items) :
    c.intrinsicSizes sizes { g with items } = c.intrinsicSizes sizes g :=
  h.filterMap_eq fun _ => itemSize?_of_idle

theorem group_strewn_eq_ok_iff (h : Item.Strewn g.items items) (deeds : List (Deed α)) :
    c.groupDeeds sizes scene { g with items } = .ok deeds ↔
      c.groupDeeds sizes scene g = .ok deeds := by
  rw [group_eq_ok_iff_sizedItems, group_eq_ok_iff_sizedItems, sizedItems_strewn h,
    intrinsicSizes_strewn h]
  rfl

theorem unnamed_failure?_group_strewn (h : Item.Strewn g.items items) :
    (failure? (c.groupDeeds sizes scene { g with items })).map Fault.unnamed =
      (failure? (c.groupDeeds sizes scene g)).map Fault.unnamed := by
  rw [unnamed_failure?_group, unnamed_failure?_group, computedSizes, computedSizes,
    intrinsicSizes_strewn h]

end Group

theorem element_strewn_eq_ok_iff {e e' : Element α} (h : e.Strewn e') (deeds : List (Deed α)) :
    c.elementDeeds sizes scene e = .ok deeds ↔ c.elementDeeds sizes scene e' = .ok deeds := by
  cases h with
  | same => exact Iff.rfl
  | group g hitems => exact (group_strewn_eq_ok_iff hitems deeds).symm

theorem unnamed_failure?_element_strewn {e e' : Element α} (h : e.Strewn e') :
    (failure? (c.elementDeeds sizes scene e)).map Fault.unnamed =
      (failure? (c.elementDeeds sizes scene e')).map Fault.unnamed := by
  cases h with
  | same => rfl
  | group g hitems => exact (unnamed_failure?_group_strewn hitems).symm

theorem scene_strewn_eq_ok_iff {s t : Scene α} (h : s.Strewn t) (deeds : List (Deed α)) :
    c.sceneDeeds sizes s = .ok deeds ↔ c.sceneDeeds sizes t = .ok deeds := by
  obtain ⟨elements, helements, rfl⟩ := h
  have hdrawn (drawn : List (List (Deed α))) :
      List.Forall₂ (fun e ds => c.elementDeeds sizes s e = .ok ds) s.elements drawn ↔
        List.Forall₂ (fun e ds => c.elementDeeds sizes s e = .ok ds) elements drawn :=
    forall₂_iff_of_forall₂ (helements.imp fun _ _ he => element_strewn_eq_ok_iff he)
  rw [scene_eq_ok_iff, scene_of_elements_iff]
  simp only [hdrawn]

theorem unnamed_failure?_scene_strewn {s t : Scene α} (h : s.Strewn t) :
    (failure? (c.sceneDeeds sizes s)).map Fault.unnamed =
      (failure? (c.sceneDeeds sizes t)).map Fault.unnamed := by
  obtain ⟨elements, helements, rfl⟩ := h
  rw [failure?_scene, failure?_scene, List.map_findSome?, List.map_findSome?]
  refine findSome?_eq_of_forall₂ (helements.imp fun e e' he => ?_)
  simp only [Function.comp_apply, element_of_scene]
  exact unnamed_failure?_element_strewn he

/-- Idle items may be put into the groups of a spec, or left out, and nothing else changes: the spec
compiles to the same project, or fails with the same fault but for the id of the item that it is
about. -/
theorem compileWith_strewn {s t : Spec α} (h : s.Strewn t) :
    (∀ p, c.compileWith sizes t = .ok p ↔ c.compileWith sizes s = .ok p) ∧
      (failure? (c.compileWith sizes t)).map Fault.kind =
        (failure? (c.compileWith sizes s)).map Fault.kind ∧
      (failure? (c.compileWith sizes t)).map Fault.unnamed =
        (failure? (c.compileWith sizes s)).map Fault.unnamed := by
  have hok (p : Project α) :
      c.compileWith sizes t = .ok p ↔ c.compileWith sizes s = .ok p := by
    obtain ⟨scenes, hscenes, rfl⟩ := h
    have hredrawn := hscenes.imp fun _ _ hs => hs.redrawn
    have hdeeds (deeds : List (List (Deed α))) :
        List.Forall₂ (fun scene ds => c.sceneDeeds sizes scene = .ok ds) s.scenes deeds ↔
          List.Forall₂ (fun scene ds => c.sceneDeeds sizes scene = .ok ds) scenes deeds :=
      forall₂_iff_of_forall₂ (hscenes.imp fun _ _ hs => scene_strewn_eq_ok_iff hs)
    rw [compileWith_eq_ok_iff, compileWith_eq_ok_iff, info_redrawn hredrawn]
    simp only [hdeeds, playAll_redrawn hredrawn]
  have hfault : (failure? (c.compileWith sizes t)).map Fault.unnamed =
      (failure? (c.compileWith sizes s)).map Fault.unnamed := by
    obtain ⟨scenes, hscenes, rfl⟩ := h
    rw [failure?_compileWith_scenes, failure?_compileWith_scenes, List.map_findSome?,
      List.map_findSome?]
    symm
    exact findSome?_eq_of_forall₂ (hscenes.imp fun _ _ hs => unnamed_failure?_scene_strewn hs)
  have hkind : (failure? (c.compileWith sizes t)).map Fault.kind =
      (failure? (c.compileWith sizes s)).map Fault.kind := by
    have hmap := congrArg (Option.map Fault.kind) hfault
    simpa only [Option.map_map, Function.comp_def, Fault.kind_unnamed] using hmap
  exact ⟨hok, hkind, hfault⟩

end Compiler

/-- A storyboard that is one row of items, between a title and a picture. -/
def Spec.row (items : List (Item Rat)) : Spec Rat where
  heading := ⟨"Row", "1", ⟨640, 360⟩, 25, none⟩
  assets := ⟨[⟨"cloud", "cloud.svg", ⟨200, 100⟩⟩], [], []⟩
  scenes :=
    let placing : Placing Rat := ⟨.center, none, none, none⟩
    [{ id := "sky", name := "Sky", start := 0, duration := 4, background := none, audio := none
       elements := [
        .text ⟨"Clouds", placing, 0, 2, none, none, none, none⟩,
        .group { layout := ⟨.row, none, none, none, some .fill, none, none⟩, items, start := 1
                 duration := 3 },
        .svg ⟨"cloud", placing, 2, 2, none⟩] }]

theorem Spec.strewn_row {items items' : List (Item Rat)} (h : Item.Strewn items items') :
    (Spec.row items).Strewn (Spec.row items') :=
  ⟨_, .cons ⟨_, .cons (.same _) (.cons (.group _ h) (.cons (.same _) .nil)), rfl⟩ .nil, rfl⟩

namespace Compiler

theorem row_strewn :
    let cloud : Item Rat := ⟨.svg, some "cloud", none, none, none, none, none, none, none⟩
    let lost : Item Rat := { cloud with kind := .image, asset := none }
    let blank : Item Rat := { cloud with kind := .text, text := some "" }
    let sparse := Spec.row [cloud, cloud]
    let dense := Spec.row [blank, cloud, lost, blank, cloud]
    sparse.Strewn dense ∧ ∃ p, (plain ⟨640, 360⟩).compileWith sparse.assets.sizes sparse = .ok p ∧
      (plain ⟨640, 360⟩).compileWith sparse.assets.sizes dense = .ok p := by
  intro cloud lost blank sparse dense
  have hstrewn : sparse.Strewn dense := Spec.strewn_row <|
    .idle (.inr rfl) <| .keep _ <| .idle rfl <| .idle (.inr rfl) <| .keep _ .nil
  have h : ((plain ⟨640, 360⟩).compileWith sparse.assets.sizes sparse).toOption.isSome := by
    decide +kernel
  obtain ⟨p, hp⟩ := isSome_toOption_iff.mp h
  exact ⟨hstrewn, p, hp, ((compileWith_strewn hstrewn).1 p).mpr hp⟩

end Compiler
end Storyboard
