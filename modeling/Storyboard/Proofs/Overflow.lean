import Storyboard.Proofs.Consistency
import Storyboard.Proofs.Cue
import Storyboard.Proofs.ProjectFinite
import Storyboard.Proofs.SpecFinite

set_option autoImplicit false

namespace Storyboard
variable {α : Type}

def Deed.scale? : Deed α → Option α
  | .svg d => some d.scale
  | .image d => some d.scale
  | .text _ | .shape _ | .audio _ => none

/-- The numbers of an action that are taken over from the spec or the settings. -/
def Deed.copied : Deed α → List α
  | .svg d => [d.duration]
  | .text d => [d.fontSize, d.duration]
  | .shape d => [d.strokeWidth, d.duration] ++ d.arrowHeadSize.toList
  | .image d => [d.duration]
  | .audio d => [d.volume, d.duration]

def Defaults.reals (d : Defaults α) : List α :=
  [d.fontSize, d.strokeWidth, d.arrowHeadSize, d.volume]

section Copied
variable {P : α → Prop}

theorem Deed.forall_reals_iff (d : Deed α) :
    (∀ x ∈ d.reals, P x) ↔
      P d.start ∧ (∀ x ∈ d.scale?, P x) ∧ ∀ x ∈ d.copied, P x := by
  cases d with
  | svg d => simp [reals, SvgDeed.reals, start, scale?, copied, and_left_comm]
  | text d => simp [reals, TextDeed.reals, start, scale?, copied, and_left_comm]
  | shape d =>
    simp only [reals, ShapeDeed.reals, start, scale?, copied]
    simp [and_left_comm]
  | image d => simp [reals, ImageDeed.reals, start, scale?, copied, and_left_comm]
  | audio d => simp [reals, AudioDeed.reals, start, scale?, copied, and_left_comm]

theorem getD_of_forall_mem {o : Option α} {a : α} (ho : ∀ x ∈ o, P x) (ha : P a) :
    P (o.getD a) := by
  cases o with
  | none => exact ha
  | some x => exact ho x rfl

theorem getD_ite_isEmpty {β : Type} (xs : List β) :
    (if xs.isEmpty then none else some xs).getD [] = xs := by cases xs <;> rfl

theorem AssetTable.forall_reals_ofSources {a : Sources α} (h : ∀ x ∈ a.reals, P x) :
    ∀ x ∈ (AssetTable.ofSources a).reals, P x := by
  simp only [Sources.reals, Size.reals, ImageSource.reals, List.forall_mem_append,
    List.forall_mem_flatMap, List.forall_mem_cons] at h
  simp only [reals, ofSources, List.forall_mem_flatMap, List.forall_mem_cons, getD_ite_isEmpty,
    List.forall_mem_map, Asset.reals, List.forall_mem_append, Option.getD_none]
  refine ⟨fun s hs => ?_, by simp, by simp, h.2, by simp⟩
  simpa using h.1 s hs

namespace Compiler
variable [Scalar α] {c : Compiler α} {sizes : Sizes α} {scene : Scene α}

theorem forall_copied_itemDeed (hc : ∀ x ∈ c.defaults.reals, P x) {g : Group α} {i : Item α}
    (hg : P g.duration) (hi : ∀ x ∈ i.reals, P x) (f : Fitted α) :
    ∀ x ∈ (c.itemDeed scene g i f).copied, P x := by
  simp only [Item.reals, List.forall_mem_append, Option.mem_toList] at hi
  simp only [Defaults.reals, List.forall_mem_cons] at hc
  have hduration : P (i.duration.getD g.duration) := getD_of_forall_mem hi.2 hg
  have hfontSize : P (i.fontSize.getD c.defaults.fontSize) := getD_of_forall_mem hi.1.1 hc.1
  unfold itemDeed
  cases i.kind with
  | svg => simpa [Deed.copied, SvgDeed.place, Scene.span] using hduration
  | image => simpa [Deed.copied, imageDeed, Scene.span] using hduration
  | text => simpa [Deed.copied, textDeed, Scene.span] using ⟨hfontSize, hduration⟩

theorem forall_copied_shape (hc : ∀ x ∈ c.defaults.reals, P x) {e : Figure α}
    (he : ∀ x ∈ e.reals, P x) {d : ShapeDeed α} (h : c.shape scene e = .ok d) :
    ∀ x ∈ (Deed.shape d).copied, P x := by
  simp only [Figure.reals, List.forall_mem_append, List.forall_mem_cons, Option.mem_toList] at he
  simp only [Defaults.reals, List.forall_mem_cons] at hc
  have hwidth : P (e.strokeWidth.getD c.defaults.strokeWidth) := getD_of_forall_mem he.1.1.2 hc.2.1
  have hhead : P (e.arrowHeadSize.getD c.defaults.arrowHeadSize) :=
    getD_of_forall_mem he.1.2 hc.2.2.1
  have hduration : P e.duration := he.1.1.1.2.2.1
  unfold shape at h
  split at h
  · cases h
    cases hshape : e.shape == .arrow with
    | true =>
      simpa [Deed.copied, connectorDeed, shapeDeed, Scene.span, hshape] using
        ⟨hwidth, hduration, hhead⟩
    | false =>
      simpa [Deed.copied, connectorDeed, shapeDeed, Scene.span, hshape] using ⟨hwidth, hduration⟩
  · obtain ⟨f, -, rfl⟩ := map_eq_ok_iff.mp h
    have hcopied : (Deed.shape (c.closedDeed scene e f)).copied =
        [e.strokeWidth.getD c.defaults.strokeWidth, e.duration] := by
      unfold closedDeed
      cases e.shape <;> rfl
    simpa [hcopied] using ⟨hwidth, hduration⟩
  · cases h
  · cases h

theorem forall_copied_element (hc : ∀ x ∈ c.defaults.reals, P x) {e : Element α}
    (he : ∀ x ∈ e.reals, P x) {deeds : List (Deed α)}
    (h : c.elementDeeds sizes scene e = .ok deeds) :
    ∀ d ∈ deeds, ∀ x ∈ d.copied, P x := by
  cases e with
  | svg e =>
    obtain ⟨d, hd, rfl⟩ := map_eq_ok_iff.mp h
    obtain ⟨f, -, rfl⟩ := map_eq_ok_iff.mp hd
    have hduration : P e.duration := he _ (by simp [Element.reals, Picture.reals])
    simpa [Deed.copied, SvgDeed.place, Scene.span] using hduration
  | text e =>
    obtain ⟨d, hd, rfl⟩ := map_eq_ok_iff.mp h
    obtain ⟨box, -, rfl⟩ := map_eq_ok_iff.mp hd
    have hduration : P e.duration := he _ (by simp [Element.reals, TextLine.reals])
    have hfontSize : P (e.fontSize.getD c.defaults.fontSize) :=
      getD_of_forall_mem (fun x hx => he x (by simp_all [Element.reals, TextLine.reals]))
        (hc _ (by simp [Defaults.reals]))
    simpa [Deed.copied, textDeed, Scene.span] using ⟨hfontSize, hduration⟩
  | shape e =>
    obtain ⟨d, hd, rfl⟩ := map_eq_ok_iff.mp h
    rw [List.forall_mem_singleton]
    exact forall_copied_shape hc he hd
  | image e =>
    obtain ⟨d, hd, rfl⟩ := map_eq_ok_iff.mp h
    obtain ⟨f, -, rfl⟩ := map_eq_ok_iff.mp hd
    have hduration : P e.duration := he _ (by simp [Element.reals, Picture.reals])
    simpa [Deed.copied, imageDeed, Scene.span] using hduration
  | group g =>
    simp only [Element.reals, Group.reals, List.forall_mem_append, List.forall_mem_flatMap,
      List.forall_mem_cons] at he
    intro d hd
    obtain ⟨i, hi, f, rfl⟩ := exists_item_of_group h d hd
    exact forall_copied_itemDeed hc he.2.2.1 (he.1.2 i hi) f

theorem forall_copied_scene (hc : ∀ x ∈ c.defaults.reals, P x) (hs : ∀ x ∈ scene.reals, P x)
    {deeds : List (Deed α)} (h : c.sceneDeeds sizes scene = .ok deeds) :
    ∀ d ∈ deeds, ∀ x ∈ d.copied, P x := by
  obtain ⟨drawn, hdrawn, rfl⟩ := scene_eq_ok_iff.mp h
  simp only [Scene.reals, List.forall_mem_append, List.forall_mem_flatMap, List.forall_mem_cons,
    Option.mem_toList] at hs
  obtain ⟨⟨⟨-, hduration, -⟩, haudio⟩, helements⟩ := hs
  rw [List.forall_mem_append]
  constructor
  · intro d hd
    obtain ⟨t, ht, rfl⟩ := Option.map_eq_some_iff.mp (Option.mem_toList.mp hd)
    have hvolume : P (t.volume.getD c.defaults.volume) :=
      getD_of_forall_mem (fun x hx => haudio t ht x (by simpa [Soundtrack.reals] using hx))
        (hc _ (by simp [Defaults.reals]))
    simpa [soundtrack, Deed.copied] using ⟨hvolume, hduration⟩
  · rw [List.forall_mem_flatten]
    exact forall_mem_of_forall₂ hdrawn fun e he _ hds =>
      forall_copied_element hc (helements e he) hds

end Compiler
end Copied

/-- No sum and no ratio in the project passed the largest double. -/
structure Spec.Bounded (s : Spec Float) (p : Project Float) : Prop where
  duration : s.duration.isFinite = true
  starts : ∀ scene ∈ s.scenes, ∀ q ∈ scene.cues, q.start.isFinite = true
  scales : ∀ a ∈ p.actions, ∀ x ∈ a.deed.scale?, x.isFinite = true

namespace Compiler
variable {c : Compiler Float} {sizes : Sizes Float}

theorem forall_start_play_iff {scene : Scene Float} {deeds : List (Deed Float)} (k : Nat)
    (h : c.sceneDeeds sizes scene = .ok deeds) :
    (∀ a ∈ (scene.play k deeds).actions, a.deed.start.isFinite = true) ↔
      ∀ q ∈ scene.cues, q.start.isFinite = true := by
  rw [← scene_cues h, ← map_cue_play k scene deeds, List.forall_mem_map]
  simp only [Deed.cue_start]

theorem allFinite_play_iff {scene : Scene Float} {deeds : List (Deed Float)} (k : Nat)
    (hc : AllFinite c.defaults.reals) (hs : AllFinite scene.reals)
    (h : c.sceneDeeds sizes scene = .ok deeds) :
    AllFinite (scene.play k deeds).reals ↔
      (∀ a ∈ (scene.play k deeds).actions, a.deed.start.isFinite = true) ∧
        ∀ a ∈ (scene.play k deeds).actions, ∀ x ∈ a.deed.scale?, x.isFinite = true := by
  have hcopied : ∀ a ∈ (scene.play k deeds).actions, AllFinite a.deed.copied := by
    rw [← List.forall_mem_map (f := Action.deed) (P := fun d => AllFinite d.copied), map_deed_play]
    exact forall_copied_scene hc hs h
  have hdeeds : (∀ a ∈ (scene.play k deeds).actions, AllFinite a.deed.reals) ↔
      ∀ a ∈ (scene.play k deeds).actions, a.deed.start.isFinite = true ∧
        ∀ x ∈ a.deed.scale?, x.isFinite = true := by
    refine forall₂_congr fun a ha => ?_
    have hiff := Deed.forall_reals_iff (P := fun x => x.isFinite = true) a.deed
    rw [AllFinite, hiff, ← and_assoc]
    exact and_iff_left (hcopied a ha)
  have htimes : AllFinite [scene.start, scene.duration] := by
    simp only [Scene.reals, allFinite_append] at hs
    exact hs.1.1
  rw [PlayedScene.reals, allFinite_append, allFinite_flatMap, hdeeds, forall₂_and]
  exact and_iff_right htimes

theorem allFinite_reals_iff {s : Spec Float} {p : Project Float} (hc : AllFinite c.defaults.reals)
    (hs : AllFinite s.reals) (h : c.compileWith sizes s = .ok p) :
    AllFinite p.reals ↔ s.Bounded p := by
  -- scene by scene, all but the starts and the scales is known to be finite
  have hplayed := forall₂_scenes_of_compileWith h
  simp only [Spec.reals, allFinite_append, allFinite_flatMap] at hs
  have hstarts : (∀ played ∈ p.scenes, ∀ a ∈ played.actions, a.deed.start.isFinite = true) ↔
      ∀ scene ∈ s.scenes, ∀ q ∈ scene.cues, q.start.isFinite = true := by
    refine forall_mem_iff_of_forall₂ (hplayed.imp ?_)
    rintro _ scene ⟨k, deeds, hdeeds, rfl⟩
    exact forall_start_play_iff k hdeeds
  have hscenes : (∀ played ∈ p.scenes, AllFinite played.reals) ↔
      ∀ played ∈ p.scenes, (∀ a ∈ played.actions, a.deed.start.isFinite = true) ∧
        ∀ a ∈ played.actions, ∀ x ∈ a.deed.scale?, x.isFinite = true := by
    refine forall₂_congr (forall_mem_of_forall₂ hplayed.flip fun scene hscene played hd => ?_)
    obtain ⟨k, deeds, hdeeds, rfl⟩ := hd
    exact allFinite_play_iff k hc (hs.2 scene hscene) hdeeds
  obtain ⟨deeds, -, hp⟩ := compileWith_eq_ok_iff.mp h
  have hassets : AllFinite p.assets.reals := by
    rw [hp]
    exact AssetTable.forall_reals_ofSources hs.1
  have hduration : p.info.duration = s.duration := by rw [hp, ProjectInfo.ofSpec]
  have hscales : (∀ a ∈ p.actions, ∀ x ∈ a.deed.scale?, x.isFinite = true) ↔
      ∀ played ∈ p.scenes, ∀ a ∈ played.actions, ∀ x ∈ a.deed.scale?, x.isFinite = true :=
    List.forall_mem_flatMap
  rw [Project.reals, allFinite_append, allFinite_append, allFinite_cons, allFinite_flatMap, hscenes,
    forall₂_and, hstarts, hduration, ← hscales]
  constructor
  · rintro ⟨⟨⟨hd, -⟩, -⟩, hs, hx⟩
    exact ⟨hd, hs, hx⟩
  · rintro ⟨hd, hs, hx⟩
    exact ⟨⟨⟨hd, allFinite_nil⟩, hassets⟩, hs, hx⟩

theorem allFinite_defaults_of_ofSpec {s : Spec Float} (hc : ofSpec s = .ok c) :
    AllFinite c.defaults.reals := by
  obtain ⟨canvas, -, rfl⟩ := map_eq_ok_iff.mp hc
  have hdefault : AllFinite (default : Defaults Float).reals := by decide
  exact hdefault

/-- What was compiled from a text is read back from its own text exactly if all its numbers are
finite, as one that is not is written as null. All that can pass the largest double in it are its
sums and ratios: everything else is as finite as the text it came from. -/
theorem compile_read_back_iff {text : String} {s : Spec Float} {p : Project Float}
    (hs : Spec.ofText text = .ok s) (hc : ofSpec s = .ok c) (h : c.compile s = .ok p)
    (hnumbers : ∀ x ∈ p.reals, x.isFinite = true → Json.Rereads x) :
    (Project.ofText p.toText = .ok p ↔ AllFinite p.reals) ∧
      (AllFinite p.reals ↔ s.Bounded p) := by
  refine ⟨⟨Project.allFinite_of_ofText, fun hfinite => ?_⟩, ?_⟩
  · exact Project.read_back_of_finite hfinite hnumbers
  · exact allFinite_reals_iff (allFinite_defaults_of_ofSpec hc) (Spec.allFinite_of_ofText hs) h

theorem everyForm_read_back : ∃ c p, Spec.ofText Spec.everyForm.toText = .ok Spec.everyForm ∧
    ofSpec Spec.everyForm = .ok c ∧ c.compile Spec.everyForm = .ok p ∧
    (∀ x ∈ p.reals, x.isFinite = true → Json.Rereads x) ∧ Project.ofText p.toText = .ok p := by
  have hread : Spec.ofText Spec.everyForm.toText = .ok Spec.everyForm :=
    Spec.ofText_toText (by decide +kernel)
  have hany : ((plain ⟨1920, 1080⟩).compile Spec.everyForm).toOption.any (fun p =>
      decide (AllFinite p.reals ∧ ∀ x ∈ p.reals, x.isFinite = true → Json.Rereads x)) = true := by
    decide +kernel
  obtain ⟨p, hp, hnumbers⟩ := any_toOption_iff.mp hany
  obtain ⟨hfinite, hnumbers⟩ := of_decide_eq_true hnumbers
  exact ⟨plain ⟨1920, 1080⟩, p, hread, rfl, hp, hnumbers,
    (compile_read_back_iff hread rfl hp hnumbers).1.mpr hfinite⟩

end Compiler

/-- One scene whose end is past the largest double. -/
def Spec.perpetual : Spec Float where
  heading := ⟨"Perpetual", "1", ⟨1920, 1080⟩, 30, none⟩
  assets := ⟨[], [], []⟩
  scenes := [{ id := "sky", name := "Sky", start := 1e308, duration := 1e308, background := none
               audio := none, elements := [] }]

namespace Compiler

theorem perpetual_not_read_back : Spec.perpetual.issues = [] ∧
    Spec.ofText Spec.perpetual.toText = .ok Spec.perpetual ∧
    ∃ c p, ofSpec Spec.perpetual = .ok c ∧ c.compile Spec.perpetual = .ok p ∧
      ¬AllFinite p.reals ∧ Project.ofText p.toText ≠ .ok p := by
  have hissues : Spec.perpetual.issues = [] := by
    rw [Spec.issues, Spec.overlaps_of_singleton rfl, ← List.isEmpty_iff]
    decide +kernel
  have hread : Spec.ofText Spec.perpetual.toText = .ok Spec.perpetual :=
    Spec.ofText_toText (by decide +kernel)
  have hany : ((plain ⟨1920, 1080⟩).compile Spec.perpetual).toOption.any (fun p =>
      decide (¬AllFinite p.reals)) = true := by decide +kernel
  obtain ⟨p, hp, hinfinite⟩ := any_toOption_iff.mp hany
  replace hinfinite := of_decide_eq_true hinfinite
  exact ⟨hissues, hread, plain ⟨1920, 1080⟩, p, rfl, hp, hinfinite,
    fun hback => hinfinite (Project.allFinite_of_ofText hback)⟩

end Compiler
end Storyboard
