import Storyboard.Proofs.Consistency
import Storyboard.Proofs.Cue

set_option autoImplicit false

namespace Storyboard

def PlayedScene.KeepsTime (p : PlayedScene Rat) : Prop :=
  ∀ a ∈ p.actions, p.start ≤ a.deed.start ∧ 0 < a.deed.duration ∧
    a.deed.start + a.deed.duration ≤ p.start + p.duration

instance (p : PlayedScene Rat) : Decidable p.KeepsTime :=
  inferInstanceAs (Decidable (∀ a ∈ p.actions, _ ∧ _ ∧ _))

def Cue.Fits (s : Scene Rat) (q : Cue Rat) : Prop :=
  0 ≤ q.start ∧ 0 < q.duration ∧ q.start + q.duration ≤ s.duration

/-- The times of a group item, its own or those of its group, lie within the scene. -/
def Item.Fits (s : Scene Rat) (g : Group Rat) (i : Item Rat) : Prop :=
  0 ≤ i.start.getD g.start ∧ 0 < i.duration.getD g.duration ∧
    i.start.getD g.start + i.duration.getD g.duration ≤ s.duration

instance (s : Scene Rat) (g : Group Rat) (i : Item Rat) : Decidable (i.Fits s g) :=
  inferInstanceAs (Decidable (_ ∧ _ ∧ _))

def Item.hasOwnTime (i : Item Rat) : Bool := i.start.isSome || i.duration.isSome

/-- The items of a group that count and have a time of their own fit into the scene. -/
def Element.ItemsFit (s : Scene Rat) : Element Rat → Prop
  | .group g => ∀ i ∈ g.items, i.subject?.isSome → i.hasOwnTime → i.Fits s g
  | .svg _ | .text _ | .shape _ | .image _ => True

instance (s : Scene Rat) : DecidablePred (Element.ItemsFit s)
  | .group g => inferInstanceAs (Decidable (∀ i ∈ g.items, _ → _ → i.Fits s g))
  | .svg _ | .text _ | .shape _ | .image _ => isTrue trivial

def Scene.ItemsFit (s : Scene Rat) : Prop := ∀ e ∈ s.elements, e.ItemsFit s

instance (s : Scene Rat) : Decidable s.ItemsFit :=
  inferInstanceAs (Decidable (∀ e ∈ s.elements, e.ItemsFit s))

theorem Cue.fits_iff_after (s : Scene Rat) (q : Cue Rat) :
    q.Fits s ↔ s.start ≤ (q.after s.start).start ∧ 0 < (q.after s.start).duration ∧
      (q.after s.start).start + (q.after s.start).duration ≤ s.start + s.duration := by
  have hstart : s.start ≤ s.start + q.start ↔ 0 ≤ q.start := le_add_iff_nonneg_right s.start
  have hstop : s.start + q.start + q.duration ≤ s.start + s.duration ↔
      q.start + q.duration ≤ s.duration := by
    rw [add_assoc]
    exact add_le_add_iff_left s.start
  unfold Fits after
  rw [hstart, hstop]

theorem Item.fits_of_group {a : Sources Rat} {s : Scene Rat} {g : Group Rat} {i : Item Rat}
    (hg : (Element.group g).Consistent a s) (hi : i.hasOwnTime = false) : i.Fits s g := by
  simp only [hasOwnTime, Bool.or_eq_false_iff, Option.isSome_eq_false_iff,
    Option.isNone_iff_eq_none] at hi
  simp only [Fits, hi.1, hi.2, Option.getD_none]
  exact ⟨hg.start_nonneg, hg.duration_pos, hg.stop_le⟩

theorem Element.forall_cues_fits_iff {a : Sources Rat} {s : Scene Rat} {e : Element Rat}
    (he : e.Consistent a s) : (∀ q ∈ e.cues, q.Fits s) ↔ e.ItemsFit s := by
  have hlone : ∀ subject, ∀ q ∈ [(⟨subject, e.start, e.duration⟩ : Cue Rat)], q.Fits s := by
    intro subject q hq
    rw [List.mem_singleton.mp hq]
    exact ⟨he.start_nonneg, he.duration_pos, he.stop_le⟩
  cases e with
  | svg e => exact iff_of_true (hlone (.svg e.asset)) trivial
  | text e => exact iff_of_true (hlone (.text e.text)) trivial
  | shape e => exact iff_of_true (hlone (.shape e.shape)) trivial
  | image e => exact iff_of_true (hlone (.image e.asset)) trivial
  | group g =>
    constructor
    · intro h i hi hsome _
      obtain ⟨subject, hs⟩ := Option.isSome_iff_exists.mp hsome
      exact h ⟨subject, i.start.getD g.start, i.duration.getD g.duration⟩
        (List.mem_filterMap.mpr ⟨i, hi, by simp [Item.cue?, hs]⟩)
    · intro h q hq
      obtain ⟨i, hi, hc⟩ := List.mem_filterMap.mp hq
      obtain ⟨subject, hs, rfl⟩ := Option.map_eq_some_iff.mp hc
      cases hown : i.hasOwnTime with
      | true => exact h i hi (by simp [hs]) hown
      | false => exact Item.fits_of_group he hown

theorem Scene.forall_cues_iff {a : Sources Rat} {s : Scene Rat} (hs : s.Consistent a) :
    (∀ q ∈ s.cues, s.start ≤ q.start ∧ 0 < q.duration ∧
      q.start + q.duration ≤ s.start + s.duration) ↔ s.ItemsFit := by
  have haudio : ∀ q ∈ (s.audio.map fun t => (⟨.audio t.asset, s.start, s.duration⟩ : Cue Rat)).toList,
      s.start ≤ q.start ∧ 0 < q.duration ∧ q.start + q.duration ≤ s.start + s.duration := by
    intro q hq
    obtain ⟨t, -, rfl⟩ := Option.map_eq_some_iff.mp (Option.mem_toList.mp hq)
    exact ⟨le_refl _, hs.duration_pos, le_refl _⟩
  have hdrawn : (∀ q ∈ s.elements.flatMap fun e => e.cues.map (Cue.after s.start),
      s.start ≤ q.start ∧ 0 < q.duration ∧ q.start + q.duration ≤ s.start + s.duration) ↔
      ∀ e ∈ s.elements, ∀ q ∈ e.cues, q.Fits s := by
    simp only [List.forall_mem_flatMap, List.forall_mem_map, Cue.fits_iff_after]
  rw [cues, List.forall_mem_append, hdrawn]
  refine (and_iff_right haudio).trans ?_
  exact forall₂_congr fun e he => Element.forall_cues_fits_iff (hs.elements e he)

theorem Spec.issues_sample : Spec.sample.issues = [] := by
  have hoverlaps : Spec.sample.overlaps = [] :=
    (overlaps_eq_nil_iff (by decide +kernel)).mpr (by simp [Spec.sample, Scene.instants])
  rw [issues, hoverlaps, ← List.isEmpty_iff]
  decide +kernel

namespace Compiler
variable {c : Compiler Rat} {sizes : Sizes Rat}

theorem keepsTime_play_iff {a : Sources Rat} {scene : Scene Rat} {deeds : List (Deed Rat)} (k : Nat)
    (hs : scene.Consistent a) (h : c.sceneDeeds sizes scene = .ok deeds) :
    (scene.play k deeds).KeepsTime ↔ scene.ItemsFit := by
  rw [← Scene.forall_cues_iff hs, ← scene_cues h, ← map_cue_play k scene deeds,
    List.forall_mem_map]
  simp only [Deed.cue_start, Deed.cue_duration]
  exact Iff.rfl

/-- The actions of a spec without issues keep the time of their scenes exactly when the group items
with a time of their own do, which the check does not look at. -/
theorem keepsTime_iff_itemsFit {s : Spec Rat} {p : Project Rat} (hs : s.issues = [])
    (h : c.compileWith sizes s = .ok p) :
    (∀ played ∈ p.scenes, played.KeepsTime) ↔ ∀ scene ∈ s.scenes, scene.ItemsFit := by
  have hscenes := (s.issues_eq_nil_iff.mp hs).scenes
  have hplayed := (List.forall₂_and_left _ _).mpr ⟨hscenes, (forall₂_scenes_of_compileWith h).flip⟩
  refine (forall_mem_iff_of_forall₂ (hplayed.imp ?_)).symm
  rintro scene _ ⟨hc, k, deeds, hdeeds, rfl⟩
  exact (keepsTime_play_iff k hc hdeeds).symm

theorem sample_keepsTime : Spec.sample.issues = [] ∧
    ∃ p, (plain (α := Rat) ⟨1920, 1080⟩).compile Spec.sample = .ok p ∧
      ∀ played ∈ p.scenes, played.KeepsTime := by
  have h : ((plain (α := Rat) ⟨1920, 1080⟩).compile Spec.sample).toOption.isSome := by
    decide +kernel
  obtain ⟨p, hp⟩ := isSome_toOption_iff.mp h
  exact ⟨Spec.issues_sample, p, hp,
    (keepsTime_iff_itemsFit Spec.issues_sample hp).mpr (by decide +kernel)⟩

end Compiler

/-- A scene of five seconds with a group item that starts two seconds after its end. -/
def Spec.latecomer : Spec Rat where
  heading := ⟨"Latecomer", "1", ⟨1920, 1080⟩, 30, none⟩
  assets := ⟨[], [], []⟩
  scenes := [{
    id := "sky", name := "Sky", start := 10, duration := 5, background := none, audio := none
    elements := [.group {
      layout := ⟨.row, none, none, none, none, none, none⟩
      items := [⟨.text, none, some "late", none, none, none, none, some 7, none⟩]
      start := 1
      duration := 2 }] }]

namespace Compiler

theorem latecomer_not_keepsTime : Spec.latecomer.issues = [] ∧
    ∃ p, (plain (α := Rat) ⟨1920, 1080⟩).compile Spec.latecomer = .ok p ∧
      ∃ played ∈ p.scenes, ¬played.KeepsTime := by
  have hoverlaps : Spec.latecomer.overlaps = [] :=
    (Spec.overlaps_eq_nil_iff (by decide +kernel)).mpr (List.pairwise_singleton _ _)
  have hissues : Spec.latecomer.issues = [] := by
    rw [Spec.issues, hoverlaps, ← List.isEmpty_iff]
    decide +kernel
  have h : ((plain (α := Rat) ⟨1920, 1080⟩).compile Spec.latecomer).toOption.isSome := by
    decide +kernel
  obtain ⟨p, hp⟩ := isSome_toOption_iff.mp h
  have hlate : ((plain (α := Rat) ⟨1920, 1080⟩).compile Spec.latecomer).toOption.all
      (fun p => decide (∃ played ∈ p.scenes, ¬played.KeepsTime)) = true := by decide +kernel
  exact ⟨hissues, p, hp, by simpa [hp, Except.toOption] using hlate⟩

end Compiler
end Storyboard
