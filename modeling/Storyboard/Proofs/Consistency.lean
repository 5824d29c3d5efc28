import Mathlib.Data.List.Chain
import Mathlib.Order.CompletePartialOrder
import Mathlib.Order.Interval.Set.Disjoint
import Storyboard.Fault
import Storyboard.Proofs.Inspection
import Storyboard.Proofs.Rational

set_option autoImplicit false

/-!
What a spec without issues is like, over exact rationals: the check passes exactly for the specs
whose every part is in order and in which no two scenes play at one time. The check itself only
looks at scenes next to each other on the timeline.
-/

namespace Storyboard

namespace Sources

def Declares (a : Sources Rat) (kind : ItemKind) (id : String) : Prop :=
  match kind with
  | .svg => ∃ svg ∈ a.svgs, svg.id = id
  | .image => ∃ image ∈ a.images, image.id = id
  | .text => True

end Sources

def Element.Declared (a : Sources Rat) : Element Rat → Prop
  | .svg e => a.Declares .svg e.asset
  | .image e => a.Declares .image e.asset
  | .group g => ∀ item ∈ g.items, ∀ id, item.asset = some id → a.Declares item.kind id
  | .text _ | .shape _ => True

structure Element.Consistent (a : Sources Rat) (s : Scene Rat) (e : Element Rat) : Prop where
  start_nonneg : 0 ≤ e.start
  duration_pos : 0 < e.duration
  stop_le : e.start + e.duration ≤ s.duration
  declared : e.Declared a

structure Soundtrack.Consistent (a : Sources Rat) (t : Soundtrack Rat) : Prop where
  declared : ∃ audio ∈ a.audio, audio.id = t.asset
  volume : ∀ v, t.volume = some v → 0 ≤ v ∧ v ≤ 1

structure Scene.Consistent (a : Sources Rat) (s : Scene Rat) : Prop where
  start_nonneg : 0 ≤ s.start
  duration_pos : 0 < s.duration
  audio : ∀ t, s.audio = some t → t.Consistent a
  elements : ∀ e ∈ s.elements, e.Consistent a s

/-- The instants at which a scene plays: from its start up to its end, which is left out. -/
def Scene.instants (s : Scene Rat) : Set Rat := Set.Ico s.start (s.start + s.duration)

structure Spec.Consistent (s : Spec Rat) : Prop where
  width_pos : 0 < s.heading.resolution.width
  height_pos : 0 < s.heading.resolution.height
  fps_pos : 0 < s.heading.fps
  svgs : ∀ svg ∈ s.assets.svgs, 0 < svg.size.width ∧ 0 < svg.size.height
  scenes : ∀ scene ∈ s.scenes, scene.Consistent s.assets
  disjoint : ∀ (i j : Nat) (hi : i < s.scenes.length) (hj : j < s.scenes.length), i ≠ j →
    Disjoint s.scenes[i].instants s.scenes[j].instants

@[simp] theorem Issue.when_eq_nil_iff {α : Type} (broken : Bool) (path : List Step)
    (problem : Problem α) : Issue.when broken path problem = [] ↔ broken = false := by
  cases broken <;> simp [Issue.when]

theorem forall_mem_zipIdx_iff {β : Type} {P : β → Prop} (xs : List β) :
    (∀ p ∈ xs.zipIdx, P p.1) ↔ ∀ x ∈ xs, P x := by
  rw [← List.forall_mem_map (f := Prod.fst) (P := P), List.zipIdx_map_fst]

theorem forall_mem_zip_tail_iff {β : Type} {R : β → β → Prop} (xs : List β) :
    (∀ p ∈ xs.zip xs.tail, R p.1 p.2) ↔ xs.IsChain R := by
  induction xs with
  | nil => simp
  | cons x xs ih =>
    cases xs with
    | nil => simp
    | cons y ys => simpa [List.isChain_cons_cons] using fun _ => ih

theorem Heading.issues_eq_nil_iff {α : Type} (h : Heading) :
    (h.issues : List (Issue α)) = [] ↔
      0 < h.resolution.width ∧ 0 < h.resolution.height ∧ 0 < h.fps := by
  simp [issues, Canvas.isEmpty, UInt32.pos_iff_ne_zero, and_assoc]

theorem Sources.issues_eq_nil_iff (a : Sources Rat) :
    a.issues = [] ↔ ∀ svg ∈ a.svgs, 0 < svg.size.width ∧ 0 < svg.size.height := by
  rw [← forall_mem_zipIdx_iff]
  simp [Sources.issues]

theorem Sources.declares_iff (a : Sources Rat) (kind : ItemKind) (id : String) :
    a.declares kind id = true ↔ a.Declares kind id := by
  cases kind <;> simp [declares, Declares, declaresSvg, declaresImage]

theorem Element.referenceIssues_eq_nil_iff (a : Sources Rat) (path : List Step)
    (e : Element Rat) : e.referenceIssues a path = [] ↔ e.Declared a := by
  cases e with
  | svg e => simp [referenceIssues, Declared, ← Sources.declares_iff, Sources.declares]
  | image e => simp [referenceIssues, Declared, ← Sources.declares_iff, Sources.declares]
  | text e => simp [referenceIssues, Declared]
  | shape e => simp [referenceIssues, Declared]
  | group g =>
    simp only [referenceIssues, Declared, List.flatMap_eq_nil_iff]
    rw [← forall_mem_zipIdx_iff g.items]
    refine forall₂_congr fun p _ => ?_
    cases p.1.asset with
    | none => simp
    | some id => simp [Sources.declares_iff]

theorem Element.issues_eq_nil_iff (a : Sources Rat) (s : Scene Rat) (path : List Step)
    (e : Element Rat) : e.issues a s path = [] ↔ e.Consistent a s := by
  have hparts : e.issues a s path = [] ↔
      0 ≤ e.start ∧ 0 < e.duration ∧ e.start + e.duration ≤ s.duration ∧ e.Declared a := by
    simp [issues, referenceIssues_eq_nil_iff]
  exact hparts.trans ⟨fun h => ⟨h.1, h.2.1, h.2.2.1, h.2.2.2⟩,
    fun h => ⟨h.start_nonneg, h.duration_pos, h.stop_le, h.declared⟩⟩

theorem Soundtrack.issues_eq_nil_iff (a : Sources Rat) (path : List Step) (t : Soundtrack Rat) :
    t.issues a path = [] ↔ t.Consistent a := by
  have hparts : t.issues a path = [] ↔
      (∃ audio ∈ a.audio, audio.id = t.asset) ∧ ∀ v, t.volume = some v → 0 ≤ v ∧ v ≤ 1 := by
    unfold issues
    cases t.volume <;> simp [Sources.declaresAudio]
  exact hparts.trans ⟨fun h => ⟨h.1, h.2⟩, fun h => ⟨h.declared, h.volume⟩⟩

theorem Scene.issues_eq_nil_iff (a : Sources Rat) (path : List Step) (s : Scene Rat) :
    s.issues a path = [] ↔ s.Consistent a := by
  have haudio : (s.audio.map (Soundtrack.issues a (path ++ [.field "audio"]))).getD [] = [] ↔
      ∀ t, s.audio = some t → t.Consistent a := by
    cases s.audio with
    | none => simp
    | some t => simp [Soundtrack.issues_eq_nil_iff]
  have helements : (s.elements.zipIdx.flatMap fun (e, i) =>
      e.issues a s (path ++ [.field "elements", .index i])) = [] ↔
      ∀ e ∈ s.elements, e.Consistent a s := by
    rw [List.flatMap_eq_nil_iff, ← forall_mem_zipIdx_iff s.elements]
    exact forall₂_congr fun p _ => Element.issues_eq_nil_iff a s _ p.1
  have hparts : s.issues a path = [] ↔ 0 ≤ s.start ∧ 0 < s.duration ∧
      (∀ t, s.audio = some t → t.Consistent a) ∧ ∀ e ∈ s.elements, e.Consistent a s := by
    unfold issues
    rw [List.append_eq_nil_iff, List.append_eq_nil_iff, List.append_eq_nil_iff, haudio, helements]
    simp [and_assoc]
  exact hparts.trans ⟨fun h => ⟨h.1, h.2.1, h.2.2.1, h.2.2.2⟩,
    fun h => ⟨h.start_nonneg, h.duration_pos, h.audio, h.elements⟩⟩

def Scene.Before (s t : Scene Rat) : Prop := s.start + s.duration ≤ t.start

theorem Scene.disjoint_instants_iff {s t : Scene Rat} (hs : s.start ≤ t.start)
    (ht : 0 < t.duration) : Disjoint s.instants t.instants ↔ s.Before t := by
  unfold instants Before
  rw [Set.Ico_disjoint_Ico, max_eq_right hs]
  constructor
  · intro h
    rcases min_le_iff.mp h with h | h
    · exact h
    · linarith
  · exact fun h => (min_le_left _ _).trans h

theorem Scene.pairwise_before_of_isChain {scenes : List (Scene Rat × Nat)}
    (hpos : ∀ p ∈ scenes, 0 < p.1.duration) (h : scenes.IsChain fun p q => p.1.Before q.1) :
    scenes.Pairwise fun p q => p.1.Before q.1 := by
  induction scenes with
  | nil => exact .nil
  | cons p rest ih =>
    have hrest := ih (fun q hq => hpos q (List.mem_cons_of_mem _ hq)) h.tail
    refine .cons ?_ hrest
    cases rest with
    | nil => simp
    | cons q rest =>
      have hpq : p.1.Before q.1 := h.rel
      have hq := hpos q (by simp)
      intro r hr
      rcases List.mem_cons.mp hr with rfl | hr
      · exact hpq
      · have hqr := List.rel_of_pairwise_cons hrest hr
        unfold Before at *
        linarith

namespace Spec

theorem pairwise_start_timeline (s : Spec Rat) :
    s.timeline.Pairwise fun p q => p.1.start ≤ q.1.start := by
  have h := @List.pairwise_mergeSort _
    (fun p q : Scene Rat × Nat => Scalar.precedes p.1.start q.1.start)
    (by intro p q r hpq hqr; simp only [Scalar.rat_precedes, decide_eq_true_eq] at *; linarith)
    (by intro p q; simpa using le_total p.1.start q.1.start) s.scenes.zipIdx
  simpa [timeline] using h

theorem timeline_perm {α : Type} [Scalar α] (s : Spec α) :
    (s.timeline.map Prod.fst).Perm s.scenes := by
  have h := (List.mergeSort_perm s.scenes.zipIdx fun a b =>
    Scalar.precedes a.1.start b.1.start).map Prod.fst
  rwa [List.zipIdx_map_fst] at h

theorem forall_mem_timeline {α : Type} [Scalar α] {s : Spec α} {P : Scene α → Prop}
    (h : ∀ scene ∈ s.scenes, P scene) : ∀ p ∈ s.timeline, P p.1 :=
  fun _ hp => h _ (s.timeline_perm.mem_iff.mp (List.mem_map_of_mem hp))

theorem overlaps_of_singleton {α : Type} [Scalar α] {s : Spec α} {scene : Scene α}
    (h : s.scenes = [scene]) : s.overlaps = [] := by
  simp [overlaps, timeline, h]

theorem overlaps_eq_nil_iff_isChain (s : Spec Rat) :
    s.overlaps = [] ↔ s.timeline.IsChain fun p q => p.1.Before q.1 := by
  rw [← forall_mem_zip_tail_iff, overlaps, List.flatMap_eq_nil_iff]
  refine forall₂_congr fun p _ => ?_
  rw [Issue.when_eq_nil_iff, decide_eq_false_iff_not]
  exact not_lt

/-- Looking at neighbours on the timeline finds an overlap wherever there is one. -/
theorem overlaps_eq_nil_iff {s : Spec Rat} (hpos : ∀ scene ∈ s.scenes, 0 < scene.duration) :
    s.overlaps = [] ↔ s.scenes.Pairwise fun a b => Disjoint a.instants b.instants := by
  have hpos' : ∀ p ∈ s.timeline, 0 < p.1.duration := forall_mem_timeline hpos
  have hbefore : s.timeline.Pairwise (fun p q => p.1.Before q.1) ↔
      s.timeline.Pairwise fun p q => Disjoint p.1.instants q.1.instants := by
    have hsorted := s.pairwise_start_timeline
    constructor
    · intro h
      refine (hsorted.and h).imp_of_mem ?_
      rintro p q _ hq ⟨hpq, hb⟩
      exact (Scene.disjoint_instants_iff hpq (hpos' q hq)).mpr hb
    · intro h
      refine (hsorted.and h).imp_of_mem ?_
      rintro p q _ hq ⟨hpq, hd⟩
      exact (Scene.disjoint_instants_iff hpq (hpos' q hq)).mp hd
  have hperm : s.timeline.Pairwise (fun p q => Disjoint p.1.instants q.1.instants) ↔
      s.scenes.Pairwise fun a b => Disjoint a.instants b.instants := by
    rw [← s.timeline_perm.pairwise_iff fun h => Disjoint.symm h, List.pairwise_map]
  rw [overlaps_eq_nil_iff_isChain, ← hperm, ← hbefore]
  exact ⟨Scene.pairwise_before_of_isChain hpos', List.Pairwise.isChain⟩

theorem issues_eq_nil_iff (s : Spec Rat) : s.issues = [] ↔ s.Consistent := by
  have hscenes : (s.scenes.zipIdx.flatMap fun (scene, i) =>
      scene.issues s.assets [.field "scenes", .index i]) = [] ↔
      ∀ scene ∈ s.scenes, scene.Consistent s.assets := by
    rw [List.flatMap_eq_nil_iff, ← forall_mem_zipIdx_iff s.scenes]
    exact forall₂_congr fun p _ => Scene.issues_eq_nil_iff s.assets _ p.1
  have hpairs : s.scenes.Pairwise (fun a b => Disjoint a.instants b.instants) ↔
      ∀ (i j : Nat) (hi : i < s.scenes.length) (hj : j < s.scenes.length), i ≠ j →
        Disjoint s.scenes[i].instants s.scenes[j].instants := by
    rw [List.pairwise_iff_getElem]
    constructor
    · intro h i j hi hj hne
      rcases Nat.lt_or_gt_of_ne hne with hlt | hgt
      · exact h i j hi hj hlt
      · exact (h j i hj hi hgt).symm
    · exact fun h i j hi hj hlt => h i j hi hj (Nat.ne_of_lt hlt)
  rw [issues_eq, List.append_eq_nil_iff, List.append_eq_nil_iff, List.append_eq_nil_iff,
    Heading.issues_eq_nil_iff, Sources.issues_eq_nil_iff, hscenes]
  constructor
  · rintro ⟨⟨⟨⟨hw, hh, hf⟩, hsvgs⟩, hs⟩, ho⟩
    refine ⟨hw, hh, hf, hsvgs, hs, hpairs.mp ?_⟩
    exact (overlaps_eq_nil_iff fun scene h => (hs scene h).duration_pos).mp ho
  · rintro ⟨hw, hh, hf, hsvgs, hs, hd⟩
    refine ⟨⟨⟨⟨hw, hh, hf⟩, hsvgs⟩, hs⟩, ?_⟩
    exact (overlaps_eq_nil_iff fun scene h => (hs scene h).duration_pos).mpr (hpairs.mpr hd)

/-- The check passes exactly for consistent specs, in whatever order their scenes are listed. -/
theorem check_eq_ok_iff_consistent (s : Spec Rat) : s.check = .ok () ↔ s.Consistent := by
  rw [← issues_eq_nil_iff, check]
  cases s.issues <;> simp

end Spec
end Storyboard
