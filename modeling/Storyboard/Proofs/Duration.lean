import Mathlib.Algebra.BigOperators.Group.List.Basic
import Storyboard.Proofs.Timeline

set_option autoImplicit false

namespace Storyboard

def PlayedScene.stop (p : PlayedScene Rat) : Rat := p.start + p.duration

def PlayedScene.RunsAt (p : PlayedScene Rat) (t : Rat) : Prop := p.start ≤ t ∧ t < p.stop

/-- The duration of a project is the latest end of a scene, and zero if none ends after that. -/
structure Project.Lasts (p : Project Rat) : Prop where
  nonneg : 0 ≤ p.info.duration
  stop_le : ∀ played ∈ p.scenes, played.stop ≤ p.info.duration
  eq_stop : p.info.duration = 0 ∨ ∃ played ∈ p.scenes, played.stop = p.info.duration

def Project.RunsOneAtATime (p : Project Rat) : Prop :=
  ∀ (t : Rat) (i j : Nat) (hi : i < p.scenes.length) (hj : j < p.scenes.length),
    p.scenes[i].RunsAt t → p.scenes[j].RunsAt t → i = j

def Project.EndsWithLatest (p : Project Rat) : Prop :=
  ∃ (i : Nat) (hi : i < p.scenes.length), p.info.duration = p.scenes[i].stop ∧
    ∀ (j : Nat) (hj : j < p.scenes.length), j ≠ i → p.scenes[j].start < p.scenes[i].start

theorem Scene.sum_duration_le {scenes : List (Scene Rat)} (h : scenes.Pairwise Scene.Before)
    {first last : Rat} (hle : first ≤ last) (hstart : ∀ s ∈ scenes, first ≤ s.start)
    (hstop : ∀ s ∈ scenes, s.start + s.duration ≤ last) :
    (scenes.map Scene.duration).sum ≤ last - first := by
  induction scenes generalizing first with
  | nil => simpa using hle
  | cons s rest ih =>
    rw [List.forall_mem_cons] at hstart hstop
    obtain ⟨hbefore, hrest⟩ := List.pairwise_cons.mp h
    have hlater := ih hrest hstop.1 hbefore hstop.2
    rw [List.map_cons, List.sum_cons]
    linarith [hstart.1]

namespace Spec

theorem pairwise_before_timeline {s : Spec Rat} (hs : s.issues = []) :
    (s.timeline.map Prod.fst).Pairwise Scene.Before := by
  have hscenes := (s.issues_eq_nil_iff.mp hs).scenes
  have hpos : ∀ p ∈ s.timeline, 0 < p.1.duration :=
    forall_mem_timeline fun scene h => (hscenes scene h).duration_pos
  have hchain := s.overlaps_eq_nil_iff_isChain.mp (List.append_eq_nil_iff.mp hs).2
  exact List.pairwise_map.mpr (Scene.pairwise_before_of_isChain hpos hchain)

theorem sum_duration_le {s : Spec Rat} (hs : s.issues = []) {last : Rat} (hlast : 0 ≤ last)
    (hstop : ∀ scene ∈ s.scenes, scene.start + scene.duration ≤ last) :
    (s.scenes.map Scene.duration).sum ≤ last := by
  have hscenes := (s.issues_eq_nil_iff.mp hs).scenes
  have hmem : ∀ scene ∈ s.timeline.map Prod.fst, scene ∈ s.scenes :=
    fun _ h => s.timeline_perm.mem_iff.mp h
  have hsum := Scene.sum_duration_le (pairwise_before_timeline hs) hlast
    (fun scene h => (hscenes scene (hmem scene h)).start_nonneg)
    fun scene h => hstop scene (hmem scene h)
  rwa [(s.timeline_perm.map Scene.duration).sum_eq, sub_zero] at hsum

end Spec

theorem Project.Lasts.le {p q : Project Rat} (hp : p.Lasts) (hq : q.Lasts)
    (h : ∀ played ∈ p.scenes, ∃ other ∈ q.scenes, other.stop = played.stop) :
    p.info.duration ≤ q.info.duration := by
  rcases hp.eq_stop with hzero | ⟨played, hplayed, hstop⟩
  · rw [hzero]
    exact hq.nonneg
  · obtain ⟨other, hother, heq⟩ := h played hplayed
    rw [← hstop, ← heq]
    exact hq.stop_le other hother

/-- Where scenes take time and run one at a time, the scene that ends the project starts after all
others: at the start of any other one it is over. -/
theorem Project.Lasts.endsWithLatest {p : Project Rat} (hp : p.Lasts) (h : 0 < p.info.duration)
    (hpos : ∀ played ∈ p.scenes, 0 < played.duration) (hone : p.RunsOneAtATime) :
    p.EndsWithLatest := by
  obtain ⟨played, hplayed, hstop⟩ := hp.eq_stop.resolve_left h.ne'
  obtain ⟨i, hi, rfl⟩ := List.mem_iff_getElem.mp hplayed
  refine ⟨i, hi, hstop.symm, fun j hj hji => ?_⟩
  have hj_lt : p.scenes[j].start < p.scenes[j].stop :=
    lt_add_of_pos_right _ (hpos _ (List.getElem_mem hj))
  have hj_le : p.scenes[j].stop ≤ p.scenes[i].stop :=
    hstop ▸ hp.stop_le _ (List.getElem_mem hj)
  by_contra hstart
  have hruns : p.scenes[i].RunsAt p.scenes[j].start := ⟨not_lt.mp hstart, hj_lt.trans_le hj_le⟩
  exact hji (hone _ j i hj hi ⟨le_refl _, hj_lt⟩ hruns)

namespace Compiler
variable {c : Compiler Rat} {sizes : Sizes Rat} {s : Spec Rat} {p : Project Rat}

theorem forall₂_times_of_compileWith (h : c.compileWith sizes s = .ok p) :
    List.Forall₂ (fun p s => p.start = s.start ∧ p.duration = s.duration) p.scenes s.scenes := by
  refine (forall₂_scenes_of_compileWith h).imp ?_
  rintro _ scene ⟨k, deeds, -, rfl⟩
  exact ⟨rfl, rfl⟩

theorem map_stop_of_compileWith (h : c.compileWith sizes s = .ok p) :
    p.scenes.map PlayedScene.stop = s.scenes.map Scene.stop := by
  refine forall₂_map_eq ((forall₂_times_of_compileWith h).imp ?_)
  rintro played scene ⟨hstart, hduration⟩
  rw [PlayedScene.stop, Scene.stop, hstart, hduration]

theorem lasts_of_compileWith (h : c.compileWith sizes s = .ok p) : p.Lasts := by
  have hduration : p.info.duration = (p.scenes.map PlayedScene.stop).foldl Scalar.greatest 0 := by
    rw [map_stop_of_compileWith h]
    obtain ⟨deeds, -, rfl⟩ := compileWith_eq_ok_iff.mp h
    exact congrArg (List.foldl _ · _) Scalar.rat_zero
  refine ⟨?_, ?_, ?_⟩
  · rw [hduration]
    exact Scalar.le_foldl_greatest 0 _
  · intro played hplayed
    rw [hduration]
    exact Scalar.le_foldl_greatest_of_mem 0 (List.mem_map_of_mem hplayed)
  · rw [hduration]
    exact (Scalar.foldl_greatest_eq_or_mem 0 _).imp_right List.mem_map.mp

theorem exists_compileWith_of_perm (h : c.compileWith sizes s = .ok p) {scenes : List (Scene Rat)}
    (hperm : scenes.Perm s.scenes) : ∃ q, c.compileWith sizes { s with scenes } = .ok q := by
  obtain ⟨deeds, hdeeds, -⟩ := compileWith_eq_ok_iff.mp h
  obtain ⟨deeds', hdeeds', -⟩ := List.perm_comp_forall₂ hperm hdeeds
  exact ⟨_, compileWith_eq_ok_iff.mpr ⟨deeds', hdeeds', rfl⟩⟩

theorem duration_eq_of_perm (h : c.compileWith sizes s = .ok p) {scenes : List (Scene Rat)}
    (hperm : scenes.Perm s.scenes) {q : Project Rat}
    (hq : c.compileWith sizes { s with scenes } = .ok q) : q.info.duration = p.info.duration := by
  have hstops : (q.scenes.map PlayedScene.stop).Perm (p.scenes.map PlayedScene.stop) := by
    rw [map_stop_of_compileWith h, map_stop_of_compileWith hq]
    exact hperm.map Scene.stop
  have hle := (lasts_of_compileWith hq).le (lasts_of_compileWith h) fun played hplayed =>
    List.mem_map.mp (hstops.mem_iff.mp (List.mem_map_of_mem hplayed))
  have hge := (lasts_of_compileWith h).le (lasts_of_compileWith hq) fun played hplayed =>
    List.mem_map.mp (hstops.mem_iff.mpr (List.mem_map_of_mem hplayed))
  exact le_antisymm hle hge

theorem times_proper_of_compileWith (h : c.compileWith sizes s = .ok p) (hs : s.issues = []) :
    ∀ played ∈ p.scenes, 0 ≤ played.start ∧ 0 < played.duration := by
  have hscenes := (s.issues_eq_nil_iff.mp hs).scenes
  refine forall_mem_of_forall₂ (forall₂_times_of_compileWith h).flip ?_
  rintro scene hscene played ⟨hstart, hduration⟩
  rw [hstart, hduration]
  exact ⟨(hscenes scene hscene).start_nonneg, (hscenes scene hscene).duration_pos⟩

theorem runsOneAtATime_of_compileWith (h : c.compileWith sizes s = .ok p) (hs : s.issues = []) :
    p.RunsOneAtATime := by
  have htimes := forall₂_times_of_compileWith h
  have hinstants : ∀ (t : Rat) (i : Nat) (hi : i < p.scenes.length) (hi' : i < s.scenes.length),
      p.scenes[i].RunsAt t → t ∈ s.scenes[i].instants := by
    intro t i hi hi' ht
    obtain ⟨hstart, hduration⟩ := htimes.get hi hi'
    simp only [List.get_eq_getElem] at hstart hduration
    rwa [PlayedScene.RunsAt, PlayedScene.stop, hstart, hduration] at ht
  intro t i j hi hj hti htj
  have hi' : i < s.scenes.length := htimes.length_eq ▸ hi
  have hj' : j < s.scenes.length := htimes.length_eq ▸ hj
  by_contra hij
  have hdisjoint := (s.issues_eq_nil_iff.mp hs).disjoint i j hi' hj' hij
  exact Set.disjoint_left.mp hdisjoint (hinstants t i hi hi' hti) (hinstants t j hj hj' htj)

theorem sum_duration_le_of_compileWith (h : c.compileWith sizes s = .ok p) (hs : s.issues = []) :
    (p.scenes.map PlayedScene.duration).sum ≤ p.info.duration := by
  have hlasts := lasts_of_compileWith h
  have hdurations : p.scenes.map PlayedScene.duration = s.scenes.map Scene.duration :=
    forall₂_map_eq ((forall₂_times_of_compileWith h).imp fun _ _ htimes => htimes.2)
  rw [hdurations]
  refine Spec.sum_duration_le hs hlasts.nonneg fun scene hscene => ?_
  have hmem : scene.stop ∈ p.scenes.map PlayedScene.stop := by
    rw [map_stop_of_compileWith h]
    exact List.mem_map_of_mem hscene
  obtain ⟨played, hplayed, hstop⟩ := List.mem_map.mp hmem
  exact hstop.symm.trans_le (hlasts.stop_le played hplayed)

/-- A project lasts until its last scene is over, whatever the order of the scenes. If its spec has
scenes and no issues, they run one at a time, the one that starts last ends the project, and
together they take no more time than there is. -/
theorem compileWith_lasts (h : c.compileWith sizes s = .ok p) :
    p.Lasts ∧
    (∀ scenes : List (Scene Rat), scenes.Perm s.scenes →
      ∃ q, c.compileWith sizes { s with scenes } = .ok q ∧ q.info.duration = p.info.duration) ∧
    (s.issues = [] → s.scenes ≠ [] → p.RunsOneAtATime ∧ p.EndsWithLatest ∧
      (p.scenes.map PlayedScene.duration).sum ≤ p.info.duration) := by
  have hlasts := lasts_of_compileWith h
  refine ⟨hlasts, fun scenes hperm => ?_, fun hs hne => ?_⟩
  · obtain ⟨q, hq⟩ := exists_compileWith_of_perm h hperm
    exact ⟨q, hq, duration_eq_of_perm h hperm hq⟩
  · have htimes := times_proper_of_compileWith h hs
    have hone := runsOneAtATime_of_compileWith h hs
    have hduration : 0 < p.info.duration := by
      have hplayed : p.scenes ≠ [] := by
        rwa [← List.length_pos_iff, (forall₂_times_of_compileWith h).length_eq, List.length_pos_iff]
      obtain ⟨played, hmem⟩ := List.exists_mem_of_ne_nil _ hplayed
      have hstop := hlasts.stop_le played hmem
      rw [PlayedScene.stop] at hstop
      linarith [htimes played hmem]
    have hlatest := hlasts.endsWithLatest hduration (fun played h => (htimes played h).2) hone
    exact ⟨hone, hlatest, sum_duration_le_of_compileWith h hs⟩

theorem sample_lasts : Spec.sample.issues = [] ∧
    ∃ p, (plain (α := Rat) ⟨1920, 1080⟩).compile Spec.sample = .ok p ∧ p.Lasts ∧
      (∃ q, (plain (α := Rat) ⟨1920, 1080⟩).compileWith Spec.sample.assets.sizes
        { Spec.sample with scenes := Spec.sample.scenes.reverse } = .ok q ∧
        q.info.duration = p.info.duration) ∧
      p.RunsOneAtATime ∧ p.EndsWithLatest ∧
      (p.scenes.map PlayedScene.duration).sum ≤ p.info.duration := by
  have h : ((plain (α := Rat) ⟨1920, 1080⟩).compile Spec.sample).toOption.isSome := by
    decide +kernel
  obtain ⟨p, hp⟩ := isSome_toOption_iff.mp h
  obtain ⟨hlasts, hperm, hturn⟩ := compileWith_lasts hp
  exact ⟨Spec.issues_sample, p, hp, hlasts, hperm _ (List.reverse_perm _),
    hturn Spec.issues_sample (by simp [Spec.sample])⟩

end Compiler
end Storyboard
