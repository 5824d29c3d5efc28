import Storyboard.Proofs.Binary64.Rank
import Storyboard.Proofs.Checks

set_option autoImplicit false

namespace Storyboard

section Neighbours
variable {β γ : Type} [LinearOrder γ] {f : β → γ}

theorem mem_zip_tail_iff {l : List β} (h : l.Pairwise fun a b => f a < f b) (p q : β) :
    (p, q) ∈ l.zip l.tail ↔
      p ∈ l ∧ q ∈ l ∧ f p < f q ∧ ∀ r ∈ l, ¬(f p < f r ∧ f r < f q) := by
  induction l with
  | nil => simp
  | cons x l ih =>
    obtain ⟨hx, hl⟩ := List.pairwise_cons.mp h
    cases l with
    | nil => simp +contextual
    | cons y l =>
      have hy := (List.pairwise_cons.mp hl).1
      rw [List.tail_cons, List.zip_cons_cons, List.mem_cons, Prod.mk.injEq]
      have ih := ih hl
      rw [List.tail_cons] at ih
      rw [ih]
      constructor
      · rintro (⟨rfl, rfl⟩ | ⟨hp, hq, hlt, hnone⟩)
        · refine ⟨by simp, by simp, hx _ (by simp), fun r hr hbetween => ?_⟩
          rcases List.mem_cons.mp hr with rfl | hr
          · exact lt_irrefl _ hbetween.1
          · rcases List.mem_cons.mp hr with rfl | hr
            · exact lt_irrefl _ hbetween.2
            · exact lt_asymm hbetween.2 (hy r hr)
        · refine ⟨List.mem_cons_of_mem _ hp, List.mem_cons_of_mem _ hq, hlt, fun r hr => ?_⟩
          rcases List.mem_cons.mp hr with rfl | hr
          · exact fun hbetween => lt_asymm hbetween.1 (hx p hp)
          · exact hnone r hr
      · rintro ⟨hp, hq, hlt, hnone⟩
        have hnone' := fun r hr => hnone r (List.mem_cons_of_mem _ hr)
        rcases List.mem_cons.mp hp with rfl | hp'
        · rcases List.mem_cons.mp hq with rfl | hq'
          · exact absurd hlt (lt_irrefl _)
          · rcases List.mem_cons.mp hq' with rfl | hq'
            · exact .inl ⟨rfl, rfl⟩
            · exact absurd ⟨hx y (by simp), hy q hq'⟩ (hnone y (by simp))
        · rcases List.mem_cons.mp hq with rfl | hq'
          · exact absurd hlt (lt_asymm (hx p hp'))
          · exact .inr ⟨hp', hq', hlt, hnone'⟩

theorem pair_sublist_of_lt {l : List β} (h : l.Pairwise fun a b => f a < f b) {p q : β}
    (hp : p ∈ l) (hq : q ∈ l) (hlt : f p < f q) : [p, q].Sublist l := by
  induction l with
  | nil => cases hp
  | cons x l ih =>
    obtain ⟨hx, hl⟩ := List.pairwise_cons.mp h
    rcases List.mem_cons.mp hp with rfl | hp'
    · rcases List.mem_cons.mp hq with rfl | hq'
      · exact absurd hlt (lt_irrefl _)
      · exact (List.singleton_sublist.mpr hq').cons_cons _
    · rcases List.mem_cons.mp hq with rfl | hq'
      · exact absurd hlt (lt_asymm (hx p hp'))
      · exact (ih hl hp' hq').cons _

theorem not_pair_sublist_of_nodup {l : List β} (h : l.Nodup) {p q : β} (hpq : [p, q].Sublist l) :
    ¬[q, p].Sublist l := by
  induction l with
  | nil => cases hpq
  | cons x l ih =>
    obtain ⟨hx, hl⟩ := List.nodup_cons.mp h
    intro hqp
    rcases List.sublist_cons_iff.mp hpq with hpq' | ⟨_, heq, hq⟩ <;>
      rcases List.sublist_cons_iff.mp hqp with hqp' | ⟨_, heq', hp⟩
    · exact ih hl hpq' hqp'
    · cases heq'
      exact hx (hpq'.subset (List.mem_cons_of_mem _ (List.mem_singleton_self _)))
    · cases heq
      exact hx (hqp'.subset (List.mem_cons_of_mem _ (List.mem_singleton_self _)))
    · cases heq
      cases heq'
      exact hx (hq.subset (List.mem_singleton_self _))

end Neighbours

namespace Spec
open Binary64

/-- Scenes have their turns on the timeline by their starts, and of those that start together the
first in the document comes first. -/
def turn (p : Scene Float × Nat) : ℤ ×ₗ ℕ := toLex (rank p.1.start, p.2)

def RunsInto (p q : Scene Float × Nat) : Prop := turn p < turn q ∧ q.1.start < p.1.stop

def JustAhead (s : Spec Float) (p q : Scene Float × Nat) : Prop :=
  turn p < turn q ∧ ∀ r ∈ s.scenes.zipIdx, ¬(turn p < turn r ∧ turn r < turn q)

instance : DecidableRel RunsInto := fun p q =>
  inferInstanceAs (Decidable (turn p < turn q ∧ q.1.start < p.1.stop))

instance (s : Spec Float) : DecidableRel s.JustAhead := fun p q =>
  inferInstanceAs (Decidable (turn p < turn q ∧
    ∀ r ∈ s.scenes.zipIdx, ¬(turn p < turn r ∧ turn r < turn q)))

def ReportsOverlap (s : Spec Float) (j : Nat) : Prop :=
  ∃ earlier later, ⟨(Node.scene j).path, .overlap earlier later⟩ ∈ s.issues

/-- Each scene that one with an earlier turn runs into is reported, whichever of them that is. -/
def ReportsAllOverlaps (s : Spec Float) : Prop :=
  ∀ p ∈ s.scenes.zipIdx, ∀ q ∈ s.scenes.zipIdx,
    AllFinite [p.1.start, p.1.duration, q.1.start, q.1.duration] → RunsInto p q →
      s.ReportsOverlap q.2

theorem float_precedes {x y : Float} : Scalar.precedes x y = true ↔ rank x ≤ rank y :=
  decide_eq_true_iff

theorem mem_timeline_iff {s : Spec Float} {p : Scene Float × Nat} :
    p ∈ s.timeline ↔ p ∈ s.scenes.zipIdx := List.mem_mergeSort

theorem eq_of_snd_eq {s : Spec Float} {p q : Scene Float × Nat} (hp : p ∈ s.scenes.zipIdx)
    (hq : q ∈ s.scenes.zipIdx) (h : p.2 = q.2) : p = q := by
  have hp' := List.mem_zipIdx_iff_getElem?.mp hp
  have hq' := List.mem_zipIdx_iff_getElem?.mp hq
  rw [h, hq'] at hp'
  exact Prod.ext (Option.some.inj hp').symm h

/-- The sort is stable, so scenes that start together stay in the order of the document. -/
theorem pairwise_turn_timeline (s : Spec Float) :
    s.timeline.Pairwise fun p q => turn p < turn q := by
  have hindex : s.scenes.zipIdx.Pairwise fun p q => p.2 < q.2 := by
    rw [← List.pairwise_map (f := Prod.snd), List.zipIdx_map_snd]
    exact List.pairwise_lt_range'
  have hnodup : s.timeline.Nodup :=
    (List.mergeSort_perm _ _).nodup_iff.mpr (hindex.imp fun hlt heq => by simp [heq] at hlt)
  have htrans : ∀ p q r : Scene Float × Nat, Scalar.precedes p.1.start q.1.start = true →
      Scalar.precedes q.1.start r.1.start = true →
        Scalar.precedes p.1.start r.1.start = true := fun p q r hpq hqr =>
    float_precedes.mpr ((float_precedes.mp hpq).trans (float_precedes.mp hqr))
  have htotal : ∀ p q : Scene Float × Nat, (Scalar.precedes p.1.start q.1.start ||
      Scalar.precedes q.1.start p.1.start) = true := fun p q => by
    rw [Bool.or_eq_true, float_precedes, float_precedes]
    exact le_total _ _
  have hsorted : s.timeline.Pairwise fun p q => rank p.1.start ≤ rank q.1.start :=
    (List.pairwise_mergeSort htrans htotal s.scenes.zipIdx).imp float_precedes.mp
  rw [List.pairwise_iff_forall_sublist] at hsorted ⊢
  intro p q hpq
  refine Prod.Lex.toLex_lt_toLex.mpr ((hsorted hpq).lt_or_eq.imp_right fun heq => ⟨heq, ?_⟩)
  by_contra hle
  have hp : p ∈ s.scenes.zipIdx := mem_timeline_iff.mp (hpq.subset (by simp))
  have hq : q ∈ s.scenes.zipIdx := mem_timeline_iff.mp (hpq.subset (by simp))
  have hne : p ≠ q := List.pairwise_iff_forall_sublist.mp hnodup hpq
  have hlt : q.2 < p.2 :=
    (not_lt.mp hle).lt_of_ne fun hindex => hne (eq_of_snd_eq hp hq hindex.symm)
  have hback : [q, p].Sublist s.timeline :=
    List.pair_sublist_mergeSort htrans htotal (float_precedes.mpr heq.ge)
      (pair_sublist_of_lt hindex hq hp hlt)
  exact not_pair_sublist_of_nodup hnodup hpq hback

theorem overlap_mem_issues_iff (s : Spec Float) (j : Nat) (earlier later : String) :
    ⟨(Node.scene j).path, .overlap earlier later⟩ ∈ s.issues ↔
      ∃ p ∈ s.scenes.zipIdx, ∃ q ∈ s.scenes.zipIdx,
        (s.JustAhead p q ∧ RunsInto p q) ∧ q.2 = j ∧ p.1.id = earlier ∧ q.1.id = later := by
  obtain ⟨issues, hissues, found, rfl, -, hfails⟩ := s.exists_reports
  have hfound : (⟨(Node.scene j).path, .overlap earlier later⟩ : Issue Float) ∉
      found.map (fun f => ⟨f.1.node.path, f.2⟩) := by
    intro h
    obtain ⟨f, hf, heq⟩ := List.mem_map.mp h
    exact ((hfails _ _).mp hf).ne_overlap earlier later (congrArg Issue.problem heq)
  rw [hissues, List.mem_append, or_iff_right hfound, overlaps, List.mem_flatMap]
  constructor
  · rintro ⟨⟨p, q⟩, hpair, ho⟩
    obtain ⟨hp, hq, hlt, hnone⟩ := (mem_zip_tail_iff s.pairwise_turn_timeline p q).mp hpair
    simp only [mem_timeline_iff] at hp hq hnone
    obtain ⟨hinto, heq⟩ := Issue.mem_when_iff.mp ho
    simp only [Issue.mk.injEq, Problem.overlap.injEq, Node.path, List.cons.injEq,
      Step.index.injEq] at heq
    obtain ⟨⟨-, hj, -⟩, hearlier, hlater⟩ := heq
    exact ⟨p, hp, q, hq, ⟨⟨hlt, hnone⟩, hlt, of_decide_eq_true hinto⟩, hj.symm, hearlier.symm,
      hlater.symm⟩
  · rintro ⟨p, hp, q, hq, ⟨⟨hlt, hnone⟩, -, hinto⟩, rfl, rfl, rfl⟩
    have hpair := (mem_zip_tail_iff s.pairwise_turn_timeline p q).mpr
      ⟨mem_timeline_iff.mpr hp, mem_timeline_iff.mpr hq, hlt, fun r hr =>
        hnone r (mem_timeline_iff.mp hr)⟩
    exact ⟨(p, q), hpair, Issue.mem_when_iff.mpr ⟨decide_eq_true hinto, rfl⟩⟩

theorem reportsOverlap_iff {s : Spec Float} {q : Scene Float × Nat} (hq : q ∈ s.scenes.zipIdx) :
    s.ReportsOverlap q.2 ↔ ∃ p ∈ s.scenes.zipIdx, s.JustAhead p q ∧ RunsInto p q := by
  simp only [ReportsOverlap, overlap_mem_issues_iff]
  constructor
  · rintro ⟨_, _, p, hp, r, hr, h, hindex, -, -⟩
    rw [eq_of_snd_eq hr hq hindex] at h
    exact ⟨p, hp, h⟩
  · rintro ⟨p, hp, h⟩
    exact ⟨_, _, p, hp, q, hq, h, rfl, rfl, rfl⟩

theorem exists_justAhead (s : Spec Float) {p q : Scene Float × Nat} (hq : q ∈ s.scenes.zipIdx)
    (h : turn p < turn q) : ∃ r ∈ s.scenes.zipIdx, s.JustAhead p r ∧ turn r ≤ turn q := by
  have hfinite : {r | r ∈ s.scenes.zipIdx ∧ turn p < turn r}.Finite :=
    (List.finite_toSet s.scenes.zipIdx).subset fun r hr => hr.1
  obtain ⟨r, ⟨hr, hlt⟩, hmin⟩ := Set.exists_min_image _ turn hfinite ⟨q, hq, h⟩
  exact ⟨r, hr, ⟨hlt, fun t ht hbetween => not_lt.mpr (hmin t ⟨ht, hbetween.1⟩) hbetween.2⟩,
    hmin q ⟨hq, h⟩⟩

theorem rank_le_of_turn_le {p q : Scene Float × Nat} (h : turn p ≤ turn q) :
    rank p.1.start ≤ rank q.1.start :=
  (Prod.Lex.toLex_le_toLex.mp h).elim le_of_lt fun heq => heq.1.le

theorem RunsInto.of_turn_le {p q r : Scene Float × Nat} (h : RunsInto p q)
    (hp : p.1.start.isFinite = true) (hq : q.1.start.isFinite = true) (hpr : turn p < turn r)
    (hrq : turn r ≤ turn q) : RunsInto p r := by
  have hpr' := rank_le_of_turn_le hpr.le
  have hrq' := rank_le_of_turn_le hrq
  have hr := isFinite_of_rank_le hp hq hpr' hrq'
  exact ⟨hpr, float_lt_of_le_of_lt (le_of_rank_le hr hq hrq') h.2⟩

/-- A scene is reported exactly if the one just ahead of it runs into it. A scene that runs into
any other runs into the one right behind it, which is then reported; but not each scene that it runs
into is, unless the scene just ahead of that does so as well. -/
theorem reportsAllOverlaps_iff (s : Spec Float) :
    (∀ j earlier later, ⟨(Node.scene j).path, .overlap earlier later⟩ ∈ s.issues ↔
      ∃ p ∈ s.scenes.zipIdx, ∃ q ∈ s.scenes.zipIdx,
        (s.JustAhead p q ∧ RunsInto p q) ∧ q.2 = j ∧ p.1.id = earlier ∧ q.1.id = later) ∧
    (∀ p ∈ s.scenes.zipIdx, ∀ q ∈ s.scenes.zipIdx, AllFinite [p.1.start, q.1.start] →
      RunsInto p q → ∃ r ∈ s.scenes.zipIdx, s.JustAhead p r ∧ turn r ≤ turn q ∧
        ⟨(Node.scene r.2).path, .overlap p.1.id r.1.id⟩ ∈ s.issues) ∧
    (s.ReportsAllOverlaps ↔ ∀ p ∈ s.scenes.zipIdx, ∀ q ∈ s.scenes.zipIdx,
      AllFinite [p.1.start, p.1.duration, q.1.start, q.1.duration] → RunsInto p q →
        ∃ r ∈ s.scenes.zipIdx, s.JustAhead r q ∧ RunsInto r q) := by
  refine ⟨s.overlap_mem_issues_iff, fun p hp q hq hfinite hinto => ?_, ?_⟩
  · simp only [allFinite_cons] at hfinite
    obtain ⟨r, hr, hahead, hrq⟩ := s.exists_justAhead hq hinto.1
    have hpr := hinto.of_turn_le hfinite.1 hfinite.2.1 hahead.1 hrq
    exact ⟨r, hr, hahead, hrq, (s.overlap_mem_issues_iff _ _ _).mpr
      ⟨p, hp, r, hr, ⟨hahead, hpr⟩, rfl, rfl, rfl⟩⟩
  · refine forall₂_congr fun p hp => forall₂_congr fun q hq => forall₂_congr fun _ _ => ?_
    exact reportsOverlap_iff hq

def nested : Spec Float where
  heading := ⟨"Nested", "1", ⟨1920, 1080⟩, 30, none⟩
  assets := ⟨[], [], []⟩
  scenes := [
    { id := "sky", name := "Sky", start := 0.0, duration := 100.0, background := none
      audio := none, elements := [] },
    { id := "sun", name := "Sun", start := 1.0, duration := 1.0, background := none
      audio := none, elements := [] },
    { id := "moon", name := "Moon", start := 50.0, duration := 10.0, background := none
      audio := none, elements := [] }]

theorem nested_reports_sun : RunsInto nested.scenes.zipIdx[0] nested.scenes.zipIdx[2] ∧
    ∃ r ∈ nested.scenes.zipIdx, nested.JustAhead nested.scenes.zipIdx[0] r ∧
      turn r ≤ turn nested.scenes.zipIdx[2] ∧
        ⟨(Node.scene r.2).path, .overlap "sky" r.1.id⟩ ∈ nested.issues := by
  have hinto : RunsInto nested.scenes.zipIdx[0] nested.scenes.zipIdx[2] := by decide +kernel
  exact ⟨hinto, (reportsAllOverlaps_iff nested).2.1 _ (List.getElem_mem _) _ (List.getElem_mem _)
    (by decide +kernel) hinto⟩

theorem nested_not_reportsAllOverlaps : ¬nested.ReportsAllOverlaps := by
  intro h
  have hmoon := h nested.scenes.zipIdx[0] (List.getElem_mem _) nested.scenes.zipIdx[2]
    (List.getElem_mem _) (by decide +kernel) (by decide +kernel)
  have hnone : ∀ p ∈ nested.scenes.zipIdx,
      ¬(nested.JustAhead p nested.scenes.zipIdx[2] ∧ RunsInto p nested.scenes.zipIdx[2]) := by
    decide +kernel
  obtain ⟨p, hp, hahead⟩ := (reportsOverlap_iff (List.getElem_mem _)).mp hmoon
  exact hnone p hp hahead

end Spec
end Storyboard
