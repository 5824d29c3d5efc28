import Mathlib.Tactic.MkIffOfInductiveProp
import Storyboard.Proofs.Inspection
import Storyboard.Proofs.Paths

set_option autoImplicit false

namespace Storyboard

/-- A check by its place in the spec: scene `i`, its element `j`, and item `k` of that. -/
inductive Check where
  | resolution
  | rate
  | svgSize (i : Nat)
  | sceneStart (i : Nat)
  | sceneDuration (i : Nat)
  | soundtrack (i : Nat)
  | volume (i : Nat)
  | start (i j : Nat)
  | duration (i j : Nat)
  | stop (i j : Nat)
  | reference (i j : Nat)
  | itemReference (i j k : Nat)
  deriving DecidableEq, Repr

namespace Check

def node : Check → Node
  | .resolution => .resolution
  | .rate => .rate
  | .svgSize i => .svg i
  | .sceneStart i | .sceneDuration i => .scene i
  | .soundtrack i => .soundtrack i
  | .volume i => .volume i
  | .start i j | .duration i j | .stop i j | .reference i j => .element i j
  | .itemReference i j k => .item i j k

/-- Checks are made in the lexicographic order of these. -/
def place : Check → List Nat
  | .resolution => [0]
  | .rate => [1]
  | .svgSize i => [2, i]
  | .sceneStart i => [3, i, 0]
  | .sceneDuration i => [3, i, 1]
  | .soundtrack i => [3, i, 2]
  | .volume i => [3, i, 3]
  | .start i j => [3, i, 4, j, 0]
  | .duration i j => [3, i, 4, j, 1]
  | .stop i j => [3, i, 4, j, 2]
  | .reference i j => [3, i, 4, j, 3]
  | .itemReference i j k => [3, i, 4, j, 3, k]

end Check

variable {α β : Type}

/-- The references of element `j` of scene `i` to assets that are not declared under their kind. -/
@[mk_iff]
inductive Element.Misses (a : Sources β) (i j : Nat) (e : Element β) :
    Check → Problem β → Prop where
  | svg {picture : Picture β} (he : e = .svg picture) (h : ∀ svg ∈ a.svgs, svg.id ≠ picture.asset) :
    Misses a i j e (.reference i j) (.undeclaredSvg picture.asset)
  | image {picture : Picture β} (he : e = .image picture)
    (h : ∀ image ∈ a.images, image.id ≠ picture.asset) :
    Misses a i j e (.reference i j) (.undeclaredImage picture.asset)
  | svgItem {g : Group β} {item : Item β} {k : Nat} {id : String} (he : e = .group g)
    (hk : g.items[k]? = some item) (hkind : item.kind = .svg) (hid : item.asset = some id)
    (h : ∀ svg ∈ a.svgs, svg.id ≠ id) :
    Misses a i j e (.itemReference i j k) (.undeclaredItem id)
  | imageItem {g : Group β} {item : Item β} {k : Nat} {id : String} (he : e = .group g)
    (hk : g.items[k]? = some item) (hkind : item.kind = .image) (hid : item.asset = some id)
    (h : ∀ image ∈ a.images, image.id ≠ id) :
    Misses a i j e (.itemReference i j k) (.undeclaredItem id)

variable [Scalar α]

inductive Element.Fails (a : Sources α) (scene : Scene α) (i j : Nat) (e : Element α) :
    Check → Problem α → Prop where
  | start (h : e.start < 0.0) : Fails a scene i j e (.start i j) .earlyStart
  | duration (h : e.duration ≤ 0.0) : Fails a scene i j e (.duration i j) .noDuration
  | stop (h : scene.duration < e.start + e.duration) :
    Fails a scene i j e (.stop i j) (.overrun scene.id)
  | reference {c : Check} {p : Problem α} (h : e.Misses a i j c p) : Fails a scene i j e c p

inductive Scene.Fails (a : Sources α) (i : Nat) (s : Scene α) : Check → Problem α → Prop where
  | start (h : s.start < 0.0) : Fails a i s (.sceneStart i) .earlyStart
  | duration (h : s.duration ≤ 0.0) : Fails a i s (.sceneDuration i) .noDuration
  | soundtrack {t : Soundtrack α} (ht : s.audio = some t)
    (h : ∀ audio ∈ a.audio, audio.id ≠ t.asset) :
    Fails a i s (.soundtrack i) (.undeclaredAudio t.asset)
  | volume {t : Soundtrack α} {v : α} (ht : s.audio = some t) (hv : t.volume = some v)
    (h : ¬(0.0 ≤ v ∧ v ≤ 1.0)) : Fails a i s (.volume i) (.volumeRange v)
  | element {j : Nat} {e : Element α} {c : Check} {p : Problem α} (hj : s.elements[j]? = some e)
    (h : e.Fails a s i j c p) : Fails a i s c p

/-- The checks that a spec fails, and what each finds. -/
inductive Spec.Fails (s : Spec α) : Check → Problem α → Prop where
  | resolution (h : s.heading.resolution.width = 0 ∨ s.heading.resolution.height = 0) :
    Fails s .resolution .emptyResolution
  | rate (h : s.heading.fps = 0) : Fails s .rate .zeroRate
  | svgSize {i : Nat} {svg : SvgSource α} (hi : s.assets.svgs[i]? = some svg)
    (h : ¬(0.0 < svg.size.width ∧ 0.0 < svg.size.height)) :
    Fails s (.svgSize i) (.sizelessSvg svg.id)
  | scene {i : Nat} {scene : Scene α} {c : Check} {p : Problem α} (hi : s.scenes[i]? = some scene)
    (h : scene.Fails s.assets i c p) : Fails s c p

/-- The issues are those of the failed checks, one for each, in the order of the checks. -/
def Reports (issues : List (Issue β)) (fails : Check → Problem β → Prop) : Prop :=
  ∃ found : List (Check × Problem β),
    issues = found.map (fun f => ⟨f.1.node.path, f.2⟩) ∧
      found.Pairwise (fun f g => f.1.place < g.1.place) ∧ ∀ c p, (c, p) ∈ found ↔ fails c p

namespace Reports
variable {is js : List (Issue β)} {F G : Check → Problem β → Prop}

theorem congr (h : Reports is F) (hiff : ∀ c p, F c p ↔ G c p) : Reports is G := by
  obtain ⟨found, his, hlt, hmem⟩ := h
  exact ⟨found, his, hlt, fun c p => (hmem c p).trans (hiff c p)⟩

theorem nil : Reports ([] : List (Issue β)) fun _ _ => False :=
  ⟨[], rfl, .nil, by simp⟩

theorem when (broken : Bool) (c : Check) (p : Problem β) :
    Reports (Issue.when broken c.node.path p) fun c' p' => broken = true ∧ c' = c ∧ p' = p := by
  cases broken with
  | false => exact nil.congr (by simp)
  | true => exact ⟨[(c, p)], rfl, List.pairwise_singleton _ _, by simp⟩

theorem append (h : Reports is F) (h' : Reports js G)
    (hlt : ∀ c p c' p', F c p → G c' p' → c.place < c'.place) :
    Reports (is ++ js) fun c p => F c p ∨ G c p := by
  obtain ⟨found, rfl, hfound, hF⟩ := h
  obtain ⟨rest, rfl, hrest, hG⟩ := h'
  refine ⟨found ++ rest, List.map_append.symm, ?_, ?_⟩
  · rw [List.pairwise_append]
    exact ⟨hfound, hrest, fun f hf g hg => hlt _ _ _ _ ((hF _ _).mp hf) ((hG _ _).mp hg)⟩
  · intro c p
    rw [List.mem_append, hF, hG]

section Members
variable {γ : Type} {issues : γ → Nat → List (Issue β)} {H : γ → Nat → Check → Problem β → Prop}

theorem flatMap_zipIdx {xs : List γ} (n : Nat)
    (h : ∀ x i, xs[i]? = some x → Reports (issues x (n + i)) (H x (n + i)))
    (hlt : ∀ x i y j c p c' p', i < j → H x i c p → H y j c' p' → c.place < c'.place) :
    Reports ((xs.zipIdx n).flatMap fun q => issues q.1 q.2)
      fun c p => ∃ i x, xs[i]? = some x ∧ H x (n + i) c p := by
  induction xs generalizing n with
  | nil => exact nil.congr (by simp)
  | cons x xs ih =>
    have hfirst : Reports (issues x n) (H x n) := h x 0 rfl
    have hrest := ih (n + 1) fun y i hi => by
      rw [Nat.add_right_comm]
      exact h y (i + 1) hi
    rw [List.zipIdx_cons, List.flatMap_cons]
    refine (hfirst.append hrest ?_).congr fun c p => ?_
    · rintro c p c' p' hx ⟨i, y, -, hy⟩
      exact hlt x n y (n + 1 + i) c p c' p' (by omega) hx hy
    · constructor
      · rintro (hx | ⟨i, y, hi, hy⟩)
        · exact ⟨0, x, rfl, hx⟩
        · exact ⟨i + 1, y, hi, by rwa [Nat.add_right_comm] at hy⟩
      · rintro ⟨_ | i, y, hi, hy⟩
        · cases hi
          exact .inl hy
        · exact .inr ⟨i, y, hi, by rwa [Nat.add_right_comm]⟩

theorem flatMap (xs : List γ) (issues : γ → Nat → List (Issue β))
    (H : γ → Nat → Check → Problem β → Prop)
    (h : ∀ x i, xs[i]? = some x → Reports (issues x i) (H x i))
    (hlt : ∀ x i y j c p c' p', i < j → H x i c p → H y j c' p' → c.place < c'.place) :
    Reports (xs.zipIdx.flatMap fun q => issues q.1 q.2)
      fun c p => ∃ i x, xs[i]? = some x ∧ H x i c p := by
  have hall := flatMap_zipIdx 0 (fun x i hi => by rw [Nat.zero_add]; exact h x i hi) hlt
  simpa only [Nat.zero_add] using hall

theorem option {issues : γ → List (Issue β)} {H : γ → Check → Problem β → Prop} (o : Option γ)
    (h : ∀ x, Reports (issues x) (H x)) :
    Reports ((o.map issues).getD []) fun c p => ∃ x, o = some x ∧ H x c p := by
  cases o with
  | none => exact nil.congr (by simp)
  | some x => exact (h x).congr (by simp)

end Members
end Reports

section Places
variable {a : Sources α} {scene : Scene α} {e : Element α} {i j : Nat} {c : Check} {p : Problem α}

theorem Element.Misses.place_eq {a : Sources β} {e : Element β} {p : Problem β}
    (h : e.Misses a i j c p) : ∃ rest, c.place = 3 :: i :: 4 :: j :: 3 :: rest := by
  cases h <;> exact ⟨_, rfl⟩

theorem Element.Fails.place_eq (h : e.Fails a scene i j c p) :
    ∃ rest, c.place = 3 :: i :: 4 :: j :: rest := by
  cases h with
  | reference h =>
    obtain ⟨rest, hplace⟩ := h.place_eq
    exact ⟨3 :: rest, hplace⟩
  | _ => exact ⟨_, rfl⟩

theorem Scene.Fails.place_eq (h : scene.Fails a i c p) : ∃ rest, c.place = 3 :: i :: rest := by
  cases h with
  | element hj h =>
    obtain ⟨rest, hplace⟩ := h.place_eq
    exact ⟨4 :: _ :: rest, hplace⟩
  | _ => exact ⟨_, rfl⟩

end Places

theorem Element.reports_items (a : Sources β) (i j : Nat) (g : Group β) :
    Reports ((Element.group g).referenceIssues a (Node.element i j).path) fun c p =>
      ∃ k item, g.items[k]? = some item ∧ ∃ id, item.asset = some id ∧
        (!a.declares item.kind id) = true ∧ c = .itemReference i j k ∧ p = .undeclaredItem id := by
  refine Reports.flatMap g.items _ (fun item k c p => ∃ id, item.asset = some id ∧
    (!a.declares item.kind id) = true ∧ c = .itemReference i j k ∧ p = .undeclaredItem id)
    (fun item k _ => Reports.option item.asset fun id => Reports.when _ (.itemReference i j k) _) ?_
  rintro _ k _ l _ _ _ _ hlt ⟨_, _, _, rfl, _⟩ ⟨_, _, _, rfl, _⟩
  simp [Check.place, List.cons_lt_cons_iff, hlt]

section Misses
variable {a : Sources β} {i j : Nat} {c : Check} {p : Problem β}

theorem Element.misses_group_iff {g : Group β} :
    (Element.group g).Misses a i j c p ↔
      ∃ k item, g.items[k]? = some item ∧ ∃ id, item.asset = some id ∧
        (!a.declares item.kind id) = true ∧ c = .itemReference i j k ∧ p = .undeclaredItem id := by
  simp only [misses_iff, reduceCtorEq, false_and, exists_false, false_or, Element.group.injEq]
  constructor
  · rintro (⟨_, item, k, id, rfl, hk, hkind, hid, h, hc⟩ |
      ⟨_, item, k, id, rfl, hk, hkind, hid, h, hc⟩)
    · exact ⟨k, item, hk, id, hid, by simpa [hkind, Sources.declares, Sources.declaresSvg], hc⟩
    · exact ⟨k, item, hk, id, hid, by simpa [hkind, Sources.declares, Sources.declaresImage], hc⟩
  · rintro ⟨k, item, hk, id, hid, h, hc⟩
    cases hkind : item.kind with
    | svg =>
      rw [hkind] at h
      exact .inl ⟨g, item, k, id, rfl, hk, hkind, hid,
        by simpa [Sources.declares, Sources.declaresSvg] using h, hc⟩
    | image =>
      rw [hkind] at h
      exact .inr ⟨g, item, k, id, rfl, hk, hkind, hid,
        by simpa [Sources.declares, Sources.declaresImage] using h, hc⟩
    | text => simp [hkind, Sources.declares] at h

end Misses

theorem Element.reports_references (a : Sources β) (i j : Nat) (e : Element β) :
    Reports (e.referenceIssues a (Node.element i j).path) (e.Misses a i j) := by
  cases e with
  | svg e =>
    refine (Reports.when _ (.reference i j) _).congr fun c p => ?_
    simp [misses_iff, Sources.declaresSvg]
  | image e =>
    refine (Reports.when _ (.reference i j) _).congr fun c p => ?_
    simp [misses_iff, Sources.declaresImage]
  | text e | shape e =>
    exact Reports.nil.congr fun c p => by simp [misses_iff]
  | group g => exact (reports_items a i j g).congr fun c p => misses_group_iff.symm

section Parts
variable (a : Sources α) (scene : Scene α) (e : Element α) (i j : Nat)

theorem Element.reports :
    Reports (e.issues a scene (Node.element i j).path) (e.Fails a scene i j) := by
  have hstart := Reports.when (e.start < 0.0) (.start i j) (.earlyStart : Problem α)
  have hduration := Reports.when (e.duration ≤ 0.0) (.duration i j) (.noDuration : Problem α)
  have hstop := Reports.when (scene.duration < e.start + e.duration) (.stop i j)
    (.overrun scene.id : Problem α)
  refine (((hstart.append hduration ?_).append hstop ?_).append
    (reports_references a i j e) ?_).congr fun c p => ?_
  · rintro _ _ _ _ ⟨-, rfl, -⟩ ⟨-, rfl, -⟩
    simp [Check.place, List.cons_lt_cons_iff]
  · rintro _ _ _ _ (⟨-, rfl, -⟩ | ⟨-, rfl, -⟩) ⟨-, rfl, -⟩ <;>
      simp [Check.place, List.cons_lt_cons_iff]
  · intro c p c' p' hc h
    obtain ⟨rest, hplace⟩ := h.place_eq
    rw [hplace]
    rcases hc with (⟨-, rfl, -⟩ | ⟨-, rfl, -⟩) | ⟨-, rfl, -⟩ <;>
      simp [Check.place, List.cons_lt_cons_iff]
  · simp only [decide_eq_true_eq]
    constructor
    · rintro (((⟨h, rfl, rfl⟩ | ⟨h, rfl, rfl⟩) | ⟨h, rfl, rfl⟩) | h)
      · exact .start h
      · exact .duration h
      · exact .stop h
      · exact .reference h
    · intro h
      cases h with
      | start h => exact .inl (.inl (.inl ⟨h, rfl, rfl⟩))
      | duration h => exact .inl (.inl (.inr ⟨h, rfl, rfl⟩))
      | stop h => exact .inl (.inr ⟨h, rfl, rfl⟩)
      | reference h => exact .inr h

theorem Soundtrack.reports (t : Soundtrack α) :
    Reports (t.issues a (Node.soundtrack i).path) fun c p =>
      (∀ audio ∈ a.audio, audio.id ≠ t.asset) ∧ c = .soundtrack i ∧ p = .undeclaredAudio t.asset ∨
        ∃ v, t.volume = some v ∧ ¬(0.0 ≤ v ∧ v ≤ 1.0) ∧ c = .volume i ∧ p = .volumeRange v := by
  have hasset := Reports.when (!a.declaresAudio t.asset) (.soundtrack i)
    (.undeclaredAudio t.asset : Problem α)
  have hvolume := Reports.option t.volume fun v =>
    Reports.when (!(decide (0.0 ≤ v) && decide (v ≤ 1.0))) (.volume i) (.volumeRange v)
  refine (hasset.append hvolume ?_).congr fun c p => ?_
  · rintro _ _ _ _ ⟨-, rfl, -⟩ ⟨v, -, -, rfl, -⟩
    simp [Check.place, List.cons_lt_cons_iff]
  · simp [Sources.declaresAudio, imp_iff_not_or]

theorem Scene.reports : Reports (scene.issues a (Node.scene i).path) (scene.Fails a i) := by
  have hstart := Reports.when (scene.start < 0.0) (.sceneStart i) (.earlyStart : Problem α)
  have hduration := Reports.when (scene.duration ≤ 0.0) (.sceneDuration i) (.noDuration : Problem α)
  have haudio := Reports.option scene.audio fun t => Soundtrack.reports a i t
  have helements := Reports.flatMap scene.elements _ _
    (fun e j _ => Element.reports a scene e i j) fun e j f l c p c' p' hlt h h' => by
      obtain ⟨rest, hplace⟩ := h.place_eq
      obtain ⟨rest', hplace'⟩ := h'.place_eq
      simp [hplace, hplace', List.cons_lt_cons_iff, hlt]
  refine (((hstart.append hduration ?_).append haudio ?_).append helements ?_).congr fun c p => ?_
  · rintro _ _ _ _ ⟨-, rfl, -⟩ ⟨-, rfl, -⟩
    simp [Check.place, List.cons_lt_cons_iff]
  · rintro _ _ _ _ (⟨-, rfl, -⟩ | ⟨-, rfl, -⟩) ⟨t, -, ⟨-, rfl, -⟩ | ⟨v, -, -, rfl, -⟩⟩ <;>
      simp [Check.place, List.cons_lt_cons_iff]
  · intro c p c' p' hc h
    obtain ⟨j, e, -, h⟩ := h
    obtain ⟨rest, hplace⟩ := h.place_eq
    rw [hplace]
    rcases hc with (⟨-, rfl, -⟩ | ⟨-, rfl, -⟩) | ⟨t, -, ⟨-, rfl, -⟩ | ⟨v, -, -, rfl, -⟩⟩ <;>
      simp [Check.place, List.cons_lt_cons_iff]
  · simp only [decide_eq_true_eq]
    constructor
    · rintro (((⟨h, rfl, rfl⟩ | ⟨h, rfl, rfl⟩) | ⟨t, ht, h⟩) | ⟨j, e, hj, h⟩)
      · exact .start h
      · exact .duration h
      · obtain ⟨h, rfl, rfl⟩ | ⟨v, hv, h, rfl, rfl⟩ := h
        · exact .soundtrack ht h
        · exact .volume ht hv h
      · exact .element hj h
    · intro h
      cases h with
      | start h => exact .inl (.inl (.inl ⟨h, rfl, rfl⟩))
      | duration h => exact .inl (.inl (.inr ⟨h, rfl, rfl⟩))
      | soundtrack ht h => exact .inl (.inr ⟨_, ht, .inl ⟨h, rfl, rfl⟩⟩)
      | volume ht hv h => exact .inl (.inr ⟨_, ht, .inr ⟨_, hv, h, rfl, rfl⟩⟩)
      | element hj h => exact .inr ⟨_, _, hj, h⟩

end Parts

theorem Heading.reports (h : Heading) : Reports (h.issues : List (Issue β)) fun c p =>
    (h.resolution.width = 0 ∨ h.resolution.height = 0) ∧ c = .resolution ∧ p = .emptyResolution ∨
      h.fps = 0 ∧ c = .rate ∧ p = .zeroRate := by
  have hresolution := Reports.when h.resolution.isEmpty .resolution (.emptyResolution : Problem β)
  have hrate := Reports.when (h.fps == 0) .rate (.zeroRate : Problem β)
  refine (hresolution.append hrate ?_).congr fun c p => ?_
  · rintro _ _ _ _ ⟨-, rfl, -⟩ ⟨-, rfl, -⟩
    simp [Check.place, List.cons_lt_cons_iff]
  · simp [Canvas.isEmpty]

theorem Sources.reports (a : Sources α) : Reports a.issues fun c p => ∃ i svg,
    a.svgs[i]? = some svg ∧ ¬(0.0 < svg.size.width ∧ 0.0 < svg.size.height) ∧ c = .svgSize i ∧
      p = .sizelessSvg svg.id := by
  refine Reports.flatMap a.svgs
    (fun svg i =>
      Issue.when (!(decide (0.0 < svg.size.width) && decide (0.0 < svg.size.height)))
        (Node.svg i).path (.sizelessSvg svg.id))
    (fun svg i c p => ¬(0.0 < svg.size.width ∧ 0.0 < svg.size.height) ∧ c = .svgSize i ∧
      p = .sizelessSvg svg.id) (fun svg i _ => ?_) ?_
  · refine (Reports.when _ (.svgSize i) _).congr fun c p => ?_
    simp [imp_iff_not_or]
  · rintro _ i _ j _ _ _ _ hlt ⟨-, rfl, -⟩ ⟨-, rfl, -⟩
    simp [Check.place, List.cons_lt_cons_iff, hlt]

theorem Issue.mem_when_iff {broken : Bool} {path : List Step} {problem : Problem β} {o : Issue β} :
    o ∈ Issue.when broken path problem ↔ broken = true ∧ o = ⟨path, problem⟩ := by
  cases broken <;> simp [Issue.when]

namespace Spec

theorem exists_reports (s : Spec α) :
    ∃ issues, s.issues = issues ++ s.overlaps ∧ Reports issues s.Fails := by
  have hscenes := Reports.flatMap s.scenes _ _ (fun c i _ => Scene.reports s.assets c i)
    fun c i d j f p f' p' hlt h h' => by
      obtain ⟨rest, hplace⟩ := h.place_eq
      obtain ⟨rest', hplace'⟩ := h'.place_eq
      simp [hplace, hplace', List.cons_lt_cons_iff, hlt]
  refine ⟨_, s.issues_eq, ((s.heading.reports.append s.assets.reports ?_).append hscenes ?_).congr
    fun c p => ?_⟩
  · rintro _ _ _ _ (⟨-, rfl, -⟩ | ⟨-, rfl, -⟩) ⟨i, svg, -, -, rfl, -⟩ <;>
      simp [Check.place, List.cons_lt_cons_iff]
  · intro c p c' p' hc h
    obtain ⟨i, scene, -, h⟩ := h
    obtain ⟨rest, hplace⟩ := h.place_eq
    rw [hplace]
    rcases hc with (⟨-, rfl, -⟩ | ⟨-, rfl, -⟩) | ⟨i, svg, -, -, rfl, -⟩ <;>
      simp [Check.place, List.cons_lt_cons_iff]
  · constructor
    · rintro (((⟨h, rfl, rfl⟩ | ⟨h, rfl, rfl⟩) | ⟨i, svg, hi, h, rfl, rfl⟩) | ⟨i, c, hi, h⟩)
      · exact .resolution h
      · exact .rate h
      · exact .svgSize hi h
      · exact .scene hi h
    · intro h
      cases h with
      | resolution h => exact .inl (.inl (.inl ⟨h, rfl, rfl⟩))
      | rate h => exact .inl (.inl (.inr ⟨h, rfl, rfl⟩))
      | svgSize hi h => exact .inl (.inr ⟨_, _, hi, h, rfl, rfl⟩)
      | scene hi h => exact .inr ⟨_, _, hi, h⟩

theorem Fails.isSome_part? {s : Spec Float} {c : Check} {p : Problem Float} (h : s.Fails c p) :
    (c.node.part? s).isSome = true := by
  cases h with
  | resolution | rate => rfl
  | svgSize hi => simp [Check.node, Node.part?, hi]
  | scene hi h =>
    cases h with
    | start | duration => simp [Check.node, Node.part?, hi]
    | soundtrack ht => simp [Check.node, Node.part?, hi, ht]
    | volume ht hv => simp [Check.node, Node.part?, hi, ht, hv]
    | element hj h =>
      cases h with
      | start | duration | stop => simp [Check.node, Node.part?, hi, hj]
      | reference h =>
        cases h with
        | svg | image => simp [Check.node, Node.part?, hi, hj]
        | svgItem he hk | imageItem he hk =>
          subst he
          simp [Check.node, Node.part?, hi, hj, hk]

theorem Fails.ne_overlap {s : Spec α} {c : Check} {p : Problem α} (h : s.Fails c p)
    (earlier later : String) : p ≠ .overlap earlier later := by
  rintro rfl
  cases h with
  | scene _ h =>
    cases h with
    | element _ h =>
      cases h with
      | reference h => cases h

theorem exists_of_mem_overlaps {s : Spec α} {o : Issue α} (h : o ∈ s.overlaps) :
    ∃ j scene earlier, s.scenes[j]? = some scene ∧
      o = ⟨(Node.scene j).path, .overlap earlier scene.id⟩ := by
  obtain ⟨⟨⟨earlier, i⟩, later, j⟩, hpair, ho⟩ := List.mem_flatMap.mp h
  have hlater : (later, j) ∈ s.timeline := List.mem_of_mem_tail (List.of_mem_zip hpair).2
  exact ⟨j, later, earlier.id, List.mem_zipIdx_iff_getElem?.mp (List.mem_mergeSort.mp hlater),
    (Issue.mem_when_iff.mp ho).2⟩

/-- The issues of a spec are its failed checks, one for each and in the order in which the checks
are made, and behind them its overlaps. The path of each leads to what it is about in the document
of the spec, and the paths of different nodes differ also as they are written. -/
theorem issues_eq_failed_checks (s : Spec Float) :
    ∃ found : List (Check × Problem Float),
      s.issues = found.map (fun f => ⟨f.1.node.path, f.2⟩) ++ s.overlaps ∧
      found.Pairwise (fun f g => f.1.place < g.1.place) ∧
      (∀ c p, (c, p) ∈ found ↔ s.Fails c p) ∧
      (∀ f ∈ found, ∀ earlier later, f.2 ≠ .overlap earlier later) ∧
      (∀ f ∈ found, ∃ node, f.1.node.part? s = some node ∧
        Json.follow? f.1.node.path (Spec.record.codec.write s) = some node) ∧
      (∀ o ∈ s.overlaps, ∃ j scene earlier, s.scenes[j]? = some scene ∧
        o = ⟨(Node.scene j).path, .overlap earlier scene.id⟩) ∧
      ∀ (m n : Node) (p q : Problem Float),
        (Issue.mk m.path p).pathText = (Issue.mk n.path q).pathText → m = n := by
  obtain ⟨issues, hissues, found, rfl, hplace, hfails⟩ := s.exists_reports
  refine ⟨found, hissues, hplace, hfails, ?_, ?_, fun o ho => exists_of_mem_overlaps ho,
    fun m n p q h => Node.eq_of_pathText h⟩
  · intro f hf
    exact ((hfails _ _).mp hf).ne_overlap
  · intro f hf
    obtain ⟨node, hnode⟩ := Option.isSome_iff_exists.mp ((hfails _ _).mp hf).isSome_part?
    exact ⟨node, hnode, (Node.follow?_path s f.1.node).trans hnode⟩

example (p : Problem Float) :
    (Issue.mk (Node.item 0 12 3).path p).pathText = "$.scenes[0].elements[12].items[3]" := by
  cbv

end Spec
end Storyboard
