import Mathlib.Data.List.Basic
import Storyboard.Spec.Issue

set_option autoImplicit false

/-!
The walk over a spec. Each part of it leaves the path as it was and finds the issues of its part
under that path; so pushes and pops pair off, whatever is found on the way.
-/

namespace Storyboard
variable {α β : Type}

namespace Walk
variable {x y : Walk α Unit} {f g : List Step → List (Issue α)}

/-- A walk that comes back to where it started. -/
def Finds (x : Walk α Unit) (f : List Step → List (Issue α)) : Prop :=
  ∀ path found, x.run ⟨path, found⟩ = ((), ⟨path, found ++ f path⟩)

/-- A walk that starts at a node and leaves it for the one above. -/
def Leaves (x : Walk α Unit) (f : List Step → List (Issue α)) : Prop :=
  ∀ path step found,
    x.run ⟨path ++ [step], found⟩ = ((), ⟨path, found ++ f (path ++ [step])⟩)

theorem finds_pure : Finds (pure () : Walk α Unit) fun _ => [] :=
  fun path found => congrArg (fun found => ((), (⟨path, found⟩ : Inspection α)))
    (List.append_nil found).symm

theorem finds_report (problem : Problem α) : Finds (report problem) fun path => [⟨path, problem⟩] :=
  fun _ _ => rfl

theorem leaves_pop : Leaves (pop : Walk α Unit) fun _ => [] := by
  intro path step found
  change ((), (⟨(path ++ [step]).dropLast, found⟩ : Inspection α)) = _
  rw [List.dropLast_concat, List.append_nil]

theorem Finds.congr (h : x.Finds f) (heq : ∀ path, f path = g path) : x.Finds g :=
  (funext heq : f = g) ▸ h

theorem Finds.onlyIf (h : x.Finds f) (broken : Bool) :
    Finds (Walk.onlyIf broken x) fun path => if broken then f path else [] := by
  cases broken with
  | false => exact finds_pure
  | true => exact h

theorem Finds.seq (hx : x.Finds f) (hy : y.Finds g) :
    Finds (x >>= fun _ => y) fun path => f path ++ g path := by
  intro path found
  change y.run (x.run ⟨path, found⟩).2 = _
  rw [hx, hy, List.append_assoc]

theorem Finds.leave (hx : x.Finds f) (hy : y.Leaves g) :
    Leaves (x >>= fun _ => y) fun path => f path ++ g path := by
  intro path step found
  change y.run (x.run ⟨path ++ [step], found⟩).2 = _
  rw [hx, hy, List.append_assoc]

theorem Leaves.push (h : x.Leaves f) (step : Step) :
    Finds (Walk.push step >>= fun _ => x) fun path => f (path ++ [step]) :=
  fun path found => h path step found

theorem Finds.within (h : x.Finds f) (step : Step) :
    Finds (Walk.push step >>= fun _ => x >>= fun _ => pop) fun path => f (path ++ [step]) := by
  simpa only [List.append_nil] using (h.leave leaves_pop).push step

theorem finds_check (broken : Bool) (problem : Problem α) :
    Finds (Walk.onlyIf broken (report problem)) fun path => Issue.when broken path problem :=
  (finds_report problem).onlyIf broken

theorem finds_check_within (broken : Bool) (step : Step) (problem : Problem α) :
    Finds (Walk.onlyIf broken (Walk.push step >>= fun _ => report problem >>= fun _ => pop))
      fun path => Issue.when broken (path ++ [step]) problem :=
  ((finds_report problem).within step).onlyIf broken

theorem finds_forM {xs : List β} {x : β → Walk α Unit} {f : β → List Step → List (Issue α)}
    (h : ∀ b, (x b).Finds (f b)) :
    Finds (xs.forM x) fun path => xs.flatMap fun b => f b path := by
  induction xs with
  | nil => exact finds_pure
  | cons b xs ih => exact (h b).seq ih

theorem finds_option {o : Option β} {x : β → Walk α Unit} {f : β → List Step → List (Issue α)}
    (h : ∀ b, (x b).Finds (f b)) :
    Finds (o.forM x) fun path => (o.map fun b => f b path).getD [] := by
  cases o with
  | none => exact finds_pure
  | some b => exact h b

end Walk

open Walk

def Heading.issues (h : Heading) : List (Issue α) :=
  Issue.when h.resolution.isEmpty [.field "meta", .field "resolution"] .emptyResolution ++
    Issue.when (h.fps == 0) [.field "meta", .field "fps"] .zeroRate

def Element.referenceIssues (a : Sources α) (path : List Step) : Element α → List (Issue α)
  | .svg e => Issue.when (!a.declaresSvg e.asset) path (.undeclaredSvg e.asset)
  | .image e => Issue.when (!a.declaresImage e.asset) path (.undeclaredImage e.asset)
  | .group e => e.items.zipIdx.flatMap fun (item, i) => (item.asset.map fun id =>
    Issue.when (!a.declares item.kind id) (path ++ [.field "items", .index i])
      (.undeclaredItem id)).getD []
  | .text _ | .shape _ => []

theorem Heading.run_inspect (h : Heading) (found : List (Issue α)) :
    (h.inspect (α := α)).run ⟨[], found⟩ = ((), ⟨[], found ++ h.issues⟩) := by
  have hwalk : (h.inspect (α := α)).Finds _ :=
    ((finds_check_within _ _ _).leave ((finds_check_within _ _ _).leave leaves_pop)).push _
  refine (hwalk [] found).trans ?_
  simp only [List.append_nil]
  rfl

theorem Item.finds_inspect (a : Sources α) (i : Nat) (item : Item α) :
    (item.inspect a i).Finds fun path =>
      (item.asset.map fun id =>
        Issue.when (!a.declares item.kind id) (path ++ [.index i]) (.undeclaredItem id)).getD [] :=
  finds_option fun _ => finds_check_within _ _ _

theorem Element.finds_inspectReferences (a : Sources α) (e : Element α) :
    (e.inspectReferences a).Finds fun path => e.referenceIssues a path := by
  cases e with
  | svg e => exact finds_check _ _
  | image e => exact finds_check _ _
  | text e | shape e => exact finds_pure
  | group e =>
    refine ((finds_forM fun q : Item α × Nat => q.1.finds_inspect a q.2).within _).congr
      fun path => ?_
    simp only [List.append_assoc]
    rfl

variable [Scalar α]

def Sources.issues (a : Sources α) : List (Issue α) :=
  a.svgs.zipIdx.flatMap fun (svg, i) =>
    Issue.when (!(decide (0.0 < svg.size.width) && decide (0.0 < svg.size.height)))
      [.field "assets", .field "svgs", .index i] (.sizelessSvg svg.id)

def Element.issues (a : Sources α) (scene : Scene α) (path : List Step) (e : Element α) :
    List (Issue α) :=
  Issue.when (e.start < 0.0) path .earlyStart ++
    Issue.when (e.duration ≤ 0.0) path .noDuration ++
    Issue.when (scene.duration < e.start + e.duration) path (.overrun scene.id) ++
    e.referenceIssues a path

def Soundtrack.issues (a : Sources α) (path : List Step) (t : Soundtrack α) : List (Issue α) :=
  Issue.when (!a.declaresAudio t.asset) path (.undeclaredAudio t.asset) ++
    (t.volume.map fun v =>
      Issue.when (!(decide (0.0 ≤ v) && decide (v ≤ 1.0))) (path ++ [.field "volume"])
        (.volumeRange v)).getD []

def Scene.issues (a : Sources α) (path : List Step) (s : Scene α) : List (Issue α) :=
  Issue.when (s.start < 0.0) path .earlyStart ++
    Issue.when (s.duration ≤ 0.0) path .noDuration ++
    (s.audio.map (Soundtrack.issues a (path ++ [.field "audio"]))).getD [] ++
    s.elements.zipIdx.flatMap fun (e, i) =>
      e.issues a s (path ++ [.field "elements", .index i])

section Scenes
variable (a : Sources α) (scene : Scene α)

theorem Element.finds_inspect (i : Nat) (e : Element α) :
    (e.inspect a scene i).Finds fun path => e.issues a scene (path ++ [.index i]) := by
  have hwalk : (e.inspect a scene i).Finds _ :=
    ((finds_check _ _).leave ((finds_check _ _).leave ((finds_check _ _).leave
      ((e.finds_inspectReferences a).leave leaves_pop)))).push _
  refine hwalk.congr fun path => ?_
  simp only [Element.issues, List.append_assoc, List.append_nil]

theorem Soundtrack.finds_inspect (t : Soundtrack α) :
    (t.inspect a).Finds fun path => t.issues a (path ++ [.field "audio"]) := by
  have hvolume : Finds (t.volume.forM fun v => onlyIf (!(decide (0.0 ≤ v) && decide (v ≤ 1.0)))
      (push (.field "volume") >>= fun _ => report (.volumeRange v) >>= fun _ => pop)) _ :=
    finds_option fun _ => finds_check_within _ _ _
  have hwalk : (t.inspect a).Finds _ :=
    ((finds_check _ _).leave (hvolume.leave leaves_pop)).push _
  refine hwalk.congr fun path => ?_
  rw [List.append_nil]
  rfl

theorem Scene.finds_inspectElements :
    (scene.inspectElements a).Finds fun path => scene.elements.zipIdx.flatMap fun (e, i) =>
      e.issues a scene (path ++ [.field "elements", .index i]) := by
  refine ((finds_forM fun q : Element α × Nat => q.1.finds_inspect a scene q.2).within _).congr
    fun path => ?_
  simp only [List.append_assoc, List.cons_append, List.nil_append]

theorem Scene.finds_inspect (i : Nat) :
    (scene.inspect a i).Finds fun path => scene.issues a (path ++ [.index i]) := by
  have haudio : Finds (scene.audio.forM (Soundtrack.inspect a)) _ :=
    finds_option fun t => t.finds_inspect a
  have hwalk : (scene.inspect a i).Finds _ :=
    ((finds_check _ _).leave ((finds_check _ _).leave (haudio.leave
      ((scene.finds_inspectElements a).leave leaves_pop)))).push _
  refine hwalk.congr fun path => ?_
  simp only [Scene.issues, List.append_assoc, List.append_nil]

end Scenes

theorem SvgSource.finds_inspect (i : Nat) (svg : SvgSource α) :
    (svg.inspect i).Finds fun path =>
      Issue.when (!(decide (0.0 < svg.size.width) && decide (0.0 < svg.size.height)))
        (path ++ [.index i]) (.sizelessSvg svg.id) :=
  finds_check_within _ _ _

theorem Sources.run_inspect (a : Sources α) (found : List (Issue α)) :
    a.inspect.run ⟨[], found⟩ = ((), ⟨[], found ++ a.issues⟩) := by
  have hsvgs : Finds (a.svgs.zipIdx.forM fun (svg, i) => svg.inspect i) _ :=
    finds_forM fun q => q.1.finds_inspect q.2
  exact congrArg (fun q => Walk.clear.run q.2) (hsvgs [.field "assets", .field "svgs"] found)

/-- The issues of a spec, part by part under the path of each, and then its overlaps. -/
theorem Spec.issues_eq (s : Spec α) :
    s.issues = s.heading.issues ++ s.assets.issues ++
      (s.scenes.zipIdx.flatMap fun (scene, i) =>
        scene.issues s.assets [.field "scenes", .index i]) ++
      s.overlaps := by
  have hscenes : Finds (s.scenes.zipIdx.forM fun (scene, i) => scene.inspect s.assets i) _ :=
    finds_forM fun q => q.1.finds_inspect s.assets q.2
  have hwalk : s.inspect.run ⟨[], []⟩ =
      (s.scenes.zipIdx.forM fun (scene, i) => scene.inspect s.assets i).run
        ((push (.field "scenes")).run
          (s.assets.inspect.run (s.heading.inspect.run ⟨[], []⟩).2).2).2 := rfl
  rw [Heading.run_inspect, Sources.run_inspect] at hwalk
  rw [Spec.issues, hwalk]
  exact congrArg (fun q => q.2.found ++ s.overlaps) (hscenes [.field "scenes"] _)

end Storyboard
