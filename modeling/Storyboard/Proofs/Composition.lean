import Storyboard.Proofs.Binary64.Order
import Storyboard.Proofs.FirstFault

set_option autoImplicit false

namespace Storyboard

/-- How the outcome of a whole follows from those of its two parts, where two results are joined to
one. The first part fails the whole before the second does. -/
inductive Composes {ε β : Type} (Joins : β → β → β → Prop) :
    Except ε β → Except ε β → Except ε β → Prop where
  | first (e : ε) (second : Except ε β) : Composes Joins (.error e) second (.error e)
  | second (a : β) (e : ε) : Composes Joins (.ok a) (.error e) (.error e)
  | both {a b p : β} (joins : Joins a b p) : Composes Joins (.ok a) (.ok b) (.ok p)

theorem composes_of_failure? {ε β : Type} {Joins : β → β → β → Prop} {x y z : Except ε β}
    (hfailure : failure? z = (failure? x).or (failure? y))
    (hjoins : ∀ a b, x = .ok a → y = .ok b → ∃ p, z = .ok p ∧ Joins a b p) :
    Composes Joins x y z := by
  cases x with
  | error e =>
    obtain rfl := failure?_eq_some_iff.mp hfailure
    exact .first e y
  | ok a =>
    cases y with
    | error e =>
      obtain rfl := failure?_eq_some_iff.mp hfailure
      exact .second a e
    | ok b =>
      obtain ⟨p, rfl, hp⟩ := hjoins a b rfl rfl
      exact .both hp

variable {α : Type}

/-- The same action, with the number in its id raised. -/
def Action.Raised (k : Nat) (a b : Action α) : Prop :=
  ∃ n, a.id = s!"{a.deed.label}_{n}" ∧ b = ⟨s!"{a.deed.label}_{n + k}", a.deed⟩

def PlayedScene.Raised (k : Nat) (p q : PlayedScene α) : Prop :=
  ∃ actions, List.Forall₂ (Action.Raised k) p.actions actions ∧ q = { p with actions }

theorem forall₂_raised_number (k i : Nat) (deeds : List (Deed α)) :
    List.Forall₂ (Action.Raised k) ((deeds.zipIdx i).map fun (d, n) => d.number n)
      ((deeds.zipIdx (i + k)).map fun (d, n) => d.number n) := by
  induction deeds generalizing i with
  | nil => exact .nil
  | cons d deeds ih =>
    rw [List.zipIdx_cons, List.zipIdx_cons, List.map_cons, List.map_cons, Nat.add_right_comm]
    exact .cons ⟨i, rfl, rfl⟩ (ih (i + 1))

theorem forall₂_raised_playAll (k i : Nat) (xs : List (Scene α × List (Deed α))) :
    List.Forall₂ (PlayedScene.Raised k) (playAll i xs) (playAll (i + k) xs) := by
  induction xs generalizing i with
  | nil => exact .nil
  | cons x xs ih =>
    obtain ⟨s, deeds⟩ := x
    refine .cons ⟨_, forall₂_raised_number k i deeds, rfl⟩ ?_
    rw [Nat.add_right_comm]
    exact ih (i + deeds.length)

theorem Scene.play_append (k : Nat) (s : Scene α) (first second : List (Deed α)) :
    s.play k (first ++ second) =
      { s.play k first with
        actions := (s.play k first).actions ++ (s.play (k + first.length) second).actions } := by
  simp only [Scene.play, List.zipIdx_append, List.map_append]

@[simp] theorem Scene.length_actions_play (k : Nat) (s : Scene α) (deeds : List (Deed α)) :
    (s.play k deeds).actions.length = deeds.length := by
  simp only [Scene.play, List.length_map, List.length_zipIdx]

theorem playAll_cons (k : Nat) (s : Scene α) (deeds : List (Deed α))
    (rest : List (Scene α × List (Deed α))) :
    playAll k ((s, deeds) :: rest) = s.play k deeds :: playAll (k + deeds.length) rest := rfl

/-- How many actions come before the second part is known from the first. -/
theorem playAll_append (i : Nat) (xs ys : List (Scene α × List (Deed α))) :
    playAll i (xs ++ ys) =
      playAll i xs ++ playAll (i + ((playAll i xs).flatMap PlayedScene.actions).length) ys := by
  induction xs generalizing i with
  | nil => rfl
  | cons x xs ih =>
    obtain ⟨s, deeds⟩ := x
    simp only [List.cons_append, playAll_cons, ih, List.flatMap_cons, List.length_append,
      Scene.length_actions_play, Nat.add_assoc]

/-- The same scene, but for its sound and what is drawn in it. -/
def Scene.Redrawn (s t : Scene α) : Prop := ∃ audio elements, t = { s with audio, elements }

theorem playAll_redrawn {xs ys : List (Scene α)} (h : List.Forall₂ Scene.Redrawn xs ys) (k : Nat)
    (deeds : List (List (Deed α))) : playAll k (xs.zip deeds) = playAll k (ys.zip deeds) := by
  induction h generalizing k deeds with
  | nil => rfl
  | cons hs _ ih =>
    obtain ⟨audio, elements, rfl⟩ := hs
    cases deeds with
    | nil => rfl
    | cons first rest =>
      rw [List.zip_cons_cons, List.zip_cons_cons, playAll_cons, playAll_cons, ih]
      rfl

theorem info_redrawn [Scalar α] {s : Spec α} {scenes : List (Scene α)}
    (h : List.Forall₂ Scene.Redrawn s.scenes scenes) :
    ProjectInfo.ofSpec { s with scenes } = .ofSpec s := by
  have hstops : s.scenes.map Scene.stop = scenes.map Scene.stop := by
    refine forall₂_map_eq (h.imp ?_)
    rintro scene _ ⟨audio, elements, rfl⟩
    rfl
  simp only [ProjectInfo.ofSpec, Spec.duration, hstops]

/-- Scenes that follow others, with their actions numbered on. -/
def PlayedScene.Follow (k : Nat) (xs ys zs : List (PlayedScene α)) : Prop :=
  ∃ raised, List.Forall₂ (PlayedScene.Raised k) ys raised ∧ zs = xs ++ raised

/-- Scenes that follow others, the first of which only goes on with the last one before. -/
def PlayedScene.Continue (k : Nat) (xs ys zs : List (PlayedScene α)) : Prop :=
  ∃ before first second after actions raised,
    xs = before ++ [first] ∧ ys = second :: after ∧
    second = { first with actions := second.actions } ∧
    List.Forall₂ (Action.Raised k) second.actions actions ∧
    List.Forall₂ (PlayedScene.Raised k) after raised ∧
    zs = before ++ { first with actions := first.actions ++ actions } :: raised

/-- A scene parted in two: its first deeds end one list of scenes, and the others start the next. -/
theorem continue_playAll (before after : List (Scene α × List (Deed α))) (s : Scene α)
    (xs ys : List (Element α)) (first second : List (Deed α)) :
    PlayedScene.Continue
      ((playAll 1 (before ++ [({ s with elements := xs }, first)])).flatMap
        PlayedScene.actions).length
      (playAll 1 (before ++ [({ s with elements := xs }, first)]))
      (playAll 1 (({ s with audio := none, elements := ys }, second) :: after))
      (playAll 1 (before ++ ({ s with elements := xs ++ ys }, first ++ second) :: after)) := by
  rw [playAll_append 1 before [_], playAll_append 1 before (_ :: _)]
  generalize hn : ((playAll 1 before).flatMap PlayedScene.actions).length = n
  have hcount : ((playAll 1 before ++ playAll (1 + n) [({ s with elements := xs }, first)]).flatMap
      PlayedScene.actions).length = n + first.length := by
    simp only [List.flatMap_append, List.length_append, hn, playAll, List.flatMap_cons,
      List.flatMap_nil, List.append_nil, Scene.length_actions_play]
  have hplay : Scene.play (1 + n) { s with elements := xs ++ ys } (first ++ second) =
      { s.play (1 + n) first with
        actions := (s.play (1 + n) first).actions ++
          (s.play (1 + (n + first.length)) second).actions } := by
    rw [← Nat.add_assoc]
    exact s.play_append (1 + n) first second
  have hafter : 1 + n + (first ++ second).length = 1 + second.length + (n + first.length) := by
    rw [List.length_append]
    omega
  rw [hcount, playAll_cons (1 + n) { s with elements := xs ++ ys }, hplay, hafter]
  exact ⟨playAll 1 before, s.play (1 + n) first, s.play 1 second, playAll (1 + second.length) after,
    _, _, rfl, rfl, rfl, forall₂_raised_number (n + first.length) 1 second,
    forall₂_raised_playAll (n + first.length) (1 + second.length) after, rfl⟩

/-- The project of two parts. Its scenes are joined with the actions of the second part numbered on
from those of the first, and it is as long as the longer part. -/
structure Project.Joins
    (Joined : Nat → List (PlayedScene Float) → List (PlayedScene Float) →
      List (PlayedScene Float) → Prop)
    (a b p : Project Float) : Prop where
  scenes : Joined a.actions.length a.scenes b.scenes p.scenes
  duration : p.info.duration = a.info.duration ∨ p.info.duration = b.info.duration
  first_le : a.info.duration ≤ p.info.duration
  second_le : b.info.duration ≤ p.info.duration
  info : p.info = { a.info with duration := p.info.duration }
  assets : p.assets = a.assets

namespace Compiler

section Scenes
variable [Scalar α] {c : Compiler α} {sizes : Sizes α}

theorem failure?_compileWith_append (s : Spec α) (xs ys : List (Scene α)) :
    failure? (c.compileWith sizes { s with scenes := xs ++ ys }) =
      (failure? (c.compileWith sizes { s with scenes := xs })).or
        (failure? (c.compileWith sizes { s with scenes := ys })) := by
  simp only [failure?_compileWith, Spec.elements, List.flatMap_append, List.findSome?_append]

theorem element_of_scene (scene : Scene α) (audio : Option (Soundtrack α))
    (elements : List (Element α)) (e : Element α) :
    c.elementDeeds sizes { scene with audio, elements } e = c.elementDeeds sizes scene e := by
  cases e <;> rfl

theorem failure?_compileWith_singleton (s : Spec α) (scene : Scene α)
    (audio : Option (Soundtrack α)) (elements : List (Element α)) :
    failure? (c.compileWith sizes { s with scenes := [{ scene with audio, elements }] }) =
      elements.findSome? fun e => failure? (c.elementDeeds sizes scene e) := by
  rw [failure?_compileWith]
  simp only [Spec.elements, List.flatMap_cons, List.flatMap_nil, List.append_nil,
    List.findSome?_map, Function.comp_def, element_of_scene]

theorem failure?_compileWith_inside (s : Spec α) (before after : List (Scene α)) (scene : Scene α)
    (xs ys : List (Element α)) :
    failure? (c.compileWith sizes
        { s with scenes := before ++ { scene with elements := xs ++ ys } :: after }) =
      (failure? (c.compileWith sizes
        { s with scenes := before ++ [{ scene with elements := xs }] })).or
      (failure? (c.compileWith sizes
        { s with scenes := { scene with audio := none, elements := ys } :: after })) := by
  have hpart (audio : Option (Soundtrack α)) (elements : List (Element α)) :
      failure? (c.compileWith sizes { s with scenes := [{ scene with audio, elements }] }) =
        elements.findSome? fun e => failure? (c.elementDeeds sizes scene e) :=
    failure?_compileWith_singleton s scene audio elements
  rw [List.append_cons, failure?_compileWith_append, failure?_compileWith_append,
    failure?_compileWith_append, hpart scene.audio xs, hpart scene.audio (xs ++ ys),
    List.findSome?_append, ← List.singleton_append, failure?_compileWith_append s [_] after,
    hpart none ys]
  simp only [Option.or_assoc]

theorem scene_of_elements_iff {scene : Scene α} {audio : Option (Soundtrack α)}
    {elements : List (Element α)} {deeds : List (Deed α)} :
    c.sceneDeeds sizes { scene with audio, elements } = .ok deeds ↔
      ∃ drawn, List.Forall₂ (fun e ds => c.elementDeeds sizes scene e = .ok ds) elements drawn ∧
        deeds = (audio.map (c.soundtrack scene)).toList ++ drawn.flatten := by
  rw [scene_eq_ok_iff]
  simp only [element_of_scene]
  rfl

theorem scene_append {scene : Scene α} {xs ys : List (Element α)} {first second : List (Deed α)}
    (hfirst : c.sceneDeeds sizes { scene with elements := xs } = .ok first)
    (hsecond : c.sceneDeeds sizes { scene with audio := none, elements := ys } = .ok second) :
    c.sceneDeeds sizes { scene with elements := xs ++ ys } = .ok (first ++ second) := by
  obtain ⟨drawn, hdrawn, rfl⟩ := scene_of_elements_iff.mp hfirst
  obtain ⟨drawn', hdrawn', rfl⟩ := scene_of_elements_iff.mp hsecond
  refine scene_of_elements_iff.mpr ⟨drawn ++ drawn', List.rel_append hdrawn hdrawn', ?_⟩
  simp only [List.flatten_append, Option.map_none, Option.toList_none, List.nil_append,
    List.append_assoc]

end Scenes

theorem joins_of_compileWith {c : Compiler Float} {sizes : Sizes Float} {s : Spec Float}
    {xs ys : List (Scene Float)} {a b : Project Float}
    (ha : c.compileWith sizes { s with scenes := xs } = .ok a)
    (hb : c.compileWith sizes { s with scenes := ys } = .ok b) :
    ∃ p, c.compileWith sizes { s with scenes := xs ++ ys } = .ok p ∧
      Project.Joins PlayedScene.Follow a b p := by
  obtain ⟨first, hfirst, rfl⟩ := compileWith_eq_ok_iff.mp ha
  obtain ⟨second, hsecond, rfl⟩ := compileWith_eq_ok_iff.mp hb
  have hwhole := List.rel_append hfirst hsecond
  refine ⟨_, compileWith_eq_ok_iff.mpr ⟨first ++ second, hwhole, rfl⟩, ?_⟩
  have hlongest := foldl_greatest_append (xs.map Scene.stop) (ys.map Scene.stop)
  rw [← List.map_append] at hlongest
  refine ⟨⟨_, forall₂_raised_playAll _ 1 _, ?_⟩, hlongest.1, hlongest.2.1, hlongest.2.2, rfl, rfl⟩
  rw [List.zip_append hfirst.length_eq]
  exact playAll_append 1 _ _

theorem joins_inside_of_compileWith {c : Compiler Float} {sizes : Sizes Float} {s : Spec Float}
    {before after : List (Scene Float)} {scene : Scene Float} {xs ys : List (Element Float)}
    {a b : Project Float}
    (ha : c.compileWith sizes
      { s with scenes := before ++ [{ scene with elements := xs }] } = .ok a)
    (hb : c.compileWith sizes
      { s with scenes := { scene with audio := none, elements := ys } :: after } = .ok b) :
    ∃ p, c.compileWith sizes
        { s with scenes := before ++ { scene with elements := xs ++ ys } :: after } = .ok p ∧
      Project.Joins PlayedScene.Continue a b p := by
  obtain ⟨deeds, hdeeds, rfl⟩ := compileWith_eq_ok_iff.mp ha
  obtain ⟨deeds', hdeeds', rfl⟩ := compileWith_eq_ok_iff.mp hb
  obtain ⟨earlier, last, rfl, hearlier, hlast⟩ := exists_append_of_forall₂ hdeeds
  obtain ⟨first, _, hfirst, hnil, rfl⟩ := List.forall₂_cons_left_iff.mp hlast
  obtain rfl := List.forall₂_nil_left_iff.mp hnil
  obtain ⟨second, later, hsecond, hlater, rfl⟩ := List.forall₂_cons_left_iff.mp hdeeds'
  have hwhole := List.rel_append hearlier (.cons (scene_append hfirst hsecond) hlater)
  refine ⟨_, compileWith_eq_ok_iff.mpr ⟨_, hwhole, rfl⟩, ?_⟩
  have hlongest := foldl_greatest_append
    ((before ++ [{ scene with elements := xs }]).map Scene.stop)
    (({ scene with audio := none, elements := ys } :: after).map Scene.stop)
  -- the parted scene ends in both parts at the same time, which is there but once in the whole
  have honce : ((before ++ [{ scene with elements := xs }]).map Scene.stop ++
        ({ scene with audio := none, elements := ys } :: after).map Scene.stop).foldl
          Scalar.greatest 0.0 =
      ((before ++ { scene with elements := xs ++ ys } :: after).map Scene.stop).foldl
        Scalar.greatest 0.0 := by
    rw [List.map_append, List.map_append]
    exact (foldl_greatest_append_cons _ _ scene.stop).symm
  rw [honce] at hlongest
  refine ⟨?_, hlongest.1, hlongest.2.1, hlongest.2.2, rfl, rfl⟩
  rw [List.zip_append hearlier.length_eq, List.zip_append hearlier.length_eq]
  exact continue_playAll _ _ scene xs ys first second

/-- Compilation goes part by part, at every place where the list of scenes, or that of the elements
of a scene, may be parted. -/
theorem compileWith_composes (c : Compiler Float) (sizes : Sizes Float) (s : Spec Float) :
    (∀ xs ys : List (Scene Float),
      Composes (Project.Joins PlayedScene.Follow)
        (c.compileWith sizes { s with scenes := xs })
        (c.compileWith sizes { s with scenes := ys })
        (c.compileWith sizes { s with scenes := xs ++ ys })) ∧
    ∀ (before after : List (Scene Float)) (scene : Scene Float) (xs ys : List (Element Float)),
      Composes (Project.Joins PlayedScene.Continue)
        (c.compileWith sizes { s with scenes := before ++ [{ scene with elements := xs }] })
        (c.compileWith sizes
          { s with scenes := { scene with audio := none, elements := ys } :: after })
        (c.compileWith sizes
          { s with scenes := before ++ { scene with elements := xs ++ ys } :: after }) := by
  refine ⟨fun xs ys => ?_, fun before after scene xs ys => ?_⟩
  · exact composes_of_failure? (failure?_compileWith_append s xs ys)
      fun _ _ ha hb => joins_of_compileWith ha hb
  · exact composes_of_failure? (failure?_compileWith_inside s before after scene xs ys)
      fun _ _ ha hb => joins_inside_of_compileWith ha hb

end Compiler
end Storyboard
