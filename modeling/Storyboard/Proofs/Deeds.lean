import Storyboard.Proofs.Ids

set_option autoImplicit false

/-!
A compilation with its ids apart. Each step records certain deeds, whatever was recorded before it;
the ids then only number them.
-/

namespace Storyboard
variable {α β : Type}

def Deed.number (k : Nat) (d : Deed α) : Action α := ⟨s!"{d.label}_{k}", d⟩

def Scene.play (k : Nat) (s : Scene α) (deeds : List (Deed α)) : PlayedScene α :=
  { id := s.id
    name := s.name
    start := s.start
    duration := s.duration
    background := s.background
    actions := (deeds.zipIdx k).map fun (d, i) => d.number i }

/-- Scenes by their deeds, numbered in one sequence. -/
def playAll : Nat → List (Scene α × List (Deed α)) → List (PlayedScene α)
  | _, [] => []
  | k, (s, deeds) :: rest => s.play k deeds :: playAll (k + deeds.length) rest

theorem NumberedFrom.eq_map {k : Nat} {actions : List (Action α)} (h : NumberedFrom k actions) :
    actions = ((actions.map Action.deed).zipIdx (k + 1)).map fun (d, i) => d.number i := by
  apply List.ext_getElem
  · simp
  · intro i hi _
    have hid := Action.hasNumber_iff.mp (h i hi)
    simp only [List.getElem_map, List.getElem_zipIdx, Deed.number, Nat.add_right_comm k 1 i, ← hid]

def Progress.deeds (p : Progress α) : List (Deed α) := p.actions.map Action.deed

namespace Compiling

/-- What the step records comes behind what there is, and shows nothing of it. -/
def Makes (x : Compiling α Unit) (made : Except (Fault α) (List (Deed α))) : Prop :=
  ∀ p, (x.run p).map (fun q => q.2.deeds) = made.map (p.deeds ++ ·)

theorem makes_emit (kind : String) (d : Deed α) : Makes (emit kind d) (.ok [d]) := by
  intro p
  rw [run_emit]
  simp [Except.map, Progress.deeds]

theorem makes_pure : Makes (pure () : Compiling α Unit) (.ok []) := by
  intro p
  change Except.ok p.deeds = .ok (p.deeds ++ [])
  rw [List.append_nil]

theorem makes_lift {x : Except (Fault α) β} {f : β → Compiling α Unit} {g : β → List (Deed α)}
    (h : ∀ b, Makes (f b) (.ok (g b))) : Makes (liftM x >>= f) (x.map g) := by
  intro p
  cases x with
  | error e => rfl
  | ok b => exact h b p

/-- A step fails where it makes nothing, and else has what it makes behind what there was. -/
theorem Makes.run_cases {x : Compiling α Unit} {made : Except (Fault α) (List (Deed α))}
    (h : x.Makes made) (p : Progress α) :
    (∃ e, x.run p = .error e ∧ made = .error e) ∨
      ∃ q deeds, x.run p = .ok ((), q) ∧ made = .ok deeds ∧ q.deeds = p.deeds ++ deeds := by
  have hp := h p
  cases hrun : x.run p with
  | error e =>
    rw [hrun] at hp
    cases made with
    | error e' => exact .inl ⟨e, rfl, hp.symm⟩
    | ok deeds => cases hp
  | ok q =>
    rw [hrun] at hp
    cases made with
    | error e => cases hp
    | ok deeds => exact .inr ⟨q.2, deeds, rfl, rfl, Except.ok.inj hp⟩

theorem Makes.seq {x y : Compiling α Unit} {a b : Except (Fault α) (List (Deed α))}
    (hx : x.Makes a) (hy : y.Makes b) :
    Makes (x >>= fun _ => y) (a >>= fun first => b.map (first ++ ·)) := by
  intro p
  rw [StateT.run_bind]
  obtain ⟨e, hrun, rfl⟩ | ⟨q, first, hrun, rfl, hq⟩ := hx.run_cases p
  · rw [hrun]
    rfl
  · rw [hrun]
    refine (hy q).trans ?_
    rw [hq]
    cases b with
    | error => rfl
    | ok second => exact congrArg Except.ok (List.append_assoc _ _ _)

theorem makes_forM {xs : List β} {f : β → Compiling α Unit}
    {g : β → Except (Fault α) (List (Deed α))} (h : ∀ x, (f x).Makes (g x)) :
    Makes (xs.forM f) ((xs.mapM g).map List.flatten) := by
  induction xs with
  | nil => exact makes_pure
  | cons x xs ih =>
    have hmade : ((x :: xs).mapM g).map List.flatten =
        g x >>= fun first => ((xs.mapM g).map List.flatten).map (first ++ ·) := by
      rw [List.mapM_cons]
      cases g x with
      | error => rfl
      | ok first => cases xs.mapM g <;> rfl
    rw [hmade]
    exact (h x).seq ih

theorem makes_forM_of_option {xs : List β} {f : β → Compiling α Unit} {g : β → Option (Deed α)}
    (h : ∀ x, (f x).Makes (.ok (g x).toList)) : Makes (xs.forM f) (.ok (xs.filterMap g)) := by
  induction xs with
  | nil => exact makes_pure
  | cons x xs ih =>
    have hmade : (x :: xs).filterMap g = (g x).toList ++ xs.filterMap g := by
      cases hx : g x <;> simp [hx]
    rw [hmade]
    exact (h x).seq ih

theorem makes_option {o : Option β} {f : β → Compiling α Unit} {g : β → Deed α}
    (h : ∀ x, (f x).Makes (.ok [g x])) : Makes (o.forM f) (.ok (o.map g).toList) := by
  cases o with
  | none => exact makes_pure
  | some x => exact h x

end Compiling

namespace Compiler
open Compiling

variable [Scalar α] (c : Compiler α) (sizes : Sizes α) (scene : Scene α)

/-- The deeds of the items that count and have a place, in the order of the items. -/
def groupDeeds (e : Group α) : Except (Fault α) (List (Deed α)) :=
  (c.places sizes e).map fun places => (c.members sizes e.items).filterMap fun (item, _, i) =>
    (places.get? (itemId i)).map (c.itemDeed scene e item)

def elementDeeds : Element α → Except (Fault α) (List (Deed α))
  | .svg e => (c.svg sizes scene e).map ([.svg ·])
  | .text e => (c.text scene e).map ([.text ·])
  | .shape e => (c.shape scene e).map ([.shape ·])
  | .image e => (c.image sizes scene e).map ([.image ·])
  | .group e => c.groupDeeds sizes scene e

def sceneDeeds : Except (Fault α) (List (Deed α)) := do
  let drawn ← scene.elements.mapM (c.elementDeeds sizes scene)
  return (scene.audio.map (c.soundtrack scene)).toList ++ drawn.flatten

theorem makes_playItem (g : Group α) (item : Item α) (f : Fitted α) :
    (c.playItem scene g item f).Makes (.ok [c.itemDeed scene g item f]) := by
  unfold playItem
  cases item.kind <;> exact makes_emit _ _

theorem makes_playGroup (g : Group α) :
    (c.playGroup sizes scene g).Makes (c.groupDeeds sizes scene g) :=
  makes_lift fun _ => makes_forM_of_option fun m => makes_option (c.makes_playItem scene g m.1)

theorem makes_playElement (e : Element α) :
    (c.playElement sizes scene e).Makes (c.elementDeeds sizes scene e) := by
  cases e with
  | svg e => exact makes_lift fun _ => makes_emit _ _
  | text e => exact makes_lift fun _ => makes_emit _ _
  | shape e => exact makes_lift fun _ => makes_emit _ _
  | image e => exact makes_lift fun _ => makes_emit _ _
  | group e => exact c.makes_playGroup sizes scene e

theorem makes_playElements :
    (c.playElements sizes scene).Makes (c.sceneDeeds sizes scene) := by
  have haudio : (scene.audio.forM fun t => emit "audio" (c.soundtrack scene t)).Makes
      (.ok (scene.audio.map (c.soundtrack scene)).toList) := makes_option fun _ => makes_emit _ _
  have hmade : c.sceneDeeds sizes scene =
      Except.ok (scene.audio.map (c.soundtrack scene)).toList >>= fun first =>
        ((scene.elements.mapM (c.elementDeeds sizes scene)).map List.flatten).map (first ++ ·) := by
    unfold sceneDeeds
    cases scene.elements.mapM (c.elementDeeds sizes scene) <;> rfl
  rw [hmade]
  exact haudio.seq (makes_forM (c.makes_playElement sizes scene))

/-- What an element comes to, played by itself. -/
def element (e : Element α) : Except (Fault α) (List (Deed α)) :=
  ((c.playElement sizes scene e).run ⟨0, []⟩).map fun q => q.2.deeds

theorem element_eq (e : Element α) : c.element sizes scene e = c.elementDeeds sizes scene e := by
  refine (c.makes_playElement sizes scene e ⟨0, []⟩).trans ?_
  cases c.elementDeeds sizes scene e <;> rfl

/-- A scene is played as its deeds, with the numbers behind the last one drawn. -/
theorem run_playScene_eq_map (k : Nat) :
    (c.playScene sizes scene).run k =
      (c.sceneDeeds sizes scene).map fun deeds => (scene.play (k + 1) deeds, k + deeds.length) := by
  rw [run_playScene]
  obtain ⟨e, hrun, hmade⟩ | ⟨done, deeds, hrun, hmade, hdeeds⟩ :=
    (c.makes_playElements sizes scene).run_cases ⟨k, []⟩
  · rw [hrun, hmade]
    rfl
  · have hdone : done.Numbered k := c.keepsNumbers_playElements sizes scene hrun ⟨rfl, .nil k⟩
    obtain rfl : done.deeds = deeds := hdeeds
    rw [hrun, hmade]
    simp only [Except.map, Scene.play, Progress.deeds, ← hdone.actions.eq_map, hdone.last,
      List.length_map]

theorem map_fst_run_playScenes (scenes : List (Scene α)) (k : Nat) :
    ((scenes.mapM (c.playScene sizes)).run k).map Prod.fst =
      (scenes.mapM (c.sceneDeeds sizes)).map fun deeds => playAll (k + 1) (scenes.zip deeds) := by
  induction scenes generalizing k with
  | nil => rfl
  | cons scene scenes ih =>
    rw [map_fst_run_mapM_cons, run_playScene_eq_map, List.mapM_cons]
    cases c.sceneDeeds sizes scene with
    | error => rfl
    | ok deeds =>
      change (((scenes.mapM (c.playScene sizes)).run (k + deeds.length)).map Prod.fst).map
        (scene.play (k + 1) deeds :: ·) = _
      rw [ih, Nat.add_right_comm]
      cases scenes.mapM (c.sceneDeeds sizes) <;> rfl

/-- A spec is compiled as the deeds of its scenes, numbered from one on. -/
theorem compileWith_eq (s : Spec α) :
    c.compileWith sizes s = (s.scenes.mapM (c.sceneDeeds sizes)).map fun deeds =>
      ⟨.ofSpec s, .ofSources s.assets, playAll 1 (s.scenes.zip deeds)⟩ := by
  have hplayed : c.compileWith sizes s =
      (((s.scenes.mapM (c.playScene sizes)).run 0).map Prod.fst).map
        (⟨.ofSpec s, .ofSources s.assets, ·⟩) := by
    unfold compileWith
    cases (s.scenes.mapM (c.playScene sizes)).run 0 <;> rfl
  rw [hplayed, map_fst_run_playScenes]
  cases s.scenes.mapM (c.sceneDeeds sizes) <;> rfl

end Compiler
end Storyboard
