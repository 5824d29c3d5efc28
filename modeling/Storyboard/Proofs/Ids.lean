import Storyboard.Compiler
import Storyboard.Proofs.Traversal

set_option autoImplicit false

/-!
The ids that a compilation draws. Every step of it, of whatever kind, leaves the actions numbered on
from where its scene began, and the count at the last of them.
-/

namespace Storyboard
variable {α β : Type}

/-- The id of the action says its kind and the number. -/
def Action.HasNumber (k : Nat) (a : Action α) : Prop :=
  match a.deed with
  | .svg _ => a.id = s!"svg_{k}"
  | .text _ => a.id = s!"text_{k}"
  | .shape _ => a.id = s!"shape_{k}"
  | .image _ => a.id = s!"image_{k}"
  | .audio _ => a.id = s!"audio_{k}"

def Deed.label : Deed α → String
  | .svg _ => "svg"
  | .text _ => "text"
  | .shape _ => "shape"
  | .image _ => "image"
  | .audio _ => "audio"

theorem Action.hasNumber_iff {k : Nat} {a : Action α} :
    a.HasNumber k ↔ a.id = s!"{a.deed.label}_{k}" := by
  obtain ⟨id, deed⟩ := a
  cases deed <;> rfl

/-- The actions have the numbers that come after `k`, one after the other. -/
def NumberedFrom (k : Nat) (actions : List (Action α)) : Prop :=
  ∀ (i : Nat) (hi : i < actions.length), actions[i].HasNumber (k + i + 1)

theorem NumberedFrom.nil (k : Nat) : NumberedFrom k ([] : List (Action α)) :=
  fun _ hi => absurd hi (Nat.not_lt_zero _)

theorem NumberedFrom.append {k : Nat} {xs ys : List (Action α)} (hxs : NumberedFrom k xs)
    (hys : NumberedFrom (k + xs.length) ys) : NumberedFrom k (xs ++ ys) := by
  intro i hi
  rw [List.getElem_append]
  split
  · next hlt => exact hxs i hlt
  · next hge =>
    have hnumber := hys (i - xs.length) (by rw [List.length_append] at hi; omega)
    rwa [Nat.add_assoc k, Nat.add_sub_cancel' (Nat.le_of_not_lt hge)] at hnumber

/-- The actions so far are numbered on from `k`, and the last of their numbers is kept. -/
structure Progress.Numbered (k : Nat) (p : Progress α) : Prop where
  last : p.last = k + p.actions.length
  actions : NumberedFrom k p.actions

namespace Compiling

def KeepsNumbers (x : Compiling α β) : Prop :=
  ∀ ⦃k p b q⦄, x.run p = .ok (b, q) → p.Numbered k → q.Numbered k

theorem run_emit (kind : String) (d : Deed α) (p : Progress α) :
    (emit kind d).run p =
      .ok ((), ⟨p.last + 1, p.actions ++ [⟨s!"{kind}_{p.last + 1}", d⟩]⟩) := rfl

/-- The one place where an id is drawn: the count goes up by one, and there is one action more. -/
theorem keepsNumbers_emit {kind : String} {d : Deed α} (h : d.label = kind) :
    KeepsNumbers (emit kind d) := by
  intro k p b q hrun hp
  rw [run_emit] at hrun
  cases hrun
  constructor
  · simp [hp.last, Nat.add_assoc]
  · refine hp.actions.append fun i hi => ?_
    obtain rfl : i = 0 := by simpa using hi
    rw [← hp.last, Action.hasNumber_iff, ← h]
    rfl

theorem keepsNumbers_pure (b : β) : KeepsNumbers (pure b : Compiling α β) := by
  intro k p _ q hrun hp
  cases hrun
  exact hp

theorem keepsNumbers_lift (x : Except (Fault α) β) : KeepsNumbers (liftM x : Compiling α β) := by
  intro k p b q hrun hp
  obtain ⟨_, -, hrun⟩ := bind_eq_ok_iff.mp hrun
  cases hrun
  exact hp

theorem KeepsNumbers.bind {γ : Type} {x : Compiling α β} {f : β → Compiling α γ}
    (hx : x.KeepsNumbers) (hf : ∀ b, (f b).KeepsNumbers) : KeepsNumbers (x >>= f) := by
  intro k p c q hrun hp
  rw [StateT.run_bind] at hrun
  obtain ⟨⟨b, r⟩, hb, hrun⟩ := bind_eq_ok_iff.mp hrun
  exact hf b hrun (hx hb hp)

theorem keepsNumbers_forM_list {xs : List β} {f : β → Compiling α Unit}
    (h : ∀ x ∈ xs, (f x).KeepsNumbers) : KeepsNumbers (xs.forM f) := by
  induction xs with
  | nil => exact keepsNumbers_pure ()
  | cons x xs ih =>
    exact (h x List.mem_cons_self).bind fun _ => ih fun y hy => h y (List.mem_cons_of_mem _ hy)

theorem keepsNumbers_forM_option {o : Option β} {f : β → Compiling α Unit}
    (h : ∀ x, (f x).KeepsNumbers) : KeepsNumbers (o.forM f) := by
  cases o with
  | none => exact keepsNumbers_pure ()
  | some x => exact h x

end Compiling

namespace Compiler
open Compiling

variable [Scalar α] (c : Compiler α) (sizes : Sizes α) (scene : Scene α)

theorem keepsNumbers_playSvg (e : Picture α) : (c.playSvg sizes scene e).KeepsNumbers :=
  (keepsNumbers_lift _).bind fun _ => keepsNumbers_emit rfl

theorem keepsNumbers_playText (e : TextLine α) : (c.playText scene e).KeepsNumbers :=
  (keepsNumbers_lift _).bind fun _ => keepsNumbers_emit rfl

theorem keepsNumbers_playShape (e : Figure α) : (c.playShape scene e).KeepsNumbers :=
  (keepsNumbers_lift _).bind fun _ => keepsNumbers_emit rfl

theorem keepsNumbers_playImage (e : Picture α) : (c.playImage sizes scene e).KeepsNumbers :=
  (keepsNumbers_lift _).bind fun _ => keepsNumbers_emit rfl

theorem keepsNumbers_playItem (g : Group α) (item : Item α) (f : Fitted α) :
    (c.playItem scene g item f).KeepsNumbers := by
  unfold playItem
  cases hkind : item.kind <;> exact keepsNumbers_emit (by rw [itemDeed, hkind]; rfl)

/-- Items that are left out of the group, or have no place in it, draw no id. -/
theorem keepsNumbers_playGroup (g : Group α) : (c.playGroup sizes scene g).KeepsNumbers :=
  (keepsNumbers_lift _).bind fun _ => keepsNumbers_forM_list fun m _ =>
    keepsNumbers_forM_option (c.keepsNumbers_playItem scene g m.1)

theorem keepsNumbers_playElement (e : Element α) : (c.playElement sizes scene e).KeepsNumbers := by
  cases e with
  | svg e => exact c.keepsNumbers_playSvg sizes scene e
  | text e => exact c.keepsNumbers_playText scene e
  | shape e => exact c.keepsNumbers_playShape scene e
  | image e => exact c.keepsNumbers_playImage sizes scene e
  | group e => exact c.keepsNumbers_playGroup sizes scene e

theorem keepsNumbers_playElements : (c.playElements sizes scene).KeepsNumbers := by
  have haudio : (scene.audio.forM fun t => emit "audio" (c.soundtrack scene t)).KeepsNumbers :=
    keepsNumbers_forM_option fun _ => keepsNumbers_emit rfl
  exact haudio.bind fun _ =>
    keepsNumbers_forM_list fun e _ => c.keepsNumbers_playElement sizes scene e

theorem run_playScene (k : Nat) :
    (c.playScene sizes scene).run k =
      ((c.playElements sizes scene).run ⟨k, []⟩).map fun q =>
        (⟨scene.id, scene.name, scene.start, scene.duration, scene.background, q.2.actions⟩,
          q.2.last) := by
  change Except.bind (Except.bind ((c.playElements sizes scene).run ⟨k, []⟩) _) _ = _
  cases (c.playElements sizes scene).run ⟨k, []⟩ <;> rfl

variable {c sizes scene}

/-- A scene goes on with the numbers where the one before leaves off. -/
theorem numberedFrom_of_playScene {k last : Nat} {played : PlayedScene α}
    (h : (c.playScene sizes scene).run k = .ok (played, last)) :
    last = k + played.actions.length ∧ NumberedFrom k played.actions := by
  rw [run_playScene] at h
  obtain ⟨⟨_, done⟩, hrun, heq⟩ := map_eq_ok_iff.mp h
  cases heq
  have hdone : done.Numbered k := c.keepsNumbers_playElements sizes scene hrun ⟨rfl, .nil k⟩
  exact ⟨hdone.last, hdone.actions⟩

theorem numberedFrom_of_playScenes {k last : Nat} {scenes : List (Scene α)}
    {played : List (PlayedScene α)}
    (h : (scenes.mapM (c.playScene sizes)).run k = .ok (played, last)) :
    NumberedFrom k (played.flatMap PlayedScene.actions) := by
  induction scenes generalizing k played with
  | nil =>
    cases h
    exact .nil _
  | cons scene scenes ih =>
    rw [List.mapM_cons, StateT.run_bind] at h
    obtain ⟨⟨first, middle⟩, hfirst, h⟩ := bind_eq_ok_iff.mp h
    rw [StateT.run_bind] at h
    obtain ⟨⟨rest, last⟩, hrest, h⟩ := bind_eq_ok_iff.mp h
    cases h
    obtain ⟨rfl, hactions⟩ := numberedFrom_of_playScene hfirst
    exact hactions.append (ih hrest)

end Compiler
end Storyboard
