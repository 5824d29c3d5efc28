import Mathlib.Data.List.Forall2

set_option autoImplicit false

namespace Storyboard

theorem mapM_eq_ok_iff {ε β γ : Type} {f : β → Except ε γ} {xs : List β} {ys : List γ} :
    xs.mapM f = .ok ys ↔ List.Forall₂ (fun x y => f x = .ok y) xs ys := by
  induction xs generalizing ys with
  | nil => cases ys <;> simp [pure, Except.pure]
  | cons x xs ih =>
    rw [List.mapM_cons]
    cases hx : f x with
    | error e => cases ys <;> simp [bind, Except.bind, hx]
    | ok y =>
      cases hxs : xs.mapM f with
      | error e => cases ys <;> simp [bind, Except.bind, hx, ← ih, hxs]
      | ok rest =>
        cases ys <;> simp [bind, Except.bind, pure, Except.pure, hx, ← ih, hxs]

theorem map_fst_run_mapM_cons {σ ε β γ : Type} (f : β → StateT σ (Except ε) γ) (x : β) (xs : List β)
    (s : σ) :
    (((x :: xs).mapM f).run s).map Prod.fst =
      (f x).run s >>= fun q => (((xs.mapM f).run q.2).map Prod.fst).map (q.1 :: ·) := by
  rw [List.mapM_cons, StateT.run_bind]
  cases (f x).run s with
  | error => rfl
  | ok q =>
    change Except.map Prod.fst (Except.bind ((xs.mapM f).run q.2) _) = Except.map _ _
    cases (xs.mapM f).run q.2 <;> rfl

theorem mapM_congr {ε β γ : Type} {f g : β → Except ε γ} {xs : List β}
    (h : ∀ x ∈ xs, f x = g x) : xs.mapM f = xs.mapM g := by
  induction xs with
  | nil => rfl
  | cons x xs ih =>
    rw [List.forall_mem_cons] at h
    rw [List.mapM_cons, List.mapM_cons, h.1, ih h.2]

theorem bind_eq_ok_iff {ε β γ : Type} {x : Except ε β} {f : β → Except ε γ} {z : γ} :
    (x >>= f) = .ok z ↔ ∃ y, x = .ok y ∧ f y = .ok z := by
  cases x <;> simp [bind, Except.bind]

theorem guard_eq_ok_iff {ε β : Type} {refused : Bool} {e : ε} {x : Except ε β} {y : β} :
    (if refused = true then (throw e : Except ε Unit) >>= fun _ => x else x) = .ok y ↔
      refused = false ∧ x = .ok y := by
  cases refused <;> simp [bind, Except.bind, throw, throwThe, MonadExceptOf.throw]

theorem map_eq_ok_iff {ε β γ : Type} {x : Except ε β} {f : β → γ} {z : γ} :
    x.map f = .ok z ↔ ∃ y, x = .ok y ∧ f y = z := by
  cases x <;> simp [Except.map]

theorem mapError_eq_ok_iff {ε ε' β : Type} {x : Except ε β} {f : ε → ε'} {y : β} :
    x.mapError f = .ok y ↔ x = .ok y := by
  cases x <;> simp [Except.mapError]

theorem toOption_eq_some_iff {ε β : Type} {x : Except ε β} {y : β} :
    x.toOption = some y ↔ x = .ok y := by
  cases x <;> simp [Except.toOption]

theorem isSome_toOption_iff {ε β : Type} {x : Except ε β} :
    x.toOption.isSome = true ↔ ∃ y, x = .ok y := by
  cases x <;> simp [Except.toOption]

theorem any_toOption_iff {ε β : Type} {x : Except ε β} {q : β → Bool} :
    x.toOption.any q = true ↔ ∃ y, x = .ok y ∧ q y = true := by
  cases x <;> simp [Except.toOption]

theorem forall₂_map_eq {β γ δ : Type} {f : β → δ} {g : γ → δ} {xs : List β} {ys : List γ}
    (h : List.Forall₂ (fun x y => f x = g y) xs ys) : xs.map f = ys.map g := by
  induction h with
  | nil => rfl
  | cons hxy _ ih => simp only [List.map_cons, hxy, ih]

theorem mapM_eq_of_forall₂ {ε β γ δ : Type} {f : β → Except ε δ} {g : γ → Except ε δ} {xs : List β}
    {ys : List γ} (h : List.Forall₂ (fun x y => f x = g y) xs ys) : xs.mapM f = ys.mapM g := by
  induction h with
  | nil => rfl
  | cons hxy _ ih => rw [List.mapM_cons, List.mapM_cons, hxy, ih]

theorem filterMap_eq_of_forall₂ {β γ δ : Type} {f : β → Option δ} {g : γ → Option δ} {xs : List β}
    {ys : List γ} (h : List.Forall₂ (fun x y => f x = g y) xs ys) :
    xs.filterMap f = ys.filterMap g := by
  induction h with
  | nil => rfl
  | cons hxy _ ih => simp only [List.filterMap_cons, hxy, ih]

theorem forall₂_zipIdx {β γ : Type} {R : β → γ → Prop} {xs : List β} {ys : List γ} (k : Nat)
    (h : List.Forall₂ R xs ys) :
    List.Forall₂ (fun x y => R x.1 y.1 ∧ y.2 = x.2) (xs.zipIdx k) (ys.zipIdx k) := by
  induction h generalizing k with
  | nil => exact .nil
  | cons hxy _ ih => exact .cons ⟨hxy, rfl⟩ (ih (k + 1))

theorem forall_mem_iff_of_forall₂ {β γ : Type} {P : β → Prop} {Q : γ → Prop} {xs : List β}
    {ys : List γ} (h : List.Forall₂ (fun x y => P x ↔ Q y) xs ys) :
    (∀ x ∈ xs, P x) ↔ ∀ y ∈ ys, Q y := by
  induction h with
  | nil => simp
  | cons hxy _ ih => rw [List.forall_mem_cons, List.forall_mem_cons, hxy, ih]

theorem forall_mem_of_forall₂ {β γ : Type} {R : β → γ → Prop} {Q : γ → Prop} {xs : List β}
    {ys : List γ} (h : List.Forall₂ R xs ys) (hq : ∀ x ∈ xs, ∀ y, R x y → Q y) : ∀ y ∈ ys, Q y := by
  induction h with
  | nil => simp
  | cons hxy _ ih =>
    rw [List.forall_mem_cons] at hq ⊢
    exact ⟨hq.1 _ hxy, ih hq.2⟩

theorem exists_of_forall₂ {β γ : Type} {R : β → γ → Prop} {xs : List β} {ys : List γ}
    (h : List.Forall₂ R xs ys) : ∀ x ∈ xs, ∃ y, R x y := by
  induction h with
  | nil => simp
  | cons hxy _ ih =>
    rw [List.forall_mem_cons]
    exact ⟨⟨_, hxy⟩, ih⟩

theorem forall₂_iff_of_forall₂ {β γ δ : Type} {R : β → δ → Prop} {S : γ → δ → Prop} {xs : List β}
    {ys : List γ} {zs : List δ} (h : List.Forall₂ (fun x y => ∀ z, R x z ↔ S y z) xs ys) :
    List.Forall₂ R xs zs ↔ List.Forall₂ S ys zs := by
  induction h generalizing zs with
  | nil => cases zs <;> simp
  | cons hxy _ ih => cases zs <;> simp [hxy, ih]

theorem forall₂_filter_filterMap {β γ : Type} (f : β → Option γ) (xs : List β) :
    List.Forall₂ (fun x y => f x = some y) (xs.filter fun x => (f x).isSome) (xs.filterMap f) := by
  induction xs with
  | nil => exact .nil
  | cons x xs ih =>
    cases hx : f x with
    | none => simpa [hx] using ih
    | some y => simpa [hx] using ih

theorem exists_append_of_forall₂ {β γ : Type} {R : β → γ → Prop} {xs ys : List β} {zs : List γ}
    (h : List.Forall₂ R (xs ++ ys) zs) :
    ∃ first second, zs = first ++ second ∧ List.Forall₂ R xs first ∧ List.Forall₂ R ys second := by
  induction xs generalizing zs with
  | nil => exact ⟨[], zs, rfl, .nil, h⟩
  | cons x xs ih =>
    obtain ⟨z, rest, hz, hrest, rfl⟩ := List.forall₂_cons_left_iff.mp h
    obtain ⟨first, second, rfl, hfirst, hsecond⟩ := ih hrest
    exact ⟨z :: first, second, rfl, .cons hz hfirst, hsecond⟩

theorem filterMap_eq_zipWith {β γ δ : Type} {look : β → Option γ} {f : β → γ → δ} {xs : List β}
    {ys : List γ} (h : List.Forall₂ (fun x y => look x = some y) xs ys) :
    xs.filterMap (fun x => (look x).map (f x)) = xs.zipWith f ys := by
  induction h with
  | nil => rfl
  | cons hxy _ ih => simp [hxy, ih]

def failure? {ε β : Type} : Except ε β → Option ε
  | .error e => some e
  | .ok _ => none

section Failure
variable {ε β γ : Type}

@[simp] theorem failure?_ok (b : β) : failure? (.ok b : Except ε β) = none := rfl

@[simp] theorem failure?_error (e : ε) : failure? (.error e : Except ε β) = some e := rfl

theorem failure?_eq_some_iff {x : Except ε β} {e : ε} : failure? x = some e ↔ x = .error e := by
  cases x <;> simp

theorem failure?_eq_none_iff {x : Except ε β} : failure? x = none ↔ ∃ b, x = .ok b := by
  cases x <;> simp

@[simp] theorem failure?_map (f : β → γ) (x : Except ε β) : failure? (x.map f) = failure? x := by
  cases x <;> rfl

theorem failure?_bind_of_ok {x : Except ε β} {f : β → Except ε γ}
    (h : ∀ b, failure? (f b) = none) : failure? (x >>= f) = failure? x := by
  cases x with
  | error e => rfl
  | ok b => exact h b

/-- A traversal stops at the first step that fails. -/
theorem failure?_mapM (f : β → Except ε γ) (xs : List β) :
    failure? (xs.mapM f) = xs.findSome? fun x => failure? (f x) := by
  induction xs with
  | nil => rfl
  | cons x xs ih =>
    rw [List.mapM_cons, List.findSome?_cons, ← ih]
    cases f x with
    | error e => rfl
    | ok y =>
      change failure? (xs.mapM f >>= fun ys => .ok (y :: ys)) = failure? (xs.mapM f)
      exact failure?_bind_of_ok fun _ => rfl

theorem ite_none_eq_some_iff {b : Bool} {e e' : ε} :
    (if b then none else some e) = some e' ↔ b = false ∧ e = e' := by
  cases b <;> simp

theorem findSome?_ite_none {p : β → Bool} {f : β → ε} (xs : List β) :
    (xs.findSome? fun x => if p x then none else some (f x)) = (xs.find? fun x => !p x).map f := by
  induction xs with
  | nil => rfl
  | cons x xs ih =>
    rw [List.findSome?_cons, List.find?_cons, ih]
    cases p x <;> rfl

theorem findSome?_eq_of_forall₂ {f : β → Option ε} {g : γ → Option ε} {xs : List β} {ys : List γ}
    (h : List.Forall₂ (fun x y => f x = g y) xs ys) : xs.findSome? f = ys.findSome? g := by
  induction h with
  | nil => rfl
  | cons hxy _ ih => rw [List.findSome?_cons, List.findSome?_cons, hxy, ih]

theorem findSome?_flatMap {f : β → List γ} {g : γ → Option ε} (xs : List β) :
    (xs.flatMap f).findSome? g = xs.findSome? fun x => (f x).findSome? g := by
  induction xs with
  | nil => rfl
  | cons x xs ih =>
    rw [List.flatMap_cons, List.findSome?_append, ih, List.findSome?_cons]
    cases (f x).findSome? g <;> rfl

end Failure

end Storyboard
