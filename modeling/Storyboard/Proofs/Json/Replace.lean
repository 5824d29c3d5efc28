import Storyboard.Proofs.Json.Change
import Storyboard.Proofs.Json.Given

set_option autoImplicit false

namespace Storyboard
open Json
variable {α β σ : Type} {o : Origin} {x j : Json} {i : Nat}

namespace Codec
variable {c : Codec α} {xs : List Json} {as : List α}

end Codec

/-- The record has a field of the codec, which sets what it reads in place of what was there, and
no other field notices. -/
structure Record.Has (r : Record σ) (key : String) (c : Codec β) (set : β → σ → σ) : Prop where
  nodup : (r.fields.map Field.key).Nodup
  field : ∃ f ∈ r.fields, f.key = key ∧ f.Sets c.read set
  set_set : ∀ a b s, set a (set b s) = set a s
  spares : ∀ b, ∀ f ∈ r.fields, f.key ≠ key → f.Spares (set b)

namespace Record.Has
variable {r : Record σ} {key : String} {c : Codec β} {set : β → σ → σ} {s : σ}

theorem read_modifyAt (hr : r.Has key c set) (hx : r.Holds key j i x)
    (hs : r.codec.read o j = .ok s) (edit : Json → Json) :
    r.codec.read o (j.modifyAt i edit) = (c.read o (edit x)).map (set · s) := by
  obtain ⟨f, hf, rfl, hsets⟩ := hr.field
  obtain ⟨u, rest, hread, hrest⟩ := Record.exists_read_eq hr.nodup hf hx hs
  rw [← modifyAt_id i j, hread, hsets] at hs
  obtain ⟨v, hv, hs⟩ := bind_eq_ok_iff.mp hs
  obtain ⟨a, -, rfl⟩ := map_eq_ok_iff.mp hv
  rw [hread, hsets]
  cases c.read o (edit x) with
  | error why => rfl
  | ok b =>
    have hset := hrest (set b) (hr.spares b) _ s hs
    rwa [hr.set_set] at hset

end Record.Has
end Storyboard
