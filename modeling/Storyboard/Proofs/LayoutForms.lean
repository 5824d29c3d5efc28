import Storyboard.Proofs.Json.Replace
import Storyboard.Spec.Format

set_option autoImplicit false

namespace Storyboard
open Json
variable {o : Origin} {d : Nat} {j x : Json}

namespace Json

/-- The value names the word. Any string names one. -/
def IsWord {κ : Type} [Keyword κ] (j : Json) (w : κ) : Prop :=
  ∃ name, j = .str name ∧ Keyword.ofKey name = w

inductive IsNumber : Json → Float → Prop where
  | float (v : Float) : IsNumber (.float v) v
  | int (n : Int) : IsNumber (.int n) (Float.ofInt n)

/-- The value is a point: both numbers are given, once each. -/
def IsPoint (j : Json) (v : Point Float) : Prop :=
  ∃ x y, j.given? ["x", "y"] = some [[x], [y]] ∧ x.IsNumber v.x ∧ y.IsNumber v.y

def IsEndpoint (j : Json) (e : Endpoint) : Prop :=
  ∃ region anchor, j.given? ["region", "anchor"] = some [[region], [anchor]] ∧
    region.IsWord e.region ∧ anchor.IsWord e.anchor

def IsConnection (j : Json) (c : Connection) : Prop :=
  ∃ source target, j.given? ["from", "to"] = some [[source], [target]] ∧
    source.IsEndpoint c.source ∧ target.IsEndpoint c.target

/-- The value is a placing. All of it may be left out, and all but the position may be null. -/
def IsPlacing (j : Json) (l : Placing Float) : Prop :=
  ∃ position region size offset,
    j.given? ["position", "region", "size", "offset"] = some [position, region, size, offset] ∧
    (position = [] ∧ l.position = default ∨ ∃ x, position = [x] ∧ x.IsWord l.position) ∧
    Optionally IsWord region l.region ∧ Optionally IsWord size l.size ∧
    Optionally IsPoint offset l.offset

end Json

theorem Codec.read_keyword_eq_ok_iff {κ : Type} [Keyword κ] {w : κ} :
    Codec.keyword.read o j = .ok w ↔ j.IsWord w := by
  rw [Codec.keyword, map_eq_ok_iff]
  constructor
  · rintro ⟨name, hname, rfl⟩
    cases j with
    | str =>
      cases hname
      exact ⟨_, rfl, rfl⟩
    | _ => cases hname
  · rintro ⟨name, rfl, rfl⟩
    exact ⟨name, rfl, rfl⟩

theorem Codec.read_real_eq_ok_iff {v : Float} : Codec.real.read o j = .ok v ↔ j.IsNumber v := by
  constructor
  · intro h
    cases j with
    | float v =>
      cases h
      exact .float v
    | int n =>
      cases h
      exact .int n
    | _ => cases h
  · rintro (_ | _) <;> rfl

theorem Point.read_eq_ok_iff {v : Point Float} (hj : j.keepable d = true) :
    Point.record.codec.read o j = .ok v ↔ j.IsPoint v := by
  simp only [IsPoint, ← Codec.read_real_eq_ok_iff (o := o)]
  exact Record.read_pair_eq_ok_iff (r := Point.record) rfl (by decide) (fun _ _ _ => rfl)
    (fun _ _ _ => ⟨rfl, rfl⟩) (fun _ _ => rfl) hj

theorem Endpoint.read_eq_ok_iff {e : Endpoint} (hj : j.keepable d = true) :
    Endpoint.record.codec.read o j = .ok e ↔ j.IsEndpoint e := by
  simp only [IsEndpoint, ← Codec.read_keyword_eq_ok_iff (o := o)]
  exact Record.read_pair_eq_ok_iff (r := Endpoint.record) rfl (by decide) (fun _ _ _ => rfl)
    (fun _ _ _ => ⟨rfl, rfl⟩) (fun _ _ => rfl) hj

theorem Connection.read_eq_ok_iff {c : Connection} (hj : j.keepable d = true) :
    Connection.record.codec.read o j = .ok c ↔ j.IsConnection c := by
  refine Iff.trans (Record.read_pair_eq_ok_iff (r := Connection.record) rfl (by decide)
    (fun _ _ _ => rfl) (fun _ _ _ => ⟨rfl, rfl⟩) (fun _ _ => rfl) hj) ?_
  refine exists₂_congr fun x y => and_congr_right fun hgiven => ?_
  obtain ⟨n, hkept⟩ := keepable_of_given? hj hgiven
  simp only [List.forall_mem_cons] at hkept
  exact and_congr (Endpoint.read_eq_ok_iff hkept.1.1) (Endpoint.read_eq_ok_iff hkept.2.1.1)

theorem Json.optionally_word_iff {κ : Type} [Keyword κ] {vs : List Json} {w : Option κ} :
    Optionally (fun x w => Codec.keyword.read o x = .ok w) vs w ↔ Optionally IsWord vs w :=
  optionally_congr fun _ _ _ => Codec.read_keyword_eq_ok_iff

theorem Json.optionally_point_iff {keys : List String} {vss : List (List Json)}
    (hj : j.keepable d = true) (hgiven : j.given? keys = some vss) {vs : List Json} (hvs : vs ∈ vss)
    {v : Option (Point Float)} :
    Optionally (fun x v => Point.record.codec.read o x = .ok v) vs v ↔ Optionally IsPoint vs v := by
  obtain ⟨n, hkept⟩ := keepable_of_given? hj hgiven
  exact optionally_congr fun x hx _ => Point.read_eq_ok_iff (hkept vs hvs x hx)

theorem Placing.lawful : Placing.record.Lawful := ⟨by decide, by simp [Placing.record]⟩

theorem Placing.read_eq_ok_iff {l : Placing Float} (hj : j.keepable d = true) :
    Placing.record.codec.read o j = .ok l ↔ j.IsPlacing l := by
  have hword : ∀ {κ : Type} [Keyword κ] (w : κ), Codec.keyword.read o .null ≠ .ok w := by
    rintro κ _ w ⟨⟩
  have hpoint : ∀ v, Point.record.codec.read o .null ≠ .ok v := by
    rintro v ⟨⟩
  rw [Record.read_eq_ok_iff Placing.lawful hj]
  simp only [IsPlacing, ← Codec.read_keyword_eq_ok_iff (o := o), ← optionally_word_iff (o := o)]
  constructor
  · rintro ⟨vss, hgiven, h⟩
    obtain ⟨position, _, _, rfl, hposition, h⟩ := (Gathers.defaulted_iff rfl).mp h
    obtain ⟨region, _, _, rfl, hregion, h⟩ := (Gathers.optional_iff rfl hword).mp h
    obtain ⟨size, _, _, rfl, hsize, h⟩ := (Gathers.optional_iff rfl hword).mp h
    obtain ⟨offset, _, _, rfl, hoffset, h⟩ := (Gathers.optional_iff rfl hpoint).mp h
    obtain ⟨rfl, rfl⟩ := Gathers.nil_iff.mp h
    exact ⟨position, region, size, offset, hgiven, hposition, hregion, hsize,
      (optionally_point_iff hj hgiven (by simp)).mp hoffset⟩
  · rintro ⟨position, region, size, offset, hgiven, hposition, hregion, hsize, hoffset⟩
    have hoffset := (optionally_point_iff (o := o) hj hgiven (by simp)).mpr hoffset
    refine ⟨_, hgiven, ?_⟩
    refine (Gathers.defaulted_iff rfl).mpr ⟨position, _, _, rfl, hposition, ?_⟩
    refine (Gathers.optional_iff rfl hword).mpr ⟨region, _, _, rfl, hregion, ?_⟩
    refine (Gathers.optional_iff rfl hword).mpr ⟨size, _, _, rfl, hsize, ?_⟩
    refine (Gathers.optional_iff rfl hpoint).mpr ⟨offset, _, _, rfl, hoffset, ?_⟩
    exact Gathers.nil_iff.mpr ⟨rfl, rfl⟩

section Documents
variable {i k m : Nat} {p : List Nat} {root : Json}

def Spec.circle (layout : Json) : Json := .record [
  ("meta", .record [("title", .str ""), ("version", .str ""),
    ("resolution", .record [("width", .int 100), ("height", .int 100)]), ("fps", .int 30)]),
  ("scenes", .arr [.record [("id", .str ""), ("name", .str ""), ("startTime", .int 0),
    ("duration", .int 1), ("elements", .arr [.record [("type", .str "shape"),
      ("shape", .str "circle"), ("layout", layout), ("duration", .int 1)]])]])]

end Documents
end Storyboard
