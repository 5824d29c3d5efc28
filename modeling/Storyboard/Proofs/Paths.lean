import Storyboard.Proofs.Compiler
import Storyboard.Proofs.Json.Given
import Storyboard.Spec.Format

set_option autoImplicit false

namespace Storyboard

namespace Json

/-- One step into a value: to what a name is given, if that is one value, or to the item of an
index. -/
def step? : Step → Json → Option Json
  | .field name, .obj es =>
    match under name es with
    | [x] => some x
    | _ => none
  | .index i, .arr xs => xs[i]?
  | _, _ => none

def follow? : List Step → Json → Option Json
  | [], j => some j
  | step :: path, j => (step? step j).bind (follow? path)

theorem step?_index {β : Type} (c : Codec β) (xs : List β) (i : Nat) :
    step? (.index i) (c.list.write xs) = xs[i]?.map c.write := by
  simp [step?, Codec.list]

theorem step?_record_cons_of_ne {key name : String} (h : name ≠ key) (x : Json)
    (es : List (String × Json)) :
    step? (.field name) (record ((key, x) :: es)) = step? (.field name) (record es) := by
  simp only [record, List.map_cons, step?, under_cons_of_ne h]

end Json

section Records
variable {σ : Type}
open Json

theorem Record.step?_entries {r : Record σ} (hkeys : (r.fields.map Field.key).Nodup) {i : Nat}
    {f : Field σ} (hf : r.fields[i]? = some f) (s : σ) :
    Json.step? (.field f.key) (Json.record (r.entries s)) = f.write s := by
  have hunder := under_filterMap_write hkeys (List.mem_of_getElem? hf) s
  change (match under f.key (named (r.entries s)) with
    | [x] => some x
    | _ => none) = f.write s
  rw [Record.entries, hunder]
  cases f.write s <;> rfl

theorem Record.step?_entries_of_notMem {r : Record σ} {key : String}
    (h : key ∉ r.fields.map Field.key) (s : σ) :
    Json.step? (.field key) (Json.record (r.entries s)) = none := by
  have hkey : key ∉ (r.entries s).map Prod.fst := by
    intro hmem
    obtain ⟨e, he, rfl⟩ := List.mem_map.mp hmem
    exact h (r.mem_keys_of_mem_entries he)
  change (match under key (named (r.entries s)) with
    | [x] => some x
    | _ => none) = none
  rw [under_of_notMem hkey]

end Records

inductive Node where
  | resolution
  | rate
  | svg (i : Nat)
  | scene (i : Nat)
  | soundtrack (i : Nat)
  | volume (i : Nat)
  | element (i j : Nat)
  | item (i j k : Nat)
  deriving DecidableEq, Repr

namespace Node

def path : Node → List Step
  | .resolution => [.field "meta", .field "resolution"]
  | .rate => [.field "meta", .field "fps"]
  | .svg i => [.field "assets", .field "svgs", .index i]
  | .scene i => [.field "scenes", .index i]
  | .soundtrack i => [.field "scenes", .index i, .field "audio"]
  | .volume i => [.field "scenes", .index i, .field "audio", .field "volume"]
  | .element i j => [.field "scenes", .index i, .field "elements", .index j]
  | .item i j k =>
    [.field "scenes", .index i, .field "elements", .index j, .field "items", .index k]

/-- What a spec has at the node, as it is written. -/
def part? (s : Spec Float) : Node → Option Json
  | .resolution => some (Canvas.record.codec.write s.heading.resolution)
  | .rate => some (Codec.natural32.write s.heading.fps)
  | .svg i => s.assets.svgs[i]?.map SvgSource.record.codec.write
  | .scene i => s.scenes[i]?.map Scene.record.codec.write
  | .soundtrack i => do
    let scene ← s.scenes[i]?
    scene.audio.map Soundtrack.record.codec.write
  | .volume i => do
    let scene ← s.scenes[i]?
    let audio ← scene.audio
    audio.volume.map Codec.real.write
  | .element i j => do
    let scene ← s.scenes[i]?
    scene.elements[j]?.map Element.tagged.codec.write
  | .item i j k => do
    let scene ← s.scenes[i]?
    match ← scene.elements[j]? with
    | .group g => g.items[k]?.map Item.record.codec.write
    | _ => none

end Node

section Steps
open Json

theorem Spec.step?_meta (s : Spec Float) :
    step? (.field "meta") (Spec.record.codec.write s) =
      some (Heading.record.codec.write s.heading) :=
  Spec.record.step?_entries (i := 0) (by decide) rfl s

theorem Spec.step?_assets (s : Spec Float) :
    step? (.field "assets") (Spec.record.codec.write s) =
      some (Sources.record.codec.write s.assets) :=
  Spec.record.step?_entries (i := 1) (by decide) rfl s

theorem Spec.step?_scenes (s : Spec Float) :
    step? (.field "scenes") (Spec.record.codec.write s) =
      some (Scene.record.codec.list.write s.scenes) :=
  Spec.record.step?_entries (i := 2) (by decide) rfl s

theorem Heading.step?_resolution (h : Heading) :
    step? (.field "resolution") (Heading.record.codec.write h) =
      some (Canvas.record.codec.write h.resolution) :=
  Heading.record.step?_entries (i := 2) (by decide) rfl h

theorem Heading.step?_fps (h : Heading) :
    step? (.field "fps") (Heading.record.codec.write h) = some (Codec.natural32.write h.fps) :=
  Heading.record.step?_entries (i := 3) (by decide) rfl h

theorem Sources.step?_svgs (a : Sources Float) :
    step? (.field "svgs") (Sources.record.codec.write a) =
      some (SvgSource.record.codec.list.write a.svgs) :=
  Sources.record.step?_entries (i := 0) (by decide) rfl a

theorem Scene.step?_audio (c : Scene Float) :
    step? (.field "audio") (Scene.record.codec.write c) =
      c.audio.map Soundtrack.record.codec.write :=
  Scene.record.step?_entries (i := 5) (by decide) rfl c

theorem Scene.step?_elements (c : Scene Float) :
    step? (.field "elements") (Scene.record.codec.write c) =
      some (Element.tagged.codec.list.write c.elements) :=
  Scene.record.step?_entries (i := 6) (by decide) rfl c

theorem Soundtrack.step?_volume (t : Soundtrack Float) :
    step? (.field "volume") (Soundtrack.record.codec.write t) = t.volume.map Codec.real.write :=
  Soundtrack.record.step?_entries (i := 1) (by decide) rfl t

theorem Element.step?_items (e : Element Float) :
    step? (.field "items") (Element.tagged.codec.write e) =
      match e with
      | .group g => some (Item.record.codec.list.write g.items)
      | _ => none := by
  have htag : "items" ≠ "type" := by decide
  have hpicture : "items" ∉ (Picture.record "").fields.map Field.key := by decide
  cases e with
  | svg e =>
    exact (step?_record_cons_of_ne htag _ _).trans (Record.step?_entries_of_notMem hpicture e)
  | text e =>
    exact (step?_record_cons_of_ne htag _ _).trans
      (TextLine.record.step?_entries_of_notMem (by decide) e)
  | shape e =>
    exact (step?_record_cons_of_ne htag _ _).trans
      (Figure.record.step?_entries_of_notMem (by decide) e)
  | image e =>
    exact (step?_record_cons_of_ne htag _ _).trans (Record.step?_entries_of_notMem hpicture e)
  | group g =>
    exact (step?_record_cons_of_ne htag _ _).trans
      (Group.record.step?_entries (i := 1) (by decide) rfl g)

/-- A path leads to the node that it names, and nowhere if there is no such node. -/
theorem Node.follow?_path (s : Spec Float) (n : Node) :
    follow? n.path (Spec.record.codec.write s) = n.part? s := by
  cases n with
  | resolution =>
    simp only [path, follow?, Spec.step?_meta, Heading.step?_resolution, Option.bind_some, part?]
  | rate =>
    simp only [path, follow?, Spec.step?_meta, Heading.step?_fps, Option.bind_some, part?]
  | svg i =>
    simp only [path, follow?, Spec.step?_assets, Sources.step?_svgs, step?_index, Option.bind_some,
      Option.bind_fun_some, part?]
  | scene i =>
    simp only [path, follow?, Spec.step?_scenes, step?_index, Option.bind_some,
      Option.bind_fun_some, part?]
  | soundtrack i =>
    simp only [path, follow?, Spec.step?_scenes, step?_index, Option.bind_some, part?]
    cases s.scenes[i]? with
    | none => rfl
    | some c => simp [Scene.step?_audio]
  | volume i =>
    simp only [path, follow?, Spec.step?_scenes, step?_index, Option.bind_some, part?]
    cases s.scenes[i]? with
    | none => rfl
    | some c => cases hc : c.audio <;> simp [Scene.step?_audio, Soundtrack.step?_volume, hc]
  | element i j =>
    simp only [path, follow?, Spec.step?_scenes, step?_index, Option.bind_some, part?]
    cases s.scenes[i]? with
    | none => rfl
    | some c => simp [Scene.step?_elements, step?_index]
  | item i j k =>
    simp only [path, follow?, Spec.step?_scenes, step?_index, Option.bind_some, part?]
    cases s.scenes[i]? with
    | none => rfl
    | some c =>
      simp only [Option.map_some, Option.bind_some, Scene.step?_elements, step?_index]
      cases hj : c.elements[j]? with
      | none => simp [hj]
      | some e => cases e <;> simp [Element.step?_items, step?_index, hj]

end Steps

section Texts

/-- The characters that a step of a path begins or ends with. -/
def Step.isMark (c : Char) : Bool := c == '.' || c == '[' || c == ']'

def Step.Plain : Step → Prop
  | .field name => ∀ c ∈ name.toList, isMark c = false
  | .index _ => True

instance : DecidablePred Step.Plain
  | .field name => List.decidableBAll (fun c => Step.isMark c = false) name.toList
  | .index _ => inferInstanceAs (Decidable True)

theorem Step.toList_text_field (name : String) :
    (Step.field name).text.toList = '.' :: name.toList := by
  simp [text]
  rfl

theorem Step.toList_text_index (i : Nat) :
    (Step.index i).text.toList = '[' :: (Nat.toDigits 10 i ++ [']']) := by
  simp [text]
  rfl

theorem Step.isMark_of_mem_toDigits {i : Nat} {c : Char} (hc : c ∈ Nat.toDigits 10 i) :
    isMark c = false := by
  have hdigit := Nat.isDigit_of_mem_toDigits (by decide) (by decide) hc
  by_contra hmark
  simp only [isMark, Bool.not_eq_false, Bool.or_eq_true, beq_iff_eq] at hmark
  rcases hmark with (rfl | rfl) | rfl <;> simp at hdigit

theorem append_inj_of_isMark {a b r t : List Char} (ha : ∀ c ∈ a, Step.isMark c = false)
    (hb : ∀ c ∈ b, Step.isMark c = false) (hr : ∀ c ∈ r.head?, Step.isMark c = true)
    (ht : ∀ c ∈ t.head?, Step.isMark c = true) (h : a ++ r = b ++ t) : a = b ∧ r = t := by
  induction a generalizing b with
  | nil =>
    cases b with
    | nil => exact ⟨rfl, h⟩
    | cons d b =>
      rw [List.nil_append] at h
      simp_all
  | cons c a ih =>
    cases b with
    | nil =>
      rw [List.nil_append] at h
      simp [← h, ha c List.mem_cons_self] at ht
    | cons d b =>
      simp only [List.forall_mem_cons] at ha hb
      obtain ⟨rfl, hrest⟩ := List.cons.inj h
      obtain ⟨rfl, rfl⟩ := ih ha.2 hb.2 hrest
      exact ⟨rfl, rfl⟩

theorem isMark_of_mem_head?_flatMap_text (path : List Step) :
    ∀ c ∈ (path.flatMap fun s => s.text.toList).head?, Step.isMark c = true := by
  cases path with
  | nil => simp
  | cons s path =>
    cases s with
    | field name => simp [Step.toList_text_field, Step.isMark]
    | index i => simp [Step.toList_text_index, Step.isMark]

/-- Paths whose steps show where they end are told apart by their texts. -/
theorem Step.eq_of_flatMap_text {p q : List Step} (hp : ∀ s ∈ p, s.Plain) (hq : ∀ s ∈ q, s.Plain)
    (h : (p.flatMap fun s => s.text.toList) = q.flatMap fun s => s.text.toList) : p = q := by
  induction p generalizing q with
  | nil =>
    cases q with
    | nil => rfl
    | cons t q => cases t <;> simp [toList_text_field, toList_text_index] at h
  | cons s p ih =>
    have hrest := isMark_of_mem_head?_flatMap_text p
    cases q with
    | nil => cases s <;> simp [toList_text_field, toList_text_index] at h
    | cons t q =>
      have hrest' := isMark_of_mem_head?_flatMap_text q
      rw [List.forall_mem_cons] at hp hq
      cases s with
      | field name =>
        cases t with
        | field name' =>
          simp only [List.flatMap_cons, toList_text_field, List.cons_append, List.cons.injEq,
            true_and] at h
          obtain ⟨hname, hpath⟩ := append_inj_of_isMark hp.1 hq.1 hrest hrest' h
          rw [String.toList_inj.mp hname, ih hp.2 hq.2 hpath]
        | index j => simp [toList_text_field, toList_text_index] at h
      | index i =>
        cases t with
        | field name' => simp [toList_text_field, toList_text_index] at h
        | index j =>
          simp only [List.flatMap_cons, toList_text_index, List.cons_append, List.append_assoc,
            List.nil_append, List.cons.injEq, true_and] at h
          obtain ⟨hdigits, hpath⟩ := append_inj_of_isMark (fun _ => isMark_of_mem_toDigits)
            (fun _ => isMark_of_mem_toDigits) (by simp [isMark]) (by simp [isMark]) h
          rw [toDigits_injective hdigits, ih hp.2 hq.2 (List.cons.inj hpath).2]

theorem Node.plain_path (n : Node) : ∀ s ∈ n.path, s.Plain := by
  have hnames : ∀ name ∈ ["meta", "resolution", "fps", "assets", "svgs", "scenes", "audio",
      "volume", "elements", "items"], (Step.field name).Plain := by decide
  have hindex (i : Nat) : (Step.index i).Plain := trivial
  simp only [List.forall_mem_cons] at hnames
  cases n <;> simp [path, hnames, hindex]

theorem Node.path_injective {m n : Node} (h : m.path = n.path) : m = n := by
  cases m <;> cases n <;> simp_all [path]

theorem Node.eq_of_pathText {α : Type} {m n : Node} {p q : Problem α}
    (h : (Issue.mk m.path p).pathText = (Issue.mk n.path q).pathText) : m = n := by
  have hchars := congrArg String.toList h
  simp only [Issue.pathText, String.toList_join, List.flatMap_cons, List.flatMap_map,
    List.append_cancel_left_eq] at hchars
  exact path_injective (Step.eq_of_flatMap_text m.plain_path n.plain_path hchars)

end Texts
end Storyboard
