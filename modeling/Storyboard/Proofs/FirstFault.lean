import Storyboard.Proofs.Cue

set_option autoImplicit false

namespace Storyboard
variable {α : Type}

def Spec.elements (s : Spec α) : List (Scene α × Element α) :=
  s.scenes.flatMap fun scene => scene.elements.map (scene, ·)

/-- A line or arrow without two ends, or a closed shape with them. -/
def Element.Mismatched : Element α → Prop
  | .shape e => match e.layout with
    | .between _ => e.shape.isOpen = false
    | .inside _ => e.shape.isOpen = true
  | _ => False

variable [Scalar α]

def Member.ofSize (id : String) (size : Size α) : Member α := ⟨id, size, size.width / size.height⟩

theorem Member.failure?_create (id : String) (size : Size α) :
    failure? (Member.create id size) =
      if size.proper then none else some (.degenerateItem id size) := by
  unfold Member.create
  split <;> rfl

namespace Stage

theorem failure?_fit (s : Stage α) (layout : Placing α) (size : Size α) :
    failure? (s.fit layout size) = if size.proper then none else some (.degenerateElement size) := by
  unfold fit
  split <;> rfl

theorem failure?_placeText (s : Stage α) (layout : Placing α) (text : String) (fontSize : α)
    (fontFamily : String) :
    failure? (s.placeText layout text fontSize fontFamily) =
      if Scalar.proper fontSize then none else some (.fontSize fontSize) := by
  unfold placeText
  split <;> rfl

def contentSize (s : Stage α) (layout : Flow α) : Size α :=
  ⟨(s.content layout).width, (s.content layout).height⟩

theorem failure?_arrange (s : Stage α) (layout : Flow α) (items : List (Member α)) :
    failure? (s.arrange layout items) =
      (items.zip (s.groupSizes layout items)).findSome? fun p =>
        if p.2.proper then none
        else some (.collapsed p.1.id p.2 (s.contentSize layout) items.length) := by
  rw [findSome?_ite_none]
  unfold arrange
  cases items with
  | nil => rfl
  | cons item rest =>
    simp only [List.isEmpty_cons, Bool.false_eq_true, if_false]
    cases (((item :: rest).zip (s.groupSizes layout (item :: rest))).find? fun p => !p.2.proper) <;>
      rfl

theorem groupSizes_map_ofSize {β : Type} (s : Stage α) (layout : Flow α) (ms : List β)
    (id : β → String) (size : β → Size α) :
    s.groupSizes layout (ms.map fun m => .ofSize (id m) (size m)) =
      s.groupSizes layout ((ms.map size).map (.ofSize "")) := by
  unfold groupSizes Sizing.sizes
  cases layout.sizing.getD default <;>
    simp [List.map_map, Function.comp_def, Member.ofSize]

end Stage

def Sizes.declaring (sizes : Sizes α) (size : Size α) : Sizes α :=
  fun asset => some ((sizes asset).getD size)

namespace Compiler
variable (c : Compiler α) (sizes : Sizes α)

/-- The size that stands in for assets without one: images by themselves have their own. -/
def standIn : Element α → Size α
  | .image _ => c.defaults.imageSize
  | _ => c.defaults.assetSize

def withFonts (fonts : FontTable α) : Compiler α := { c with stage := { c.stage with fonts } }

/-- The sizes in which the items of a group come. An item that lacks what its kind needs has none. -/
def intrinsicSizes (g : Group α) : List (Size α) := g.items.filterMap (c.itemSize? sizes)

def computedSizes (g : Group α) : List (Size α) :=
  c.stage.groupSizes g.layout ((c.intrinsicSizes sizes g).map (Member.ofSize ""))

def groupMembers (g : Group α) : List (Member α) :=
  (c.members sizes g.items).map fun (_, size, i) => .ofSize (itemId i) size

def Bad : Element α → Prop
  | .svg e => ((sizes e.asset).getD c.defaults.assetSize).proper = false
  | .image e => ((sizes e.asset).getD c.defaults.imageSize).proper = false
  | .text e => Scalar.proper (e.fontSize.getD c.defaults.fontSize) = false
  | .shape e => match e.layout with
    | .between _ => e.shape.isOpen = false
    | .inside _ => e.shape.isOpen = true ∨ c.defaults.shapeSize.proper = false
  | .group g =>
    (∃ size ∈ c.intrinsicSizes sizes g, size.proper = false) ∨
      ∃ size ∈ c.computedSizes sizes g, size.proper = false

/-- The fault of an element, by its cause. -/
inductive Rejects (scene : Scene α) : Element α → Fault α → Prop where
  | svg {e : Picture α} {size : Size α} (looked : (sizes e.asset).getD c.defaults.assetSize = size)
    (bad : size.proper = false) : Rejects scene (.svg e) (.degenerateElement size)
  | image {e : Picture α} {size : Size α}
    (looked : (sizes e.asset).getD c.defaults.imageSize = size) (bad : size.proper = false) :
    Rejects scene (.image e) (.degenerateElement size)
  | text {e : TextLine α} {fontSize : α} (given : e.fontSize.getD c.defaults.fontSize = fontSize)
    (bad : Scalar.proper fontSize = false) : Rejects scene (.text e) (.fontSize fontSize)
  | endless {e : Figure α} {l : Placing α} (layout : e.layout = .inside l)
    (shape : e.shape.isOpen = true) : Rejects scene (.shape e) (.needsConnection scene.id e.shape)
  | between {e : Figure α} {k : Connection} (layout : e.layout = .between k)
    (shape : e.shape.isOpen = false) : Rejects scene (.shape e) (.needsPosition scene.id e.shape)
  | closed {e : Figure α} {l : Placing α} (layout : e.layout = .inside l)
    (shape : e.shape.isOpen = false) (bad : c.defaults.shapeSize.proper = false) :
    Rejects scene (.shape e) (.degenerateElement c.defaults.shapeSize)
  | item {g : Group α} {before after : List (Item α)} {item : Item α} {size : Size α}
    (split : g.items = before ++ item :: after)
    (first : ∀ size ∈ before.filterMap (c.itemSize? sizes), size.proper = true)
    (counts : c.itemSize? sizes item = some size) (bad : size.proper = false) :
    Rejects scene (.group g) (.degenerateItem (itemId before.length) size)
  | collapsed {g : Group α} {before after : List (Member α × Size α)} {m : Member α} {size : Size α}
    (proper : ∀ size ∈ c.intrinsicSizes sizes g, size.proper = true)
    (split : (c.groupMembers sizes g).zip
      (c.stage.groupSizes g.layout (c.groupMembers sizes g)) = before ++ (m, size) :: after)
    (first : ∀ p ∈ before, p.2.proper = true) (bad : size.proper = false) :
    Rejects scene (.group g)
      (.collapsed m.id size (c.stage.contentSize g.layout) (c.groupMembers sizes g).length)

variable {c sizes} {scene : Scene α}

theorem map_size_members (items : List (Item α)) :
    (c.members sizes items).map (fun m => m.2.1) = items.filterMap (c.itemSize? sizes) := by
  unfold members
  rw [List.map_filterMap]
  conv_rhs => rw [← List.zipIdx_map_fst 0 items, List.filterMap_map]
  congr 1
  funext ⟨item, i⟩
  cases h : c.itemSize? sizes item <;> simp [h]

theorem groupSizes_groupMembers (g : Group α) :
    c.stage.groupSizes g.layout (c.groupMembers sizes g) = c.computedSizes sizes g := by
  unfold groupMembers computedSizes intrinsicSizes
  rw [Stage.groupSizes_map_ofSize c.stage g.layout (c.members sizes g.items)
    (fun m => itemId m.2.2) (fun m => m.2.1), map_size_members]

def itemFault? (c : Compiler α) (sizes : Sizes α) (p : Item α × Nat) : Option (Fault α) :=
  (c.itemSize? sizes p.1).bind fun size =>
    if size.proper then none else some (.degenerateItem (itemId p.2) size)

theorem failure?_mapM_create (items : List (Item α)) :
    failure? ((c.members sizes items).mapM fun m => Member.create (itemId m.2.2) m.2.1) =
      items.zipIdx.findSome? (c.itemFault? sizes) := by
  rw [failure?_mapM, members, ← List.head?_filterMap, List.filterMap_filterMap, List.head?_filterMap]
  congr 1
  funext ⟨item, i⟩
  simp only [itemFault?, Member.failure?_create, Option.bind_map]
  rfl

theorem findSome?_itemFault?_eq_none_iff {items : List (Item α)} :
    items.zipIdx.findSome? (c.itemFault? sizes) = none ↔
      ∀ size ∈ items.filterMap (c.itemSize? sizes), size.proper = true := by
  rw [← failure?_mapM_create, failure?_mapM, List.findSome?_eq_none_iff, ← map_size_members,
    List.forall_mem_map]
  simp [Member.failure?_create]

theorem findSome?_itemFault?_eq_some_iff {items : List (Item α)} {f : Fault α} :
    items.zipIdx.findSome? (c.itemFault? sizes) = some f ↔
      ∃ before item after size, items = before ++ item :: after ∧
        (∀ size ∈ before.filterMap (c.itemSize? sizes), size.proper = true) ∧
        c.itemSize? sizes item = some size ∧ size.proper = false ∧
        f = .degenerateItem (itemId before.length) size := by
  rw [List.findSome?_eq_some_iff]
  constructor
  · rintro ⟨l, p, r, hsplit, hp, hl⟩
    obtain ⟨before, rest, rfl, rfl, hrest⟩ := List.zipIdx_eq_append_iff.mp hsplit
    obtain ⟨item, after, rfl, rfl, -⟩ := List.zipIdx_eq_cons_iff.mp hrest.symm
    obtain ⟨size, hsize, hbad⟩ := Option.bind_eq_some_iff.mp hp
    rw [← List.findSome?_eq_none_iff, findSome?_itemFault?_eq_none_iff] at hl
    by_cases hproper : size.proper = true
    · simp [hproper] at hbad
    · refine ⟨before, item, after, size, rfl, hl, hsize, by simpa using hproper, ?_⟩
      simpa [hproper] using hbad.symm
  · rintro ⟨before, item, after, size, rfl, hfirst, hsize, hbad, rfl⟩
    refine ⟨before.zipIdx, (item, before.length), after.zipIdx (before.length + 1), ?_, ?_, ?_⟩
    · simp [List.zipIdx_append]
    · simp [itemFault?, hsize, hbad]
    · rwa [← List.findSome?_eq_none_iff, findSome?_itemFault?_eq_none_iff]

theorem mapM_create_eq_ok_iff {g : Group α} {flex : List (Member α)} :
    ((c.members sizes g.items).mapM fun m => Member.create (itemId m.2.2) m.2.1) = .ok flex ↔
      (∀ size ∈ c.intrinsicSizes sizes g, size.proper = true) ∧ flex = c.groupMembers sizes g := by
  have hmade (h : ∀ size ∈ c.intrinsicSizes sizes g, size.proper = true) :
      ((c.members sizes g.items).mapM fun m => Member.create (itemId m.2.2) m.2.1) =
        .ok (c.groupMembers sizes g) := by
    rw [intrinsicSizes, ← map_size_members, List.forall_mem_map] at h
    refine mapM_eq_ok_iff.mpr (List.forall₂_map_right_iff.mpr (List.forall₂_same.mpr ?_))
    exact fun m hm => Member.create_eq_ok_iff.mpr ⟨h m hm, rfl⟩
  constructor
  · intro h
    have hproper : ∀ size ∈ c.intrinsicSizes sizes g, size.proper = true := by
      rw [intrinsicSizes, ← findSome?_itemFault?_eq_none_iff, ← failure?_mapM_create, h]
      rfl
    rw [hmade hproper] at h
    exact ⟨hproper, (Except.ok.inj h).symm⟩
  · rintro ⟨hproper, rfl⟩
    exact hmade hproper

/-- A group fails at the first item of no usable size of its own, or else at the first that comes
out at none. -/
theorem failure?_group (g : Group α) :
    failure? (c.groupDeeds sizes scene g) =
      (g.items.zipIdx.findSome? (c.itemFault? sizes)).or
        (failure? (c.stage.arrange g.layout (c.groupMembers sizes g))) := by
  rw [← failure?_mapM_create, groupDeeds, failure?_map, places]
  cases hflex : (c.members sizes g.items).mapM fun m => Member.create (itemId m.2.2) m.2.1 with
  | error e => rfl
  | ok flex =>
    obtain ⟨-, rfl⟩ := mapM_create_eq_ok_iff.mp hflex
    exact failure?_map _ _

theorem group_eq_error_iff {g : Group α} {f : Fault α} :
    c.groupDeeds sizes scene g = .error f ↔ c.Rejects sizes scene (.group g) f := by
  rw [← failure?_eq_some_iff, failure?_group, Option.or_eq_some_iff,
    findSome?_itemFault?_eq_some_iff, findSome?_itemFault?_eq_none_iff, Stage.failure?_arrange,
    List.findSome?_eq_some_iff]
  constructor
  · rintro (⟨before, item, after, size, hsplit, hfirst, hsize, hbad, rfl⟩ |
      ⟨hproper, before, ⟨m, size⟩, after, hsplit, hbad, hfirst⟩)
    · exact .item hsplit hfirst hsize hbad
    · by_cases hm : size.proper = true
      · simp [hm] at hbad
      · obtain rfl := by simpa [hm] using hbad
        exact .collapsed hproper hsplit (by simpa using hfirst) (by simpa using hm)
  · intro h
    cases h with
    | @item _ before after item size hsplit hfirst hsize hbad =>
      exact .inl ⟨before, item, after, size, hsplit, hfirst, hsize, hbad, rfl⟩
    | @collapsed _ before after m size hproper hsplit hfirst hbad =>
      refine .inr ⟨hproper, before, (m, size), after, hsplit, by simp [hbad], ?_⟩
      exact fun p hp => by simp [hfirst p hp]

theorem shape_eq_error_iff {e : Figure α} {f : Fault α} :
    c.shape scene e = .error f ↔ c.Rejects sizes scene (.shape e) f := by
  unfold shape
  constructor
  · intro h
    split at h
    · cases h
    · rename_i hlayout hshape
      have hfit := failure?_eq_some_iff.mpr h
      rw [failure?_map, Stage.failure?_fit] at hfit
      split at hfit
      · cases hfit
      · rename_i hbad
        cases hfit
        exact .closed hlayout hshape (by simpa using hbad)
    · rename_i hlayout hshape
      cases h
      exact .endless hlayout hshape
    · rename_i hlayout hshape
      cases h
      exact .between hlayout hshape
  · intro h
    cases h with
    | endless hlayout hshape => simp [hlayout, hshape]
    | between hlayout hshape => simp [hlayout, hshape]
    | closed hlayout hshape hbad => simp [hlayout, hshape, Stage.fit, hbad, Except.map]

theorem element_eq_error_iff {e : Element α} {f : Fault α} :
    c.elementDeeds sizes scene e = .error f ↔ c.Rejects sizes scene e f := by
  rw [← failure?_eq_some_iff]
  cases e with
  | svg e =>
    rw [elementDeeds, failure?_map, svg, failure?_map, Stage.failure?_fit, ite_none_eq_some_iff]
    constructor
    · rintro ⟨hbad, rfl⟩
      exact .svg rfl hbad
    · intro h
      cases h with
      | svg looked hbad => exact ⟨looked ▸ hbad, congrArg _ looked⟩
  | text e =>
    rw [elementDeeds, failure?_map, text, failure?_map, Stage.failure?_placeText,
      ite_none_eq_some_iff]
    constructor
    · rintro ⟨hbad, rfl⟩
      exact .text rfl hbad
    · intro h
      cases h with
      | text given hbad => exact ⟨given ▸ hbad, congrArg _ given⟩
  | shape e =>
    rw [elementDeeds, failure?_map, failure?_eq_some_iff, shape_eq_error_iff]
  | image e =>
    rw [elementDeeds, failure?_map, image, failure?_map, Stage.failure?_fit, ite_none_eq_some_iff]
    constructor
    · rintro ⟨hbad, rfl⟩
      exact .image rfl hbad
    · intro h
      cases h with
      | image looked hbad => exact ⟨looked ▸ hbad, congrArg _ looked⟩
  | group g => rw [elementDeeds, failure?_eq_some_iff, group_eq_error_iff]

theorem failure?_group_eq_none_iff {g : Group α} :
    failure? (c.groupDeeds sizes scene g) = none ↔
      (∀ size ∈ c.intrinsicSizes sizes g, size.proper = true) ∧
        ∀ size ∈ c.computedSizes sizes g, size.proper = true := by
  rw [failure?_group, Option.or_eq_none_iff, findSome?_itemFault?_eq_none_iff,
    Stage.failure?_arrange, List.findSome?_eq_none_iff, ← groupSizes_groupMembers,
    ← Stage.forall_mem_zip_groupSizes_iff]
  simp [intrinsicSizes]

theorem failure?_element_eq_none_iff {e : Element α} :
    failure? (c.elementDeeds sizes scene e) = none ↔ ¬ c.Bad sizes e := by
  cases e with
  | svg e => simp [elementDeeds, svg, Stage.failure?_fit, Bad]
  | text e => simp [elementDeeds, text, Stage.failure?_placeText, Bad]
  | shape e =>
    simp only [elementDeeds, failure?_map, shape, Bad]
    split <;> simp_all [Stage.failure?_fit]
  | image e => simp [elementDeeds, image, Stage.failure?_fit, Bad]
  | group g =>
    rw [elementDeeds, failure?_group_eq_none_iff]
    simp [Bad]

theorem bad_iff_rejects {e : Element α} :
    c.Bad sizes e ↔ ∃ f, c.Rejects sizes scene e f := by
  have hgood : failure? (c.elementDeeds sizes scene e) = none ↔ ¬ c.Bad sizes e :=
    failure?_element_eq_none_iff
  rw [← not_iff_not, ← hgood, failure?_eq_none_iff]
  simp only [← element_eq_error_iff]
  cases c.elementDeeds sizes scene e <;> simp

theorem failure?_scene (scene : Scene α) :
    failure? (c.sceneDeeds sizes scene) =
      scene.elements.findSome? fun e => failure? (c.elementDeeds sizes scene e) := by
  rw [← failure?_mapM]
  exact failure?_bind_of_ok fun _ => rfl

theorem failure?_compileWith_scenes (s : Spec α) :
    failure? (c.compileWith sizes s) =
      s.scenes.findSome? fun scene => failure? (c.sceneDeeds sizes scene) := by
  rw [compileWith_eq, failure?_map, failure?_mapM]

theorem failure?_compileWith (s : Spec α) :
    failure? (c.compileWith sizes s) =
      s.elements.findSome? fun p => failure? (c.elementDeeds sizes p.1 p.2) := by
  rw [failure?_compileWith_scenes, Spec.elements, findSome?_flatMap]
  simp only [failure?_scene, List.findSome?_map, Function.comp_def]

theorem compileWith_eq_error_iff {s : Spec α} {f : Fault α} :
    c.compileWith sizes s = .error f ↔
      ∃ before scene e after, s.elements = before ++ (scene, e) :: after ∧
        (∀ p ∈ before, ¬ c.Bad sizes p.2) ∧ c.Rejects sizes scene e f := by
  rw [← failure?_eq_some_iff, failure?_compileWith, List.findSome?_eq_some_iff]
  simp only [failure?_eq_some_iff, failure?_element_eq_none_iff, element_eq_error_iff]
  constructor
  · rintro ⟨before, ⟨scene, e⟩, after, hsplit, hfault, hfirst⟩
    exact ⟨before, scene, e, after, hsplit, hfirst, hfault⟩
  · rintro ⟨before, scene, e, after, hsplit, hfirst, hfault⟩
    exact ⟨before, (scene, e), after, hsplit, hfault, hfirst⟩

theorem exists_compileWith_eq_ok_iff {s : Spec α} :
    (∃ p, c.compileWith sizes s = .ok p) ↔ ∀ p ∈ s.elements, ¬ c.Bad sizes p.2 := by
  rw [← failure?_eq_none_iff, failure?_compileWith, List.findSome?_eq_none_iff]
  simp only [failure?_element_eq_none_iff]

theorem kind_of_rejects {e : Element α} {f : Fault α} (h : c.Rejects sizes scene e f) :
    (f.kind = .validation ∨ f.kind = .geometry) ∧ (f.kind = .validation ↔ e.Mismatched) := by
  cases h with
  | endless layout shape => simp [Fault.kind, Element.Mismatched, layout, shape]
  | between layout shape => simp [Fault.kind, Element.Mismatched, layout, shape]
  | closed layout shape _ => simp [Fault.kind, Element.Mismatched, layout, shape]
  | _ => simp [Fault.kind, Element.Mismatched]

theorem bad_withFonts_iff (fonts : FontTable α) (e : Element α) :
    (c.withFonts fonts).Bad sizes e ↔ c.Bad sizes e := by
  cases e <;> rfl

theorem Rejects.withFonts {e : Element α} {f : Fault α} (fonts : FontTable α)
    (h : c.Rejects sizes scene e f) : (c.withFonts fonts).Rejects sizes scene e f := by
  cases h with
  | svg looked bad => exact .svg looked bad
  | image looked bad => exact .image looked bad
  | text given bad => exact .text given bad
  | endless layout shape => exact .endless layout shape
  | between layout shape => exact .between layout shape
  | closed layout shape bad => exact .closed layout shape bad
  | item split first counts bad => exact .item split first counts bad
  | collapsed proper split first bad => exact .collapsed proper split first bad

theorem rejects_withFonts_iff (fonts : FontTable α) {e : Element α} {f : Fault α} :
    (c.withFonts fonts).Rejects sizes scene e f ↔ c.Rejects sizes scene e f :=
  ⟨fun h => h.withFonts c.stage.fonts, fun h => h.withFonts fonts⟩

theorem compileWith_withFonts_eq_error_iff (fonts : FontTable α) {s : Spec α} {f : Fault α} :
    (c.withFonts fonts).compileWith sizes s = .error f ↔ c.compileWith sizes s = .error f := by
  simp only [compileWith_eq_error_iff, bad_withFonts_iff, rejects_withFonts_iff]

theorem bad_declaring_iff (e : Element α) :
    c.Bad sizes e ↔ c.Bad (sizes.declaring (c.standIn e)) e := by
  cases e <;> rfl

theorem bad_filter_subject?_iff (g : Group α) :
    c.Bad sizes (.group g) ↔
      c.Bad sizes (.group { g with items := g.items.filter fun i => i.subject?.isSome }) := by
  have hsizes : c.intrinsicSizes sizes { g with items := g.items.filter fun i => i.subject?.isSome } =
      c.intrinsicSizes sizes g := by
    simp only [intrinsicSizes, List.filterMap_filter]
    congr 1
    funext item
    have hitem := isSome_itemSize? c sizes item
    cases h : c.itemSize? sizes item <;> simp_all
  simp only [Bad, computedSizes, hsizes]

/-- A compilation fails if and only if some element is bad, and then with the fault of the first bad
one in the order of the document. A fault is one of validation where a shape and its layout do not
go together, and one of geometry otherwise; fonts, unknown assets and items that lack what their
kind needs cause none. -/
theorem compileWith_fails_at_first_bad (c : Compiler α) (sizes : Sizes α) (s : Spec α) :
    (∀ f, c.compileWith sizes s = .error f ↔
      ∃ before scene e after, s.elements = before ++ (scene, e) :: after ∧
        (∀ p ∈ before, ¬ c.Bad sizes p.2) ∧ c.Bad sizes e ∧ c.Rejects sizes scene e f) ∧
    ((∃ f, c.compileWith sizes s = .error f) ↔ ∃ p ∈ s.elements, c.Bad sizes p.2) ∧
    (∀ scene e f, c.Rejects sizes scene e f →
      (f.kind = .validation ∨ f.kind = .geometry) ∧ (f.kind = .validation ↔ e.Mismatched)) ∧
    (∀ fonts f, (c.withFonts fonts).compileWith sizes s = .error f ↔
      c.compileWith sizes s = .error f) ∧
    (∀ e, c.Bad sizes e ↔ c.Bad (sizes.declaring (c.standIn e)) e) ∧
    ∀ g : Group α, c.Bad sizes (.group g) ↔
      c.Bad sizes (.group { g with items := g.items.filter fun i => i.subject?.isSome }) := by
  refine ⟨fun f => ?_, ?_, fun _ _ _ => kind_of_rejects,
    fun fonts f => compileWith_withFonts_eq_error_iff fonts, bad_declaring_iff,
    bad_filter_subject?_iff⟩
  · rw [compileWith_eq_error_iff]
    constructor
    · rintro ⟨before, scene, e, after, hsplit, hfirst, hfault⟩
      exact ⟨before, scene, e, after, hsplit, hfirst, bad_iff_rejects.mpr ⟨f, hfault⟩, hfault⟩
    · rintro ⟨before, scene, e, after, hsplit, hfirst, -, hfault⟩
      exact ⟨before, scene, e, after, hsplit, hfirst, hfault⟩
  · have hok : (∃ p, c.compileWith sizes s = .ok p) ↔ ∀ p ∈ s.elements, ¬ c.Bad sizes p.2 :=
      exists_compileWith_eq_ok_iff
    have hnot : (∃ f, c.compileWith sizes s = .error f) ↔ ¬ ∃ p, c.compileWith sizes s = .ok p := by
      cases c.compileWith sizes s <;> simp
    rw [hnot, hok]
    simp only [not_forall, not_not, exists_prop]

end Compiler

/-- The sample with one more scene, of an arrow without ends and a text of no size. -/
def Spec.endless : Spec Rat :=
  let placing : Placing Rat := ⟨.center, none, none, none⟩
  { Spec.sample with
    scenes := Spec.sample.scenes ++ [{
      id := "flood"
      name := "Flood"
      start := 8
      duration := 2
      background := none
      audio := none
      elements := [.shape ⟨.arrow, .inside placing, 0, 1, none, none, none, none, []⟩,
        .text ⟨"Flood", placing, 0, 2, none, some 0, none, none⟩] }] }

namespace Compiler

theorem endless_fails_at_arrow :
    (plain ⟨1920, 1080⟩).compileWith (fun _ => none) Spec.endless =
      .error (.needsConnection "flood" .arrow) := by
  have hsample : ((plain ⟨1920, 1080⟩).compileWith (fun _ => none) Spec.sample).toOption.isSome := by
    decide +kernel
  have hbefore := exists_compileWith_eq_ok_iff.mp (isSome_toOption_iff.mp hsample)
  refine ((compileWith_fails_at_first_bad _ _ _).1 _).mpr ⟨Spec.sample.elements, _, _, _, rfl, ?_⟩
  exact ⟨hbefore, .inl rfl, .endless rfl rfl⟩

end Compiler
end Storyboard
