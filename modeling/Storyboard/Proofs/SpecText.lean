import Storyboard.Proofs.Json.Codec
import Storyboard.Spec.Format

set_option autoImplicit false

namespace Storyboard

section Words

instance : LawfulWord Region := ⟨fun w => by cases w <;> rfl⟩
instance : LawfulWord Anchor := ⟨fun w => by cases w <;> rfl⟩
instance : LawfulWord SizeHint := ⟨fun w => by cases w <;> rfl⟩
instance : LawfulWord Direction := ⟨fun w => by cases w <;> rfl⟩
instance : LawfulWord Justify := ⟨fun w => by cases w <;> rfl⟩
instance : LawfulWord Align := ⟨fun w => by cases w <;> rfl⟩
instance : LawfulWord Sizing := ⟨fun w => by cases w <;> rfl⟩
instance : LawfulWord Shape := ⟨fun w => by cases w <;> rfl⟩
instance : LawfulWord ItemKind := ⟨fun w => by cases w <;> rfl⟩

end Words

section Reals
variable {α : Type}

def Size.reals (s : Size α) : List α := [s.width, s.height]

def Point.reals (p : Point α) : List α := [p.x, p.y]

def Placing.reals (l : Placing α) : List α := l.offset.toList.flatMap Point.reals

def Flow.reals (l : Flow α) : List α := l.gap.toList ++ l.padding.toList

def ShapePlacing.reals : ShapePlacing α → List α
  | .between _ => []
  | .inside l => l.reals

def ImageSource.reals (i : ImageSource α) : List α := i.width.toList ++ i.height.toList

def Sources.reals (a : Sources α) : List α :=
  a.svgs.flatMap (fun s => s.size.reals) ++ a.images.flatMap ImageSource.reals

def Picture.reals (e : Picture α) : List α := e.layout.reals ++ [e.start, e.duration]

def TextLine.reals (e : TextLine α) : List α :=
  e.layout.reals ++ [e.start, e.duration] ++ e.fontSize.toList

def Figure.reals (e : Figure α) : List α :=
  e.layout.reals ++ [e.start, e.duration] ++ e.strokeWidth.toList ++ e.arrowHeadSize.toList ++
    e.points.flatMap Point.reals

def Item.reals (i : Item α) : List α := i.fontSize.toList ++ i.start.toList ++ i.duration.toList

def Group.reals (e : Group α) : List α :=
  e.layout.reals ++ e.items.flatMap Item.reals ++ [e.start, e.duration]

def Element.reals : Element α → List α
  | .svg e => e.reals
  | .text e => e.reals
  | .shape e => e.reals
  | .image e => e.reals
  | .group e => e.reals

def Soundtrack.reals (t : Soundtrack α) : List α := t.volume.toList

def Scene.reals (s : Scene α) : List α :=
  [s.start, s.duration] ++ s.audio.toList.flatMap Soundtrack.reals ++
    s.elements.flatMap Element.reals

def Spec.reals (s : Spec α) : List α := s.assets.reals ++ s.scenes.flatMap Scene.reals

end Reals

variable {P : Float → Prop} {d : Nat}

theorem Canvas.keeps (c : Canvas) : Canvas.record.codec.Keeps P (d + 1) c :=
  Record.keeps (by decide) <|
    .required (.natural32 _) <|
    .required (.natural32 _) <|
    .nil _

theorem Size.restores {s : Size Float} (h : ∀ x ∈ s.reals, P x) (t : Size Float) :
    Restores P d s Size.record.fields t s := by
  simp only [Size.reals, List.forall_mem_cons] at h
  obtain ⟨hwidth, hheight, -⟩ := h
  exact .required (.real hwidth) <|
    .required (.real hheight) <|
    .nil _

theorem Point.keeps {p : Point Float} (h : ∀ x ∈ p.reals, P x) :
    Point.record.codec.Keeps P (d + 1) p := by
  simp only [Point.reals, List.forall_mem_cons] at h
  obtain ⟨hx, hy, -⟩ := h
  exact Record.keeps (by decide) <|
    .required (.real hx) <|
    .required (.real hy) <|
    .nil _

theorem Placing.keeps {l : Placing Float} (h : ∀ x ∈ l.reals, P x) :
    Placing.record.codec.Keeps P (d + 2) l := by
  simp only [Placing.reals, List.forall_mem_flatMap, Option.mem_toList] at h
  exact Record.keeps (by decide) <|
    .defaulted (.keyword _) <|
    .optional (fun _ _ => .keyword _) rfl <|
    .optional (fun _ _ => .keyword _) rfl <|
    .optional (fun p hp => Point.keeps (h p hp)) rfl <|
    .nil _

theorem Flow.keeps {l : Flow Float} (h : ∀ x ∈ l.reals, P x) :
    Flow.record.codec.Keeps P (d + 1) l := by
  simp only [Flow.reals, List.forall_mem_append, Option.mem_toList] at h
  obtain ⟨hgap, hpadding⟩ := h
  exact Record.keeps (by decide) <|
    .required (.keyword _) <|
    .optional (fun _ _ => .keyword _) rfl <|
    .optional (fun _ _ => .keyword _) rfl <|
    .optional (fun _ _ => .keyword _) rfl <|
    .optional (fun _ _ => .keyword _) rfl <|
    .optional (fun x hx => .real (hgap x hx)) rfl <|
    .optional (fun x hx => .real (hpadding x hx)) rfl <|
    .nil _

theorem Endpoint.keeps (e : Endpoint) : Endpoint.record.codec.Keeps P (d + 1) e :=
  Record.keeps (by decide) <|
    .required (.keyword _) <|
    .required (.keyword _) <|
    .nil _

theorem Connection.keeps (c : Connection) : Connection.record.codec.Keeps P (d + 2) c :=
  Record.keeps (by decide) <|
    .required (Endpoint.keeps _) <|
    .required (Endpoint.keeps _) <|
    .nil _

/-- A placing has no ends, so it is not taken for a connection. -/
theorem Connection.read_write_placing (l : Placing Float) (o : Origin) :
    ∃ why, Connection.record.codec.read o (Placing.record.codec.write l) = .error why := by
  have hwritten := (Placing.keeps (P := fun _ => True) (d := 0) (l := l) (by simp)).written
  refine Record.read_error_of_missing (f := Connection.record.fields.head (by simp [record]))
    (List.head_mem _) rfl ?_ ?_ o
  · exact fun e he => (hwritten.of_record e he).whole
  · intro e he hmem
    have hkey := Placing.record.mem_keys_of_mem_entries he
    have hforeign : ∀ k ∈ Placing.record.fields.map Field.key,
        k ∉ Connection.record.fields.map Field.key := by decide
    exact hforeign e.1 hkey hmem

theorem ShapePlacing.keeps {l : ShapePlacing Float} (h : ∀ x ∈ l.reals, P x) :
    ShapePlacing.codec.Keeps P (d + 2) l := by
  cases l with
  | between c => exact .iso (.either_inl (Connection.keeps c)) rfl
  | inside l => exact .iso (.either_inr (Placing.keeps h) (Connection.read_write_placing l)) rfl

theorem Heading.keeps (h : Heading) : Heading.record.codec.Keeps P (d + 2) h :=
  Record.keeps (by decide) <|
    .required (.string _) <|
    .required (.string _) <|
    .required (Canvas.keeps _) <|
    .required (.natural32 _) <|
    .optional (fun _ _ => .string _) rfl <|
    .nil _

theorem SvgSource.keeps {s : SvgSource Float} (h : ∀ x ∈ s.size.reals, P x) :
    SvgSource.record.codec.Keeps P (d + 1) s :=
  Record.keeps (by decide) <|
    .required (.string _) <|
    .required (.string _) <|
    .within (Size.restores h _) (fun _ _ => rfl) (fun _ _ _ => rfl) (fun _ => rfl)

theorem AudioSource.keeps (s : AudioSource) : AudioSource.record.codec.Keeps P (d + 1) s :=
  Record.keeps (by decide) <|
    .required (.string _) <|
    .required (.string _) <|
    .nil _

theorem ImageSource.keeps {i : ImageSource Float} (h : ∀ x ∈ i.reals, P x) :
    ImageSource.record.codec.Keeps P (d + 1) i := by
  simp only [ImageSource.reals, List.forall_mem_append, Option.mem_toList] at h
  obtain ⟨hwidth, hheight⟩ := h
  exact Record.keeps (by decide) <|
    .required (.string _) <|
    .required (.string _) <|
    .optional (fun x hx => .real (hwidth x hx)) rfl <|
    .optional (fun x hx => .real (hheight x hx)) rfl <|
    .nil _

theorem Sources.keeps {a : Sources Float} (h : ∀ x ∈ a.reals, P x) :
    Sources.record.codec.Keeps P (d + 3) a := by
  simp only [Sources.reals, List.forall_mem_append, List.forall_mem_flatMap] at h
  obtain ⟨hsvgs, himages⟩ := h
  exact Record.keeps (by decide) <|
    .defaulted (.list fun s hs => SvgSource.keeps (hsvgs s hs)) <|
    .defaulted (.list fun s _ => AudioSource.keeps s) <|
    .defaulted (.list fun s hs => ImageSource.keeps (himages s hs)) <|
    .nil _

theorem Soundtrack.keeps {t : Soundtrack Float} (h : ∀ x ∈ t.reals, P x) :
    Soundtrack.record.codec.Keeps P (d + 1) t := by
  simp only [Soundtrack.reals, Option.mem_toList] at h
  exact Record.keeps (by decide) <|
    .required (.string _) <|
    .optional (fun x hx => .real (h x hx)) rfl <|
    .nil _

theorem Picture.keeps {e : Picture Float} (h : ∀ x ∈ e.reals, P x) (name : String) :
    (Picture.record name).codec.Keeps P (d + 3) e := by
  simp only [Picture.reals, List.forall_mem_append, List.forall_mem_cons] at h
  obtain ⟨hlayout, hstart, hduration, -⟩ := h
  have hkeys : ((Picture.record "").fields.map Field.key).Nodup := by decide
  exact Record.keeps hkeys <|
    .required (.string _) <|
    .required (Placing.keeps hlayout) <|
    .defaulted (.real hstart) <|
    .required (.real hduration) <|
    .optional (fun _ _ => .string _) rfl <|
    .nil _

theorem TextLine.keeps {e : TextLine Float} (h : ∀ x ∈ e.reals, P x) :
    TextLine.record.codec.Keeps P (d + 3) e := by
  simp only [TextLine.reals, List.forall_mem_append, List.forall_mem_cons, Option.mem_toList] at h
  obtain ⟨⟨hlayout, hstart, hduration, -⟩, hfontSize⟩ := h
  exact Record.keeps (by decide) <|
    .required (.string _) <|
    .required (Placing.keeps hlayout) <|
    .defaulted (.real hstart) <|
    .required (.real hduration) <|
    .optional (fun _ _ => .string _) rfl <|
    .optional (fun x hx => .real (hfontSize x hx)) rfl <|
    .optional (fun _ _ => .string _) rfl <|
    .optional (fun _ _ => .string _) rfl <|
    .nil _

theorem Figure.keeps {e : Figure Float} (h : ∀ x ∈ e.reals, P x) :
    Figure.record.codec.Keeps P (d + 3) e := by
  simp only [Figure.reals, List.forall_mem_append, List.forall_mem_cons, List.forall_mem_flatMap,
    Option.mem_toList] at h
  obtain ⟨⟨⟨⟨hlayout, hstart, hduration, -⟩, hwidth⟩, hhead⟩, hpoints⟩ := h
  exact Record.keeps (by decide) <|
    .required (.word _) <|
    .required (ShapePlacing.keeps hlayout) <|
    .defaulted (.real hstart) <|
    .required (.real hduration) <|
    .optional (fun _ _ => .string _) rfl <|
    .optional (fun _ _ => .bool _) rfl <|
    .optional (fun x hx => .real (hwidth x hx)) rfl <|
    .optional (fun x hx => .real (hhead x hx)) rfl <|
    .listed (.list fun p hp => Point.keeps (hpoints p hp)) rfl <|
    .nil _

theorem Item.keeps {i : Item Float} (h : ∀ x ∈ i.reals, P x) :
    Item.record.codec.Keeps P (d + 1) i := by
  simp only [Item.reals, List.forall_mem_append, Option.mem_toList] at h
  obtain ⟨⟨hfontSize, hstart⟩, hduration⟩ := h
  exact Record.keeps (by decide) <|
    .required (.word _) <|
    .optional (fun _ _ => .string _) rfl <|
    .optional (fun _ _ => .string _) rfl <|
    .optional (fun _ _ => .string _) rfl <|
    .optional (fun x hx => .real (hfontSize x hx)) rfl <|
    .optional (fun _ _ => .string _) rfl <|
    .optional (fun _ _ => .string _) rfl <|
    .optional (fun x hx => .real (hstart x hx)) rfl <|
    .optional (fun x hx => .real (hduration x hx)) rfl <|
    .nil _

theorem Group.keeps {e : Group Float} (h : ∀ x ∈ e.reals, P x) :
    Group.record.codec.Keeps P (d + 3) e := by
  simp only [Group.reals, List.forall_mem_append, List.forall_mem_cons, List.forall_mem_flatMap] at h
  obtain ⟨⟨hlayout, hitems⟩, hstart, hduration, -⟩ := h
  exact Record.keeps (by decide) <|
    .required (Flow.keeps hlayout) <|
    .defaulted (.list fun i hi => Item.keeps (hitems i hi)) <|
    .defaulted (.real hstart) <|
    .required (.real hduration) <|
    .nil _

theorem Element.keeps {e : Element Float} (h : ∀ x ∈ e.reals, P x) :
    Element.tagged.codec.Keeps P 3 e := by
  cases e with
  | svg e => exact Tagged.keeps rfl rfl rfl (by decide) (Picture.keeps h _) (by decide)
  | text e => exact Tagged.keeps rfl rfl rfl (by decide) (TextLine.keeps h) (by decide)
  | shape e => exact Tagged.keeps rfl rfl rfl (by decide) (Figure.keeps h) (by decide)
  | image e => exact Tagged.keeps rfl rfl rfl (by decide) (Picture.keeps h _) (by decide)
  | group e => exact Tagged.keeps rfl rfl rfl (by decide) (Group.keeps h) (by decide)

theorem Scene.keeps {s : Scene Float} (h : ∀ x ∈ s.reals, P x) :
    Scene.record.codec.Keeps P 5 s := by
  simp only [Scene.reals, List.forall_mem_append, List.forall_mem_cons, List.forall_mem_flatMap,
    Option.mem_toList] at h
  obtain ⟨⟨⟨hstart, hduration, -⟩, haudio⟩, helements⟩ := h
  exact Record.keeps (by decide) <|
    .required (.string _) <|
    .required (.string _) <|
    .required (.real hstart) <|
    .required (.real hduration) <|
    .optional (fun _ _ => .string _) rfl <|
    .optional (fun t ht => Soundtrack.keeps (haudio t ht)) rfl <|
    .defaulted (.list fun e he => Element.keeps (helements e he)) <|
    .nil _

theorem Spec.keeps {s : Spec Float} (h : ∀ x ∈ s.reals, P x) :
    Spec.record.codec.Keeps P 7 s := by
  simp only [Spec.reals, List.forall_mem_append, List.forall_mem_flatMap] at h
  obtain ⟨hassets, hscenes⟩ := h
  exact Record.keeps (by decide) <|
    .required (Heading.keeps _) <|
    .defaulted (Sources.keeps hassets) <|
    .defaulted (.list fun s hs => Scene.keeps (hscenes s hs)) <|
    .nil _

end Storyboard
