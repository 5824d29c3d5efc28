import Storyboard.Proofs.Enlarging
import Storyboard.Proofs.Fitting

set_option autoImplicit false

namespace Storyboard

def Fitted.ofEnlarged (k : Rat) (f : Fitted Rat) : Fitted Rat := ⟨f.box, f.scale / k⟩

/-- The fault of an element names the size that it came in. -/
def Fault.ofEnlarged (k : Rat) : Fault Rat → Fault Rat
  | .degenerateElement size => .degenerateElement (size.enlarge k)
  | f => f

namespace Member

def enlarge (k : Rat) (m : Member Rat) : Member Rat := .ofSize m.id (m.size.enlarge k)

/-- Each item as many times as large as its own factor says. -/
def enlargeAll (factors : List Rat) (items : List (Member Rat)) : List (Member Rat) :=
  factors.zipWith enlarge items

end Member

theorem Size.aspect_enlarge {k : Rat} (hk : 0 < k) (size : Size Rat) :
    (size.enlarge k).width / (size.enlarge k).height = size.width / size.height :=
  mul_div_mul_right _ _ hk.ne'

theorem Scalar.foldl_greatest_mul {k : Rat} (hk : 0 < k) (start : Rat) (ps : List Rat) :
    (ps.map (· * k)).foldl greatest (start * k) = ps.foldl greatest start * k := by
  induction ps generalizing start with
  | nil => rfl
  | cons p ps ih =>
    have hstep : greatest (start * k) (p * k) = greatest start p * k := by
      rw [rat_greatest, rat_greatest, max_mul_of_nonneg _ _ hk.le]
    rw [List.map_cons, List.foldl_cons, hstep, ih, List.foldl_cons]

namespace Member

theorem Regular.enlarge {m : Member Rat} (h : m.Regular) {k : Rat} (hk : 0 < k) :
    (m.enlarge k).Regular := by
  refine create_eq_ok_iff.mpr ⟨?_, rfl⟩
  exact (Size.proper_enlarge hk m.size).trans h.size_proper

theorem Regular.aspect_enlarge {m : Member Rat} (h : m.Regular) {k : Rat} (hk : 0 < k) :
    (m.enlarge k).aspect = m.aspect := by
  rw [h.aspect_eq]
  exact Size.aspect_enlarge hk m.size

section EnlargeAll
variable {factors : List Rat} {items : List (Member Rat)} (h : factors.length = items.length)
include h

theorem length_enlargeAll : (enlargeAll factors items).length = items.length := by
  rw [enlargeAll, List.length_zipWith, h, min_self]

theorem forall₂_enlargeAll (hreg : ∀ m ∈ items, m.Regular) :
    List.Forall₂ (fun m m' => m.Regular ∧ ∃ k ∈ factors, m.enlarge k = m') items
      (enlargeAll factors items) := by
  induction factors generalizing items with
  | nil =>
    rw [List.length_eq_zero_iff.mp h.symm]
    exact .nil
  | cons k factors ih =>
    obtain ⟨m, items, rfl⟩ := List.exists_cons_of_length_eq_add_one h.symm
    rw [List.forall_mem_cons] at hreg
    refine .cons ⟨hreg.1, k, List.mem_cons_self, rfl⟩ ((ih (Nat.succ_inj.mp h) hreg.2).imp ?_)
    rintro m m' ⟨hm, l, hl, rfl⟩
    exact ⟨hm, l, List.mem_cons_of_mem _ hl, rfl⟩

variable (hreg : ∀ m ∈ items, m.Regular)
include hreg

theorem map_id_enlargeAll : (enlargeAll factors items).map id = items.map id := by
  symm
  refine forall₂_map_eq ((forall₂_enlargeAll h hreg).imp ?_)
  rintro m m' ⟨-, k, -, rfl⟩
  rfl

theorem map_enlarge_of_common {c : Rat} (hc : ∀ k ∈ factors, k = c) :
    items.map (Member.enlarge c) = enlargeAll factors items := by
  conv_rhs => rw [← List.map_id (enlargeAll factors items)]
  refine forall₂_map_eq ((forall₂_enlargeAll h hreg).imp ?_)
  rintro m m' ⟨-, k, hk, rfl⟩
  rw [hc k hk]
  rfl

variable (hpos : ∀ k ∈ factors, 0 < k)
include hpos

theorem regular_enlargeAll : ∀ m ∈ enlargeAll factors items, m.Regular := by
  refine forall_mem_of_forall₂ (forall₂_enlargeAll h hreg) ?_
  rintro m - m' ⟨hm, k, hk, rfl⟩
  exact hm.enlarge (hpos k hk)

theorem map_aspect_enlargeAll : (enlargeAll factors items).map aspect = items.map aspect := by
  symm
  refine forall₂_map_eq ((forall₂_enlargeAll h hreg).imp ?_)
  rintro m m' ⟨hm, k, hk, rfl⟩
  exact (hm.aspect_enlarge (hpos k hk)).symm

end EnlargeAll

theorem putAll_enlargeAll (d : Direction) (align : Align) (content : Box Rat) (step cursor : Rat)
    {factors : List Rat} {items : List (Member Rat)} (h : factors.length = items.length)
    (sizes : List (Size Rat)) :
    putAll d align content step cursor ((enlargeAll factors items).zip sizes) =
      factors.zipWith Fitted.ofEnlarged (putAll d align content step cursor (items.zip sizes)) := by
  induction factors generalizing items sizes cursor with
  | nil =>
    rw [List.length_eq_zero_iff.mp h.symm]
    rfl
  | cons k factors ih =>
    obtain ⟨m, items, rfl⟩ := List.exists_cons_of_length_eq_add_one h.symm
    cases sizes with
    | nil => rfl
    | cons size sizes =>
      -- the cursor moves on by the size that is given, whatever the item came in
      have hrest := ih (cursor + ((d.extent size).main + step)) (Nat.succ_inj.mp h) sizes
      have hscale : size.width / (m.size.width * k) = size.width / m.size.width / k :=
        div_mul_eq_div_div _ _ _
      rw [enlargeAll] at hrest
      rw [enlargeAll, List.zipWith_cons_cons, List.zip_cons_cons, List.zip_cons_cons, putAll_cons,
        putAll_cons, List.zipWith_cons_cons, hrest]
      exact congrArg (fun scale => Fitted.mk _ scale :: _) hscale

end Member

namespace Sizing
variable {d : Direction} {items items' : List (Member Rat)} {main cap gap : Rat}

theorem sizes_of_map_aspect {z : Sizing} (hz : z ≠ .intrinsic)
    (h : items'.map Member.aspect = items.map Member.aspect) :
    z.sizes d items' main cap gap = z.sizes d items main cap gap := by
  have hlength : items'.length = items.length := by simpa using congrArg List.length h
  have hmap (f : Rat → Size Rat) :
      (items'.map fun m => f m.aspect) = items.map fun m => f m.aspect := by
    have hf := congrArg (List.map f) h
    simpa only [List.map_map, Function.comp_def] using hf
  cases z with
  | uniform =>
    rw [uniform_sizes, uniform_sizes, meanAspect, meanAspect, h, hlength]
    exact hmap fun _ => _
  | intrinsic => contradiction
  | fill =>
    rw [fill_sizes, fill_sizes, hlength]
    exact hmap fun aspect => d.shareSize aspect (share items.length main gap) cap

section Common
variable {c : Rat} (hc : 0 < c)
include hc

theorem factor_enlarge (d : Direction) (items : List (Member Rat)) (main cap gap : Rat) :
    factor d (items.map (Member.enlarge c)) main cap gap = factor d items main cap gap / c := by
  have hextent (m : Member Rat) : d.extent (m.enlarge c).size = (d.extent m.size).enlarge c :=
    d.extent_enlarge m.size
  have hsum : ((items.map (Member.enlarge c)).map fun m => (d.extent m.size).main).sum =
      (items.map fun m => (d.extent m.size).main).sum * c := by
    simp only [List.map_map, Function.comp_def, hextent, Extent.enlarge, List.sum_map_mul_right]
  have hwidest : widest d (items.map (Member.enlarge c)) = widest d items * c := by
    have hmul := Scalar.foldl_greatest_mul hc 0 (items.map fun m => (d.extent m.size).cross)
    rw [zero_mul] at hmul
    simpa only [widest, List.map_map, Function.comp_def, hextent, Extent.enlarge] using hmul
  rw [factor, hsum, hwidest, div_mul_eq_div_div, div_mul_eq_div_div, min_div_div_right hc.le,
    List.length_map, factor]

theorem intrinsic_sizes_enlarge :
    intrinsic.sizes d (items.map (Member.enlarge c)) main cap gap =
      intrinsic.sizes d items main cap gap := by
  rw [intrinsic_sizes, intrinsic_sizes, factor_enlarge hc, List.map_map]
  refine List.map_congr_left fun m _ => ?_
  have hside (x : Rat) :
      x * c * (factor d items main cap gap / c) = x * factor d items main cap gap := by
    rw [mul_assoc, mul_div_cancel₀ _ hc.ne']
  exact congrArg₂ Size.mk (hside m.size.width) (hside m.size.height)

end Common

theorem sizes_enlargeAll {z : Sizing} {factors : List Rat} (h : factors.length = items.length)
    (hreg : ∀ m ∈ items, m.Regular) (hpos : ∀ k ∈ factors, 0 < k)
    (hcommon : z = .intrinsic → ∃ c, ∀ k ∈ factors, k = c) :
    z.sizes d (Member.enlargeAll factors items) main cap gap = z.sizes d items main cap gap := by
  by_cases hz : z = .intrinsic
  · -- sizes are what counts here, not aspects: only a common factor cancels
    obtain ⟨c, hc⟩ := hcommon hz
    rw [hz, ← Member.map_enlarge_of_common h hreg hc]
    cases factors with
    | nil => rw [List.length_eq_zero_iff.mp h.symm, List.map_nil]
    | cons k factors =>
      have hk : k = c := hc k List.mem_cons_self
      exact intrinsic_sizes_enlarge (hk ▸ hpos k List.mem_cons_self)
  · exact sizes_of_map_aspect hz (Member.map_aspect_enlargeAll h hreg hpos)

end Sizing

namespace Stage
variable {s : Stage Rat} {k : Rat}

theorem fit_ofEnlarged (hk : 0 < k) (layout : Placing Rat) (size : Size Rat) :
    s.fit layout (size.enlarge k) =
      ((s.fit layout size).map (Fitted.ofEnlarged k)).mapError (Fault.ofEnlarged k) := by
  unfold fit
  rw [Size.proper_enlarge hk, Size.aspect_enlarge hk]
  split
  · dsimp only
    generalize Size.largest (size.width / size.height) (s.room layout) = fitted
    have hscale : fitted.width / (size.enlarge k).width = fitted.width / size.width / k :=
      div_mul_eq_div_div _ _ _
    rw [hscale]
    rfl
  · rfl

section EnlargeAll
variable {layout : Flow Rat} {items : List (Member Rat)} {factors : List Rat}
  (h : factors.length = items.length) (hreg : ∀ m ∈ items, m.Regular)
  (hpos : ∀ k ∈ factors, 0 < k)
  (hcommon : layout.sizing.getD default = .intrinsic → ∃ c, ∀ k ∈ factors, k = c)
include h hreg hpos hcommon

theorem groupSizes_enlargeAll :
    s.groupSizes layout (Member.enlargeAll factors items) = s.groupSizes layout items :=
  Sizing.sizes_enlargeAll h hreg hpos hcommon

theorem groupPlaces_enlargeAll :
    s.groupPlaces layout (Member.enlargeAll factors items) =
      factors.zipWith Fitted.ofEnlarged (s.groupPlaces layout items) := by
  unfold groupPlaces groupSpacing
  rw [groupSizes_enlargeAll h hreg hpos hcommon, Member.length_enlargeAll h]
  exact Member.putAll_enlargeAll _ _ _ _ _ h _

theorem arrange_enlargeAll :
    s.arrange layout (Member.enlargeAll factors items) =
      (s.arrange layout items).map (factors.zipWith Fitted.ofEnlarged) := by
  have hsizes := groupSizes_enlargeAll (s := s) h hreg hpos hcommon
  cases ha : s.arrange layout items with
  | error f =>
    have hfailure := s.failure?_arrange_ids layout (Member.enlargeAll factors items)
    rw [Member.map_id_enlargeAll h hreg, hsizes, Member.length_enlargeAll h,
      ← failure?_arrange_ids, ha] at hfailure
    exact failure?_eq_some_iff.mp hfailure
  | ok fitted =>
    obtain ⟨hproper, rfl⟩ := (s.arrange_eq_ok_iff layout items fitted).mp ha
    refine (s.arrange_eq_ok_iff layout _ _).mpr ⟨?_, ?_⟩
    · rwa [hsizes]
    · exact (groupPlaces_enlargeAll h hreg hpos hcommon).symm

end EnlargeAll

/-- Only proportions count. Something of `k` times the size comes to the same box, at a `k`th of the
scale. Items of a group may each be some times larger, all as many times if they keep their sizes to
each other: they fail as before, or come to the same boxes, each at its own part of its scale. -/
theorem layouts_ofEnlarged (s : Stage Rat) :
    (∀ layout size, ∀ k : Rat, 0 < k → s.fit layout (size.enlarge k) =
      ((s.fit layout size).map (Fitted.ofEnlarged k)).mapError (Fault.ofEnlarged k)) ∧
    ∀ (layout : Flow Rat) (items : List (Member Rat)) (factors : List Rat),
      (∀ m ∈ items, Member.create m.id m.size = .ok m) →
      factors.length = items.length → (∀ k ∈ factors, 0 < k) →
      (layout.sizing.getD default = .intrinsic → ∃ c, ∀ k ∈ factors, k = c) →
      (∀ m ∈ Member.enlargeAll factors items, Member.create m.id m.size = .ok m) ∧
      (∀ f, s.placesById layout (Member.enlargeAll factors items) = .error f ↔
        s.placesById layout items = .error f) ∧
      ∀ places, s.placesById layout items = .ok places →
        ∃ enlarged, s.placesById layout (Member.enlargeAll factors items) = .ok enlarged ∧
          enlarged.names = places.names ∧
          ∀ id i, Table.LastAt (items.map Member.id) id i → ∃ f k, factors[i]? = some k ∧
            places.get? id = some f ∧ enlarged.get? id = some (f.ofEnlarged k) := by
  refine ⟨fun layout size k hk => fit_ofEnlarged hk layout size,
    fun layout items factors hreg h hpos hcommon => ?_⟩
  have harrange := arrange_enlargeAll (s := s) h hreg hpos hcommon
  unfold placesById
  rw [harrange, Member.map_id_enlargeAll h hreg]
  refine ⟨Member.regular_enlargeAll h hreg hpos, fun f => ?_, fun places hplaces => ?_⟩
  · cases s.arrange layout items <;> simp [Except.map]
  obtain ⟨fitted, ha, rfl⟩ := map_eq_ok_iff.mp hplaces
  have hfitted : (items.map Member.id).length = fitted.length := by
    rw [List.length_map, length_of_arrange ha]
  have hscaled : (items.map Member.id).length =
      (factors.zipWith Fitted.ofEnlarged fitted).length := by
    rw [List.length_zipWith, ← hfitted, h, List.length_map, min_self]
  rw [ha]
  refine ⟨_, rfl, Table.names_ofList_of_map_fst ?_, fun id i hi => ?_⟩
  · rw [List.map_fst_zip hscaled.le, List.map_fst_zip hfitted.le]
  · obtain ⟨f, hf, hget⟩ := Table.exists_get?_ofList_zip hfitted hi
    obtain ⟨g, hg, hgetScaled⟩ := Table.exists_get?_ofList_zip hscaled hi
    obtain ⟨k, f', hk, hf', rfl⟩ := List.getElem?_zipWith_eq_some.mp hg
    obtain rfl : f = f' := Option.some.inj (hf.symm.trans hf')
    exact ⟨f, k, hk, hget, hgetScaled⟩

theorem lighthouse_and_sky_ofEnlarged :
    (∃ fitted, lighthouse.1.fit lighthouse.2.1 lighthouse.2.2 = .ok fitted ∧
      lighthouse.1.fit lighthouse.2.1 (lighthouse.2.2.enlarge (1 / 100)) =
        .ok (fitted.ofEnlarged (1 / 100))) ∧
    (∃ places enlarged, sky.1.placesById sky.2.1 sky.2.2 = .ok places ∧
      sky.1.placesById sky.2.1 (Member.enlargeAll [4, 4, 4] sky.2.2) = .ok enlarged ∧
      ∃ f, places.get? "kite" = some f ∧ enlarged.get? "kite" = some (f.ofEnlarged 4)) ∧
    ∃ places enlarged,
      sky.1.placesById { sky.2.1 with sizing := some .fill } sky.2.2 = .ok places ∧
      sky.1.placesById { sky.2.1 with sizing := some .fill }
        (Member.enlargeAll [2, 1 / 3, 10] sky.2.2) = .ok enlarged ∧
      ∃ f, places.get? "kite" = some f ∧ enlarged.get? "kite" = some (f.ofEnlarged 10) := by
  have hkite : Table.LastAt ["sun", "cloud", "kite"] "kite" 2 :=
    ⟨rfl, fun j hj => by rw [List.getElem?_eq_none hj]; simp⟩
  refine ⟨?_, ?_, ?_⟩
  · have h : (lighthouse.1.fit lighthouse.2.1 lighthouse.2.2).toOption.isSome := by decide +kernel
    obtain ⟨fitted, hfitted⟩ := isSome_toOption_iff.mp h
    have hsmall := (layouts_ofEnlarged lighthouse.1).1 lighthouse.2.1 lighthouse.2.2 (1 / 100)
      (by norm_num)
    rw [hfitted] at hsmall
    exact ⟨fitted, hfitted, hsmall⟩
  · have h : (sky.1.placesById sky.2.1 sky.2.2).toOption.isSome := by decide +kernel
    obtain ⟨places, hplaces⟩ := isSome_toOption_iff.mp h
    obtain ⟨-, -, hok⟩ := (layouts_ofEnlarged sky.1).2 sky.2.1 sky.2.2 [4, 4, 4] sky_regular rfl
      (by simp) fun _ => ⟨4, by simp⟩
    obtain ⟨enlarged, henlarged, -, hget⟩ := hok places hplaces
    obtain ⟨f, k, hk, hf, hfk⟩ := hget "kite" 2 hkite
    obtain rfl : 4 = k := Option.some.inj hk
    exact ⟨places, enlarged, hplaces, henlarged, f, hf, hfk⟩
  · have h : (sky.1.placesById { sky.2.1 with sizing := some .fill }
        sky.2.2).toOption.isSome := by
      decide +kernel
    obtain ⟨places, hplaces⟩ := isSome_toOption_iff.mp h
    obtain ⟨-, -, hok⟩ := (layouts_ofEnlarged sky.1).2 { sky.2.1 with sizing := some .fill } sky.2.2
      [2, 1 / 3, 10] sky_regular rfl (by simp) (by simp)
    obtain ⟨enlarged, henlarged, -, hget⟩ := hok places hplaces
    obtain ⟨f, k, hk, hf, hfk⟩ := hget "kite" 2 hkite
    obtain rfl : 10 = k := Option.some.inj hk
    exact ⟨places, enlarged, hplaces, henlarged, f, hf, hfk⟩

end Stage
end Storyboard
