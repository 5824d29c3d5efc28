import Storyboard.Proofs.Group
import Storyboard.Proofs.Placement

set_option autoImplicit false

namespace Storyboard
variable {α : Type}

def Member.relabel (ids : List String) (items : List (Member α)) : List (Member α) :=
  ids.zipWith (fun id m => { m with id }) items

namespace Member
variable {ids : List String} {items : List (Member α)}

theorem map_id_relabel (h : ids.length = items.length) : (relabel ids items).map id = ids := by
  induction ids generalizing items with
  | nil => rfl
  | cons i ids ih =>
    obtain ⟨m, items, rfl⟩ := List.exists_cons_of_length_eq_add_one h.symm
    exact congrArg (i :: ·) (ih (Nat.succ_inj.mp h))

theorem map_unnamed_relabel (h : ids.length = items.length) :
    (relabel ids items).map unnamed = items.map unnamed := by
  induction ids generalizing items with
  | nil => rw [List.length_eq_zero_iff.mp h.symm, relabel, List.zipWith_nil_left]
  | cons i ids ih =>
    obtain ⟨m, items, rfl⟩ := List.exists_cons_of_length_eq_add_one h.symm
    exact congrArg (m.unnamed :: ·) (ih (Nat.succ_inj.mp h))

end Member

namespace Stage
variable [Scalar α] {s : Stage α} {layout : Flow α} {items : List (Member α)} {ids : List String}

theorem arrange_relabel_eq_ok_iff (h : ids.length = items.length) {fitted : List (Fitted α)} :
    s.arrange layout (Member.relabel ids items) = .ok fitted ↔
      s.arrange layout items = .ok fitted := by
  rw [← arrange_map_unnamed_eq_ok_iff, Member.map_unnamed_relabel h, arrange_map_unnamed_eq_ok_iff]

theorem placesById_relabel_eq_ok_iff (h : ids.length = items.length)
    {places : Table (Fitted α)} :
    s.placesById layout (Member.relabel ids items) = .ok places ↔
      ∃ fitted, s.arrange layout items = .ok fitted ∧ Table.ofList (ids.zip fitted) = places := by
  rw [placesById, map_eq_ok_iff, Member.map_id_relabel h]
  simp only [arrange_relabel_eq_ok_iff h]

/-- Ids are only labels. Under different ids every item of a group has a place. Under any others the
group is laid out if it was under those, to the same places: each id is found once, with the place of
the last item that has it. -/
theorem placesById_relabel (s : Stage α) (layout : Flow α) (items : List (Member α))
    (hids : ids.Nodup) (hlength : ids.length = items.length) :
    (∀ labels : List String, labels.length = items.length →
      ((∃ places, s.placesById layout (Member.relabel labels items) = .ok places) ↔
        ∃ places, s.placesById layout (Member.relabel ids items) = .ok places)) ∧
    ∀ places, s.placesById layout (Member.relabel ids items) = .ok places →
      ∃ fitted : List (Fitted α),
        List.Forall₂ (fun id f => places.get? id = some f) ids fitted ∧
        ∀ labels : List String, labels.length = items.length →
          ∃ labelled, s.placesById layout (Member.relabel labels items) = .ok labelled ∧
            labelled.names.Pairwise (· < ·) ∧ (∀ id, id ∈ labelled.names ↔ id ∈ labels) ∧
            ∀ id ∈ labels, ∃ i f, Table.LastAt labels id i ∧ fitted[i]? = some f ∧
              labelled.get? id = some f := by
  have hok (labels : List String) (h : labels.length = items.length) :
      (∃ places, s.placesById layout (Member.relabel labels items) = .ok places) ↔
        ∃ fitted, s.arrange layout items = .ok fitted := by
    simp only [placesById_relabel_eq_ok_iff h]
    exact ⟨fun ⟨_, fitted, ha, _⟩ => ⟨fitted, ha⟩, fun ⟨fitted, ha⟩ => ⟨_, fitted, ha, rfl⟩⟩
  refine ⟨fun labels hlabels => (hok labels hlabels).trans (hok ids hlength).symm,
    fun places h => ?_⟩
  obtain ⟨fitted, ha, rfl⟩ := (placesById_relabel_eq_ok_iff hlength).mp h
  have hfitted := length_of_arrange ha
  refine ⟨fitted, Table.forall₂_get?_ofList_zip (hlength.trans hfitted.symm) hids,
    fun labels hlabels => ?_⟩
  have hzip : labels.length = fitted.length := hlabels.trans hfitted.symm
  refine ⟨_, (placesById_relabel_eq_ok_iff hlabels).mpr ⟨fitted, ha, rfl⟩,
    Table.pairwise_names_ofList _, fun id => ?_, fun id hid => ?_⟩
  · rw [Table.mem_names_ofList_iff, List.map_fst_zip hzip.le]
  · obtain ⟨i, hi⟩ := Table.exists_lastAt_of_mem hid
    obtain ⟨f, hf, hget⟩ := Table.exists_get?_ofList_zip hzip hi
    exact ⟨i, f, hi, hf, hget⟩

theorem sky_relabel :
    ∃ places labelled,
      sky.1.placesById sky.2.1 (Member.relabel ["left", "middle", "right"] sky.2.2) = .ok places ∧
      sky.1.placesById sky.2.1 (Member.relabel ["cloud", "kite", "cloud"] sky.2.2) = .ok labelled ∧
      (∀ id, id ∈ labelled.names ↔ id ∈ ["cloud", "kite", "cloud"]) ∧
      labelled.get? "cloud" = places.get? "right" := by
  have h : (sky.1.placesById sky.2.1
      (Member.relabel ["left", "middle", "right"] sky.2.2)).toOption.isSome := by
    decide +kernel
  obtain ⟨places, hplaces⟩ := isSome_toOption_iff.mp h
  obtain ⟨fitted, hfound, hlabels⟩ :=
    (placesById_relabel sky.1 sky.2.1 sky.2.2 (by decide) rfl).2 places hplaces
  obtain ⟨labelled, hlabelled, -, hnames, hlast⟩ := hlabels ["cloud", "kite", "cloud"] rfl
  refine ⟨places, labelled, hplaces, hlabelled, hnames, ?_⟩
  obtain ⟨i, f, hi, hf, hget⟩ := hlast "cloud" (by decide)
  have hcloud : Table.LastAt ["cloud", "kite", "cloud"] "cloud" 2 :=
    ⟨rfl, fun j hj => by rw [List.getElem?_eq_none hj]; simp⟩
  obtain rfl := hi.unique hcloud
  rcases hfound with _ | ⟨-, _ | ⟨-, _ | ⟨hright, -⟩⟩⟩
  rw [hget, hright, ← hf]
  rfl

end Stage
end Storyboard
