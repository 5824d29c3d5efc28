import Mathlib.Data.List.Basic
import Storyboard.Host.Disk
import Storyboard.Proofs.Host
import Storyboard.Proofs.Traversal

set_option autoImplicit false

namespace Storyboard

namespace Text

theorem splitChars_ne_nil (sep : Char) (cs : List Char) : splitChars sep cs ≠ [] := by
  cases cs with
  | nil => exact List.cons_ne_nil _ _
  | cons c cs =>
    unfold splitChars
    split
    · exact List.cons_ne_nil _ _
    · split <;> exact List.cons_ne_nil _ _

theorem getLast?_of_getLast?_splitChars {sep : Char} {cs : List Char}
    (h : (splitChars sep cs).getLast? = some []) : cs = [] ∨ cs.getLast? = some sep := by
  induction cs with
  | nil => exact .inl rfl
  | cons c cs ih =>
    right
    obtain ⟨piece, pieces, hsplit⟩ := List.exists_cons_of_ne_nil (splitChars_ne_nil sep cs)
    rw [List.getLast?_cons]
    by_cases hc : c = sep
    · rw [splitChars, if_pos hc, hsplit, List.getLast?_cons_cons, ← hsplit] at h
      rcases ih h with rfl | hlast
      · exact congrArg some hc
      · rw [hlast]
        rfl
    · rw [splitChars, if_neg hc, hsplit] at h
      cases pieces with
      | nil => cases h
      | cons next pieces =>
        rw [List.getLast?_cons_cons, ← List.getLast?_cons_cons (a := piece), ← hsplit] at h
        rcases ih h with rfl | hlast
        · cases hsplit
        · rw [hlast]
          rfl

end Text

namespace Path

/-- The last part of a path is a name, unless the path is empty or can only be a folder. -/
theorem getLast?_parts_ne {path : String} (hne : path ≠ "") (h : endsInSlash path = false) :
    (parts path).getLast? ≠ some "" := by
  intro hlast
  rw [parts, Text.split, List.getLast?_map, Option.map_eq_some_iff] at hlast
  obtain ⟨piece, hpiece, hempty⟩ := hlast
  have hnil : piece = [] := by simpa using congrArg String.toList hempty
  rcases Text.getLast?_of_getLast?_splitChars (hnil ▸ hpiece) with hpath | hslash
  · exact hne (String.toList_eq_nil_iff.mp hpath)
  · simp [endsInSlash, hslash] at h

theorem reverse_dropWhile_parts {path name : String} (hslash : endsInSlash path = false)
    (h : ((parts path).reverse.dropWhile (· == "")).reverse.getLast? = some name) :
    ((parts path).reverse.dropWhile (· == "")).reverse = parts path ∧ name ≠ "" := by
  have hne : path ≠ "" := by
    rintro rfl
    have hempty : (parts "").reverse.dropWhile (· == "") = [] := by decide
    rw [hempty] at h
    cases h
  have hlast := getLast?_parts_ne hne hslash
  rw [← List.head?_reverse] at hlast
  have hwhole : (parts path).reverse.dropWhile (· == "") = (parts path).reverse := by
    cases hp : (parts path).reverse with
    | nil => rfl
    | cons last rest =>
      rw [hp] at hlast
      exact List.dropWhile_cons_of_neg (by simpa using hlast)
  rw [hwhole] at h ⊢
  refine ⟨List.reverse_reverse _, ?_⟩
  rintro rfl
  rw [List.getLast?_reverse] at h
  exact hlast h

end Path

namespace Disk

structure Within (d d' : Disk) : Prop where
  file : ∀ p, d.isFile p = true → d'.isFile p = true
  folder : ∀ p, d.isFolder p = true → d'.isFolder p = true

theorem step_eq_ok_iff {d : Disk} {p q : Place} {part : String} :
    d.step p part = .ok q ↔ d.isFolder p = true ∧
      if part = "" ∨ part = "." then q = p
      else if part = ".." then q = p.dropLast
      else fits part = true ∧
        (d.isFile (p ++ [part]) = true ∨ d.isFolder (p ++ [part]) = true) ∧ q = p ++ [part] := by
  unfold step
  cases hp : d.isFolder p with
  | false => simp
  | true =>
    rw [← Bool.or_eq_true]
    simp only [Bool.not_true, Bool.false_eq_true, if_false, true_and]
    split_ifs with hdot hup hlong hthere
    · rw [Except.ok.injEq, eq_comm]
    · rw [Except.ok.injEq, eq_comm]
    · rw [Bool.not_eq_true'] at hlong
      simp [hlong]
    · rw [Bool.not_eq_true, Bool.not_eq_false'] at hlong
      rw [and_iff_right hlong, and_iff_right hthere, Except.ok.injEq, eq_comm]
    · simp [hthere]

theorem Within.step_eq_ok {d d' : Disk} (h : d.Within d') {p q : Place} {part : String}
    (hstep : d.step p part = .ok q) : d'.step p part = .ok q := by
  rw [step_eq_ok_iff] at hstep ⊢
  refine ⟨h.folder p hstep.1, ?_⟩
  have hnext := hstep.2
  split_ifs at hnext ⊢
  · exact hnext
  · exact hnext
  · exact ⟨hnext.1, hnext.2.1.imp (h.file _) (h.folder _), hnext.2.2⟩

theorem Within.foldlM_step_eq_ok {d d' : Disk} (h : d.Within d') {ps : List String} {p q : Place}
    (hwalk : ps.foldlM d.step p = .ok q) : ps.foldlM d'.step p = .ok q := by
  induction ps generalizing p with
  | nil => exact hwalk
  | cons part ps ih =>
    rw [List.foldlM_cons] at hwalk ⊢
    obtain ⟨next, hstep, hrest⟩ := bind_eq_ok_iff.mp hwalk
    exact bind_eq_ok_iff.mpr ⟨next, h.step_eq_ok hstep, ih hrest⟩

def put (d : Disk) (p : Place) (content : ByteArray) : Disk :=
  { d with files := (p, content) :: d.files.filter fun (q, _) => q != p }

theorem content?_put_self (d : Disk) (p : Place) (content : ByteArray) :
    (d.put p content).content? p = some content := by
  simp [content?, put]

theorem lookup_filter_of_ne {p q : Place} (hne : q ≠ p) (files : List (Place × ByteArray)) :
    (files.filter fun (r, _) => r != p).lookup q = files.lookup q := by
  induction files with
  | nil => rfl
  | cons entry files ih =>
    obtain ⟨r, content⟩ := entry
    by_cases hr : r = p
    · simp [hr, ih, List.lookup_cons, beq_false_of_ne hne]
    · simp [hr, ih, List.lookup_cons]

theorem content?_put_of_ne {d : Disk} {p q : Place} {content : ByteArray} (hne : q ≠ p) :
    (d.put p content).content? q = d.content? q := by
  unfold content? put
  rw [List.lookup_cons, beq_false_of_ne hne]
  exact lookup_filter_of_ne hne d.files

theorem within_put (d : Disk) (p : Place) (content : ByteArray) : d.Within (d.put p content) where
  file q hq := by
    unfold isFile at hq ⊢
    by_cases hne : q = p
    · rw [hne, content?_put_self]
      rfl
    · rwa [content?_put_of_ne hne]
  folder q hq := by
    simp only [isFolder, Bool.or_eq_true, List.any_eq_true, Bool.and_eq_true, put] at hq ⊢
    refine hq.imp_right ?_
    rintro ⟨⟨r, content⟩, hr, hbelow⟩
    by_cases hne : r = p
    · exact ⟨(p, _), List.mem_cons_self, hne ▸ hbelow⟩
    · exact ⟨(r, content), List.mem_cons_of_mem _ (List.mem_filter.mpr ⟨hr, by simpa using hne⟩),
        hbelow⟩

theorem locate_eq_ok {d : Disk} {path name : String} {folder : Place}
    (h : d.locate path = .ok (folder, some name)) (hslash : Path.endsInSlash path = false) :
    ∃ start way, d.start path = .ok start ∧ Path.parts path = way ++ [name] ∧
      way.foldlM d.step start = .ok folder ∧ d.isFolder folder = true ∧
      name ≠ "" ∧ name ≠ "." ∧ name ≠ ".." := by
  unfold locate at h
  obtain ⟨start, hstart, h⟩ := bind_eq_ok_iff.mp h
  obtain ⟨found, hwalk, h⟩ := bind_eq_ok_iff.mp h
  obtain ⟨hfolder, h⟩ := guard_eq_ok_iff.mp h
  simp only [pure, Except.pure, Except.ok.injEq, Prod.mk.injEq, Option.filter_eq_some_iff,
    Bool.and_eq_true, bne_iff_ne] at h
  obtain ⟨rfl, hlast, hdots⟩ := h
  obtain ⟨hparts, hname⟩ := Path.reverse_dropWhile_parts hslash hlast
  rw [hparts] at hwalk hlast
  exact ⟨start, (Path.parts path).dropLast, hstart,
    (List.dropLast_append_getLast? name hlast).symm, hwalk, by simpa using hfolder, hname, hdots⟩

theorem isSome_write (d : Disk) (path text text' : String) :
    (d.write path text).toOption.isSome = (d.write path text').toOption.isSome := by
  unfold write
  rcases d.locate path with e | ⟨folder, name | name⟩
  · rfl
  · rfl
  · simp only [bind, Except.bind, throw, throwThe, MonadExceptOf.throw, pure, Except.pure]
    split_ifs <;> rfl

theorem write_eq_ok {d d' : Disk} {path text : String} (h : d.write path text = .ok d') :
    ∃ p, d' = d.put p text.toUTF8 ∧ d'.find path = .ok p := by
  unfold write at h
  obtain ⟨⟨folder, name?⟩, hlocate, h⟩ := bind_eq_ok_iff.mp h
  cases name? with
  | none => cases h
  | some name =>
    obtain ⟨hslash, h⟩ := guard_eq_ok_iff.mp h
    obtain ⟨hfits, h⟩ := guard_eq_ok_iff.mp h
    obtain ⟨-, h⟩ := guard_eq_ok_iff.mp h
    obtain rfl : d.put (folder ++ [name]) text.toUTF8 = d' := Except.ok.inj h
    obtain ⟨start, way, hstart, hparts, hwalk, hfolder, hname, hdot, hup⟩ :=
      locate_eq_ok hlocate hslash
    have hwithin := d.within_put (folder ++ [name]) text.toUTF8
    have hstep : (d.put (folder ++ [name]) text.toUTF8).step folder name =
        .ok (folder ++ [name]) := by
      rw [step_eq_ok_iff, if_neg (by simp [hname, hdot]), if_neg hup]
      refine ⟨hwithin.folder _ hfolder, by simpa using hfits, .inl ?_, rfl⟩
      rw [isFile, content?_put_self]
      rfl
    refine ⟨folder ++ [name], rfl, ?_⟩
    rw [find, hparts, bind_eq_ok_iff]
    refine ⟨start, hstart, ?_⟩
    rw [List.foldlM_append, bind_eq_ok_iff]
    exact ⟨folder, hwithin.foldlM_step_eq_ok hwalk, by rw [List.foldlM_cons, hstep]; rfl⟩

theorem read_eq_ok_iff {d : Disk} {path text : String} : d.read path = .ok text ↔
    ∃ p, d.find path = .ok p ∧ d.isFolder p = false ∧ d.content? p = some text.toUTF8 := by
  have hdecode (bytes : ByteArray) :
      ((String.fromUTF8? bytes).elim (.error .notText) .ok : Except Refusal String) = .ok text ↔
        bytes = text.toUTF8 := by
    unfold String.fromUTF8?
    split
    · simp [← String.toByteArray_inj, String.fromUTF8]
    · rename_i hinvalid
      refine iff_of_false (by simp) ?_
      rintro rfl
      exact hinvalid text.isValidUTF8
  rw [read, bind_eq_ok_iff]
  refine exists_congr fun p => and_congr_right fun _ => ?_
  rw [guard_eq_ok_iff]
  refine and_congr_right fun _ => ?_
  cases d.content? p with
  | none => simp [throw, throwThe, MonadExceptOf.throw]
  | some bytes => simp [hdecode]

theorem files_makeOne {d d' : Disk} {path : String} (h : d.makeOne path = .ok d') :
    d'.files = d.files := by
  unfold makeOne at h
  obtain ⟨⟨folder, name?⟩, -, h⟩ := bind_eq_ok_iff.mp h
  cases name? with
  | none => cases h
  | some name =>
    obtain ⟨-, h⟩ := guard_eq_ok_iff.mp h
    obtain ⟨-, h⟩ := guard_eq_ok_iff.mp h
    cases h
    rfl

/-- Making folders leaves the files alone, also where it fails half way. -/
theorem files_makeAll (d : Disk) (paths : List String) : (d.makeAll paths).2.files = d.files := by
  fun_induction makeAll d paths with
  | case1 => rfl
  | case2 path above d' hmade => exact files_makeOne hmade
  | case3 path above hmissing e d' habove ih => rwa [habove] at ih
  | case4 path above hmissing d' habove d'' hmade ih =>
    rw [habove] at ih
    exact (files_makeOne hmade).trans ih
  | case5 path above hmissing d' habove e hrefused ih => rwa [habove] at ih
  | case6 => rfl

def fileView : FileView Disk Place where
  find? d path := (d.find path).toOption
  content? := content?

theorem reads_iff {d : Disk} {path text : String} : host.Reads d path text ↔
    ∃ p, (d.find path).toOption = some p ∧ d.isFolder p = false ∧
      d.content? p = some text.toUTF8 := by
  simp only [toOption_eq_some_iff, ← read_eq_ok_iff]
  exact mapError_eq_ok_iff

theorem run_write (d : Disk) (path text : String) :
    (host.write path text).run d = match d.write path text with
      | .ok d' => (.ok (), d')
      | .error e => (.error e.text, d) := rfl

theorem writes_iff {d : Disk} {path text : String} :
    ((host.write path text).run d).1 = .ok () ↔ (d.write path text).toOption.isSome = true := by
  rw [run_write]
  cases d.write path text <;> simp [Except.toOption]

theorem host_faithful : host.Faithful fileView where
  read_state _ _ := rfl
  read_ok path d text h := by
    obtain ⟨p, hfind, -, hcontent⟩ := reads_iff.mp h
    exact ⟨p, hfind, hcontent⟩
  makeFolder path d p := by
    have hfiles := d.files_makeAll (Path.lineage path)
    exact congrArg (List.lookup p) hfiles
  write_ok path text d h := by
    rw [run_write] at h ⊢
    cases hwrite : d.write path text with
    | error e => simp [hwrite] at h
    | ok d' =>
      obtain ⟨p, rfl, hfind⟩ := write_eq_ok hwrite
      exact ⟨p, congrArg Except.toOption hfind, content?_put_self d p text.toUTF8,
        fun other hne => content?_put_of_ne hne⟩
  write_error path text d cause h := by
    rw [run_write] at h ⊢
    cases hwrite : d.write path text with
    | error e => exact fun _ => rfl
    | ok d' => simp [hwrite] at h

end Disk
end Storyboard
