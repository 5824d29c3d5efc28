import Storyboard.Host

set_option autoImplicit false

/-!
What a host promises of its files. Reading changes nothing, making folders changes no file, and a
write replaces one file or fails and leaves all of them.
-/

namespace Storyboard

/-- Files as they can be told apart: the file that a path leads to, if there is one, and what a file
holds. -/
structure FileView (σ ι : Type) where
  find? : σ → String → Option ι
  content? : σ → ι → Option ByteArray

namespace FileView
variable {σ ι : Type} (v : FileView σ ι)

def Holds (s : σ) (path text : String) : Prop :=
  ∃ file, v.find? s path = some file ∧ v.content? s file = some text.toUTF8

def Unchanged (s s' : σ) : Prop := ∀ file, v.content? s' file = v.content? s file

/-- The file that a path leads to holds a text, and every other file what it held before. -/
def Replaced (path text : String) (s s' : σ) : Prop :=
  ∃ file, v.find? s' path = some file ∧ v.content? s' file = some text.toUTF8 ∧
    ∀ other, other ≠ file → v.content? s' other = v.content? s other

variable {v}

theorem Unchanged.trans {s₁ s₂ s₃ : σ} (h : v.Unchanged s₁ s₂) (h' : v.Unchanged s₂ s₃) :
    v.Unchanged s₁ s₃ := fun file => (h' file).trans (h file)

theorem Replaced.of_unchanged {path text : String} {s₁ s₂ s₃ : σ} (h : v.Replaced path text s₂ s₃)
    (hsame : v.Unchanged s₁ s₂) : v.Replaced path text s₁ s₃ := by
  obtain ⟨file, hfind, hcontent, hothers⟩ := h
  exact ⟨file, hfind, hcontent, fun other hne => (hothers other hne).trans (hsame other)⟩

end FileView

namespace Host

def Reads {σ : Type} (host : Host (StateM σ)) (s : σ) (path text : String) : Prop :=
  ((host.read path).run s).1 = .ok text

/-- A write that is reported as done has stored the whole text, and one that failed has stored
nothing. -/
structure Faithful {σ ι : Type} (host : Host (StateM σ)) (v : FileView σ ι) : Prop where
  read_state : ∀ path s, ((host.read path).run s).2 = s
  read_ok : ∀ path s text, host.Reads s path text → v.Holds s path text
  makeFolder : ∀ path s, v.Unchanged s ((host.makeFolder path).run s).2
  write_ok : ∀ path text s, ((host.write path text).run s).1 = .ok () →
    v.Replaced path text s ((host.write path text).run s).2
  write_error : ∀ path text s cause, ((host.write path text).run s).1 = .error cause →
    v.Unchanged s ((host.write path text).run s).2

end Host

end Storyboard
