import FlatCrate.FileTree.Edit

/-!
# Writing on a medium

A file is opened before anything is written to it: that makes it, or empties it if it was there.
What is written then needs room. When the medium is full, a quota is used up or the file would get
too long, writing breaks off, and the bytes in front of that stay in the file. An error in the middle
of a file does not name it.
-/

namespace FlatCrate

/-- Where writing a file breaks off: behind some of its bytes, with an error of the system. -/
structure Cut where
  length : Nat
  number : Nat
  text : String
  deriving DecidableEq, Repr

/-- The error that ends the writing. -/
def Cut.error (cut : Cut) : FileError := ⟨.system cut.number cut.text, none, none⟩

/-- Where a medium breaks off writing some bytes to the file to which a path leads, if it does. -/
abbrev Medium := FileTree → Path → ByteArray → Option Cut

/-- The medium that has room for everything. -/
def Medium.sound : Medium := fun _ _ _ => none

/-- The medium on which no file is longer than a number of bytes. -/
def Medium.limited (most : Nat) : Medium := fun _ _ content =>
  if content.size ≤ most then none else some ⟨most, 27, "File too large"⟩

/-- What comes of writing a file. -/
inductive Writing
  /-- The file cannot be opened. -/
  | refused (fault : Fault)
  /-- Writing breaks off, and a part of the bytes is in the file. -/
  | cut (tree : FileTree) (error : FileError)
  | done (tree : FileTree)

/-- Writes a text on a medium to the file to which a path leads. -/
def FileTree.writeOn (tree : FileTree) (medium : Medium) (path : Path) (text : String) : Writing :=
  match medium tree path text.toUTF8 with
  | none =>
    match tree.writeText path text with
    | .error fault => .refused fault
    | .ok written => .done written
  | some cut =>
    match tree.writeBytes path (text.toUTF8.extract 0 cut.length) with
    | .error fault => .refused fault
    | .ok written => .cut written cut.error

namespace FileTree

variable {tree written : FileTree} {medium : Medium} {path : Path} {text : String}

/-- What is written to its end is written as a whole. -/
theorem writeText_of_writeOn (h : tree.writeOn medium path text = .done written) :
    tree.writeText path text = .ok written := by
  rw [writeOn] at h
  split at h
  · split at h
    · exact Writing.noConfusion h
    · next hwrite => rw [hwrite, Writing.done.inj h]
  · split at h <;> exact Writing.noConfusion h

/-- A sound medium takes the whole text of every file that can be opened. -/
theorem writeOn_sound_of_writeText (h : tree.writeText path text = .ok written) :
    tree.writeOn .sound path text = .done written := by
  simp only [writeOn, Medium.sound, h]

/-- Writing breaks off where the medium says so, and leaves the bytes in front of that. -/
theorem exists_cut_of_writeOn {e : FileError} (h : tree.writeOn medium path text = .cut written e) :
    ∃ cut, medium tree path text.toUTF8 = some cut ∧ e = cut.error ∧
      tree.writeBytes path (text.toUTF8.extract 0 cut.length) = .ok written := by
  rw [writeOn] at h
  split at h
  · split at h <;> exact Writing.noConfusion h
  · next cut hcut =>
    split at h
    · exact Writing.noConfusion h
    · next hwrite =>
      obtain ⟨rfl, rfl⟩ := Writing.cut.inj h
      exact ⟨cut, hcut, rfl, hwrite⟩

end FileTree

end FlatCrate
