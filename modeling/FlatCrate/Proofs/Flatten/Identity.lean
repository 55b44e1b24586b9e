import FlatCrate.Proofs.Flatten.FixedPoint
import FlatCrate.Proofs.Text.LineEnds

/-!
# Files without declarations

A file without declarations is its own flat text, line by line, whatever else it holds: a byte order
mark, other separators of lines or a last line that is not ended. There is one exception. Its lines
are those of the text that is read, in which a carriage return ends a line on its own; a line of the
file that holds one inside comes out as two lines.
-/

namespace FlatCrate

open Expansion (sourceOf?)
open Source (scanLines)
open Text (sourceLines unified unlines)

variable {tree : FileTree} {file : Path} {budget : Budget}

/-- A scan of some lines finds no declaration and meets no visibility that is not supported. -/
def Source.FindsNone (lines : List String) : Prop :=
  ∃ last, scanLines .idle lines = .ok (last, List.replicate lines.length none)

/-- A file that is a text is read with its line ends unified. -/
theorem sourceOf?_of_fromUTF8? {bytes : ByteArray} {text : String}
    (hread : tree.readBytes file = .ok bytes) (htext : String.fromUTF8? bytes = some text) :
    sourceOf? tree file = some (unified text) := by
  simp only [sourceOf?, hread, Text.ofBytes?, htext, Option.map_some, unified]

/-- A flat text holds no carriage return. -/
theorem notMem_of_flatten_eq_ok {text : String} (h : flatten tree file budget = .ok text) :
    '\r' ∉ text.toList := by
  obtain ⟨-, rfl⟩ := flatten_eq_ok_iff.mp h
  exact notMem_unlines ((yields_ofRoot tree file budget).isPlainLine trivial)

/-- For every budget, a file on whose lines no declaration is found is flattened to these lines,
each one ended, exactly if no carriage return is left inside of them. In any case, a file is
flattened to the lines that are left when each of its carriage returns has become a line end, if no
declaration is found on those. -/
theorem flatten_without_declarations {bytes : ByteArray} {text : String}
    (hread : tree.readBytes file = .ok bytes) (htext : String.fromUTF8? bytes = some text)
    (budget : Budget) :
    (Source.FindsNone (sourceLines text) →
      (flatten tree file budget = .ok (unlines (sourceLines text)) ↔
        ∀ line ∈ sourceLines text, '\r' ∉ line.toList)) ∧
    (Source.FindsNone (sourceLines (unified text)) →
      flatten tree file budget = .ok (unlines (sourceLines (unified text)))) := by
  have hsource := sourceOf?_of_fromUTF8? hread htext
  refine ⟨fun ⟨last, hscan⟩ => ⟨fun hflat line hline hreturn => ?_, fun hlines => ?_⟩,
    fun ⟨last, hscan⟩ => flatten_of_scanLines hsource hscan budget⟩
  · exact notMem_of_flatten_eq_ok hflat (Text.mem_unlines hline hreturn)
  · rw [← Text.sourceLines_unified hlines] at hscan ⊢
    exact flatten_of_scanLines hsource hscan budget

/-- A crate that is one file with a given text. -/
def singleFile (text : String) : FileTree where
  workDir := []
  entries := [(["lib.rs"], .file text.toUTF8)]

/-- A text without declarations, but with a mark at its beginning and lines of all kinds. -/
theorem flatten_without_declarations_marked :
    (singleFile "\ufeffmod a;\r\n\u2028 mod b;\r").readBytes ⟨.relative, ["lib.rs"]⟩ =
        .ok "\ufeffmod a;\r\n\u2028 mod b;\r".toUTF8 ∧
      Source.FindsNone (sourceLines "\ufeffmod a;\r\n\u2028 mod b;\r") ∧
      flatten (singleFile "\ufeffmod a;\r\n\u2028 mod b;\r") ⟨.relative, ["lib.rs"]⟩ .unlimited =
        .ok "\ufeffmod a;\n\u2028 mod b;\n" := by
  have hread : (singleFile "\ufeffmod a;\r\n\u2028 mod b;\r").readBytes ⟨.relative, ["lib.rs"]⟩ =
      .ok "\ufeffmod a;\r\n\u2028 mod b;\r".toUTF8 := by rfl
  have hscan : Source.FindsNone (sourceLines "\ufeffmod a;\r\n\u2028 mod b;\r") :=
    ⟨.idle, by decide +kernel⟩
  have hlines : ∀ line ∈ sourceLines "\ufeffmod a;\r\n\u2028 mod b;\r", '\r' ∉ line.toList := by
    decide +kernel
  have hflat := ((flatten_without_declarations hread (Text.fromUTF8?_toUTF8 _)
    .unlimited).1 hscan).mpr hlines
  exact ⟨hread, hscan, hflat.trans (congrArg Except.ok (by decide +kernel))⟩

/-- A carriage return inside of a line separates two lines. -/
theorem flatten_lone_return :
    (singleFile "a\rb\n").readBytes ⟨.relative, ["lib.rs"]⟩ = .ok "a\rb\n".toUTF8 ∧
      Source.FindsNone (sourceLines "a\rb\n") ∧ unlines (sourceLines "a\rb\n") = "a\rb\n" ∧
      flatten (singleFile "a\rb\n") ⟨.relative, ["lib.rs"]⟩ .unlimited = .ok "a\nb\n" ∧
      flatten (singleFile "a\rb\n") ⟨.relative, ["lib.rs"]⟩ .unlimited ≠
        .ok (unlines (sourceLines "a\rb\n")) := by
  have hlines : unlines (sourceLines "a\rb\n") = "a\rb\n" := by decide +kernel
  have hflat : flatten (singleFile "a\rb\n") ⟨.relative, ["lib.rs"]⟩ .unlimited = .ok "a\nb\n" :=
    flatten_eq_ok_iff.mpr ⟨by decide +kernel, by decide +kernel⟩
  refine ⟨rfl, ⟨.idle, by decide +kernel⟩, hlines, hflat, ?_⟩
  rw [hflat, hlines]
  simp

end FlatCrate
