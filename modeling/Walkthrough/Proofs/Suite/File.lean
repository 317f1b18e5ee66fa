import Walkthrough.Proofs.Text.Line
import Walkthrough.Proofs.Text.Utf8
import Walkthrough.Suite.Reader
/-!
# Documents with other line ends

It makes no difference to the cases of a document whether its lines are ended by
line feeds, by carriage returns or by both (`line_ends_alike`): the lines are the
same. To the name of a suite it would make one, which is cut from the text at
line feeds alone; but a file is read with line feeds for all of them, so the
whole suite of a file is the same.
-/

namespace Walkthrough.Suite

open Walkthrough.Text

variable {text : String}

/-- A text with this line end in place of each line feed. -/
def endedBy (e : LineEnd) (text : String) : String := String.ofList (withEnds e text.toList)

/-- **A file is read as the text that was written to it,** with whatever line
ends. -/
theorem ofBytes_endedBy (e : LineEnd) (h : '\r' ∉ text.toList) :
    ofBytes (toBytes (endedBy e text)) = text := by
  unfold ofBytes toBytes endedBy
  rw [String.toList_ofList, Utf8.decode_encode, unifyLineEnds_withEnds e h, String.ofList_toList]

theorem endedBy_lf (text : String) : endedBy .lf text = text := by
  unfold endedBy
  rw [withEnds_lf, String.ofList_toList]

/-- **With another line end a document has the same cases,** and its file is the
same suite, name and all. -/
theorem line_ends_alike (e : LineEnd) (h : '\r' ∉ text.toList) (source : Option String)
    (path : String) :
    (parse (endedBy e text) source).cases = (parse text source).cases ∧
      ofFile path (toBytes (endedBy e text)) = ofFile path (toBytes text) ∧
      ofFile path (toBytes text) = parse text (some path) := by
  have hread := ofBytes_endedBy .lf h
  rw [endedBy_lf] at hread
  refine ⟨?_, ?_, ?_⟩
  · unfold parse casesOf endedBy
    dsimp only
    rw [String.toList_ofList, lines_withEnds e h]
  · unfold ofFile
    rw [ofBytes_endedBy e h, hread]
  · unfold ofFile
    rw [hread]

/-- A document of three lines. -/
def threeLines : String := "suite: Win\ncase: one\n- first\n"

/-- With carriage returns in front of its line feeds it is the same suite. -/
theorem line_ends_alike_threeLines :
    '\r' ∉ threeLines.toList ∧
      (parse "suite: Win\r\ncase: one\r\n- first\r\n" none).cases =
        (parse threeLines none).cases ∧
      ofFile "win.md" (toBytes "suite: Win\r\ncase: one\r\n- first\r\n") =
        ofFile "win.md" (toBytes threeLines) ∧
      ofFile "win.md" (toBytes threeLines) = parse threeLines (some "win.md") := by
  have hended : endedBy .crlf threeLines = "suite: Win\r\ncase: one\r\n- first\r\n" := by decide
  have hbare : '\r' ∉ threeLines.toList := by decide
  have halike := line_ends_alike .crlf hbare none "win.md"
  rw [hended] at halike
  exact ⟨hbare, halike⟩

end Walkthrough.Suite
