import PartialDocs.Proofs.Text.Lines
import PartialDocs.Xml.Indent

/-!
# Moving lines to the right and back

Moving a line to the right puts spaces in front of it, which are blank and no line feeds.  So a
line stays blank or not (`isBlank_indentLine`), a text keeps its lines (`lines_indent`), and two
moves are one (`indent_indent`).  Whether a line was moved can be seen from the moved line, so that
the move can be taken back (`unindent_indent`).
-/

set_option autoImplicit false

namespace PartialDocs.Xml

open Text (isBlank lines unlines)

/-! ## One line -/

/-- A line without its first characters, unless it is blank. -/
def unindentLine (width : Nat) (line : Text) : Text :=
  if isBlank line then line else line.drop width

variable (width a b : Nat) (line s : Text)

/-- Spaces in front do not matter to whether a line is blank. -/
theorem isBlank_spaces_append : isBlank (List.replicate width ' ' ++ line) = isBlank line := by
  have hspaces : isBlank (List.replicate width ' ') = true := by
    refine List.all_eq_true.2 fun c hc => ?_
    rw [List.eq_of_mem_replicate hc]
    rfl
  rw [Text.isBlank_append, hspaces, Bool.true_and]

/-- A line stays blank or not. -/
@[simp] theorem isBlank_indentLine : isBlank (indentLine width line) = isBlank line := by
  unfold indentLine
  split
  · rfl
  · exact isBlank_spaces_append width line

variable {line} in
/-- A blank line is not indented. -/
theorem indentLine_of_isBlank (h : isBlank line = true) : indentLine width line = line := if_pos h

variable {line} in
/-- Any other line is moved to the right. -/
theorem indentLine_of_not_isBlank (h : ¬ isBlank line = true) :
    indentLine width line = List.replicate width ' ' ++ line := if_neg h

/-- Two moves to the right are one. -/
theorem indentLine_indentLine : indentLine b (indentLine a line) = indentLine (a + b) line := by
  by_cases h : isBlank line = true
  · rw [indentLine_of_isBlank a h, indentLine_of_isBlank b h, indentLine_of_isBlank (a + b) h]
  · have hmoved : ¬ isBlank (indentLine a line) = true := by rwa [isBlank_indentLine]
    rw [indentLine_of_not_isBlank b hmoved, indentLine_of_not_isBlank a h,
      indentLine_of_not_isBlank (a + b) h, ← List.append_assoc, List.replicate_append_replicate,
      Nat.add_comm b a]

/-- A move to the right is taken back by leaving out as many characters. -/
theorem unindentLine_indentLine : unindentLine width (indentLine width line) = line := by
  unfold unindentLine
  rw [isBlank_indentLine]
  split
  · rename_i h
    exact indentLine_of_isBlank width h
  · rename_i h
    rw [indentLine_of_not_isBlank width h]
    exact List.drop_left' List.length_replicate

variable {line} in
/-- Moving a line to the right adds spaces only. -/
theorem not_mem_indentLine {c : Char} (space : c ≠ ' ') (h : c ∉ line) :
    c ∉ indentLine width line := by
  unfold indentLine
  split
  · exact h
  · rw [List.mem_append, not_or]
    refine ⟨?_, h⟩
    rw [List.mem_replicate]
    exact fun hc => space hc.2

/-! ## All lines of a text -/

/-- A text whose lines are without their first characters, blank ones apart. -/
def unindent (s : Text) : Text := unlines ((lines s).map (unindentLine width))

/-- The lines of a moved text are the moved lines. -/
theorem lines_indent : lines (indent width s) = (lines s).map (indentLine width) := by
  have hsome : (lines s).map (indentLine width) ≠ [] := by
    rw [ne_eq, List.map_eq_nil_iff]
    exact Text.splitOn_ne_nil '\n' s
  refine Text.lines_unlines hsome (List.forall_mem_map.2 fun line hline => ?_)
  exact not_mem_indentLine width (by decide) (Text.not_mem_of_mem_splitOn hline)

/-- The lines that are blank are blank again. -/
theorem map_isBlank_lines_indent :
    (lines (indent width s)).map isBlank = (lines s).map isBlank := by
  rw [lines_indent, List.map_map]
  exact List.map_congr_left fun line _ => isBlank_indentLine width line

/-- Two moves of a text are one. -/
theorem indent_indent : indent b (indent a s) = indent (a + b) s := by
  have htwice : ((lines s).map (indentLine a)).map (indentLine b) =
      (lines s).map (indentLine (a + b)) := by
    rw [List.map_map]
    exact List.map_congr_left fun line _ => indentLine_indentLine a b line
  calc indent b (indent a s)
      = unlines ((lines (indent a s)).map (indentLine b)) := rfl
    _ = unlines ((lines s).map (indentLine (a + b))) := by rw [lines_indent, htwice]

/-- A move of a text is taken back line by line. -/
theorem unindent_indent : unindent width (indent width s) = s := by
  have hback : ((lines s).map (indentLine width)).map (unindentLine width) = lines s := by
    rw [List.map_map]
    exact (List.map_congr_left fun line _ => unindentLine_indentLine width line).trans
      (List.map_id _)
  calc unindent width (indent width s)
      = unlines ((lines (indent width s)).map (unindentLine width)) := rfl
    _ = unlines (lines s) := by rw [lines_indent, hback]
    _ = s := Text.joinWith_splitOn '\n' s

/-- **Indentation is additive and invertible.**  Two widths add up, the number of lines and which of
them are blank stay the same, and leaving out as many characters of every line that is not blank
gives the text back, so that different texts are different after indentation. -/
theorem indent_additive_invertible :
    indent b (indent a s) = indent (a + b) s ∧
    (lines (indent a s)).length = (lines s).length ∧
    (lines (indent a s)).map isBlank = (lines s).map isBlank ∧
    unindent a (indent a s) = s ∧
    Function.Injective (indent a) := by
  have hlength : (lines (indent a s)).length = (lines s).length := by
    rw [lines_indent, List.length_map]
  exact ⟨indent_indent a b s, hlength, map_isBlank_lines_indent a s, unindent_indent a s,
    Function.LeftInverse.injective (unindent_indent a)⟩

-- Blank lines, one of them with a wide blank, stay as they are.
example : indent 2 "a\n\u3000\n\n b\n".toList = "  a\n\u3000\n\n   b\n".toList := by decide +kernel

end PartialDocs.Xml
