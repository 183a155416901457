import PartialDocs.Proofs.Xml.Indentation
import PartialDocs.Xml.DocFile

/-!
# Reading a documentation file back

The body of a member is written as it is, and only the columns tell its lines from the
lines around it: a line of the body is blank or begins with twelve spaces, the lines that
open and close a member begin with eight and a bracket.  `decode` reads a documentation
file by this rule, and `decode_file` says that it gets back what was written, whatever the
bodies say, as long as no documentation ID has a line feed.

The rows of a file are read from the last one upward, so that the body of a member is
complete when its opening row is met.
-/

set_option autoImplicit false

namespace PartialDocs.Xml

open Text (lines unlines)

/-! ## The decoder -/

/-- A text with its markup characters in place of their names. -/
def unescape : Text → Text
  | '&' :: 'a' :: 'm' :: 'p' :: ';' :: rest => '&' :: unescape rest
  | '&' :: 'l' :: 't' :: ';' :: rest => '<' :: unescape rest
  | '&' :: 'g' :: 't' :: ';' :: rest => '>' :: unescape rest
  | c :: rest => c :: unescape rest
  | [] => []

/-- The line that opens a member. -/
def opening (docId : Text) : Text := "<member name=\"".toList ++ docId ++ "\">".toList

/-- The line that closes a member. -/
def closing : Text := "</member>".toList

/-- The documentation ID in a row that opens a member. -/
def openedBy? (row : Text) : Option Text :=
  (Text.stripPrefix? (indentLine 8 "<member name=\"".toList) row).bind
    (Text.stripSuffix? "\">".toList)

/-- A line of a body as it was before it was moved to the right twice. -/
def outdent (row : Text) : Text := if Text.isBlank row then row else row.drop 12

/-- Read a row, given the members below it and the lines of a body right below it. -/
def readRow (row : Text) (below : List (Text × Text) × List Text) :
    List (Text × Text) × List Text :=
  match openedBy? row with
  | some docId => ((docId, unlines below.2) :: below.1, [])
  | none => if row = indentLine 8 closing then (below.1, []) else (below.1, outdent row :: below.2)

/-- The members in some rows, each with its documentation ID and its body. -/
def membersIn (rows : List Text) : List (Text × Text) := (rows.foldr readRow ([], [])).1

/-- What stands before the name of the assembly. -/
def preamble : Text :=
  "<?xml version=\"1.0\"?>\n<doc>\n    <assembly>\n        <name>".toList

/-- The name of the assembly and the members of a documentation file. -/
def decode (xml : Text) : Text × List (Text × Text) :=
  let rest := xml.drop preamble.length
  (unescape (rest.takeWhile (· != '<')), membersIn (lines (rest.dropWhile (· != '<'))))

/-! ## The name of the assembly -/

/-- The name of a markup character, or any other character itself. -/
def escapeChar (c : Char) : Text :=
  if c = '&' then "&amp;".toList
  else if c = '<' then "&lt;".toList
  else if c = '>' then "&gt;".toList
  else [c]

/-- A text is escaped character by character. -/
theorem escape_cons (c : Char) (s : Text) : escape (c :: s) = escapeChar c ++ escape s := by
  have happend : ∀ (old : Char) (new x y : Text),
      Text.replace old new (x ++ y) = Text.replace old new x ++ Text.replace old new y :=
    fun old new x y => List.flatMap_append
  have hcons : Text.replace '&' "&amp;".toList (c :: s) =
      (if c = '&' then "&amp;".toList else [c]) ++ Text.replace '&' "&amp;".toList s :=
    List.flatMap_cons
  unfold escape
  rw [hcons, happend, happend]
  congr 1
  unfold escapeChar
  by_cases hamp : c = '&'
  · rw [if_pos hamp, if_pos hamp]
    rfl
  · rw [if_neg hamp, if_neg hamp]
    by_cases hlt : c = '<'
    · rw [if_pos hlt, hlt]
      rfl
    · rw [if_neg hlt]
      simp [Text.replace, hlt]

/-- A character that is no ampersand stands for itself. -/
theorem unescape_cons_of_ne {c : Char} (h : c ≠ '&') (s : Text) :
    unescape (c :: s) = c :: unescape s := by
  rw [unescape] <;> simp [h]

/-- Every text can be read off its escaped form. -/
theorem unescape_escape (s : Text) : unescape (escape s) = s := by
  induction s with
  | nil => rfl
  | cons c s ih =>
    rw [escape_cons]
    unfold escapeChar
    by_cases hamp : c = '&'
    · rw [if_pos hamp, hamp]
      exact congrArg _ ih
    by_cases hlt : c = '<'
    · rw [if_neg hamp, if_pos hlt, hlt]
      exact congrArg _ ih
    by_cases hgt : c = '>'
    · rw [if_neg hamp, if_neg hlt, if_pos hgt, hgt]
      exact congrArg _ ih
    rw [if_neg hamp, if_neg hlt, if_neg hgt, List.singleton_append, unescape_cons_of_ne hamp, ih]

/-- An escaped text opens no tag. -/
theorem not_mem_escape (s : Text) : '<' ∉ escape s := by
  induction s with
  | nil => simp [escape, Text.replace]
  | cons c s ih =>
    rw [escape_cons, List.mem_append, not_or]
    refine ⟨?_, ih⟩
    unfold escapeChar
    split
    · decide
    split
    · decide
    split
    · decide
    · rename_i hlt _
      simpa using Ne.symm hlt

/-! ## The rows of a member -/

/-- The rows of a member. -/
def memberRows (docId body : Text) : List Text :=
  (opening docId :: ((lines body).map (indentLine 4) ++ [closing])).map (indentLine 8)

/-- The lines of an element hold no line feed where the documentation ID has none. -/
theorem not_mem_element {docId : Text} (h : '\n' ∉ docId) (body : Text) :
    ∀ l ∈ opening docId :: ((lines body).map (indentLine 4) ++ [closing]), '\n' ∉ l := by
  intro l hl
  rcases List.mem_cons.1 hl with rfl | hl
  · unfold opening
    simp [h]
  rcases List.mem_append.1 hl with hl | hl
  · obtain ⟨line, hline, rfl⟩ := List.mem_map.1 hl
    exact not_mem_indentLine 4 (by decide) (Text.not_mem_of_mem_splitOn hline)
  · rw [List.mem_singleton.1 hl]
    decide

/-- An element is its lines, each with a line feed. -/
theorem member_eq (docId body : Text) :
    member docId body =
      unlines (opening docId :: ((lines body).map (indentLine 4) ++ [closing])) ++ ['\n'] := by
  have hbody : (lines body).map (indentLine 4) ≠ [] := by
    intro h
    exact Text.splitOn_ne_nil '\n' body (List.map_eq_nil_iff.1 h)
  have hopen : "\">\n".toList = "\">".toList ++ ['\n'] := by decide +kernel
  have hclose : "\n</member>\n".toList = '\n' :: (closing ++ ['\n']) := by decide +kernel
  have hrows : unlines (opening docId :: ((lines body).map (indentLine 4) ++ [closing])) =
      opening docId ++ '\n' :: (indent 4 body ++ '\n' :: closing) := by
    rw [← List.singleton_append, Text.unlines_append (by simp) (by simp),
      Text.unlines_append hbody (by simp), Text.unlines_singleton, Text.unlines_singleton, indent]
  rw [hrows]
  delta member opening
  simp only [hopen, hclose, List.append_assoc, List.cons_append, List.nil_append]

/-- Of a line with a line feed at its end the line is left. -/
theorem dropFinalNewlines_append (x : Text) {c : Char} (h : c ≠ '\n') :
    dropFinalNewlines (x ++ [c] ++ ['\n']) = x ++ [c] := by
  unfold dropFinalNewlines
  simp [h]

/-- The lines that a file holds for a member are its rows. -/
theorem memberLines_member {docId : Text} (h : '\n' ∉ docId) (body : Text) :
    memberLines (member docId body) = unlines (memberRows docId body) ++ ['\n'] := by
  have hlast : ∃ x, unlines (opening docId :: ((lines body).map (indentLine 4) ++ [closing])) =
      x ++ ['>'] := by
    have hclosing : closing = "</member".toList ++ ['>'] := by decide +kernel
    rw [← List.cons_append, Text.unlines_append (by simp) (by simp), Text.unlines_singleton,
      hclosing, ← List.cons_append, ← List.append_assoc]
    exact ⟨_, rfl⟩
  obtain ⟨x, hx⟩ := hlast
  unfold memberLines
  rw [member_eq, hx, dropFinalNewlines_append x (by decide), ← hx]
  unfold indent memberRows
  rw [Text.lines_unlines (by simp) (not_mem_element h body)]

/-- The rows of a member are single lines. -/
theorem not_mem_memberRows {docId : Text} (h : '\n' ∉ docId) (body : Text) :
    ∀ row ∈ memberRows docId body, '\n' ∉ row := by
  intro row hrow
  obtain ⟨l, hl, rfl⟩ := List.mem_map.1 hrow
  exact not_mem_indentLine 8 (by decide) (not_mem_element h body l hl)

/-! ## Reading the rows of a member -/

/-- A row of a body never has a bracket in the column of the brackets of a member. -/
theorem bodyRow_ne (line rest : Text) :
    indentLine 8 (indentLine 4 line) ≠ List.replicate 8 ' ' ++ '<' :: rest := by
  rw [indentLine_indentLine]
  intro h
  have hbracket : Text.isBlank (List.replicate 8 ' ' ++ '<' :: rest) = false := rfl
  have hblank : ¬ Text.isBlank line = true := by
    rw [← isBlank_indentLine 12 line, h, hbracket]
    exact Bool.false_ne_true
  have hspaces : List.replicate 12 ' ' ++ line =
      List.replicate 8 ' ' ++ (List.replicate 4 ' ' ++ line) := by
    rw [← List.append_assoc, List.replicate_append_replicate]
  rw [indentLine_of_not_isBlank 12 hblank, hspaces] at h
  have htail := List.append_cancel_left h
  simp [List.replicate] at htail

/-- A row of a body comes back. -/
theorem outdent_bodyRow (line : Text) : outdent (indentLine 8 (indentLine 4 line)) = line := by
  rw [indentLine_indentLine]
  exact unindentLine_indentLine 12 line

/-- The row that opens a member. -/
theorem indentLine_opening (docId : Text) :
    indentLine 8 (opening docId) =
      indentLine 8 "<member name=\"".toList ++ (docId ++ "\">".toList) := by
  have hcons : "<member name=\"".toList = '<' :: "member name=\"".toList := by decide +kernel
  have hbracket : isBlankChar '<' = false := by decide
  unfold indentLine opening
  simp [Text.isBlank, hcons, hbracket]

/-- The row that opens a member tells its documentation ID. -/
theorem openedBy?_opening (docId : Text) :
    openedBy? (indentLine 8 (opening docId)) = some docId := by
  unfold openedBy?
  rw [indentLine_opening, Text.stripPrefix?_append, Option.bind_some, Text.stripSuffix?_append]

/-- A row of a body opens no member. -/
theorem openedBy?_bodyRow (line : Text) :
    openedBy? (indentLine 8 (indentLine 4 line)) = none := by
  have hcolumn : indentLine 8 "<member name=\"".toList =
      List.replicate 8 ' ' ++ '<' :: "member name=\"".toList := by decide +kernel
  unfold openedBy?
  rw [Option.bind_eq_none_iff]
  intro rest hrest
  rw [Text.stripPrefix?_eq_some_iff, hcolumn, List.append_assoc] at hrest
  exact absurd hrest (bodyRow_ne line _)

/-- A row of a body is read as one. -/
theorem readRow_bodyRow (line : Text) (below : List (Text × Text) × List Text) :
    readRow (indentLine 8 (indentLine 4 line)) below = (below.1, line :: below.2) := by
  have hcolumn : indentLine 8 closing = List.replicate 8 ' ' ++ '<' :: "/member>".toList := by
    decide +kernel
  have hclosing : indentLine 8 (indentLine 4 line) ≠ indentLine 8 closing := by
    rw [hcolumn]
    exact bodyRow_ne line _
  unfold readRow
  rw [openedBy?_bodyRow]
  simp only [if_neg hclosing, outdent_bodyRow]

/-- The row that closes a member begins a new body, read from the end. -/
theorem readRow_closing (below : List (Text × Text) × List Text) :
    readRow (indentLine 8 closing) below = (below.1, []) := by
  have hnone : openedBy? (indentLine 8 closing) = none := by decide +kernel
  unfold readRow
  rw [hnone]
  simp only [if_pos]

/-- The row that opens a member ends its body, read from the end. -/
theorem readRow_opening (docId : Text) (below : List (Text × Text) × List Text) :
    readRow (indentLine 8 (opening docId)) below = ((docId, unlines below.2) :: below.1, []) := by
  unfold readRow
  rw [openedBy?_opening]

/-- The lines of a body are read back in order. -/
theorem foldr_readRow_body (ls : List Text) (ms : List (Text × Text)) :
    ((ls.map (indentLine 4)).map (indentLine 8)).foldr readRow (ms, []) = (ms, ls) := by
  induction ls with
  | nil => rfl
  | cons line ls ih =>
    rw [List.map_cons, List.map_cons, List.foldr_cons, ih, readRow_bodyRow]

/-- The rows of a member are read as that member, whatever stands below them. -/
theorem foldr_readRow_memberRows (docId body : Text) (below : List (Text × Text) × List Text) :
    (memberRows docId body).foldr readRow below = ((docId, body) :: below.1, []) := by
  have hbody : unlines (lines body) = body := Text.joinWith_splitOn '\n' body
  unfold memberRows
  rw [List.map_cons, List.map_append, List.map_singleton, List.foldr_cons, List.foldr_append,
    List.foldr_cons, List.foldr_nil, readRow_closing, foldr_readRow_body, readRow_opening, hbody]

/-- The rows of members are read as the members. -/
theorem foldr_readRow_members (ms : List (Text × Text))
    (below : List (Text × Text) × List Text) :
    ((ms.flatMap fun m => memberRows m.1 m.2).foldr readRow below).1 = ms ++ below.1 := by
  induction ms with
  | nil => rfl
  | cons m ms ih =>
    rw [List.flatMap_cons, List.foldr_append, foldr_readRow_memberRows, ih]
    rfl

/-- A row that opens no member adds none. -/
theorem readRow_fst {row : Text} (h : openedBy? row = none)
    (below : List (Text × Text) × List Text) : (readRow row below).1 = below.1 := by
  unfold readRow
  rw [h]
  simp only
  split <;> rfl

/-- Rows that open no member add none. -/
theorem foldr_readRow_fst {rows : List Text} (h : ∀ row ∈ rows, openedBy? row = none)
    (below : List (Text × Text) × List Text) : (rows.foldr readRow below).1 = below.1 := by
  induction rows with
  | nil => rfl
  | cons row rows ih =>
    rw [List.foldr_cons, readRow_fst (h row List.mem_cons_self)]
    exact ih fun r hr => h r (List.mem_cons_of_mem _ hr)

/-! ## The file -/

/-- The lines between the name of the assembly and the members. -/
def headerRows : List Text :=
  ["</name>".toList, "    </assembly>".toList, "    <members>".toList]

/-- The rows in front of the members, around the name of the assembly. -/
theorem header_eq (assembly : Text) :
    header assembly = preamble ++ (escape assembly ++ (unlines headerRows ++ ['\n'])) := by
  have hrows : "</name>\n    </assembly>\n    <members>\n".toList =
      unlines headerRows ++ ['\n'] := by decide +kernel
  delta header preamble
  rw [hrows, List.append_assoc]

/-- The lines of the members of a file are their rows, one member below the other. -/
theorem lines_members {ms : List (Text × Text)} (h : ∀ m ∈ ms, '\n' ∉ m.1) (rest : Text) :
    lines ((ms.map fun m => member m.1 m.2).flatMap memberLines ++ rest) =
      (ms.flatMap fun m => memberRows m.1 m.2) ++ lines rest := by
  induction ms with
  | nil => rfl
  | cons m ms ih =>
    have hm : '\n' ∉ m.1 := h m List.mem_cons_self
    have hrows : memberRows m.1 m.2 ≠ [] := by simp [memberRows]
    rw [List.map_cons, List.flatMap_cons, List.flatMap_cons, memberLines_member hm,
      List.append_assoc, List.append_assoc, List.singleton_append,
      Text.lines_unlines_append hrows (not_mem_memberRows hm m.2),
      ih fun n hn => h n (List.mem_cons_of_mem _ hn), List.append_assoc]

/-- Reading a documentation file gives the name of the assembly and the members that it was
written from, whatever the bodies say. -/
theorem decode_file (assembly : Text) {ms : List (Text × Text)} (h : ∀ m ∈ ms, '\n' ∉ m.1) :
    decode (file assembly (ms.map fun m => member m.1 m.2)) = (assembly, ms) := by
  have hname : ∀ c ∈ escape assembly, (c != '<') = true := by
    intro c hc
    rw [bne_iff_ne]
    rintro rfl
    exact not_mem_escape assembly hc
  -- the name ends at the bracket that the rows of the header begin with
  have hbracket : ∃ rest, unlines headerRows = '<' :: rest := ⟨_, rfl⟩
  obtain ⟨rest, hrest⟩ := hbracket
  let body := (ms.map fun m => member m.1 m.2).flatMap memberLines ++ footer
  have hfile : (file assembly (ms.map fun m => member m.1 m.2)).drop preamble.length =
      escape assembly ++ (unlines headerRows ++ '\n' :: body) := by
    rw [file, header_eq, List.append_assoc, List.append_assoc, List.drop_left]
    simp only [List.append_assoc, List.cons_append, List.nil_append, body]
  have htake : (escape assembly ++ (unlines headerRows ++ '\n' :: body)).takeWhile (· != '<') =
      escape assembly := by
    rw [List.takeWhile_append_of_pos hname, hrest]
    simp
  have hdrop : (escape assembly ++ (unlines headerRows ++ '\n' :: body)).dropWhile (· != '<') =
      unlines headerRows ++ '\n' :: body := by
    rw [List.dropWhile_append_of_pos hname, hrest]
    simp
  have hmembers : membersIn (lines (unlines headerRows ++ '\n' :: body)) = ms := by
    have hlines : ∀ row ∈ headerRows, '\n' ∉ row := by decide +kernel
    have hrows : headerRows ≠ [] := List.cons_ne_nil _ _
    have hhead : ∀ row ∈ headerRows, openedBy? row = none := by decide +kernel
    have hfoot : ((lines footer).foldr readRow ([], [])).1 = [] := by decide +kernel
    unfold membersIn
    rw [Text.lines_unlines_append hrows hlines, List.foldr_append,
      foldr_readRow_fst hhead, lines_members h, List.foldr_append, foldr_readRow_members, hfoot,
      List.append_nil]
  unfold decode
  simp only [hfile, htake, hdrop, unescape_escape, hmembers]

end PartialDocs.Xml
