import PartialDocs.Proofs.Compilation.PieceRoles
import PartialDocs.Proofs.Resolution.Merge
import PartialDocs.Resolution

/-!
# What decides the element of a symbol

The comments of the pieces of a symbol decide its element, whatever the files are
(`xml_decided`).  Every comment is found because every piece is located in its file;
`xml_eq` then reduces the element to the merged comments, and the three sorts of symbols
follow from what merging makes of pieces that fit.
-/

set_option autoImplicit false

namespace PartialDocs

/-- What the comments of its pieces make of the element of a symbol under either policy.  The pieces
are given in order, each with its comment. -/
structure DecidedByComments (s : Symbol) (docId : Text) (cs : List (Piece × Option Text))
    (xml : UnimplementedPolicy → Text) : Prop where
  /-- A type has no element exactly when none of its pieces has a comment. -/
  typeEmpty : s.kind.isType = true → ∀ policy, xml policy = [] ↔ ∀ x ∈ cs, x.2 = none
  /-- The element of a type holds all comments, one below the other. -/
  type : s.kind.isType = true → (∃ x ∈ cs, x.2 ≠ none) → ∀ policy,
    xml policy = Xml.member docId (Text.unlines (cs.filterMap Prod.snd))
  /-- The implementing piece of a partial method decides alone. -/
  implemented : s.isPartialMethod = true → ∀ x ∈ cs, x.1.role = .implementing → ∀ policy,
    xml policy = Xml.memberOrEmpty docId x.2
  /-- A partial method without an implementing piece is a matter of policy. -/
  unimplemented : s.isPartialMethod = true → (∀ x ∈ cs, x.1.role ≠ .implementing) →
    ∃ x, cs = [x] ∧ x.1.role = .defining ∧ xml .omitted = [] ∧
      xml .defining = Xml.memberOrEmpty docId x.2
  /-- Any other member has one piece, which decides. -/
  other : s.kind.isType = false → s.isPartialMethod = false →
    ∃ x, cs = [x] ∧ ∀ policy, xml policy = Xml.memberOrEmpty docId x.2
  /-- The policy makes a difference for partial methods without an implementing piece only. -/
  policies : xml .omitted ≠ xml .defining →
    s.isPartialMethod = true ∧ ∀ x ∈ cs, x.1.role ≠ .implementing

/-- The element of a member is not empty. -/
theorem Xml.member_ne_nil (docId body : Text) : Xml.member docId body ≠ [] := by
  unfold Xml.member
  simp

/-- A file answers a comment for a piece exactly when it finds the nodes before the node of the
piece and reads this comment off them. -/
theorem SourceFile.comment_eq_ok_iff {f : SourceFile} {p : Piece} {text : Option Text} :
    f.comment p = .ok text ↔
      (f.tree.precedingSiblings? p.nodeKind p.offset p.stop).map
        (Comment.above? f.text p.offset) = some text := by
  unfold SourceFile.comment
  cases f.tree.precedingSiblings? p.nodeKind p.offset p.stop <;> simp

namespace Compilation

variable {c : Compilation} {id : SymbolId} {s : Symbol} {cs : List (Piece × Option Text)}

/-! ## The comments of all pieces -/

/-- Pieces whose comments are found have a list of comments. -/
theorem mapM_comment_eq_ok {pieces : List Piece}
    (h : ∀ p ∈ pieces, ∃ text, c.comment p = .ok text) :
    ∃ cs, pieces.mapM (fun p => (c.comment p).map fun text => (p, text)) = .ok cs ∧
      cs.map Prod.fst = pieces ∧ ∀ x ∈ cs, c.comment x.1 = .ok x.2 := by
  induction pieces with
  | nil => exact ⟨[], rfl, rfl, by simp⟩
  | cons p ps ih =>
    obtain ⟨text, htext⟩ := h p List.mem_cons_self
    obtain ⟨cs, hcs, hfst, hcomment⟩ := ih fun q hq => h q (List.mem_cons_of_mem _ hq)
    refine ⟨(p, text) :: cs, ?_, by rw [List.map_cons, hfst], ?_⟩
    · rw [List.mapM_cons, htext, hcs]
      rfl
    · intro x hx
      rcases List.mem_cons.1 hx with rfl | hx
      · exact htext
      · exact hcomment x hx

/-- The comments of a symbol are those of its pieces. -/
theorem comments_eq_ok (hpieces : c.index.pieces id = .ok (cs.map Prod.fst))
    (hcs : (cs.map Prod.fst).mapM (fun p => (c.comment p).map fun text => (p, text)) = .ok cs) :
    c.comments id = .ok cs := by
  unfold comments
  rw [hpieces]
  exact hcs

/-- The comments of a symbol are those of its pieces, taken one by one. -/
theorem comments_of_pieces (hpieces : c.index.pieces id = .ok (cs.map Prod.fst))
    (h : ∀ x ∈ cs, c.comment x.1 = .ok x.2) : c.comments id = .ok cs := by
  refine comments_eq_ok hpieces ?_
  clear hpieces
  induction cs with
  | nil => rfl
  | cons x cs ih =>
    rw [List.map_cons, List.mapM_cons, h x List.mem_cons_self,
      ih fun y hy => h y (List.mem_cons_of_mem _ hy)]
    rfl

/-- The merged comment of a symbol. -/
theorem merged_eq_ok (hs : c.index.symbol id = .ok s) (hcs : c.comments id = .ok cs) :
    c.merged id = .ok (mergeComments (.ofSymbol s) (roled cs)) := by
  unfold merged
  rw [hs, hcs]
  rfl

/-! ## The element from the merged comments -/

/-- Whether a partial method lacks a body. -/
theorem isUnimplemented_eq_ok (hs : c.index.symbol id = .ok s)
    (hpieces : c.index.pieces id = .ok (cs.map Prod.fst)) :
    c.isUnimplemented id =
      .ok (s.isPartialMethod && cs.all fun x => x.1.role != .implementing) := by
  unfold isUnimplemented
  rw [hs, Except.bind]
  cases hmethod : s.isPartialMethod with
  | false => rfl
  | true =>
    rw [hpieces, Except.map, List.any_map, List.not_any_eq_all_not]
    rfl

/-- The element of a symbol, which is empty without a body. -/
theorem element_eq_ok {docId : Text} (hdocId : c.index.docId id = .ok docId)
    (body : Option Text) : c.element id body = .ok (Xml.memberOrEmpty docId body) := by
  cases body with
  | none => rfl
  | some body =>
    unfold element
    rw [hdocId]
    rfl

/-- The element of a symbol is that of its merged comments, unless the policy leaves it out. -/
theorem xml_eq {docId : Text} (hs : c.index.symbol id = .ok s)
    (hdocId : c.index.docId id = .ok docId)
    (hpieces : c.index.pieces id = .ok (cs.map Prod.fst)) (hcs : c.comments id = .ok cs)
    (policy : UnimplementedPolicy) :
    c.xml policy id = .ok
      (if policy = .omitted ∧ s.isPartialMethod = true ∧ ∀ x ∈ cs, x.1.role ≠ .implementing then []
        else Xml.memberOrEmpty docId (mergeComments (.ofSymbol s) (roled cs))) := by
  have hmerged := merged_eq_ok hs hcs
  have helement : (c.merged id).bind (c.element id) =
      .ok (Xml.memberOrEmpty docId (mergeComments (.ofSymbol s) (roled cs))) := by
    rw [hmerged]
    exact element_eq_ok hdocId _
  unfold xml
  rw [hs, helement]
  cases policy with
  | defining => simp [Except.bind]
  | omitted =>
    rw [if_pos rfl, isUnimplemented_eq_ok hs hpieces]
    by_cases hskip : s.isPartialMethod = true ∧ ∀ x ∈ cs, x.1.role ≠ .implementing
    · have hall : (cs.all fun x => x.1.role != .implementing) = true := by
        rw [List.all_eq_true]
        exact fun x hx => bne_iff_ne.2 (hskip.2 x hx)
      rw [if_pos ⟨rfl, hskip⟩, hskip.1, hall]
      rfl
    · rw [if_neg fun h => hskip h.2]
      simp only [Except.bind]
      rw [if_neg]
      simpa using hskip

/-! ## The law -/

/-- The cases of the law, for a symbol whose pieces fit. -/
theorem decidedByComments {docId : Text} (fit : PiecesFit s (cs.map Prod.fst)) :
    DecidedByComments s docId cs fun policy =>
      if policy = .omitted ∧ s.isPartialMethod = true ∧ ∀ x ∈ cs, x.1.role ≠ .implementing then []
      else Xml.memberOrEmpty docId (mergeComments (.ofSymbol s) (roled cs)) where
  typeEmpty type policy := by
    have hnot : s.isPartialMethod ≠ true := fun h => by
      simp [isType_of_isPartialMethod h] at type
    rw [if_neg fun h => hnot h.2.1]
    by_cases hnone : ∀ x ∈ cs, x.2 = none
    · rw [merge_type_none type hnone]
      exact ⟨fun _ => hnone, fun _ => rfl⟩
    · have hsome : ∃ x ∈ cs, x.2 ≠ none := by simpa using hnone
      rw [merge_type type hsome]
      simp only [hnone, iff_false]
      exact Xml.member_ne_nil docId _
  type type hsome policy := by
    have hnot : s.isPartialMethod ≠ true := fun h => by
      simp [isType_of_isPartialMethod h] at type
    rw [if_neg fun h => hnot h.2.1, merge_type type hsome]
    rfl
  implemented method x hx role policy := by
    rw [if_neg fun h => h.2.2 x hx role, merge_implemented method fit hx role]
  unimplemented method h := by
    obtain ⟨x, rfl, role⟩ := eq_singleton_of_unimplemented method fit h
    refine ⟨x, rfl, role, if_pos ⟨rfl, method, h⟩, ?_⟩
    rw [if_neg (by simp), merge_unimplemented method role]
  other type method := by
    obtain ⟨x, rfl⟩ := eq_singleton_of_other type method fit
    refine ⟨x, rfl, ?_⟩
    intro policy
    rw [if_neg (by simp [method]), merge_other type method x]
  policies hne := by
    by_cases hskip : s.isPartialMethod = true ∧ ∀ x ∈ cs, x.1.role ≠ .implementing
    · exact hskip
    · rw [if_neg fun h => hskip h.2, if_neg fun h => hskip h.2] at hne
      exact absurd rfl hne

/-- What a compilation answers about a symbol: the symbol, its documentation ID, its pieces in the
order of file and offset with their comments, and its element under either policy. -/
theorem exists_answers (files : List SourceFile) {id : Nat}
    (hid : id < (ofFiles files).index.size) :
    ∃ s docId cs, (ofFiles files).index.symbol id = .ok s ∧
      (ofFiles files).index.docId id = .ok docId ∧
      (ofFiles files).index.pieces id = .ok (cs.map Prod.fst) ∧
      (∀ x ∈ cs, (ofFiles files).comment x.1 = .ok x.2) ∧
      cs.Pairwise (fun x y => x.1.file < y.1.file ∨
        x.1.file = y.1.file ∧ x.1.offset ≤ y.1.offset) ∧
      PiecesFit s (cs.map Prod.fst) ∧
      ∀ policy, (ofFiles files).xml policy id = .ok
        (if policy = .omitted ∧ s.isPartialMethod = true ∧
          ∀ x ∈ cs, x.1.role ≠ .implementing then []
        else Xml.memberOrEmpty docId (mergeComments (.ofSymbol s) (roled cs))) := by
  obtain ⟨e, he, hs⟩ := exists_entry files hid
  obtain ⟨pieces, hpieces, hperm, hfit, hsorted⟩ := (sound_builderOf files).pieces_build he
  have hsymbol : (ofFiles files).index.symbol id = .ok e.symbol :=
    SymbolIndex.symbol_eq_ok_iff.2 hs
  have hdocId := SymbolIndex.docId_eq_ok (wellPlaced_ofFiles files) hs
  have hfound : ∀ p ∈ pieces, ∃ text, (ofFiles files).comment p = .ok text := by
    intro p hp
    have hlocated := located_of_mem_pieces (List.mem_of_getElem? he) (hperm.mem_iff.1 hp)
    exact hlocated.exists_comment _
  obtain ⟨cs, hmapM, rfl, hcomment⟩ := mapM_comment_eq_ok hfound
  have hcomments : (ofFiles files).comments id = .ok cs := comments_eq_ok hpieces hmapM
  exact ⟨e.symbol, _, cs, hsymbol, hdocId, hpieces, hcomment, List.pairwise_map.1 hsorted, hfit,
    fun policy => xml_eq hsymbol hdocId hpieces hcomments policy⟩

/-- **In every compilation the comments of the pieces of a symbol, in the order of file and offset,
decide its element under either policy.** -/
theorem xml_decided (files : List SourceFile) (id : Nat) (hid : id < (ofFiles files).index.size) :
    ∃ s docId cs xml, (ofFiles files).index.symbol id = .ok s ∧
      (ofFiles files).index.docId id = .ok docId ∧
      (ofFiles files).index.pieces id = .ok (cs.map Prod.fst) ∧
      (∀ x ∈ cs, (ofFiles files).comment x.1 = .ok x.2) ∧
      cs.Pairwise (fun x y => x.1.file < y.1.file ∨
        x.1.file = y.1.file ∧ x.1.offset ≤ y.1.offset) ∧
      (∀ policy, (ofFiles files).xml policy id = .ok (xml policy)) ∧
      DecidedByComments s docId cs xml := by
  obtain ⟨s, docId, cs, hs, hdocId, hpieces, hcomment, hsorted, hfit, hxml⟩ :=
    exists_answers files hid
  exact ⟨s, docId, cs, _, hs, hdocId, hpieces, hcomment, hsorted, hxml, decidedByComments hfit⟩

/-! ## A generic class in two files -/

/-- The documentation ID of a symbol of both parts, from the list of their symbols. -/
theorem docId_bothParts {id : Nat} {s : Symbol}
    (hs : [sharedClass, sharedMethod, innerClass, innerMethod][id]? = some s) :
    (ofFiles bothParts).index.docId id =
      .ok (placedDocId [sharedClass, sharedMethod, innerClass, innerMethod] s) := by
  rw [← symbols_bothParts] at hs ⊢
  exact SymbolIndex.docId_eq_ok (wellPlaced_ofFiles bothParts) hs

/-- The pieces of a symbol of both parts are those of its entry, when these are in order. -/
theorem pieces_bothParts {id : Nat} {e : IndexEntry}
    (he : (builderOf bothParts).entries[id]? = some e) (hne : e.pieces ≠ [])
    (sorted : e.pieces.Pairwise fun p q => p.startsBy q) :
    (ofFiles bothParts).index.pieces id = .ok e.pieces := by
  have hpieces := IndexBuilder.pieces_build_eq_ok he hne
  rwa [List.mergeSort_of_pairwise sorted] at hpieces

/-- The pieces of the class. -/
theorem pieces_sharedClass :
    (ofFiles bothParts).index.pieces 0 = .ok [firstPart, secondPart] := by
  have hentry : (builderOf bothParts).entries[0]? =
      some ⟨sharedClass, [firstPart, secondPart]⟩ := by
    rw [entries_bothParts]
    rfl
  exact pieces_bothParts hentry (by simp) (by decide)

/-- The pieces of the method. -/
theorem pieces_sharedMethod :
    (ofFiles bothParts).index.pieces 1 = .ok [definingPiece, implementingPiece] := by
  have hentry : (builderOf bothParts).entries[1]? =
      some ⟨sharedMethod, [definingPiece, implementingPiece]⟩ := by
    rw [entries_bothParts]
    rfl
  exact pieces_bothParts hentry (by simp) (by decide)

/-- The pieces of the class with their comments. -/
def classComments : List (Piece × Option Text) :=
  [(firstPart, some "First.".toList), (secondPart, some "Second.".toList)]

/-- The pieces of the method with their comments. -/
def methodComments : List (Piece × Option Text) :=
  [(definingPiece, some "One.".toList), (implementingPiece, none)]

/-- The comments of the class. -/
theorem comments_sharedClass : (ofFiles bothParts).comments 0 = .ok classComments := by
  have hfirst : definingPart.comment firstPart = .ok (some "First.".toList) :=
    SourceFile.comment_eq_ok_iff.2 (by decide +kernel)
  have hsecond : implementingPart.comment secondPart = .ok (some "Second.".toList) :=
    SourceFile.comment_eq_ok_iff.2 (by decide +kernel)
  exact comments_of_pieces pieces_sharedClass
    (List.forall_mem_cons.2 ⟨hfirst, List.forall_mem_singleton.2 hsecond⟩)

/-- The comments of the method. -/
theorem comments_sharedMethod : (ofFiles bothParts).comments 1 = .ok methodComments := by
  have hfirst : definingPart.comment definingPiece = .ok (some "One.".toList) :=
    SourceFile.comment_eq_ok_iff.2 (by decide +kernel)
  have hsecond : implementingPart.comment implementingPiece = .ok none :=
    SourceFile.comment_eq_ok_iff.2 (by decide +kernel)
  exact comments_of_pieces pieces_sharedMethod
    (List.forall_mem_cons.2 ⟨hfirst, List.forall_mem_singleton.2 hsecond⟩)

/-- The comments of both parts of the class stand in its element, one below the other.  The
implementing piece of the method has no comment, so that neither policy documents the method,
although its defining piece is documented. -/
theorem xml_decided_bothParts : 0 < (ofFiles bothParts).index.size ∧
    1 < (ofFiles bothParts).index.size ∧
    (ofFiles bothParts).comments 0 = .ok classComments ∧
    (ofFiles bothParts).comments 1 = .ok methodComments ∧
    ∀ policy,
      (ofFiles bothParts).xml policy 0 =
        .ok (Xml.member "T:C`1".toList "First.\nSecond.".toList) ∧
      (ofFiles bothParts).xml policy 1 = .ok [] := by
  have hzero : 0 < (ofFiles bothParts).index.size := by
    rw [size_bothParts]
    decide
  have hone : 1 < (ofFiles bothParts).index.size := by
    rw [size_bothParts]
    decide
  refine ⟨hzero, hone, comments_sharedClass, comments_sharedMethod, fun policy => ⟨?_, ?_⟩⟩
  · obtain ⟨s, docId, cs, xml, hs, hdocId, hpieces, hcomment, -, hxml, law⟩ :=
      xml_decided bothParts 0 hzero
    rw [SymbolIndex.symbol_eq_ok_iff, symbols_bothParts] at hs
    obtain rfl : sharedClass = s := Option.some.inj hs
    obtain rfl : _ = docId := Except.ok.inj ((docId_bothParts rfl).symm.trans hdocId)
    obtain rfl : cs = classComments :=
      Except.ok.inj ((comments_of_pieces hpieces hcomment).symm.trans comments_sharedClass)
    rw [hxml policy, law.type rfl ⟨_, List.mem_cons_self, by simp⟩ policy]
    rfl
  · obtain ⟨s, docId, cs, xml, hs, -, hpieces, hcomment, -, hxml, law⟩ :=
      xml_decided bothParts 1 hone
    rw [SymbolIndex.symbol_eq_ok_iff, symbols_bothParts] at hs
    obtain rfl : sharedMethod = s := Option.some.inj hs
    obtain rfl : cs = methodComments :=
      Except.ok.inj ((comments_of_pieces hpieces hcomment).symm.trans comments_sharedMethod)
    have himplementing : (implementingPiece, none) ∈ methodComments := by
      unfold methodComments
      simp
    rw [hxml policy, law.implemented rfl _ himplementing rfl policy]
    rfl

end Compilation

end PartialDocs
