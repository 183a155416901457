import PartialDocs.Proofs.Index.Tracking
import PartialDocs.Proofs.TypeRef.Separation

/-!
# The documentation IDs of listed declarations

A documentation ID can be written from a listed declaration, without the index.  Where a
symbol has several declarations, it does not matter which of them founded it: they are
spelled alike in everything that the ID shows (`docId_eq_of_agrees`).  For the parameters
of a partial method this takes types that can be read, since a type without a spelling
leaves no trace in the address.
-/

set_option autoImplicit false

namespace PartialDocs

/-- The documentation ID of a symbol that stands in the given ones. -/
def docIdIn (outer : List Symbol) (s : Symbol) : Text :=
  if s.kind.isType then "T:".toList ++ dottedName (s :: outer)
  else memberDocId (dottedName outer) (nestedTypeParameters outer) s

/-- A documentation ID depends on the headings around a symbol only. -/
theorem docIdIn_congr {chain other : List Symbol} (h : chain.map heading = other.map heading)
    (s : Symbol) : docIdIn chain s = docIdIn other s := by
  have hcons : (s :: chain).map heading = (s :: other).map heading := by
    rw [List.map_cons, List.map_cons, h]
  unfold docIdIn memberDocId
  rw [dottedName_eq_of_typePath_eq (typePath_congr hcons),
    dottedName_eq_of_typePath_eq (typePath_congr h), nestedTypeParameters_congr h]

/-- A documentation ID does not show the number of the container. -/
theorem docIdIn_container (outer : List Symbol) (s : Symbol) (c : Option SymbolId) :
    docIdIn outer { s with container := c } = docIdIn outer s := by
  have hpath : typePath ({ s with container := c } :: outer) = typePath (s :: outer) :=
    typePath_congr rfl
  unfold docIdIn
  rw [dottedName_eq_of_typePath_eq hpath]
  rfl

namespace Listed

/-- The documentation ID of a declaration. -/
def docId (x : Listed) : Text := docIdIn x.outer x.symbol

variable {x y : Listed}

/-- A symbol has the documentation ID of the declaration that it was founded by. -/
theorem Describes.docId_eq {symbols : List Symbol} {s : Symbol} (h : x.Describes symbols s) :
    placedDocId symbols s = x.docId := by
  have hplaced : placedDocId symbols s = docIdIn (chainAround symbols s) s := rfl
  obtain ⟨c, hs⟩ := h.symbol
  rw [hplaced, docIdIn_congr h.outer, hs, docIdIn_container]
  rfl

/-- Nothing but types and methods has several declarations. -/
theorem Agrees.isMethod (h : x.Agrees y) (fits : x.piece.role.Fits x.symbol)
    (member : x.symbol.kind.isType = false) : x.symbol.kind = .method := by
  rcases fits.kind_of_isPartial h.isPartial.1 with htype | hmethod
  · simp [htype] at member
  · exact hmethod

/-- **Declarations of one symbol have one documentation ID.** -/
theorem docId_eq_of_agrees (address : x.address = y.address) (agrees : x.Agrees y)
    (fits : x.piece.role.Fits x.symbol) (readable : x.symbol.Readable)
    (readable' : y.symbol.Readable) : x.docId = y.docId := by
  have htype := isType_eq_of_address address
  unfold docId docIdIn
  cases hkind : x.symbol.kind.isType with
  | true =>
    have hpath := path_eq_of_address_eq hkind address
    rw [if_pos rfl, if_pos (htype ▸ hkind), dottedName_eq_of_typePath_eq hpath]
  | false =>
    obtain ⟨hpath, hsame, hname, harity, hspelling⟩ := member_eq_of_address_eq hkind address
    have hmethod := agrees.isMethod fits hkind
    have hmethod' : y.symbol.kind = .method := hsame ▸ hmethod
    have hempty : x.symbol.parameters = [] ↔ y.symbol.parameters = [] := by
      rw [← encodeParameters_eq_nil _ readable, ← encodeParameters_eq_nil _ readable', hspelling]
    have hmemberName : memberName x.symbol = memberName y.symbol := by
      refine memberName_congr hsame hname ?_
      intro hoperator
      simp [hmethod] at hoperator
    rw [if_neg (by simp), if_neg (by simp [← htype, hkind])]
    unfold memberDocId
    rw [dottedName_eq_of_typePath_eq hpath, hsame, hmemberName, memberTail_eq, memberTail_eq,
      arityMark_congr hsame harity, parameterList_congr hsame hspelling fun _ => hempty,
      target?_of_ne_conversion (by simp [hmethod]), target?_of_ne_conversion (by simp [hmethod'])]

end Listed

end PartialDocs
