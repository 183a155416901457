import PartialDocs.DocId
import PartialDocs.Proofs.Declaration.Makers
import PartialDocs.Proofs.Text.Cuts

/-!
# How members are designated

A member declaration has a simple name and may name an interface before it.  A method, a
property or an event is called after both (`Designation.name`), and the documentation ID
writes this name with other characters for some (`shownName`).  An indexer is called after
its simple name alone.  Two designations with one simple name are shown alike exactly when
what is shown of their interfaces is the same (`shownName_name_eq_iff`), and for
interfaces as the grammar has them this means that they are the same (`shown_inj`).
-/

set_option autoImplicit false

namespace PartialDocs

/-! ## Shown names -/

/-- A name as a documentation ID shows it. -/
def shownName (name : Text) : Text :=
  Text.replace '.' ['#'] (Text.replace '>' ['\x7d'] (Text.replace '<' ['\x7b'] name))

/-- The character that a documentation ID shows for one of a name. -/
def shownChar (c : Char) : Char :=
  if c = '<' then '\x7b' else if c = '>' then '\x7d' else if c = '.' then '#' else c

/-- A name is shown character by character. -/
theorem shownName_eq_map (name : Text) : shownName name = name.map shownChar := by
  unfold shownName
  rw [Text.replace_singleton, Text.replace_singleton, Text.replace_singleton, List.map_map,
    List.map_map]
  refine List.map_congr_left fun c _ => ?_
  simp only [Function.comp_apply, shownChar]
  by_cases hl : c = '<'
  · subst hl
    decide
  by_cases hr : c = '>'
  · subst hr
    decide
  by_cases hd : c = '.'
  · subst hd
    decide
  · simp [hl, hr, hd]

/-- Names beside each other are shown beside each other. -/
theorem shownName_append (x y : Text) : shownName (x ++ y) = shownName x ++ shownName y := by
  rw [shownName_eq_map, shownName_eq_map, shownName_eq_map, List.map_append]

/-- A number sign is shown as it is. -/
theorem shownName_hash_cons (x : Text) : shownName ('#' :: x) = '#' :: shownName x := by
  rw [shownName_eq_map, shownName_eq_map, List.map_cons]
  rfl

/-- Dots are shown as number signs in any case. -/
theorem shownName_replace_dot (x : Text) : shownName (Text.replace '.' ['#'] x) = shownName x := by
  rw [shownName_eq_map, shownName_eq_map, Text.replace_singleton, List.map_map]
  refine List.map_congr_left fun c _ => ?_
  by_cases hd : c = '.'
  · subst hd
    decide
  · simp [hd]

/-- A character that no other one is shown as. -/
def ShownAsItself (c : Char) : Prop := c ≠ '#' ∧ c ≠ '\x7b' ∧ c ≠ '\x7d'

/-- Characters that are shown as themselves can be told apart. -/
theorem shownChar_inj {c d : Char} (hc : ShownAsItself c) (hd : ShownAsItself d)
    (h : shownChar c = shownChar d) : c = d := by
  obtain ⟨hc1, hc2, hc3⟩ := hc
  obtain ⟨hd1, hd2, hd3⟩ := hd
  unfold shownChar at h
  grind

/-- Names are told apart where they are shown if their characters are. -/
theorem shownName_inj_of {x y : Text}
    (inj : ∀ c ∈ x, ∀ d ∈ y, shownChar c = shownChar d → c = d)
    (h : shownName x = shownName y) : x = y := by
  rw [shownName_eq_map, shownName_eq_map] at h
  induction x generalizing y with
  | nil => simpa using h.symm
  | cons c x ih =>
    cases y with
    | nil => simp at h
    | cons d y =>
      rw [List.map_cons, List.map_cons] at h
      obtain ⟨hhead, htail⟩ := List.cons.inj h
      have hrest : x = y := ih (fun e he f hf =>
        inj e (List.mem_cons_of_mem _ he) f (List.mem_cons_of_mem _ hf)) htail
      rw [inj c List.mem_cons_self d List.mem_cons_self hhead, hrest]

/-- Names of characters that are shown as themselves can be told apart. -/
theorem shownName_inj {x y : Text} (hx : ∀ c ∈ x, ShownAsItself c) (hy : ∀ c ∈ y, ShownAsItself c)
    (h : shownName x = shownName y) : x = y :=
  shownName_inj_of (fun c hc d hd => shownChar_inj (hx c hc) (hy d hd)) h

namespace Declaration

/-! ## Designations -/

/-- What a member declaration says about the name of the member. -/
structure Designation where
  /-- The interface that is named before the simple name, dot included, spaced as a type. -/
  interface : Option Text
  simple : Text
  deriving DecidableEq, Repr

/-- A text without the dots at its end. -/
def dropFinalDots (s : Text) : Text := (s.reverse.dropWhile (· == '.')).reverse

namespace Designation

/-- The name of a method, a property or an event. -/
def name (d : Designation) : Text :=
  match d.interface with
  | none => d.simple
  | some i => Text.replace '.' ['#'] (dropFinalDots i) ++ '#' :: d.simple

/-- What a documentation ID shows of the interface. -/
def shown (d : Designation) : Option Text := d.interface.map fun i => shownName (dropFinalDots i)

end Designation

variable {d e : Designation}

/-- What is shown of a designation: its interface, if there is one, and its simple name. -/
theorem shownName_name (d : Designation) :
    shownName d.name = d.shown.elim [] (· ++ ['#']) ++ shownName d.simple := by
  unfold Designation.name Designation.shown
  cases d.interface with
  | none => rfl
  | some i =>
    simp only [Option.map_some, Option.elim_some]
    rw [shownName_append, shownName_hash_cons, shownName_replace_dot, List.append_assoc]
    rfl

/-- **Designations with one simple name are shown alike exactly when their interfaces are.** -/
theorem shownName_name_eq_iff (simple : d.simple = e.simple) :
    shownName d.name = shownName e.name ↔ d.shown = e.shown := by
  rw [shownName_name, shownName_name, simple, List.append_cancel_right_eq]
  constructor
  · intro h
    cases hd : d.shown <;> cases he : e.shown <;> simp_all
  · intro h
    rw [h]

/-- An interface as the grammar has it before a name: with one dot behind it, and without characters
for which the documentation ID would show another one. -/
def PlainInterface (i : Text) : Prop :=
  ∃ x : Text, i = x ++ ['.'] ∧ x.getLast? ≠ some '.' ∧ ∀ c ∈ x, ShownAsItself c

/-- The dot behind an interface is dropped. -/
theorem dropFinalDots_append_dot {x : Text} (h : x.getLast? ≠ some '.') :
    dropFinalDots (x ++ ['.']) = x := by
  unfold dropFinalDots
  rw [List.reverse_append, List.reverse_singleton, List.singleton_append,
    List.dropWhile_cons_of_pos (by rfl)]
  cases hx : x.reverse with
  | nil => simpa using hx.symm
  | cons c y =>
    have hc : c ≠ '.' := by
      rintro rfl
      rw [← List.head?_reverse, hx] at h
      exact h rfl
    rw [List.dropWhile_cons_of_neg (by simpa using hc), ← hx, List.reverse_reverse]

/-- Of two different plain interfaces different texts are shown, and nothing where there is none. -/
theorem shown_inj (hd : ∀ i ∈ d.interface, PlainInterface i)
    (he : ∀ i ∈ e.interface, PlainInterface i)
    (h : d.shown = e.shown) : d.interface = e.interface := by
  unfold Designation.shown at h
  cases hi : d.interface with
  | none =>
    cases hj : e.interface with
    | none => rfl
    | some j => simp [hi, hj] at h
  | some i =>
    cases hj : e.interface with
    | none => simp [hi, hj] at h
    | some j =>
      obtain ⟨x, rfl, hx, hplain⟩ := hd i hi
      obtain ⟨y, rfl, hy, hplain'⟩ := he j hj
      rw [hi, hj, Option.map_some, Option.map_some, Option.some.injEq, dropFinalDots_append_dot hx,
        dropFinalDots_append_dot hy] at h
      rw [shownName_inj hplain hplain' h]

/-! ## Member nodes -/

/-- Whether members of a kind are designated by a simple name, perhaps after an interface. -/
def isDesignated : SymbolKind → Bool
  | .method | .property | .indexer | .event => true
  | _ => false

/-- The designation of a node that introduces one name. -/
def designationOf (source : Text) (kind : SymbolKind) (t : Tree) : Designation where
  interface := (t.childOfKind? "explicit_interface_specifier").map (spacedText source)
  simple := if kind = .indexer then "this".toList else nameOf source t

/-- Which declaration a member node makes under a designation. -/
inductive Designates (file : Nat) (source : Text) (t : Tree) :
    Declaration → Designation → Prop where
  | member {kind : SymbolKind} (node : SymbolKind.ofMemberNode? t.kind = some kind)
      (single : hasDeclarators t = false) :
      Designates file source t
        (.mk (memberSymbol source kind t)
          (pieceOf source file (memberRole (memberSymbol source kind t) t) t) [])
        (designationOf source kind t)
  | declarator {kind : SymbolKind} {name : Text}
      (node : SymbolKind.ofMemberNode? t.kind = some kind) (several : hasDeclarators t = true)
      (mem : name ∈ declaratorNames source t) :
      Designates file source t
        (.mk { name := name, kind := kind } (pieceOf source file .whole t) []) ⟨none, name⟩

variable {file : Nat} {source : Text} {t u : Tree}

/-- The name of a member is that of its designation. -/
theorem memberNameOf_eq {kind : SymbolKind} (h : kind ≠ .indexer) :
    memberNameOf source t = (designationOf source kind t).name := by
  unfold memberNameOf designationOf Designation.name
  cases t.childOfKind? "explicit_interface_specifier" <;> simp [h, dropFinalDots]

/-- A member that has a designation is named by it. -/
theorem memberSymbolName_of_designated {kind : SymbolKind} (designated : isDesignated kind = true)
    (h : kind ≠ .indexer) : memberSymbolName source kind t = memberNameOf source t := by
  cases kind <;> simp_all [isDesignated, memberSymbolName]

/-- **A method, a property or an event gets its name from the whole designation, an indexer from the
simple name alone.** -/
theorem Designates.name_eq {s : Symbol} {p : Piece} {ds : List Declaration}
    (h : Designates file source t (.mk s p ds) d) (designated : isDesignated s.kind = true) :
    s.name = if s.kind = .indexer then d.simple else d.name := by
  cases h with
  | @member kind node single =>
    change isDesignated (memberKind source kind t) = true at designated
    change memberSymbolName source (memberKind source kind t) t =
      if memberKind source kind t = .indexer then _ else _
    -- only constructors change their kind, and these are not designated
    have hkind : memberKind source kind t = kind := by
      unfold memberKind at designated ⊢
      split
      · rename_i hstatic
        rw [if_pos hstatic] at designated
        cases designated
      · rfl
    rw [hkind] at designated ⊢
    by_cases hindexer : kind = .indexer
    · subst hindexer
      rfl
    · rw [if_neg hindexer, ← memberNameOf_eq hindexer]
      exact memberSymbolName_of_designated designated hindexer
  | declarator node several mem =>
    change _ = if _ then _ else _
    split <;> rfl

end Declaration

end PartialDocs
