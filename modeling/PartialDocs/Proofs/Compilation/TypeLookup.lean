import Mathlib.Data.List.TakeWhile
import PartialDocs.Proofs.Compilation.PieceRoles
import PartialDocs.Proofs.Text.Cuts

/-!
# Looking a type up by its dotted name

A type is found by its dotted name and also by that name without its arities, and the first type
that fits in either way is the answer (`findType?_eq_some_iff`).  A name with an arity mark in it
fits in one way only (`not_mem_of_looksLike`).  Any other name also fits every generic type that is
spelled like it, so that a plain type is found by its name unless such a generic type comes before
it (`exact_unless_hidden`).
-/

set_option autoImplicit false

namespace PartialDocs

/-- Without its arities a name has no mark of one. -/
theorem not_mem_stripArity (name : Text) : '\x60' ∉ stripArity name := by
  unfold stripArity
  intro h
  rcases Text.mem_of_mem_joinWith h with hdot | ⟨part, hpart, hmem⟩
  · exact absurd hdot (by decide)
  · obtain ⟨p, -, rfl⟩ := List.mem_map.1 hpart
    have hne := List.mem_takeWhile_imp hmem
    simp at hne

namespace Compilation

section Lookup

variable (c : Compilation) (name : Text) (id : Nat)

/-- Whether a number is that of a type with the given dotted name. -/
structure IsNamed : Prop where
  type : ∃ s, c.index.symbol? id = some s ∧ s.kind.isType = true
  name : c.index.qualifiedName id = .ok name

/-- Whether a number is that of a type with another dotted name, which is the given one but for its
arities. -/
def LooksLike : Prop := ∃ full, c.IsNamed full id ∧ full ≠ name ∧ stripArity full = name

variable {c name id}

/-- Only a name without arity marks has types that look like it. -/
theorem not_mem_of_looksLike (h : c.LooksLike name id) : '\x60' ∉ name := by
  obtain ⟨full, -, -, rfl⟩ := h
  exact not_mem_stripArity full

/-- No type has a name and only looks like it. -/
theorem IsNamed.not_looksLike (h : c.IsNamed name id) : ¬ c.LooksLike name id := by
  rintro ⟨full, hfull, hne, -⟩
  exact hne (Except.ok.inj (hfull.name.symm.trans h.name))

/-- What has a name has a number. -/
theorem IsNamed.mem_ids (h : c.IsNamed name id) : id ∈ c.index.ids := by
  obtain ⟨⟨s, hs, -⟩, -⟩ := h
  rw [SymbolIndex.symbol?_eq] at hs
  unfold SymbolIndex.ids
  rw [List.mem_range, SymbolIndex.size_eq]
  exact (List.getElem?_eq_some_iff.1 hs).1

/-- What the search asks of a number. -/
theorem fits_iff :
    ((c.index.symbol? id).any (fun s => s.kind.isType) = true ∧
      (match c.index.qualifiedName id with
        | .ok q => q == name || stripArity q == name
        | .error _ => false) = true) ↔ c.IsNamed name id ∨ c.LooksLike name id := by
  rw [Option.any_eq_true]
  constructor
  · rintro ⟨htype, hname⟩
    cases hq : c.index.qualifiedName id with
    | error e =>
      rw [hq] at hname
      cases hname
    | ok q =>
      rw [hq] at hname
      simp only [Bool.or_eq_true, beq_iff_eq] at hname
      by_cases hexact : q = name
      · exact .inl ⟨htype, hexact ▸ hq⟩
      · exact .inr ⟨q, ⟨htype, hq⟩, hexact, hname.resolve_left hexact⟩
  · rintro (⟨htype, hname⟩ | ⟨q, ⟨htype, hname⟩, -, hstrip⟩)
    · exact ⟨htype, by simp [hname]⟩
    · exact ⟨htype, by simp [hname, hstrip]⟩

/-- **The first type that has a name, or has it but for its arities, is found by it.** -/
theorem findType?_eq_some_iff :
    c.findType? name = some id ↔ (c.IsNamed name id ∨ c.LooksLike name id) ∧
      ∀ j < id, ¬ (c.IsNamed name j ∨ c.LooksLike name j) := by
  unfold findType? SymbolIndex.idsWhere SymbolIndex.ids
  rw [List.find?_filter, List.find?_range_eq_some]
  simp only [decide_eq_true_eq, Bool.not_eq_true', decide_eq_false_iff_not]
  constructor
  · rintro ⟨hfits, -, hbefore⟩
    exact ⟨fits_iff.1 hfits, fun j hj h => hbefore j hj (fits_iff.2 h)⟩
  · rintro ⟨hfits, hbefore⟩
    refine ⟨fits_iff.2 hfits, ?_, fun j hj h => hbefore j hj (fits_iff.1 h)⟩
    rcases hfits with h | ⟨q, h, -⟩
    · exact h.mem_ids
    · exact h.mem_ids

/-- A type that only looks like a name is found by it where all types that have the name come
later. -/
theorem lt_of_looksLike {found : Nat} (h : c.findType? name = some found)
    (looks : c.LooksLike name found) (named : c.IsNamed name id) : found < id := by
  obtain ⟨-, hfirst⟩ := findType?_eq_some_iff.1 h
  rcases Nat.lt_trichotomy found id with hlt | rfl | hgt
  · exact hlt
  · exact absurd looks named.not_looksLike
  · exact absurd (.inl named) (hfirst id hgt)

/-- A type is found by a name that some type has. -/
theorem exists_found (named : c.IsNamed name id) :
    ∃ found ≤ id, c.findType? name = some found := by
  cases hfound : c.findType? name with
  | some found =>
    obtain ⟨-, hfirst⟩ := findType?_eq_some_iff.1 hfound
    refine ⟨found, Nat.le_of_not_lt fun hlt => ?_, rfl⟩
    exact hfirst id hlt (.inl named)
  | none =>
    -- the type itself would have been found
    unfold findType? SymbolIndex.idsWhere at hfound
    rw [List.find?_filter, List.find?_eq_none] at hfound
    exact absurd (decide_eq_true (fits_iff.2 (.inl named))) (hfound id named.mem_ids)

end Lookup

/-- What is found by the dotted name of a type. -/
structure FoundByName (c : Compilation) (name : Text) (id found : Nat) : Prop where
  asked : c.IsNamed name id
  answer : c.findType? name = some found
  le : found ≤ id
  /-- The answer has the name exactly unless some other type that looks like it comes before all
  that have it. -/
  exact_iff : c.IsNamed name found ↔ ∃ i, c.IsNamed name i ∧ ∀ j < i, ¬ c.LooksLike name j
  /-- An answer with another name is a type that looks like a name without arity marks. -/
  other : ¬ c.IsNamed name found → c.LooksLike name found ∧ '\x60' ∉ name

variable {files : List SourceFile} {id : Nat} {s : Symbol}

/-- A name that is used finds something. -/
theorem exists_foundByName {c : Compilation} {name : Text} (named : c.IsNamed name id) :
    ∃ found, FoundByName c name id found := by
  obtain ⟨found, hle, hfound⟩ := exists_found named
  obtain ⟨hfits, hfirst⟩ := findType?_eq_some_iff.1 hfound
  refine ⟨found, named, hfound, hle, ?_, ?_⟩
  · constructor
    · intro hexact
      exact ⟨found, hexact, fun j hj => fun h => hfirst j hj (.inr h)⟩
    · rintro ⟨i, hi, hnone⟩
      refine hfits.resolve_right fun hlooks => ?_
      exact hnone found (lt_of_looksLike hfound hlooks hi) hlooks
  · intro hother
    have hlooks := hfits.resolve_left hother
    exact ⟨hlooks, not_mem_of_looksLike hlooks⟩

/-- Every type has a name. -/
theorem isNamed_of_type (hs : (ofFiles files).index.symbol id = .ok s)
    (type : s.kind.isType = true) : ∃ name, (ofFiles files).IsNamed name id := by
  rw [SymbolIndex.symbol_eq_ok_iff] at hs
  have hid : id < (ofFiles files).index.size := by
    rw [SymbolIndex.size_eq]
    exact (List.getElem?_eq_some_iff.1 hs).1
  have hname := SymbolIndex.qualifiedName_eq_ok (wellPlaced_ofFiles files) hid
  exact ⟨_, ⟨s, by rw [SymbolIndex.symbol?_eq, hs], type⟩, hname⟩

/-- **By the dotted name of a type a type of that name is found, unless one that only looks like the
name comes before all that have it.**  Whatever name is asked for, the types that have it come later
than an answer that only looks like it. -/
theorem exact_unless_hidden (hs : (ofFiles files).index.symbol id = .ok s)
    (type : s.kind.isType = true) :
    (∃ name found, FoundByName (ofFiles files) name id found) ∧
    ∀ name found, (ofFiles files).findType? name = some found →
      (ofFiles files).LooksLike name found → (ofFiles files).IsNamed name id → found < id := by
  obtain ⟨name, hname⟩ := isNamed_of_type hs type
  obtain ⟨found, hfound⟩ := exists_foundByName hname
  exact ⟨⟨name, found, hfound⟩, fun _ _ => lt_of_looksLike⟩

/-! ## A generic class and a plain one -/

/-- A generic class before a plain one of the same name. -/
def genericFirst : SourceFile where
  path := "file0.cs".toList
  text := "class Box<T> \x7b \x7d class Box \x7b \x7d".toList
  tree :=
    .named "compilation_unit" 0 30 none
      [.named "class_declaration" 0 16 none
        [.token "class" 0 5, .named "identifier" 6 9 (some "name") [],
         .named "type_parameter_list" 9 12 none
          [.token "<" 9 10,
           .named "type_parameter" 10 11 none [.named "identifier" 10 11 (some "name") []],
           .token ">" 11 12],
         .named "declaration_list" 13 16 (some "body") [.token "\x7b" 13 14, .token "\x7d" 15 16]],
       .named "class_declaration" 17 30 none
        [.token "class" 17 22, .named "identifier" 23 26 (some "name") [],
         .named "declaration_list" 27 30 (some "body")
          [.token "\x7b" 27 28, .token "\x7d" 29 30]]]

/-- The plain class before the generic one. -/
def plainFirst : SourceFile where
  path := "file0.cs".toList
  text := "class Box \x7b \x7d class Box<T> \x7b \x7d".toList
  tree :=
    .named "compilation_unit" 0 30 none
      [.named "class_declaration" 0 13 none
        [.token "class" 0 5, .named "identifier" 6 9 (some "name") [],
         .named "declaration_list" 10 13 (some "body") [.token "\x7b" 10 11, .token "\x7d" 12 13]],
       .named "class_declaration" 14 30 none
        [.token "class" 14 19, .named "identifier" 20 23 (some "name") [],
         .named "type_parameter_list" 23 26 none
          [.token "<" 23 24,
           .named "type_parameter" 24 25 none [.named "identifier" 24 25 (some "name") []],
           .token ">" 25 26],
         .named "declaration_list" 27 30 (some "body")
          [.token "\x7b" 27 28, .token "\x7d" 29 30]]]

/-- The plain class. -/
def plainBox : Symbol := { name := "Box".toList, kind := .class }

/-- The generic class. -/
def genericBox : Symbol :=
  { name := "Box".toList, kind := .class, typeParameters := ["T".toList] }

/-- The types where the generic one is first. -/
theorem symbols_genericFirst :
    (ofFiles [genericFirst]).index.symbols = [genericBox, plainBox] := by
  rw [symbols_ofFiles]
  decide +kernel

/-- The types where the plain one is first. -/
theorem symbols_plainFirst : (ofFiles [plainFirst]).index.symbols = [plainBox, genericBox] := by
  rw [symbols_ofFiles]
  decide +kernel

/-- A plain class before the generic one is found by its name. -/
theorem exact_unless_hidden_plainFirst :
    (ofFiles [plainFirst]).index.symbol 0 = .ok plainBox ∧ plainBox.kind.isType = true ∧
    FoundByName (ofFiles [plainFirst]) "Box".toList 0 0 := by
  have hs : (ofFiles [plainFirst]).index.symbol 0 = .ok plainBox := by
    rw [SymbolIndex.symbol_eq_ok_iff, symbols_plainFirst]
    rfl
  have hname : (ofFiles [plainFirst]).index.qualifiedName 0 = .ok "Box".toList := rfl
  obtain ⟨⟨name, found, h⟩, -⟩ := exact_unless_hidden hs rfl
  obtain rfl := Except.ok.inj (hname.symm.trans h.asked.name)
  obtain rfl := Nat.le_zero.1 h.le
  exact ⟨hs, rfl, h⟩

/-- By the name of a plain class after the generic one the generic one is found. -/
theorem generic_hides_plain :
    (ofFiles [genericFirst]).index.symbol 1 = .ok plainBox ∧ plainBox.kind.isType = true ∧
    (ofFiles [genericFirst]).index.qualifiedName 1 = .ok "Box".toList ∧
    (ofFiles [genericFirst]).findType? "Box".toList = some 0 ∧
    (ofFiles [genericFirst]).index.qualifiedName 0 = .ok "Box`1".toList := by
  have hs : (ofFiles [genericFirst]).index.symbol 1 = .ok plainBox := by
    rw [SymbolIndex.symbol_eq_ok_iff, symbols_genericFirst]
    rfl
  have hfound : (ofFiles [genericFirst]).findType? "Box".toList = some 0 := by decide +kernel
  exact ⟨hs, rfl, rfl, hfound, rfl⟩

end Compilation

end PartialDocs
