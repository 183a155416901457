import PartialDocs.Compilation
import PartialDocs.Proofs.Syntax.InOrder

/-!
# Locating a node

A parser locates a node by the bytes that it spans in two walks.  The way down leads to the
smallest node around these bytes (`descend`), and the way up from there to the first node that spans
exactly these bytes and has the wanted kind (`climb?`).  Where siblings stand apart, this is the
innermost node of this kind and span (`locate?_eq_precedingSiblings?`): every node around the bytes
lies on the way down.
-/

set_option autoImplicit false

namespace PartialDocs

namespace Tree

/-- A node on the way down, with the siblings before it, nearest first. -/
structure Stage where
  label : Label
  before : List Tree

mutual

/-- The way down from a tree to the smallest node around some bytes, innermost stage first, on top
of the way to the tree. -/
def descend (start stop : Nat) (way : List Stage) (before : List Tree) : Tree → List Stage
  | node l cs => descendAmong start stop (⟨l, before⟩ :: way) [] cs

/-- The way down through the first of some neighbours that lies around the bytes. -/
def descendAmong (start stop : Nat) (way : List Stage) (before : List Tree) :
    List Tree → List Stage
  | [] => way
  | t :: ts =>
    if t.start ≤ start ∧ stop ≤ t.stop then descend start stop way before t
    else descendAmong start stop way (t :: before) ts

end

/-- The siblings before the first node of a kind and span on the way up, which ends at the first
node that spans more. -/
def climb? (kind : String) (start stop : Nat) : List Stage → Option (List Tree)
  | [] => none
  | s :: way =>
    if s.label.start < start ∨ stop < s.label.stop then none
    else if s.label.kind = kind ∧ s.label.start = start ∧ s.label.stop = stop then some s.before
    else climb? kind start stop way

/-- The siblings before the node that is located by its kind and span, nearest first. -/
def locate? (t : Tree) (kind : String) (start stop : Nat) : Option (List Tree) :=
  climb? kind start stop (descend start stop [] [] t)

/-! ## What a search finds -/

mutual

/-- A search that succeeds has found a wanted node within the tree. -/
theorem exists_wanted_of_precedingIn? {wanted : Label → Bool} :
    ∀ (t : Tree) (before : List Tree), (precedingIn? wanted before t).isSome →
    ∃ u, Within u t ∧ wanted u.label = true
  | .node l cs, before, h => by
    unfold precedingIn? at h
    rw [Option.isSome_or, Bool.or_eq_true] at h
    rcases h with h | h
    · obtain ⟨c, hc, u, hu, hwanted⟩ := exists_wanted_of_precedingAmong? cs [] h
      exact ⟨u, .under hc hu, hwanted⟩
    · by_cases hl : wanted l = true
      · exact ⟨.node l cs, .self, hl⟩
      · rw [if_neg hl] at h
        cases h

/-- A search among neighbours that succeeds has found a wanted node within one of them. -/
theorem exists_wanted_of_precedingAmong? {wanted : Label → Bool} :
    ∀ (ts before : List Tree), (precedingAmong? wanted before ts).isSome →
    ∃ t ∈ ts, ∃ u, Within u t ∧ wanted u.label = true
  | [], _, h => by cases h
  | t :: ts, before, h => by
    unfold precedingAmong? at h
    rw [Option.isSome_or, Bool.or_eq_true] at h
    rcases h with h | h
    · exact ⟨t, List.mem_cons_self, exists_wanted_of_precedingIn? t before h⟩
    · obtain ⟨c, hc, found⟩ := exists_wanted_of_precedingAmong? ts (t :: before) h
      exact ⟨c, List.mem_cons_of_mem t hc, found⟩

end

/-! ## The way down and up again -/

section

variable {kind : String} {start stop : Nat}

/-- Whether a node has the given kind and span. -/
def spans (kind : String) (start stop : Nat) (l : Label) : Bool :=
  l.kind == kind && l.start == start && l.stop == stop

/-- Only a tree around some bytes holds a node that spans them. -/
theorem around_of_isSome {t : Tree} {before : List Tree} (h : t.InOrder)
    (found : (precedingIn? (spans kind start stop) before t).isSome) :
    t.start ≤ start ∧ stop ≤ t.stop := by
  obtain ⟨u, hu, hspans⟩ := exists_wanted_of_precedingIn? t before found
  simp only [spans, Bool.and_eq_true, beq_iff_eq] at hspans
  obtain ⟨⟨-, hstart⟩, hstop⟩ := hspans
  have hfirst := h.start_le hu
  have hlast := h.stop_le hu
  unfold Tree.start Tree.stop at *
  omega

/-- Nothing spans some bytes within neighbours that begin behind them. -/
theorem precedingAmong?_behind {ts before : List Tree} (h : ∀ t ∈ ts, t.InOrder)
    (behind : ∀ t ∈ ts, start < t.start) :
    precedingAmong? (spans kind start stop) before ts = none := by
  rw [← Option.not_isSome_iff_eq_none]
  intro found
  obtain ⟨t, ht, u, hu, hspans⟩ := exists_wanted_of_precedingAmong? ts before found
  have haround := around_of_isSome (h t ht) (precedingIn?_isSome hu hspans [])
  exact absurd haround.1 (Nat.not_le.2 (behind t ht))

/-- Whether the last stage of a way, where there is one, lies around an extent. -/
def Encloses (way : List Stage) (first last : Nat) : Prop :=
  ∀ s ∈ way.head?, s.label.start ≤ first ∧ last ≤ s.label.stop

/-- Around an extent that is larger than the wanted one, the way up has ended. -/
theorem climb?_of_larger {way : List Stage} {first last : Nat} (h : Encloses way first last)
    (larger : first < start ∨ stop < last) : climb? kind start stop way = none := by
  cases way with
  | nil => rfl
  | cons s way =>
    obtain ⟨hfirst, hlast⟩ := h s rfl
    rw [climb?, if_pos (by omega)]

/-- One stage of the way up. -/
theorem climb?_cons {l : Label} {before : List Tree} {way : List Stage}
    (h : Encloses way l.start l.stop) :
    climb? kind start stop (⟨l, before⟩ :: way) =
      (if spans kind start stop l then some before else none).or (climb? kind start stop way) := by
  rw [climb?]
  by_cases hlarger : l.start < start ∨ stop < l.stop
  · have hother : spans kind start stop l = false := by
      rw [Bool.eq_false_iff]
      intro hspans
      simp only [spans, Bool.and_eq_true, beq_iff_eq] at hspans
      omega
    rw [if_pos hlarger, hother, climb?_of_larger h hlarger]
    rfl
  · rw [if_neg hlarger]
    by_cases hspans : spans kind start stop l = true
    · have hsame := hspans
      simp only [spans, Bool.and_eq_true, beq_iff_eq, and_assoc] at hsame
      rw [if_pos hsame, if_pos hspans, Option.some_or]
    · have hother := hspans
      simp only [spans, Bool.and_eq_true, beq_iff_eq, and_assoc] at hother
      rw [if_neg hother, if_neg hspans, Option.none_or]

mutual

/-- On the way up from where a tree leads, the innermost node comes first, and then the way to the
tree. -/
theorem climb?_descend (hlt : start < stop) : ∀ (t : Tree) (way : List Stage) (before : List Tree),
    t.Apart → Encloses way t.start t.stop →
    climb? kind start stop (descend start stop way before t) =
      (precedingIn? (spans kind start stop) before t).or (climb? kind start stop way)
  | .node l cs, way, before, h, hway => by
    have hbelow := climb?_descendAmong hlt cs l.start l.stop (⟨l, before⟩ :: way) [] h
      (fun s hs => by cases hs; exact ⟨Nat.le_refl _, Nat.le_refl _⟩)
    have hstage : Encloses way l.start l.stop := hway
    rw [descend, hbelow, climb?_cons hstage, precedingIn?, Option.or_assoc]

/-- On the way up from where neighbours lead, the innermost node among them comes first. -/
theorem climb?_descendAmong (hlt : start < stop) : ∀ (ts : List Tree) (first last : Nat)
    (way : List Stage) (before : List Tree), ApartIn first last ts → Encloses way first last →
    climb? kind start stop (descendAmong start stop way before ts) =
      (precedingAmong? (spans kind start stop) before ts).or (climb? kind start stop way)
  | [], _, _, _, _, _, _ => rfl
  | t :: ts, first, last, way, before, h, hway => by
    have hneighbours := neighbours_of_apartIn (t :: ts) first last h
    have hinside := hneighbours.within t List.mem_cons_self
    unfold ApartIn at h
    obtain ⟨-, ht, hts⟩ := h
    unfold descendAmong precedingAmong?
    split
    · rename_i haround
      -- the neighbours begin behind the bytes
      have hrest : precedingAmong? (spans kind start stop) (t :: before) ts = none := by
        refine precedingAmong?_behind ?_ ?_
        · exact fun u hu => hneighbours.inOrder u (List.mem_cons_of_mem t hu)
        · intro u hu
          have hbehind := List.rel_of_pairwise_cons hneighbours.listed hu
          omega
      rw [hrest, Option.or_none]
      refine climb?_descend hlt t way before ht fun s hs => ?_
      obtain ⟨hfirst, hlast⟩ := hway s hs
      exact ⟨Nat.le_trans hfirst hinside.1, Nat.le_trans hinside.2 hlast⟩
    · rename_i hother
      have hnone : precedingIn? (spans kind start stop) before t = none := by
        rw [← Option.not_isSome_iff_eq_none]
        exact fun found => hother (around_of_isSome ht.inOrder found)
      rw [hnone, Option.none_or]
      refine climb?_descendAmong hlt ts t.stop last way (t :: before) hts fun s hs => ?_
      obtain ⟨hfirst, hlast⟩ := hway s hs
      have hspan := (neighbours_of_apart t ht).1
      exact ⟨by omega, hlast⟩

end

/-- **Where siblings stand apart, the two walks locate the innermost node of a kind and span.** -/
theorem locate?_eq_precedingSiblings? {t : Tree} (h : t.Apart) (hlt : start < stop) :
    t.locate? kind start stop = t.precedingSiblings? kind start stop := by
  unfold locate? precedingSiblings?
  rw [climb?_descend hlt t [] [] h nofun]
  exact Option.or_none

end

end Tree

/-- The comment of a piece is read off the node that the two walks locate. -/
theorem SourceFile.comment_eq_located {f : SourceFile} {p : Piece} (h : f.tree.Apart)
    (hlt : p.offset < p.stop) :
    f.comment p =
      match f.tree.locate? p.nodeKind p.offset p.stop with
      | none => .error (.declarationNotFound f.path p.offset)
      | some siblings => .ok (Comment.above? f.text p.offset siblings) := by
  rw [Tree.locate?_eq_precedingSiblings? h hlt]
  rfl

end PartialDocs
