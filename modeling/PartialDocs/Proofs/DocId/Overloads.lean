import Mathlib.Data.List.Induction
import PartialDocs.Proofs.DocId.ExplicitInterfaces
import PartialDocs.Proofs.DocId.Grouping

/-!
# Methods of one name

Every declaration that is handed over has a key, and some symbol of the compilation stands for that
key (`exists_knownAs`).  Methods of one type with one name and arity share their key exactly where
their parameters are spelled alike.  Otherwise they belong to different symbols, whose documentation
IDs differ as well (`exists_apart`).  Whatever pieces a symbol has come from declarations with its
key (`exists_of_mem_pieces`).
-/

set_option autoImplicit false

namespace PartialDocs.Compilation

variable {files : List SourceFile} {before between after : List (Symbol × Piece)}
  {x y : Symbol × Piece}

/-! ## The symbol of a declaration -/

/-- Whether a symbol stands for the key of a declaration and has the given documentation ID.  It is
the declared one itself where no earlier declaration has the key. -/
structure KnownAs (files : List SourceFile) (x : Symbol × Piece) (i : Nat) (docId : Text) :
    Prop where
  key : (builderOf files).find? ((builderOf files).key x.1) = some i
  docId : (ofFiles files).index.docId i = .ok docId
  first : ∀ before after, handed files = before ++ x :: after →
    (∀ z ∈ before, (builderOf files).key z.1 ≠ (builderOf files).key x.1) → Recorded files x i

/-- A symbol of the compilation has the key of a declaration that is handed over. -/
theorem exists_symbol_of_handed (here : handed files = before ++ x :: after) :
    ∃ (i : Nat) (t : Symbol), (builderOf files).symbols[i]? = some t ∧
      (builderOf files).key t = (builderOf files).key x.1 := by
  obtain ⟨hsound, hallowed⟩ := allowed_of_handed here
  have hlater : ∀ {i : Nat} {t : Symbol},
      ((IndexBuilder.empty.addAll before).add x.1 x.2).1.symbols[i]? = some t →
      (builderOf files).symbols[i]? = some t := by
    intro i t ht
    rw [builderOf_of_handed here]
    exact IndexBuilder.symbols_getElem?_addAll _ after ht
  have hstep := IndexBuilder.add_step (IndexBuilder.empty.addAll before) x.1 x.2
  obtain ⟨-, hsymbols⟩ | ⟨htaken, hsymbols, -⟩ := hstep.symbols_eq
  · have hown : ((IndexBuilder.empty.addAll before).add x.1 x.2).1.symbols[
        (IndexBuilder.empty.addAll before).symbols.length]? = some x.1 := by
      rw [hsymbols]
      exact List.getElem?_concat_length
    exact ⟨_, x.1, hlater hown, rfl⟩
  · obtain ⟨i, hi⟩ := Option.isSome_iff_exists.1 htaken
    obtain ⟨t, ht, hkey⟩ := (hsound.keyed _ i).1 hi
    refine ⟨i, t, hlater (hsymbols ▸ ht), ?_⟩
    rw [key_builderOf here (hsound.placed.placed ht), key_builderOf here hallowed.placed, hkey]

/-- Every declaration that is handed over is known as a symbol. -/
theorem exists_knownAs (hx : x ∈ handed files) : ∃ (i : Nat) (t : Symbol),
    (builderOf files).symbols[i]? = some t ∧ (builderOf files).key t = (builderOf files).key x.1 ∧
      KnownAs files x i (placedDocId (ofFiles files).index.symbols t) := by
  have hkeyed := (sound_builderOf files).keyed ((builderOf files).key x.1)
  obtain ⟨before, after, here⟩ := List.append_of_mem hx
  obtain ⟨i, t, ht, hkey⟩ := exists_symbol_of_handed here
  have hfind := (hkeyed i).2 ⟨t, ht, hkey⟩
  refine ⟨i, t, ht, hkey, hfind, ?_, ?_⟩
  · apply docId_ofFiles
    rw [SymbolIndex.symbol_eq_ok_iff, symbols_ofFiles, ht]
  · intro before after here first
    obtain ⟨j, hj⟩ := exists_recorded here first
    have hsymbol := SymbolIndex.symbol_eq_ok_iff.1 hj.symbol
    rw [symbols_ofFiles] at hsymbol
    have hfind' := (hkeyed j).2 ⟨x.1, hsymbol, rfl⟩
    obtain rfl : i = j := Option.some.inj (hfind.symm.trans hfind')
    exact hj

/-- Declarations of one key are known under one number and one documentation ID. -/
theorem KnownAs.eq {i j : Nat} {d e : Text} (hx : KnownAs files x i d) (hy : KnownAs files y j e)
    (h : (builderOf files).key x.1 = (builderOf files).key y.1) : i = j ∧ d = e := by
  obtain rfl : i = j := by
    have hi := hx.key
    rw [h, hy.key] at hi
    exact (Option.some.inj hi).symm
  exact ⟨rfl, Except.ok.inj (hx.docId.symm.trans hy.docId)⟩

/-- Only declarations with one key are known as one symbol. -/
theorem KnownAs.key_eq {i : Nat} {d e : Text} (hx : KnownAs files x i d)
    (hy : KnownAs files y i e) : (builderOf files).key x.1 = (builderOf files).key y.1 := by
  obtain ⟨s, hs, hkey⟩ := ((sound_builderOf files).keyed _ i).1 hx.key
  obtain ⟨t, ht, hkey'⟩ := ((sound_builderOf files).keyed _ i).1 hy.key
  obtain rfl : s = t := Option.some.inj (hs.symm.trans ht)
  exact hkey.symm.trans hkey'

/-! ## Pieces of a symbol -/

/-- At every moment the pieces of a symbol come from declarations with its key. -/
theorem exists_of_mem_pieces (here : handed files = before ++ after) {i : Nat} {e : IndexEntry}
    {q : Piece} (he : (IndexBuilder.empty.addAll before).entries[i]? = some e)
    (hq : q ∈ e.pieces) :
    ∃ z ∈ before, z.2 = q ∧ (builderOf files).key z.1 = (builderOf files).key e.symbol := by
  -- from the end: only the declaration that came last can have brought a new piece
  induction before using List.reverseRecOn generalizing after i e with
  | nil => simp [IndexBuilder.empty] at he
  | append_singleton before x ih =>
    rw [List.append_assoc, List.singleton_append] at here
    obtain ⟨hsound, hallowed⟩ := allowed_of_handed here
    have hold : ∀ {i : Nat} {e : IndexEntry},
        (IndexBuilder.empty.addAll before).entries[i]? = some e → q ∈ e.pieces →
        ∃ z ∈ before ++ [x], z.2 = q ∧
          (builderOf files).key z.1 = (builderOf files).key e.symbol := by
      intro i e he hq
      obtain ⟨z, hz, hpiece, hkey⟩ := ih here he hq
      exact ⟨z, List.mem_append_left _ hz, hpiece, hkey⟩
    have hmem : x ∈ before ++ [x] := by simp
    have hstep := IndexBuilder.add_step (IndexBuilder.empty.addAll before) x.1 x.2
    rw [IndexBuilder.addAll_append, IndexBuilder.addAll_cons, IndexBuilder.addAll_nil] at he
    generalize (IndexBuilder.empty.addAll before).add x.1 x.2 = result at hstep he
    obtain ⟨b', r⟩ := result
    cases hstep with
    | founds free =>
      rw [List.getElem?_append] at he
      split at he
      · exact hold he hq
      · rw [List.getElem?_singleton] at he
        split at he
        · obtain rfl := Option.some.inj he
          exact ⟨x, hmem, (List.mem_singleton.1 hq).symm, rfl⟩
        · cases he
    | @joins id e' taken entry takes =>
      by_cases hid : id = i
      · subst hid
        rw [List.getElem?_set_self (List.getElem?_eq_some_iff.1 entry).1] at he
        obtain rfl := Option.some.inj he
        rcases List.mem_append.1 hq with hq | hq
        · exact @hold id e' entry hq
        · have hsymbol : (IndexBuilder.empty.addAll before).symbols[id]? = some e'.symbol := by
            rw [IndexBuilder.symbols_getElem?, entry]
            rfl
          have hkey := hsound.entry_symbol taken entry
          refine ⟨x, hmem, (List.mem_singleton.1 hq).symm, ?_⟩
          rw [key_builderOf here hallowed.placed,
            key_builderOf here (hsound.placed.placed hsymbol), hkey]
      · rw [List.getElem?_set_ne hid] at he
        exact hold he hq
    | refuses => exact hold he hq

/-! ## Methods of one type -/

/-- Whether two symbols are methods of one type with one name and arity. -/
structure Overloads (s t : Symbol) : Prop where
  kind : s.kind = .method ∧ t.kind = .method
  container : s.container = t.container
  name : s.name = t.name
  arity : s.arity = t.arity

/-- The spelling of the parameters of a symbol in a compilation. -/
def spelledParameters (files : List SourceFile) (s : Symbol) : Text :=
  encodeParameters (contextOf (ofFiles files).index.symbols s) s.parameters

/-- Overloads are no types. -/
theorem Overloads.isType (h : Overloads x.1 y.1) :
    x.1.kind.isType = false ∧ y.1.kind.isType = false := by
  rw [h.kind.1, h.kind.2]
  exact ⟨rfl, rfl⟩

/-- Overloads have one key exactly where their parameters are spelled alike. -/
theorem Overloads.key_eq_iff (h : Overloads x.1 y.1) (hx : x ∈ handed files) :
    (builderOf files).key x.1 = (builderOf files).key y.1 ↔
      spelledParameters files x.1 = spelledParameters files y.1 := by
  obtain ⟨before, after, here⟩ := List.append_of_mem hx
  obtain ⟨c, hc⟩ := (placed_of_handed here).exists_container h.isType.1
  have hc' : y.1.container = some c := h.container ▸ hc
  unfold spelledParameters
  rw [symbols_ofFiles, ← signature_eq hc, ← signature_eq hc',
    IndexBuilder.key_of_member _ h.isType.1 hc, IndexBuilder.key_of_member _ h.isType.2 hc',
    SymbolKey.member.injEq]
  simp only [h.kind.1, h.kind.2, h.name, h.arity, true_and]

/-- A method whose parameters leave a trace in the spelling is known under its own documentation
ID. -/
theorem exists_knownAs_own (hx : x ∈ handed files) (hkind : x.1.kind = .method)
    (hne : spelledParameters files x.1 ≠ []) :
    ∃ i, KnownAs files x i (placedDocId (ofFiles files).index.symbols x.1) := by
  obtain ⟨i, t, ht, hkey, hknown⟩ := exists_knownAs hx
  obtain ⟨before, after, here⟩ := List.append_of_mem hx
  have hxPlaced := placed_of_handed here
  have htPlaced := (sound_builderOf files).placed.placed ht
  have hmember : x.1.kind.isType = false := by
    rw [hkind]
    rfl
  obtain ⟨hcontainer, -, -, -, -, hsame⟩ := IndexBuilder.key_eq_key hxPlaced htPlaced hkey.symm
  obtain ⟨hkinds, hsignature⟩ := hsame hmember
  obtain ⟨c, hc⟩ := hxPlaced.exists_container hmember
  -- both have parameters, since these are spelled by something
  have hspelled : spelledParameters files x.1 = spelledParameters files t := by
    unfold spelledParameters
    rw [symbols_ofFiles, ← signature_eq hc, ← signature_eq (hcontainer ▸ hc)]
    exact hsignature c hc
  have hempty : ∀ {s : Symbol}, spelledParameters files s ≠ [] → s.parameters ≠ [] := by
    intro s hs hnil
    apply hs
    unfold spelledParameters
    rw [hnil]
    rfl
  have halike : ShownAlike (builderOf files).symbols t x.1 := by
    refine ⟨?_, ?_, ?_⟩
    · intro hconversion
      rw [← hkinds, hkind] at hconversion
      cases hconversion
    · intro _
      exact iff_of_false (hempty (hspelled ▸ hne)) (hempty hne)
    · intro hoperator
      rw [← hkinds, hkind] at hoperator
      cases hoperator
  have hdocId := (placedDocId_eq_iff_of_key htPlaced hxPlaced hkey).2 halike
  rw [symbols_ofFiles, hdocId] at hknown
  rw [symbols_ofFiles]
  exact ⟨i, hknown⟩

/-- What the documentation ID of a method says before its parameters. -/
def methodHead (symbols : List Symbol) (s : Symbol) : Text :=
  s.kind.idPrefix ++ (dottedName (chainAround symbols s) ++ '.' :: (memberName s ++ arityMark s))

/-- The documentation ID of a method: its head and its parameters. -/
theorem placedDocId_of_method {symbols : List Symbol} {s : Symbol} (h : s.kind = .method) :
    placedDocId symbols s = methodHead symbols s ++ parameterList (contextOf symbols s) s := by
  have hmember : s.kind.isType = false := by
    rw [h]
    rfl
  have hconversion : s.kind ≠ .conversion := by
    rw [h]
    decide
  rw [placedDocId_of_member hmember, memberText_eq, target?_of_ne_conversion hconversion]
  simp [methodHead, targetMark]

/-- Overloads have the same head. -/
theorem Overloads.methodHead_eq {s t : Symbol} (h : Overloads s t) (symbols : List Symbol) :
    methodHead symbols s = methodHead symbols t := by
  have hkind : s.kind = t.kind := h.kind.1.trans h.kind.2.symm
  have hname : memberName s = memberName t := by
    apply memberName_congr hkind h.name
    intro hoperator
    rw [h.kind.1] at hoperator
    cases hoperator
  unfold methodHead
  rw [hkind, hname, chainAround_congr h.container, arityMark_congr hkind h.arity]

/-- Overloads have one documentation ID only where their parameters are spelled alike. -/
theorem Overloads.spelled_of_placedDocId_eq (h : Overloads x.1 y.1)
    (hsame : placedDocId (ofFiles files).index.symbols x.1 =
      placedDocId (ofFiles files).index.symbols y.1) :
    spelledParameters files x.1 = spelledParameters files y.1 := by
  have hkind : x.1.kind = y.1.kind := h.kind.1.trans h.kind.2.symm
  rw [placedDocId_of_method h.kind.1, placedDocId_of_method h.kind.2, h.methodHead_eq,
    List.append_cancel_left_eq] at hsame
  exact spelling_of_parameterList_eq hkind (by rw [h.kind.1]; rfl) hsame

/-- **Overloads whose parameters are spelled differently are different symbols with different
documentation IDs**, each of which shows the parameters of its own. -/
theorem Overloads.exists_apart (h : Overloads x.1 y.1) (hx : x ∈ handed files)
    (hy : y ∈ handed files) (hne : spelledParameters files x.1 ≠ [])
    (hne' : spelledParameters files y.1 ≠ [])
    (differ : spelledParameters files x.1 ≠ spelledParameters files y.1) :
    ∃ i j, KnownAs files x i (placedDocId (ofFiles files).index.symbols x.1) ∧
      KnownAs files y j (placedDocId (ofFiles files).index.symbols y.1) ∧ i ≠ j ∧
      placedDocId (ofFiles files).index.symbols x.1 ≠
        placedDocId (ofFiles files).index.symbols y.1 := by
  obtain ⟨i, hi⟩ := exists_knownAs_own hx h.kind.1 hne
  obtain ⟨j, hj⟩ := exists_knownAs_own hy h.kind.2 hne'
  refine ⟨i, j, hi, hj, ?_, fun hsame => differ (h.spelled_of_placedDocId_eq hsame)⟩
  rintro rfl
  exact differ ((h.key_eq_iff hx).1 (hi.key_eq hj))

end PartialDocs.Compilation
