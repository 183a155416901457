import Mathlib.Data.List.TakeWhile
import PartialDocs.Proofs.TypeRef.Grammar
import PartialDocs.Proofs.TypeRef.Spacing
import PartialDocs.TypeRef.Characters

/-!
# Characters and tokens

The walk over the characters of a text finds the types that the readers find among its tokens
(`ofCharacters?_eq_ofText?`).  Where a step takes a character, the tokens begin with this mark, and
otherwise they do not and stay the same (`ofText_of_eat`, `ofText_of_not_eat`).  So each walk agrees
with its reader when the text that it leaves is replaced by its tokens (`onTokens`).
-/

set_option autoImplicit false

namespace PartialDocs.TypeRef

open TypeText (isMark mark_facts)
open TypeToken (mark ofText startsWord)

variable {s rest : Text}

/-- A walk that leaves the tokens of a text instead of the text. -/
def onTokens {α : Type} (x : Walking α) : Reading α := x.map fun (a, rest) => (a, ofText rest)

/-! ## Steps -/

/-- Blanks at the beginning of a text leave no trace among its tokens. -/
theorem ofText_trimStart (s : Text) : ofText s.trimStart = ofText s := by
  unfold Text.trimStart
  induction s with
  | nil => rfl
  | cons c s ih =>
    by_cases hc : isBlankChar c = true
    · rw [List.dropWhile_cons_of_pos hc, ih, ofText, if_pos hc]
    · rw [List.dropWhile_cons_of_neg hc]

/-- What is left of a text without leading blanks does not begin with one. -/
theorem isBlankChar_of_trimStart {c : Char} (h : s.trimStart = c :: rest) :
    isBlankChar c = false := by
  have hhead := List.head?_dropWhile_not isBlankChar s
  rw [show s.dropWhile isBlankChar = c :: rest from h] at hhead
  simpa using hhead

/-- A character that is taken is the first token. -/
theorem ofText_of_eat {c : Char} (hc : isMark c = true) (h : eat c s = (true, rest)) :
    ofText s = mark c :: ofText rest := by
  unfold eat at h
  split at h
  · cases h
  · rename_i d after hd
    split at h
    · rename_i hsame
      cases h
      obtain ⟨hblank, hword, hat⟩ := mark_facts hc
      rw [← ofText_trimStart, hd, hsame]
      exact (TypeToken.Written.mark hblank hword (fun h => absurd h hat)
        (TypeToken.written_ofText rest)).ofText_eq
    · cases h

/-- Where a character is not taken, the tokens stay as they are and do not begin with it. -/
theorem ofText_of_not_eat {c : Char} (h : eat c s = (false, rest)) :
    ofText s = ofText rest ∧ ∀ ts, ofText rest ≠ mark c :: ts := by
  unfold eat at h
  split at h
  · rename_i hd
    cases h
    rw [← ofText_trimStart s, hd]
    exact ⟨rfl, fun _ => nofun⟩
  · rename_i d after hd
    split at h
    · cases h
    · rename_i hother
      cases h
      rw [← ofText_trimStart s, hd]
      refine ⟨rfl, ?_⟩
      intro ts hts
      have hwritten := TypeToken.written_ofText (d :: after)
      rw [hts] at hwritten
      cases hwritten with
      | blank hblank _ =>
        rw [isBlankChar_of_trimStart hd] at hblank
        cases hblank
      | mark _ _ _ _ => exact hother rfl

/-! ## Names -/

/-- The longest run of identifier characters at the beginning of a text that begins with one. -/
theorem isIdentifier_takeWhile (h : startsWord s = true) :
    IsIdentifier (s.takeWhile isIdentifierChar) := by
  refine ⟨?_, fun _ => List.mem_takeWhile_imp⟩
  cases s with
  | nil => cases h
  | cons c s =>
    have hc : isIdentifierChar c = true := h
    rw [List.takeWhile_cons_of_pos hc]
    exact List.cons_ne_nil _ _

/-- There is no run of identifier characters at the beginning of any other text. -/
theorem takeWhile_eq_nil (h : startsWord s = false) : s.takeWhile isIdentifierChar = [] := by
  cases s with
  | nil => rfl
  | cons c s => exact List.takeWhile_cons_of_neg (by simpa [startsWord] using h)

/-- Behind a longest run of identifier characters there is none. -/
theorem startsWord_dropWhile (s : Text) : startsWord (s.dropWhile isIdentifierChar) = false := by
  have hhead := List.head?_dropWhile_not isIdentifierChar s
  cases hs : s.dropWhile isIdentifierChar with
  | nil => rfl
  | cons c after =>
    rw [hs] at hhead
    simpa [startsWord] using hhead

/-- A text that begins with an identifier is this identifier with the rest behind it. -/
theorem exists_run (h : startsWord s = true) : ∃ w rest, s = w ++ rest ∧ IsIdentifier w ∧
    startsWord rest = false ∧ s.takeWhile isIdentifierChar = w ∧
    s.dropWhile isIdentifierChar = rest :=
  ⟨_, _, List.takeWhile_append_dropWhile.symm, isIdentifier_takeWhile h, startsWord_dropWhile s,
    rfl, rfl⟩

/-- Taking an identifier is reading a word. -/
theorem eatIdentifier_eq_readWord (s : Text) :
    onTokens (eatIdentifier s) = readWord (ofText s) := by
  unfold eatIdentifier eat
  rw [← ofText_trimStart]
  cases hs : s.trimStart with
  | nil => rfl
  | cons c after =>
    have hblank := isBlankChar_of_trimStart hs
    by_cases hat : c = '@'
    · subst hat
      cases hstarts : startsWord after with
      | true =>
        obtain ⟨w, rest, rfl, hw, hrest, htake, hdrop⟩ := exists_run hstarts
        have htokens := TypeToken.ofText_escaped hw hrest
        rw [List.cons_append] at htokens
        simp [htake, hdrop, hw.1, onTokens, htokens, readWord]
      | false =>
        have htokens : ofText ('@' :: after) = mark '@' :: ofText after := by
          rw [ofText, if_neg (by decide), if_neg (by decide), if_neg (by simp [hstarts])]
        simp [takeWhile_eq_nil hstarts, onTokens, htokens, readWord]
    · cases hstarts : startsWord (c :: after) with
      | true =>
        obtain ⟨w, rest, hsplit, hw, hrest, htake, hdrop⟩ := exists_run hstarts
        have htokens := TypeToken.ofText_word hw hrest
        rw [← hsplit] at htokens
        simp only [if_neg hat, htake, hdrop, if_neg hw.1, htokens]
        rfl
      | false =>
        have hword : isIdentifierChar c = false := hstarts
        have htokens : ofText (c :: after) = mark c :: ofText after := by
          rw [ofText, if_neg (by simp [hblank]), if_neg (by simp [hword]), if_neg (by simp [hat])]
        simp [hat, takeWhile_eq_nil hstarts, onTokens, htokens, readWord]

/-- What a walk finds is kept, and the text that it leaves becomes its tokens. -/
theorem onTokens_some {α : Type} (a : α) (rest : Text) :
    onTokens (some (a, rest)) = some (a, ofText rest) := rfl

/-- Taking a name is reading a name. -/
theorem eatName_eq_readName (s : Text) : onTokens (eatName s) = readName (ofText s) := by
  unfold eatName readName
  rw [← eatIdentifier_eq_readWord]
  rcases eatIdentifier s with _ | ⟨name, s₁⟩
  · rfl
  simp only [Option.bind_some, onTokens_some]
  rcases hcolon : eat ':' s₁ with ⟨_ | _, s₂⟩
  · obtain ⟨htokens, hne⟩ := ofText_of_not_eat hcolon
    simp only [htokens, onTokens_some]
  · simp only [ofText_of_eat rfl hcolon]
    rcases hagain : eat ':' s₂ with ⟨_ | _, s₃⟩
    · obtain ⟨htokens, hne⟩ := ofText_of_not_eat hagain
      simp only [htokens]
      rfl
    · simp only [ofText_of_eat rfl hagain, ← eatIdentifier_eq_readWord]
      rcases eatIdentifier s₃ with _ | ⟨other, s₄⟩ <;> rfl

/-! ## Marks behind a type -/

/-- Taking commas is reading them as further dimensions. -/
theorem readDimensions_eatCommas (t : TypeRef) (rank : Nat) (s : Text) :
    readDimensions t rank (ofText s) =
      readDimensions t (eatCommas rank s).1 (ofText (eatCommas rank s).2) ∧
    ∀ ts, ofText (eatCommas rank s).2 ≠ mark ',' :: ts := by
  fun_induction eatCommas rank s with
  | case1 rank s rest h ih =>
    rw [ofText_of_eat rfl h, readDimensions]
    exact ih
  | case2 rank s rest h =>
    obtain ⟨htokens, hne⟩ := ofText_of_not_eat h
    exact ⟨by rw [htokens], hne⟩

/-- Where no suffix comes next, the type is complete. -/
theorem readSuffixes_of_ne {t : TypeRef} {ts : List TypeToken}
    (h : ∀ c ∈ ['?', '*', '['], ∀ us, ts ≠ mark c :: us) : readSuffixes t ts = some (t, ts) := by
  unfold readSuffixes
  split
  · rfl
  · exact absurd rfl (h '?' (by simp) _)
  · exact absurd rfl (h '*' (by simp) _)
  · exact absurd rfl (h '[' (by simp) _)
  · rfl

/-- Taking suffixes is reading them. -/
theorem eatSuffixes_eq_readSuffixes (t : TypeRef) (s : Text) :
    onTokens (eatSuffixes t s) = readSuffixes t (ofText s) := by
  fun_induction eatSuffixes t s with
  | case1 t s rest hhook ih => rw [ih, ofText_of_eat rfl hhook, readSuffixes]
  | case2 t s s₁ hhook rest hstar ih =>
    rw [ih, (ofText_of_not_eat hhook).1, ofText_of_eat rfl hstar, readSuffixes]
  | case3 t s s₁ hhook s₂ hstar rest hopened =>
    obtain ⟨htokens, hne⟩ := ofText_of_not_eat hhook
    obtain ⟨htokens₁, hne₁⟩ := ofText_of_not_eat hstar
    obtain ⟨htokens₂, hne₂⟩ := ofText_of_not_eat hopened
    have hends : ∀ c ∈ ['?', '*', '['], ∀ us, ofText rest ≠ mark c :: us := by
      rw [htokens₁, htokens₂] at hne
      rw [htokens₂] at hne₁
      simpa using ⟨hne, hne₁, hne₂⟩
    rw [htokens, htokens₁, htokens₂, readSuffixes_of_ne hends, onTokens_some]
  | case4 t s s₁ hhook s₂ hstar s₃ hopened rest hclosed ih =>
    have hdimensions := (readDimensions_eatCommas t 1 s₃).1
    rw [ih, (ofText_of_not_eat hhook).1, (ofText_of_not_eat hstar).1, ofText_of_eat rfl hopened,
      readSuffixes, hdimensions, ofText_of_eat rfl hclosed, readDimensions]
  | case5 t s s₁ hhook s₂ hstar s₃ hopened rest hopen =>
    obtain ⟨hdimensions, hcomma⟩ := readDimensions_eatCommas t 1 s₃
    obtain ⟨htokens, hbracket⟩ := ofText_of_not_eat hopen
    rw [(ofText_of_not_eat hhook).1, (ofText_of_not_eat hstar).1, ofText_of_eat rfl hopened,
      readSuffixes, hdimensions]
    rw [htokens] at hcomma ⊢
    unfold readDimensions
    split
    · exact absurd ‹_› (hcomma _)
    · exact absurd ‹_› (hbracket _)
    · rfl

/-! ## Types -/

/-- A text begins with a word among its tokens exactly when it begins with one. -/
theorem ofText_ne_word (hstarts : startsWord s.trimStart = false) (w : Text)
    (ts : List TypeToken) : ofText s.trimStart ≠ .word w :: ts := by
  intro hts
  have hwritten := TypeToken.written_ofText s.trimStart
  rw [hts] at hwritten
  generalize hs : s.trimStart = after at hstarts hwritten
  cases hwritten with
  | blank hblank _ =>
    rw [isBlankChar_of_trimStart hs] at hblank
    cases hblank
  | word hw _ _ =>
    rw [TypeToken.startsWord_append hw] at hstarts
    cases hstarts

/-- Taking the name of a tuple element is leaving out its token. -/
theorem eatElementName_eq_drop (s : Text) :
    (eatElementName s).map ofText = some (dropElementName (ofText s)) := by
  unfold eatElementName
  rw [← ofText_trimStart s]
  cases hstarts : startsWord s.trimStart with
  | false =>
    rw [if_neg (by simp), Option.map_some]
    unfold dropElementName
    split
    · exact absurd ‹_› (ofText_ne_word hstarts _ _)
    · rfl
  | true =>
    obtain ⟨w, rest, hsplit, hw, hrest, -⟩ := exists_run hstarts
    have htokens : ofText s.trimStart = .word w :: ofText rest := by
      rw [hsplit, TypeToken.ofText_word hw hrest]
    have hread := eatIdentifier_eq_readWord s.trimStart
    rw [htokens, readWord] at hread
    rw [if_pos rfl, htokens, dropElementName, Option.map_map]
    exact (Option.map_map Prod.snd _ _).symm.trans (congrArg (Option.map Prod.snd) hread)

/-- With some fuel every walk agrees with its reader. -/
structure EatsAlike (fuel : Nat) : Prop where
  type (s : Text) : onTokens (eatType fuel s) = readType fuel (ofText s)
  elements (s : Text) : onTokens (eatElements fuel s) = readElements fuel (ofText s)
  arguments (s : Text) : onTokens (eatArguments fuel s) = readArguments fuel (ofText s)
  segments (s : Text) : onTokens (eatSegments fuel s) = readSegments fuel (ofText s)

variable {fuel : Nat}

/-- What follows a walk follows its reader. -/
theorem onTokens_bind {α β : Type} {x : Walking α} {y : Reading α} {f : α × Text → Walking β}
    {g : α × List TypeToken → Reading β} (hx : onTokens x = y)
    (h : ∀ a rest, onTokens (f (a, rest)) = g (a, ofText rest)) :
    onTokens (x.bind f) = y.bind g := by
  subst hx
  rcases x with _ | ⟨a, rest⟩
  · rfl
  · exact h a rest

/-- A result that changes on its way changes for the reader too. -/
theorem onTokens_map {α β : Type} (x : Walking α) (f : α → β) :
    onTokens (x.map fun (a, rest) => (f a, rest)) = (onTokens x).map fun (a, ts) => (f a, ts) := by
  rcases x with _ | ⟨a, rest⟩ <;> rfl

/-- What does not begin as a tuple is read as a name. -/
theorem readType_of_ne {ts : List TypeToken} (h : ∀ us, ts ≠ mark '(' :: us) :
    readType (fuel + 1) ts = (readSegments fuel ts).bind fun r => readSuffixes (.named r.1) r.2 := by
  rw [readType]
  exact h

/-- With one more unit of fuel types are read alike. -/
theorem EatsAlike.type_succ (ih : EatsAlike fuel) (s : Text) :
    onTokens (eatType (fuel + 1) s) = readType (fuel + 1) (ofText s) := by
  unfold eatType
  rcases hopened : eat '(' s with ⟨_ | _, s₁⟩
  · obtain ⟨htokens, hne⟩ := ofText_of_not_eat hopened
    rw [htokens, readType_of_ne hne]
    exact onTokens_bind (ih.segments s₁) fun ss rest => eatSuffixes_eq_readSuffixes _ _
  · rw [ofText_of_eat rfl hopened, readType]
    exact onTokens_bind (ih.elements s₁) fun es rest => eatSuffixes_eq_readSuffixes _ _

/-- With one more unit of fuel tuple elements are read alike. -/
theorem EatsAlike.elements_succ (ih : EatsAlike fuel) (s : Text) :
    onTokens (eatElements (fuel + 1) s) = readElements (fuel + 1) (ofText s) := by
  unfold eatElements readElements
  refine onTokens_bind (ih.type s) fun e s₁ => ?_
  have hname := eatElementName_eq_drop s₁
  obtain ⟨s₂, hs₂, hdrop⟩ := Option.map_eq_some_iff.1 hname
  simp only [hs₂, Option.bind_some, ← hdrop]
  rcases hclosed : eat ')' s₂ with ⟨_ | _, s₃⟩
  · obtain ⟨htokens, hne⟩ := ofText_of_not_eat hclosed
    rcases hcomma : eat ',' s₃ with ⟨_ | _, s₄⟩
    · obtain ⟨htokens', hne'⟩ := ofText_of_not_eat hcomma
      rw [htokens'] at hne
      simp only [hcomma, htokens, htokens']
      rfl
    · simp only [hcomma, htokens, ofText_of_eat rfl hcomma, ← ih.elements]
      exact onTokens_map _ _
  · simp only [ofText_of_eat rfl hclosed]
    rfl

/-- With one more unit of fuel type arguments are read alike. -/
theorem EatsAlike.arguments_succ (ih : EatsAlike fuel) (s : Text) :
    onTokens (eatArguments (fuel + 1) s) = readArguments (fuel + 1) (ofText s) := by
  unfold eatArguments readArguments
  refine onTokens_bind (ih.type s) fun a s₁ => ?_
  simp only
  rcases hclosed : eat '>' s₁ with ⟨_ | _, s₂⟩
  · obtain ⟨htokens, hne⟩ := ofText_of_not_eat hclosed
    rcases hcomma : eat ',' s₂ with ⟨_ | _, s₃⟩
    · obtain ⟨htokens', hne'⟩ := ofText_of_not_eat hcomma
      rw [htokens'] at hne
      simp only [hcomma, htokens, htokens']
      rfl
    · simp only [hcomma, htokens, ofText_of_eat rfl hcomma, ← ih.arguments]
      exact onTokens_map _ _
  · simp only [ofText_of_eat rfl hclosed]
    rfl

/-- The type arguments of a segment, which may have none, are read alike. -/
theorem EatsAlike.optional (ih : EatsAlike fuel) (s : Text) :
    onTokens (match eat '<' s with
      | (true, s) => eatArguments fuel s
      | (false, s) => some ([], s)) =
    match ofText s with
      | mark '<' :: ts => readArguments fuel ts
      | ts => some ([], ts) := by
  rcases hopened : eat '<' s with ⟨_ | _, s₁⟩
  · obtain ⟨htokens, hne⟩ := ofText_of_not_eat hopened
    simp only [htokens]
    rfl
  · simp only [ofText_of_eat rfl hopened]
    exact ih.arguments s₁

/-- With one more unit of fuel segments are read alike. -/
theorem EatsAlike.segments_succ (ih : EatsAlike fuel) (s : Text) :
    onTokens (eatSegments (fuel + 1) s) = readSegments (fuel + 1) (ofText s) := by
  unfold eatSegments readSegments
  refine onTokens_bind (eatName_eq_readName s) fun name s₁ => ?_
  refine onTokens_bind (ih.optional s₁) fun as s₂ => ?_
  simp only
  rcases hdot : eat '.' s₂ with ⟨_ | _, s₃⟩
  · obtain ⟨htokens, hne⟩ := ofText_of_not_eat hdot
    simp only [htokens]
    rfl
  · simp only [ofText_of_eat rfl hdot, ← ih.segments]
    exact onTokens_map _ _

/-- Characters and tokens are read alike, whatever the fuel. -/
theorem eatsAlike (fuel : Nat) : EatsAlike fuel := by
  induction fuel with
  | zero => constructor <;> exact fun _ => rfl
  | succ fuel ih => exact ⟨ih.type_succ, ih.elements_succ, ih.arguments_succ, ih.segments_succ⟩

/-! ## Texts -/

/-- A text has no more tokens than characters. -/
theorem length_ofText_le (s : Text) : (ofText s).length ≤ s.length := by
  have hwritten := TypeToken.written_ofText s
  generalize ofText s = ts at hwritten
  induction hwritten with
  | nil => exact Nat.le_refl 0
  | blank _ _ ih => exact Nat.le_succ_of_le ih
  | word hw _ _ ih =>
    have hpos := List.length_pos_of_ne_nil hw.1
    rw [List.length_cons, List.length_append]
    omega
  | escaped hw _ _ ih =>
    rw [List.length_cons, List.length_append, List.length_cons]
    omega
  | mark _ _ _ _ ih => exact Nat.succ_le_succ ih

/-- A text without tokens holds nothing but blanks. -/
theorem ofText_eq_nil_iff : ofText s = [] ↔ s.trimStart = [] := by
  rw [← ofText_trimStart]
  constructor
  · intro hnil
    cases hs : s.trimStart with
    | nil => rfl
    | cons c after =>
      have hwritten := TypeToken.written_ofText (c :: after)
      rw [← hs, hnil, hs] at hwritten
      cases hwritten with
      | blank hblank _ =>
        rw [isBlankChar_of_trimStart hs] at hblank
        cases hblank
  · intro hs
    rw [hs]
    rfl

/-- A walk that leaves nothing but blanks leaves no tokens. -/
theorem onTokens_eq_some_nil_iff {α : Type} {x : Walking α} {a : α} :
    onTokens x = some (a, []) ↔ ∃ rest, x = some (a, rest) ∧ rest.trimStart = [] := by
  unfold onTokens
  rw [Option.map_eq_some_iff]
  constructor
  · rintro ⟨⟨b, rest⟩, rfl, hpair⟩
    obtain ⟨rfl, hrest⟩ := Prod.mk.inj hpair
    exact ⟨rest, rfl, ofText_eq_nil_iff.1 hrest⟩
  · rintro ⟨rest, rfl, hrest⟩
    exact ⟨(a, rest), rfl, by simp only [ofText_eq_nil_iff.2 hrest]⟩

/-- **The characters of a text spell the type that its tokens spell.** -/
theorem ofCharacters?_eq_ofText? (s : Text) : ofCharacters? s = ofText? s := by
  have hfuel : 3 * (ofText s).length + 1 ≤ 3 * s.length + 3 := by
    have := length_ofText_le s
    omega
  ext t
  rw [ofText?_eq_some_iff_spells, ← readType_eq_some_nil_iff hfuel, ← (eatsAlike _).type s,
    onTokens_eq_some_nil_iff]
  unfold ofCharacters?
  rcases eatType (3 * s.length + 3) s with _ | ⟨u, rest⟩
  · simp
  · simp [and_comm]

end PartialDocs.TypeRef
