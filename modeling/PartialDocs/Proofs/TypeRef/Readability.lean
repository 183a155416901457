import Mathlib.Data.List.Forall2
import PartialDocs.Proofs.Index.Step
import PartialDocs.Proofs.TypeRef.Separation

/-!
# Spellings are read in one way

The last character of a spelling tells arrays and pointers from each other and from names and type
parameters, a backtick at its beginning tells type parameters from names, and the brackets of type
arguments are closed where the arguments end.  So no two normal forms have one spelling
(`spelling_injective`), and a documentation ID shows exactly the normal forms of the parameter
types (`signature_eq_iff_normal`).
-/

set_option autoImplicit false

namespace PartialDocs

open Text (Closed joinWith joinWith_append_closing_inj)
open TypeToken (startsWord)

namespace NormalType

/-! ## The ends of a spelling -/

/-- Whether a text ends in a character that is no mark of an array, a pointer or a reference. -/
def EndsPlain (s : Text) : Prop := ∃ c, s.getLast? = some c ∧ c ∉ [']', '*', '@']

variable {s t : Text}

/-- What stands in front does not matter to the end. -/
theorem EndsPlain.append_left (h : EndsPlain t) (s : Text) : EndsPlain (s ++ t) := by
  obtain ⟨c, hlast, hc⟩ := h
  exact ⟨c, by rw [List.getLast?_append, hlast]; rfl, hc⟩

/-- A text of other characters than the closing ones ends plainly. -/
theorem EndsPlain.of_all {p : Char → Bool} (hne : s ≠ []) (h : ∀ c ∈ s, p c = true)
    (hp : [']', '*', '@'].any p = false) : EndsPlain s := by
  refine ⟨s.getLast hne, List.getLast?_eq_some_getLast hne, ?_⟩
  intro hmem
  exact List.any_eq_false.1 hp _ hmem (h _ (List.getLast_mem hne))

/-- An identifier ends plainly. -/
theorem endsPlain_of_isIdentifier (h : IsIdentifier s) : EndsPlain s :=
  .of_all h.1 h.2 (by decide +kernel)

/-- A number ends plainly. -/
theorem endsPlain_ofNat (n : Nat) : EndsPlain (Text.ofNat n) :=
  .of_all Nat.toDigits_ne_nil (fun _ hc => Text.isDigit_of_mem_ofNat hc) (by decide)

/-- Braces end plainly. -/
theorem endsPlain_braced (texts : List Text) : EndsPlain (TypeRef.braced texts) := by
  have hbrace : EndsPlain ['\x7d'] := ⟨_, rfl, by decide⟩
  exact hbrace.append_left _

/-- A segment ends plainly. -/
theorem endsPlain_spellingOfSegment {s : NormalSegment} (h : s.Proper) :
    EndsPlain (spellingOfSegment s) := by
  obtain ⟨hname, -⟩ := h
  rename_i name as
  rw [spellingOfSegment]
  cases spellings as with
  | nil =>
    rw [argumentText, List.append_nil]
    exact endsPlain_of_isIdentifier hname
  | cons x xs => exact (endsPlain_braced (x :: xs)).append_left name

/-- Joined texts that end plainly end plainly. -/
theorem endsPlain_joinWith : ∀ {xs : List Text}, xs ≠ [] → (∀ x ∈ xs, EndsPlain x) →
    EndsPlain (joinWith ['.'] xs)
  | [], hne, _ => absurd rfl hne
  | [x], _, h => h x List.mem_cons_self
  | x :: y :: xs, _, h => by
    have hmore := endsPlain_joinWith (List.cons_ne_nil y xs) (List.forall_mem_cons.1 h).2
    rw [joinWith]
    exact hmore.append_left _

/-- The sorts of normal forms. -/
inductive Shape where
  | methodParameter
  | outerParameter
  | named
  | array
  | pointer

/-- The sort of a normal form. -/
def shape : NormalType → Shape
  | methodParameter _ => .methodParameter
  | outerParameter _ => .outerParameter
  | named _ => .named
  | array _ _ => .array
  | pointer _ => .pointer

/-- The sort that the beginning of a text shows. -/
def shapeOfStart : Text → Shape
  | '\x60' :: '\x60' :: _ => .methodParameter
  | '\x60' :: _ => .outerParameter
  | _ => .named

/-- The sort of the normal form that a text spells. -/
def shapeOf (s : Text) : Shape :=
  if s.getLast? = some ']' then .array
  else if s.getLast? = some '*' then .pointer
  else shapeOfStart s

/-- The shape of a text that ends plainly is told by its beginning. -/
theorem shapeOf_of_endsPlain (h : EndsPlain s) : shapeOf s = shapeOfStart s := by
  obtain ⟨c, hlast, hc⟩ := h
  simp only [List.mem_cons, List.not_mem_nil, or_false, not_or] at hc
  unfold shapeOf
  rw [hlast, if_neg (by simpa using hc.1), if_neg (by simpa using hc.2.1)]

/-- A text that begins with a word has the shape of a name. -/
theorem shapeOfStart_of_startsWord (h : startsWord s = true) : shapeOfStart s = .named := by
  have hbacktick : isIdentifierChar '\x60' = false := by decide +kernel
  unfold shapeOfStart
  split
  · simp [startsWord, hbacktick] at h
  · simp [startsWord, hbacktick] at h
  · rfl

/-- A number behind a backtick has the shape of a type parameter. -/
theorem shapeOfStart_ofNat (n : Nat) : shapeOfStart ('\x60' :: Text.ofNat n) = .outerParameter := by
  unfold shapeOfStart
  split
  · rename_i hticks
    have hmem : '\x60' ∈ Text.ofNat n := by
      rw [(List.cons.inj hticks).2]
      exact List.mem_cons_self
    exact absurd (Text.isDigit_of_mem_ofNat hmem) (by decide)
  · rfl
  · rename_i hnone
    exact absurd rfl (hnone _)

/-- The mark of an array ends in a bracket. -/
theorem arrayMark_eq_append (rank : Nat) : ∃ s, TypeRef.arrayMark rank = s ++ [']'] := by
  unfold TypeRef.arrayMark
  split
  · exact ⟨['['], rfl⟩
  · exact ⟨_, rfl⟩

/-- A dotted name ends plainly. -/
theorem endsPlain_spellings {ss : List NormalSegment} (hne : ss ≠ []) (hall : ∀ s ∈ ss, s.Proper) :
    EndsPlain (joinWith ['.'] (spellingsOfSegments ss)) := by
  apply endsPlain_joinWith (spellingsOfSegments_ne_nil hne)
  rw [spellingsOfSegments_eq_map, List.forall_mem_map]
  exact fun s hs => endsPlain_spellingOfSegment (hall s hs)

/-- The spelling of a type ends like an array or like a pointer, or its beginning shows its sort. -/
theorem Proper.ends {t : NormalType} (h : t.Proper) :
    (EndsPlain t.spelling ∧ shapeOfStart t.spelling = t.shape) ∨
      (t.spelling.getLast? = some ']' ∧ t.shape = .array) ∨
      (t.spelling.getLast? = some '*' ∧ t.shape = .pointer) := by
  cases h with
  | methodParameter index =>
    rw [spelling]
    exact .inl ⟨(endsPlain_ofNat index).append_left _, rfl⟩
  | outerParameter index =>
    rw [spelling]
    exact .inl ⟨(endsPlain_ofNat index).append_left ['\x60'], shapeOfStart_ofNat index⟩
  | named hne hall =>
    rw [spelling]
    exact .inl ⟨endsPlain_spellings hne hall,
      shapeOfStart_of_startsWord (startsWord_spellings hne hall)⟩
  | array commas h =>
    obtain ⟨s, hs⟩ := arrayMark_eq_append (commas + 1)
    rw [spelling, hs, ← List.append_assoc]
    exact .inr (.inl ⟨List.getLast?_concat, rfl⟩)
  | pointer h =>
    rw [spelling]
    exact .inr (.inr ⟨List.getLast?_concat, rfl⟩)

/-- The sort of a proper normal form is known from its spelling. -/
theorem Proper.shapeOf_spelling {t : NormalType} (h : t.Proper) : shapeOf t.spelling = t.shape := by
  obtain ⟨hplain, hstart⟩ | ⟨hlast, hshape⟩ | ⟨hlast, hshape⟩ := h.ends
  · rw [shapeOf_of_endsPlain hplain, hstart]
  · rw [shapeOf, if_pos hlast, hshape]
  · rw [shapeOf, hlast, if_neg (by decide), if_pos rfl, hshape]

/-- Types with the same spelling have the same shape. -/
theorem Proper.shape_eq {t u : NormalType} (ht : t.Proper) (hu : u.Proper)
    (h : t.spelling = u.spelling) : u.shape = t.shape := by
  rw [← hu.shapeOf_spelling, ← h, ht.shapeOf_spelling]

/-- The spelling of a type does not end like a reference. -/
theorem Proper.getLast?_spelling_ne {t : NormalType} (h : t.Proper) :
    t.spelling.getLast? ≠ some '@' := by
  obtain ⟨⟨c, hlast, hc⟩, -⟩ | ⟨hlast, -⟩ | ⟨hlast, -⟩ := h.ends
  · rw [hlast]
    rintro ⟨⟩
    simp at hc
  · rw [hlast]
    decide
  · rw [hlast]
    decide

/-! ## Dimensions -/

/-- The dimensions of an array are told by its commas. -/
theorem count_comma_dimensions (n : Nat) :
    (joinWith [','] (List.replicate (n + 1) "0:".toList)).count ',' = n := by
  induction n with
  | zero => decide
  | succ n ih =>
    rw [List.replicate_succ, List.replicate_succ, joinWith, ← List.replicate_succ,
      List.count_append, ih, List.count_append]
    simp
    omega

/-- The mark of an array has one bracket that opens, and behind it a comma less than dimensions. -/
theorem arrayMark_succ (commas : Nat) : ∃ s, TypeRef.arrayMark (commas + 1) = '[' :: s ∧ '[' ∉ s ∧
    s.count ',' = commas := by
  unfold TypeRef.arrayMark
  split
  · rename_i hone
    obtain rfl : commas = 0 := by omega
    exact ⟨[']'], rfl, by decide, by decide⟩
  · refine ⟨joinWith [','] (List.replicate (commas + 1) "0:".toList) ++ [']'], rfl, ?_, ?_⟩
    · intro h
      rw [List.mem_append] at h
      obtain h | h := h
      · obtain h | ⟨p, hp, h⟩ := Text.mem_of_mem_joinWith h
        · simp at h
        · rw [List.eq_of_mem_replicate hp] at h
          revert h
          decide
      · simp at h
    · rw [List.count_append, count_comma_dimensions]
      rfl

/-- An array type can be taken apart in one way only. -/
theorem append_arrayMark_inj {m n : Nat}
    (h : s ++ TypeRef.arrayMark (m + 1) = t ++ TypeRef.arrayMark (n + 1)) : s = t ∧ m = n := by
  obtain ⟨u, hu, hnot, hcount⟩ := arrayMark_succ m
  obtain ⟨v, hv, hnot', hcount'⟩ := arrayMark_succ n
  rw [hu, hv] at h
  obtain ⟨hst, huv⟩ := Text.append_cons_inj_of_last hnot hnot' h
  exact ⟨hst, by rw [← hcount, ← hcount', huv]⟩

/-! ## Dotted names -/

/-- An identifier can be told from what stands behind it. -/
theorem identifier_append_inj {v w : Text} (hv : IsIdentifier v) (hw : IsIdentifier w)
    (hs : startsWord s = false) (ht : startsWord t = false) (h : v ++ s = w ++ t) :
    v = w ∧ s = t := by
  have htokens := congrArg TypeToken.ofText h
  rw [TypeToken.ofText_word hv hs, TypeToken.ofText_word hw ht, List.cons.injEq] at htokens
  obtain rfl : v = w := TypeToken.word.inj htokens.1
  exact ⟨rfl, List.append_cancel_left h⟩

/-- The segments behind the first one, each behind a dot. -/
def dotTail : List Text → Text
  | [] => []
  | x :: xs => '.' :: joinWith ['.'] (x :: xs)

/-- Joined texts are the first one and a tail of the other ones. -/
theorem joinWith_dot_cons (x : Text) (xs : List Text) :
    joinWith ['.'] (x :: xs) = x ++ dotTail xs := by
  cases xs with
  | nil => exact (List.append_nil x).symm
  | cons y ys =>
    rw [joinWith, dotTail]
    simp

/-- No word goes on with type arguments or behind a dot. -/
theorem startsWord_argumentText (args xs : List Text) :
    startsWord (argumentText args ++ dotTail xs) = false := by
  cases args with
  | cons a as => exact (by decide +kernel : isIdentifierChar '\x7b' = false)
  | nil =>
    cases xs with
    | nil => rfl
    | cons x xs => exact (by decide +kernel : isIdentifierChar '.' = false)

/-- Type arguments end where their brace is closed. -/
theorem argumentText_append_inj {args args' xs ys : List Text} (hargs : ∀ a ∈ args, Closed a)
    (hargs' : ∀ a ∈ args', Closed a)
    (h : argumentText args ++ dotTail xs = argumentText args' ++ dotTail ys) :
    args = args' ∧ dotTail xs = dotTail ys := by
  have hstart : ∀ (a : Text) (as : List Text) (xs ys : List Text),
      argumentText (a :: as) ++ dotTail xs ≠ dotTail ys := by
    intro a as xs ys heq
    cases ys with
    | nil => cases heq
    | cons y ys => exact absurd (List.cons.inj heq).1 (by decide)
  match args, args' with
  | [], [] => exact ⟨rfl, h⟩
  | [], a :: as => exact absurd h.symm (hstart a as ys xs)
  | a :: as, [] => exact absurd h (hstart a as xs ys)
  | a :: as, a' :: as' =>
    have hinside : joinWith [','] (a :: as) ++ '\x7d' :: dotTail xs =
        joinWith [','] (a' :: as') ++ '\x7d' :: dotTail ys := by
      simpa [argumentText, TypeRef.braced] using h
    exact joinWith_append_closing_inj hargs hargs' (List.cons_ne_nil a as)
      (List.cons_ne_nil a' as') (by decide) (by decide) hinside

/-! ## Normal forms with one spelling -/

mutual

/-- **Proper normal forms with one spelling are the same.** -/
theorem spelling_injective : ∀ {t u : NormalType}, t.Proper → u.Proper →
    t.spelling = u.spelling → t = u
  | .methodParameter i, u, ht, hu, h => by
    have hshape := ht.shape_eq hu h
    cases hu with
    | methodParameter j =>
      rw [spelling, spelling] at h
      rw [Text.ofNat_inj (List.append_cancel_left h)]
    | _ => cases hshape
  | .outerParameter i, u, ht, hu, h => by
    have hshape := ht.shape_eq hu h
    cases hu with
    | outerParameter j =>
      rw [spelling, spelling] at h
      rw [Text.ofNat_inj (List.cons.inj h).2]
    | _ => cases hshape
  | .named ss, u, .named hne hall, hu, h => by
    have hshape := (Proper.named hne hall).shape_eq hu h
    cases hu with
    | named hne' hall' =>
      rw [spelling, spelling] at h
      rw [segments_injective hne hne' hall hall' h]
    | _ => cases hshape
  | .array t _, u, .array m ht, hu, h => by
    have hshape := (Proper.array m ht).shape_eq hu h
    cases hu with
    | array n hu =>
      rw [spelling, spelling] at h
      obtain ⟨htu, rfl⟩ := append_arrayMark_inj h
      rw [spelling_injective ht hu htu]
    | _ => cases hshape
  | .pointer t, u, .pointer ht, hu, h => by
    have hshape := (Proper.pointer ht).shape_eq hu h
    cases hu with
    | pointer hu =>
      rw [spelling, spelling] at h
      rw [spelling_injective ht hu (List.append_cancel_right h)]
    | _ => cases hshape

/-- Segments can be told from their spellings between dots. -/
theorem segments_injective : ∀ {ss us : List NormalSegment}, ss ≠ [] → us ≠ [] →
    (∀ s ∈ ss, s.Proper) → (∀ u ∈ us, u.Proper) →
    joinWith ['.'] (spellingsOfSegments ss) = joinWith ['.'] (spellingsOfSegments us) → ss = us
  | [], us, hne, _, _, _, _ => absurd rfl hne
  | .mk name as :: ss, us, _, hne, hall, hall', h => by
    obtain ⟨⟨name', as'⟩, us, rfl⟩ := List.exists_cons_of_ne_nil hne
    obtain ⟨⟨hname, has⟩, hss⟩ := List.forall_mem_cons.1 hall
    obtain ⟨⟨hname', has'⟩, hus⟩ := List.forall_mem_cons.1 hall'
    rw [spellingsOfSegments, spellingsOfSegments, joinWith_dot_cons, joinWith_dot_cons,
      spellingOfSegment, spellingOfSegment, List.append_assoc, List.append_assoc] at h
    obtain ⟨rfl, hbehind⟩ := identifier_append_inj hname hname' (startsWord_argumentText _ _)
      (startsWord_argumentText _ _) h
    obtain ⟨hargs, htail⟩ :=
      argumentText_append_inj (closed_spellings has) (closed_spellings has') hbehind
    rw [spellings_injective has has' hargs]
    match ss, us with
    | [], [] => rfl
    | [], u :: us => cases htail
    | s :: ss, [] => cases htail
    | s :: ss, u :: us =>
      rw [segments_injective (List.cons_ne_nil s ss) (List.cons_ne_nil u us) hss hus
        (List.cons.inj htail).2]

/-- Types can be told from their spellings. -/
theorem spellings_injective : ∀ {ts us : List NormalType}, (∀ t ∈ ts, t.Proper) →
    (∀ u ∈ us, u.Proper) → spellings ts = spellings us → ts = us
  | [], [], _, _, _ => rfl
  | [], u :: us, _, _, h => by cases h
  | t :: ts, [], _, _, h => by cases h
  | t :: ts, u :: us, hts, hus, h => by
    obtain ⟨ht, hts⟩ := List.forall_mem_cons.1 hts
    obtain ⟨hu, hus⟩ := List.forall_mem_cons.1 hus
    rw [spellings, spellings, List.cons.injEq] at h
    rw [spelling_injective ht hu h.1, spellings_injective hts hus h.2]

end

end NormalType

/-! ## Signatures -/

open TypeRef (ofText?)

/-- The normal form of a type as written. -/
def normalType? (context : TypeContext) (s : Text) : Option NormalType :=
  (ofText? s).map (TypeRef.normal context)

/-- Whether two parameters, each among its own type parameters, have types of one normal form and
are passed in the same way. -/
def SameNormal (context other : TypeContext) (p q : Parameter) : Prop :=
  p.byRef = q.byRef ∧ normalType? context p.type = normalType? other q.type

variable {context other : TypeContext} {p q : Parameter} {ps qs : List Parameter}

/-- A mark of a reference can be told from what stands before it. -/
theorem append_reference_inj {x y : Text} {byRef byRef' : Bool} (hx : x.getLast? ≠ some '@')
    (hy : y.getLast? ≠ some '@') :
    (x ++ if byRef then ['@'] else []) = (y ++ if byRef' then ['@'] else []) ↔
      byRef = byRef' ∧ x = y := by
  have hnever : ∀ {u v : Text}, u.getLast? ≠ some '@' → u ≠ v ++ ['@'] := by
    rintro u v hu rfl
    exact hu List.getLast?_concat
  cases byRef <;> cases byRef'
  · simp
  · simpa using hnever hx
  · simpa using (hnever hy).symm
  · simp

/-- Parameters with readable types are spelled alike exactly where their types have one normal form
and they are passed in the same way. -/
theorem encodeParameter_eq_iff (hp : (ofText? p.type).isSome) (hq : (ofText? q.type).isSome) :
    encodeParameter context p = encodeParameter other q ↔ SameNormal context other p q := by
  obtain ⟨t, ht⟩ := Option.isSome_iff_exists.1 hp
  obtain ⟨u, hu⟩ := Option.isSome_iff_exists.1 hq
  have htp := TypeRef.proper_of_ofText? ht context
  have hup := TypeRef.proper_of_ofText? hu other
  unfold encodeParameter encodeType SameNormal normalType?
  simp only [ht, hu]
  rw [(TypeRef.built_of_ofText? ht).encode_eq_spelling context,
    (TypeRef.built_of_ofText? hu).encode_eq_spelling other,
    append_reference_inj htp.getLast?_spelling_ne hup.getLast?_spelling_ne]
  have hspelling : (t.normal context).spelling = (u.normal other).spelling ↔
      t.normal context = u.normal other :=
    ⟨NormalType.spelling_injective htp hup, congrArg _⟩
  rw [hspelling, Option.map_some, Option.map_some, Option.some.injEq]

/-- Parameters are encoded alike just when they have the same normal forms. -/
theorem map_encodeParameter_eq_iff (hps : ∀ p ∈ ps, (ofText? p.type).isSome)
    (hqs : ∀ q ∈ qs, (ofText? q.type).isSome) :
    ps.map (encodeParameter context) = qs.map (encodeParameter other) ↔
      List.Forall₂ (SameNormal context other) ps qs := by
  induction ps generalizing qs with
  | nil =>
    rw [List.forall₂_nil_left_iff, List.map_nil, eq_comm, List.map_eq_nil_iff]
  | cons p ps ih =>
    obtain ⟨hp, hps⟩ := List.forall_mem_cons.1 hps
    cases qs with
    | nil => simp
    | cons q qs =>
      obtain ⟨hq, hqs⟩ := List.forall_mem_cons.1 hqs
      rw [List.map_cons, List.map_cons, List.cons.injEq, List.forall₂_cons,
        encodeParameter_eq_iff hp hq, ih hps hqs]

/-- Lists of parameters with readable types are spelled alike exactly where they have one normal
form after the other. -/
theorem encodeParameters_eq_iff (hps : ∀ p ∈ ps, (ofText? p.type).isSome)
    (hqs : ∀ q ∈ qs, (ofText? q.type).isSome) :
    encodeParameters context ps = encodeParameters other qs ↔
      List.Forall₂ (SameNormal context other) ps qs := by
  rw [← map_encodeParameter_eq_iff hps hqs]
  constructor
  · exact map_eq_of_encodeParameters_eq (fun p hp => .inl (hps p hp)) fun q hq => .inl (hqs q hq)
  · intro h
    unfold encodeParameters
    rw [h]

/-- **The spelling of parameters shows exactly their normal forms and how they are passed**, so
methods of one name and arity in one type share their key exactly where these are the same. -/
theorem signature_eq_iff_normal :
    (∀ (outer method method' : List Text) (ps qs : List Parameter),
      (∀ p ∈ ps, (ofText? p.type).isSome) → (∀ q ∈ qs, (ofText? q.type).isSome) →
      (encodeParameters ⟨outer, method⟩ ps = encodeParameters ⟨outer, method'⟩ qs ↔
        List.Forall₂ (SameNormal ⟨outer, method⟩ ⟨outer, method'⟩) ps qs)) ∧
    ∀ (b : IndexBuilder) (c : SymbolId) (s u : Symbol),
      s.container = some c → u.container = some c → s.kind = .method → u.kind = .method →
      s.name = u.name → s.arity = u.arity →
      (∀ p ∈ s.parameters, (ofText? p.type).isSome) →
      (∀ q ∈ u.parameters, (ofText? q.type).isSome) →
      (b.key s = b.key u ↔
        List.Forall₂ (SameNormal ⟨b.outerTypeParameters c, s.typeParameters⟩
          ⟨b.outerTypeParameters c, u.typeParameters⟩) s.parameters u.parameters) := by
  constructor
  · intro outer method method' ps qs hps hqs
    exact encodeParameters_eq_iff hps hqs
  · intro b c s u hs hu hkind hkind' hname harity hps hqs
    rw [← encodeParameters_eq_iff hps hqs, b.key_of_member (by rw [hkind]; rfl) hs,
      b.key_of_member (by rw [hkind']; rfl) hu, SymbolKey.member.injEq]
    simp only [hkind, hkind', hname, harity, true_and]
    rfl

/-- The methods of a generic class. -/
def genericBuilder : IndexBuilder :=
  (IndexBuilder.empty.declare
    { name := "Box".toList, kind := .class, typeParameters := ["T".toList] }).1

/-- A method of the class. -/
def genericMethod : Symbol :=
  { name := "M".toList, kind := .method, container := some 0, typeParameters := ["U".toList],
    parameters := [⟨"Map<T, U?[]>".toList, false⟩, ⟨"int?".toList, true⟩] }

/-- The same method, written in other words. -/
def rewordedMethod : Symbol :=
  { name := "M".toList, kind := .method, container := some 0, typeParameters := ["V".toList],
    parameters := [⟨"Map < T?, V [] >".toList, false⟩,
      ⟨"System.Nullable<System.Int32>".toList, true⟩] }

/-- Neither the name of a type parameter nor a question mark behind it makes a difference, and a
nullable keyword is the type that it stands for. -/
theorem signature_eq_iff_normal_reworded :
    (∀ p ∈ genericMethod.parameters, (ofText? p.type).isSome) ∧
    (∀ q ∈ rewordedMethod.parameters, (ofText? q.type).isSome) ∧
    genericMethod.arity = rewordedMethod.arity ∧
    genericBuilder.outerTypeParameters 0 = ["T".toList] ∧
    List.Forall₂ (SameNormal ⟨["T".toList], ["U".toList]⟩ ⟨["T".toList], ["V".toList]⟩)
      genericMethod.parameters rewordedMethod.parameters ∧
    genericBuilder.key genericMethod = genericBuilder.key rewordedMethod := by
  have hread : ∀ p ∈ genericMethod.parameters, (ofText? p.type).isSome := by decide +kernel
  have hread' : ∀ q ∈ rewordedMethod.parameters, (ofText? q.type).isSome := by decide +kernel
  have houter : genericBuilder.outerTypeParameters 0 = ["T".toList] := by decide +kernel
  have hspelling : encodeParameters ⟨["T".toList], ["U".toList]⟩ genericMethod.parameters =
      encodeParameters ⟨["T".toList], ["V".toList]⟩ rewordedMethod.parameters := by decide +kernel
  have hnormal := (signature_eq_iff_normal.1 ["T".toList] ["U".toList] ["V".toList] _ _ hread
    hread').1 hspelling
  have hkey := (signature_eq_iff_normal.2 genericBuilder 0 genericMethod rewordedMethod rfl rfl rfl
    rfl rfl rfl hread hread').2
  rw [houter] at hkey
  exact ⟨hread, hread', rfl, houter, hnormal, hkey hnormal⟩

end PartialDocs
