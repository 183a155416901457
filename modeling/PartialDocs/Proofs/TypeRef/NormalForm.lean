import PartialDocs.Proofs.Text.Brackets
import PartialDocs.Proofs.TypeRef.Printing
import PartialDocs.TypeRef.Encoding

/-!
# Normal forms of types

A type may be written in several ways that a documentation ID does not tell apart.  Its normal
form knows a type parameter by its number, a keyword for a built-in type by the full name of that
type, and a tuple or a nullable built-in value type as the generic type that it stands for.  A
documentation ID spells the normal form (`encode_eq_spelling`).  The spelling of a type that has
been read is not empty and closes its brackets (`closed_encode_of_ofText?`).
-/

set_option autoImplicit false

namespace PartialDocs

open Text (Closed closed_of_all closed_bracketed closed_joinWith_dot joinWith joinWith_append)

mutual

/-- A type as a documentation ID shows it. -/
inductive NormalType where
  | methodParameter (index : Nat)
  | outerParameter (index : Nat)
  | named (segments : List NormalSegment)
  | array (element : NormalType) (rank : Nat)
  | pointer (target : NormalType)

/-- One segment of a dotted name, with its type arguments. -/
inductive NormalSegment where
  | mk (name : Text) (arguments : List NormalType)

end

namespace NormalType

/-- The pieces of a dotted name as segments, of which the last one has the arguments. -/
def segmentsOf (arguments : List NormalType) : List Text → List NormalSegment
  | [] => []
  | piece :: rest =>
    match rest with
    | [] => [.mk piece arguments]
    | _ :: _ => .mk piece [] :: segmentsOf arguments rest

/-- The segments of a name that may have dots. -/
def dotted (name : Text) (arguments : List NormalType) : List NormalSegment :=
  segmentsOf arguments (Text.splitOn '.' name)

/-- A generic type of the namespace System. -/
def system (name : String) (arguments : List NormalType) : NormalType :=
  named [.mk "System".toList [], .mk name.toList arguments]

end NormalType

/-- The normal form of a single word.  A keyword hides every type parameter, a type parameter of the
method hides those of the types around it, and among these an inner one hides an outer one. -/
def TypeContext.normalWord (context : TypeContext) (name : Text) : NormalType :=
  match builtInType? name with
  | some (fullName, _) => .named (NormalType.dotted fullName [])
  | none =>
    match context.method.idxOf? name with
    | some i => .methodParameter i
    | none =>
      match lastIdxOf? context.outer name with
      | some i => .outerParameter i
      | none => .named (NormalType.dotted name [])

namespace TypeRef

variable (context : TypeContext)

mutual

/-- The normal form of a type. -/
def normal : TypeRef → NormalType
  | named segments =>
    match segments with
    | [.mk name []] => context.normalWord name
    | _ => .named (normalSegments segments)
  | nullable inner =>
    if inner.isBuiltInValue then .system "Nullable" [inner.normal] else inner.normal
  | array element rank => .array element.normal rank
  | pointer target => .pointer target.normal
  | tuple elements => .system "ValueTuple" (normalAll elements)

/-- The normal forms of the segments of a dotted name. -/
def normalSegments : List TypeSegment → List NormalSegment
  | [] => []
  | s :: ss => normalSegment s ++ normalSegments ss

/-- The normal form of one segment, which has two names if it was written with an alias. -/
def normalSegment : TypeSegment → List NormalSegment
  | .mk name arguments => NormalType.dotted name (normalAll arguments)

/-- The normal forms of several types. -/
def normalAll : List TypeRef → List NormalType
  | [] => []
  | t :: ts => t.normal :: normalAll ts

end

end TypeRef

/-! ## Spellings of normal forms -/

namespace NormalType

/-- The spelling of type arguments in braces, if there are any. -/
def argumentText : List Text → Text
  | [] => []
  | x :: xs => TypeRef.braced (x :: xs)

mutual

/-- The spelling of a normal form. -/
def spelling : NormalType → Text
  | methodParameter index => "``".toList ++ Text.ofNat index
  | outerParameter index => '\x60' :: Text.ofNat index
  | named segments => joinWith ['.'] (spellingsOfSegments segments)
  | array element rank => element.spelling ++ TypeRef.arrayMark rank
  | pointer target => target.spelling ++ ['*']

/-- The spellings of segments. -/
def spellingsOfSegments : List NormalSegment → List Text
  | [] => []
  | s :: ss => spellingOfSegment s :: spellingsOfSegments ss

/-- The spelling of one segment. -/
def spellingOfSegment : NormalSegment → Text
  | .mk name arguments => name ++ argumentText (spellings arguments)

/-- The spellings of several types. -/
def spellings : List NormalType → List Text
  | [] => []
  | t :: ts => t.spelling :: spellings ts

end

/-- Segments are spelled one by one. -/
theorem spellingsOfSegments_eq_map (ss : List NormalSegment) :
    spellingsOfSegments ss = ss.map spellingOfSegment := by
  induction ss with
  | nil => rfl
  | cons s ss ih => rw [spellingsOfSegments, ih, List.map_cons]

/-- Segments beside each other are spelled beside each other. -/
theorem spellingsOfSegments_append (ss us : List NormalSegment) :
    spellingsOfSegments (ss ++ us) = spellingsOfSegments ss ++ spellingsOfSegments us := by
  simp only [spellingsOfSegments_eq_map, List.map_append]

/-- Where there are segments there are spellings. -/
theorem spellingsOfSegments_ne_nil {ss : List NormalSegment} (h : ss ≠ []) :
    spellingsOfSegments ss ≠ [] := by
  simpa [spellingsOfSegments_eq_map] using h

/-- The pieces of a name make segments. -/
theorem segmentsOf_ne_nil {pieces : List Text} (h : pieces ≠ []) (as : List NormalType) :
    segmentsOf as pieces ≠ [] := by
  obtain ⟨piece, rest, rfl⟩ := List.exists_cons_of_ne_nil h
  cases rest with
  | nil => exact List.cons_ne_nil _ _
  | cons next rest => exact List.cons_ne_nil _ _

/-- A name has a segment for each of its pieces. -/
theorem length_segmentsOf (as : List NormalType) :
    ∀ pieces : List Text, (segmentsOf as pieces).length = pieces.length
  | [] => rfl
  | [_] => rfl
  | _ :: next :: rest => by
    rw [segmentsOf, List.length_cons, List.length_cons, length_segmentsOf as (next :: rest)]

/-- The arguments of a name can be told from its segments. -/
theorem segmentsOf_inj {as bs : List NormalType} : ∀ {pieces : List Text}, pieces ≠ [] →
    segmentsOf as pieces = segmentsOf bs pieces → as = bs
  | [], hne, _ => absurd rfl hne
  | [piece], _, h => by
    rw [segmentsOf, segmentsOf, List.cons.injEq, NormalSegment.mk.injEq] at h
    exact h.1.2
  | _ :: next :: rest, _, h => by
    rw [segmentsOf, segmentsOf, List.cons.injEq] at h
    exact segmentsOf_inj (List.cons_ne_nil next rest) h.2

/-- Every name has a segment. -/
theorem dotted_ne_nil (name : Text) (as : List NormalType) : dotted name as ≠ [] :=
  segmentsOf_ne_nil (Text.splitOn_ne_nil '.' name) as

/-- The arguments do not matter to the number of segments. -/
theorem length_dotted (name : Text) (as bs : List NormalType) :
    (dotted name as).length = (dotted name bs).length := by
  rw [dotted, dotted, length_segmentsOf, length_segmentsOf]

/-- Segments of one name differ in their arguments only. -/
theorem dotted_inj {name : Text} {as bs : List NormalType} (h : dotted name as = dotted name bs) :
    as = bs :=
  segmentsOf_inj (Text.splitOn_ne_nil '.' name) h

/-- The segments of a name are spelled as its pieces between dots, with the arguments at the end. -/
theorem joinWith_spellings_segmentsOf (as : List NormalType) :
    ∀ {pieces : List Text}, pieces ≠ [] →
      joinWith ['.'] (spellingsOfSegments (segmentsOf as pieces)) =
        joinWith ['.'] pieces ++ argumentText (spellings as)
  | [], h => absurd rfl h
  | [piece], _ => rfl
  | piece :: next :: rest, _ => by
    have hmore := joinWith_spellings_segmentsOf as (List.cons_ne_nil next rest)
    obtain ⟨s, ss, hss⟩ := List.exists_cons_of_ne_nil
      (segmentsOf_ne_nil (List.cons_ne_nil next rest) as)
    rw [segmentsOf, hss, spellingsOfSegments, spellingsOfSegments, joinWith,
      ← spellingsOfSegments, ← hss, hmore, joinWith]
    simp [spellingOfSegment, spellings, argumentText]

/-- The segments of a dotted name are spelled as the name and its arguments. -/
theorem joinWith_spellings_dotted (name : Text) (as : List NormalType) :
    joinWith ['.'] (spellingsOfSegments (dotted name as)) =
      name ++ argumentText (spellings as) := by
  unfold dotted
  rw [joinWith_spellings_segmentsOf as (Text.splitOn_ne_nil '.' name), Text.joinWith_splitOn]

end NormalType

namespace TypeRef

open NormalType (spelling spellings spellingsOfSegments spellingOfSegment argumentText dotted
  joinWith_spellings_dotted dotted_ne_nil)

variable (context : TypeContext)

/-- A name without arguments is spelled as it is. -/
theorem spelling_dotted (name : Text) : spelling (.named (dotted name [])) = name := by
  rw [spelling, joinWith_spellings_dotted]
  exact List.append_nil name

/-- A word is encoded by the spelling of its normal form. -/
theorem meaning_eq_spelling (name : Text) :
    (context.meaning? name).getD name = (context.normalWord name).spelling := by
  unfold TypeContext.meaning? TypeContext.normalWord
  cases builtInType? name with
  | some builtIn =>
    obtain ⟨fullName, isValue⟩ := builtIn
    exact (spelling_dotted fullName).symm
  | none =>
    cases context.method.idxOf? name with
    | some i => rfl
    | none =>
      cases lastIdxOf? context.outer name with
      | some i => rfl
      | none => exact (spelling_dotted name).symm

/-- A segment has a normal form of one segment at least. -/
theorem normalSegment_ne_nil (s : TypeSegment) : normalSegment context s ≠ [] := by
  obtain ⟨name, as⟩ := s
  rw [normalSegment]
  exact dotted_ne_nil name _

/-- Where there are segments there are normal ones. -/
theorem normalSegments_ne_nil {ss : List TypeSegment} (h : ss ≠ []) :
    normalSegments context ss ≠ [] := by
  obtain ⟨s, ss, rfl⟩ := List.exists_cons_of_ne_nil h
  rw [normalSegments]
  exact List.append_ne_nil_of_left_ne_nil (normalSegment_ne_nil context s) _

/-- A nullable type is a generic one where it stands for a value, and its own inner type otherwise.
-/
theorem encode_nullable (t : TypeRef) :
    encode context (.nullable t) =
      if t.isBuiltInValue then "System.Nullable".toList ++ braced [encode context t]
      else encode context t := by
  conv_lhs => unfold encode

/-- A tuple is the generic type of its elements. -/
theorem encode_tuple (es : List TypeRef) :
    encode context (.tuple es) = "System.ValueTuple".toList ++ braced (encodeAll context es) := by
  conv_lhs => unfold encode

/-- An array is its element type and a mark. -/
theorem encode_array (t : TypeRef) (rank : Nat) :
    encode context (.array t rank) = encode context t ++ arrayMark rank := by
  conv_lhs => unfold encode

/-- A pointer is its target and a star. -/
theorem encode_pointer (t : TypeRef) : encode context (.pointer t) = encode context t ++ ['*'] := by
  conv_lhs => unfold encode

/-- A dotted name is encoded segment by segment, unless it is a single word. -/
theorem encode_named {ss : List TypeSegment} (h : ∀ name, ss ≠ [.mk name []]) :
    encode context (.named ss) = joinWith ['.'] (encodeSegments context ss) := by
  unfold encode
  split
  · exact absurd rfl (h _)
  · rfl

/-- Only a single word can be the keyword for a value type. -/
theorem isBuiltInValue_named {ss : List TypeSegment} (h : ∀ name, ss ≠ [.mk name []]) :
    isBuiltInValue (.named ss) = false := by
  unfold isBuiltInValue
  split
  · rename_i heq
    exact absurd (TypeRef.named.inj heq) (h _)
  · rfl

/-- A dotted name has the normal form of its segments, unless it is a single word. -/
theorem normal_named {ss : List TypeSegment} (h : ∀ name, ss ≠ [.mk name []]) :
    normal context (.named ss) = .named (normalSegments context ss) := by
  unfold normal
  split
  · exact absurd rfl (h _)
  · rfl

/-- A generic type of the namespace System is spelled with its arguments in braces. -/
theorem spelling_system (name : String) {ts : List NormalType} (h : ts ≠ []) :
    spelling (.system name ts) = ("System." ++ name).toList ++ braced (spellings ts) := by
  obtain ⟨t, ts, rfl⟩ := List.exists_cons_of_ne_nil h
  rw [NormalType.system, spelling, spellingsOfSegments, spellingsOfSegments, spellingsOfSegments,
    spellingOfSegment, spellingOfSegment]
  simp [joinWith, spellings, argumentText]

/-- Types have their normal forms one by one. -/
theorem normalAll_eq_map (ts : List TypeRef) : normalAll context ts = ts.map (normal context) := by
  induction ts with
  | nil => rfl
  | cons t ts ih => rw [normalAll, ih, List.map_cons]

variable {P : Text → Prop}

mutual

/-- **A documentation ID spells the normal form of a type.** -/
theorem Built.encode_eq_spelling : ∀ {t : TypeRef}, Built P t →
    t.encode context = (t.normal context).spelling
  | .named ss, .named _ hall => by
    have hsegments := joinWith_encodeSegments hall
    by_cases hword : ∃ name, ss = [.mk name []]
    · obtain ⟨name, rfl⟩ := hword
      exact meaning_eq_spelling context name
    · rw [not_exists] at hword
      rw [encode_named context hword, normal_named context hword, spelling, hsegments]
  | .nullable inner, .nullable h => by
    have hinner := h.encode_eq_spelling
    have hname : "System." ++ "Nullable" = "System.Nullable" := by decide
    rw [encode_nullable, normal, hinner]
    split
    · rw [spelling_system "Nullable" (List.cons_ne_nil _ _), hname, spellings, spellings]
    · rfl
  | .array element _, .array _ h => by
    rw [encode_array, h.encode_eq_spelling, normal, spelling]
  | .pointer target, .pointer h => by
    rw [encode_pointer, h.encode_eq_spelling, normal, spelling]
  | .tuple es, .tuple hne hall => by
    have hes := encodeAll_eq_spellings hall
    have hsome : normalAll context es ≠ [] := by simpa [normalAll_eq_map] using hne
    have hname : "System." ++ "ValueTuple" = "System.ValueTuple" := by decide
    rw [encode_tuple, normal, spelling_system "ValueTuple" hsome, hname, hes]

/-- Segments between dots are encoded by the spellings of their normal forms between dots. -/
theorem joinWith_encodeSegments : ∀ {ss : List TypeSegment}, (∀ s ∈ ss, BuiltSegment P s) →
    joinWith ['.'] (encodeSegments context ss) =
      joinWith ['.'] (spellingsOfSegments (normalSegments context ss))
  | [], _ => rfl
  | [s], hall => by
    have hs := (hall s List.mem_cons_self).encode_eq_spelling
    rw [normalSegments, normalSegments, List.append_nil, ← hs]
    rfl
  | s :: s' :: ss, hall => by
    obtain ⟨hfirst, hothers⟩ := List.forall_mem_cons.1 hall
    have hs := hfirst.encode_eq_spelling
    have hmore := joinWith_encodeSegments hothers
    have hne := NormalType.spellingsOfSegments_ne_nil (normalSegment_ne_nil context s)
    have hne' := NormalType.spellingsOfSegments_ne_nil
      (normalSegments_ne_nil context (List.cons_ne_nil s' ss))
    rw [normalSegments, NormalType.spellingsOfSegments_append, joinWith_append '.' hne hne', ← hs,
      ← hmore, encodeSegments, encodeSegments, joinWith]
    simp

/-- A segment is encoded by the spelling of its normal form. -/
theorem BuiltSegment.encode_eq_spelling : ∀ {s : TypeSegment}, BuiltSegment P s →
    encodeSegment context s = joinWith ['.'] (spellingsOfSegments (normalSegment context s))
  | .mk name as, .mk _ hall => by
    have has := encodeAll_eq_spellings hall
    rw [normalSegment, joinWith_spellings_dotted, ← has]
    cases as with
    | nil => exact (List.append_nil name).symm
    | cons a as => rfl

/-- Types are encoded by the spellings of their normal forms. -/
theorem encodeAll_eq_spellings : ∀ {ts : List TypeRef}, (∀ t ∈ ts, Built P t) →
    encodeAll context ts = spellings (normalAll context ts)
  | [], _ => rfl
  | t :: ts, hall => by
    obtain ⟨ht, hts⟩ := List.forall_mem_cons.1 hall
    rw [encodeAll, ht.encode_eq_spelling, encodeAll_eq_spellings hts, normalAll, spellings]

end

end TypeRef

/-! ## Proper normal forms -/

mutual

/-- Whether the names of a normal form are identifiers, its dotted names have a segment and its
arrays a dimension. -/
inductive NormalType.Proper : NormalType → Prop
  | methodParameter (index : Nat) : NormalType.Proper (.methodParameter index)
  | outerParameter (index : Nat) : NormalType.Proper (.outerParameter index)
  | named {ss : List NormalSegment} :
      ss ≠ [] → (∀ s ∈ ss, NormalSegment.Proper s) → NormalType.Proper (.named ss)
  | array {t : NormalType} (commas : Nat) :
      NormalType.Proper t → NormalType.Proper (.array t (commas + 1))
  | pointer {t : NormalType} : NormalType.Proper t → NormalType.Proper (.pointer t)

/-- Whether the names in a segment are identifiers. -/
inductive NormalSegment.Proper : NormalSegment → Prop
  | mk {name : Text} {as : List NormalType} :
      IsIdentifier name → (∀ a ∈ as, NormalType.Proper a) → NormalSegment.Proper (.mk name as)

end

namespace TypeRef

open NormalType (segmentsOf dotted dotted_ne_nil)

/-- An identifier has no other characters than its own. -/
theorem not_mem_of_isIdentifier {w : Text} {c : Char} (hw : IsIdentifier w)
    (hc : isIdentifierChar c = false) : c ∉ w := by
  intro h
  rw [hw.2 c h] at hc
  cases hc

/-- The pieces of a name between its dots are identifiers. -/
theorem IsName.isIdentifier_of_mem {name p : Text} (h : IsName name)
    (hp : p ∈ Text.splitOn '.' name) : IsIdentifier p := by
  have hone : ∀ {w : Text}, IsIdentifier w → Text.splitOn '.' w = [w] := fun hw =>
    Text.splitOn_of_not_mem (not_mem_of_isIdentifier hw (by decide +kernel))
  obtain hname | ⟨v, w, hv, hw, rfl⟩ := h
  · rw [hone hname] at hp
    exact List.mem_singleton.1 hp ▸ hname
  · rw [Text.splitOn_append_cons, hone hv, hone hw] at hp
    obtain rfl | hp := List.mem_cons.1 hp
    · exact hv
    · exact List.mem_singleton.1 hp ▸ hw

/-- Proper arguments and proper pieces make proper segments. -/
theorem proper_segmentsOf {as : List NormalType} (has : ∀ a ∈ as, a.Proper) :
    ∀ {pieces : List Text}, (∀ p ∈ pieces, IsIdentifier p) →
      ∀ s ∈ segmentsOf as pieces, NormalSegment.Proper s
  | [], _ => List.forall_mem_nil _
  | [piece], h => List.forall_mem_singleton.2 (.mk (h piece List.mem_cons_self) has)
  | piece :: next :: rest, h => by
    obtain ⟨hpiece, hrest⟩ := List.forall_mem_cons.1 h
    exact List.forall_mem_cons.2
      ⟨.mk hpiece (List.forall_mem_nil _), proper_segmentsOf has hrest⟩

/-- A generic type of the namespace System is proper if its arguments are. -/
theorem proper_system {name : String} {ts : List NormalType} (hname : IsIdentifier name.toList)
    (hts : ∀ t ∈ ts, t.Proper) : (NormalType.system name ts).Proper := by
  have hsystem : IsIdentifier "System".toList := by decide +kernel
  exact .named (List.cons_ne_nil _ _) (List.forall_mem_cons.2
    ⟨.mk hsystem (List.forall_mem_nil _), List.forall_mem_singleton.2 (.mk hname hts)⟩)

/-- A word has a proper normal form. -/
theorem proper_normalWord (context : TypeContext) {name : Text} (h : IsName name) :
    (context.normalWord name).Proper := by
  have hdotted : ∀ {fullName : Text}, (∀ p ∈ Text.splitOn '.' fullName, IsIdentifier p) →
      (NormalType.named (dotted fullName [])).Proper := fun hpieces =>
    .named (dotted_ne_nil _ _) (proper_segmentsOf (List.forall_mem_nil _) hpieces)
  unfold TypeContext.normalWord
  split
  · rename_i fullName isValue hfound
    have htable : ∀ x ∈ builtInTypes, ∀ p ∈ Text.splitOn '.' x.2.1.toList, IsIdentifier p := by
      decide +kernel
    unfold builtInType? at hfound
    rw [Option.map_eq_some_iff] at hfound
    obtain ⟨x, hx, hname⟩ := hfound
    cases hname
    exact hdotted (htable x (List.mem_of_find?_eq_some hx))
  · split
    · exact .methodParameter _
    · split
      · exact .outerParameter _
      · exact hdotted fun p hp => h.isIdentifier_of_mem hp

mutual

/-- The normal form of a type that is built from names is proper. -/
theorem Built.proper_normal (context : TypeContext) : ∀ {t : TypeRef}, Built IsName t →
    (t.normal context).Proper
  | .named ss, .named hne hall => by
    have hsegments := proper_normalSegments context hall
    by_cases hword : ∃ name, ss = [.mk name []]
    · obtain ⟨name, rfl⟩ := hword
      obtain ⟨hname, -⟩ := hall _ List.mem_cons_self
      exact proper_normalWord context hname
    · rw [not_exists] at hword
      rw [normal_named context hword]
      exact .named (normalSegments_ne_nil context hne) hsegments
  | .nullable inner, .nullable h => by
    have hinner := h.proper_normal context
    rw [normal]
    split
    · exact proper_system (by decide +kernel) (List.forall_mem_singleton.2 hinner)
    · exact hinner
  | .array element _, .array commas h => by
    rw [normal]
    exact .array commas (h.proper_normal context)
  | .pointer target, .pointer h => by
    rw [normal]
    exact .pointer (h.proper_normal context)
  | .tuple es, .tuple _ hall => by
    rw [normal]
    exact proper_system (by decide +kernel) (proper_normalAll context hall)

/-- Segments that have been read have proper normal forms. -/
theorem proper_normalSegments (context : TypeContext) : ∀ {ss : List TypeSegment},
    (∀ s ∈ ss, BuiltSegment IsName s) → ∀ s ∈ normalSegments context ss, s.Proper
  | [], _ => List.forall_mem_nil _
  | s :: ss, hall => by
    obtain ⟨hs, hss⟩ := List.forall_mem_cons.1 hall
    rw [normalSegments, List.forall_mem_append]
    exact ⟨hs.proper_normalSegment context, proper_normalSegments context hss⟩

/-- A segment that has been read has a proper normal form. -/
theorem BuiltSegment.proper_normalSegment (context : TypeContext) : ∀ {s : TypeSegment},
    BuiltSegment IsName s → ∀ u ∈ normalSegment context s, u.Proper
  | .mk name as, .mk hname hall => by
    rw [normalSegment]
    exact proper_segmentsOf (proper_normalAll context hall) fun p hp => hname.isIdentifier_of_mem hp

/-- Types that have been read have proper normal forms. -/
theorem proper_normalAll (context : TypeContext) : ∀ {ts : List TypeRef},
    (∀ t ∈ ts, Built IsName t) → ∀ u ∈ normalAll context ts, u.Proper
  | [], _ => List.forall_mem_nil _
  | t :: ts, hall => by
    obtain ⟨ht, hts⟩ := List.forall_mem_cons.1 hall
    rw [normalAll, List.forall_mem_cons]
    exact ⟨ht.proper_normal context, proper_normalAll context hts⟩

end

/-! ## Closed spellings -/

/-- Braces around closed texts close. -/
theorem closed_braced {texts : List Text} (h : ∀ x ∈ texts, Closed x) : Closed (braced texts) :=
  closed_bracketed h (by decide) (by decide) (by decide)

/-- The mark of an array closes its brackets. -/
theorem closed_arrayMark (rank : Nat) : Closed (arrayMark rank) := by
  unfold arrayMark
  split
  · decide
  · refine closed_bracketed ?_ (by decide) (by decide) (by decide)
    intro x hx
    rw [List.eq_of_mem_replicate hx]
    decide

/-- A number has no brackets. -/
theorem closed_ofNat (n : Nat) : Closed (Text.ofNat n) :=
  closed_of_all (fun _ hc => Text.isDigit_of_mem_ofNat hc) (by decide)

/-- An identifier has no brackets. -/
theorem closed_of_isIdentifier {w : Text} (hw : IsIdentifier w) : Closed w :=
  closed_of_all hw.2 (by decide +kernel)

end TypeRef

namespace NormalType

open TypeRef (closed_braced closed_arrayMark closed_ofNat closed_of_isIdentifier)

/-- Type arguments that close their brackets do so between braces too. -/
theorem closed_argumentText {texts : List Text} (h : ∀ x ∈ texts, Closed x) :
    Closed (argumentText texts) := by
  cases texts with
  | nil => exact Text.closed_nil
  | cons x xs => exact closed_braced h

mutual

/-- The spelling of a proper normal form closes its brackets and has commas in them only. -/
theorem Proper.closed : ∀ {t : NormalType}, t.Proper → Closed t.spelling
  | .methodParameter index, _ => by
    have hticks : Closed "``".toList := by decide
    rw [spelling]
    exact hticks.append (closed_ofNat index)
  | .outerParameter index, _ => by
    have htick : Closed ['\x60'] := by decide
    rw [spelling]
    exact htick.append (closed_ofNat index)
  | .named ss, .named _ hall => by
    rw [spelling]
    exact closed_joinWith_dot (closed_spellingsOfSegments hall)
  | .array element _, .array commas h => by
    rw [spelling]
    exact h.closed.append (closed_arrayMark _)
  | .pointer target, .pointer h => by
    have hstar : Closed ['*'] := by decide
    rw [spelling]
    exact h.closed.append hstar

/-- Proper segments are spelled with closed brackets. -/
theorem closed_spellingsOfSegments : ∀ {ss : List NormalSegment}, (∀ s ∈ ss, s.Proper) →
    ∀ x ∈ spellingsOfSegments ss, Closed x
  | [], _ => List.forall_mem_nil _
  | .mk name as :: ss, hall => by
    obtain ⟨⟨hname, has⟩, hss⟩ := List.forall_mem_cons.1 hall
    rw [spellingsOfSegments, List.forall_mem_cons, spellingOfSegment]
    exact ⟨(closed_of_isIdentifier hname).append (closed_argumentText (closed_spellings has)),
      closed_spellingsOfSegments hss⟩

/-- Proper types are spelled with closed brackets. -/
theorem closed_spellings : ∀ {ts : List NormalType}, (∀ t ∈ ts, t.Proper) →
    ∀ x ∈ spellings ts, Closed x
  | [], _ => List.forall_mem_nil _
  | t :: ts, hall => by
    obtain ⟨ht, hts⟩ := List.forall_mem_cons.1 hall
    rw [spellings, List.forall_mem_cons]
    exact ⟨ht.closed, closed_spellings hts⟩

end

/-- What is spelled for a dotted name begins with a word. -/
theorem startsWord_spellings {ss : List NormalSegment} (hne : ss ≠ []) (hall : ∀ s ∈ ss, s.Proper) :
    TypeToken.startsWord (joinWith ['.'] (spellingsOfSegments ss)) = true := by
  obtain ⟨⟨name, as⟩, ss, rfl⟩ := List.exists_cons_of_ne_nil hne
  obtain ⟨hname, -⟩ := hall _ List.mem_cons_self
  have hword : ∀ s, TypeToken.startsWord (name ++ s) = true := TypeToken.startsWord_append hname
  cases ss with
  | nil => exact hword _
  | cons s ss =>
    rw [spellingsOfSegments, spellingsOfSegments, joinWith, spellingOfSegment, List.append_assoc,
      List.append_assoc]
    exact hword _

/-- A proper type has a spelling. -/
theorem Proper.spelling_ne_nil {t : NormalType} (h : t.Proper) : t.spelling ≠ [] := by
  cases h with
  | methodParameter index => exact List.cons_ne_nil _ _
  | outerParameter index => exact List.cons_ne_nil _ _
  | named hne hall =>
    intro hnil
    have hstarts := startsWord_spellings hne hall
    rw [← spelling, hnil] at hstarts
    cases hstarts
  | array commas h =>
    have hmark : TypeRef.arrayMark (commas + 1) ≠ [] := by
      unfold TypeRef.arrayMark
      split <;> exact List.cons_ne_nil _ _
    exact List.append_ne_nil_of_right_ne_nil _ hmark
  | pointer h => exact List.append_ne_nil_of_right_ne_nil _ (List.cons_ne_nil _ _)

end NormalType

namespace TypeRef

variable {s : Text} {t : TypeRef}

/-- The normal form of a type that has been read is proper. -/
theorem proper_of_ofText? (h : ofText? s = some t) (context : TypeContext) :
    (t.normal context).Proper :=
  (built_of_ofText? h).proper_normal context

/-- **The spelling of a type that has been read closes its brackets and has commas only in them.**
-/
theorem closed_encode_of_ofText? (h : ofText? s = some t) (context : TypeContext) :
    Closed (t.encode context) := by
  rw [(built_of_ofText? h).encode_eq_spelling context]
  exact (proper_of_ofText? h context).closed

/-- A type that has been read has an encoding. -/
theorem encode_ne_nil_of_ofText? (h : ofText? s = some t) (context : TypeContext) :
    t.encode context ≠ [] := by
  rw [(built_of_ofText? h).encode_eq_spelling context]
  exact (proper_of_ofText? h context).spelling_ne_nil

end TypeRef

end PartialDocs
