import Mathlib.Data.Set.Operations
import Mathlib.Logic.Equiv.Basic
import PartialDocs.Proofs.Index.Run
import PartialDocs.Proofs.TypeRef.NormalForm

/-!
# Renaming type parameters

A documentation ID shows a type parameter by its number.  Its spelling therefore depends on the
words of a type only through what they stand for (`encode_mapWords`), and new names for the type
parameters that keep apart what was apart change nothing (`encode_rename`).
-/

set_option autoImplicit false

namespace PartialDocs

namespace TypeRef

mutual

/-- The words of a type that may name a type parameter: those that stand alone and without type
arguments. -/
def words : TypeRef → List Text
  | named segments =>
    match segments with
    | [.mk name []] => [name]
    | _ => wordsOfSegments segments
  | nullable inner => inner.words
  | array element _ => element.words
  | pointer target => target.words
  | tuple elements => wordsOfAll elements

/-- The words in the type arguments of segments. -/
def wordsOfSegments : List TypeSegment → List Text
  | [] => []
  | s :: ss => wordsOfSegment s ++ wordsOfSegments ss

/-- The words in the type arguments of one segment. -/
def wordsOfSegment : TypeSegment → List Text
  | .mk _ arguments => wordsOfAll arguments

/-- The words of several types. -/
def wordsOfAll : List TypeRef → List Text
  | [] => []
  | t :: ts => t.words ++ wordsOfAll ts

end

variable (f : Text → Text)

mutual

/-- A type with other words in the places of its own. -/
def mapWords : TypeRef → TypeRef
  | named segments =>
    match segments with
    | [.mk name []] => word (f name)
    | _ => named (mapSegments segments)
  | nullable inner => nullable inner.mapWords
  | array element rank => array element.mapWords rank
  | pointer target => pointer target.mapWords
  | tuple elements => tuple (mapAll elements)

/-- Segments with other words in their type arguments. -/
def mapSegments : List TypeSegment → List TypeSegment
  | [] => []
  | s :: ss => mapSegment s :: mapSegments ss

/-- One segment with other words in its type arguments. -/
def mapSegment : TypeSegment → TypeSegment
  | .mk name arguments => .mk name (mapAll arguments)

/-- Several types with other words in the places of their own. -/
def mapAll : List TypeRef → List TypeRef
  | [] => []
  | t :: ts => t.mapWords :: mapAll ts

end

end TypeRef

namespace TypeContext

/-- Whether a word refers to a type parameter. -/
def Refers (context : TypeContext) (name : Text) : Prop :=
  builtInType? name = none ∧ (name ∈ context.outer ∨ name ∈ context.method)

instance (context : TypeContext) (name : Text) : Decidable (context.Refers name) :=
  inferInstanceAs (Decidable (_ ∧ _))

/-- Type parameters under new names. -/
def map (ρ : Text → Text) (context : TypeContext) : TypeContext :=
  ⟨context.outer.map ρ, context.method.map ρ⟩

/-- A word under the new name of the type parameter that it refers to. -/
def renamed (context : TypeContext) (ρ : Text → Text) (name : Text) : Text :=
  if context.Refers name then ρ name else name

end TypeContext

namespace TypeRef

/-- A type with new names for the type parameters that it refers to. -/
def rename (context : TypeContext) (ρ : Text → Text) (t : TypeRef) : TypeRef :=
  t.mapWords (context.renamed ρ)

/-! ## Words that stand for the same -/

/-- Whether a word stands for the same as another one among other type parameters. -/
def SameWord (context other : TypeContext) (name name' : Text) : Prop :=
  (other.meaning? name').getD name' = (context.meaning? name).getD name ∧
    (builtInType? name').any Prod.snd = (builtInType? name).any Prod.snd

variable {f : Text → Text} {context other : TypeContext}

/-- A dotted name is renamed segment by segment, unless it is a single word. -/
theorem mapWords_named {ss : List TypeSegment} (h : ∀ name, ss ≠ [.mk name []]) :
    mapWords f (.named ss) = .named (mapSegments f ss) := by
  unfold mapWords
  split
  · exact absurd rfl (h _)
  · rfl

/-- A dotted name has the words of its segments, unless it is a single word. -/
theorem words_named {ss : List TypeSegment} (h : ∀ name, ss ≠ [.mk name []]) :
    words (.named ss) = wordsOfSegments ss := by
  unfold words
  split
  · exact absurd rfl (h _)
  · rfl

/-- Dotted names do not become words. -/
theorem mapSegments_ne {ss : List TypeSegment} (h : ∀ name, ss ≠ [.mk name []]) (name : Text) :
    mapSegments f ss ≠ [.mk name []] := by
  intro heq
  match ss with
  | [] => cases heq
  | [.mk name' []] => exact h name' rfl
  | [.mk name' (a :: as)] => simp [mapSegments, mapSegment, mapAll] at heq
  | s :: s' :: ss => simp [mapSegments] at heq

/-- Renaming makes no keyword and loses none. -/
theorem isBuiltInValue_mapWords {t : TypeRef}
    (h : ∀ name ∈ t.words, SameWord context other name (f name)) :
    (t.mapWords f).isBuiltInValue = t.isBuiltInValue := by
  cases t with
  | named ss =>
    by_cases hword : ∃ name, ss = [.mk name []]
    · obtain ⟨name, rfl⟩ := hword
      exact (h name List.mem_cons_self).2
    · rw [not_exists] at hword
      rw [mapWords_named hword, isBuiltInValue_named hword,
        isBuiltInValue_named (mapSegments_ne hword)]
  | nullable inner => rfl
  | array element rank => rfl
  | pointer target => rfl
  | tuple elements => rfl

mutual

/-- **A spelling depends on the words of a type through what they stand for only.** -/
theorem encode_mapWords : ∀ {t : TypeRef},
    (∀ name ∈ t.words, SameWord context other name (f name)) →
    (t.mapWords f).encode other = t.encode context
  | .named ss, h => by
    by_cases hword : ∃ name, ss = [.mk name []]
    · obtain ⟨name, rfl⟩ := hword
      exact (h name List.mem_cons_self).1
    · rw [not_exists] at hword
      rw [words_named hword] at h
      rw [mapWords_named hword, encode_named other (mapSegments_ne hword),
        encode_named context hword, encodeSegments_mapSegments h]
  | .nullable inner, h => by
    have hvalue := isBuiltInValue_mapWords (t := inner) h
    rw [mapWords, encode_nullable, encode_nullable, hvalue, encode_mapWords (t := inner) h]
  | .array element rank, h => by
    rw [mapWords, encode_array, encode_array, encode_mapWords (t := element) h]
  | .pointer target, h => by
    rw [mapWords, encode_pointer, encode_pointer, encode_mapWords (t := target) h]
  | .tuple es, h => by
    rw [mapWords, encode_tuple, encode_tuple, encodeAll_mapAll es h]

/-- Renamed segments are encoded as before. -/
theorem encodeSegments_mapSegments : ∀ {ss : List TypeSegment},
    (∀ name ∈ wordsOfSegments ss, SameWord context other name (f name)) →
    encodeSegments other (mapSegments f ss) = encodeSegments context ss
  | [], _ => rfl
  | s :: ss, h => by
    rw [wordsOfSegments, List.forall_mem_append] at h
    rw [mapSegments, encodeSegments, encodeSegments, encodeSegment_mapSegment h.1,
      encodeSegments_mapSegments h.2]

/-- A renamed segment is encoded as before. -/
theorem encodeSegment_mapSegment : ∀ {s : TypeSegment},
    (∀ name ∈ wordsOfSegment s, SameWord context other name (f name)) →
    encodeSegment other (mapSegment f s) = encodeSegment context s
  | .mk name [], _ => rfl
  | .mk name (a :: as), h => by
    have has := encodeAll_mapAll (a :: as) h
    rw [mapAll] at has
    rw [mapSegment, mapAll, encodeSegment, encodeSegment, has]

/-- Renamed types are encoded as before. -/
theorem encodeAll_mapAll : ∀ ts : List TypeRef,
    (∀ name ∈ wordsOfAll ts, SameWord context other name (f name)) →
    encodeAll other (mapAll f ts) = encodeAll context ts
  | [], _ => rfl
  | t :: ts, h => by
    rw [wordsOfAll, List.forall_mem_append] at h
    rw [mapAll, encodeAll, encodeAll, encode_mapWords h.1, encodeAll_mapAll ts h.2]

end

end TypeRef

/-! ## New names for type parameters -/

namespace TypeContext

/-- Whether new names tell apart the words of a type and the type parameters, change nothing but
type parameters, and neither take a name from a keyword nor make it one. -/
structure IsRenaming (context : TypeContext) (ρ : Text → Text) (t : TypeRef) : Prop where
  injective : Set.InjOn ρ {n | n ∈ t.words ∨ n ∈ context.outer ∨ n ∈ context.method}
  fixes : ∀ n, n ∉ context.outer → n ∉ context.method → ρ n = n
  keywords : ∀ n, n ∈ context.outer ∨ n ∈ context.method → ρ n ≠ n →
    builtInType? n = none ∧ builtInType? (ρ n) = none

variable {context : TypeContext} {ρ : Text → Text} {t : TypeRef} {name : Text}

/-- A keyword stands for the full name of its type. -/
theorem meaning?_of_builtIn {x : Text × Bool} (h : builtInType? name = some x) :
    context.meaning? name = some x.1 := by
  unfold meaning?
  rw [h]
  rfl

/-- A renamed name stands at the place of the name, if no other name becomes the same. -/
theorem idxOf?_map {names : List Text} (h : ∀ n ∈ names, ρ n = ρ name → n = name) :
    (names.map ρ).idxOf? (ρ name) = names.idxOf? name := by
  induction names with
  | nil => rfl
  | cons n names ih =>
    obtain ⟨hn, hnames⟩ := List.forall_mem_cons.1 h
    rw [List.map_cons, List.idxOf?_cons, List.idxOf?_cons, ih hnames]
    by_cases hsame : n = name
    · rw [if_pos (by simp [hsame]), if_pos (by simp [hsame])]
    · have hsame' : ρ n ≠ ρ name := fun heq => hsame (hn heq)
      rw [if_neg (by simpa using hsame'), if_neg (by simpa using hsame)]

/-- A renamed name has the last place of the name, if no other name becomes the same. -/
theorem lastIdxOf?_map {names : List Text} (h : ∀ n ∈ names, ρ n = ρ name → n = name) :
    lastIdxOf? (names.map ρ) (ρ name) = lastIdxOf? names name := by
  unfold lastIdxOf?
  rw [← List.map_reverse, idxOf?_map (fun n hn => h n (List.mem_reverse.1 hn)), List.length_map]

/-- What no type parameter is named has its meaning from the keywords alone. -/
theorem meaning?_of_not_mem (houter : name ∉ context.outer) (hmethod : name ∉ context.method) :
    context.meaning? name = (builtInType? name).map Prod.fst := by
  have hm : context.method.idxOf? name = none := List.idxOf?_eq_none_iff.2 hmethod
  have ho : context.outer.reverse.idxOf? name = none :=
    List.idxOf?_eq_none_iff.2 (by simpa using houter)
  unfold meaning? lastIdxOf?
  rw [hm, ho]
  exact Option.or_none

/-- The name of a type parameter has a meaning. -/
theorem isSome_meaning? (h : name ∈ context.outer ∨ name ∈ context.method) :
    (context.meaning? name).isSome := by
  rw [Option.isSome_iff_ne_none]
  intro hnone
  unfold meaning? lastIdxOf? at hnone
  simp only [Option.or_eq_none_iff, Option.map_eq_none_iff, List.idxOf?_eq_none_iff,
    List.mem_reverse] at hnone
  exact h.elim hnone.2.2 hnone.2.1

/-- The new name of a type parameter stands for what its old name stood for. -/
theorem IsRenaming.meaning?_eq (h : context.IsRenaming ρ t) (hname : name ∈ t.words)
    (hkey : builtInType? name = none) (hkey' : builtInType? (ρ name) = none) :
    (context.map ρ).meaning? (ρ name) = context.meaning? name := by
  have happart : ∀ n, n ∈ context.outer ∨ n ∈ context.method → ρ n = ρ name → n = name :=
    fun n hn heq => h.injective (.inr hn) (.inl hname) heq
  unfold meaning? map
  rw [hkey, hkey', idxOf?_map fun n hn => happart n (.inr hn),
    lastIdxOf?_map fun n hn => happart n (.inl hn)]

/-- A word of the type means the same once both are renamed. -/
theorem IsRenaming.sameWord (h : context.IsRenaming ρ t) (hname : name ∈ t.words) :
    TypeRef.SameWord context (context.map ρ) name (context.renamed ρ name) := by
  unfold TypeRef.SameWord renamed
  by_cases hbound : name ∈ context.outer ∨ name ∈ context.method
  · by_cases hkey : builtInType? name = none
    · have hkey' : builtInType? (ρ name) = none := by
        by_cases hsame : ρ name = name
        · rw [hsame, hkey]
        · exact (h.keywords name hbound hsame).2
      obtain ⟨x, hx⟩ := Option.isSome_iff_exists.1 (isSome_meaning? hbound)
      rw [if_pos ⟨hkey, hbound⟩, h.meaning?_eq hname hkey hkey', hx, hkey, hkey']
      exact ⟨rfl, rfl⟩
    · -- a keyword hides the type parameter of its name
      obtain ⟨x, hx⟩ := Option.ne_none_iff_exists'.1 hkey
      rw [if_neg (fun hrefers => hkey hrefers.1), meaning?_of_builtIn hx, meaning?_of_builtIn hx]
      exact ⟨rfl, rfl⟩
  · obtain ⟨houter, hmethod⟩ := not_or.1 hbound
    have hfree : ∀ {names : List Text},
        (∀ n ∈ names, n ∈ context.outer ∨ n ∈ context.method) → name ∉ names.map ρ := by
      intro names hnames hmem
      obtain ⟨n, hn, heq⟩ := List.mem_map.1 hmem
      rw [← h.fixes name houter hmethod] at heq
      have hsame : n = name := h.injective (.inr (hnames n hn)) (.inl hname) heq
      exact hbound (hsame ▸ hnames n hn)
    have houter' : name ∉ (context.map ρ).outer := hfree fun n hn => .inl hn
    have hmethod' : name ∉ (context.map ρ).method := hfree fun n hn => .inr hn
    rw [if_neg (fun hrefers => hbound hrefers.2), meaning?_of_not_mem houter hmethod,
      meaning?_of_not_mem houter' hmethod']
    exact ⟨rfl, rfl⟩

end TypeContext

namespace TypeRef

variable {context : TypeContext} {ρ : Text → Text} {t : TypeRef}

/-- New names for the type parameters do not change the spelling of a type. -/
theorem encode_rename (h : context.IsRenaming ρ t) :
    (t.rename context ρ).encode (context.map ρ) = t.encode context :=
  encode_mapWords fun _ hname => h.sameWord hname

end TypeRef

/-! ## The parts of a generic partial method -/

/-- Whether a symbol is declared by a part of a generic partial method, which takes one parameter of
a generic type over its type parameter. -/
structure GenericPart (container : SymbolId) (name generic parameter : Text) (s : Symbol) :
    Prop where
  kind : s.kind = .method
  isPartial : s.isPartial = true
  container : s.container = some container
  name : s.name = name
  typeParameters : s.typeParameters = [parameter]
  parameters : s.parameters = [⟨generic ++ '<' :: (parameter ++ ['>']), false⟩]

namespace TypeRef

open TypeToken (mark)

variable {generic parameter : Text}

/-- A generic type of one word is read. -/
theorem ofText?_generic (hgeneric : IsIdentifier generic) (hparameter : IsIdentifier parameter) :
    ofText? (generic ++ '<' :: (parameter ++ ['>'])) =
      some (.named [.mk generic [word parameter]]) := by
  have hword : Built IsIdentifier (word parameter) :=
    .named (List.cons_ne_nil _ _)
      (List.forall_mem_singleton.2 (.mk hparameter (List.forall_mem_nil _)))
  have hbuilt : Built IsIdentifier (.named [.mk generic [word parameter]]) :=
    .named (List.cons_ne_nil _ _)
      (List.forall_mem_singleton.2 (.mk hgeneric (List.forall_mem_singleton.2 hword)))
  have hread := @ofText?_spaced _ hbuilt
    [([], .word generic), ([], mark '<'), ([], .word parameter), ([], mark '>')] [] rfl
    (by simp [Text.isBlank]) rfl
  simpa [TypeToken.spaced, TypeToken.text] using hread

/-- A generic type over the first type parameter of a method is spelled without its name. -/
theorem encodeType_generic (hgeneric : IsIdentifier generic) (hparameter : IsIdentifier parameter)
    (hkey : builtInType? parameter = none) (outer : List Text) :
    encodeType ⟨outer, [parameter]⟩ (generic ++ '<' :: (parameter ++ ['>'])) =
      generic ++ braced ["``0".toList] := by
  have hmeaning : TypeContext.meaning? ⟨outer, [parameter]⟩ parameter = some "``0".toList := by
    unfold TypeContext.meaning?
    rw [hkey, List.idxOf?_cons, if_pos (beq_self_eq_true _)]
    rfl
  have hword : encode ⟨outer, [parameter]⟩ (word parameter) = "``0".toList := by
    have hspelled : encode ⟨outer, [parameter]⟩ (word parameter) =
      (TypeContext.meaning? ⟨outer, [parameter]⟩ parameter).getD parameter := rfl
    rw [hspelled, hmeaning]
    rfl
  unfold encodeType
  rw [ofText?_generic hgeneric hparameter]
  simp only
  rw [encode_named _ (by simp), encodeSegments, encodeSegments, encodeSegment, encodeAll, encodeAll,
    hword]
  rfl

end TypeRef

namespace IndexBuilder

variable {c : SymbolId} {name generic parameter parameter' : Text} {s u : Symbol} {p q : Piece}

/-- The parts of a generic partial method have one key, whatever their type parameters are named. -/
theorem key_eq_of_genericPart (hgeneric : IsIdentifier generic)
    (hparameter : IsIdentifier parameter) (hparameter' : IsIdentifier parameter')
    (hkey : builtInType? parameter = none)
    (hkey' : builtInType? parameter' = none) (hs : GenericPart c name generic parameter s)
    (hu : GenericPart c name generic parameter' u) (b : IndexBuilder) : b.key s = b.key u := by
  have hmember : ∀ {t : Symbol}, t.kind = .method → t.kind.isType = false := by
    intro t ht
    rw [ht]
    rfl
  have hsignature : signature b.symbols c s = signature b.symbols c u := by
    unfold signature encodeParameters encodeParameter
    rw [hs.typeParameters, hs.parameters, hu.typeParameters, hu.parameters, List.map_singleton,
      List.map_singleton, TypeRef.encodeType_generic hgeneric hparameter hkey,
      TypeRef.encodeType_generic hgeneric hparameter' hkey']
  have harity : s.arity = u.arity := by
    unfold Symbol.arity
    rw [hs.typeParameters, hu.typeParameters]
    rfl
  rw [key_of_member b (hmember hs.kind) hs.container,
    key_of_member b (hmember hu.kind) hu.container, hs.kind, hu.kind, hs.name, hu.name, harity,
    hsignature]

end IndexBuilder

/-- **New names for type parameters change no spelling.**  So the parts of a generic partial method
may name its type parameter differently: they have one key, and the part that comes later joins the
symbol that the other one has founded. -/
theorem spelling_kept_by_renaming :
    (∀ (context : TypeContext) (ρ : Text → Text) (t : TypeRef), context.IsRenaming ρ t →
      (t.rename context ρ).encode (context.map ρ) = t.encode context) ∧
    ∀ (c : SymbolId) (name generic parameter parameter' : Text) (s u : Symbol),
      IsIdentifier generic → IsIdentifier parameter → IsIdentifier parameter' →
      builtInType? parameter = none → builtInType? parameter' = none →
      GenericPart c name generic parameter s → GenericPart c name generic parameter' u →
      (∀ b : IndexBuilder, b.key s = b.key u) ∧
      ∀ (b : IndexBuilder) (p q : Piece) (ds : List (Symbol × Piece)), b.Sound → b.Allowed s p →
        b.find? (b.key s) = none → (b.add s p).1.Admits ds →
        (∀ e, ((b.add s p).1.addAll ds).entries[b.entries.length]? = some e →
          ∀ r ∈ e.pieces, r.role ≠ q.role) →
        (b.add s p).2 = some b.entries.length ∧
        (((b.add s p).1.addAll ds).add u q).2 = some b.entries.length ∧
        ∃ e, (((b.add s p).1.addAll ds).add u q).1.entries[b.entries.length]? = some e ∧
          p ∈ e.pieces ∧ q ∈ e.pieces := by
  constructor
  · intro context ρ t h
    exact TypeRef.encode_rename h
  · intro c name generic parameter parameter' s u hgeneric hparameter hparameter' hkey hkey' hs hu
    have hsame :=
      IndexBuilder.key_eq_of_genericPart hgeneric hparameter hparameter' hkey hkey' hs hu
    refine ⟨hsame, ?_⟩
    intro b p q ds sound allowed free admits roles
    have partials : s.isPartial = true ∧ u.isPartial = true := ⟨hs.isPartial, hu.isPartial⟩
    exact IndexBuilder.add_joins_founder sound allowed free partials hsame admits roles

/-- Names of two type parameters, exchanged. -/
def exchangedNames : Text → Text := Equiv.swap "A".toList "T".toList

/-- A type over a type parameter of a class and one of its method. -/
def pairType : TypeRef :=
  .named [.mk "Pair".toList [.word "T".toList, .array (.word "A".toList) 1, .word "int".toList]]

/-- A generic class that has no members yet. -/
def boxBuilder : IndexBuilder :=
  (IndexBuilder.empty.add
    { name := "Box".toList, kind := .class, typeParameters := ["T".toList] }
    ⟨0, 0, 90, 0, 0, "class_declaration", .whole⟩).1

/-- A part of a partial method that hides the type parameter of its class. -/
def hidingPart : Symbol :=
  { name := "M".toList, kind := .method, container := some 0, typeParameters := ["T".toList],
    parameters := [⟨"List<T>".toList, false⟩], isPartial := true }

/-- The piece without a body of a method whose type parameter hides that of the class. -/
def hidingPiece : Piece := ⟨0, 20, 50, 1, 2, "method_declaration", .defining⟩

/-- A part of the same method that does not. -/
def plainPart : Symbol :=
  { name := "M".toList, kind := .method, container := some 0, typeParameters := ["U".toList],
    parameters := [⟨"List<U>".toList, false⟩], isPartial := true }

/-- The piece with a body. -/
def plainPiece : Piece := ⟨0, 51, 88, 2, 2, "method_declaration", .implementing⟩

/-- The names may be exchanged. -/
theorem isRenaming_exchangedNames :
    TypeContext.IsRenaming ⟨["A".toList], ["T".toList]⟩ exchangedNames pairType where
  injective _ _ _ _ heq := (Equiv.swap "A".toList "T".toList).injective heq
  fixes n houter hmethod := by
    have hA : n ≠ "A".toList := by simpa using houter
    have hT : n ≠ "T".toList := by simpa using hmethod
    exact Equiv.swap_apply_of_ne_of_ne hA hT
  keywords n hbound _ := by
    obtain hA | hT := hbound
    · rw [List.mem_singleton.1 hA]
      decide +kernel
    · rw [List.mem_singleton.1 hT]
      decide +kernel

/-- The builder with the class has been built step by step. -/
theorem sound_boxBuilder : boxBuilder.Sound := by
  refine IndexBuilder.sound_empty.add ⟨⟨?_, fun _ => rfl, ?_⟩, rfl⟩
  · intro c hc
    cases hc
  · intro c hc
    cases hc

/-- The method may be added to the class. -/
theorem allowed_hidingPart : boxBuilder.Allowed hidingPart hidingPiece := by
  refine ⟨⟨?_, ?_, fun _ _ => rfl⟩, rfl⟩
  · intro c hc
    obtain rfl : 0 = c := Option.some.inj hc
    exact ⟨_, rfl, rfl⟩
  · intro hc
    cases hc

/-- The names of type parameters may be exchanged, and a part may hide the type parameter of its
class. -/
theorem spelling_kept_by_renaming_exchanged :
    pairType.rename ⟨["A".toList], ["T".toList]⟩ exchangedNames =
      .named [.mk "Pair".toList
        [.word "A".toList, .array (.word "T".toList) 1, .word "int".toList]] ∧
    (pairType.rename ⟨["A".toList], ["T".toList]⟩ exchangedNames).encode
      ⟨["T".toList], ["A".toList]⟩ = "Pair\x7b``0,\x600[],System.Int32\x7d".toList ∧
    boxBuilder.key hidingPart = boxBuilder.key plainPart ∧
    (boxBuilder.add hidingPart hidingPiece).2 = some 1 ∧
    ((boxBuilder.add hidingPart hidingPiece).1.add plainPart plainPiece).2 = some 1 := by
  have hrenamed := spelling_kept_by_renaming.1 _ _ _ isRenaming_exchangedNames
  have hcontext : TypeContext.map exchangedNames ⟨["A".toList], ["T".toList]⟩ =
      ⟨["T".toList], ["A".toList]⟩ := by decide +kernel
  have hspelled : pairType.encode ⟨["A".toList], ["T".toList]⟩ =
      "Pair\x7b``0,\x600[],System.Int32\x7d".toList := by decide +kernel
  have hhiding : GenericPart 0 "M".toList "List".toList "T".toList hidingPart :=
    ⟨rfl, rfl, rfl, rfl, rfl, rfl⟩
  have hplain : GenericPart 0 "M".toList "List".toList "U".toList plainPart :=
    ⟨rfl, rfl, rfl, rfl, rfl, rfl⟩
  have hparts := spelling_kept_by_renaming.2 0 "M".toList "List".toList "T".toList "U".toList
    hidingPart plainPart (by decide +kernel) (by decide +kernel) (by decide +kernel)
    (by decide +kernel) (by decide +kernel) hhiding hplain
  have hfounded : (boxBuilder.add hidingPart hidingPiece).1.entries[1]? =
      some ⟨hidingPart, [hidingPiece]⟩ := by decide +kernel
  have hroles : ∀ e, (boxBuilder.add hidingPart hidingPiece).1.entries[1]? = some e →
      ∀ r ∈ e.pieces, r.role ≠ plainPiece.role := by
    intro e he r hr
    rw [hfounded] at he
    obtain rfl := Option.some.inj he
    rw [List.mem_singleton.1 hr]
    decide
  obtain ⟨hfirst, hsecond, -⟩ := hparts.2 boxBuilder hidingPiece plainPiece [] sound_boxBuilder
    allowed_hidingPart (by decide +kernel) trivial hroles
  rw [hcontext, hspelled] at hrenamed
  refine ⟨?_, hrenamed, hparts.1 boxBuilder, hfirst, hsecond⟩
  rfl

end PartialDocs
