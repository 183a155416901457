import PartialDocs.Proofs.TypeRef.Readability
import PartialDocs.Proofs.TypeRef.VerbatimPrefix

/-!
# Arrays of arrays

Behind an element type a declaration writes one specifier for each array around it, the outermost
array first.  A documentation ID has the marks of these arrays the other way round, since it
spells every array behind its element type.  The reader takes the first specifier for the
innermost array, so that the marks come out as they stand in source
(`array_marks_in_source_order`).  The two orders agree exactly where the numbers of dimensions
read the same from either end.
-/

set_option autoImplicit false

namespace PartialDocs

open TypeToken (mark)

/-- What is written behind an element type for an array with the given number of dimensions. -/
def specifier (rank : Nat) : Text := '[' :: (List.replicate (rank - 1) ',' ++ [']'])

/-- What is written for arrays of arrays. -/
def specifiers (ranks : List Nat) : Text := ranks.flatMap specifier

namespace TypeRef

variable {ts : List TypeToken} {ranks : List Nat}

/-- The arrays of arrays that specifiers stand for: the first one is the outermost. -/
def jagged (element : TypeRef) (ranks : List Nat) : TypeRef :=
  ranks.foldr (fun rank t => .array t rank) element

/-- The arrays of arrays that are read from specifiers: the first one is the innermost. -/
def arrays (element : TypeRef) (ranks : List Nat) : TypeRef := ranks.foldl .array element

/-- Arrays by their ranks from the inside and from the outside. -/
theorem arrays_eq_jagged_reverse (element : TypeRef) (ranks : List Nat) :
    arrays element ranks = jagged element ranks.reverse := by
  unfold arrays jagged
  rw [List.foldr_reverse]

/-- Arrays are encoded by their element and their marks in order. -/
theorem encode_arrays (context : TypeContext) (element : TypeRef) (ranks : List Nat) :
    (arrays element ranks).encode context =
      element.encode context ++ ranks.flatMap arrayMark := by
  induction ranks generalizing element with
  | nil => exact (List.append_nil _).symm
  | cons rank ranks ih =>
    have hstep : arrays element (rank :: ranks) = arrays (.array element rank) ranks := rfl
    rw [hstep, ih, encode_array, List.flatMap_cons, List.append_assoc]

/-- In a documentation ID the mark of the outermost array is the last one. -/
theorem encode_jagged (context : TypeContext) (element : TypeRef) (ranks : List Nat) :
    (jagged element ranks).encode context =
      element.encode context ++ ranks.reverse.flatMap arrayMark := by
  have harrays := arrays_eq_jagged_reverse element ranks.reverse
  rw [List.reverse_reverse] at harrays
  rw [← harrays, encode_arrays]

/-- Marks of arrays can be read off again. -/
theorem flatMap_arrayMark_inj {ranks others : List Nat} (hranks : ∀ rank ∈ ranks, 0 < rank)
    (hothers : ∀ rank ∈ others, 0 < rank) (h : ranks.flatMap arrayMark = others.flatMap arrayMark) :
    ranks = others := by
  have hne : ∀ (front : Text) (rank : Nat), front ++ arrayMark rank ≠ [] := by
    intro front rank hnil
    obtain ⟨s, hs⟩ := NormalType.arrayMark_eq_append rank
    rw [hs, ← List.append_assoc] at hnil
    exact List.append_ne_nil_of_right_ne_nil _ (List.cons_ne_nil _ _) hnil
  induction ranks using List.reverseRecOn generalizing others with
  | nil =>
    rcases List.eq_nil_or_concat' others with rfl | ⟨others, rank, rfl⟩
    · rfl
    · rw [List.flatMap_append, List.flatMap_singleton] at h
      exact absurd h.symm (hne _ _)
  | append_singleton ranks rank ih =>
    rcases List.eq_nil_or_concat' others with rfl | ⟨others, other, rfl⟩
    · rw [List.flatMap_append, List.flatMap_singleton] at h
      exact absurd h (hne _ _)
    · rw [List.forall_mem_append, List.forall_mem_singleton] at hranks hothers
      obtain ⟨m, rfl⟩ := Nat.exists_eq_add_of_lt hranks.2
      obtain ⟨n, rfl⟩ := Nat.exists_eq_add_of_lt hothers.2
      rw [List.flatMap_append, List.flatMap_append, List.flatMap_singleton,
        List.flatMap_singleton] at h
      obtain ⟨hfront, hlast⟩ := NormalType.append_arrayMark_inj h
      rw [ih hranks.1 hothers.1 hfront, hlast]

/-! ## Reading specifiers -/

/-- A dotted name ends in a word or in type arguments. -/
theorem SpellsSegments.exists_last {ts : List TypeToken} {ss : List TypeSegment}
    (h : SpellsSegments ts ss) :
    ∃ front last, ts = front ++ [last] ∧ (last.word?.isSome = true ∨ last = mark '>') := by
  cases h with
  | @last ts _ _ _ hname harguments =>
    cases harguments with
    | missing =>
      rw [List.append_nil]
      cases hname with
      | word hw => exact ⟨[], _, rfl, .inl (by rw [hw]; rfl)⟩
      | global _ hw => exact ⟨[_, _, _], _, rfl, .inl (by rw [hw]; rfl)⟩
      | aliased _ _ hw => exact ⟨[_, _, _], _, rfl, .inl (by rw [hw]; rfl)⟩
    | @given us => exact ⟨ts ++ mark '<' :: us, mark '>', by simp, .inr rfl⟩
  | @more ts us vs _ _ _ _ _ hmore =>
    obtain ⟨front, last, rfl, hlast⟩ := hmore.exists_last
    exact ⟨ts ++ (us ++ mark '.' :: front), last, by simp, hlast⟩

/-- The tokens of a specifier can be taken off again. -/
theorem append_brackets_inj {us : List TypeToken} {m n : Nat}
    (h : ts ++ mark '[' :: (List.replicate m (mark ',') ++ [mark ']']) =
      us ++ mark '[' :: (List.replicate n (mark ',') ++ [mark ']'])) : ts = us ∧ m = n := by
  -- the last bracket that opens is the same one on both sides
  have hopens : ∀ (n : Nat) (x y : List TypeToken),
      x ++ mark '[' :: y ≠ List.replicate n (mark ',') ++ [mark ']'] := by
    intro n x y heq
    have hmem : mark '[' ∈ List.replicate n (mark ',') ++ [mark ']'] := by
      rw [← heq]
      simp
    simp at hmem
  rcases List.append_eq_append_iff.1 h with ⟨x, rfl, hx⟩ | ⟨x, rfl, hx⟩
  all_goals
    cases x with
    | nil => ?_
    | cons token x =>
      rw [List.cons_append, List.cons.injEq] at hx
      exact absurd hx.2.symm (hopens _ _ _)
  all_goals
    rw [List.nil_append, List.cons.injEq, List.append_left_inj, List.replicate_inj] at hx
    obtain ⟨-, rfl, -⟩ := hx
    exact ⟨by simp, rfl⟩

/-- Tokens behind which a specifier stands derive an array type exactly over what they derive
themselves. -/
theorem spellsType_append_specifier {rank : Nat} (hrank : 0 < rank) {u : TypeRef} :
    SpellsType (ts ++ (specifier rank).map mark) u ↔ ∃ t, SpellsType ts t ∧ .array t rank = u := by
  obtain ⟨commas, rfl⟩ := Nat.exists_eq_add_of_lt hrank
  have htokens : (specifier (0 + commas + 1)).map mark =
      mark '[' :: (List.replicate commas (mark ',') ++ [mark ']']) := by
    simp [specifier]
  rw [htokens, Nat.zero_add]
  constructor
  · intro h
    have hlast : (ts ++ mark '[' :: (List.replicate commas (mark ',') ++ [mark ']'])).getLast? =
        some (mark ']') := by
      rw [← List.cons_append, ← List.append_assoc, List.getLast?_concat]
    generalize hus : ts ++ mark '[' :: (List.replicate commas (mark ',') ++ [mark ']']) = us
      at h hlast
    -- only an array type ends in this bracket
    cases h with
    | tuple =>
      rw [List.getLast?_concat] at hlast
      simp at hlast
    | named hsegments =>
      obtain ⟨front, last, rfl, hword | rfl⟩ := hsegments.exists_last
      · rw [List.getLast?_concat, Option.some.injEq] at hlast
        rw [hlast] at hword
        cases hword
      · simp at hlast
    | nullable => simp at hlast
    | pointer => simp at hlast
    | @array _ t _ ht =>
      obtain ⟨rfl, rfl⟩ := append_brackets_inj hus
      exact ⟨t, ht, rfl⟩
  · rintro ⟨t, ht, rfl⟩
    exact ht.array commas

/-- **The first of several specifiers is read as the innermost array.** -/
theorem spellsType_append_specifiers (positive : ∀ rank ∈ ranks, 0 < rank) {u : TypeRef} :
    SpellsType (ts ++ (specifiers ranks).map mark) u ↔
      ∃ t, SpellsType ts t ∧ arrays t ranks = u := by
  induction ranks generalizing ts with
  | nil => simp [specifiers, arrays]
  | cons rank ranks ih =>
    obtain ⟨hrank, hranks⟩ := List.forall_mem_cons.1 positive
    have htokens : ts ++ (specifiers (rank :: ranks)).map mark =
        ts ++ (specifier rank).map mark ++ (specifiers ranks).map mark := by
      simp [specifiers]
    rw [htokens, ih hranks]
    constructor
    · rintro ⟨v, hv, rfl⟩
      obtain ⟨t, ht, rfl⟩ := (spellsType_append_specifier hrank).1 hv
      exact ⟨t, ht, rfl⟩
    · rintro ⟨t, ht, rfl⟩
      exact ⟨_, (spellsType_append_specifier hrank).2 ⟨t, ht, rfl⟩, rfl⟩

/-- Behind an element type specifiers are tokens of their own. -/
theorem ofText_append_specifiers {marks : Text}
    (written : TypeToken.ofText marks = (specifiers ranks).map mark) (s : Text) :
    TypeToken.ofText (s ++ marks) = TypeToken.ofText s ++ (specifiers ranks).map mark := by
  have hmarks := TypeToken.written_ofText marks
  have hstarts : TypeToken.startsWord marks = false := by
    by_contra hword
    obtain ⟨w, us, rest, hfirst, -⟩ := hmarks.exists_word (by simpa using hword)
    rw [written] at hfirst
    cases hspecifiers : specifiers ranks with
    | nil => simp [hspecifiers] at hfirst
    | cons c cs => simp [hspecifiers] at hfirst
  rw [← written]
  exact ((TypeToken.written_ofText s).append hmarks (.inl hstarts)).ofText_eq

/-- The marks of arrays behind a type are read as arrays of it. -/
theorem ofText?_append_specifiers (positive : ∀ rank ∈ ranks, 0 < rank) {marks : Text}
    (written : TypeToken.ofText marks = (specifiers ranks).map mark) (s : Text) :
    ofText? (s ++ marks) = (ofText? s).map fun t => arrays t ranks := by
  apply Option.ext
  intro u
  rw [ofText?_eq_some_iff_spells, ofText_append_specifiers written,
    spellsType_append_specifiers positive, Option.map_eq_some_iff]
  apply exists_congr
  intro t
  rw [ofText?_eq_some_iff_spells]

/-! ## Spellings as written -/

/-- Texts that are not read are encoded one by one. -/
theorem encodeUnread_append (s t : Text) :
    encodeUnread (s ++ t) = encodeUnread s ++ encodeUnread t := by
  unfold encodeUnread Text.replace
  rw [List.flatMap_append, List.flatMap_append, List.filter_append]

/-- The marks of arrays are brackets and commas. -/
theorem mem_specifiers {c : Char} (h : c ∈ specifiers ranks) : c ∈ ['[', ',', ']'] := by
  unfold specifiers specifier at h
  rw [List.mem_flatMap] at h
  obtain ⟨rank, -, h⟩ := h
  rw [List.mem_cons, List.mem_append, List.mem_replicate, List.mem_singleton] at h
  rcases h with rfl | ⟨-, rfl⟩ | rfl <;> simp

/-- The marks of arrays are encoded as they are. -/
theorem encodeUnread_specifiers (ranks : List Nat) :
    encodeUnread (specifiers ranks) = specifiers ranks := by
  have hreplace : ∀ {old : Char} (new : Text), old ∉ ['[', ',', ']'] →
      Text.replace old new (specifiers ranks) = specifiers ranks := by
    intro old new hold
    unfold Text.replace
    rw [List.flatMap_congr (g := fun c => [c])]
    · exact List.flatMap_singleton' _
    · intro c hc
      rw [if_neg]
      rintro rfl
      exact hold (mem_specifiers hc)
  unfold encodeUnread
  rw [hreplace _ (by decide), hreplace _ (by decide), List.filter_eq_self]
  intro c hc
  have hmark := mem_specifiers hc
  rw [bne_iff_ne]
  rintro rfl
  revert hmark
  decide

/-- Specifiers are written like the marks of a documentation ID only for arrays of one dimension. -/
theorem specifiers_eq_iff (positive : ∀ rank ∈ ranks, 0 < rank) :
    specifiers ranks = ranks.reverse.flatMap arrayMark ↔ ∀ rank ∈ ranks, rank = 1 := by
  constructor
  · intro h rank hrank
    by_contra hone
    have hpositive := positive rank hrank
    have hzero : '0' ∈ arrayMark rank := by
      obtain ⟨n, rfl⟩ : ∃ n, rank = n + 2 := ⟨rank - 2, by omega⟩
      unfold arrayMark
      rw [if_neg hone, List.replicate_succ, List.replicate_succ, Text.joinWith]
      simp
    have hmem : '0' ∈ specifiers ranks := by
      rw [h, List.mem_flatMap]
      exact ⟨rank, List.mem_reverse.2 hrank, hzero⟩
    exact absurd (mem_specifiers hmem) (by decide)
  · intro h
    rw [List.eq_replicate_of_mem h, List.reverse_replicate]
    unfold specifiers
    apply List.flatMap_congr
    intro rank hrank
    rw [List.eq_of_mem_replicate hrank]
    rfl

/-! ## The order of the marks -/

/-- How an element type with specifiers behind it is read and spelled. -/
structure ArrayOrder (s marks : Text) (ranks : List Nat) : Prop where
  /-- The first specifier is read as the innermost array. -/
  read : ofText? (s ++ marks) = (ofText? s).map fun t => jagged t ranks.reverse
  /-- The marks come out in the order of the specifiers. -/
  spelling (context : TypeContext) {t : TypeRef} : ofText? s = some t →
    encodeType context (s ++ marks) = encodeType context s ++ ranks.flatMap arrayMark
  /-- The arrays that the specifiers stand for have the marks the other way round. -/
  meant (context : TypeContext) {t : TypeRef} : ofText? s = some t →
    (jagged t ranks).encode context = encodeType context s ++ ranks.reverse.flatMap arrayMark
  canonical (context : TypeContext) {t : TypeRef} : ofText? s = some t →
    (encodeType context (s ++ marks) = encodeType context s ++ ranks.reverse.flatMap arrayMark ↔
      ranks.reverse = ranks)
  /-- Behind what is read as no type specifiers are spelled as they are written. -/
  unread (context : TypeContext) : ofText? s = none → marks = specifiers ranks →
    (encodeType context (s ++ marks) = encodeType context s ++ ranks.reverse.flatMap arrayMark ↔
      ∀ rank ∈ ranks, rank = 1)

/-- **The marks of arrays of arrays come out in the order in which they are written**, which is that
of documentation IDs exactly where the numbers of dimensions read the same from either end. -/
theorem array_marks_in_source_order (s marks : Text) (ranks : List Nat)
    (positive : ∀ rank ∈ ranks, 0 < rank)
    (written : TypeToken.ofText marks = (specifiers ranks).map mark) :
    ArrayOrder s marks ranks := by
  have hread := ofText?_append_specifiers positive written s
  have hspelling : ∀ (context : TypeContext) {t : TypeRef}, ofText? s = some t →
      encodeType context (s ++ marks) = encodeType context s ++ ranks.flatMap arrayMark := by
    intro context t ht
    rw [ht, Option.map_some] at hread
    rw [encodeType_of_read hread, encodeType_of_read ht, encode_arrays]
  refine ⟨?_, hspelling, ?_, ?_, ?_⟩
  · simp only [hread, arrays_eq_jagged_reverse]
  · intro context t ht
    rw [encodeType_of_read ht, encode_jagged]
  · intro context t ht
    rw [hspelling context ht, List.append_cancel_left_eq]
    constructor
    · intro h
      have hreverse : ∀ rank ∈ ranks.reverse, 0 < rank := fun rank hrank =>
        positive rank (List.mem_reverse.1 hrank)
      exact (flatMap_arrayMark_inj positive hreverse h).symm
    · intro h
      rw [h]
  · rintro context hnone rfl
    rw [hnone, Option.map_none] at hread
    rw [encodeType_of_unread hread, encodeType_of_unread hnone, encodeUnread_append,
      encodeUnread_specifiers, List.append_cancel_left_eq, specifiers_eq_iff positive]

/-- Blanks between the specifiers do not matter. -/
theorem array_marks_in_source_order_spacedMarks :
    (∀ rank ∈ [3, 1], 0 < rank) ∧
    TypeToken.ofText " [ ,, ] [\t]".toList = (specifiers [3, 1]).map mark ∧
    encodeType ⟨[], []⟩ "List<int>".toList = "List\x7bSystem.Int32\x7d".toList ∧
    encodeType ⟨[], []⟩ ("List<int>".toList ++ " [ ,, ] [\t]".toList) =
      "List\x7bSystem.Int32\x7d[0:,0:,0:][]".toList ∧
    encodeType ⟨[], []⟩ ("List<int>".toList ++ " [ ,, ] [\t]".toList) ≠
      "List\x7bSystem.Int32\x7d[][0:,0:,0:]".toList := by
  have hpositive : ∀ rank ∈ [3, 1], 0 < rank := by decide
  have hwritten : TypeToken.ofText " [ ,, ] [\t]".toList = (specifiers [3, 1]).map mark := by
    decide +kernel
  have helement : encodeType ⟨[], []⟩ "List<int>".toList = "List\x7bSystem.Int32\x7d".toList := by
    decide +kernel
  have hread : (ofText? "List<int>".toList).isSome = true := by decide +kernel
  obtain ⟨t, ht⟩ := Option.isSome_iff_exists.1 hread
  have horder := array_marks_in_source_order "List<int>".toList _ [3, 1] hpositive hwritten
  refine ⟨hpositive, hwritten, helement, ?_, ?_⟩
  · rw [horder.spelling ⟨[], []⟩ ht, helement]
    decide
  · intro h
    have hreverse := (horder.canonical ⟨[], []⟩ ht).1 (by rw [h, helement]; decide)
    revert hreverse
    decide

/-- A one-dimensional array of two-dimensional arrays is spelled like a two-dimensional array of
one-dimensional ones. -/
theorem jagged_array_reversed :
    ofText? "int".toList = some (word "int".toList) ∧
    (jagged (word "int".toList) [1, 2]).encode ⟨[], []⟩ = "System.Int32[0:,0:][]".toList ∧
    encodeType ⟨[], []⟩ ("int".toList ++ specifiers [1, 2]) = "System.Int32[][0:,0:]".toList ∧
    encodeType ⟨[], []⟩ ("int".toList ++ specifiers [1, 2]) ≠
      (jagged (word "int".toList) [1, 2]).encode ⟨[], []⟩ := by
  refine ⟨?_, ?_, ?_, ?_⟩
  · rfl
  all_goals decide +kernel

end TypeRef

end PartialDocs
