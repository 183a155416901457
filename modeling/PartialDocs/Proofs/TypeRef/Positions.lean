import PartialDocs.Proofs.TypeRef.BuiltInNames

/-!
# Positions in a type

A path leads from a type to one inside it.  The spelling of a type at the end of a path stands
between two texts that depend on the path alone (`exists_encode_plug`), and types at the end of one
path are told apart as they are by themselves (`normal_of_plug_eq`).  Only a question mark right
around a type looks at the type itself.  A question mark at the end of a path that stands behind no
keyword for a value type, or in front of another question mark, is not shown
(`encode_plug_nullable_eq`).
-/

set_option autoImplicit false

namespace PartialDocs

open Text (joinWith)

/-- What is joined before and behind a text does not depend on it. -/
theorem Text.exists_joinWith_around (sep : Text) (xs ys : List Text) :
    ∃ left right, ∀ y, joinWith sep (xs ++ y :: ys) = left ++ (y ++ right) := by
  induction xs with
  | nil =>
    cases ys with
    | nil => exact ⟨[], [], fun y => by simp [joinWith]⟩
    | cons z ys => exact ⟨[], sep ++ joinWith sep (z :: ys), fun y => by simp [joinWith]⟩
  | cons x xs ih =>
    obtain ⟨left, right, h⟩ := ih
    refine ⟨x ++ sep ++ left, right, fun y => ?_⟩
    have hmore := h y
    cases xs with
    | nil =>
      rw [List.nil_append] at hmore
      rw [List.cons_append, List.nil_append, joinWith, hmore]
      simp
    | cons z xs =>
      rw [List.cons_append] at hmore
      rw [List.cons_append, List.cons_append, joinWith, hmore]
      simp

namespace TypeRef

/-- What stands right around a type inside another one. -/
inductive Frame where
  | nullable
  | array (rank : Nat)
  | pointer
  /-- The other elements of a tuple. -/
  | element (before after : List TypeRef)
  /-- The other arguments of a name, and the other segments of the dotted name. -/
  | argument (outer : List TypeSegment) (name : Text) (before after : List TypeRef)
      (inner : List TypeSegment)

/-- A type in a frame. -/
def Frame.fill (t : TypeRef) : Frame → TypeRef
  | nullable => .nullable t
  | array rank => .array t rank
  | pointer => .pointer t
  | element before after => .tuple (before ++ t :: after)
  | argument outer name before after inner =>
    .named (outer ++ .mk name (before ++ t :: after) :: inner)

/-- A type at the end of a path, whose outermost frame comes first. -/
def plug : List Frame → TypeRef → TypeRef
  | [], t => t
  | f :: path, t => f.fill (plug path t)

variable {context other : TypeContext} {f : Frame} {path : List Frame} {t u : TypeRef}

/-- Contexts inside each other. -/
theorem plug_append (path more : List Frame) (t : TypeRef) :
    plug (path ++ more) t = plug path (plug more t) := by
  induction path with
  | nil => rfl
  | cons f path ih => rw [List.cons_append, plug, plug, ih]

/-- A name with type arguments is no single word. -/
theorem argument_ne_word (outer : List TypeSegment) (name : Text) (before after : List TypeRef)
    (inner : List TypeSegment) (t : TypeRef) (w : Text) :
    outer ++ .mk name (before ++ t :: after) :: inner ≠ [.mk w []] := by
  intro h
  cases outer with
  | nil =>
    rw [List.nil_append, List.cons.injEq, TypeSegment.mk.injEq] at h
    simp at h
  | cons s outer => simp at h

/-- What has a type inside is no keyword. -/
theorem isBuiltInValue_fill (f : Frame) (t : TypeRef) : (f.fill t).isBuiltInValue = false := by
  cases f with
  | argument outer name before after inner =>
    exact isBuiltInValue_named (argument_ne_word outer name before after inner t)
  | nullable => rfl
  | array rank => rfl
  | pointer => rfl
  | element before after => rfl

/-! ## Texts around a position -/

/-- Types are encoded one by one. -/
theorem encodeAll_eq_map (context : TypeContext) (ts : List TypeRef) :
    encodeAll context ts = ts.map (encode context) := by
  induction ts with
  | nil => rfl
  | cons t ts ih => rw [encodeAll, ih, List.map_cons]

/-- Segments are encoded one by one. -/
theorem encodeSegments_eq_map (context : TypeContext) (ss : List TypeSegment) :
    encodeSegments context ss = ss.map (encodeSegment context) := by
  induction ss with
  | nil => rfl
  | cons s ss ih => rw [encodeSegments, ih, List.map_cons]

/-- The spelling of braces stands between two texts that depend on their other elements alone. -/
theorem exists_braced_around (context : TypeContext) (name : Text) (before after : List TypeRef) :
    ∃ left right, ∀ t : TypeRef,
      name ++ braced (encodeAll context (before ++ t :: after)) =
        left ++ (t.encode context ++ right) := by
  obtain ⟨left, right, h⟩ := Text.exists_joinWith_around [','] (before.map (encode context))
    (after.map (encode context))
  refine ⟨name ++ '\x7b' :: left, right ++ ['\x7d'], fun t => ?_⟩
  rw [encodeAll_eq_map, List.map_append, List.map_cons, braced, h]
  simp

/-- A type is encoded between what is around it, unless this is the mark for a nullable type. -/
theorem exists_encode_fill (context : TypeContext) (hf : f ≠ .nullable) :
    ∃ left right, ∀ t : TypeRef,
      (f.fill t).encode context = left ++ (t.encode context ++ right) := by
  cases f with
  | nullable => exact absurd rfl hf
  | array rank => exact ⟨[], arrayMark rank, fun t => by rw [Frame.fill, encode_array]; rfl⟩
  | pointer => exact ⟨[], ['*'], fun t => by rw [Frame.fill, encode_pointer]; rfl⟩
  | element before after =>
    obtain ⟨left, right, h⟩ := exists_braced_around context "System.ValueTuple".toList before after
    exact ⟨left, right, fun t => by rw [Frame.fill, encode_tuple, h]⟩
  | argument outer name before after inner =>
    obtain ⟨left, right, h⟩ := exists_braced_around context name before after
    obtain ⟨front, back, hname⟩ := Text.exists_joinWith_around ['.']
      (outer.map (encodeSegment context)) (inner.map (encodeSegment context))
    refine ⟨front ++ left, right ++ back, fun t => ?_⟩
    have hsegment : encodeSegment context (.mk name (before ++ t :: after)) =
        name ++ braced (encodeAll context (before ++ t :: after)) := by
      cases before with
      | nil => rfl
      | cons b before => rfl
    rw [Frame.fill, encode_named context (argument_ne_word outer name before after inner t),
      encodeSegments_eq_map, List.map_append, List.map_cons, hname, hsegment, h]
    simp

/-- **The spelling of a type stands between two texts that depend on the path to it alone**, unless
a question mark stands right behind it. -/
theorem exists_encode_plug (context : TypeContext) (hlast : path.getLast? ≠ some .nullable) :
    ∃ left right, ∀ t : TypeRef,
      (plug path t).encode context = left ++ (t.encode context ++ right) := by
  -- a frame looks at the type only if no other frame stands between them
  induction path with
  | nil => exact ⟨[], [], fun t => by rw [plug]; simp⟩
  | cons f path ih =>
    cases path with
    | nil =>
      have hf : f ≠ .nullable := by
        rintro rfl
        exact hlast rfl
      exact exists_encode_fill context hf
    | cons g path =>
      rw [List.getLast?_cons_cons] at hlast
      obtain ⟨left, right, h⟩ := ih hlast
      rcases eq_or_ne f .nullable with rfl | hf
      · -- the question mark stands behind no keyword
        refine ⟨left, right, fun t => ?_⟩
        rw [plug, Frame.fill, encode_nullable, plug, isBuiltInValue_fill, ← plug, h]
        rfl
      · obtain ⟨front, back, hfill⟩ := exists_encode_fill context hf
        refine ⟨front ++ left, right ++ back, fun t => ?_⟩
        rw [plug, hfill, h]
        simp

/-! ## Types at one position -/

/-- Segments beside each other have normal forms beside each other. -/
theorem normalSegments_append (context : TypeContext) (ss us : List TypeSegment) :
    normalSegments context (ss ++ us) = normalSegments context ss ++ normalSegments context us := by
  induction ss with
  | nil => rfl
  | cons s ss ih => rw [List.cons_append, normalSegments, normalSegments, ih, List.append_assoc]

/-- The context does not matter to the number of segments. -/
theorem length_normalSegments (context other : TypeContext) (ss : List TypeSegment) :
    (normalSegments context ss).length = (normalSegments other ss).length := by
  induction ss with
  | nil => rfl
  | cons s ss ih =>
    obtain ⟨name, as⟩ := s
    rw [normalSegments, normalSegments, List.length_append, List.length_append, ih, normalSegment,
      normalSegment, NormalType.length_dotted]

/-- Lists of one normal form have the same at the same place. -/
theorem normal_of_normalAll_eq {before after : List TypeRef}
    (h : normalAll context (before ++ t :: after) = normalAll other (before ++ u :: after)) :
    t.normal context = u.normal other := by
  rw [normalAll_eq_map, normalAll_eq_map, List.map_append, List.map_append, List.map_cons,
    List.map_cons] at h
  exact (List.cons.inj (List.append_inj h (by simp)).2).1

/-- A type can be told from what is around it, unless this is the mark for a nullable type. -/
theorem normal_of_fill_eq (hf : f ≠ .nullable)
    (h : (f.fill t).normal context = (f.fill u).normal other) :
    t.normal context = u.normal other := by
  cases f with
  | nullable => exact absurd rfl hf
  | array rank =>
    rw [Frame.fill, Frame.fill, normal, normal, NormalType.array.injEq] at h
    exact h.1
  | pointer =>
    rw [Frame.fill, Frame.fill, normal, normal, NormalType.pointer.injEq] at h
    exact h
  | element before after =>
    rw [Frame.fill, Frame.fill, normal, normal] at h
    exact normal_of_normalAll_eq (by simpa [NormalType.system] using h)
  | argument outer name before after inner =>
    rw [Frame.fill, Frame.fill, normal_named _ (argument_ne_word outer name before after inner t),
      normal_named _ (argument_ne_word outer name before after inner u), NormalType.named.injEq,
      normalSegments_append, normalSegments_append] at h
    obtain ⟨-, hname⟩ := List.append_inj h (length_normalSegments context other outer)
    rw [normalSegments, normalSegments, normalSegment, normalSegment] at hname
    obtain ⟨hargs, -⟩ := List.append_inj hname (NormalType.length_dotted name _ _)
    exact normal_of_normalAll_eq (NormalType.dotted_inj hargs)

/-- **Types at the end of one path are told apart as they are by themselves**, also among different
type parameters, unless a question mark stands right behind them. -/
theorem normal_of_plug_eq (hlast : path.getLast? ≠ some .nullable)
    (h : (plug path t).normal context = (plug path u).normal other) :
    t.normal context = u.normal other := by
  induction path with
  | nil => exact h
  | cons f path ih =>
    cases path with
    | nil =>
      have hf : f ≠ .nullable := by
        rintro rfl
        exact hlast rfl
      exact normal_of_fill_eq hf h
    | cons g path =>
      rw [List.getLast?_cons_cons] at hlast
      apply ih hlast
      rcases eq_or_ne f .nullable with rfl | hf
      · -- the question mark stands behind no keyword
        have hskip : ∀ (context : TypeContext) (v : TypeRef),
            (plug (.nullable :: g :: path) v).normal context =
              (plug (g :: path) v).normal context := by
          intro context v
          rw [plug, Frame.fill, normal, plug, isBuiltInValue_fill]
          rfl
        rwa [hskip, hskip] at h
      · exact normal_of_fill_eq hf h

/-- Types of one spelling may stand for each other at the end of a path, where neither is the
keyword for a value type. -/
theorem encode_plug_congr (h : t.encode context = u.encode context)
    (ht : t.isBuiltInValue = false) (hu : u.isBuiltInValue = false) (path : List Frame) :
    (plug path t).encode context = (plug path u).encode context := by
  induction path with
  | nil => exact h
  | cons f path ih =>
    rcases eq_or_ne f .nullable with rfl | hf
    · have hvalue : ∀ {v : TypeRef}, v.isBuiltInValue = false →
          (plug path v).isBuiltInValue = false := by
        intro v hv
        cases path with
        | nil => exact hv
        | cons g path => exact isBuiltInValue_fill g _
      rw [plug, plug, Frame.fill, Frame.fill, encode_nullable, encode_nullable, hvalue ht,
        hvalue hu, ih]
    · obtain ⟨left, right, hfill⟩ := exists_encode_fill context hf
      rw [plug, plug, hfill, hfill, ih]

/-! ## A question mark at a position -/

/-- A nullable value type is a generic type of it. -/
theorem encode_nullable_value (h : t.isBuiltInValue = true) (context : TypeContext) :
    (TypeRef.nullable t).encode context =
      "System.Nullable".toList ++ braced [t.encode context] := by
  rw [encode_nullable, if_pos h]

/-- A nullable value type is not the type itself, whatever type parameters there are. -/
theorem normal_ne_normal_nullable (h : t.isBuiltInValue = true) (context other : TypeContext) :
    t.normal context ≠ (TypeRef.nullable t).normal other := by
  obtain ⟨name, hname⟩ := exists_namesBuiltIn h
  rw [normal, if_pos h, hname.normal_eq context]
  simp [NormalType.system]

/-- A question mark that is not shown leaves the spelling of every type around it as it is. -/
theorem encode_plug_nullable_eq (context : TypeContext)
    (h : t.isBuiltInValue = false ∨ path.getLast? = some .nullable) :
    (plug path t).encode context = (plug path (.nullable t)).encode context := by
  have hskip : ∀ {v : TypeRef}, v.isBuiltInValue = false →
      v.encode context = (TypeRef.nullable v).encode context := by
    intro v hv
    rw [encode_nullable, hv]
    rfl
  by_cases hlast : path.getLast? = some .nullable
  · -- the type has a question mark already
    obtain ⟨front, rfl⟩ := List.getLast?_eq_some_iff.1 hlast
    rw [plug_append, plug_append]
    exact encode_plug_congr (hskip rfl) rfl rfl front
  · have ht := h.resolve_right hlast
    exact encode_plug_congr (hskip ht) ht rfl path

end TypeRef

end PartialDocs
