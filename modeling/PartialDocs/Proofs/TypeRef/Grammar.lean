import PartialDocs.Proofs.TypeRef.Tokens

/-!
# The grammar of types

`SpellsType ts t` says that tokens derive a type: a tuple or a dotted name with any number of
suffixes.  The readers follow this grammar.  Whatever they find is derived by the tokens that
they have taken (`readsDerived`), and whatever is derived is found (`SpellsType.read`), because no
token that may stand behind a type goes on with it.  So tokens are read as a type exactly where
they derive it (`ofTokens?_eq_some_iff`).
-/

set_option autoImplicit false

namespace PartialDocs.TypeRef

open TypeToken (mark)

/-! ## Grammar -/

/-- The tokens of a name: a word, or two words around two colons.  The alias global is left out and
any other alias is joined by a dot. -/
inductive SpellsName : List TypeToken → Text → Prop
  | word {token : TypeToken} {w : Text} : token.word? = some w → SpellsName [token] w
  | global {first second : TypeToken} {w : Text} :
      first.word? = some "global".toList → second.word? = some w →
        SpellsName [first, mark ':', mark ':', second] w
  | aliased {first second : TypeToken} {v w : Text} :
      first.word? = some v → v ≠ "global".toList → second.word? = some w →
        SpellsName [first, mark ':', mark ':', second] (v ++ '.' :: w)

/-- The name of a tuple element, which may be missing. -/
inductive ElementName : List TypeToken → Prop
  | missing : ElementName []
  | word (w : Text) : ElementName [.word w]

mutual

/-- The tokens of a type: a tuple or a dotted name, and behind it any suffixes. -/
inductive SpellsType : List TypeToken → TypeRef → Prop
  | tuple {ts : List TypeToken} {es : List TypeRef} :
      SpellsElements ts es → SpellsType (mark '(' :: ts ++ [mark ')']) (.tuple es)
  | named {ts : List TypeToken} {ss : List TypeSegment} :
      SpellsSegments ts ss → SpellsType ts (.named ss)
  | nullable {ts : List TypeToken} {t : TypeRef} :
      SpellsType ts t → SpellsType (ts ++ [mark '?']) (.nullable t)
  | pointer {ts : List TypeToken} {t : TypeRef} :
      SpellsType ts t → SpellsType (ts ++ [mark '*']) (.pointer t)
  | array {ts : List TypeToken} {t : TypeRef} (commas : Nat) :
      SpellsType ts t →
        SpellsType (ts ++ mark '[' :: (List.replicate commas (mark ',') ++ [mark ']']))
          (.array t (commas + 1))

/-- The tokens of tuple elements with commas between them, of which there is one at least. -/
inductive SpellsElements : List TypeToken → List TypeRef → Prop
  | last {ts name : List TypeToken} {t : TypeRef} :
      SpellsType ts t → ElementName name → SpellsElements (ts ++ name) [t]
  | more {ts name us : List TypeToken} {t : TypeRef} {es : List TypeRef} :
      SpellsType ts t → ElementName name → SpellsElements us es →
        SpellsElements (ts ++ (name ++ mark ',' :: us)) (t :: es)

/-- The tokens of type arguments with commas between them, of which there is one at least. -/
inductive SpellsArguments : List TypeToken → List TypeRef → Prop
  | last {ts : List TypeToken} {t : TypeRef} : SpellsType ts t → SpellsArguments ts [t]
  | more {ts us : List TypeToken} {t : TypeRef} {as : List TypeRef} :
      SpellsType ts t → SpellsArguments us as → SpellsArguments (ts ++ mark ',' :: us) (t :: as)

/-- The tokens of the type arguments of a name with their angle brackets, or none. -/
inductive SpellsBracketed : List TypeToken → List TypeRef → Prop
  | missing : SpellsBracketed [] []
  | given {ts : List TypeToken} {as : List TypeRef} :
      SpellsArguments ts as → SpellsBracketed (mark '<' :: ts ++ [mark '>']) as

/-- The tokens of a dotted name. -/
inductive SpellsSegments : List TypeToken → List TypeSegment → Prop
  | last {ts us : List TypeToken} {name : Text} {as : List TypeRef} :
      SpellsName ts name → SpellsBracketed us as → SpellsSegments (ts ++ us) [.mk name as]
  | more {ts us vs : List TypeToken} {name : Text} {as : List TypeRef} {ss : List TypeSegment} :
      SpellsName ts name → SpellsBracketed us as → SpellsSegments vs ss →
        SpellsSegments (ts ++ (us ++ mark '.' :: vs)) (.mk name as :: ss)

end

/-! ## What is read is derived -/

variable {ts rest : List TypeToken}

/-- A word that is read is the first token. -/
theorem spells_of_readWord {w : Text} (h : readWord ts = some (w, rest)) :
    ∃ token : TypeToken, token.word? = some w ∧ ts = token :: rest := by
  unfold readWord at h
  split at h
  · cases h
    exact ⟨.word w, rfl, rfl⟩
  · cases h
    exact ⟨.escaped w, rfl, rfl⟩
  · cases h

/-- A name that is read is spelled by the tokens taken. -/
theorem spells_of_readName {name : Text} (h : readName ts = some (name, rest)) :
    ∃ used, ts = used ++ rest ∧ SpellsName used name := by
  unfold readName at h
  split at h
  · cases h
  · rename_i v ts' hfirst
    obtain ⟨first, hv, rfl⟩ := spells_of_readWord hfirst
    split at h
    · rw [Option.map_eq_some_iff] at h
      obtain ⟨⟨w, after⟩, hsecond, hpair⟩ := h
      obtain ⟨second, hw, rfl⟩ := spells_of_readWord hsecond
      obtain ⟨hname, rfl⟩ := Prod.mk.inj hpair
      refine ⟨[first, mark ':', mark ':', second], rfl, ?_⟩
      rw [← hname]
      split
      · rename_i hglobal
        exact .global (hglobal ▸ hv) hw
      · rename_i hother
        exact .aliased hv hother hw
    · cases h
  · rename_i hword
    cases h
    obtain ⟨token, hw, rfl⟩ := spells_of_readWord hword
    exact ⟨[token], rfl, .word hw⟩

mutual

/-- Suffixes only make the type in front of them longer. -/
theorem spells_of_readSuffixes : ∀ {ts used rest : List TypeToken} {t u : TypeRef},
    SpellsType used t → readSuffixes t ts = some (u, rest) →
      ∃ more, ts = more ++ rest ∧ SpellsType (used ++ more) u
  | [], used, rest, t, u, ht, hread => by
    unfold readSuffixes at hread
    cases hread
    exact ⟨[], rfl, by rwa [List.append_nil]⟩
  | token :: ts, used, rest, t, u, ht, hread => by
    unfold readSuffixes at hread
    split at hread
    · cases ‹token :: ts = []›
    · cases ‹token :: ts = _›
      obtain ⟨more, hts, hu⟩ := spells_of_readSuffixes ht.nullable hread
      exact ⟨mark '?' :: more, by rw [hts]; rfl, by simpa using hu⟩
    · cases ‹token :: ts = _›
      obtain ⟨more, hts, hu⟩ := spells_of_readSuffixes ht.pointer hread
      exact ⟨mark '*' :: more, by rw [hts]; rfl, by simpa using hu⟩
    · cases ‹token :: ts = _›
      obtain ⟨more, hts, hu⟩ := spells_of_readDimensions 0 ht hread
      exact ⟨mark '[' :: more, by rw [hts]; rfl, hu⟩
    · cases ‹token :: ts = _›
      cases hread
      exact ⟨[], rfl, by rwa [List.append_nil]⟩

/-- The dimensions that are read are the marks of an array type. -/
theorem spells_of_readDimensions : ∀ {ts used rest : List TypeToken} {t u : TypeRef} (commas : Nat),
    SpellsType used t → readDimensions t (commas + 1) ts = some (u, rest) →
      ∃ more, ts = more ++ rest ∧
        SpellsType (used ++ mark '[' :: (List.replicate commas (mark ',') ++ more)) u
  | [], _, _, _, _, _, _, hread => by
    unfold readDimensions at hread
    cases hread
  | token :: ts, used, rest, t, u, commas, ht, hread => by
    unfold readDimensions at hread
    split at hread
    · cases ‹token :: ts = _›
      obtain ⟨more, hts, hu⟩ := spells_of_readDimensions (commas + 1) ht hread
      refine ⟨mark ',' :: more, by rw [hts]; rfl, ?_⟩
      rw [List.replicate_succ', List.append_assoc] at hu
      exact hu
    · cases ‹token :: ts = _›
      obtain ⟨more, hts, hu⟩ := spells_of_readSuffixes (ht.array commas) hread
      refine ⟨mark ']' :: more, by rw [hts]; rfl, ?_⟩
      simpa using hu
    · cases hread

end

/-- What the readers find with some fuel is derived by the tokens that they take. -/
structure ReadsDerived (fuel : Nat) : Prop where
  type {ts rest : List TypeToken} {t : TypeRef} : readType fuel ts = some (t, rest) →
    ∃ used, ts = used ++ rest ∧ SpellsType used t
  elements {ts rest : List TypeToken} {es : List TypeRef} :
    readElements fuel ts = some (es, rest) →
      ∃ used, ts = used ++ mark ')' :: rest ∧ SpellsElements used es
  arguments {ts rest : List TypeToken} {as : List TypeRef} :
    readArguments fuel ts = some (as, rest) →
      ∃ used, ts = used ++ mark '>' :: rest ∧ SpellsArguments used as
  segments {ts rest : List TypeToken} {ss : List TypeSegment} :
    readSegments fuel ts = some (ss, rest) → ∃ used, ts = used ++ rest ∧ SpellsSegments used ss

variable {fuel : Nat}

/-- What is dropped in front of a comma or the end is the name of an element, or nothing. -/
theorem exists_elementName (ts : List TypeToken) :
    ∃ name, ElementName name ∧ ts = name ++ dropElementName ts := by
  unfold dropElementName
  split
  · rename_i w ts
    exact ⟨[.word w], .word w, rfl⟩
  · exact ⟨[], .missing, rfl⟩

/-- With one more unit of fuel the types that are read are derived. -/
theorem ReadsDerived.type_succ (ih : ReadsDerived fuel) {t : TypeRef}
    (hread : readType (fuel + 1) ts = some (t, rest)) :
    ∃ used, ts = used ++ rest ∧ SpellsType used t := by
  unfold readType at hread
  split at hread
  · cases ‹fuel + 1 = 0›
  · cases ‹fuel + 1 = _›
    rw [Option.bind_eq_some_iff] at hread
    obtain ⟨⟨es, after⟩, hes, hread⟩ := hread
    obtain ⟨used, rfl, helements⟩ := ih.elements hes
    obtain ⟨more, rfl, ht⟩ := spells_of_readSuffixes (.tuple helements) hread
    exact ⟨_, by simp, ht⟩
  · cases ‹fuel + 1 = _›
    rw [Option.bind_eq_some_iff] at hread
    obtain ⟨⟨ss, after⟩, hss, hread⟩ := hread
    obtain ⟨used, rfl, hsegments⟩ := ih.segments hss
    obtain ⟨more, rfl, ht⟩ := spells_of_readSuffixes (.named hsegments) hread
    exact ⟨used ++ more, by simp, ht⟩

/-- With one more unit of fuel the tuple elements that are read are derived. -/
theorem ReadsDerived.elements_succ (ih : ReadsDerived fuel) {es : List TypeRef}
    (hread : readElements (fuel + 1) ts = some (es, rest)) :
    ∃ used, ts = used ++ mark ')' :: rest ∧ SpellsElements used es := by
  unfold readElements at hread
  rw [Option.bind_eq_some_iff] at hread
  obtain ⟨⟨e, after⟩, he, hread⟩ := hread
  obtain ⟨used, rfl, htype⟩ := ih.type he
  obtain ⟨name, hname, hafter⟩ := exists_elementName after
  simp only at hread
  split at hread
  · rename_i hnext
    rw [hnext] at hafter
    cases hread
    exact ⟨used ++ name, by rw [hafter, List.append_assoc], .last htype hname⟩
  · rename_i hnext
    rw [hnext] at hafter
    rw [Option.map_eq_some_iff] at hread
    obtain ⟨⟨es', after'⟩, hes, hpair⟩ := hread
    obtain ⟨used', rfl, hmore⟩ := ih.elements hes
    cases hpair
    exact ⟨used ++ (name ++ mark ',' :: used'), by rw [hafter]; simp, .more htype hname hmore⟩
  · cases hread

/-- With one more unit of fuel the type arguments that are read are derived. -/
theorem ReadsDerived.arguments_succ (ih : ReadsDerived fuel) {as : List TypeRef}
    (hread : readArguments (fuel + 1) ts = some (as, rest)) :
    ∃ used, ts = used ++ mark '>' :: rest ∧ SpellsArguments used as := by
  unfold readArguments at hread
  rw [Option.bind_eq_some_iff] at hread
  obtain ⟨⟨a, after⟩, ha, hread⟩ := hread
  obtain ⟨used, rfl, htype⟩ := ih.type ha
  simp only at hread
  split at hread
  · cases hread
    exact ⟨used, rfl, .last htype⟩
  · rw [Option.map_eq_some_iff] at hread
    obtain ⟨⟨as', after'⟩, has, hpair⟩ := hread
    obtain ⟨used', rfl, hmore⟩ := ih.arguments has
    cases hpair
    exact ⟨used ++ mark ',' :: used', by simp, .more htype hmore⟩
  · cases hread

/-- With one more unit of fuel the segments that are read are derived. -/
theorem ReadsDerived.segments_succ (ih : ReadsDerived fuel) {ss : List TypeSegment}
    (hread : readSegments (fuel + 1) ts = some (ss, rest)) :
    ∃ used, ts = used ++ rest ∧ SpellsSegments used ss := by
  unfold readSegments at hread
  rw [Option.bind_eq_some_iff] at hread
  obtain ⟨⟨name, after⟩, hname, hread⟩ := hread
  obtain ⟨used, rfl, hspells⟩ := spells_of_readName hname
  rw [Option.bind_eq_some_iff] at hread
  obtain ⟨⟨as, after'⟩, has, hread⟩ := hread
  -- the arguments are those in angle brackets, or none
  have harguments : ∃ us, after = us ++ after' ∧ SpellsBracketed us as := by
    split at has
    · obtain ⟨us, rfl, hus⟩ := ih.arguments has
      exact ⟨mark '<' :: us ++ [mark '>'], by simp, .given hus⟩
    · cases has
      exact ⟨[], rfl, .missing⟩
  obtain ⟨us, rfl, hus⟩ := harguments
  simp only at hread
  split at hread
  · rw [Option.map_eq_some_iff] at hread
    obtain ⟨⟨ss', after''⟩, hss, hpair⟩ := hread
    obtain ⟨used', rfl, hmore⟩ := ih.segments hss
    cases hpair
    exact ⟨used ++ (us ++ mark '.' :: used'), by simp, .more hspells hus hmore⟩
  · cases hread
    exact ⟨used ++ us, by simp, .last hspells hus⟩

/-- What is read is derived, whatever the fuel. -/
theorem readsDerived (fuel : Nat) : ReadsDerived fuel := by
  induction fuel with
  | zero => constructor <;> intro ts rest _ hread <;> cases hread
  | succ fuel ih => exact ⟨ih.type_succ, ih.elements_succ, ih.arguments_succ, ih.segments_succ⟩

/-! ## What is derived is read -/

/-- Whether the next token does not go on with a dotted name. -/
def EndsName : List TypeToken → Prop
  | mark c :: _ => c ∉ ['.', '<', ':']
  | _ => True

/-- Whether the next token goes on neither with a dotted name nor with the suffixes of a type. -/
def EndsType : List TypeToken → Prop
  | mark c :: _ => c ∉ ['.', '<', ':', '?', '*', '[']
  | _ => True

/-- What ends a type ends a name. -/
theorem EndsType.endsName (h : EndsType rest) : EndsName rest := by
  match rest with
  | [] => trivial
  | .word _ :: _ => trivial
  | .escaped _ :: _ => trivial
  | mark c :: _ =>
    intro hc
    exact h (List.mem_append_left ['?', '*', '['] hc)

/-- Behind the end of a type no suffix is read. -/
theorem EndsType.readSuffixes (h : EndsType rest) (t : TypeRef) :
    readSuffixes t rest = some (t, rest) := by
  match rest with
  | [] => rfl
  | .word _ :: _ => rfl
  | .escaped _ :: _ => rfl
  | mark c :: us =>
    unfold TypeRef.readSuffixes
    split <;> simp_all [EndsType]

/-- What ends a type may have the name of an element in front. -/
theorem ElementName.endsType {name : List TypeToken} (h : ElementName name) {c : Char}
    (hc : EndsType (mark c :: rest)) : EndsType (name ++ mark c :: rest) := by
  cases h with
  | missing => exact hc
  | word w => trivial

/-- The name of an element is dropped. -/
theorem ElementName.drop {name : List TypeToken} (h : ElementName name) (c : Char)
    (rest : List TypeToken) : dropElementName (name ++ mark c :: rest) = mark c :: rest := by
  cases h <;> rfl

/-- A token with a word is read as this word. -/
theorem readWord_of_word? {token : TypeToken} {w : Text} (h : token.word? = some w)
    (rest : List TypeToken) : readWord (token :: rest) = some (w, rest) := by
  cases token with
  | word v =>
    cases h
    rfl
  | escaped v =>
    cases h
    rfl
  | mark c => cases h

/-- A name is read by its tokens. -/
theorem read_of_spellsName {name : Text} (h : SpellsName ts name)
    (hrest : ∀ us, rest ≠ mark ':' :: us) : readName (ts ++ rest) = some (name, rest) := by
  cases h with
  | word hw =>
    unfold readName
    rw [List.singleton_append, readWord_of_word? hw]
    split
    · cases ‹some _ = none›
    · cases ‹some _ = some _›
      exact absurd rfl (hrest _)
    · cases ‹some _ = some _›
      rfl
  | global hfirst hsecond =>
    unfold readName
    simp only [List.cons_append, List.nil_append, readWord_of_word? hfirst,
      readWord_of_word? hsecond, Option.map_some, if_true]
  | aliased hfirst hother hsecond =>
    unfold readName
    simp only [List.cons_append, List.nil_append, readWord_of_word? hfirst,
      readWord_of_word? hsecond, Option.map_some, if_neg hother]

/-- The commas of an array are read as its dimensions. -/
theorem readDimensions_replicate (t : TypeRef) (rank commas : Nat) (rest : List TypeToken) :
    readDimensions t rank (List.replicate commas (mark ',') ++ mark ']' :: rest) =
      readSuffixes (.array t (rank + commas)) rest := by
  induction commas generalizing rank with
  | zero => rfl
  | succ commas ih =>
    rw [List.replicate_succ, List.cons_append, readDimensions, ih, Nat.succ_add_eq_add_succ]

/-- A name takes a token. -/
theorem SpellsName.length_pos {name : Text} (h : SpellsName ts name) : 0 < ts.length := by
  cases h <;> exact Nat.succ_pos _

/-- A dotted name takes a token. -/
theorem SpellsSegments.length_pos {ss : List TypeSegment} (h : SpellsSegments ts ss) :
    0 < ts.length := by
  cases h with
  | last hname _ =>
    have := hname.length_pos
    rw [List.length_append]
    omega
  | more hname _ _ =>
    have := hname.length_pos
    rw [List.length_append]
    omega

/-- A dotted name begins with a word. -/
theorem SpellsSegments.exists_word {ss : List TypeSegment} (h : SpellsSegments ts ss) :
    ∃ token us, ts = token :: us ∧ token.word?.isSome := by
  have hname : ∀ {used : List TypeToken} {name : Text}, SpellsName used name →
      ∃ token us, used = token :: us ∧ token.word?.isSome := by
    intro used name hused
    cases hused with
    | word hw => exact ⟨_, _, rfl, by simp [hw]⟩
    | global hw _ => exact ⟨_, _, rfl, by simp [hw]⟩
    | aliased hw _ _ => exact ⟨_, _, rfl, by simp [hw]⟩
  cases h with
  | last hused _ =>
    obtain ⟨token, us, rfl, htoken⟩ := hname hused
    exact ⟨token, _, rfl, htoken⟩
  | more hused _ _ =>
    obtain ⟨token, us, rfl, htoken⟩ := hname hused
    exact ⟨token, _, rfl, htoken⟩

/-- What the reader of a dotted name does behind a segment. -/
def readBehind (s : TypeSegment) (fuel : Nat) : List TypeToken → Reading (List TypeSegment)
  | mark '.' :: us => (readSegments fuel us).map fun (ss, after) => (s :: ss, after)
  | us => some ([s], us)

mutual

/-- A type that is derived is read, up to its suffixes. -/
theorem SpellsType.read : ∀ {ts : List TypeToken} {t : TypeRef}, SpellsType ts t →
    ∀ (fuel : Nat) (rest : List TypeToken), 3 * ts.length + 1 ≤ fuel → EndsName rest →
      readType fuel (ts ++ rest) = readSuffixes t rest
  | _, _, @SpellsType.tuple ts _ helements, fuel, rest, hfuel, _ => by
    simp only [List.length_append, List.length_cons, List.length_nil] at hfuel
    obtain ⟨fuel, rfl⟩ : ∃ n, fuel = n + 1 := ⟨fuel - 1, by omega⟩
    have hread := helements.read fuel rest (by omega)
    have htokens : mark '(' :: ts ++ [mark ')'] ++ rest = mark '(' :: (ts ++ mark ')' :: rest) := by
      simp
    rw [htokens, readType, hread]
    rfl
  | _, _, .named hsegments, fuel, rest, hfuel, hrest => by
    obtain ⟨fuel, rfl⟩ : ∃ n, fuel = n + 1 := ⟨fuel - 1, by omega⟩
    have hread := hsegments.read fuel rest (by omega) hrest
    obtain ⟨token, us, rfl, htoken⟩ := hsegments.exists_word
    unfold readType
    split
    · cases ‹fuel + 1 = 0›
    · cases ‹token :: us ++ rest = _›
      cases htoken
    · cases ‹fuel + 1 = _›
      rw [hread]
      rfl
  | _, _, .nullable ht, fuel, rest, hfuel, _ => by
    rw [List.length_append] at hfuel
    rw [List.append_assoc, ht.read _ _ (by omega) (by simp [EndsName])]
    rfl
  | _, _, .pointer ht, fuel, rest, hfuel, _ => by
    rw [List.length_append] at hfuel
    rw [List.append_assoc, ht.read _ _ (by omega) (by simp [EndsName])]
    rfl
  | _, _, .array commas ht, fuel, rest, hfuel, _ => by
    rw [List.length_append] at hfuel
    rw [List.append_assoc, List.cons_append, List.append_assoc,
      ht.read _ _ (by omega) (by simp [EndsName]), readSuffixes, List.singleton_append,
      readDimensions_replicate, Nat.add_comm]

/-- Tuple elements that are derived are read. -/
theorem SpellsElements.read : ∀ {ts : List TypeToken} {es : List TypeRef}, SpellsElements ts es →
    ∀ (fuel : Nat) (rest : List TypeToken), 3 * ts.length + 2 ≤ fuel →
      readElements fuel (ts ++ mark ')' :: rest) = some (es, rest)
  | _, _, .last ht hname, fuel, rest, hfuel => by
    rw [List.length_append] at hfuel
    obtain ⟨fuel, rfl⟩ : ∃ n, fuel = n + 1 := ⟨fuel - 1, by omega⟩
    have hends : EndsType (_ ++ mark ')' :: rest) := hname.endsType (by simp [EndsType])
    rw [List.append_assoc, readElements, ht.read _ _ (by omega) hends.endsName, hends.readSuffixes,
      Option.bind_some]
    simp only [hname.drop]
  | _, _, @SpellsElements.more _ _ us _ _ ht hname hmore, fuel, rest, hfuel => by
    simp only [List.length_append, List.length_cons] at hfuel
    obtain ⟨fuel, rfl⟩ : ∃ n, fuel = n + 1 := ⟨fuel - 1, by omega⟩
    have hends : EndsType (_ ++ mark ',' :: (us ++ mark ')' :: rest)) :=
      hname.endsType (by simp [EndsType])
    rw [List.append_assoc, List.append_assoc, List.cons_append, readElements,
      ht.read _ _ (by omega) hends.endsName, hends.readSuffixes, Option.bind_some]
    simp only [hname.drop, hmore.read fuel rest (by omega), Option.map_some]

/-- Type arguments that are derived are read. -/
theorem SpellsArguments.read : ∀ {ts : List TypeToken} {as : List TypeRef}, SpellsArguments ts as →
    ∀ (fuel : Nat) (rest : List TypeToken), 3 * ts.length + 2 ≤ fuel →
      readArguments fuel (ts ++ mark '>' :: rest) = some (as, rest)
  | _, _, .last ht, fuel, rest, hfuel => by
    obtain ⟨fuel, rfl⟩ : ∃ n, fuel = n + 1 := ⟨fuel - 1, by omega⟩
    have hends : EndsType (mark '>' :: rest) := by simp [EndsType]
    rw [readArguments, ht.read _ _ (by omega) hends.endsName, hends.readSuffixes]
    rfl
  | _, _, @SpellsArguments.more _ us _ _ ht hmore, fuel, rest, hfuel => by
    simp only [List.length_append, List.length_cons] at hfuel
    obtain ⟨fuel, rfl⟩ : ∃ n, fuel = n + 1 := ⟨fuel - 1, by omega⟩
    have hends : EndsType (mark ',' :: (us ++ mark '>' :: rest)) := by simp [EndsType]
    rw [List.append_assoc, List.cons_append, readArguments, ht.read _ _ (by omega) hends.endsName,
      hends.readSuffixes, Option.bind_some]
    simp only [hmore.read fuel rest (by omega), Option.map_some]

/-- A name with its type arguments is a segment for the reader of a dotted name. -/
theorem SpellsBracketed.read : ∀ {ts : List TypeToken} {as : List TypeRef}, SpellsBracketed ts as →
    ∀ {used : List TypeToken} {name : Text} (fuel : Nat) (rest : List TypeToken),
      SpellsName used name →
      3 * (used.length + ts.length) ≤ fuel + 1 →
      (∀ us, rest ≠ mark '<' :: us) → (∀ us, rest ≠ mark ':' :: us) →
      readSegments (fuel + 1) (used ++ (ts ++ rest)) = readBehind (.mk name as) fuel rest
  | _, _, .missing, _, _, fuel, rest, hname, _, hangle, hcolon => by
    rw [List.nil_append, readSegments, read_of_spellsName hname hcolon, Option.bind_some]
    -- by `hangle` the reader takes no arguments
    simp only [Option.bind_some]
    rfl
  | _, _, @SpellsBracketed.given ts _ harguments, _, _, fuel, rest, hname, hfuel, _, _ => by
    have hpos := hname.length_pos
    simp only [List.length_append, List.length_cons, List.length_nil] at hfuel
    have hread := harguments.read fuel rest (by omega)
    have htokens : mark '<' :: ts ++ [mark '>'] ++ rest = mark '<' :: (ts ++ mark '>' :: rest) := by
      simp
    rw [htokens, readSegments, read_of_spellsName hname (by simp), Option.bind_some]
    simp only [hread, Option.bind_some]
    rfl

/-- Segments that are derived are read. -/
theorem SpellsSegments.read : ∀ {ts : List TypeToken} {ss : List TypeSegment},
    SpellsSegments ts ss →
    ∀ (fuel : Nat) (rest : List TypeToken), 3 * ts.length ≤ fuel → EndsName rest →
      readSegments fuel (ts ++ rest) = some (ss, rest)
  | _, _, .last hname hargs, fuel, rest, hfuel, hrest => by
    have hpos := hname.length_pos
    rw [List.length_append] at hfuel
    obtain ⟨fuel, rfl⟩ : ∃ n, fuel = n + 1 := ⟨fuel - 1, by omega⟩
    have hends : ∀ c ∈ ['.', '<', ':'], ∀ us, rest ≠ mark c :: us := by
      rintro c hc us rfl
      exact hrest hc
    rw [List.append_assoc,
      hargs.read _ _ hname (by omega) (hends '<' (by simp)) (hends ':' (by simp))]
    unfold readBehind
    split
    · exact absurd rfl (hends '.' (by simp) _)
    · rfl
  | _, _, .more hname hargs hmore, fuel, rest, hfuel, hrest => by
    have hpos := hname.length_pos
    simp only [List.length_append, List.length_cons] at hfuel
    obtain ⟨fuel, rfl⟩ : ∃ n, fuel = n + 1 := ⟨fuel - 1, by omega⟩
    rw [List.append_assoc, List.append_assoc, hargs.read _ _ hname (by omega) (by simp) (by simp),
      List.cons_append, readBehind, hmore.read fuel rest (by omega) hrest]
    rfl

end

/-- With enough fuel a type is all that there is exactly where the tokens derive it. -/
theorem readType_eq_some_nil_iff {t : TypeRef} (hfuel : 3 * ts.length + 1 ≤ fuel) :
    readType fuel ts = some (t, []) ↔ SpellsType ts t := by
  constructor
  · intro hread
    obtain ⟨used, hts, hused⟩ := (readsDerived _).type hread
    rw [List.append_nil] at hts
    exact hts ▸ hused
  · intro h
    have hread := h.read fuel [] hfuel trivial
    rw [List.append_nil] at hread
    rw [hread]
    rfl

/-- **The reader finds a type exactly where tokens derive it.** -/
theorem ofTokens?_eq_some_iff {t : TypeRef} : ofTokens? ts = some t ↔ SpellsType ts t := by
  have hfuel : 3 * ts.length + 1 ≤ 3 * ts.length + 3 := by omega
  rw [← readType_eq_some_nil_iff hfuel]
  unfold ofTokens?
  split
  · rename_i u hread
    rw [hread]
    simp
  · rename_i hother
    simpa using hother t

/-- A text spells the type that its tokens derive. -/
theorem ofText?_eq_some_iff_spells {s : Text} {t : TypeRef} :
    ofText? s = some t ↔ SpellsType (TypeToken.ofText s) t :=
  ofTokens?_eq_some_iff

/-- A text of which a type is derived is read as this type. -/
theorem ofText?_of_tokens {s : Text} {ts : List TypeToken} {t : TypeRef}
    (hs : TypeToken.ofText s = ts) (h : SpellsType ts t) : ofText? s = some t :=
  ofText?_eq_some_iff_spells.2 (hs ▸ h)

/-- A word by itself is a type. -/
theorem SpellsType.of_word {token : TypeToken} {w : Text} (h : token.word? = some w) :
    SpellsType [token] (word w) :=
  .named (.last (.word h) .missing)

end PartialDocs.TypeRef
