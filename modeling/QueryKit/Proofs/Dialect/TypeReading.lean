import QueryKit.Proofs.Dialect.Requoting
import QueryKit.Proofs.Text.Blank
import QueryKit.Proofs.Text.Delimited
import QueryKit.Proofs.Text.Template
import QueryKit.Statement.Define

/-!
# What a dialect knows of a column type

A dialect writes its physical types for the abstract types of a schema, and leaves what it does not
know as it is. A physical type may begin with the name of an abstract one.

- `PhysicalType`: the parts of a physical type. `Dialect.typeMap_sound` is what the types of every
  dialect have in common; nothing else is used of them.
- `TypeReading`: a type that is known, and what is written for it (`Dialect.columnType_toList`).
  `Dialect.Reads` says which types these are (`Dialect.readType?_eq_some`).
- `TypeReading.IsPhysical`: those of them that stay as they are (`Dialect.columnType_eq_self_iff`).
-/

namespace QueryKit

open Text (isWord isBlank HasReference expandTemplate)

variable {c : Char} {s t u : List Char}

/-! ## Texts -/

namespace Text

theorem splitFirst_of_not_mem (h : c ∉ s) : splitFirst c s = none := by
  induction s with
  | nil => rfl
  | cons d s ih =>
    rw [List.mem_cons, not_or] at h
    rw [splitFirst, if_neg (Ne.symm h.1), ih h.2]
    rfl

theorem splitFirst_append (h : c ∉ s) : splitFirst c (s ++ c :: t) = some (s, t) := by
  induction s with
  | nil => exact if_pos rfl
  | cons d s ih =>
    rw [List.mem_cons, not_or] at h
    rw [List.cons_append, splitFirst, if_neg (Ne.symm h.1), ih h.2]
    rfl

theorem splitFirst_some (h : splitFirst c s = some (t, u)) : s = t ++ c :: u ∧ c ∉ t := by
  induction s generalizing t with
  | nil => cases h
  | cons d s ih =>
    rw [splitFirst] at h
    split at h
    · next hd =>
      cases h
      exact ⟨by rw [hd]; rfl, List.not_mem_nil⟩
    · next hd =>
      obtain ⟨⟨before, after⟩, hs, heq⟩ := Option.map_eq_some_iff.mp h
      cases heq
      obtain ⟨rfl, hbefore⟩ := ih hs
      refine ⟨rfl, ?_⟩
      rw [List.mem_cons, not_or]
      exact ⟨Ne.symm hd, hbefore⟩

end Text

/-- Arguments in their parentheses. -/
def enclosed (arguments : List Char) : List Char :=
  '(' :: (arguments ++ [')'])

/-! ## Physical types -/

/-- The parts of a physical type: its word, perhaps arguments, and what follows them. -/
structure PhysicalType where
  word : List Char
  arguments : Option (List Char)
  tail : List Char
deriving DecidableEq

namespace PhysicalType

def read (s : List Char) : PhysicalType :=
  let word := s.takeWhile isWord
  match s.dropWhile isWord with
  | '(' :: r =>
    match Text.splitFirst ')' r with
    | some (arguments, tail) => ⟨word, some arguments, tail⟩
    | none => ⟨word, none, '(' :: r⟩
  | tail => ⟨word, none, tail⟩

def text (p : PhysicalType) : List Char :=
  p.word ++ (p.arguments.elim [] enclosed ++ p.tail)

/-- A blank sets off what follows; there are no parentheses but those around the arguments, and no
dollar signs within these. -/
structure Sound (p : PhysicalType) : Prop where
  isWord : ∀ c ∈ p.word, isWord c = true
  arguments : ∀ a ∈ p.arguments, a ≠ [] ∧ ')' ∉ a ∧ '$' ∉ a
  blank : ∀ c ∈ p.tail.head?, isBlank c = true
  tail : '(' ∉ p.tail ∧ ')' ∉ p.tail

instance (p : PhysicalType) : Decidable p.Sound :=
  decidable_of_iff
    (p.word.all Text.isWord = true ∧ (∀ a ∈ p.arguments, a ≠ [] ∧ ')' ∉ a ∧ '$' ∉ a) ∧
      p.tail.head?.all Text.isBlank = true ∧ '(' ∉ p.tail ∧ ')' ∉ p.tail)
    ⟨fun ⟨hword, harguments, hblank, htail⟩ =>
        ⟨List.all_eq_true.mp hword, harguments, (Option.all_eq_true _ _).mp hblank, htail⟩,
      fun ⟨hword, harguments, hblank, htail⟩ =>
        ⟨List.all_eq_true.mpr hword, harguments, (Option.all_eq_true _ _).mpr hblank, htail⟩⟩

theorem Sound.paren_mem_iff {p : PhysicalType} (hp : p.Sound) :
    '(' ∈ p.text ↔ p.arguments.isSome = true := by
  have hopen : '(' ∉ p.word := fun hmem => absurd (hp.isWord _ hmem) (by decide)
  cases hinner : p.arguments with
  | none => simp [text, hinner, hopen, hp.tail.1]
  | some inner => simp [text, hinner, enclosed]

/-- The type is a word, perhaps with arguments. -/
def IsNamed (p : PhysicalType) (word : List Char) (sized : Bool) : Prop :=
  p.word = word ∧ p.arguments.isSome = sized ∧ p.tail = []

instance (p : PhysicalType) (word : List Char) (sized : Bool) : Decidable (p.IsNamed word sized) :=
  inferInstanceAs (Decidable (_ ∧ _ ∧ _))

theorem IsNamed.text_eq {p : PhysicalType} {word : List Char} (h : p.IsNamed word false) :
    p.text = word := by
  obtain ⟨hword, hbare, htail⟩ := h
  rw [text, hword, Option.not_isSome_iff_eq_none.mp (Bool.eq_false_iff.mp hbare), htail]
  exact List.append_nil word

end PhysicalType

open PhysicalType (read)

namespace Dialect

variable {d : Dialect} {word word' physical physical' : List Char}

/-- What the types of a dialect have in common. The word that a physical type begins with stands for
itself, if it stands for anything, or the type is `double precision`; and a physical type without
arguments is not the beginning of a word that stands for itself with some. -/
theorem typeMap_sound (d : Dialect) : ∀ e ∈ d.typeMap,
    (e.1.toList ≠ [] ∧ e.1.toList.all isWord = true) ∧
    (read e.2.toList).text = e.2.toList ∧ (read e.2.toList).Sound ∧
    ∀ e' ∈ d.typeMap,
      (e'.1.toList = (read e.2.toList).word → e.2 = "double precision" ∨
        (read e'.2.toList).IsNamed e'.1.toList (read e.2.toList).arguments.isSome) ∧
      (e.2.toList <+: e'.1.toList → (read e.2.toList).arguments = none →
        ¬(read e'.2.toList).IsNamed e'.1.toList true) := by
  cases d with
  | generic => exact nofun
  | mysql | postgres | sqlite => decide +kernel

/-- The physical type that a word stands for. -/
def physical? (d : Dialect) (word : List Char) : Option (List Char) :=
  (d.typeMap.lookup (String.ofList word)).map String.toList

theorem mem_typeMap_of_physical? (h : d.physical? word = some physical) :
    ∃ e ∈ d.typeMap, e.1.toList = word ∧ e.2.toList = physical := by
  obtain ⟨p, hlookup, rfl⟩ := Option.map_eq_some_iff.mp h
  obtain ⟨before, after, heq, -⟩ := List.lookup_eq_some_iff.mp hlookup
  refine ⟨(String.ofList word, p), ?_, String.toList_ofList, rfl⟩
  rw [heq]
  exact List.mem_append_right before List.mem_cons_self

/-- Only words are known. -/
theorem isWord_of_physical? (h : d.physical? word = some physical) :
    word ≠ [] ∧ ∀ c ∈ word, isWord c = true := by
  obtain ⟨e, he, rfl, -⟩ := mem_typeMap_of_physical? h
  obtain ⟨hne, hword⟩ := (d.typeMap_sound e he).1
  exact ⟨hne, List.all_eq_true.mp hword⟩

theorem physical?_eq_none (h : c ∈ s) (hc : isWord c = false) : d.physical? s = none := by
  rw [Option.eq_none_iff_forall_ne_some]
  intro physical hknown
  have hword := (isWord_of_physical? hknown).2 c h
  rw [hc] at hword
  cases hword

theorem text_read (h : d.physical? word = some physical) : (read physical).text = physical := by
  obtain ⟨e, he, -, rfl⟩ := mem_typeMap_of_physical? h
  exact (d.typeMap_sound e he).2.1

theorem sound_read (h : d.physical? word = some physical) : (read physical).Sound := by
  obtain ⟨e, he, -, rfl⟩ := mem_typeMap_of_physical? h
  exact (d.typeMap_sound e he).2.2.1

/-- A physical type whose first word is known. -/
theorem isNamed_of_physical? (h : d.physical? word = some physical)
    (hword : d.physical? (read physical).word = some physical')
    (hdouble : physical ≠ "double precision".toList) :
    (read physical').IsNamed (read physical).word (read physical).arguments.isSome := by
  obtain ⟨e, he, -, rfl⟩ := mem_typeMap_of_physical? h
  obtain ⟨e', he', hname, rfl⟩ := mem_typeMap_of_physical? hword
  rw [← hname]
  exact (((d.typeMap_sound e he).2.2.2 e' he').1 hname).resolve_left fun heq => hdouble (heq ▸ rfl)

/-- No type without arguments is the beginning of the name of a type with some. -/
theorem not_isNamed_of_physical? (h : d.physical? word = some physical)
    (hbare : (read physical).arguments = none) (h' : d.physical? word' = some physical')
    (hbegins : physical <+: word') : ¬(read physical').IsNamed word' true := by
  obtain ⟨e, he, -, rfl⟩ := mem_typeMap_of_physical? h
  obtain ⟨e', he', rfl, rfl⟩ := mem_typeMap_of_physical? h'
  exact ((d.typeMap_sound e he).2.2.2 e' he').2 hbegins hbare

/-- Where `double precision` is a type, its first word stands for it. -/
theorem physical?_double (h : d.physical? word = some "double precision".toList) :
    d.physical? "double".toList = some "double precision".toList := by
  have hmysql : ∀ e ∈ mysql.typeMap, e.2 ≠ "double precision" := by decide +kernel
  have hsqlite : ∀ e ∈ sqlite.typeMap, e.2 ≠ "double precision" := by decide +kernel
  obtain ⟨e, he, -, heq⟩ := mem_typeMap_of_physical? h
  rw [String.toList_inj] at heq
  cases d with
  | generic => cases he
  | mysql => exact absurd heq (hmysql e he)
  | postgres => rfl
  | sqlite => exact absurd heq (hsqlite e he)

end Dialect

/-! ## Readings -/

/-- A type that is known: its word, the physical type for it, its arguments and what follows. -/
structure TypeReading where
  word : List Char
  physical : List Char
  arguments : Option (List Char)
  rest : List Char

namespace TypeReading

/-- The type with its physical type for its word. -/
def written (r : TypeReading) : List Char :=
  r.arguments.elim r.physical (Dialect.replaceTypeArgs r.physical) ++ r.rest

/-- A type in its physical form: the word stands for itself, and arguments hold no references. -/
def IsPhysical (r : TypeReading) : Prop :=
  match r.arguments with
  | none => r.physical = r.word
  | some arguments => (read r.physical).IsNamed r.word true ∧ ¬HasReference (enclosed arguments)

theorem isPhysical_of_none {r : TypeReading} (h : r.arguments = none) :
    r.IsPhysical ↔ r.physical = r.word := by
  rw [IsPhysical, h]

theorem isPhysical_of_some {r : TypeReading} {arguments : List Char}
    (h : r.arguments = some arguments) :
    r.IsPhysical ↔ (read r.physical).IsNamed r.word true ∧ ¬HasReference (enclosed arguments) := by
  rw [IsPhysical, h]

end TypeReading

namespace Dialect

variable {d : Dialect} {r : TypeReading}

/-- What a dialect knows of a type. -/
def readType? (d : Dialect) (s : List Char) : Option TypeReading :=
  match d.physical? s with
  | some physical => some ⟨s, physical, none, []⟩
  | none =>
    match splitTypeArgs s with
    | some (word, arguments, rest) =>
      (d.physical? word).map fun physical => ⟨word, physical, some arguments, rest⟩
    | none =>
      let word := s.takeWhile isWord
      let rest := s.dropWhile isWord
      if rest.head?.any isBlank then
        (d.physical? word).map fun physical => ⟨word, physical, none, rest⟩
      else none

theorem columnType_toList (d : Dialect) (t : String) :
    (d.columnType t).toList = (d.readType? t.toList).elim t.toList TypeReading.written := by
  unfold columnType readType? physical?
  rw [String.ofList_toList]
  cases d.typeMap.lookup t with
  | some physical => simp [TypeReading.written]
  | none =>
    dsimp only [Option.map_none]
    cases splitTypeArgs t.toList with
    | some parts =>
      obtain ⟨word, arguments, rest⟩ := parts
      dsimp only
      cases d.typeMap.lookup (String.ofList word) with
      | some physical => simp [TypeReading.written]
      | none => rfl
    | none =>
      dsimp only
      by_cases hblank : (t.toList.dropWhile isWord).head?.any isBlank = true
      · rw [if_pos hblank, if_pos hblank]
        cases d.typeMap.lookup (String.ofList (t.toList.takeWhile isWord)) with
        | some physical => simp [TypeReading.written]
        | none => rfl
      · rw [if_neg hblank, if_neg hblank]
        rfl

/-- A type that is known: a word with nothing or a blank behind it, or a word with arguments, all on
one line. Arguments are not empty, and end at the first parenthesis behind their first character. -/
inductive Reads (d : Dialect) : List Char → TypeReading → Prop
  | bare {word physical rest : List Char} (hword : d.physical? word = some physical)
      (hrest : ∀ c ∈ rest.head?, isBlank c = true) :
      Reads d (word ++ rest) ⟨word, physical, none, rest⟩
  | sized {word physical arguments rest : List Char} {c : Char}
      (hword : d.physical? word = some physical) (hends : ')' ∉ arguments)
      (hline : '\n' ∉ c :: (arguments ++ ')' :: rest)) :
      Reads d (word ++ (enclosed (c :: arguments) ++ rest))
        ⟨word, physical, some (c :: arguments), rest⟩

theorem stops_isWord (h : ∀ c ∈ s.head?, isBlank c = true) : Stops isWord s := by
  intro c hc
  rw [Bool.eq_false_iff]
  intro hword
  have hblank := h c hc
  rw [Text.not_isBlank_of_isWord hword] at hblank
  cases hblank

theorem splitTypeArgs_append {word arguments rest : List Char} (hne : word ≠ [])
    (hword : ∀ c ∈ word, isWord c = true) (hends : ')' ∉ arguments)
    (hline : '\n' ∉ c :: (arguments ++ ')' :: rest)) :
    splitTypeArgs (word ++ (enclosed (c :: arguments) ++ rest)) =
      some (word, c :: arguments, rest) := by
  have hstops : Stops isWord (enclosed (c :: arguments) ++ rest) := stops_cons rfl
  unfold splitTypeArgs
  rw [takeWhile_append hword hstops, dropWhile_append hword hstops]
  have htext : enclosed (c :: arguments) ++ rest = '(' :: c :: (arguments ++ ')' :: rest) := by
    simp [enclosed]
  have hclosed : ¬(word.isEmpty || (c :: (arguments ++ ')' :: rest)).contains '\n') = true := by
    simpa [hne] using hline
  rw [htext]
  change (if _ then none else _) = _
  rw [if_neg hclosed, Text.splitFirst_append hends]
  rfl

theorem splitTypeArgs_eq_some {word arguments rest : List Char}
    (h : splitTypeArgs s = some (word, arguments, rest)) :
    ∃ c as, arguments = c :: as ∧ ')' ∉ as ∧ '\n' ∉ c :: (as ++ ')' :: rest) ∧
      s = word ++ (enclosed arguments ++ rest) := by
  unfold splitTypeArgs at h
  dsimp only at h
  split at h
  · next c r hbehind =>
    split at h
    · cases h
    · next hline =>
      obtain ⟨⟨as, behind⟩, hsplit, heq⟩ := Option.map_eq_some_iff.mp h
      cases heq
      obtain ⟨rfl, hends⟩ := Text.splitFirst_some hsplit
      refine ⟨c, as, rfl, hends, ?_, ?_⟩
      · simp at hline
        simp [hline]
      · have htext : s = s.takeWhile isWord ++ s.dropWhile isWord :=
          List.takeWhile_append_dropWhile.symm
        rw [hbehind] at htext
        refine htext.trans ?_
        simp [enclosed]
  · cases h

theorem splitTypeArgs_blank {word : List Char} (hword : ∀ c ∈ word, isWord c = true)
    (hblank : isBlank c = true) : splitTypeArgs (word ++ c :: t) = none := by
  have hstops : Stops isWord (c :: t) := stops_isWord fun x hx => by
    cases hx
    exact hblank
  unfold splitTypeArgs
  rw [dropWhile_append hword hstops]
  split
  · next heq =>
    rw [(List.cons.inj heq).1] at hblank
    cases hblank
  · rfl

theorem reads_of_readType? (h : d.readType? s = some r) : d.Reads s r := by
  unfold readType? at h
  cases hwhole : d.physical? s with
  | some physical =>
    rw [hwhole] at h
    cases h
    have hreads : d.Reads (s ++ []) ⟨s, physical, none, []⟩ := .bare hwhole (by simp)
    rwa [List.append_nil] at hreads
  | none =>
    rw [hwhole] at h
    dsimp only at h
    cases hsplit : splitTypeArgs s with
    | some parts =>
      obtain ⟨word, arguments, rest⟩ := parts
      rw [hsplit] at h
      obtain ⟨physical, hword, rfl⟩ := Option.map_eq_some_iff.mp h
      obtain ⟨c, as, rfl, hends, hline, rfl⟩ := splitTypeArgs_eq_some hsplit
      exact .sized hword hends hline
    | none =>
      rw [hsplit] at h
      dsimp only at h
      split at h
      · next hblank =>
        obtain ⟨physical, hword, rfl⟩ := Option.map_eq_some_iff.mp h
        have hrest : ∀ c ∈ (s.dropWhile isWord).head?, isBlank c = true := by
          intro c hc
          rw [hc] at hblank
          exact hblank
        have hreads := Reads.bare hword hrest
        rwa [List.takeWhile_append_dropWhile] at hreads
      · cases h

theorem Reads.readType?_eq (h : d.Reads s r) : d.readType? s = some r := by
  unfold readType?
  cases h with
  | @bare word physical rest hword hrest =>
    obtain ⟨-, hisWord⟩ := isWord_of_physical? hword
    cases rest with
    | nil => rw [List.append_nil, hword]
    | cons c rest =>
      have hstops : Stops isWord (c :: rest) := stops_isWord hrest
      have hblank : isBlank c = true := hrest c rfl
      rw [physical?_eq_none (List.mem_append_right word List.mem_cons_self) hstops.head,
        splitTypeArgs_blank hisWord hblank]
      dsimp only
      rw [takeWhile_append hisWord hstops, dropWhile_append hisWord hstops, hword]
      exact if_pos hblank
  | @sized word physical arguments rest c hword hends hline =>
    obtain ⟨hne, hisWord⟩ := isWord_of_physical? hword
    have hparen : '(' ∈ word ++ (enclosed (c :: arguments) ++ rest) := by simp [enclosed]
    rw [physical?_eq_none hparen rfl, splitTypeArgs_append hne hisWord hends hline]
    dsimp only
    rw [hword]
    rfl

theorem readType?_eq_some : d.readType? s = some r ↔ d.Reads s r :=
  ⟨reads_of_readType?, Reads.readType?_eq⟩

namespace Reads

theorem known (h : d.Reads s r) : d.physical? r.word = some r.physical := by
  cases h with
  | bare hword hrest => exact hword
  | sized hword hends hline => exact hword

theorem unique {r' : TypeReading} (h : d.Reads s r) (h' : d.Reads s r') : r = r' := by
  rw [← readType?_eq_some] at h h'
  exact Option.some.inj (h.symm.trans h')

/-- A word with a blank or nothing behind it is read without arguments. -/
theorem bare_of_append (h : d.Reads (word ++ t) r) (hisWord : ∀ c ∈ word, isWord c = true)
    (hblank : ∀ c ∈ t.head?, isBlank c = true) : r.word = word ∧ r.arguments = none := by
  generalize htext : word ++ t = s at h
  cases h with
  | bare hword hrest =>
    obtain ⟨hname, -⟩ := append_cancel (isWord_of_physical? hword).2 hisWord (stops_isWord hrest)
      (stops_isWord hblank) htext.symm
    exact ⟨hname, rfl⟩
  | sized hword hends hline =>
    obtain ⟨-, rfl⟩ := append_cancel (isWord_of_physical? hword).2 hisWord (stops_cons rfl)
      (stops_isWord hblank) htext.symm
    exact absurd (hblank '(' rfl) (by decide)

/-- A word with a parenthesis behind it is read with arguments. -/
theorem sized_of_append (h : d.Reads (word ++ '(' :: t) r) (hisWord : ∀ c ∈ word, isWord c = true) :
    r.word = word ∧ ∃ c as, r.arguments = some (c :: as) ∧ ')' ∉ as ∧
      t = c :: (as ++ ')' :: r.rest) := by
  generalize htext : word ++ '(' :: t = s at h
  cases h with
  | bare hword hrest =>
    obtain ⟨-, rfl⟩ := append_cancel (isWord_of_physical? hword).2 hisWord (stops_isWord hrest)
      (stops_cons rfl) htext.symm
    exact absurd (hrest '(' rfl) (by decide)
  | @sized word' physical arguments rest c hword hends hline =>
    obtain ⟨hname, hrest⟩ := append_cancel (isWord_of_physical? hword).2 hisWord (stops_cons rfl)
      (stops_cons rfl) htext.symm
    refine ⟨hname, c, arguments, rfl, hends, ?_⟩
    rw [← (List.cons.inj hrest).2]
    simp

/-- A text without parentheses that a type with arguments begins with is part of its word. -/
theorem prefix_word (h : d.Reads (s ++ t) r) (hs : '(' ∉ s) {arguments : List Char}
    (harguments : r.arguments = some arguments) : s <+: r.word := by
  generalize htext : s ++ t = u at h
  cases h with
  | bare hword hrest => cases harguments
  | @sized word physical arguments rest c hword hends hline =>
    rcases List.append_eq_append_iff.mp htext with ⟨r, hword, -⟩ | ⟨r, rfl, hr⟩
    · exact ⟨r, hword.symm⟩
    · cases r with
      | nil => simp
      | cons x r =>
        rw [← (List.cons.inj hr).1] at hs
        exact absurd (by simp) hs

end Reads

/-! ## Types that stay as they are -/

theorem replaceTypeArgs_bare (h : '(' ∉ s) (arguments : List Char) :
    replaceTypeArgs s arguments = s := by
  rw [replaceTypeArgs, Text.splitFirst_of_not_mem h]

theorem replaceTypeArgs_text {p : PhysicalType} (hp : p.Sound) {inner : List Char}
    (hinner : p.arguments = some inner) (arguments : List Char) :
    replaceTypeArgs p.text arguments =
      p.word ++ (expandTemplate (enclosed inner) (enclosed arguments) ++ p.tail) := by
  have hword : '(' ∉ p.word := fun hmem => absurd (hp.isWord _ hmem) (by decide)
  have htext : p.text = p.word ++ '(' :: (inner ++ ')' :: p.tail) := by
    simp [PhysicalType.text, hinner, enclosed]
  have hne : ¬inner.isEmpty = true := by
    rw [List.isEmpty_iff]
    exact (hp.arguments inner hinner).1
  rw [htext, replaceTypeArgs, Text.splitFirst_append hword]
  dsimp only
  rw [Text.splitLast_append hp.tail.2]
  dsimp only
  rw [if_neg hne, List.append_assoc]
  rfl

theorem expandTemplate_enclosed (whole arguments : List Char) :
    expandTemplate whole (enclosed arguments) =
      '(' :: Text.fillTemplate whole 0 (arguments ++ [')']) := by
  rw [expandTemplate, enclosed, Text.fillTemplate, if_neg (by decide)]

theorem paren_mem_iff (hword : d.physical? word = some physical) :
    '(' ∈ physical ↔ (read physical).arguments.isSome = true := by
  have hparen := (sound_read hword).paren_mem_iff
  rwa [text_read hword] at hparen

theorem paren_not_mem (hword : d.physical? word = some physical)
    (hnone : (read physical).arguments = none) : '(' ∉ physical := by
  rw [paren_mem_iff hword, hnone]
  exact Bool.false_ne_true

/-- Only a parenthesis ends a text in parentheses. -/
theorem eq_nil_of_append_eq_enclosed {arguments : List Char} (h : s ++ t = enclosed arguments)
    (ht : ')' ∉ t) : t = [] := by
  rcases List.eq_nil_or_concat' t with rfl | ⟨before, last, rfl⟩
  · rfl
  · have hends : (s ++ before) ++ [last] = ('(' :: arguments) ++ [')'] := by
      rw [List.append_assoc, h]
      rfl
    have hlast : [last] = [')'] := (List.append_inj' hends rfl).2
    rw [List.singleton_inj.mp hlast] at ht
    exact absurd (by simp) ht

/-- Arguments that are put into a physical type give a word with these arguments only if the type is
this word with arguments, and there is nothing to fill in. -/
theorem replaceTypeArgs_eq_iff (hword : d.physical? word = some physical) (arguments : List Char) :
    replaceTypeArgs physical arguments = word ++ enclosed arguments ↔
      (read physical).IsNamed word true ∧ ¬HasReference (enclosed arguments) := by
  obtain ⟨-, hisWord⟩ := isWord_of_physical? hword
  have hp := sound_read hword
  have htext := text_read hword
  cases hinner : (read physical).arguments with
  | none =>
    have hparen := paren_not_mem hword hinner
    rw [replaceTypeArgs_bare hparen]
    constructor
    · rintro rfl
      exact absurd (by simp [enclosed]) hparen
    · rintro ⟨⟨-, hsized, -⟩, -⟩
      rw [hinner] at hsized
      cases hsized
  | some inner =>
    have hdollar : '$' ∉ enclosed inner := by simp [enclosed, (hp.arguments inner hinner).2.2]
    have hwritten := replaceTypeArgs_text hp hinner arguments
    rw [htext] at hwritten
    rw [hwritten, ← Text.expandTemplate_eq_self_iff hdollar]
    constructor
    · intro heq
      have hstops : Stops isWord (expandTemplate (enclosed inner) (enclosed arguments) ++
          (read physical).tail) := by
        rw [expandTemplate_enclosed]
        exact stops_cons rfl
      obtain ⟨hname, hrest⟩ := append_cancel hp.isWord hisWord hstops (stops_cons rfl) heq
      have htail := eq_nil_of_append_eq_enclosed hrest hp.tail.2
      rw [htail, List.append_nil] at hrest
      exact ⟨⟨hname, by rw [hinner]; rfl, htail⟩, hrest⟩
    · rintro ⟨⟨hname, -, htail⟩, hfilled⟩
      rw [hname, htail, hfilled, List.append_nil]

/-- A type is written as it is if it is in its physical form. -/
theorem Reads.written_eq_iff (h : d.Reads s r) : r.written = s ↔ r.IsPhysical := by
  cases h with
  | @bare word physical rest hword hrest => exact List.append_left_inj rest
  | @sized word physical arguments rest c hword hends hline =>
    rw [TypeReading.written, ← List.append_assoc, List.append_left_inj]
    exact replaceTypeArgs_eq_iff hword (c :: arguments)

/-- The types that stay as they are: those that are not known, and those in their physical form. -/
theorem columnType_eq_self_iff (d : Dialect) (t : String) :
    d.columnType t = t ↔ ∀ r, d.Reads t.toList r → r.IsPhysical := by
  rw [← String.toList_inj, columnType_toList]
  cases hread : d.readType? t.toList with
  | none => simp [← readType?_eq_some, hread]
  | some r =>
    have hr := readType?_eq_some.mp hread
    rw [Option.elim_some, hr.written_eq_iff]
    constructor
    · intro hphysical r' hr'
      rwa [← hr.unique hr']
    · intro hphysical
      exact hphysical r hr

end Dialect

end QueryKit
