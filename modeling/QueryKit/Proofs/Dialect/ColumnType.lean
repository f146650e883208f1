import QueryKit.Proofs.Dialect.TypeReading

/-!
# Column types that are written twice

- `Dialect.Reread`: the three ways in which what was written for a type is read once more and
  changes: the word of a type stands for the type itself, a text is glued to it, or arguments are
  filled in that hold a reference.
- `Dialect.columnType_twice`: there are no others.
-/

namespace QueryKit

open Text (isWord isBlank HasReference expandTemplate)
open PhysicalType (read)

namespace Dialect

variable {d : Dialect} {r : TypeReading} {word s t : List Char} {c : Char}

/-- What was written for a type is read once more, and changes. -/
inductive Reread (d : Dialect) (r : TypeReading) : Prop
  /-- The first word of `double precision` stands for it. -/
  | doubled (hdouble : r.physical = "double precision".toList)
  /-- The physical type has no arguments, so that what followed those that were given now follows
  its word without a blank: it makes another word of it, or gives it arguments again. -/
  | glued {again : TypeReading} {c : Char} (hbare : '(' ∉ r.physical)
      (hbehind : c ∈ r.rest.head?) (hglued : isBlank c = false) (hagain : d.Reads r.written again)
      (hother : again.arguments ≠ none ∨ again.physical ≠ again.word)
  /-- The arguments that were given held dollar signs, and there is a reference in them when they
  are filled in. -/
  | filled {again : TypeReading} {given arguments : List Char} (hgiven : r.arguments = some given)
      (hdollar : '$' ∈ given) (hsized : '(' ∈ r.physical) (hagain : d.Reads r.written again)
      (harguments : again.arguments = some arguments) (href : HasReference (enclosed arguments))

theorem written_bare (hbare : '(' ∉ r.physical) : r.written = r.physical ++ r.rest := by
  unfold TypeReading.written
  cases r.arguments with
  | none => rfl
  | some arguments => rw [Option.elim_some, replaceTypeArgs_bare hbare]

/-- A physical type with arguments is written with its own, or with those that are filled in. -/
theorem written_eq (h : d.Reads s r) {inner : List Char}
    (hinner : (read r.physical).arguments = some inner) :
    r.written = (read r.physical).word ++
      (r.arguments.elim (enclosed inner) (fun a => expandTemplate (enclosed inner) (enclosed a)) ++
        ((read r.physical).tail ++ r.rest)) := by
  have htext := text_read h.known
  unfold TypeReading.written
  cases r.arguments with
  | none =>
    rw [Option.elim_none, Option.elim_none]
    nth_rewrite 1 [← htext]
    simp [PhysicalType.text, hinner]
  | some arguments =>
    have hfilled := replaceTypeArgs_text (sound_read h.known) hinner arguments
    rw [htext] at hfilled
    rw [Option.elim_some, Option.elim_some, hfilled]
    simp

/-- In both cases a parenthesis follows the word. -/
theorem written_sized (h : d.Reads s r) {inner : List Char}
    (hinner : (read r.physical).arguments = some inner) :
    ∃ t, r.written = (read r.physical).word ++ '(' :: t := by
  rw [written_eq h hinner]
  cases r.arguments with
  | none => exact ⟨inner ++ [')'] ++ ((read r.physical).tail ++ r.rest), rfl⟩
  | some arguments =>
    rw [Option.elim_some, expandTemplate_enclosed]
    exact ⟨Text.fillTemplate (enclosed inner) 0 (arguments ++ [')']) ++
      ((read r.physical).tail ++ r.rest), rfl⟩

/-- Arguments without dollar signs are written as they are. -/
theorem written_plain (h : d.Reads s r) {inner : List Char}
    (hinner : (read r.physical).arguments = some inner)
    (hgiven : ∀ a, r.arguments = some a → '$' ∉ a) :
    ∃ c as t, ')' ∉ as ∧ '$' ∉ c :: as ∧
      r.written = (read r.physical).word ++ (enclosed (c :: as) ++ t) := by
  have hwritten := written_eq h hinner
  cases h with
  | @bare word physical rest hword hrest =>
    obtain ⟨hne, hclose, hdollar⟩ := (sound_read hword).arguments inner hinner
    obtain ⟨c, as, rfl⟩ := List.exists_cons_of_ne_nil hne
    exact ⟨c, as, (read physical).tail ++ rest, fun hmem => hclose (List.mem_cons_of_mem c hmem),
      hdollar, hwritten⟩
  | @sized word physical as rest c hword hends hline =>
    have hdollar := hgiven (c :: as) rfl
    have hplain : ¬HasReference (enclosed (c :: as)) := by
      refine Text.not_hasReference_of_not_mem ?_
      simpa [enclosed] using hdollar
    rw [Option.elim_some, expandTemplate, Text.fillTemplate_of_not_hasReference hplain] at hwritten
    exact ⟨c, as, (read physical).tail ++ rest, hends, hdollar, hwritten⟩

/-- What is read once more is not in its physical form. -/
theorem Reread.exists_not_isPhysical (hreads : d.Reads s r) (h : d.Reread r) :
    ∃ again, d.Reads r.written again ∧ ¬again.IsPhysical := by
  cases h with
  | doubled hdouble =>
    have hbare : '(' ∉ r.physical := by
      rw [hdouble]
      decide
    have hknown := physical?_double (hdouble ▸ hreads.known)
    have hagain : d.Reads ("double".toList ++ (" precision".toList ++ r.rest))
        ⟨"double".toList, "double precision".toList, none, " precision".toList ++ r.rest⟩ := by
      refine .bare hknown fun c hc => ?_
      cases hc
      rfl
    have hwritten : r.written = "double".toList ++ (" precision".toList ++ r.rest) := by
      rw [written_bare hbare, hdouble]
      rfl
    refine ⟨_, hwritten ▸ hagain, ?_⟩
    rw [TypeReading.isPhysical_of_none rfl]
    exact (by decide : "double precision".toList ≠ "double".toList)
  | @glued again c hbare hbehind hglued hagain hother =>
    refine ⟨again, hagain, fun hown => ?_⟩
    cases harguments : again.arguments with
    | none =>
      rw [TypeReading.isPhysical_of_none harguments] at hown
      exact hother.elim (fun h => h harguments) (fun h => h hown)
    | some arguments =>
      rw [TypeReading.isPhysical_of_some harguments] at hown
      have hnone : (read r.physical).arguments = none := by
        rwa [paren_mem_iff hreads.known, Option.not_isSome_iff_eq_none] at hbare
      have hbegins : r.physical <+: again.word :=
        (written_bare hbare ▸ hagain).prefix_word hbare harguments
      exact not_isNamed_of_physical? hreads.known hnone hagain.known hbegins hown.1
  | @filled again given arguments hgiven hdollar hsized hagain harguments href =>
    refine ⟨again, hagain, fun hown => ?_⟩
    rw [TypeReading.isPhysical_of_some harguments] at hown
    exact hown.2 href

section Again

variable {again : TypeReading} {inner : List Char} (h : d.Reads s r)
  (hagain : d.Reads r.written again) (hdouble : r.physical ≠ "double precision".toList)

include h hagain hdouble

/-- A physical type without arguments, and nothing or a blank behind it. -/
theorem isPhysical_bare (hnone : (read r.physical).arguments = none)
    (hblank : ∀ c ∈ r.rest.head?, isBlank c = true) :
    again.IsPhysical := by
  have hp := sound_read h.known
  have htext := text_read h.known
  have hbare := paren_not_mem h.known hnone
  have hphysical : r.physical = (read r.physical).word ++ (read r.physical).tail := by
    rw [PhysicalType.text, hnone] at htext
    exact htext.symm
  have hwritten : r.written = (read r.physical).word ++ ((read r.physical).tail ++ r.rest) := by
    rw [written_bare hbare, ← List.append_assoc, ← hphysical]
  have hbehind : ∀ c ∈ ((read r.physical).tail ++ r.rest).head?, isBlank c = true := by
    intro c hc
    rw [List.head?_append] at hc
    cases htail : (read r.physical).tail.head? with
    | none =>
      rw [htail] at hc
      exact hblank c hc
    | some x =>
      rw [htail] at hc
      exact hp.blank c (htail.trans hc)
  obtain ⟨hword, harguments⟩ := (hwritten ▸ hagain).bare_of_append hp.isWord hbehind
  have hknown := hagain.known
  rw [hword] at hknown
  have hnamed := isNamed_of_physical? h.known hknown hdouble
  rw [hnone] at hnamed
  rw [TypeReading.isPhysical_of_none harguments, hword, ← text_read hagain.known]
  exact hnamed.text_eq

/-- A physical type with arguments, which hold no references. -/
theorem isPhysical_sized (hinner : (read r.physical).arguments = some inner)
    (hplain : ∀ a, again.arguments = some a → ¬HasReference (enclosed a)) : again.IsPhysical := by
  obtain ⟨behind, hwritten⟩ := written_sized h hinner
  obtain ⟨hword, c, as, harguments, -, -⟩ :=
    (hwritten ▸ hagain).sized_of_append (sound_read h.known).isWord
  have hknown := hagain.known
  rw [hword] at hknown
  have hnamed := isNamed_of_physical? h.known hknown hdouble
  rw [hinner] at hnamed
  rw [TypeReading.isPhysical_of_some harguments, hword]
  exact ⟨hnamed, hplain _ harguments⟩

end Again

/-- Arguments without dollar signs are read once more as they are. -/
theorem not_hasReference_plain {again : TypeReading} {a : List Char}
    (hword : ∀ c ∈ word, isWord c = true) {as : List Char} (hends : ')' ∉ as)
    (hdollar : '$' ∉ c :: as) (hagain : d.Reads (word ++ (enclosed (c :: as) ++ t)) again)
    (ha : again.arguments = some a) : ¬HasReference (enclosed a) := by
  have htext : enclosed (c :: as) ++ t = '(' :: (c :: as ++ ')' :: t) := by simp [enclosed]
  rw [htext] at hagain
  obtain ⟨-, c', as', harguments, hends', hbehind⟩ := hagain.sized_of_append hword
  obtain ⟨rfl, hrest⟩ := List.cons.inj hbehind
  have hcut := congrArg (Text.splitFirst ')') hrest
  rw [List.append_eq, Text.splitFirst_append hends, Text.splitFirst_append hends'] at hcut
  obtain ⟨rfl, -⟩ := Prod.mk.inj (Option.some.inj hcut)
  rw [harguments] at ha
  cases ha
  refine Text.not_hasReference_of_not_mem ?_
  simpa [enclosed] using hdollar

/-- A type that is read once more is in its physical form, or one of three things has happened. -/
theorem Reads.isPhysical_or_reread {again : TypeReading} (h : d.Reads s r)
    (hagain : d.Reads r.written again) : again.IsPhysical ∨ d.Reread r := by
  by_cases hdouble : r.physical = "double precision".toList
  · exact .inr (.doubled hdouble)
  cases hinner : (read r.physical).arguments with
  | none =>
    have hbare := paren_not_mem h.known hinner
    by_cases hblank : ∀ c ∈ r.rest.head?, isBlank c = true
    · exact .inl (isPhysical_bare h hagain hdouble hinner hblank)
    · simp only [not_forall] at hblank
      obtain ⟨c, hbehind, hglued⟩ := hblank
      by_cases hother : again.arguments ≠ none ∨ again.physical ≠ again.word
      · exact .inr (.glued hbare hbehind (Bool.eq_false_iff.mpr hglued) hagain hother)
      · obtain ⟨hnone, hsame⟩ := not_or.mp hother
        rw [not_not] at hnone hsame
        exact .inl ((TypeReading.isPhysical_of_none hnone).mpr hsame)
  | some inner =>
    have hsized : '(' ∈ r.physical := by
      rw [paren_mem_iff h.known, hinner]
      rfl
    by_cases hgiven : ∀ a, r.arguments = some a → '$' ∉ a
    · obtain ⟨c, as, t, hends, hdollar, hwritten⟩ := written_plain h hinner hgiven
      refine .inl (isPhysical_sized h hagain hdouble hinner fun a ha => ?_)
      exact not_hasReference_plain (sound_read h.known).isWord hends hdollar (hwritten ▸ hagain) ha
    · simp only [not_forall, not_not] at hgiven
      obtain ⟨given, hgiven, hdollar⟩ := hgiven
      by_cases href : ∃ a, again.arguments = some a ∧ HasReference (enclosed a)
      · obtain ⟨a, ha, href⟩ := href
        exact .inr (.filled hgiven hdollar hsized hagain ha href)
      · exact .inl (isPhysical_sized h hagain hdouble hinner fun a ha href' => href ⟨a, ha, href'⟩)

/-! ## Types twice -/

/-- The type that is written for a type is written for itself, unless it is read once more and
changes. It does not if it is not `double precision`, a blank sets off what follows the type, and
there are no dollar signs in the arguments. -/
theorem columnType_twice (d : Dialect) (t : String) :
    (d.columnType (d.columnType t) = d.columnType t ↔ ∀ r, d.Reads t.toList r → ¬d.Reread r) ∧
    (∀ r, d.Reads t.toList r → r.physical ≠ "double precision".toList →
      (∀ c ∈ r.rest.head?, isBlank c = true) → (∀ a ∈ r.arguments, '$' ∉ a) →
      d.columnType (d.columnType t) = d.columnType t) := by
  have hiff : d.columnType (d.columnType t) = d.columnType t ↔
      ∀ r, d.Reads t.toList r → ¬d.Reread r := by
    rw [columnType_eq_self_iff, columnType_toList]
    cases hread : d.readType? t.toList with
    | none => simp [← readType?_eq_some, hread]
    | some r =>
      have hr := readType?_eq_some.mp hread
      rw [Option.elim_some]
      constructor
      · intro hphysical r' hr' hreread
        obtain rfl := hr.unique hr'
        obtain ⟨again, hagain, hother⟩ := hreread.exists_not_isPhysical hr
        exact hother (hphysical again hagain)
      · intro hreread again hagain
        exact (hr.isPhysical_or_reread hagain).resolve_right (hreread r hr)
  refine ⟨hiff, fun r hr hdouble hblank hdollar => hiff.mpr fun r' hr' hreread => ?_⟩
  obtain rfl := hr.unique hr'
  cases hreread with
  | doubled h => exact hdouble h
  | glued hbare hbehind hglued hagain hother =>
    rw [hblank _ hbehind] at hglued
    cases hglued
  | filled hgiven hmem hsized hagain harguments href => exact hdollar _ hgiven hmem

/-- `double precision` grows each time; another type with its arguments does not change again. -/
theorem doublePrecision_twice :
    columnType postgres (columnType postgres "float") ≠ columnType postgres "float" ∧
      columnType postgres "double precision" = "double precision precision" ∧
      columnType mysql (columnType mysql "string(64) NOT NULL") =
        columnType mysql "string(64) NOT NULL" := by
  have hfloat : Reads postgres "float".toList
      ⟨"float".toList, "double precision".toList, none, []⟩ := readType?_eq_some.mp rfl
  have hstring : Reads mysql "string(64) NOT NULL".toList
      ⟨"string".toList, "varchar(255)".toList, some "64".toList, " NOT NULL".toList⟩ :=
    readType?_eq_some.mp rfl
  refine ⟨fun h => (columnType_twice postgres "float").1.mp h _ hfloat (.doubled rfl), rfl, ?_⟩
  refine (columnType_twice mysql "string(64) NOT NULL").2 _ hstring (by decide) ?_ ?_
  · intro c hc
    cases hc
    rfl
  · intro a ha
    cases ha
    decide

end Dialect

end QueryKit
