import QueryKit.Dialect.Quoting
import QueryKit.Proofs.Placeholder.Scan

/-!
# Quoted names hold no placeholders

- `Text.cutAt`, `Text.splitLast`: what a text is cut into, and that the pieces make the text again.
- `Segments`: names whose parts are unmarked or in the quotes of the dialect already. Quoting a name
  makes such a name of it (`segments_quoteColumnChars`), and reading it meets no placeholder
  (`Segments.reads`).
-/

namespace QueryKit

namespace Text

variable {c : Char} {s : List Char}

theorem cutAt_ne_nil : ∀ {s : List Char}, cutAt c s ≠ []
  | [] => List.cons_ne_nil _ _
  | d :: s => by
    rw [cutAt]
    split
    · exact List.cons_ne_nil _ _
    · split <;> exact List.cons_ne_nil _ _

/-- A text that is cut at its first separator. -/
theorem cutAt_cons_of_ne {d : Char} (h : d ≠ c) :
    ∃ piece pieces, cutAt c s = piece :: pieces ∧ cutAt c (d :: s) = (d :: piece) :: pieces := by
  obtain ⟨piece, pieces, hs⟩ := List.exists_cons_of_ne_nil (cutAt_ne_nil (c := c) (s := s))
  exact ⟨piece, pieces, hs, by rw [cutAt, if_neg h, hs]⟩

theorem cutAt_append : ∀ {s t : List Char}, cutAt c (s ++ c :: t) = cutAt c s ++ cutAt c t
  | [], _ => if_pos rfl
  | d :: s, t => by
    by_cases hd : d = c
    · rw [List.cons_append, cutAt, if_pos hd, cutAt_append, cutAt, if_pos hd]
      rfl
    · obtain ⟨piece, pieces, hs, hds⟩ := cutAt_cons_of_ne (s := s) hd
      rw [hds, List.cons_append, cutAt, if_neg hd, cutAt_append, hs]
      rfl

theorem cutAt_of_not_mem (h : c ∉ s) : cutAt c s = [s] := by
  induction s with
  | nil => rfl
  | cons d s ih =>
    rw [List.mem_cons, not_or] at h
    rw [cutAt, if_neg (Ne.symm h.1), ih h.2]

theorem not_mem_of_mem_cutAt : ∀ {s p : List Char}, p ∈ cutAt c s → c ∉ p
  | [], _, h => by
    rw [List.mem_singleton.mp h]
    exact List.not_mem_nil
  | d :: s, p, h => by
    by_cases hd : d = c
    · rw [cutAt, if_pos hd] at h
      rcases List.mem_cons.mp h with rfl | h
      · exact List.not_mem_nil
      · exact not_mem_of_mem_cutAt h
    · obtain ⟨piece, pieces, hs, hds⟩ := cutAt_cons_of_ne (s := s) hd
      rw [hds] at h
      rcases List.mem_cons.mp h with rfl | h
      · rw [List.mem_cons, not_or]
        exact ⟨Ne.symm hd, not_mem_of_mem_cutAt (hs ▸ List.mem_cons_self)⟩
      · exact not_mem_of_mem_cutAt (hs ▸ List.mem_cons_of_mem piece h)

theorem intercalate_cutAt : ∀ {s : List Char}, [c].intercalate (cutAt c s) = s
  | [] => rfl
  | d :: s => by
    have ih := intercalate_cutAt (s := s)
    by_cases hd : d = c
    · rw [cutAt, if_pos hd, List.intercalate_cons_of_ne_nil cutAt_ne_nil, ih, hd]
      rfl
    · obtain ⟨piece, pieces, hs, hds⟩ := cutAt_cons_of_ne (s := s) hd
      rw [hs] at ih
      rw [hds]
      cases pieces with
      | nil => exact congrArg (d :: ·) ih
      | cons p ps =>
        rw [List.intercalate_cons_cons] at ih ⊢
        exact congrArg (d :: ·) ih

theorem subset_of_mem_cutAt : ∀ {s p : List Char}, p ∈ cutAt c s → p ⊆ s
  | [], _, h => by
    rw [List.mem_singleton.mp h]
    exact List.Subset.refl _
  | d :: s, p, h => by
    by_cases hd : d = c
    · rw [cutAt, if_pos hd] at h
      rcases List.mem_cons.mp h with rfl | h
      · exact List.nil_subset _
      · exact fun x hx => List.mem_cons_of_mem d (subset_of_mem_cutAt h hx)
    · obtain ⟨piece, pieces, hs, hds⟩ := cutAt_cons_of_ne (s := s) hd
      rw [hds] at h
      rcases List.mem_cons.mp h with rfl | h
      · exact List.cons_subset_cons d (subset_of_mem_cutAt (hs ▸ List.mem_cons_self))
      · have hp := subset_of_mem_cutAt (s := s) (hs ▸ List.mem_cons_of_mem piece h)
        exact fun x hx => List.mem_cons_of_mem d (hp hx)

theorem cutAt_intercalate : ∀ {ps : List (List Char)}, ps ≠ [] → (∀ p ∈ ps, c ∉ p) →
    cutAt c ([c].intercalate ps) = ps
  | [], h, _ => absurd rfl h
  | [p], _, h => by
    rw [List.intercalate_singleton]
    exact cutAt_of_not_mem (h p List.mem_cons_self)
  | p :: q :: ps, _, h => by
    obtain ⟨hp, hps⟩ := List.forall_mem_cons.mp h
    rw [List.intercalate_cons_cons, List.append_assoc]
    change cutAt c (p ++ c :: [c].intercalate (q :: ps)) = _
    rw [cutAt_append, cutAt_of_not_mem hp, cutAt_intercalate (List.cons_ne_nil _ _) hps]
    rfl

theorem splitLast_none : ∀ {s : List Char}, splitLast c s = none → c ∉ s
  | [], _ => List.not_mem_nil
  | d :: s, h => by
    rw [splitLast] at h
    split at h
    · cases h
    · next hs =>
      split at h
      · cases h
      · next hd =>
        rw [List.mem_cons, not_or]
        exact ⟨Ne.symm hd, splitLast_none hs⟩

theorem splitLast_some : ∀ {s t r : List Char}, splitLast c s = some (t, r) →
    s = t ++ c :: r ∧ c ∉ r
  | [], _, _, h => by cases h
  | d :: s, t, r, h => by
    rw [splitLast] at h
    split at h
    · next before after hs =>
      cases h
      obtain ⟨rfl, hr⟩ := splitLast_some hs
      exact ⟨rfl, hr⟩
    · next hs =>
      split at h
      · next hd =>
        cases h
        exact ⟨by rw [hd]; rfl, splitLast_none hs⟩
      · cases h

end Text

open Scan

/-! ## Names -/

theorem isMark_of_isQuote {c : Char} (h : isQuote c = true) : isMark c = true := by
  rw [isMark, h]
  rfl

theorem Unmarked.subset {s t : List Char} (h : Unmarked s) (ht : t ⊆ s) : Unmarked t :=
  List.all_eq_true.mpr fun c hc => List.all_eq_true.mp h c (ht hc)

theorem Unmarked.ne_of_isMark {s : List Char} {c m : Char} (h : Unmarked s) (hc : c ∈ s)
    (hm : isMark m = true) : c ≠ m := by
  rintro rfl
  have hmark := List.all_eq_true.mp h c hc
  rw [hm] at hmark
  cases hmark

namespace Dialect

theorem isQuote_quoteChar (d : Dialect) : isQuote d.quoteChar = true := by
  cases d <;> rfl

/-- A part of a name: unmarked, or in quotes already. -/
def Segment (d : Dialect) (p : List Char) : Prop :=
  Unmarked p ∨ ∃ u, Unmarked u ∧ p = d.inQuotes u

/-- A name of such parts. -/
def Segments (d : Dialect) (s : List Char) : Prop :=
  ∀ p ∈ Text.cutAt '.' s, d.Segment p

variable {d : Dialect} {escapes : Bool} {s t p : List Char}

theorem Segments.of_unmarked (h : Unmarked s) : d.Segments s :=
  fun _ hp => .inl (h.subset (Text.subset_of_mem_cutAt hp))

/-- A part that does not hold the quote is put in quotes. -/
theorem Segment.inQuotes (h : d.Segment p) (hq : ¬p.contains d.quoteChar) :
    d.Segment (d.inQuotes p) := by
  rcases h with h | ⟨u, _, rfl⟩
  · exact .inr ⟨p, h, rfl⟩
  · exact absurd (by simp [Dialect.inQuotes]) hq

theorem Segment.quoteTablePart (h : d.Segment p) : d.Segment (d.quoteTablePart p) := by
  unfold Dialect.quoteTablePart
  split
  · exact h
  · next hq => exact h.inQuotes hq

theorem Segment.quoteColumnPart (h : d.Segment p) : d.Segment (d.quoteColumnPart p) := by
  unfold Dialect.quoteColumnPart
  split
  · exact h
  · next hq =>
    rw [Bool.or_eq_true, not_or] at hq
    exact h.inQuotes hq.1

theorem Segment.reads (h : d.Segment p) : Reads escapes 0 p := by
  rcases h with h | ⟨u, hu, rfl⟩
  · exact .of_unmarked h
  · have hq := isMark_of_isQuote d.isQuote_quoteChar
    refine .quoted d.isQuote_quoteChar (by cases d <;> simp [quoteChar]) fun c hc => ?_
    exact ⟨hu.ne_of_isMark hc hq, hu.ne_of_isMark hc (by decide)⟩

theorem not_mem_inQuotes (h : '.' ∉ p) : '.' ∉ d.inQuotes p := by
  have hq : '.' ≠ d.quoteChar := by cases d <;> simp [quoteChar]
  simp [inQuotes, h, hq]

theorem not_mem_quoteTablePart (h : '.' ∉ p) : '.' ∉ d.quoteTablePart p := by
  unfold quoteTablePart
  split
  · exact h
  · exact not_mem_inQuotes h

theorem not_mem_quoteColumnPart (h : '.' ∉ p) : '.' ∉ d.quoteColumnPart p := by
  unfold quoteColumnPart
  split
  · exact h
  · exact not_mem_inQuotes h

theorem Segments.of_not_mem (hp : d.Segment p) (h : '.' ∉ p) : d.Segments p := by
  intro q hq
  rw [Text.cutAt_of_not_mem h, List.mem_singleton] at hq
  rwa [hq]

theorem segments_append : d.Segments (s ++ '.' :: t) ↔ d.Segments s ∧ d.Segments t := by
  unfold Segments
  rw [Text.cutAt_append, List.forall_mem_append]

theorem segments_quoteTableChars (h : d.Segments s) : d.Segments (d.quoteTableChars s) := by
  unfold quoteTableChars
  split
  · exact h
  · intro p hp
    rw [Text.cutAt_intercalate (by simpa using Text.cutAt_ne_nil)] at hp
    · obtain ⟨q, hq, rfl⟩ := List.mem_map.mp hp
      exact (h q hq).quoteTablePart
    · intro q hq
      obtain ⟨r, hr, rfl⟩ := List.mem_map.mp hq
      exact not_mem_quoteTablePart (Text.not_mem_of_mem_cutAt hr)

theorem segments_quoteColumnChars (h : d.Segments s) : d.Segments (d.quoteColumnChars s) := by
  unfold quoteColumnChars
  split
  · exact h
  · split
    · next hdot =>
      split
      · exact h
      · have hs := Text.splitLast_none hdot
        rw [Segments, Text.cutAt_of_not_mem hs, List.forall_mem_singleton] at h
        exact .of_not_mem h.quoteColumnPart (not_mem_quoteColumnPart hs)
    · next table column hdot =>
      split
      · exact h
      · obtain ⟨rfl, hcolumn⟩ := Text.splitLast_some hdot
        obtain ⟨htable, hlast⟩ := segments_append.mp h
        refine segments_append.mpr ⟨segments_quoteTableChars htable, ?_⟩
        rw [Segments, Text.cutAt_of_not_mem hcolumn, List.forall_mem_singleton] at hlast
        exact .of_not_mem hlast.quoteColumnPart (not_mem_quoteColumnPart hcolumn)

/-- Reading a name meets no placeholder. -/
theorem Segments.reads (h : d.Segments s) : Reads escapes 0 s := by
  have hjoin : ∀ ps : List (List Char), (∀ p ∈ ps, d.Segment p) →
      Reads escapes 0 (['.'].intercalate ps) := by
    intro ps hps
    induction ps with
    | nil => exact .nil
    | cons p ps ih =>
      obtain ⟨hp, hps⟩ := List.forall_mem_cons.mp hps
      cases ps with
      | nil =>
        rw [List.intercalate_singleton]
        exact hp.reads
      | cons q ps =>
        rw [List.intercalate_cons_cons]
        have hdot : ∀ c ∈ ['.'], isGlueChar c = true := List.forall_mem_singleton.mpr rfl
        exact hp.reads.glue (List.cons_ne_nil _ _) hdot (ih hps)
  rw [← Text.intercalate_cutAt (c := '.') (s := s)]
  exact hjoin _ h

end Dialect

end QueryKit
