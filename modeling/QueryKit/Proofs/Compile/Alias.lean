import QueryKit.Compile.Alias

/-!
# Aliases lie within their names

`selectAlias?_subset`, `tableAlias?_subset`: what an item of a select list or of a FROM clause is
split into holds no character that the item does not hold.
-/

namespace QueryKit

namespace Text

theorem dropWord_subset : ∀ {w s r : List Char}, dropWord w s = some r → r ⊆ s
  | [], s, r, h => by
    cases h
    exact List.Subset.refl s
  | _ :: _, [], r, h => by cases h
  | w :: ws, c :: s, r, h => by
    rw [dropWord] at h
    split at h
    · exact fun x hx => List.mem_cons_of_mem c (dropWord_subset h hx)
    · cases h

end Text

/-- What is found at a place of a text lies within the text if it lies within the rest from that
place on. -/
theorem splitBeforeBlank_subset {tail : List Char → Option (List Char)}
    (htail : ∀ s r, tail s = some r → r ⊆ s) :
    ∀ {s before found : List Char}, splitBeforeBlank tail s = some (before, found) →
      before ⊆ s ∧ found ⊆ s
  | [], _, _, h => by
    rw [splitBeforeBlank.eq_def] at h
    cases h
  | c :: s, before, found, h => by
    rw [splitBeforeBlank.eq_def] at h
    dsimp only at h
    split at h
    · next a ha =>
      cases h
      split at ha
      · exact ⟨List.nil_subset _, htail _ _ ha⟩
      · cases ha
    · split at h
      · cases h
      · obtain ⟨⟨b, f⟩, hrec, heq⟩ := Option.map_eq_some_iff.mp h
        cases heq
        obtain ⟨hb, hf⟩ := splitBeforeBlank_subset htail hrec
        exact ⟨List.cons_subset_cons c hb, fun x hx => List.mem_cons_of_mem c (hf hx)⟩

theorem afterBlanks_subset {s r : List Char} (h : afterBlanks s = some r) : r ⊆ s := by
  unfold afterBlanks at h
  split at h
  · cases h
  · next c s =>
    split at h
    · cases h
      exact fun x hx => List.mem_cons_of_mem c ((List.dropWhile_sublist _).subset hx)
    · cases h

theorem afterAs_subset {s r : List Char} (h : afterAs s = some r) : r ⊆ s := by
  obtain ⟨t, ht, hr⟩ := Option.bind_eq_some_iff.mp h
  exact List.Subset.trans (Text.dropWord_subset hr) (afterBlanks_subset ht)

theorem selectAliasTail_subset {s r : List Char} (h : selectAliasTail s = some r) : r ⊆ s := by
  unfold selectAliasTail at h
  split at h
  · next t ht =>
    split at h
    · cases h
      exact afterBlanks_subset ht
    · cases h
  · cases h

theorem tableAliasTail_subset {s r : List Char} (h : tableAliasTail s = some r) : r ⊆ s := by
  unfold tableAliasTail at h
  split at h
  · cases h
  · split at h
    · next c _ _ hs =>
      split at h
      · cases h
      · cases h
        have hc : c ∈ s.reverse := by
          rw [hs]
          exact List.mem_cons_self
        simpa using hc
    · cases h
  · next t _ ht =>
    split at h
    · cases h
    · cases h
      exact afterBlanks_subset ht

/-- An alias, with or without AS in front of it, lies within its text. -/
theorem afterAs_or_subset {tail : List Char → Option (List Char)}
    (htail : ∀ s r, tail s = some r → r ⊆ s) {s r : List Char}
    (h : ((afterAs s).bind tail).or (tail s) = some r) : r ⊆ s := by
  rcases Option.or_eq_some_iff.mp h with h | ⟨-, h⟩
  · obtain ⟨t, ht, hr⟩ := Option.bind_eq_some_iff.mp h
    exact List.Subset.trans (htail t r hr) (afterAs_subset ht)
  · exact htail s r h

theorem selectAlias?_subset {s column a : List Char} (h : selectAlias? s = some (column, a)) :
    column ⊆ s ∧ a ⊆ s :=
  splitBeforeBlank_subset
    (fun _ _ => afterAs_or_subset fun _ _ => selectAliasTail_subset) h

theorem tableAlias?_subset {s table a : List Char} (h : tableAlias? s = some (table, a)) :
    table ⊆ s ∧ a ⊆ s :=
  splitBeforeBlank_subset
    (fun _ _ => afterAs_or_subset fun _ _ => tableAliasTail_subset) h

end QueryKit
