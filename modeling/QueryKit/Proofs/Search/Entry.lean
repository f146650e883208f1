import QueryKit.Proofs.Text.Delimited
import QueryKit.Search.Filter

/-!
# Filters with one entry

`search_single`: a filter with one entry applies the verb that the key of the entry names. A key
that names a verb does not end in `[]` (`dropTextEnd_of_parse`), so that its value is taken as a
whole.
-/

namespace QueryKit

namespace FilterVerb

variable {key : String} {verb : FilterVerb}

theorem lookupForm_of_parse (h : parse key = .ok verb) : lookupForm verb.name = lookupForm key := by
  unfold parse at h
  split at h
  · next found hfound =>
    cases h
    have hform := List.find?_some hfound
    exact beq_iff_eq.mp hform
  · cases h

/-- No verb has a bracket in its name. -/
theorem dropTextEnd_of_parse (h : parse key = .ok verb) :
    Text.dropTextEnd ['[', ']'] key.toList = none := by
  have hname : ']' ∉ lookupForm verb.name := by
    cases verb <;> decide
  rw [Option.eq_none_iff_forall_ne_some]
  intro r hr
  apply hname
  rw [lookupForm_of_parse h, lookupForm, Text.dropTextEnd_eq_some.mp hr]
  simp

end FilterVerb

namespace Search

/-- A filter with one entry applies the verb of its key. -/
theorem search_single {key : String} {verb : FilterVerb} (hkey : FilterVerb.parse key = .ok verb)
    (q : Query) (j : Json) : search q (.object [(key, j)]) =
      applyVerb (searchWithin (nesting j) .empty) q verb j := by
  have hdepth : nesting (.object [(key, j)]) = nesting j + 1 := by
    simp [nesting, entriesNesting]
  have hend := FilterVerb.dropTextEnd_of_parse hkey
  rw [search, hdepth, searchWithin, applyEntries, List.foldlM_cons, applyEntry]
  dsimp only
  rw [hend, hkey]
  exact bind_pure (m := Result) _

end Search

end QueryKit
