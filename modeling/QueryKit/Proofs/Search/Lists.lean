import QueryKit.Proofs.Compile.FromItem
import QueryKit.Proofs.Search.Entry
import QueryKit.Proofs.Separator.Text
import QueryKit.Proofs.Text.Blank

/-!
# Lists of a filter that are written as text

A verb of a filter takes a list as the function of a query does that it is named after. Both readers
are compared.

- `FilterVerb.ofText`: the function behind a verb that takes a list.
- `IsDirection`: the words that the query takes for a direction. The filter takes those of them that
  are written in ASCII (`eqIgnoreCase_iff_dropWord`).
- `LastWord`: an item with the blanks in front of its last word. The filter looks for the last blank
  (`splitLastBlank_text`), the query for the first place where blanks and a direction follow
  (`orderSuffix?_text`).
- `orderOfPart_eq_iff`: an item of an order list is read alike exactly if its last word is taken for
  a direction by both readers or by none.
- `listParts_eq_iff`: both cut a list at the same places, unless it has a parenthesis and a comma.
- `search_list_iff`: so a verb with a text does what the function does, exactly under these
  conditions.
-/

namespace QueryKit

/-- The letter that counts as an s when case is ignored beyond ASCII. -/
def longS : Char :=
  '\u017f'

/-- Whether a word is a direction for the items of a query. -/
def IsDirection (word : List Char) : Prop :=
  Text.dropWord "asc".toList word = some [] ∨ Text.dropWord "desc".toList word = some []

instance : DecidablePred IsDirection :=
  fun word => inferInstanceAs (Decidable (Text.dropWord "asc".toList word = some [] ∨
    Text.dropWord "desc".toList word = some []))

/-! ## Words for directions -/

section Directions

variable {s w : List Char}

/-- The words that `dropWord` finds are those in ASCII letters of any case, apart from the long
s. -/
theorem lower_eq_iff (hw : longS ∉ w) :
    s.map Char.toLower = w ↔ Text.dropWord w s = some [] ∧ longS ∉ s := by
  induction w generalizing s with
  | nil =>
    cases s with
    | nil => simp [Text.dropWord]
    | cons c s => simp [Text.dropWord]
  | cons l w ih =>
    obtain ⟨hl, hw⟩ := not_or.mp (List.mem_cons.not.mp hw)
    cases s with
    | nil => simp [Text.dropWord]
    | cons c s =>
      rw [List.map_cons, List.cons.injEq, ih hw, Text.dropWord, List.mem_cons, not_or]
      by_cases hc : c = longS
      · subst hc
        -- the long s is its own small form, and no letter of the word
        have hlower : longS.toLower ≠ l := hl
        simp [hlower]
      · have hletter : Text.isLetter l c = true ↔ c.toLower = l := by
          have hlong : (c == '\u017f') = false := beq_eq_false_iff_ne.mpr hc
          rw [Text.isLetter, hlong, Bool.and_false, Bool.or_false, beq_iff_eq]
        by_cases hlower : c.toLower = l
        · simp [hletter, hlower, Ne.symm hc]
        · simp [hletter, hlower]

theorem eqIgnoreCase_iff_dropWord {t : String} (ht : longS ∉ t.toList)
    (hsmall : t.toList.map Char.toLower = t.toList) :
    Text.eqIgnoreCase (String.ofList s) t = true ↔
      Text.dropWord t.toList s = some [] ∧ longS ∉ s := by
  rw [Text.eqIgnoreCase_iff, String.toList_ofList, hsmall]
  exact lower_eq_iff ht

/-- What holds of the letters of a word, small and capital, holds of the word as it is found. -/
theorem forall_mem_of_dropWord {p : Char → Bool} (hlong : p longS = true)
    (hw : w.all (fun l => p l && p l.toUpper) = true) (h : Text.dropWord w s = some []) :
    ∀ c ∈ s, p c = true := by
  induction w generalizing s with
  | nil =>
    cases h
    exact nofun
  | cons l w ih =>
    rw [List.all_cons, Bool.and_eq_true, Bool.and_eq_true] at hw
    obtain ⟨⟨hsmall, hcapital⟩, hw⟩ := hw
    cases s with
    | nil => cases h
    | cons c s =>
      rw [Text.dropWord] at h
      split at h
      · next hc =>
        refine List.forall_mem_cons.mpr ⟨?_, ih hw h⟩
        rw [Text.isLetter, Bool.or_eq_true, Bool.and_eq_true, beq_iff_eq, beq_iff_eq,
          beq_iff_eq] at hc
        rcases hc with rfl | ⟨-, rfl⟩
        · rcases Text.eq_or_eq_toUpper c with heq | heq
          · rwa [heq]
          · rwa [heq]
        · exact hlong
      · cases h

/-- Neither blanks nor commas stand in a direction. -/
theorem IsDirection.letters (h : IsDirection s) :
    ∀ c ∈ s, Text.isBlank c = false ∧ c ≠ ',' := by
  have hletters : ∀ c ∈ s, (!Text.isBlank c && c != ',') = true := by
    rcases h with h | h
    · exact forall_mem_of_dropWord (by decide) (by decide) h
    · exact forall_mem_of_dropWord (by decide) (by decide) h
  intro c hc
  have hletter := hletters c hc
  simpa using hletter

end Directions

/-! ## The last word of an item -/

section Trimmed

variable {p : Char → Bool} {s t : List Char} {c : Char}

theorem stops_dropWhile (p : Char → Bool) (s : List Char) : Stops p (s.dropWhile p) := by
  intro c hc
  have hhead := List.head?_dropWhile_not p s
  rw [hc] at hhead
  simpa using hhead

theorem stops_trimChars (s : List Char) : Stops Text.isBlank (Text.trimChars s) := by
  have hstart : Text.trimStart (Text.trimChars s) = Text.trimChars s :=
    Text.trimStart_trimEnd_trimStart s
  rw [← hstart]
  exact stops_dropWhile _ _

theorem stops_reverse_trimChars (s : List Char) :
    Stops Text.isBlank (Text.trimChars s).reverse := by
  rw [Text.trimChars, Text.trimEnd, List.reverse_reverse]
  exact stops_dropWhile _ _

/-- The run of characters of `p` at the end of a text. -/
theorem exists_run (p : Char → Bool) (s : List Char) : ∃ front run, front ++ run = s ∧
    (∀ c ∈ run, p c = true) ∧ Stops p front.reverse := by
  refine ⟨s.rdropWhile p, s.rtakeWhile p, List.rdropWhile_append_rtakeWhile,
    fun c hc => List.mem_rtakeWhile_imp hc, ?_⟩
  rw [List.rdropWhile, List.reverse_reverse]
  exact stops_dropWhile _ _

/-- Blanks behind a text are cut off, up to its last character. -/
theorem trimChars_append (hs : Stops Text.isBlank s) (hend : Stops Text.isBlank s.reverse)
    (hne : s ≠ []) (ht : ∀ c ∈ t, Text.isBlank c = true) : Text.trimChars (s ++ t) = s := by
  have hback : ∀ c ∈ t.reverse, Text.isBlank c = true := fun c hc => ht c (List.mem_reverse.mp hc)
  rw [Text.trimChars, Text.trimStart, (hs.append hne).dropWhile, Text.trimEnd, List.reverse_append,
    dropWhile_append hback hend, List.reverse_reverse]

theorem mem_trimChars (hc : c ∈ s) (hblank : Text.isBlank c = false) : c ∈ Text.trimChars s := by
  have hdrop : ∀ {u : List Char}, c ∈ u → c ∈ u.dropWhile Text.isBlank := by
    intro u hu
    rw [← List.takeWhile_append_dropWhile (p := Text.isBlank) (l := u), List.mem_append] at hu
    refine hu.resolve_left fun htake => ?_
    rw [List.mem_takeWhile_imp htake] at hblank
    cases hblank
  rw [Text.trimChars, Text.trimEnd, List.mem_reverse]
  exact hdrop (List.mem_reverse.mpr (hdrop hc))

end Trimmed

/-- An item of a list whose last word stands behind blanks. -/
structure LastWord where
  body : List Char
  gap : Gap
  word : List Char
  body_ne : body ≠ []
  first : Stops Text.isBlank body
  last : Stops Text.isBlank body.reverse
  word_ne : word ≠ []
  not_isBlank : ∀ c ∈ word, Text.isBlank c = false

namespace LastWord

/-- The item as it is written. -/
def text (l : LastWord) : List Char :=
  l.body ++ (l.gap.text ++ l.word)

variable {part : List Char} {l : LastWord}

/-- An item without blanks at its ends has a last word behind blanks if it has a blank at all. -/
theorem exists_text (hfirst : Stops Text.isBlank part) (hlast : Stops Text.isBlank part.reverse) :
    (∀ c ∈ part, Text.isBlank c = false) ∨ ∃ l : LastWord, l.text = part := by
  obtain ⟨front, word, rfl, hword, hfront⟩ := exists_run (fun c => !Text.isBlank c) part
  obtain ⟨body, gap, rfl, hgap, hbody⟩ := exists_run Text.isBlank front
  have hnot : ∀ c ∈ word, Text.isBlank c = false := fun c hc => by simpa using hword c hc
  by_cases hempty : body ++ gap = []
  · left
    rwa [hempty, List.nil_append]
  have hgapNe : gap ≠ [] := by
    rintro rfl
    rw [List.append_nil] at hfront hempty
    obtain ⟨c, r, hc⟩ := List.exists_cons_of_ne_nil (List.reverse_ne_nil_iff.mpr hempty)
    rw [hc] at hfront hbody
    have hblank := hfront.head
    rw [hbody.head] at hblank
    cases hblank
  have hbodyNe : body ≠ [] := by
    rintro rfl
    obtain ⟨c, r, rfl⟩ := List.exists_cons_of_ne_nil hgapNe
    have hblank := hgap c List.mem_cons_self
    rw [hfirst.head] at hblank
    cases hblank
  have hwordNe : word ≠ [] := by
    rintro rfl
    obtain ⟨c, r, hc⟩ := List.exists_cons_of_ne_nil (List.reverse_ne_nil_iff.mpr hgapNe)
    have hblank := hgap c (List.mem_reverse.mp (hc ▸ List.mem_cons_self))
    rw [List.append_nil, List.reverse_append, hc] at hlast
    rw [hlast.head] at hblank
    cases hblank
  have hstart : Stops Text.isBlank body := by
    obtain ⟨c, r, rfl⟩ := List.exists_cons_of_ne_nil hbodyNe
    exact stops_cons hfirst.head
  right
  exact ⟨⟨body, ⟨gap, hgapNe, hgap⟩, word, hbodyNe, hstart, hbody, hwordNe, hnot⟩,
    (List.append_assoc body gap word).symm⟩

theorem text_ne_body (l : LastWord) : l.body ≠ l.text := by
  intro h
  have hlength := congrArg List.length h
  have hword := List.length_pos_iff.mpr l.word_ne
  simp only [text, List.length_append] at hlength
  omega

theorem stops_word (l : LastWord) : Stops Text.isBlank l.word :=
  fun c hc => l.not_isBlank c (List.mem_of_mem_head? hc)

/-! ### Where the filter looks -/

/-- The filter finds the word behind the last blank, and what is in front of it up to blanks. -/
theorem splitLastBlank_text (l : LastWord) : ∃ column,
    Search.splitLastBlank l.text = some (column, l.word) ∧ Text.trimChars column = l.body := by
  obtain ⟨b, g, hgap⟩ := List.exists_cons_of_ne_nil (List.reverse_ne_nil_iff.mpr l.gap.ne_nil)
  have hg : ∀ c ∈ b :: g, Text.isBlank c = true := fun c hc =>
    l.gap.isBlank c (List.mem_reverse.mp (hgap ▸ hc))
  obtain ⟨hb, hg⟩ := List.forall_mem_cons.mp hg
  have hword : ∀ c ∈ l.word.reverse, (!Text.isBlank c) = true := fun c hc => by
    rw [l.not_isBlank c (List.mem_reverse.mp hc), Bool.not_false]
  have hstop : Stops (fun c => !Text.isBlank c) (b :: (g ++ l.body.reverse)) :=
    stops_cons (by rw [hb, Bool.not_true])
  have hreverse : l.text.reverse = l.word.reverse ++ b :: (g ++ l.body.reverse) := by
    rw [text, List.reverse_append, List.reverse_append, hgap]
    simp
  refine ⟨(g ++ l.body.reverse).reverse, ?_, ?_⟩
  · rw [Search.splitLastBlank, hreverse, dropWhile_append hword hstop, takeWhile_append hword hstop]
    simp
  · rw [List.reverse_append, List.reverse_reverse]
    exact trimChars_append l.first l.last l.body_ne fun c hc => hg c (List.mem_reverse.mp hc)

/-! ### Where the query looks -/

/-- A part of a text at whose places `tail` finds nothing is passed over, if it stands on one
line. -/
theorem splitBeforeBlank_pass {α : Type} {tail : List Char → Option α} {s t : List Char}
    (h : ∀ u, u ≠ [] → u <:+ s → tail (u ++ t) = none) :
    splitBeforeBlank tail (s ++ t) = if '\n' ∈ s then none
      else (splitBeforeBlank tail t).map fun (before, a) => (s ++ before, a) := by
  induction s with
  | nil => simp
  | cons c s ih =>
    have hhere : tail (c :: (s ++ t)) = none := h (c :: s) (List.cons_ne_nil c s) List.suffix_rfl
    have hrest := ih fun u hu hs => h u hu (hs.trans (List.suffix_cons c s))
    rw [List.cons_append, splitBeforeBlank.eq_def]
    simp only [hhere, ite_self, hrest]
    by_cases hc : c = '\n'
    · simp [hc]
    · by_cases hs : '\n' ∈ s
      · simp [hc, hs]
      · simp [hc, hs, Ne.symm hc, Function.comp_def]

/-- No direction stands behind a place within the body. -/
theorem directionTail_body {u : List Char} (hu : u ≠ []) (hsuffix : u <:+ l.body) :
    directionTail (u ++ (l.gap.text ++ l.word)) = none := by
  -- what follows the blanks there has the blanks in front of the last word in it
  have hdrop : u.dropWhile Text.isBlank ≠ [] := by
    intro h
    have hall : ∀ c ∈ u, Text.isBlank c = true := List.dropWhile_eq_nil_iff.mp h
    obtain ⟨v, hv⟩ := hsuffix
    obtain ⟨c, r, hc⟩ := List.exists_cons_of_ne_nil (List.reverse_ne_nil_iff.mpr hu)
    have hstop := l.last
    rw [← hv, List.reverse_append, hc] at hstop
    have hblank := hall c (List.mem_reverse.mp (hc ▸ List.mem_cons_self))
    rw [hstop.head] at hblank
    cases hblank
  obtain ⟨b, hb⟩ := List.exists_mem_of_ne_nil l.gap.text l.gap.ne_nil
  have hnot : ¬IsDirection (u.dropWhile Text.isBlank ++ (l.gap.text ++ l.word)) := by
    intro h
    have hblank := (h.letters b (by simp [hb])).1
    rw [l.gap.isBlank b hb] at hblank
    cases hblank
  obtain ⟨c, r, rfl⟩ := List.exists_cons_of_ne_nil hu
  unfold directionTail afterBlanks
  by_cases hc : Text.isBlank c = true
  · have hrest : (r ++ (l.gap.text ++ l.word)).dropWhile Text.isBlank =
        (c :: r).dropWhile Text.isBlank ++ (l.gap.text ++ l.word) := by
      rw [List.dropWhile_cons_of_pos hc] at hdrop ⊢
      rw [List.dropWhile_append, if_neg (by simpa using hdrop)]
    simp only [List.cons_append, hc, if_true, hrest]
    exact if_neg hnot
  · simp [hc]

theorem directionTail_gap (gap : Gap) {w : List Char} (hw : Stops Text.isBlank w) :
    directionTail (gap.text ++ w) = if IsDirection w then some w else none := by
  unfold directionTail
  rw [afterBlanks_gap gap hw]
  rfl

/-- The query finds a direction behind the body, if the body stands on one line. -/
theorem orderSuffix?_text (l : LastWord) : orderSuffix? l.text =
    if IsDirection l.word ∧ '\n' ∉ l.body then some (l.body, l.word) else none := by
  rw [orderSuffix?, text, splitBeforeBlank_pass fun u hu hs => directionTail_body hu hs]
  by_cases hline : '\n' ∈ l.body
  · simp [hline]
  rw [if_neg hline]
  by_cases hdirection : IsDirection l.word
  · have hhere := directionTail_gap l.gap l.stops_word
    rw [if_pos hdirection] at hhere
    rw [splitBeforeBlank_gap l.gap hhere]
    simp [hdirection, hline]
  · have hgap : ∀ u, u ≠ [] → u <:+ l.gap.text → directionTail (u ++ l.word) = none := by
      intro u hu hs
      have htail := directionTail_gap ⟨u, hu, fun c hc => l.gap.isBlank c (hs.subset hc)⟩
        l.stops_word
      rwa [if_neg hdirection] at htail
    have hword : splitBeforeBlank directionTail l.word = none := by
      have hnone : splitBeforeBlank directionTail (l.word ++ []) = none :=
        splitBeforeBlank_append l.not_isBlank
      rwa [List.append_nil] at hnone
    rw [splitBeforeBlank_pass hgap, hword]
    simp [hdirection]

/-! ### The item that is made -/

/-- The direction that a word at the end of an item stands for. -/
def direction (l : LastWord) : SortDirection :=
  if Text.eqIgnoreCase (String.ofList l.word) "desc" then .desc else .asc

/-- The item without its last word, in the direction of this word. -/
def directed (l : LastWord) : OrderItem :=
  ⟨.name (String.ofList l.body), l.direction⟩

/-- The item as it is written, as a name. -/
def undirected (l : LastWord) : OrderItem :=
  ⟨.name (String.ofList l.text), .asc⟩

theorem directed_ne_undirected (l : LastWord) : l.directed ≠ l.undirected := by
  intro h
  have hcolumn := congrArg OrderItem.column h
  apply l.text_ne_body
  apply String.ofList_injective
  simpa [directed, undirected] using hcolumn

theorem orderOfPart_text (l : LastWord) : Search.orderOfPart l.text =
    if IsDirection l.word ∧ longS ∉ l.word then l.directed else l.undirected := by
  obtain ⟨column, hsplit, htrim⟩ := l.splitLastBlank_text
  have hdesc := eqIgnoreCase_iff_dropWord (s := l.word) (t := "desc") (by decide) (by decide)
  have hasc := eqIgnoreCase_iff_dropWord (s := l.word) (t := "asc") (by decide) (by decide)
  rw [Search.orderOfPart, hsplit]
  dsimp only
  rw [htrim, directed, undirected, direction]
  by_cases hd : Text.eqIgnoreCase (String.ofList l.word) "desc" = true
  · have hplain : IsDirection l.word ∧ longS ∉ l.word := ⟨.inr (hdesc.mp hd).1, (hdesc.mp hd).2⟩
    rw [if_pos hd, if_pos hd, if_pos hplain]
  · rw [if_neg hd, if_neg hd]
    by_cases ha : Text.eqIgnoreCase (String.ofList l.word) "asc" = true
    · have hplain : IsDirection l.word ∧ longS ∉ l.word := ⟨.inl (hasc.mp ha).1, (hasc.mp ha).2⟩
      rw [if_pos ha, if_pos hplain]
    · rw [if_neg ha, if_neg]
      rintro ⟨h | h, hlong⟩
      · exact ha (hasc.mpr ⟨h, hlong⟩)
      · exact hd (hdesc.mpr ⟨h, hlong⟩)

theorem orderOfText_text (l : LastWord) : orderOfText (String.ofList l.text) =
    if IsDirection l.word ∧ '\n' ∉ l.body then l.directed else l.undirected := by
  rw [orderOfText, String.toList_ofList, orderSuffix?_text]
  by_cases h : IsDirection l.word ∧ '\n' ∉ l.body
  · rw [if_pos h, if_pos h]
    rfl
  · rw [if_neg h, if_neg h]
    rfl

end LastWord

namespace Search

/-! ## Items of an order list -/

/-- Whether a word at the end of an item is taken for a direction by both readers or by none. The
filter does not know the long s, and the query does not look behind a line break. -/
def DirectionAlike (part : List Char) : Prop :=
  ∀ column word, splitLastBlank part = some (column, word) → IsDirection word →
    (longS ∈ word ↔ '\n' ∈ Text.trimChars column)

variable {part : List Char} {s : String}

/-- An item without blanks is a name for both readers. -/
theorem orderOfPart_of_not_isBlank (h : ∀ c ∈ part, Text.isBlank c = false) :
    splitLastBlank part = none ∧ orderOfPart part = orderOfText (String.ofList part) := by
  have hsplit : splitLastBlank part = none := by
    have hdrop : part.reverse.dropWhile (fun c => !Text.isBlank c) = [] := by
      apply List.dropWhile_eq_nil_iff.mpr
      intro c hc
      rw [h c (List.mem_reverse.mp hc), Bool.not_false]
    rw [splitLastBlank, hdrop]
  have hsuffix : orderSuffix? part = none := by
    have hnone : splitBeforeBlank directionTail (part ++ []) = none := splitBeforeBlank_append h
    rwa [List.append_nil] at hnone
  refine ⟨hsplit, ?_⟩
  rw [orderOfPart, hsplit, orderOfText, String.toList_ofList, hsuffix]

theorem orderOfPart_eq_iff (hfirst : Stops Text.isBlank part)
    (hlast : Stops Text.isBlank part.reverse) :
    orderOfPart part = orderOfText (String.ofList part) ↔ DirectionAlike part := by
  rcases LastWord.exists_text hfirst hlast with h | ⟨l, rfl⟩
  · obtain ⟨hsplit, heq⟩ := orderOfPart_of_not_isBlank h
    refine iff_of_true heq fun column word hsome => ?_
    rw [hsplit] at hsome
    cases hsome
  · obtain ⟨column, hsplit, htrim⟩ := l.splitLastBlank_text
    have halike : DirectionAlike l.text ↔
        (IsDirection l.word → (longS ∈ l.word ↔ '\n' ∈ l.body)) := by
      unfold DirectionAlike
      simp [hsplit, htrim]
    have hne := l.directed_ne_undirected
    rw [LastWord.orderOfPart_text, LastWord.orderOfText_text, halike]
    by_cases hdirection : IsDirection l.word
    · by_cases hlong : longS ∈ l.word <;> by_cases hline : '\n' ∈ l.body <;>
        simp [hdirection, hlong, hline, hne, hne.symm]
    · simp [hdirection]

/-! ## Lists -/

/-- A list with a parenthesis is one item for the query, even if it has commas. -/
theorem splitColumns_of_paren (h : '(' ∈ s.toList) :
    splitColumns s = [String.ofList (Text.trimChars s.toList)] := by
  have hne : Text.trimChars s.toList ≠ [] :=
    List.ne_nil_of_mem (mem_trimChars h (by decide))
  unfold splitColumns
  simp [h, hne]

theorem splitColumns_of_not_paren (h : '(' ∉ s.toList) :
    splitColumns s = (listParts s).map String.ofList := by
  unfold splitColumns listParts
  simp [h]

theorem stops_of_mem_listParts (h : part ∈ listParts s) :
    Stops Text.isBlank part ∧ Stops Text.isBlank part.reverse := by
  obtain ⟨cut, -, rfl⟩ := List.mem_map.mp (List.mem_filter.mp h).1
  exact ⟨stops_trimChars cut, stops_reverse_trimChars cut⟩

theorem comma_not_mem_listParts (h : part ∈ listParts s) : ',' ∉ part := by
  obtain ⟨cut, hcut, rfl⟩ := List.mem_map.mp (List.mem_filter.mp h).1
  exact fun hc => Text.not_mem_of_mem_cutAt hcut (Text.trimChars_subset cut hc)

/-- Both cut a list at the same places, unless a parenthesis keeps its commas together. -/
theorem listParts_eq_iff : (listParts s).map String.ofList = splitColumns s ↔
    ¬('(' ∈ s.toList ∧ ',' ∈ s.toList) := by
  by_cases hparen : '(' ∈ s.toList
  · rw [splitColumns_of_paren hparen]
    by_cases hcomma : ',' ∈ s.toList
    · refine iff_of_false (fun h => ?_) (not_not_intro ⟨hparen, hcomma⟩)
      have hmem : String.ofList (Text.trimChars s.toList) ∈ (listParts s).map String.ofList := by
        rw [h]
        exact List.mem_cons_self
      obtain ⟨part, hpart, heq⟩ := List.mem_map.mp hmem
      apply comma_not_mem_listParts hpart
      rw [String.ofList_injective heq]
      exact mem_trimChars hcomma (by decide)
    · refine iff_of_true ?_ fun h => hcomma h.2
      have hne : Text.trimChars s.toList ≠ [] :=
        List.ne_nil_of_mem (mem_trimChars hparen (by decide))
      unfold listParts
      rw [Text.cutAt_of_not_mem hcomma]
      simp [hne]
  · rw [splitColumns_of_not_paren hparen]
    exact iff_of_true rfl fun h => hparen h.1

/-- What the filter takes for the name of an item stands in the item. -/
theorem orderOfPart_name (part : List Char) :
    ∃ n, (orderOfPart part).column = .name (String.ofList n) ∧ n ⊆ part := by
  unfold orderOfPart
  split
  · next column word hsplit =>
    have hcolumn : Text.trimChars column ⊆ part :=
      List.Subset.trans (Text.trimChars_subset column) (splitLastBlank_subset hsplit)
    split
    · exact ⟨_, rfl, hcolumn⟩
    · split
      · exact ⟨_, rfl, hcolumn⟩
      · exact ⟨part, rfl, List.Subset.refl part⟩
  · exact ⟨part, rfl, List.Subset.refl part⟩

/-- What the query takes for the name of an item keeps the commas of the item. -/
theorem orderOfText_comma (hfirst : Stops Text.isBlank part)
    (hlast : Stops Text.isBlank part.reverse) (hcomma : ',' ∈ part) :
    ∃ n, (orderOfText (String.ofList part)).column = .name (String.ofList n) ∧ ',' ∈ n := by
  rcases LastWord.exists_text hfirst hlast with h | ⟨l, rfl⟩
  · rw [← (orderOfPart_of_not_isBlank h).2, orderOfPart, (orderOfPart_of_not_isBlank h).1]
    exact ⟨part, rfl, hcomma⟩
  · rw [LastWord.orderOfText_text]
    by_cases hfound : IsDirection l.word ∧ '\n' ∉ l.body
    · rw [if_pos hfound]
      refine ⟨l.body, rfl, ?_⟩
      have hgap : ',' ∉ l.gap.text := fun h => absurd (l.gap.isBlank ',' h) (by decide)
      have hword : ',' ∉ l.word := fun h => (hfound.1.letters ',' h).2 rfl
      simpa [LastWord.text, hgap, hword] using hcomma
    · rw [if_neg hfound]
      exact ⟨l.text, rfl, hcomma⟩

theorem orderParts_eq_iff : (listParts s).map orderOfPart = ordersOfText s ↔
    ¬('(' ∈ s.toList ∧ ',' ∈ s.toList) ∧ ∀ part ∈ listParts s, DirectionAlike part := by
  by_cases hboth : '(' ∈ s.toList ∧ ',' ∈ s.toList
  · -- the one item of the query has a comma in its name
    refine iff_of_false (fun h => ?_) fun h => h.1 hboth
    obtain ⟨n, hn, hcomma⟩ := orderOfText_comma (stops_trimChars s.toList)
      (stops_reverse_trimChars s.toList) (mem_trimChars hboth.2 (by decide))
    have hmem : orderOfText (String.ofList (Text.trimChars s.toList)) ∈
        (listParts s).map orderOfPart := by
      rw [h, ordersOfText, splitColumns_of_paren hboth.1]
      exact List.mem_cons_self
    obtain ⟨part, hpart, heq⟩ := List.mem_map.mp hmem
    obtain ⟨m, hm, hsubset⟩ := orderOfPart_name part
    rw [heq, hn] at hm
    have hname : n = m := String.ofList_injective (Column.name.inj hm)
    exact comma_not_mem_listParts hpart (hsubset (hname ▸ hcomma))
  · have hparts := listParts_eq_iff.mpr hboth
    rw [and_iff_right hboth, ordersOfText, ← hparts, List.map_map, List.map_inj_left]
    refine forall₂_congr fun part hpart => ?_
    obtain ⟨hfirst, hlast⟩ := stops_of_mem_listParts hpart
    exact orderOfPart_eq_iff hfirst hlast

theorem groupParts_eq_iff : (listParts s).map (fun part => Column.name (String.ofList part)) =
    (columnsOfText s).map (·.column) ↔ ¬('(' ∈ s.toList ∧ ',' ∈ s.toList) := by
  have hgroups : (columnsOfText s).map (·.column) = (splitColumns s).map Column.name := by
    rw [columnsOfText, List.map_map]
    rfl
  have hparts : (listParts s).map (fun part => Column.name (String.ofList part)) =
      ((listParts s).map String.ofList).map Column.name := by
    rw [List.map_map]
    rfl
  have hinjective : Function.Injective Column.name := fun a b h => by
    cases h
    rfl
  rw [hgroups, hparts, ← listParts_eq_iff]
  exact (List.map_injective_iff.mpr hinjective).eq_iff

end Search

/-! ## Verbs -/

namespace FilterVerb

/-- The function of a query that a verb with a list stands for. -/
def ofText : FilterVerb → Option (Query → String → Query)
  | select => some fun q s => q.withSelect (columnsOfText s)
  | addSelect => some fun q s => q.addSelect (columnsOfText s)
  | from_ => some fun q s => q.from_ (columnsOfText s)
  | groupBy => some fun q s => q.withGroupBy (columnsOfText s)
  | orderBy => some fun q s => q.withOrderBy (ordersOfText s)
  | _ => none

/-- Whether a list means to a verb what it means to the function behind it. -/
def ReadsAlike (verb : FilterVerb) (s : String) : Prop :=
  match verb with
  | groupBy => ¬('(' ∈ s.toList ∧ ',' ∈ s.toList)
  | orderBy => ¬('(' ∈ s.toList ∧ ',' ∈ s.toList) ∧
      ∀ part ∈ Search.listParts s, Search.DirectionAlike part
  | _ => True

end FilterVerb

namespace Search

/-- A verb with a list written as text always applies, and does what the function of its name does
exactly in these cases: always in a select list and in a FROM clause; in the other lists, if no
parenthesis keeps commas together, and, where they are sorted, if every direction is known to
both. -/
theorem search_list_iff (q : Query) {key s : String} {verb : FilterVerb}
    {build : Query → String → Query} (hkey : FilterVerb.parse key = .ok verb)
    (hbuild : verb.ofText = some build) (hs : Unbroken s) :
    ∃ q', search q (.object [(key, .string s)]) = .ok q' ∧
      (q' = build q s ↔ verb.ReadsAlike s) := by
  rw [search_single hkey]
  have hguard : guardText s = .ok () := guardText_eq_ok.mpr hs
  cases verb <;> cases hbuild <;> simp only [applyVerb, hguard]
  case select => exact ⟨_, rfl, iff_of_true rfl trivial⟩
  case addSelect => exact ⟨_, rfl, iff_of_true rfl trivial⟩
  case from_ => exact ⟨_, rfl, iff_of_true rfl trivial⟩
  case groupBy =>
    refine ⟨_, rfl, ?_⟩
    rw [FilterVerb.ReadsAlike, ← groupParts_eq_iff]
    simp [Query.withGroupBy, Function.comp_def]
  case orderBy =>
    refine ⟨_, rfl, ?_⟩
    rw [FilterVerb.ReadsAlike, ← orderParts_eq_iff]
    simp [Query.withOrderBy]

/-- A call with two arguments is cut in a filter, and not in a query. Without a call, directions are
read alike. -/
theorem groupedCall_cut :
    (∃ q', search .empty (.object [("group_by", .string "COALESCE(city, region)")]) = .ok q' ∧
      q' ≠ Query.empty.withGroupBy (columnsOfText "COALESCE(city, region)")) ∧
    search .empty (.object [("order_by", .string "city DESC")]) =
      .ok (Query.empty.withOrderBy (ordersOfText "city DESC")) := by
  have hgroup : FilterVerb.parse "group_by" = .ok .groupBy := rfl
  have horder : FilterVerb.parse "order_by" = .ok .orderBy := rfl
  have hcall : Unbroken "COALESCE(city, region)" := by decide
  have hplain : Unbroken "city DESC" := by decide
  have hparts : listParts "city DESC" = ["city DESC".toList] := rfl
  have hdirection : DirectionAlike "city DESC".toList := by
    intro column word hsplit hdirection
    obtain ⟨rfl, rfl⟩ := Prod.mk.inj (Option.some.inj hsplit)
    decide
  obtain ⟨q', hcut, hcutAlike⟩ := search_list_iff .empty hgroup rfl hcall
  obtain ⟨q, hsearch, halike⟩ := search_list_iff .empty horder rfl hplain
  refine ⟨⟨q', hcut, fun h => hcutAlike.mp h ⟨by decide, by decide⟩⟩, ?_⟩
  rw [hsearch]
  refine congrArg _ (halike.mpr ⟨fun h => absurd h.1 (by decide), ?_⟩)
  rw [hparts]
  exact List.forall_mem_singleton.mpr hdirection

end Search

end QueryKit
