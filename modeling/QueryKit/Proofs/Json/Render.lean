import QueryKit.Json.Parser
import QueryKit.Json.Printer
import QueryKit.Proofs.Text.Delimited

/-!
# What JSON text says

- `Json.readString_quote`: a quoted string is read as this string, whatever follows it.
- `Json.Integral`: the documents in which every number is an integer.
- `Json.render_cancel`: the text of such a document can be told from what follows it, so that
  documents with one text are the same (`Json.render_inj`). The order of the members counts.
-/

namespace QueryKit.Json

variable {c : Char} {s u v : List Char} {fuel : Nat}

/-! ## Strings -/

theorem hexValue_hexDigit {n : Nat} (h : n < 16) : hexValue (hexDigit n) = some n := by
  revert n
  decide

/-- The numeric escape of a control character. -/
theorem readEscape_unit (h : c.toNat < 0x20) (r : List Char) :
    readEscape ('u' :: '0' :: '0' :: hexDigit (c.toNat / 16) :: hexDigit (c.toNat % 16) :: r) =
      some (.unit c.toNat, r) := by
  have hzero : hexValue '0' = some 0 := by decide
  have hhigh := hexValue_hexDigit (n := c.toNat / 16) (by omega)
  have hlow := hexValue_hexDigit (n := c.toNat % 16) (by omega)
  simp only [readEscape, readHex4, hzero, hhigh, hlow, Option.bind_eq_bind, Option.bind_some,
    Option.pure_def, Option.map_some]
  congr 3
  omega

theorem readPieces_escape {e r : List Char} {p : StringPiece} {ps : List StringPiece}
    (he : readEscape (e ++ r) = some (p, r)) (h : readPieces fuel r = some (ps, u)) :
    readPieces (fuel + 1) ('\\' :: (e ++ r)) = some (p :: ps, u) := by
  rw [readPieces, if_neg (by decide), if_pos rfl, he]
  simp [h]

/-- The unit of a control character stands for itself. -/
theorem joinPieces_unit (h : c.toNat < 0x20) (ps : List StringPiece) :
    joinPieces (.unit c.toNat :: ps) = (joinPieces ps).map (c :: ·) := by
  have hhigh : isHighUnit c.toNat = false := by
    rw [isHighUnit, decide_eq_false (by omega), Bool.false_and]
  have hlow : isLowUnit c.toNat = false := by
    rw [isLowUnit, decide_eq_false (by omega), Bool.false_and]
  rw [joinPieces.eq_def]
  simp [hhigh, hlow]

/-- A character is read as one piece, which writes this character. -/
theorem readPieces_escapeChar (c : Char) : ∃ p : StringPiece,
    (∀ fuel r ps, readPieces fuel r = some (ps, u) →
      readPieces (fuel + 1) (escapeChar c ++ r) = some (p :: ps, u)) ∧
    ∀ ps, joinPieces (p :: ps) = (joinPieces ps).map (c :: ·) := by
  unfold escapeChar
  split
  · exact ⟨.char _, fun _ _ _ => readPieces_escape (e := ['"']) rfl, fun _ => rfl⟩
  · exact ⟨.char _, fun _ _ _ => readPieces_escape (e := ['\\']) rfl, fun _ => rfl⟩
  · exact ⟨.char _, fun _ _ _ => readPieces_escape (e := ['n']) rfl, fun _ => rfl⟩
  · exact ⟨.char _, fun _ _ _ => readPieces_escape (e := ['r']) rfl, fun _ => rfl⟩
  · exact ⟨.char _, fun _ _ _ => readPieces_escape (e := ['t']) rfl, fun _ => rfl⟩
  · exact ⟨.char _, fun _ _ _ => readPieces_escape (e := ['b']) rfl, fun _ => rfl⟩
  · exact ⟨.char _, fun _ _ _ => readPieces_escape (e := ['f']) rfl, fun _ => rfl⟩
  · next hquote hback _ _ _ _ _ =>
    split
    · next hc =>
      exact ⟨.unit c.toNat, fun _ r _ => readPieces_escape
        (e := ['u', '0', '0', hexDigit (c.toNat / 16), hexDigit (c.toNat % 16)])
        (readEscape_unit hc r), joinPieces_unit hc⟩
    · next hc =>
      refine ⟨.char c, fun fuel r ps h => ?_, fun _ => rfl⟩
      rw [List.singleton_append, readPieces, if_neg hquote, if_neg hback, if_neg hc]
      simp [h]

theorem readPieces_quoted (u : List Char) (hfuel : s.length < fuel) :
    ∃ ps, readPieces fuel (s.flatMap escapeChar ++ '"' :: u) = some (ps, u) ∧
      joinPieces ps = some s := by
  induction s generalizing fuel with
  | nil =>
    obtain ⟨fuel, rfl⟩ := Nat.exists_eq_succ_of_ne_zero (Nat.ne_of_gt hfuel)
    exact ⟨[], if_pos rfl, rfl⟩
  | cons c s ih =>
    obtain ⟨fuel, rfl⟩ := Nat.exists_eq_succ_of_ne_zero (Nat.ne_of_gt (Nat.zero_lt_of_lt hfuel))
    obtain ⟨p, hread, hjoin⟩ := readPieces_escapeChar (u := u) c
    obtain ⟨ps, hps, htext⟩ := ih (Nat.lt_of_succ_lt_succ hfuel)
    refine ⟨p :: ps, ?_, by rw [hjoin, htext]; rfl⟩
    rw [List.flatMap_cons, List.append_assoc]
    exact hread fuel _ ps hps

theorem length_le_escaped : ∀ s : List Char, s.length ≤ (s.flatMap escapeChar).length
  | [] => Nat.le_refl _
  | c :: s => by
    have hc : 1 ≤ (escapeChar c).length := by
      unfold escapeChar
      split <;> (try split) <;> simp
    have ih := length_le_escaped s
    rw [List.flatMap_cons, List.length_append, List.length_cons]
    omega

theorem quote_append (s : String) (u : List Char) :
    (quote s).toList ++ u = '"' :: (s.toList.flatMap escapeChar ++ '"' :: u) := by
  simp [quote]

/-- A quoted string is read as this string. -/
theorem readString_quote (s : String) (u : List Char) :
    readString (s.toList.flatMap escapeChar ++ '"' :: u) = some (some s, u) := by
  have hlength := length_le_escaped s.toList
  have hfuel : s.toList.length < (s.toList.flatMap escapeChar ++ '"' :: u).length + 1 := by
    rw [List.length_append]
    omega
  obtain ⟨ps, hread, hjoin⟩ := readPieces_quoted u hfuel
  rw [readString, hread]
  simp [hjoin]

theorem quote_cancel {a b : String} (h : (quote a).toList ++ u = (quote b).toList ++ v) :
    a = b ∧ u = v := by
  rw [quote_append, quote_append] at h
  have hread := readString_quote a u
  rw [(List.cons.inj h).2, readString_quote] at hread
  cases hread
  exact ⟨rfl, rfl⟩

/-! ## Documents -/

mutual

/-- Every number of the document is an integer. -/
def Integral : Json → Prop
  | .null | .bool _ | .string _ | .number (.integer _) => True
  | .number (.double _) => False
  | .array items => IntegralItems items
  | .object members => IntegralMembers members

def IntegralItems : List Json → Prop
  | [] => True
  | j :: js => Integral j ∧ IntegralItems js

def IntegralMembers : List (String × Json) → Prop
  | [] => True
  | (_, j) :: ms => Integral j ∧ IntegralMembers ms

end

/-- The character that the text of a document begins with; a digit or a sign counts as zero. -/
def lead : Json → Char
  | .null => 'n'
  | .bool b => if b then 't' else 'f'
  | .number _ => '0'
  | .string _ => '"'
  | .array _ => '['
  | .object _ => '\x7b'

/-- The lead that a character shows. -/
def leadOf (c : Char) : Char :=
  if c.isDigit || c == '-' then '0' else c

theorem leadOf_digit (h : c.isDigit = true) : leadOf c = '0' := by
  simp [leadOf, h]

/-- The text of the items of an array, with what follows behind the closing bracket. -/
def itemsText (js : List Json) (u : List Char) : List Char :=
  (Text.joinWith "," (renderItems js)).toList ++ ']' :: u

/-- The text of the members of an object, with what follows behind the closing brace. -/
def membersText (ms : List (String × Json)) (u : List Char) : List Char :=
  (Text.joinWith "," (renderMembers ms)).toList ++ '\x7d' :: u

theorem render_array_append (js : List Json) (u : List Char) :
    (render (.array js)).toList ++ u = '[' :: itemsText js u := by
  simp [render, itemsText]

theorem render_object_append (ms : List (String × Json)) (u : List Char) :
    (render (.object ms)).toList ++ u = '\x7b' :: membersText ms u := by
  simp [render, membersText]

/-- What stands behind the first text of a list that is joined: the end, or a comma and the rest. -/
theorem itemsText_cons (j : Json) (js : List Json) (u : List Char) :
    itemsText (j :: js) u = (render j).toList ++
      match js with
      | [] => ']' :: u
      | _ :: _ => ',' :: itemsText js u := by
  cases js with
  | nil => simp [itemsText, renderItems, Text.joinWith]
  | cons _ _ => simp [itemsText, renderItems, Text.joinWith]

theorem membersText_cons (k : String) (j : Json) (ms : List (String × Json)) (u : List Char) :
    membersText ((k, j) :: ms) u = (quote k).toList ++ ':' :: ((render j).toList ++
      match ms with
      | [] => '\x7d' :: u
      | _ :: _ => ',' :: membersText ms u) := by
  cases ms with
  | nil => simp [membersText, renderMembers, Text.joinWith]
  | cons _ _ => simp [membersText, renderMembers, Text.joinWith]

theorem render_lead {j : Json} (h : j.Integral) :
    ∃ c r, (render j).toList = c :: r ∧ leadOf c = j.lead := by
  cases j with
  | null => exact ⟨_, _, rfl, rfl⟩
  | bool b => cases b <;> exact ⟨_, _, rfl, rfl⟩
  | number n =>
    cases n with
    | double x => exact h.elim
    | integer n =>
      rcases intRepr_cases n with ⟨-, hn⟩ | ⟨-, hn⟩
      · obtain ⟨c, r, hr, hc⟩ := natRepr_cons n.toNat
        exact ⟨c, r, hn.trans hr, leadOf_digit hc⟩
      · exact ⟨_, _, hn, rfl⟩
  | string s => exact ⟨_, _, String.toList_ofList, rfl⟩
  | array js =>
    have htext := render_array_append js []
    rw [List.append_nil] at htext
    exact ⟨_, _, htext, rfl⟩
  | object ms =>
    have htext := render_object_append ms []
    rw [List.append_nil] at htext
    exact ⟨_, _, htext, rfl⟩

/-- Documents whose texts begin alike have the same lead. -/
theorem lead_eq {j j' : Json} (hj : j.Integral) (hj' : j'.Integral)
    (h : (render j).toList ++ u = (render j').toList ++ v) : j.lead = j'.lead := by
  obtain ⟨c, r, hr, hc⟩ := render_lead hj
  obtain ⟨c', r', hr', hc'⟩ := render_lead hj'
  rw [hr, hr'] at h
  rw [← hc, ← hc', (List.cons.inj h).1]

/-- A document does not begin like the end of an array. -/
theorem render_ne_bracket {j : Json} (hj : j.Integral) : (render j).toList ++ u ≠ ']' :: v := by
  obtain ⟨c, r, hr, hc⟩ := render_lead hj
  rw [hr]
  intro h
  rw [(List.cons.inj h).1] at hc
  cases j with
  | bool b => cases b <;> exact absurd hc (by decide)
  | _ => exact absurd hc (by simp [leadOf, lead])

theorem stops_items {js : List Json} : Stops Char.isDigit
    (match js with
      | [] => ']' :: u
      | _ :: _ => ',' :: itemsText js u) := by
  cases js <;> exact stops_cons (by decide)

theorem stops_members {ms : List (String × Json)} : Stops Char.isDigit
    (match ms with
      | [] => '\x7d' :: u
      | _ :: _ => ',' :: membersText ms u) := by
  cases ms <;> exact stops_cons (by decide)

/-- Documents of one lead are of one kind. -/
theorem kind_of_lead {j j' : Json} (h : j.lead = j'.lead) :
    match j with
    | .null => j' = .null
    | .bool b => j' = .bool b
    | .number _ => ∃ n, j' = .number n
    | .string _ => ∃ s, j' = .string s
    | .array _ => ∃ js, j' = .array js
    | .object _ => ∃ ms, j' = .object ms := by
  cases j <;> cases j' <;> simp only [lead] at h ⊢ <;> grind

mutual

/-- The text of a document can be told from what follows it, unless that goes on with a digit. -/
theorem render_cancel : ∀ (j : Json) {j' : Json} {u v : List Char}, j.Integral → j'.Integral →
    Stops Char.isDigit u → Stops Char.isDigit v →
    (render j).toList ++ u = (render j').toList ++ v → j = j' ∧ u = v
  | .null => by
    intro hj hj' _ _ h
    obtain rfl : _ = null := kind_of_lead (lead_eq hj hj' h)
    exact ⟨rfl, List.append_cancel_left h⟩
  | .bool b => by
    intro hj hj' _ _ h
    obtain rfl : _ = bool b := kind_of_lead (lead_eq hj hj' h)
    exact ⟨rfl, List.append_cancel_left h⟩
  | .number (.integer n) => by
    intro hj hj' hu hv h
    obtain ⟨n', rfl⟩ := kind_of_lead (lead_eq hj hj' h)
    cases n' with
    | double x => exact hj'.elim
    | integer n' =>
      obtain ⟨rfl, huv⟩ := intRepr_cancel hu hv h
      exact ⟨rfl, huv⟩
  | .number (.double _) => by
    intro hj
    exact hj.elim
  | .string _ => by
    intro hj hj' _ _ h
    obtain ⟨s', rfl⟩ := kind_of_lead (lead_eq hj hj' h)
    obtain ⟨rfl, huv⟩ := quote_cancel h
    exact ⟨rfl, huv⟩
  | .array js => by
    intro hj hj' _ _ h
    obtain ⟨js', rfl⟩ := kind_of_lead (lead_eq hj hj' h)
    rw [render_array_append, render_array_append] at h
    obtain ⟨rfl, huv⟩ := items_cancel js _ hj hj' (List.cons.inj h).2
    exact ⟨rfl, huv⟩
  | .object ms => by
    intro hj hj' _ _ h
    obtain ⟨ms', rfl⟩ := kind_of_lead (lead_eq hj hj' h)
    rw [render_object_append, render_object_append] at h
    obtain ⟨rfl, huv⟩ := members_cancel ms _ hj hj' (List.cons.inj h).2
    exact ⟨rfl, huv⟩

theorem items_cancel : ∀ (js js' : List Json) {u v : List Char}, IntegralItems js →
    IntegralItems js' → itemsText js u = itemsText js' v → js = js' ∧ u = v
  | [], [] => by
    intro _ _ h
    exact ⟨rfl, (List.cons.inj h).2⟩
  | [], j' :: js' => by
    intro _ hjs' h
    rw [itemsText_cons] at h
    exact absurd h.symm (render_ne_bracket hjs'.1)
  | j :: js, [] => by
    intro hjs _ h
    rw [itemsText_cons] at h
    exact absurd h (render_ne_bracket hjs.1)
  | j :: js, j' :: js' => by
    intro hjs hjs' h
    rw [itemsText_cons, itemsText_cons] at h
    obtain ⟨rfl, hrest⟩ := render_cancel j hjs.1 hjs'.1 stops_items stops_items h
    cases js <;> cases js'
    · exact ⟨rfl, (List.cons.inj hrest).2⟩
    · exact absurd (List.cons.inj hrest).1 (by decide)
    · exact absurd (List.cons.inj hrest).1 (by decide)
    · obtain ⟨htail, huv⟩ := items_cancel _ _ hjs.2 hjs'.2 (List.cons.inj hrest).2
      exact ⟨congrArg (j :: ·) htail, huv⟩

theorem members_cancel : ∀ (ms ms' : List (String × Json)) {u v : List Char},
    IntegralMembers ms → IntegralMembers ms' → membersText ms u = membersText ms' v →
    ms = ms' ∧ u = v
  | [], [] => by
    intro _ _ h
    exact ⟨rfl, (List.cons.inj h).2⟩
  | [], (k', j') :: ms' => by
    intro _ _ h
    rw [membersText_cons, quote_append] at h
    exact absurd (List.cons.inj h).1 (by decide)
  | (k, j) :: ms, [] => by
    intro _ _ h
    rw [membersText_cons, quote_append] at h
    exact absurd (List.cons.inj h).1 (by decide)
  | (k, j) :: ms, (k', j') :: ms' => by
    intro hms hms' h
    rw [membersText_cons, membersText_cons] at h
    obtain ⟨rfl, hvalue⟩ := quote_cancel h
    obtain ⟨rfl, hrest⟩ := render_cancel j hms.1 hms'.1 stops_members stops_members
      (List.cons.inj hvalue).2
    cases ms <;> cases ms'
    · exact ⟨rfl, (List.cons.inj hrest).2⟩
    · exact absurd (List.cons.inj hrest).1 (by decide)
    · exact absurd (List.cons.inj hrest).1 (by decide)
    · obtain ⟨htail, huv⟩ := members_cancel _ _ hms.2 hms'.2 (List.cons.inj hrest).2
      exact ⟨congrArg ((k, j) :: ·) htail, huv⟩

end

/-- Documents of integers with one text are the same. -/
theorem render_inj {j j' : Json} (hj : j.Integral) (hj' : j'.Integral)
    (h : render j = render j') : j = j' :=
  (render_cancel j hj hj' Stops.nil Stops.nil (congrArg (fun s => s.toList ++ []) h)).1

end QueryKit.Json
