import QueryKit.Proofs.Compile.Bound
import QueryKit.Proofs.Search.Conditions
import QueryKit.Proofs.Value.Integers

/-!
# Integers of documents in conditions

- `Json.At`, `Value.At`, `Operand.At`: the parts of a document, of a value and of a condition, by
  the path that leads to them.
- `Value.at_ofJson`, `Operand.at_ofJson`, `Search.at_expandedOperand`: every part of a document is
  in its place in the value and in the condition that are made of it. A filter puts an expression in
  the place of an object that stands for one.
- `Json.Writes`: the values that a document writes. `Operand.over_ofJson`: a condition has no
  others.
- `Search.integers_kept`: what becomes of an integer on its way to a statement.
-/

namespace QueryKit

/-- A step to a part of a document. -/
inductive PathStep where
  | item (i : Nat)
  | member (key : String)

/-- The part of a document that a path leads to. -/
def Json.At : List PathStep → Json → Json → Prop
  | [], j, part => j = part
  | .item i :: path, .array items, part => ∃ j, items[i]? = some j ∧ At path j part
  | .member key :: path, .object members, part => ∃ j, (key, j) ∈ members ∧ At path j part
  | _, _, _ => False

/-- The part of nested arrays that a path leads to. -/
def Value.At : List Nat → Value → Value → Prop
  | [], v, part => v = part
  | i :: path, .array items, part => ∃ v, items[i]? = some v ∧ At path v part
  | _, _, _ => False

/-- The part of a condition that a path leads to. -/
def Operand.At : List PathStep → Operand → Operand → Prop
  | [], o, part => o = part
  | .item i :: path, .list items, part => ∃ o, items[i]? = some o ∧ At path o part
  | .member key :: path, .map entries, part => ∃ o, (key, o) ∈ entries ∧ At path o part
  | _, _, _ => False

/-- A value that the document writes: null, a boolean, a number or a text. -/
def Json.Writes (j : Json) (v : Value) : Prop :=
  ∃ path part, At path j part ∧ Operand.ofJson part = .value v

variable {j part : Json}

/-! ## Values -/

theorem Value.itemsOfJson_eq_map (items : List Json) : itemsOfJson items = items.map ofJson := by
  induction items with
  | nil => rfl
  | cons j items ih => rw [itemsOfJson, ih, List.map_cons]

theorem Value.at_ofJson {path : List Nat} (h : Json.At (path.map .item) j part) :
    At path (ofJson j) (ofJson part) := by
  induction path generalizing j with
  | nil => exact congrArg ofJson h
  | cons i path ih =>
    cases j with
    | array items =>
      obtain ⟨item, hitem, hpath⟩ := h
      refine ⟨ofJson item, ?_, ih hpath⟩
      rw [itemsOfJson_eq_map, List.getElem?_map, hitem]
      rfl
    | _ => cases h

/-! ## Conditions -/

namespace Operand

theorem itemsOfJson_eq_map (items : List Json) : itemsOfJson items = items.map ofJson := by
  induction items with
  | nil => rfl
  | cons j items ih => rw [itemsOfJson, ih, List.map_cons]

theorem mem_entriesOfJson {key : String} {members : List (String × Json)}
    (h : (key, j) ∈ members) : (key, ofJson j) ∈ entriesOfJson members := by
  induction members with
  | nil => cases h
  | cons m members ih =>
    rw [entriesOfJson]
    rcases List.mem_cons.mp h with rfl | h
    · exact List.mem_cons_self
    · exact List.mem_cons_of_mem _ (ih h)

theorem at_ofJson {path : List PathStep} (h : Json.At path j part) :
    At path (ofJson j) (ofJson part) := by
  induction path generalizing j with
  | nil => exact congrArg ofJson h
  | cons step path ih =>
    cases step with
    | item i =>
      cases j with
      | array items =>
        obtain ⟨item, hitem, hpath⟩ := h
        refine ⟨ofJson item, ?_, ih hpath⟩
        rw [itemsOfJson_eq_map, List.getElem?_map, hitem]
        rfl
      | _ => cases h
    | member key =>
      cases j with
      | object members =>
        obtain ⟨value, hvalue, hpath⟩ := h
        exact ⟨ofJson value, mem_entriesOfJson hvalue, ih hpath⟩
      | _ => cases h

theorem asArray_ofJsonNumber (n : JsonNumber) : (Value.ofJsonNumber n).asArray = none := by
  unfold Value.ofJsonNumber
  split <;> rfl

mutual

/-- The condition that a document writes has no expressions and no values but those it writes. -/
theorem over_ofJson {P : Value → Prop} : ∀ j : Json, (∀ v, j.Writes v → P v) → (ofJson j).Over P
  | .null, h => ⟨h _ ⟨[], _, rfl, rfl⟩, rfl⟩
  | .bool _, h => ⟨h _ ⟨[], _, rfl, rfl⟩, rfl⟩
  | .number n, h => ⟨h _ ⟨[], _, rfl, rfl⟩, asArray_ofJsonNumber n⟩
  | .string _, h => ⟨h _ ⟨[], _, rfl, rfl⟩, rfl⟩
  | .array items, h => by
    refine itemsOver_ofJson items fun j hj v ⟨path, part, hpath, hpart⟩ => ?_
    obtain ⟨i, hi⟩ := List.mem_iff_getElem?.mp hj
    exact h v ⟨.item i :: path, part, ⟨j, hi, hpath⟩, hpart⟩
  | .object members, h => by
    refine entriesOver_ofJson members fun key j hj v ⟨path, part, hpath, hpart⟩ => ?_
    exact h v ⟨.member key :: path, part, ⟨j, hj, hpath⟩, hpart⟩

theorem itemsOver_ofJson {P : Value → Prop} : ∀ items : List Json,
    (∀ j ∈ items, ∀ v, j.Writes v → P v) → ItemsOver P (itemsOfJson items)
  | [], _ => trivial
  | j :: items, h => by
    obtain ⟨hj, hitems⟩ := List.forall_mem_cons.mp h
    exact ⟨over_ofJson j hj, itemsOver_ofJson items hitems⟩

theorem entriesOver_ofJson {P : Value → Prop} : ∀ members : List (String × Json),
    (∀ key j, (key, j) ∈ members → ∀ v, j.Writes v → P v) → EntriesOver P (entriesOfJson members)
  | [], _ => trivial
  | (key, j) :: members, h =>
    ⟨over_ofJson j (h key j List.mem_cons_self),
      entriesOver_ofJson members fun key' j' hj => h key' j' (List.mem_cons_of_mem _ hj)⟩

end

end Operand

/-! ## Filters -/

theorem Params.mem_setEntry {name : String} {p : Param} {entry : ParamKey × Param} :
    ∀ {entries : List (ParamKey × Param)}, entry ∈ setEntry name p entries →
      entry.2 = p ∨ entry ∈ entries
  | [], h => .inl (by rw [List.mem_singleton.mp h])
  | (k, q) :: entries, h => by
    rw [setEntry] at h
    split at h
    · rcases List.mem_cons.mp h with rfl | h
      · exact .inl rfl
      · exact .inr (List.mem_cons_of_mem _ h)
    · rcases List.mem_cons.mp h with rfl | h
      · exact .inr List.mem_cons_self
      · exact (mem_setEntry h).imp_right (List.mem_cons_of_mem _)

namespace Search

variable {sub : Json → Result Query}

theorem expandedItems_getElem : ∀ {items : List Json} {os : List Operand},
    expandedItems sub items = .ok os → ∀ {i : Nat}, items[i]? = some j →
      ∃ o, os[i]? = some o ∧ expandedOperand sub j = .ok o
  | [], _, _, _, hj => by cases hj
  | first :: items, _, h, i, hj => by
    rw [expandedItems] at h
    obtain ⟨o, ho, hrest⟩ := Result.bind_ok h
    obtain ⟨os, hos, hlast⟩ := Result.bind_ok hrest
    cases hlast
    cases i with
    | zero =>
      cases hj
      exact ⟨o, rfl, ho⟩
    | succ i => exact expandedItems_getElem hos hj

theorem mem_expandedEntries {key : String} : ∀ {members : List (String × Json)}
    {es : List (String × Operand)}, expandedEntries sub members = .ok es → (key, j) ∈ members →
      ∃ o, (key, o) ∈ es ∧ expandedOperand sub j = .ok o
  | [], _, _, hj => by cases hj
  | (_, first) :: members, _, h, hj => by
    rw [expandedEntries] at h
    obtain ⟨o, ho, hrest⟩ := Result.bind_ok h
    obtain ⟨es, hes, hlast⟩ := Result.bind_ok hrest
    cases hlast
    rcases List.mem_cons.mp hj with heq | hj
    · cases heq
      exact ⟨o, List.mem_cons_self, ho⟩
    · obtain ⟨o', ho', hexpanded⟩ := mem_expandedEntries hes hj
      exact ⟨o', List.mem_cons_of_mem _ ho', hexpanded⟩

/-- The path leads through an object that stands for a subquery or a raw expression. -/
def Wrapped (path : List PathStep) (j : Json) : Prop :=
  ∃ before entries, before <+: path ∧ j.At before (.object entries) ∧ Wraps entries

/-- Outside such objects, a filter puts every part of a document in its place. -/
theorem at_expandedOperand {path : List PathStep} {o : Operand}
    (ho : expandedOperand sub j = .ok o) (h : j.At path part) :
    Wrapped path j ∨ ∃ o', o.At path o' ∧ expandedOperand sub part = .ok o' := by
  induction path generalizing j o with
  | nil =>
    cases h
    exact .inr ⟨o, rfl, ho⟩
  | cons step path ih =>
    -- a part of a part that is wrapped is wrapped
    have hstep : ∀ {next : Json} {inner : Operand}, expandedOperand sub next = .ok inner →
        next.At path part → (∀ before p, next.At before p → j.At (step :: before) p) →
        (∀ o', inner.At path o' → o.At (step :: path) o') →
        Wrapped (step :: path) j ∨ ∃ o', o.At (step :: path) o' ∧
          expandedOperand sub part = .ok o' := by
      intro next inner hinner hpath hj houter
      rcases ih hinner hpath with ⟨before, entries, hprefix, hentries, hwraps⟩ | ⟨o', ho', hpart⟩
      · exact .inl ⟨step :: before, entries, List.cons_prefix_cons.mpr ⟨rfl, hprefix⟩,
          hj before _ hentries, hwraps⟩
      · exact .inr ⟨o', houter o' ho', hpart⟩
    cases step with
    | item i =>
      cases j with
      | array items =>
        obtain ⟨item, hitem, hpath⟩ := h
        rw [expandedOperand] at ho
        obtain ⟨_, hnone, hrest⟩ := Result.bind_ok ho
        cases hnone
        obtain ⟨os, hos, hlast⟩ := Result.bind_ok hrest
        cases hlast
        obtain ⟨inner, hget, hinner⟩ := expandedItems_getElem hos hitem
        exact hstep hinner hpath (fun _ _ hp => ⟨item, hitem, hp⟩) fun _ hp => ⟨inner, hget, hp⟩
      | _ => cases h
    | member key =>
      cases j with
      | object members =>
        obtain ⟨value, hvalue, hpath⟩ := h
        by_cases hwraps : Wraps members
        · exact .inl ⟨[], members, List.nil_prefix, rfl, hwraps⟩
        · rw [expandedOperand, nestedExpression_object hwraps] at ho
          obtain ⟨_, hnone, hrest⟩ := Result.bind_ok ho
          cases hnone
          obtain ⟨es, hes, hlast⟩ := Result.bind_ok hrest
          cases hlast
          obtain ⟨inner, hget, hinner⟩ := mem_expandedEntries hes hvalue
          exact hstep hinner hpath (fun _ _ hp => ⟨value, hvalue, hp⟩) fun _ hp => ⟨inner, hget, hp⟩
      | _ => cases h

theorem mem_boundEntries {entry : ParamKey × Param} :
    ∀ {bound : List (String × Json)} {ps : Params},
      entry ∈ (bound.foldl (fun ps e => ps.set e.1 (.ofValue (.ofJson e.2))) ps).entries →
      entry ∈ ps.entries ∨ ∃ key part, (key, part) ∈ bound ∧ entry.2 = .ofValue (.ofJson part)
  | [], _, h => .inl h
  | (key, part) :: bound, ps, h => by
    rw [List.foldl_cons] at h
    rcases mem_boundEntries h with h | ⟨key', part', hmem, hentry⟩
    · rcases Params.mem_setEntry h with hvalue | hold
      · exact .inr ⟨key, part, List.mem_cons_self, hvalue⟩
      · exact .inl hold
    · exact .inr ⟨key', part', List.mem_cons_of_mem _ hmem, hentry⟩

/-- A raw expression binds the values that its document gives to names. -/
theorem rawExpression_binds {sql : String} {ps : Params}
    (h : rawExpression j = .ok (.raw sql ps)) : ∀ entry ∈ ps.entries, ∃ key part,
      j.At [.item 1, .member key] part ∧ entry.2 = .ofValue (.ofJson part) := by
  unfold rawExpression at h
  split at h
  · obtain ⟨_, -, hlast⟩ := Result.bind_ok h
    cases hlast
    nofun
  · obtain ⟨_, -, hlast⟩ := Result.bind_ok h
    cases hlast
    nofun
  · next text bound =>
    obtain ⟨_, -, hlast⟩ := Result.bind_ok h
    cases hlast
    intro entry hentry
    rcases mem_boundEntries hentry with hempty | ⟨key, part, hmem, hvalue⟩
    · cases hempty
    · exact ⟨key, part, ⟨_, rfl, part, hmem, rfl⟩, hvalue⟩
  · cases h
  · cases h

/-- An integer of a document is represented in the value that is made of the document, and in the
condition that is made of it, also by a filter unless it is in a subquery or a raw expression. As
a member of the condition it is bound as it is, and so is every other value: a condition binds no
value that the document does not write, but for lists of such values and patterns with the text of
one. A raw expression binds the values of the document under the names it gives them. -/
theorem integers_kept (j : Json) :
    (∀ (n : Int), -2 ^ 63 ≤ n → n < 2 ^ 64 →
      ∃ v, v.Represents n ∧
        (∀ path : List Nat, j.At (path.map .item) (.ofInt n) → (Value.ofJson j).At path v) ∧
        (∀ path, j.At path (.ofInt n) → (Operand.ofJson j).At path (.value v)) ∧
        (∀ path sub o, j.At path (.ofInt n) → expandedOperand sub j = .ok o →
          Wrapped path j ∨ o.At path (.value v)) ∧
        ∀ c, renderOperand c .bound (.value v) = .ok ("?", [⟨.positional, .ofValue v⟩])) ∧
    (∀ (c : Compiler) (o : Operand) (ps out : Params) (sql : String),
      o = .ofJson j ∨ IsPlain j ∧ (∃ sub, expandedOperand sub j = .ok o) →
      c.buildCondition o ps = .ok (sql, out) →
        ∃ bs, out = ps.bindAll bs ∧ ∀ b ∈ bs, b.MadeOf j.Writes) ∧
    ∀ sql ps, rawExpression j = .ok (.raw sql ps) → ∀ entry ∈ ps.entries, ∃ key part,
      j.At [.item 1, .member key] part ∧ entry.2 = .ofValue (.ofJson part) := by
  refine ⟨fun n hlow hhigh => ?_, fun c o ps out sql ho h => ?_, fun sql ps => rawExpression_binds⟩
  · refine ⟨.ofJsonNumber (.integer n), Value.ofJsonNumber_represents hlow hhigh,
      fun path => Value.at_ofJson, fun path => Operand.at_ofJson, fun path sub o hat ho => ?_,
      fun c => rfl⟩
    refine (at_expandedOperand ho hat).imp_right fun ⟨o', ho', hexpanded⟩ => ?_
    cases hexpanded
    exact ho'
  · have hown : o = .ofJson j := by
      rcases ho with ho | ⟨hplain, sub, ho⟩
      · exact ho
      · rw [expandedOperand_of_isPlain hplain] at ho
        cases ho
        rfl
    rw [hown] at h
    exact c.buildCondition_binds (Operand.over_ofJson j fun _ => id) h

/-- The largest integers with and without a sign, as values of a condition. -/
def largestIntegers : Json :=
  .array [.string "in", .string "id",
    .array [.ofInt 9223372036854775807, .ofInt 18446744073709551615]]

/-- The second one is bound as `2 ^ 64`, and not as an integer. -/
theorem largestIntegers_kept :
    (∃ v : Value, v.Represents 9223372036854775807 ∧
      (Operand.ofJson largestIntegers).At [.item 2, .item 0] (.value v) ∧
      (Value.ofJson largestIntegers).At [2, 0] v) ∧
    (∃ v : Value, v.Represents 18446744073709551615 ∧
      (Operand.ofJson largestIntegers).At [.item 2, .item 1] (.value v) ∧
      (Value.ofJson largestIntegers).At [2, 1] v) ∧
    ∃ bs, (⟨[(.positional, .ofValue (.int64 9223372036854775807)),
        (.positional, .ofValue (.double (.finite false 4503599627370496 12)))]⟩ : Params) =
          Params.empty.bindAll bs ∧ ∀ b ∈ bs, b.MadeOf largestIntegers.Writes := by
  have hfirst : Json.At [.item 2, .item 0] largestIntegers (.ofInt 9223372036854775807) :=
    ⟨_, rfl, _, rfl, rfl⟩
  have hsecond : Json.At [.item 2, .item 1] largestIntegers (.ofInt 18446744073709551615) :=
    ⟨_, rfl, _, rfl, rfl⟩
  have hbuild : (Compiler.ofDialect .mysql).buildCondition (.ofJson largestIntegers) .empty =
      .ok ("`id` IN (?, ?)", ⟨[(.positional, .ofValue (.int64 9223372036854775807)),
        (.positional, .ofValue (.double (.finite false 4503599627370496 12)))]⟩) := rfl
  obtain ⟨hkept, hbinds, -⟩ := integers_kept largestIntegers
  refine ⟨?_, ?_, hbinds _ _ _ _ _ (.inl rfl) hbuild⟩
  · obtain ⟨v, hv, hvalue, hoperand, -⟩ := hkept 9223372036854775807 (by decide) (by decide)
    exact ⟨v, hv, hoperand _ hfirst, hvalue [2, 0] hfirst⟩
  · obtain ⟨v, hv, hvalue, hoperand, -⟩ := hkept 18446744073709551615 (by decide) (by decide)
    exact ⟨v, hv, hoperand _ hsecond, hvalue [2, 1] hsecond⟩

/-- The largest unsigned integer does not keep its value. -/
theorem largestUnsigned_changed :
    (Value.ofJson (.ofInt 18446744073709551615)).toRat? = some (18446744073709551616 : Rat) ∧
    (Value.ofJson (.ofInt 18446744073709551615)).toJson ≠ .ofInt 18446744073709551615 := by
  have hvalue : Value.ofJson (.ofInt 18446744073709551615) =
      .double (.finite false 4503599627370496 12) := rfl
  rw [hvalue]
  constructor
  · norm_num [Value.toRat?, Binary.toRat?]
  · intro h
    cases h

end Search

end QueryKit
