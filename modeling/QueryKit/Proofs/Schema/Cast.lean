import QueryKit.Proofs.Placeholder.Literal
import QueryKit.Schema.Basic

/-!
# Values on their way into a column

- `ValueKind.Holds`: the values of a kind. Casting leaves them as they are
  (`ColumnSchema.castValue_of_holds`).
- `ColumnSchema.castValue_ok`, `ColumnSchema.castValue_error_iff`: every other value becomes null or
  one of them, except for documents and arrays, which have no form in a column of strings.
- `ColumnSchema.Stores`: what a column takes in: null, and the values of its kind. The empty string
  is one of them only if the column has a use for it. No other value is written as the empty string,
  so that a second cast finds nothing to do.
- `ColumnSchema.cast_typed_stable`: casting makes exactly these values, and leaves exactly these as
  they are.
-/

namespace QueryKit

/-- The values that a column of a kind holds. -/
def ValueKind.Holds : ValueKind → Value → Prop
  | .integer, .int32 _ | .integer, .int64 _ => True
  | .boolean, .bool _ => True
  | .double, .single _ | .double, .double _ => True
  | .string, .string _ | .string, .bytes _ => True
  | .other, _ => True
  | _, _ => False

/-- Documents and arrays. -/
def Value.IsComposite : Value → Prop
  | .json _ | .array _ => True
  | _ => False

theorem Numeral.ne_empty {s : String} (h : Numeral s.toList) : s ≠ "" := by
  rintro rfl
  exact h.1 rfl

namespace ColumnSchema

variable {c : ColumnSchema} {v w : Value} {o o' : Operand} {e : Error}

/-! ## Values that are not null -/

theorem castValue_null (c : ColumnSchema) : c.castValue .null = .ok .null := by
  unfold castValue
  cases c.kind <;> rfl

/-- A value of the kind of the column stays as it is. -/
theorem castValue_of_holds (h : c.kind.Holds v) : c.castValue v = .ok v := by
  unfold castValue
  cases hkind : c.kind <;> rw [hkind] at h <;> cases v <;> first | rfl | exact h.elim

/-- What a column of strings makes of a value. -/
theorem castValue_string (hkind : c.kind = .string) (h : c.castValue v = .ok w) :
    (w = .null ∨ c.kind.Holds w) ∧ (w = .string "" → v = .string "") := by
  unfold castValue at h
  rw [hkind] at h ⊢
  have numeral : ∀ {s : String}, Numeral s.toList →
      (Value.string s = .null ∨ ValueKind.string.Holds (.string s)) ∧
        (Value.string s = .string "" → v = .string "") :=
    fun hs => ⟨.inr trivial, fun heq => absurd (Value.string.inj heq) hs.ne_empty⟩
  cases v with
  | null =>
    cases h
    exact ⟨.inl rfl, fun heq => by cases heq⟩
  | bool b =>
    cases h
    cases b with
    | false => exact numeral (by decide : Numeral "0".toList)
    | true => exact numeral (by decide : Numeral "1".toList)
  | int32 n | int64 n =>
    cases h
    exact numeral (.intRepr n.toInt)
  | single x | double x =>
    cases h
    exact numeral (.binary x)
  | string s =>
    cases h
    exact ⟨.inr trivial, id⟩
  | bytes b =>
    cases h
    exact ⟨.inr trivial, fun heq => by cases heq⟩
  | json j | array vs => cases h

/-- A value that is cast is null, or of the kind of the column. It is the empty string only if it
was. -/
theorem castValue_ok (h : c.castValue v = .ok w) :
    (w = .null ∨ c.kind.Holds w) ∧ (w = .string "" → v = .string "") := by
  cases hkind : c.kind with
  | string =>
    rw [← hkind]
    exact castValue_string hkind h
  | integer | boolean | double =>
    unfold castValue at h
    rw [hkind] at h
    cases v <;> cases h <;> first
      | exact ⟨.inl rfl, fun heq => by cases heq⟩
      | exact ⟨.inr trivial, fun heq => by cases heq⟩
  | other =>
    have hholds : c.kind.Holds v := by
      rw [hkind]
      exact trivial
    rw [castValue_of_holds hholds] at h
    cases h
    exact ⟨.inr trivial, id⟩

/-- Only documents and arrays cannot be cast, and only to strings. -/
theorem castValue_error_iff : c.castValue v = .error e ↔
    c.kind = .string ∧ v.IsComposite ∧ e = .invalidArgument (.noStringForm c.name) := by
  unfold castValue
  constructor
  · intro h
    cases hkind : c.kind with
    | string =>
      rw [hkind] at h
      cases v with
      | json j | array vs =>
        cases h
        exact ⟨rfl, trivial, rfl⟩
      | _ => cases h
    | _ =>
      rw [hkind] at h
      cases v <;> cases h
  · rintro ⟨hkind, hcomposite, rfl⟩
    rw [hkind]
    cases v with
    | json j | array vs => rfl
    | _ => exact hcomposite.elim

/-! ## Values -/

/-- The values that stay as they are: null, and the values of the kind of the column, with the empty
string among them only where it is kept. -/
def Stores (c : ColumnSchema) (w : Value) : Prop :=
  w = .null ∨ c.kind.Holds w ∧ (w = .string "" → c.keepsEmpty = true)

theorem cast_emptied (h : c.keepsEmpty = false) :
    c.cast (.value (.string "")) = .ok (.value .null) := by
  have hemptied : "" = "" ∧ (!c.keepsEmpty) = true := ⟨rfl, by rw [h]; rfl⟩
  exact if_pos hemptied

theorem cast_value_of_kept (h : v = .string "" → c.keepsEmpty = true) :
    c.cast (.value v) = (c.castValue v).map .value := by
  cases v with
  | string s =>
    have hkept : ¬(s = "" ∧ (!c.keepsEmpty) = true) := by
      rintro ⟨rfl, hempty⟩
      rw [h rfl] at hempty
      cases hempty
    exact if_neg hkept
  | _ => rfl

/-- Every value that is cast is one that the column takes in. -/
theorem stores_of_cast (h : c.cast (.value v) = .ok o) : ∃ w, o = .value w ∧ c.Stores w := by
  by_cases hkept : v = .string "" → c.keepsEmpty = true
  · rw [cast_value_of_kept hkept] at h
    cases hv : c.castValue v with
    | error e =>
      rw [hv] at h
      cases h
    | ok w =>
      rw [hv] at h
      cases h
      obtain ⟨hkind, hempty⟩ := castValue_ok hv
      exact ⟨w, rfl, hkind.imp_right fun hholds => ⟨hholds, fun heq => hkept (hempty heq)⟩⟩
  · obtain ⟨rfl, hempty⟩ := Classical.not_imp.mp hkept
    rw [cast_emptied (Bool.not_eq_true _ ▸ hempty)] at h
    cases h
    exact ⟨.null, rfl, .inl rfl⟩

theorem cast_of_stores (h : c.Stores w) : c.cast (.value w) = .ok (.value w) := by
  rcases h with rfl | ⟨hholds, hkept⟩
  · rw [cast_value_of_kept (fun heq => by cases heq), castValue_null]
    rfl
  · rw [cast_value_of_kept hkept, castValue_of_holds hholds]
    rfl

theorem cast_value_error_iff : c.cast (.value v) = .error e ↔
    c.kind = .string ∧ v.IsComposite ∧ e = .invalidArgument (.noStringForm c.name) := by
  by_cases hkept : v = .string "" → c.keepsEmpty = true
  · rw [cast_value_of_kept hkept, ← castValue_error_iff]
    cases c.castValue v <;> simp [Except.map]
  · obtain ⟨rfl, hempty⟩ := Classical.not_imp.mp hkept
    rw [cast_emptied (Bool.not_eq_true _ ▸ hempty)]
    constructor
    · intro h
      cases h
    · rintro ⟨-, hcomposite, -⟩
      exact hcomposite.elim

theorem cast_of_asValue_none (h : o.asValue = none) : c.cast o = .ok o := by
  cases o with
  | value v => cases h
  | _ => rfl

/-- Casting gives null or a value of the kind of the column, and it fails only for documents and
arrays in a column of strings. What it gives is what it leaves as it is. -/
theorem cast_typed_stable (c : ColumnSchema) :
    (∀ o, o.asValue = none → c.cast o = .ok o) ∧
    (∀ v e, c.cast (.value v) = .error e ↔
      c.kind = .string ∧ v.IsComposite ∧ e = .invalidArgument (.noStringForm c.name)) ∧
    (∀ v o, c.cast (.value v) = .ok o → ∃ w, o = .value w ∧ (w = .null ∨ c.kind.Holds w)) ∧
    c.cast (.value .null) = .ok (.value .null) ∧
    (∀ w, c.cast (.value w) = .ok (.value w) ↔ c.Stores w) ∧
    (∀ o o', c.cast o = .ok o' → c.cast o' = .ok o') := by
  refine ⟨fun o => cast_of_asValue_none, fun v e => cast_value_error_iff, fun v o h => ?_,
    cast_of_stores (.inl rfl), fun w => ⟨fun h => ?_, cast_of_stores⟩, fun o o' h => ?_⟩
  · obtain ⟨w, rfl, hstores⟩ := stores_of_cast h
    exact ⟨w, rfl, hstores.imp_right And.left⟩
  · obtain ⟨w', hw, hstores⟩ := stores_of_cast h
    cases hw
    exact hstores
  · cases o with
    | value v =>
      obtain ⟨w, rfl, hstores⟩ := stores_of_cast h
      exact cast_of_stores hstores
    | list _ | map _ | expr _ =>
      cases h
      rfl

/-- A column of strings without a use for the empty string. -/
theorem enumColumn_cast :
    let c := { unknown with name := "status", type := "enum" }
    c.cast (.value (.string "")) = .ok (.value .null) ∧
      c.cast (.value (.bool false)) = .ok (.value (.string "0")) ∧
      c.cast (.value (.string "0")) = .ok (.value (.string "0")) ∧
      c.cast (.value (.array [])) = .error (.invalidArgument (.noStringForm "status")) := by
  intro c
  obtain ⟨-, herror, -, -, -, hstable⟩ := cast_typed_stable c
  exact ⟨rfl, rfl, hstable (.value (.bool false)) _ rfl, (herror _ _).mpr ⟨rfl, trivial, rfl⟩⟩

end ColumnSchema

end QueryKit
