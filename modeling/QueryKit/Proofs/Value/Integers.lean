import Mathlib.Algebra.Order.Field.Rat
import Mathlib.Tactic.Linarith
import Mathlib.Tactic.NormNum
import Mathlib.Tactic.Ring
import QueryKit.Value

/-!
# Integers of documents as values

- `Binary.toRat?`, `Binary.InFormat`, `Binary.Nearest`: the number that a floating-point number is,
  and which number of a format is nearest to a given one.
- `nearestEven_nearest`, `InFormat.grid`: rounding chooses the nearest integer, and beyond 63 bits
  doubles are multiples of 2048. So `Binary.ofInt` gives the nearest double (`ofInt_nearest`).
- `Value.Represents`: what stands for an integer of a document. `Value.ofJsonNumber_represents`: it
  is the integer up to 63 bits, and the nearest double beyond.
-/

namespace QueryKit

namespace Binary

variable {f : BinaryFormat}

/-! ## Exact values -/

/-- The number that a finite floating-point number is. -/
def toRat? : Binary f → Option Rat
  | .finite negative m e => some ((if negative then -(m : Rat) else m) * 2 ^ e)
  | _ => none

/-- The significand and the exponent are in the ranges of the format. -/
def InFormat : Binary f → Prop
  | .finite _ m e => m < 2 ^ f.precision ∧ f.minExponent ≤ e ∧ e ≤ f.maxExponent
  | _ => True

/-- A number of the format is finite and nearest to `q` among all of the format. -/
def Nearest (x : Binary f) (q : Rat) : Prop :=
  x.InFormat ∧ ∃ r, x.toRat? = some r ∧
    ∀ (y : Binary f) (s : Rat), y.InFormat → y.toRat? = some s → |r - q| ≤ |s - q|

/-! ## Rounding -/

/-- The integer that is chosen is at most a half away. -/
theorem nearestEven_error (num : Nat) {den : Nat} (hden : 0 < den) :
    2 * (den * nearestEven num den) ≤ 2 * num + den ∧
      2 * num ≤ 2 * (den * nearestEven num den) + den := by
  have hsum := Nat.div_add_mod num den
  have hrest := Nat.mod_lt num hden
  unfold nearestEven
  dsimp only
  split
  · omega
  · split
    · rcases Nat.mod_two_eq_zero_or_one (num / den) with heven | hodd
      · rw [heven, Nat.add_zero]
        omega
      · rw [hodd, Nat.mul_add, Nat.mul_one]
        omega
    · rw [Nat.mul_add, Nat.mul_one]
      omega

/-- No other multiple of the denominator is nearer. -/
theorem nearestEven_nearest (num : Nat) {den : Nat} (hden : 0 < den) (j : Int) :
    |(den : Int) * nearestEven num den - num| ≤ |den * j - num| := by
  obtain ⟨hlow, hhigh⟩ := nearestEven_error num hden
  generalize nearestEven num den = k at hlow hhigh
  zify at hlow hhigh hden
  have hpos := le_abs_self ((den : Int) * j - num)
  have hneg := neg_abs_le ((den : Int) * j - num)
  rcases lt_trichotomy j k with hj | rfl | hj
  · have hstep : (den : Int) * j + den ≤ den * k := by nlinarith
    exact abs_le.mpr ⟨by linarith, by linarith⟩
  · exact le_rfl
  · have hstep : (den : Int) * k + den ≤ den * j := by nlinarith
    exact abs_le.mpr ⟨by linarith, by linarith⟩

/-- Beyond 63 bits the unit in the last place is 2048. -/
theorem unitExponent_beyond {n : Nat} (hlow : 2 ^ 63 ≤ n) (hhigh : n < 2 ^ 64) :
    unitExponent .double n 1 = 11 := by
  have hlog : n.log2 = 63 := (Nat.log2_eq_iff (by omega)).mpr ⟨hlow, hhigh⟩
  have hone : Nat.log2 1 = 0 := rfl
  have hscaled : scaled n 1 (((63 : Nat) : Int) - ((0 : Nat) : Int)) = (n, 2 ^ 63) := rfl
  unfold unitExponent
  dsimp only
  rw [hlog, hone, hscaled]
  dsimp only
  rw [if_neg (by omega)]
  rfl

/-- Beyond 63 bits an integer becomes a multiple of 2048. -/
theorem ofInt_beyond {n : Int} (hlow : 2 ^ 63 ≤ n) (hhigh : n < 2 ^ 64) :
    (ofInt n : Double).InFormat ∧
      (ofInt n : Double).toRat? = some (2048 * (nearestEven n.toNat 2048 : Rat)) := by
  have hnat : n.natAbs = n.toNat := by omega
  have herror := nearestEven_error n.toNat (show 0 < 2048 by decide)
  have hunit := unitExponent_beyond (n := n.toNat) (by omega) (by omega)
  have hscaled : scaled n.toNat 1 11 = (n.toNat, 2048) := rfl
  have hround : (ofInt n : Double) =
      if nearestEven n.toNat 2048 = 2 ^ 53 then .finite false (nearestEven n.toNat 2048 / 2) 12
      else .finite false (nearestEven n.toNat 2048) 11 := by
    rw [ofInt, round, if_neg (by omega), hnat, hunit]
    dsimp only
    rw [hscaled, decide_eq_false (by omega)]
    dsimp only
    split
    · next hcarry =>
      rw [if_pos (show _ = 2 ^ 53 from hcarry)]
      rfl
    · next hcarry =>
      rw [if_neg (show ¬_ = 2 ^ 53 from hcarry)]
      rfl
  generalize nearestEven n.toNat 2048 = k at herror hround
  rw [hround]
  split
  · next hk =>
    subst hk
    refine ⟨⟨by decide, by decide, by decide⟩, ?_⟩
    norm_num [toRat?]
  · refine ⟨⟨?_, by decide, by decide⟩, ?_⟩
    · change k < 2 ^ 53
      omega
    · norm_num [toRat?]
      ring

/-- A number of the format below the 64th bit is a multiple of 2048, or less than `2 ^ 63`. -/
theorem InFormat.grid {m : Nat} {e : Int} {negative : Bool}
    (h : (Binary.finite negative m e : Double).InFormat) :
    (∃ k : Int, (Binary.finite negative m e : Double).toRat? = some (2048 * (k : Rat))) ∨
      ∃ r : Rat, (Binary.finite negative m e : Double).toRat? = some r ∧ r < 2 ^ 63 := by
  obtain ⟨hm, -, -⟩ := h
  change m < 2 ^ 53 at hm
  by_cases he : 11 ≤ e
  · left
    obtain ⟨d, rfl⟩ : ∃ d : Nat, e = 11 + d := ⟨(e - 11).toNat, by omega⟩
    refine ⟨(if negative then -(m : Int) else m) * 2 ^ d, ?_⟩
    have hpow : (2 : Rat) ^ (11 + (d : Int)) = 2048 * 2 ^ d := by
      rw [zpow_add₀ (by norm_num), zpow_natCast]
      norm_num
    rw [toRat?, hpow]
    cases negative <;> push_cast <;> simp <;> ring
  · right
    refine ⟨_, rfl, ?_⟩
    have hpow : (2 : Rat) ^ e ≤ 2 ^ (10 : Int) := zpow_le_zpow_right₀ (by norm_num) (by omega)
    have hpos : (0 : Rat) < 2 ^ e := zpow_pos (by norm_num) e
    have hm' : (m : Rat) ≤ 2 ^ 53 - 1 := by
      have hcast : (m : Rat) + 1 ≤ 2 ^ 53 := by exact_mod_cast hm
      linarith
    have hbound : (if negative then -(m : Rat) else m) ≤ m := by
      split
      · linarith [(Nat.cast_nonneg m : (0 : Rat) ≤ m)]
      · exact le_rfl
    calc (if negative then -(m : Rat) else m) * 2 ^ e
      _ ≤ m * 2 ^ e := by gcongr
      _ ≤ (2 ^ 53 - 1) * 2 ^ (10 : Int) := by gcongr
      _ < 2 ^ 63 := by norm_num

/-- Beyond 63 bits an integer becomes the nearest double, which is the integer itself only if this
is a multiple of 2048. -/
theorem ofInt_nearest {n : Int} (hlow : 2 ^ 63 ≤ n) (hhigh : n < 2 ^ 64) :
    (ofInt n : Double).Nearest n ∧
      ((ofInt n : Double).toRat? = some (n : Rat) ↔ (2048 : Int) ∣ n) := by
  obtain ⟨hformat, hvalue⟩ := ofInt_beyond hlow hhigh
  have hnear := nearestEven_nearest n.toNat (show 0 < 2048 by decide)
  generalize nearestEven n.toNat 2048 = k at hvalue hnear
  have hn : ((n.toNat : Nat) : Int) = n := by omega
  rw [hn] at hnear
  have hgrid : ∀ j : Int, |2048 * (k : Rat) - n| ≤ |2048 * (j : Rat) - n| := by
    intro j
    exact_mod_cast hnear j
  refine ⟨⟨hformat, _, hvalue, ?_⟩, ?_⟩
  · rintro (_ | _ | ⟨negative, m, e⟩) s hy hs
    · cases hs
    · cases hs
    · rcases hy.grid with ⟨j, hj⟩ | ⟨r, hr, hsmall⟩
      · cases hs.symm.trans hj
        exact hgrid j
      · cases hs.symm.trans hr
        -- the number is below `2 ^ 63`, which is a multiple of 2048 itself
        have hlow' : (2 : Rat) ^ 63 ≤ n := by exact_mod_cast hlow
        calc |2048 * (k : Rat) - n|
          _ ≤ |2048 * ((2 ^ 52 : Int) : Rat) - n| := hgrid (2 ^ 52)
          _ = n - 2 ^ 63 := by
            rw [abs_sub_comm, abs_of_nonneg] <;> norm_num at hlow' ⊢
            linarith
          _ ≤ n - s := by linarith
          _ ≤ |s - n| := by
            rw [abs_sub_comm]
            exact le_abs_self _
  · rw [hvalue, Option.some.injEq]
    constructor
    · intro h
      exact ⟨k, by exact_mod_cast h.symm⟩
    · rintro ⟨j, rfl⟩
      have hzero := hgrid j
      push_cast at hzero ⊢
      rw [sub_self, abs_zero, abs_nonpos_iff, sub_eq_zero] at hzero
      exact hzero

end Binary

namespace Value

/-- The number that a value is. -/
def toRat? : Value → Option Rat
  | .int32 n => some (n.toInt : Rat)
  | .int64 n => some (n.toInt : Rat)
  | .single x => x.toRat?
  | .double x => x.toRat?
  | _ => none

/-- The value that stands for an integer of a document. Up to 63 bits it is this integer, and its
document is the integer again. Beyond, it is the nearest double, which is another number unless the
integer is a multiple of 2048, and its document is a floating-point number. -/
def Represents (n : Int) (v : Value) : Prop :=
  (n < 2 ^ 63 → v = .int64 (.ofInt n) ∧ v.toRat? = some (n : Rat) ∧ v.toJson = .ofInt n) ∧
  (2 ^ 63 ≤ n → ∃ x : Double, v = .double x ∧ x.Nearest n ∧
    (v.toRat? = some (n : Rat) ↔ (2048 : Int) ∣ n) ∧ v.toJson = .number (.double x))

theorem ofJsonNumber_represents {n : Int} (hlow : -2 ^ 63 ≤ n) (hhigh : n < 2 ^ 64) :
    (ofJsonNumber (.integer n)).Represents n := by
  by_cases hsigned : n < 2 ^ 63
  · have hvalue : ofJsonNumber (.integer n) = .int64 (.ofInt n) := by
      have hint : (JsonNumber.integer n).asInt64 = some n := if_pos hsigned
      rw [ofJsonNumber, hint]
    have hint : (Int64.ofInt n).toInt = n := Int64.toInt_ofInt_of_le hlow hsigned
    refine ⟨fun _ => ⟨hvalue, ?_, ?_⟩, fun h => absurd hsigned (Int.not_lt.mpr h)⟩
    · rw [hvalue, toRat?, hint]
    · rw [hvalue, toJson, hint]
  · have hbeyond : 2 ^ 63 ≤ n := Int.not_lt.mp hsigned
    have hvalue : ofJsonNumber (.integer n) = .double (.ofInt n) := by
      have hint : (JsonNumber.integer n).asInt64 = none := if_neg hsigned
      rw [ofJsonNumber, hint]
      rfl
    obtain ⟨hnearest, hexact⟩ := Binary.ofInt_nearest hbeyond hhigh
    refine ⟨fun h => absurd h hsigned, fun _ => ⟨.ofInt n, hvalue, hnearest, ?_, ?_⟩⟩
    · rw [hvalue]
      exact hexact
    · have hfinite : (Binary.ofInt n : Double).isFinite = true := by
        obtain ⟨-, r, hr, -⟩ := hnearest
        revert hr
        cases (Binary.ofInt n : Double) <;> simp [Binary.toRat?, Binary.isFinite]
      rw [hvalue, toJson, Json.ofDouble, if_pos hfinite]

end Value

end QueryKit
