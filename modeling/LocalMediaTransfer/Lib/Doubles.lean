import Mathlib.Tactic

/-!
# Quotients in double precision

The quotient of two positive integers as a double: the exact quotient is scaled by a power of two
so that its integer part has 53 bits, rounded to the nearest integer with ties to even, and scaled
back.  No quotient of integers below `2 ^ 53` leaves the range of exponents.

* `quotientScale_spec` — the scaled quotient has 53 bits.
* `ceilQuotient_eq` — rounding does not carry a quotient over an integer, so the next integer above
  the double is the next integer above the quotient.
-/

set_option autoImplicit false

namespace LocalMediaTransfer.Lib

/-- The power of two by which `a / b` is scaled. -/
def quotientScale (a b : Nat) : Nat :=
  if b ≤ a then 52 - Nat.log2 (a / b) else 53 + Nat.log2 ((b - 1) / a)

/-- The significand of the double nearest to `a / b`, ties to even. -/
def quotientSignificand (a b : Nat) : Nat :=
  let scaled := a * 2 ^ quotientScale a b
  let floor := scaled / b
  let rest := scaled % b
  if 2 * rest < b then floor
  else if b < 2 * rest then floor + 1
  else if floor % 2 = 0 then floor else floor + 1

/-- The least integer that is not below the double `a / b`. -/
def ceilQuotient (a b : Nat) : Nat :=
  (quotientSignificand a b + 2 ^ quotientScale a b - 1) / 2 ^ quotientScale a b

theorem quotientScale_spec {a b : Nat} (ha : 0 < a) (hb : 0 < b) (hsmall : a < 2 ^ 53) :
    2 ^ 52 * b ≤ a * 2 ^ quotientScale a b ∧ a * 2 ^ quotientScale a b < 2 ^ 53 * b := by
  unfold quotientScale
  split
  · rename_i hle
    have hquotient : 0 < a / b := Nat.div_pos hle hb
    have hlow : 2 ^ Nat.log2 (a / b) ≤ a / b := Nat.log2_self_le hquotient.ne'
    have hhigh : a / b < 2 ^ (Nat.log2 (a / b) + 1) := Nat.lt_log2_self
    have hlog : Nat.log2 (a / b) ≤ 52 := by
      have hlt : 2 ^ Nat.log2 (a / b) < 2 ^ 53 :=
        (hlow.trans (Nat.div_le_self a b)).trans_lt hsmall
      have := (Nat.pow_lt_pow_iff_right (by norm_num)).mp hlt
      omega
    generalize Nat.log2 (a / b) = l at hlow hhigh hlog ⊢
    have hsplit : 2 ^ l * 2 ^ (52 - l) = 2 ^ 52 := by
      rw [← pow_add]
      congr 1
      omega
    have hba : 2 ^ l * b ≤ a := (Nat.mul_le_mul_right b hlow).trans (Nat.div_mul_le_self a b)
    have hab : a < 2 ^ (l + 1) * b := by
      rw [Nat.div_lt_iff_lt_mul hb] at hhigh
      exact hhigh
    constructor
    · calc 2 ^ 52 * b = 2 ^ l * b * 2 ^ (52 - l) := by rw [← hsplit]; ring
        _ ≤ a * 2 ^ (52 - l) := Nat.mul_le_mul_right _ hba
    · calc a * 2 ^ (52 - l) < 2 ^ (l + 1) * b * 2 ^ (52 - l) :=
            Nat.mul_lt_mul_of_pos_right hab (Nat.two_pow_pos _)
        _ = 2 * (2 ^ l * 2 ^ (52 - l)) * b := by rw [pow_succ 2 l]; ring
        _ = 2 ^ 53 * b := by rw [hsplit, ← pow_succ']
  · rename_i hlt
    have hquotient : 0 < (b - 1) / a := Nat.div_pos (by omega) ha
    have hlow : 2 ^ Nat.log2 ((b - 1) / a) ≤ (b - 1) / a := Nat.log2_self_le hquotient.ne'
    have hhigh : (b - 1) / a < 2 ^ (Nat.log2 ((b - 1) / a) + 1) := Nat.lt_log2_self
    generalize Nat.log2 ((b - 1) / a) = l at hlow hhigh ⊢
    have hab : a * 2 ^ l < b := by
      have h := (Nat.mul_le_mul_left a hlow).trans (Nat.mul_div_le (b - 1) a)
      omega
    have hba : b ≤ a * 2 ^ (l + 1) := by
      rw [Nat.div_lt_iff_lt_mul ha, Nat.mul_comm] at hhigh
      omega
    constructor
    · calc 2 ^ 52 * b ≤ 2 ^ 52 * (a * 2 ^ (l + 1)) := Nat.mul_le_mul_left _ hba
        _ = a * 2 ^ (53 + l) := by
            rw [Nat.mul_left_comm, ← pow_add, show 52 + (l + 1) = 53 + l by omega]
    · calc a * 2 ^ (53 + l) = 2 ^ 53 * (a * 2 ^ l) := by rw [pow_add, Nat.mul_left_comm]
        _ < 2 ^ 53 * b := Nat.mul_lt_mul_of_pos_left hab (by norm_num)

/-- A number with 53 bits is a multiple of `b` apart from a rest that rounding resolves: the
significand is within half a unit of the scaled quotient. -/
theorem quotientSignificand_near (a b : Nat) (hb : 0 < b) :
    2 * (quotientSignificand a b * b) ≤ 2 * (a * 2 ^ quotientScale a b) + b ∧
      2 * (a * 2 ^ quotientScale a b) ≤ 2 * (quotientSignificand a b * b) + b := by
  have hdivide := Nat.div_add_mod (a * 2 ^ quotientScale a b) b
  have hrest := Nat.mod_lt (a * 2 ^ quotientScale a b) hb
  have hfloor : b * (a * 2 ^ quotientScale a b / b) = a * 2 ^ quotientScale a b / b * b :=
    Nat.mul_comm _ _
  unfold quotientSignificand
  dsimp only
  have hnext := Nat.succ_mul (a * 2 ^ quotientScale a b / b) b
  rw [Nat.succ_eq_add_one] at hnext
  split_ifs <;> constructor <;> omega

/-- Rounding does not carry a quotient over an integer. -/
theorem ceilQuotient_eq {a b : Nat} (ha : 0 < a) (hb : 0 < b) (hsmall : a < 2 ^ 50) :
    ceilQuotient a b = (a + b - 1) / b := by
  obtain ⟨hlow, -⟩ := quotientScale_spec ha hb (by omega)
  obtain ⟨hbelow, habove⟩ := quotientSignificand_near a b hb
  -- one unit of the dividend is worth more than the rounding error
  have hunit : b < 2 ^ quotientScale a b := by
    by_contra hle
    have h : a * 2 ^ quotientScale a b ≤ a * b := Nat.mul_le_mul_left a (by omega)
    have h' : a * b < 2 ^ 52 * b := Nat.mul_lt_mul_of_pos_right (by omega) hb
    omega
  have hpositive : 0 < 2 ^ quotientScale a b := Nat.two_pow_pos _
  unfold ceilQuotient
  generalize quotientSignificand a b = m at hbelow habove ⊢
  generalize 2 ^ quotientScale a b = unit at hbelow habove hunit hpositive ⊢
  obtain ⟨c, rest, hrest, hsplit⟩ : ∃ c rest, rest < b ∧ a = c * b + rest + 1 :=
    ⟨(a - 1) / b, (a - 1) % b, Nat.mod_lt _ hb, by
      have := Nat.div_add_mod (a - 1) b
      rw [Nat.mul_comm] at this
      omega⟩
  have hceil : (a + b - 1) / b = c + 1 :=
    Nat.div_eq_of_lt_le (by rw [Nat.succ_mul]; omega) (by rw [Nat.succ_mul, Nat.succ_mul]; omega)
  have hlower : c * unit < m := by
    by_contra hle
    have h : m * b ≤ c * unit * b := Nat.mul_le_mul_right b (by omega)
    have h' : (c * b + 1) * unit ≤ a * unit := Nat.mul_le_mul_right unit (by omega)
    have h'' : (c * b + 1) * unit = c * unit * b + unit := by ring
    omega
  have hupper : m ≤ (c + 1) * unit := by
    by_contra hlt
    have h : ((c + 1) * unit + 1) * b ≤ m * b := Nat.mul_le_mul_right b (by omega)
    have h' : a * unit ≤ (c * b + b) * unit := Nat.mul_le_mul_right unit (by omega)
    have h'' : ((c + 1) * unit + 1) * b = (c * b + b) * unit + b := by ring
    omega
  rw [hceil]
  rw [Nat.succ_mul] at hupper
  exact Nat.div_eq_of_lt_le (by rw [Nat.succ_mul]; omega)
    (by rw [Nat.succ_mul, Nat.succ_mul]; omega)

end LocalMediaTransfer.Lib
