import CollectionSchema.Json.Basic
import Mathlib.Algebra.Order.Ring.Nat
import Mathlib.Data.Nat.Log
import Mathlib.Tactic.Ring

/-!
# Integers as binary64 numbers

An integer becomes the nearest multiple of a power of two with a mantissa of 53 bits. The power
grows with the integer, so the steps of the format get wider, but a wider step is never in the way
of a narrower one.

* `roundHalfEven_mono`, `roundHalfEven_le`, `le_roundHalfEven`: rounding to a natural keeps the
  order and is off by half a unit at most.
* `Binary64.rounded`: a natural with 53 significant bits. It keeps the order (`rounded_mono`),
  changes nothing up to `2 ^ 53` (`rounded_eq_self`) and does not depend on the unit
  (`rounded_mul_two_pow`), so it is what the format makes of a natural (`exists_ofNat?`).
* `Binary64.nearest`: the same with a sign. `signedUnits_toBinary64`: it is the value of an integer
  of at most 64 bits as a binary64 number. Integers with one value lie close together and far from
  zero (`close_of_nearest_eq`).
-/

namespace CollectionSchema

/-! ## Quotients -/

section

variable {m n den : Nat}

theorem roundHalfEven_mono (h : m ≤ n) (hden : 0 < den) :
    roundHalfEven m den ≤ roundHalfEven n den := by
  have hquotient : m / den ≤ n / den := Nat.div_le_div_right h
  have hrest : m / den = n / den → m % den ≤ n % den := by
    intro heq
    have hm := Nat.div_add_mod m den
    have hn := Nat.div_add_mod n den
    rw [heq] at hm
    omega
  have := Nat.mod_lt n hden
  unfold roundHalfEven
  dsimp only
  split_ifs <;> omega

/-- The quotient is rounded down, or up, to the nearer one. -/
theorem roundHalfEven_cases (n den : Nat) :
    roundHalfEven n den = n / den ∧ 2 * (n % den) ≤ den ∨
      roundHalfEven n den = n / den + 1 ∧ den ≤ 2 * (n % den) := by
  unfold roundHalfEven
  dsimp only
  split_ifs <;> omega

theorem le_roundHalfEven (n : Nat) (hden : 0 < den) :
    2 * n ≤ 2 * (roundHalfEven n den * den) + den := by
  have hn := Nat.div_add_mod' n den
  have hlt := Nat.mod_lt n hden
  rcases roundHalfEven_cases n den with ⟨heq, hrest⟩ | ⟨heq, hrest⟩
  · rw [heq]
    omega
  · rw [heq, Nat.add_mul, Nat.one_mul]
    omega

theorem roundHalfEven_le (n den : Nat) : 2 * (roundHalfEven n den * den) ≤ 2 * n + den := by
  have hn := Nat.div_add_mod' n den
  rcases roundHalfEven_cases n den with ⟨heq, hrest⟩ | ⟨heq, hrest⟩
  · rw [heq]
    omega
  · rw [heq, Nat.add_mul, Nat.one_mul]
    omega

theorem roundHalfEven_mul_self (k : Nat) (hden : 0 < den) : roundHalfEven (k * den) den = k := by
  simp [roundHalfEven, Nat.mul_div_cancel k hden, hden]

/-- Rounding does not depend on the unit. -/
theorem roundHalfEven_mul_mul {c : Nat} (hc : 0 < c) :
    roundHalfEven (n * c) (den * c) = roundHalfEven n den := by
  have hleft : 2 * (n % den * c) < den * c ↔ 2 * (n % den) < den := by
    rw [← Nat.mul_assoc]
    exact Nat.mul_lt_mul_right hc
  have hright : den * c < 2 * (n % den * c) ↔ den < 2 * (n % den) := by
    rw [← Nat.mul_assoc]
    exact Nat.mul_lt_mul_right hc
  simp only [roundHalfEven, Nat.mul_div_mul_right _ _ hc, Nat.mul_mod_mul_right, hleft, hright]

end

namespace Binary64

/-! ## Naturals with 53 significant bits -/

/-- The power of two that a natural is rounded to a multiple of. -/
def step (n : Nat) : Nat := 2 ^ (n.log2 - 52)

/-- The natural with 53 significant bits that is nearest to `n`. -/
def rounded (n : Nat) : Nat := roundHalfEven n (step n) * step n

variable {m n k : Nat}

theorem one_eq : one = 2 ^ 1074 := by
  unfold one
  -- the exponent is made a variable, so that the power is not computed
  generalize 1074 = k
  exact Nat.pow_eq

theorem one_pos : 0 < one := by
  unfold one
  generalize 1074 = k
  exact Nat.two_pow_pos k

theorem step_pos (n : Nat) : 0 < step n := Nat.two_pow_pos _

theorem log2_le_of_lt (h : n < 2 ^ (k + 1)) : n.log2 ≤ k := by
  rcases Nat.eq_zero_or_pos n with rfl | hpos
  · rw [Nat.log2_zero]
    exact k.zero_le
  · exact Nat.le_of_lt_succ ((Nat.log2_lt hpos.ne').mpr h)

theorem lt_two_pow_mul_step (n : Nat) : n < 2 ^ 53 * step n := by
  rw [step, ← Nat.pow_add]
  exact Nat.lt_of_lt_of_le Nat.lt_log2_self (Nat.pow_le_pow_right (by decide) (by omega))

theorem two_pow_mul_step_le (h : 52 ≤ n.log2) : 2 ^ 52 * step n ≤ n := by
  have hn : n ≠ 0 := by
    rintro rfl
    simp at h
  rw [step, ← Nat.pow_add, Nat.add_sub_cancel' h]
  exact Nat.log2_self_le hn

theorem mantissa_le (n : Nat) : roundHalfEven n (step n) ≤ 2 ^ 53 := by
  have hmono := roundHalfEven_mono (lt_two_pow_mul_step n).le (step_pos n)
  rwa [roundHalfEven_mul_self _ (step_pos n)] at hmono

theorem le_mantissa (h : 52 ≤ n.log2) : 2 ^ 52 ≤ roundHalfEven n (step n) := by
  have hmono := roundHalfEven_mono (two_pow_mul_step_le h) (step_pos n)
  rwa [roundHalfEven_mul_self _ (step_pos n)] at hmono

/-- **Rounding keeps the order**, also across a change of the step. -/
theorem rounded_mono (h : m ≤ n) : rounded m ≤ rounded n := by
  have hlog : m.log2 ≤ n.log2 := by
    rw [Nat.log2_eq_log_two, Nat.log2_eq_log_two]
    exact Nat.log_mono_right h
  by_cases hstep : n.log2 - 52 = m.log2 - 52
  · rw [rounded, rounded, step, step, hstep]
    exact Nat.mul_le_mul_right _ (roundHalfEven_mono h (Nat.two_pow_pos _))
  · calc rounded m ≤ 2 ^ 53 * step m := Nat.mul_le_mul_right _ (mantissa_le m)
      _ = 2 ^ 52 * 2 ^ (m.log2 - 52 + 1) := by rw [step, Nat.pow_succ]; ring
      _ ≤ 2 ^ 52 * step n :=
        Nat.mul_le_mul_left _ (Nat.pow_le_pow_right (by decide) (by omega))
      _ ≤ rounded n := Nat.mul_le_mul_right _ (le_mantissa (by omega))

theorem rounded_eq_self_of_dvd (h : step n ∣ n) : rounded n = n := by
  obtain ⟨k, hk⟩ := h
  have hround : roundHalfEven n (step n) = k := by
    calc roundHalfEven n (step n) = roundHalfEven (k * step n) (step n) := by
          rw [Nat.mul_comm k, ← hk]
      _ = k := roundHalfEven_mul_self k (step_pos n)
  rw [rounded, hround, Nat.mul_comm]
  exact hk.symm

/-- **Naturals up to `2 ^ 53` are left as they are.** -/
theorem rounded_eq_self (h : n ≤ 2 ^ 53) : rounded n = n := by
  refine rounded_eq_self_of_dvd ?_
  rcases Nat.eq_or_lt_of_le h with rfl | hlt
  · decide
  · have hlog : n.log2 ≤ 52 := log2_le_of_lt hlt
    rw [step, Nat.sub_eq_zero_of_le hlog, Nat.pow_zero]
    exact Nat.one_dvd n

theorem log2_mul_two_pow (h : n ≠ 0) : (n * 2 ^ k).log2 = n.log2 + k := by
  have hne : n * 2 ^ k ≠ 0 := Nat.mul_ne_zero h (Nat.two_pow_pos k).ne'
  rw [Nat.log2_eq_iff hne, Nat.pow_add, Nat.add_right_comm, Nat.pow_add]
  exact ⟨Nat.mul_le_mul_right _ (Nat.log2_self_le h),
    Nat.mul_lt_mul_of_pos_right Nat.lt_log2_self (Nat.two_pow_pos k)⟩

/-- The significant bits do not depend on the unit. -/
theorem rounded_mul_two_pow (n k : Nat) : rounded (n * 2 ^ k) = rounded n * 2 ^ k := by
  rcases Nat.eq_zero_or_pos n with rfl | hpos
  · rw [Nat.zero_mul, rounded_eq_self (Nat.zero_le _), Nat.zero_mul]
  have hlog : (n * 2 ^ k).log2 = n.log2 + k := log2_mul_two_pow hpos.ne'
  by_cases hlarge : 52 ≤ n.log2
  · have hstep : step (n * 2 ^ k) = step n * 2 ^ k := by
      rw [step, step, hlog, ← Nat.pow_add]
      congr 1
      omega
    rw [rounded, hstep, roundHalfEven_mul_mul (Nat.two_pow_pos k), rounded, Nat.mul_assoc]
  · have hsmall : n ≤ 2 ^ 53 :=
      (Nat.lt_log2_self.trans_le (Nat.pow_le_pow_right (by decide) (by omega))).le
    have hdvd : step (n * 2 ^ k) ∣ n * 2 ^ k := by
      rw [step, hlog]
      exact (Nat.pow_dvd_pow 2 (by omega)).mul_left n
    rw [rounded_eq_self_of_dvd hdvd, rounded_eq_self hsmall]

/-- **What the format makes of a natural.** -/
theorem exists_ofNat? (h : n < 2 ^ 64) :
    ∃ x, ofNat? n = some x ∧ x.units = rounded n * one := by
  have hlog : (n * one).log2 ≤ 1137 := by
    rcases Nat.eq_zero_or_pos n with rfl | hpos
    · rw [Nat.zero_mul]
      decide
    · have hn : n.log2 ≤ 63 := log2_le_of_lt h
      rw [one_eq, log2_mul_two_pow hpos.ne']
      omega
  have hrounded : rounded n * one = rounded (n * one) := by
    rw [one_eq, rounded_mul_two_pow]
  rw [ofNat?, ofRatio?, hrounded]
  generalize n * one = units at hlog
  have hden : 1 * Nat.pow 2 (units.log2 - 52) = step units := Nat.one_mul _
  have hscale : units.log2 - 52 + 1 ≤ maxScale := by
    simp only [maxScale]
    omega
  have hmantissa := mantissa_le units
  simp only [ofUnits?, Nat.div_one, hden]
  by_cases hlt : roundHalfEven units (step units) < 2 * leastNormal
  · simp only [hlt, if_true, Nat.le_of_succ_le hscale]
    exact ⟨_, rfl, rfl⟩
  · simp only [hlt, if_false, hscale, if_true]
    refine ⟨_, rfl, ?_⟩
    -- a mantissa of `2 ^ 53` is halved, and its scale is the next one
    have heq : roundHalfEven units (step units) = 2 * leastNormal := by
      simp only [leastNormal] at hlt ⊢
      omega
    have hpow : Nat.pow 2 (units.log2 - 52 + 1) = 2 * step units := Nat.pow_succ'
    rw [Binary64.units, hpow, rounded, heq]
    ring

/-! ## Integers -/

/-- The integer with 53 significant bits that is nearest to `v`. -/
def nearest (v : Int) : Int := v.sign * rounded v.natAbs

variable {v w : Int}

theorem nearest_natCast (n : Nat) : nearest n = rounded n := by
  rcases Nat.eq_zero_or_pos n with rfl | hpos
  · rw [rounded_eq_self (Nat.zero_le _)]
    rfl
  · rw [nearest, Int.sign_natCast_of_ne_zero hpos.ne', Int.natAbs_natCast, one_mul]

theorem nearest_neg (v : Int) : nearest (-v) = -nearest v := by
  rw [nearest, nearest, Int.sign_neg, Int.natAbs_neg, neg_mul]

theorem nearest_mono (h : v ≤ w) : nearest v ≤ nearest w := by
  have hnat : ∀ {m n : Nat}, m ≤ n → nearest m ≤ nearest n := by
    intro m n hmn
    rw [nearest_natCast, nearest_natCast]
    exact Int.ofNat_le.mpr (rounded_mono hmn)
  have hnonneg : ∀ n : Nat, 0 ≤ nearest n := fun n => hnat n.zero_le
  obtain ⟨m, rfl | rfl⟩ := v.eq_nat_or_neg <;> obtain ⟨n, rfl | rfl⟩ := w.eq_nat_or_neg
  · exact hnat (Int.ofNat_le.mp h)
  · obtain ⟨rfl, rfl⟩ : m = 0 ∧ n = 0 := by omega
    exact le_rfl
  · rw [nearest_neg]
    exact (neg_nonpos.mpr (hnonneg m)).trans (hnonneg n)
  · rw [nearest_neg, nearest_neg]
    exact neg_le_neg (hnat (by omega))

theorem nearest_eq_self (h : v.natAbs ≤ 2 ^ 53) : nearest v = v := by
  rw [nearest, rounded_eq_self h, Int.sign_mul_natAbs]

theorem rounded_error (h : n < 2 ^ 64) :
    rounded n ≤ n + 2 ^ 10 ∧ n ≤ rounded n + 2 ^ 10 := by
  have hlog : n.log2 ≤ 63 := log2_le_of_lt h
  have hstep : step n ≤ 2 ^ 11 := Nat.pow_le_pow_right (by decide) (by omega)
  have hupper := roundHalfEven_le n (step n)
  have hlower := le_roundHalfEven n (step_pos n)
  rw [rounded]
  omega

/-- An integer of at most 64 bits is moved by half a step of `2 ^ 11` at most. -/
theorem nearest_error (h : v.natAbs < 2 ^ 64) :
    nearest v ≤ v + 2 ^ 10 ∧ v ≤ nearest v + 2 ^ 10 := by
  obtain ⟨n, rfl | rfl⟩ := v.eq_nat_or_neg
  · have := rounded_error (n := n) (by omega)
    rw [nearest_natCast]
    omega
  · have := rounded_error (n := n) (by omega)
    rw [nearest_neg, nearest_natCast]
    omega

/-- **Different integers with one value are close together and far from zero.** -/
theorem close_of_nearest_eq (hv : v.natAbs < 2 ^ 64) (hw : w.natAbs < 2 ^ 64) (h : v < w)
    (heq : nearest v = nearest w) : 2 ^ 53 ≤ v.natAbs ∧ 2 ^ 53 ≤ w.natAbs ∧ w ≤ v + 2 ^ 11 := by
  have hverror := nearest_error hv
  have hwerror := nearest_error hw
  -- an end that is not rounded has a neighbour towards the other one that is not rounded either
  have hleft : 2 ^ 53 ≤ v.natAbs := by
    by_contra hsmall
    have hself : nearest v = v := nearest_eq_self (by omega)
    have hnext : nearest (v + 1) = v + 1 := nearest_eq_self (by omega)
    have hmono : nearest (v + 1) ≤ nearest w := nearest_mono h
    omega
  have hright : 2 ^ 53 ≤ w.natAbs := by
    by_contra hsmall
    have hself : nearest w = w := nearest_eq_self (by omega)
    have hprevious : nearest (w - 1) = w - 1 := nearest_eq_self (by omega)
    have hmono : nearest v ≤ nearest (w - 1) := nearest_mono (by omega)
    omega
  exact ⟨hleft, hright, by omega⟩

/-- **The value of an integer of at most 64 bits.** -/
theorem signedUnits_toBinary64 (h : v.natAbs < 2 ^ 64) :
    (JsonNumber.integer v).toBinary64.signedUnits = nearest v * one := by
  obtain ⟨x, hx, hunits⟩ := exists_ofNat? h
  rw [JsonNumber.toBinary64, hx, Option.getD_some]
  have hsigned : (x.withSign (v < 0)).signedUnits =
      if v < 0 then -((rounded v.natAbs * one : Nat) : Int)
      else (rounded v.natAbs * one : Nat) := by
    rw [← hunits]
    by_cases hneg : v < 0 <;> simp [signedUnits, withSign, units, hneg]
  rw [hsigned]
  rcases lt_or_ge v 0 with hneg | hnonneg
  · obtain ⟨n, rfl⟩ := Int.exists_eq_neg_ofNat hneg.le
    rw [if_pos hneg, nearest_neg, nearest_natCast, Int.natAbs_neg, Int.natAbs_natCast,
      Int.natCast_mul, neg_mul]
  · obtain ⟨n, rfl⟩ := Int.eq_ofNat_of_zero_le hnonneg
    rw [if_neg hnonneg.not_gt, nearest_natCast, Int.natAbs_natCast, Int.natCast_mul]

end Binary64

end CollectionSchema
