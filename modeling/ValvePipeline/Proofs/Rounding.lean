import Mathlib.Data.Nat.Dist
import ValvePipeline.Binary64.Basic

/-!
Rounding to the binary format. A rounded magnitude is one of the format, and none of the format is closer to
what was rounded; of two equally close ones it is the even one. So rounding keeps the order of magnitudes, though
it may make two of them equal, and it keeps the magnitudes of the format as they are, whole numbers of at most
2 ^ 53 among them.
-/

set_option autoImplicit false
set_option relaxedAutoImplicit false

namespace ValvePipeline.Binary64

/-- A magnitude of the format, but for the bound: at most 53 binary digits and zeros after them. -/
def Representable (units : Nat) : Prop :=
  ∃ significand exponent, significand < 2 ^ 53 ∧ units = significand * 2 ^ exponent

def EvenSignificand (units : Nat) : Prop :=
  ∃ significand exponent, 2 ^ 52 ≤ significand ∧ significand < 2 ^ 53 ∧ significand % 2 = 0 ∧
    units = significand * 2 ^ exponent

variable {num den u v g : Nat}

theorem roundQuotient_cases (num den : Nat) :
    (roundQuotient num den = num / den ∧ 2 * (num % den) ≤ den ∧
        (2 * (num % den) = den → num / den % 2 = 0)) ∨
      (roundQuotient num den = num / den + 1 ∧ den ≤ 2 * (num % den) ∧
        (2 * (num % den) = den → (num / den + 1) % 2 = 0)) := by
  unfold roundQuotient
  dsimp only
  split
  next h =>
    simp only [Bool.or_eq_true, decide_eq_true_eq, Bool.and_eq_true, beq_iff_eq] at h
    exact .inl ⟨rfl, by omega, by omega⟩
  next h =>
    simp only [Bool.or_eq_true, decide_eq_true_eq, Bool.and_eq_true, beq_iff_eq] at h
    exact .inr ⟨rfl, by omega, by omega⟩

theorem dist_roundQuotient (num : Nat) (hden : 0 < den) :
    (roundQuotient num den = num / den → Nat.dist (roundQuotient num den * den) num = num % den) ∧
      (roundQuotient num den = num / den + 1 →
        Nat.dist (roundQuotient num den * den) num = den - num % den) := by
  have hparts := Nat.div_add_mod num den
  have hmod := Nat.mod_lt num hden
  rw [Nat.mul_comm] at hparts
  constructor
  · intro hdown
    rw [hdown]
    unfold Nat.dist
    omega
  · intro hup
    rw [hup, Nat.succ_mul]
    unfold Nat.dist
    omega

theorem dist_roundQuotient_le (num : Nat) (hden : 0 < den) :
    2 * Nat.dist (roundQuotient num den * den) num ≤ den := by
  obtain ⟨hdown, hup⟩ := dist_roundQuotient num hden
  rcases roundQuotient_cases num den with ⟨h, hrest, -⟩ | ⟨h, hrest, -⟩
  · rw [hdown h]
    exact hrest
  · rw [hup h]
    omega

theorem roundQuotient_even (hden : 0 < den)
    (htie : 2 * Nat.dist (roundQuotient num den * den) num = den) : roundQuotient num den % 2 = 0 := by
  obtain ⟨hdown, hup⟩ := dist_roundQuotient num hden
  have hmod := Nat.mod_lt num hden
  rcases roundQuotient_cases num den with ⟨h, -, heven⟩ | ⟨h, -, heven⟩
  · rw [hdown h] at htie
    rw [h]
    exact heven htie
  · rw [hup h] at htie
    rw [h]
    exact heven (by omega)

theorem le_dist_mul {k r : Nat} (h : k ≠ r) : den ≤ Nat.dist (k * den) (r * den) := by
  rw [Nat.dist_mul_right]
  exact Nat.le_mul_of_pos_left den (Nat.dist_pos_of_ne h)

theorem dist_roundQuotient_le_dist (num k : Nat) (hden : 0 < den) :
    Nat.dist (roundQuotient num den * den) num ≤ Nat.dist (k * den) num := by
  have hhalf := dist_roundQuotient_le num hden
  by_cases heq : k = roundQuotient num den
  · rw [heq]
  · have hfar : den ≤ Nat.dist (k * den) (roundQuotient num den * den) := le_dist_mul heq
    unfold Nat.dist at *
    omega

theorem nearest_one (u : Nat) :
    nearest u 1 = roundQuotient u (2 ^ gapExponent u) * 2 ^ gapExponent u := by
  rw [nearest, Nat.div_one, Nat.one_mul]
  rfl

theorem lt_of_gapExponent (u : Nat) : u < 2 ^ 53 * 2 ^ gapExponent u := by
  rw [← Nat.pow_add]
  refine Nat.lt_of_lt_of_le Nat.lt_log2_self (Nat.pow_le_pow_right (by decide) ?_)
  unfold gapExponent
  omega

theorem le_of_gapExponent (h : gapExponent u ≠ 0) : 2 ^ 52 * 2 ^ gapExponent u ≤ u := by
  unfold gapExponent at h ⊢
  have hu : u ≠ 0 := by
    rintro rfl
    exact h rfl
  rw [← Nat.pow_add, Nat.add_sub_cancel' (by omega)]
  exact Nat.log2_self_le hu

theorem roundQuotient_gap_le (u : Nat) : roundQuotient u (2 ^ gapExponent u) ≤ 2 ^ 53 := by
  have hquotient : u / 2 ^ gapExponent u < 2 ^ 53 :=
    (Nat.div_lt_iff_lt_mul (Nat.two_pow_pos _)).mpr (lt_of_gapExponent u)
  rcases roundQuotient_cases u (2 ^ gapExponent u) with ⟨h, -⟩ | ⟨h, -⟩ <;> omega

theorem representable_nearest (u : Nat) : Representable (nearest u 1) := by
  rw [nearest_one]
  rcases Nat.lt_or_eq_of_le (roundQuotient_gap_le u) with hlt | heq
  · exact ⟨_, _, hlt, rfl⟩
  · refine ⟨1, 53 + gapExponent u, by decide, ?_⟩
    rw [heq, Nat.pow_add, Nat.one_mul]

theorem nearest_of_gap_zero (h : gapExponent u = 0) : nearest u 1 = u := by
  rw [nearest_one, h, Nat.pow_zero, Nat.mul_one]
  rcases roundQuotient_cases u 1 with ⟨hround, -⟩ | ⟨-, hrest, -⟩
  · rw [hround, Nat.div_one]
  · omega

theorem Representable.dvd {s : Nat} (hg : Representable g) (hle : 2 ^ 52 * 2 ^ s ≤ g) : 2 ^ s ∣ g := by
  obtain ⟨m, q, hm, rfl⟩ := hg
  have hsq : s ≤ q := by
    have hlt : 2 ^ (52 + s) < 2 ^ (53 + q) := by
      rw [Nat.pow_add, Nat.pow_add]
      exact Nat.lt_of_le_of_lt hle (Nat.mul_lt_mul_of_pos_right hm (Nat.two_pow_pos q))
    have := (Nat.pow_lt_pow_iff_right (by decide)).mp hlt
    omega
  exact Nat.dvd_trans (Nat.pow_dvd_pow 2 hsq) (Nat.dvd_mul_left _ _)

/-- No magnitude of the format is closer than the rounded one. -/
theorem dist_nearest_le (u : Nat) (hg : Representable g) : Nat.dist (nearest u 1) u ≤ Nat.dist g u := by
  have hpos : 0 < 2 ^ gapExponent u := Nat.two_pow_pos _
  by_cases hgap : gapExponent u = 0
  · rw [nearest_of_gap_zero hgap, Nat.dist_self]
    exact Nat.zero_le _
  · rw [nearest_one]
    by_cases hle : 2 ^ 52 * 2 ^ gapExponent u ≤ g
    · obtain ⟨k, rfl⟩ := hg.dvd hle
      rw [Nat.mul_comm _ k]
      exact dist_roundQuotient_le_dist u k hpos
    · -- A smaller one is farther away than the least one that uses all digits.
      have hleast := le_of_gapExponent hgap
      have hbest := dist_roundQuotient_le_dist u (2 ^ 52) hpos
      unfold Nat.dist at *
      omega

theorem nearest_eq_self (h : Representable u) : nearest u 1 = u := by
  have hle := dist_nearest_le u h
  rw [Nat.dist_self, Nat.le_zero] at hle
  exact Nat.eq_of_dist_eq_zero hle

theorem two_mul_dist_nearest_of_tie (hg : Representable g) (hne : g ≠ nearest u 1)
    (htie : Nat.dist g u = Nat.dist (nearest u 1) u) :
    gapExponent u ≠ 0 ∧ 2 * Nat.dist (nearest u 1) u = 2 ^ gapExponent u := by
  have hpos : 0 < 2 ^ gapExponent u := Nat.two_pow_pos _
  have hgap : gapExponent u ≠ 0 := by
    intro hzero
    have hself := nearest_of_gap_zero hzero
    rw [hself, Nat.dist_self] at htie
    exact hne ((Nat.eq_of_dist_eq_zero htie).trans hself.symm)
  refine ⟨hgap, ?_⟩
  have hleast := le_of_gapExponent hgap
  have hbest := dist_roundQuotient_le_dist u (2 ^ 52) hpos
  have hhalf := dist_roundQuotient_le u hpos
  rw [nearest_one] at hne htie ⊢
  have hlow : 2 ^ 52 * 2 ^ gapExponent u ≤ g := by
    unfold Nat.dist at *
    omega
  obtain ⟨k, rfl⟩ := hg.dvd hlow
  rw [Nat.mul_comm _ k] at hne htie
  have hfar : 2 ^ gapExponent u ≤ Nat.dist (k * 2 ^ gapExponent u)
      (roundQuotient u (2 ^ gapExponent u) * 2 ^ gapExponent u) :=
    le_dist_mul (fun heq => hne (by rw [heq]))
  unfold Nat.dist at *
  omega

/-- Of two equally close magnitudes of the format, the one with the even significand is taken. -/
theorem nearest_even (hg : Representable g) (hne : g ≠ nearest u 1)
    (htie : Nat.dist g u = Nat.dist (nearest u 1) u) : EvenSignificand (nearest u 1) := by
  have hpos : 0 < 2 ^ gapExponent u := Nat.two_pow_pos _
  obtain ⟨hgap, hhalf⟩ := two_mul_dist_nearest_of_tie hg hne htie
  have hlow : 2 ^ 52 ≤ roundQuotient u (2 ^ gapExponent u) := by
    have hquotient : 2 ^ 52 ≤ u / 2 ^ gapExponent u :=
      (Nat.le_div_iff_mul_le hpos).mpr (le_of_gapExponent hgap)
    rcases roundQuotient_cases u (2 ^ gapExponent u) with ⟨h, -⟩ | ⟨h, -⟩ <;> omega
  rw [nearest_one] at hhalf ⊢
  have heven := roundQuotient_even hpos hhalf
  rcases Nat.lt_or_eq_of_le (roundQuotient_gap_le u) with hlt | heq
  · exact ⟨_, _, hlow, hlt, heven, rfl⟩
  · refine ⟨2 ^ 52, 1 + gapExponent u, Nat.le_refl _, by decide, by decide, ?_⟩
    rw [heq, Nat.pow_add 2 1, ← Nat.mul_assoc, ← Nat.pow_add 2 52 1]

theorem nearest_mono (h : u ≤ v) : nearest u 1 ≤ nearest v 1 := by
  rcases Nat.eq_or_lt_of_le h with rfl | hlt
  · exact Nat.le_refl _
  · have hu := dist_nearest_le u (representable_nearest v)
    have hv := dist_nearest_le v (representable_nearest u)
    unfold Nat.dist at hu hv
    omega

theorem exists_one_eq : ∃ s, one = 2 ^ s := by
  unfold one
  generalize 1074 = n
  exact ⟨n, rfl⟩

theorem one_pos : 0 < one := by
  obtain ⟨s, hs⟩ := exists_one_eq
  rw [hs]
  exact Nat.two_pow_pos s

variable {m n : Nat} {i j : Int}

theorem representable_mul_one (h : n ≤ 2 ^ 53) : Representable (n * one) := by
  obtain ⟨s, hs⟩ := exists_one_eq
  rw [hs]
  rcases Nat.lt_or_eq_of_le h with hlt | rfl
  · exact ⟨n, s, hlt, rfl⟩
  · exact ⟨1, 53 + s, by decide, by rw [Nat.pow_add, Nat.one_mul]⟩

theorem ofNat_eq (h : n ≤ 2 ^ 53) : ofNat n = n * one :=
  nearest_eq_self (representable_mul_one h)

theorem ofNat_mono (h : m ≤ n) : ofNat m ≤ ofNat n :=
  nearest_mono (Nat.mul_le_mul_right one h)

theorem value_ofInt (i : Int) :
    (ofInt i).value = if i < 0 then -(ofNat i.natAbs : Int) else ofNat i.natAbs := by
  simp only [value, ofInt, decide_eq_true_eq]

theorem value_ofInt_mono (h : i ≤ j) : (ofInt i).value ≤ (ofInt j).value := by
  rw [value_ofInt, value_ofInt]
  split <;> split
  · have := ofNat_mono (m := j.natAbs) (n := i.natAbs) (by omega)
    omega
  · omega
  · omega
  · have := ofNat_mono (m := i.natAbs) (n := j.natAbs) (by omega)
    omega

theorem mul_one_eq (i : Int) :
    i * one = if i < 0 then -((i.natAbs * one : Nat) : Int) else (i.natAbs * one : Nat) := by
  rw [Int.natCast_mul]
  split
  next hneg => rw [← Int.neg_mul, Int.ofNat_natAbs_of_nonpos (Int.le_of_lt hneg), Int.neg_neg]
  next hpos => rw [Int.natAbs_of_nonneg (Int.not_lt.mp hpos)]

theorem value_ofInt_eq (h : i.natAbs ≤ 2 ^ 53) : (ofInt i).value = i * one := by
  rw [value_ofInt, ofNat_eq h, mul_one_eq]

theorem representable_zero : Representable 0 :=
  ⟨0, 0, by decide, rfl⟩

/-- The number stands for a whole number in the format: none of the format is closer, and when another one is as
close its significand is even. -/
structure Rounds (i : Int) (x : Binary64) : Prop where
  representable : Representable x.units
  closest : ∀ y : Binary64, Representable y.units →
    (x.value - i * one).natAbs ≤ (y.value - i * one).natAbs
  even : ∀ y : Binary64, Representable y.units → y.value ≠ x.value →
    (y.value - i * one).natAbs = (x.value - i * one).natAbs → EvenSignificand x.units

theorem closest_ofInt (i : Int) {y : Binary64} (hy : Representable y.units) :
    ((ofInt i).value - i * one).natAbs ≤ (y.value - i * one).natAbs := by
  have hzero := dist_nearest_le (i.natAbs * one) representable_zero
  have hunits := dist_nearest_le (i.natAbs * one) hy
  rw [mul_one_eq, value_ofInt, ofNat, value]
  generalize i.natAbs * one = u at *
  unfold Nat.dist at hzero hunits
  split <;> split <;> omega

theorem units_of_tie (i : Int) {y : Binary64} (hne : y.value ≠ (ofInt i).value)
    (htie : (y.value - i * one).natAbs = ((ofInt i).value - i * one).natAbs) :
    y.units ≠ ofNat i.natAbs ∧
      Nat.dist y.units (i.natAbs * one) = Nat.dist (ofNat i.natAbs) (i.natAbs * one) := by
  have hzero := dist_nearest_le (i.natAbs * one) representable_zero
  rw [mul_one_eq, value_ofInt, value] at htie
  rw [value_ofInt, value] at hne
  rw [ofNat] at *
  generalize i.natAbs * one = u at *
  unfold Nat.dist at *
  by_cases hi : i < 0 <;> cases hy : y.negative <;>
    simp only [hi, hy, if_true, if_false, Bool.false_eq_true] at hne htie <;> omega

theorem rounds_ofInt (i : Int) : Rounds i (ofInt i) where
  representable := representable_nearest _
  closest _ hy := closest_ofInt i hy
  even y hy hne htie := by
    obtain ⟨hunits, hdist⟩ := units_of_tie i hne htie
    exact nearest_even hy hunits hdist

theorem value_ofInt_lt_of_le (h : i < j) (hi : i.natAbs ≤ 2 ^ 53) (hj : j.natAbs ≤ 2 ^ 53) :
    (ofInt i).value < (ofInt j).value := by
  rw [value_ofInt_eq hi, value_ofInt_eq hj]
  exact Int.mul_lt_mul_of_pos_right h (Int.natCast_pos.mpr one_pos)

def Apart (i j : Int) : Prop :=
  i.natAbs < 2 ^ 53 ∨ j.natAbs < 2 ^ 53 ∨ (i.natAbs ≤ 2 ^ 53 ∧ j.natAbs ≤ 2 ^ 53)

theorem Apart.symm (h : Apart i j) : Apart j i := by
  unfold Apart at *
  omega

/-- Rounding does not make such numbers equal: the neighbour of the smaller one is between them. -/
theorem value_ofInt_lt (h : i < j) (hapart : Apart i j) : (ofInt i).value < (ofInt j).value := by
  rcases hapart with hi | hj | ⟨hi, hj⟩
  · calc (ofInt i).value < (ofInt (i + 1)).value := value_ofInt_lt_of_le (by omega) (by omega) (by omega)
      _ ≤ (ofInt j).value := value_ofInt_mono (by omega)
  · calc (ofInt i).value ≤ (ofInt (j - 1)).value := value_ofInt_mono (by omega)
      _ < (ofInt j).value := value_ofInt_lt_of_le (by omega) (by omega) (by omega)
  · exact value_ofInt_lt_of_le h hi hj

end ValvePipeline.Binary64
