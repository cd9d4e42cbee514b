import FrameOverlay.TimeBase
import Mathlib.Algebra.Order.Field.Basic
import Mathlib.Algebra.Order.Ring.Rat
import Mathlib.Tactic.FieldSimp
import Mathlib.Tactic.Linarith
import Mathlib.Tactic.Ring

/-!
# Scaling to the nearest tick

What it means that an integer is the rounding of a fraction, that adding half the divisor before a division
toward zero gives it, and what follows for timestamps.

* `RoundsTo` — nearest, and of two nearest integers the one further from zero;
* `RoundsTo.unique`, `RoundsTo.mono` — a number has one rounding, and rounding keeps the order;
* `RoundsTo.of_remainder` — the rounding of a fraction, seen from what a division leaves;
* `TimeBase.roundedQuotient_nearest`, `TimeBase.roundedQuotient_beyond` — half the divisor is added, then
  the division cuts off, if a 128-bit word holds the sum; otherwise there is no quotient;
* `TimeBase.scaled`, `TimeBase.Fits` — ticks in ticks of another base, exactly, and what words of 128 bits
  are wide enough for;
* `TimeBase.rescale_rounds` — **timestamps are scaled to the nearest** if they fit, and just then;
* `TimeBase.rescale_overflows` — a timestamp that does not fit, although the nearest tick is a timestamp.
-/

namespace FrameOverlay

/-- `q` is an integer nearest to `x`, and if there are two, the one further from zero. -/
structure RoundsTo (x : ℚ) (q : ℤ) : Prop where
  nearest (k : ℤ) : |x - q| ≤ |x - k|
  away (k : ℤ) : |x - k| = |x - q| → |k| ≤ |q|

namespace RoundsTo

variable {x y : ℚ} {q r n d : ℤ}

theorem unique (h : RoundsTo x q) (h' : RoundsTo x r) : q = r := by
  have close : |x - r| = |x - q| := le_antisymm (h'.nearest q) (h.nearest r)
  have size : |q| = |r| := le_antisymm (h'.away q close.symm) (h.away r close)
  rcases abs_eq_abs.1 size with same | opposite
  · exact same
  · -- zero lies between two opposite integers, and is not further off than both
    subst opposite
    have left := sq_le_sq.2 (h.nearest 0)
    have right := sq_le_sq.2 (h'.nearest 0)
    push_cast at left right
    have none : (r : ℚ) = 0 := by nlinarith
    have none : r = 0 := Int.cast_eq_zero.1 none
    rw [none, neg_zero]

theorem mono (h : RoundsTo x q) (h' : RoundsTo y r) (le : x ≤ y) : q ≤ r := by
  by_contra above
  have above : (r : ℚ) < q := by exact_mod_cast not_le.1 above
  have left := sq_le_sq.2 (h.nearest r)
  have right := sq_le_sq.2 (h'.nearest q)
  have same : x = y := by nlinarith
  subst same
  exact absurd (congrArg Int.cast (h.unique h') : (q : ℚ) = r) above.ne'

/-- An integer is its own rounding. -/
theorem intCast (n : ℤ) : RoundsTo n n := by
  refine ⟨fun k => ?_, fun k same => ?_⟩
  · rw [sub_self, abs_zero]
    exact abs_nonneg _
  · rw [sub_self, abs_zero, abs_eq_zero, sub_eq_zero, Int.cast_inj] at same
    rw [same]

theorem neg (h : RoundsTo x q) : RoundsTo (-x) (-q) := by
  have mirror (k : ℤ) : |-x - k| = |x - (-k : ℤ)| := by
    rw [← abs_neg]
    congr 1
    push_cast
    ring
  refine ⟨fun k => ?_, fun k close => ?_⟩
  · rw [mirror, mirror, neg_neg]
    exact h.nearest (-k)
  · rw [mirror, mirror, neg_neg] at close
    rw [abs_neg, ← abs_neg k]
    exact h.away (-k) close

/-- How far an integer is from a fraction, counted in parts of the divisor. -/
theorem distance (pos : 0 < d) (k : ℤ) : |(n : ℚ) / d - k| = (|n - k * d| : ℤ) / d := by
  have pos : (0 : ℚ) < d := Int.cast_pos.2 pos
  have parts : (n : ℚ) / d - k = ((n - k * d : ℤ) : ℚ) / d := by
    push_cast
    field_simp
  rw [parts, abs_div, abs_of_pos pos, Int.cast_abs]

/-- A quotient that leaves at most half the divisor is the rounding, if on a tie it is beyond the
fraction. -/
theorem of_remainder (pos : 0 < d) (close : 2 * |n - q * d| ≤ d)
    (tie : 2 * |n - q * d| = d → |n| ≤ |q| * d) : RoundsTo ((n : ℚ) / d) q := by
  have cast_pos : (0 : ℚ) < d := Int.cast_pos.2 pos
  -- the whole divisor lies between what the quotient leaves and what another integer leaves
  have between (k : ℤ) (other : k ≠ q) : d ≤ |n - q * d| + |n - k * d| := by
    have one : 1 ≤ |k - q| := Int.one_le_abs (sub_ne_zero.2 other)
    calc d = 1 * |d| := by rw [one_mul, abs_of_pos pos]
      _ ≤ |k - q| * |d| := mul_le_mul_of_nonneg_right one (abs_nonneg d)
      _ = |(n - q * d) - (n - k * d)| := by rw [← abs_mul]; congr 1; ring
      _ ≤ |n - q * d| + |n - k * d| := abs_sub _ _
  refine ⟨fun k => ?_, fun k same => ?_⟩
  · rw [distance pos, distance pos]
    refine div_le_div_of_nonneg_right (Int.cast_le.2 ?_) cast_pos.le
    by_cases other : k = q
    · rw [other]
    · have := between k other
      omega
  · rw [distance pos, distance pos, div_left_inj' cast_pos.ne', Int.cast_inj] at same
    by_cases other : k = q
    · rw [other]
    · -- the fraction lies in the middle of `k` and `q`, which are next to each other, and not beyond `q`
      have beyond := tie (by have := between k other; omega)
      have middle : (k + q) * d = 2 * n := by
        rcases abs_eq_abs.1 same with equal | opposite
        · exact absurd (mul_right_cancel₀ pos.ne' (by linarith)) other
        · linarith
      have gap : |k - q| ≤ 1 := by
        refine le_of_mul_le_mul_right ?_ pos
        calc |k - q| * d = |(k - q) * d| := by rw [abs_mul, abs_of_pos pos]
          _ = 2 * |n - q * d| := by
            rw [show (k - q) * d = 2 * (n - q * d) by linarith, abs_mul, abs_two]
          _ ≤ 1 * d := by rwa [one_mul]
      have sum : |k + q| ≤ 2 * |q| := by
        refine le_of_mul_le_mul_right ?_ pos
        calc |k + q| * d = |(k + q) * d| := by rw [abs_mul, abs_of_pos pos]
          _ = 2 * |n| := by rw [middle, abs_mul, abs_two]
          _ ≤ 2 * |q| * d := by linarith
      rw [Int.abs_eq_natAbs, Int.abs_eq_natAbs] at *
      omega

/-- Half the divisor is added, and the division cuts off what is left. -/
theorem of_nonneg (pos : 0 < d) (nonneg : 0 ≤ n) : RoundsTo ((n : ℚ) / d) ((n + d / 2) / d) := by
  have whole := Int.emod_add_mul_ediv (n + d / 2) d
  have low := Int.emod_nonneg (n + d / 2) pos.ne'
  have high := Int.emod_lt_of_pos (n + d / 2) pos
  have sum : 0 ≤ (n + d / 2) / d := Int.ediv_nonneg (by omega) pos.le
  generalize (n + d / 2) / d = q at *
  generalize (n + d / 2) % d = r at *
  rw [mul_comm] at whole
  refine of_remainder pos ?_ fun tied => ?_
  · rw [Int.abs_eq_natAbs]
    omega
  · rw [abs_of_nonneg sum, abs_of_nonneg nonneg]
    rw [Int.abs_eq_natAbs] at tied
    omega

end RoundsTo

namespace TimeBase

theorem wide_of_within {m : ℤ} (low : -wordEnd ≤ m) (high : m < wordEnd) : wide m = .ok m :=
  if_pos ⟨low, high⟩

theorem wide_of_beyond {m : ℤ} (beyond : ¬(-wordEnd ≤ m ∧ m < wordEnd)) : wide m = .error .overflow :=
  if_neg beyond

/-- A word divided by a positive word is one. -/
theorem wideQuotient_eq {m d : ℤ} (low : -wordEnd ≤ m) (high : m < wordEnd) (pos : 0 < d) :
    wideQuotient m d = .ok (m.tdiv d) := by
  have within : -wordEnd ≤ m.tdiv d ∧ m.tdiv d < wordEnd := by
    rcases le_total 0 m with nonneg | nonpos
    · rw [Int.tdiv_eq_ediv_of_nonneg nonneg]
      have below := Int.ediv_le_self d nonneg
      have above := Int.ediv_nonneg nonneg pos.le
      omega
    · have mirrored : m.tdiv d = -(-m / d) := by
        rw [← Int.tdiv_eq_ediv_of_nonneg (by omega), Int.neg_tdiv, neg_neg]
      have below := Int.ediv_le_self d (neg_nonneg.2 nonpos)
      have above := Int.ediv_nonneg (neg_nonneg.2 nonpos) pos.le
      omega
  unfold wideQuotient
  rw [if_neg pos.ne', wide_of_within within.1 within.2]

/-- Half the divisor is added, and the division toward zero cuts off what is left. -/
theorem roundedQuotient_nearest {n d : ℤ} (pos : 0 < d) (low : -wordEnd ≤ n - d / 2)
    (high : n + d / 2 < wordEnd) :
    ∃ q, RoundsTo ((n : ℚ) / d) q ∧ roundedQuotient n d = .ok q := by
  have half : d.tdiv 2 = d / 2 := Int.tdiv_eq_ediv_of_nonneg pos.le
  unfold roundedQuotient
  simp only [half]
  split
  · next nonneg =>
    refine ⟨_, .of_nonneg pos nonneg, ?_⟩
    have cut : (n + d / 2).tdiv d = (n + d / 2) / d := Int.tdiv_eq_ediv_of_nonneg (by omega)
    rw [wide_of_within (by omega) high, ← cut]
    exact wideQuotient_eq (by omega) high pos
  · next negative =>
    have mirrored := (RoundsTo.of_nonneg pos (n := -n) (by omega)).neg
    have sign : -((-n + d / 2) / d) = (n - d / 2).tdiv d := by
      rw [← Int.tdiv_eq_ediv_of_nonneg (by omega), ← Int.neg_tdiv]
      congr 1
      ring
    rw [sign, Int.cast_neg, neg_div, neg_neg] at mirrored
    refine ⟨_, mirrored, ?_⟩
    rw [wide_of_within low (by omega)]
    exact wideQuotient_eq low (by omega) pos

/-- There is no quotient if half the divisor leads out of a word. -/
theorem roundedQuotient_beyond {n d : ℤ} (pos : 0 < d)
    (beyond : ¬(-wordEnd ≤ n - d / 2 ∧ n + d / 2 < wordEnd)) :
    roundedQuotient n d = .error .overflow := by
  have half : d.tdiv 2 = d / 2 := Int.tdiv_eq_ediv_of_nonneg pos.le
  unfold roundedQuotient
  simp only [half]
  rw [wide_of_beyond]
  · rfl
  · split <;> omega

/-! ### Scaling -/

/-- Numerator of a scaled timestamp. -/
def scaleNum (b : TimeBase) (t : Timestamp) (target : TimeBase) : ℤ :=
  t.toInt * b.num.toInt * target.den.toInt

/-- Divisor of a scaled timestamp. -/
def scaleDen (b target : TimeBase) : ℤ := b.den.toInt * target.num.toInt

/-- `t` ticks of `b` in ticks of `target`, exactly. -/
def scaled (b : TimeBase) (t : Timestamp) (target : TimeBase) : ℚ :=
  b.scaleNum t target / b.scaleDen target

/-- Words of 128 bits are wide enough: nothing is scaled at all, or one holds the numerator with half the
divisor added, and with half of it taken away. -/
def Fits (b : TimeBase) (t : Timestamp) (target : TimeBase) : Prop :=
  t = Timestamp.unset ∨ t = Timestamp.endless ∨ b = target ∨
    (-wordEnd ≤ b.scaleNum t target - b.scaleDen target / 2 ∧
      b.scaleNum t target + b.scaleDen target / 2 < wordEnd)

theorem toInt_clampInside (q : ℤ) : (clampInside q).toInt =
    max (Int64.minValue.toInt + 1) (min q (Int64.maxValue.toInt - 1)) := by
  have low : Int64.minValue.toInt = -9223372036854775808 := rfl
  have high : Int64.maxValue.toInt = 9223372036854775807 := rfl
  unfold clampInside
  apply Int64.toInt_ofInt_of_le
  · omega
  · omega

/-- The product of two 64-bit words is nearer to zero than the end of a 128-bit word. -/
theorem mul_within (x y : Int64) : -wordEnd < x.toInt * y.toInt ∧ x.toInt * y.toInt < wordEnd := by
  have size (x : Int64) : |x.toInt| ≤ 9223372036854775808 := by
    have low := x.le_toInt
    have high := x.toInt_lt
    rw [abs_le]
    omega
  have last : wordEnd = 170141183460469231731687303715884105728 := rfl
  have product : |x.toInt * y.toInt| ≤ 9223372036854775808 * 9223372036854775808 := by
    rw [abs_mul]
    exact mul_le_mul (size x) (size y) (abs_nonneg _) (by omega)
  rw [abs_le] at product
  omega

theorem scaleDen_pos {b target : TimeBase} (valid : b.Valid) (valid' : target.Valid) :
    0 < b.scaleDen target :=
  mul_pos (Int64.lt_iff_toInt_lt.1 valid.2) (Int64.lt_iff_toInt_lt.1 valid'.1)

/-- Only the last of the products can be wider than a word. -/
theorem tryRescale_eq {b target : TimeBase} {t : Timestamp} (set : t ≠ Timestamp.unset)
    (finite : t ≠ Timestamp.endless) (other : b ≠ target) : b.tryRescale t target = do
      let num ← wide (b.scaleNum t target)
      return clampInside (← roundedQuotient num (b.scaleDen target)) := by
  have product := mul_within t b.num
  have divisor := mul_within b.den target.num
  unfold tryRescale
  rw [if_neg (by simp [set, finite, other]), wide_of_within product.1.le product.2,
    wide_of_within divisor.1.le divisor.2]
  rfl

/-- If the last product fits into a word, the result is the rounded quotient, kept inside the range. -/
theorem tryRescale_of_word {b target : TimeBase} {t : Timestamp} (set : t ≠ Timestamp.unset)
    (finite : t ≠ Timestamp.endless) (other : b ≠ target) (low : -wordEnd ≤ b.scaleNum t target)
    (high : b.scaleNum t target < wordEnd) : b.tryRescale t target =
      (roundedQuotient (b.scaleNum t target) (b.scaleDen target)).map clampInside := by
  rw [tryRescale_eq set finite other, wide_of_within low high]
  rfl

section Valid

variable {b target : TimeBase} (valid : b.Valid) (valid' : target.Valid) {t : Timestamp}
include valid valid'

/-- **A timestamp that fits is scaled to the nearest one.** -/
theorem tryRescale_of_fits (set : t ≠ Timestamp.unset) (finite : t ≠ Timestamp.endless)
    (other : b ≠ target) (fits : b.Fits t target) :
    ∃ q, RoundsTo (b.scaled t target) q ∧ b.tryRescale t target = .ok (clampInside q) := by
  have pos := scaleDen_pos valid valid'
  obtain ⟨low, high⟩ : -wordEnd ≤ b.scaleNum t target - b.scaleDen target / 2 ∧
      b.scaleNum t target + b.scaleDen target / 2 < wordEnd := by
    rcases fits with unset | endless | same | within
    · exact absurd unset set
    · exact absurd endless finite
    · exact absurd same other
    · exact within
  obtain ⟨q, rounds, found⟩ := roundedQuotient_nearest pos low high
  refine ⟨q, rounds, ?_⟩
  rw [tryRescale_of_word set finite other (by omega) (by omega), found]
  rfl

/-- A timestamp that does not fit has no value in the other base. -/
theorem tryRescale_of_beyond (beyond : ¬b.Fits t target) :
    b.tryRescale t target = .error .overflow := by
  simp only [Fits, not_or] at beyond
  obtain ⟨set, finite, other, beyond⟩ := beyond
  by_cases product : -wordEnd ≤ b.scaleNum t target ∧ b.scaleNum t target < wordEnd
  · rw [tryRescale_of_word set finite other product.1 product.2,
      roundedQuotient_beyond (scaleDen_pos valid valid') beyond]
    rfl
  · rw [tryRescale_eq set finite other, wide_of_beyond product]
    rfl

/-- There is a result just for the timestamps that fit. -/
theorem tryRescale_isOk_iff : (∃ u, b.tryRescale t target = .ok u) ↔ b.Fits t target := by
  constructor
  · rintro ⟨u, found⟩
    by_contra beyond
    exact nomatch (tryRescale_of_beyond valid valid' beyond).symm.trans found
  · intro fits
    by_cases kept : t = Timestamp.unset ∨ t = Timestamp.endless ∨ b = target
    · exact ⟨t, tryRescale_of_kept kept⟩
    · obtain ⟨set, finite, other⟩ := by simpa only [not_or] using kept
      obtain ⟨q, -, found⟩ := tryRescale_of_fits valid valid' set finite other fits
      exact ⟨_, found⟩

/-- The result is the rounded value, kept inside the range. -/
theorem toInt_of_tryRescale {u : Timestamp} (set : t ≠ Timestamp.unset)
    (finite : t ≠ Timestamp.endless) (other : b ≠ target) (found : b.tryRescale t target = .ok u) :
    ∃ q, RoundsTo (b.scaled t target) q ∧
      u.toInt = max (Int64.minValue.toInt + 1) (min q (Int64.maxValue.toInt - 1)) := by
  have fits := (tryRescale_isOk_iff valid valid').1 ⟨u, found⟩
  obtain ⟨q, rounds, result⟩ := tryRescale_of_fits valid valid' set finite other fits
  obtain rfl := Except.ok.inj (found.symm.trans result)
  exact ⟨q, rounds, toInt_clampInside q⟩

theorem rescale_of_fits (set : t ≠ Timestamp.unset) (finite : t ≠ Timestamp.endless)
    (other : b ≠ target) (fits : b.Fits t target) : ∃ q, RoundsTo (b.scaled t target) q ∧
      (b.rescale t target).toInt =
        max (Int64.minValue.toInt + 1) (min q (Int64.maxValue.toInt - 1)) := by
  obtain ⟨u, found⟩ := (tryRescale_isOk_iff valid valid').2 fits
  have same : b.rescale t target = u := by
    rw [rescale, rescale?, found]
    rfl
  rw [same]
  exact toInt_of_tryRescale valid valid' set finite other found

/-- No timestamp is too large for bases whose product of terms is at most a word of 64 bits. -/
theorem fits_of_terms (small : b.num.toInt * target.den.toInt ≤ Int64.maxValue.toInt)
    (t : Timestamp) : b.Fits t target := by
  have last : wordEnd = 170141183460469231731687303715884105728 := rfl
  have greatest : Int64.maxValue.toInt = 9223372036854775807 := rfl
  have num : 0 < b.num.toInt := Int64.lt_iff_toInt_lt.1 valid.1
  have den : 0 < target.den.toInt := Int64.lt_iff_toInt_lt.1 valid'.2
  have divisor : b.scaleDen target ≤ 9223372036854775808 * 9223372036854775808 :=
    mul_le_mul b.den.toInt_lt.le target.num.toInt_lt.le
      (Int64.lt_iff_toInt_lt.1 valid'.1).le (by omega)
  have positive := scaleDen_pos valid valid'
  have size : |b.scaleNum t target| ≤ 9223372036854775808 * 9223372036854775807 := by
    have low := t.le_toInt
    have high := t.toInt_lt
    unfold scaleNum
    rw [mul_assoc, abs_mul, abs_of_pos (mul_pos num den)]
    refine mul_le_mul (abs_le.2 ?_) (by omega) (mul_pos num den).le (by omega)
    omega
  rw [abs_le] at size
  refine .inr (.inr (.inr ?_))
  omega

theorem tryRescale_mono {t' u u' : Timestamp} (le : t ≤ t') (found : b.tryRescale t target = .ok u)
    (found' : b.tryRescale t' target = .ok u') : u ≤ u' := by
  have keeps {v w : Timestamp} (found : b.tryRescale v target = .ok w)
      (kept : v = Timestamp.unset ∨ v = Timestamp.endless ∨ b = target) : w = v :=
    (Except.ok.inj ((tryRescale_of_kept kept).symm.trans found)).symm
  by_cases same : b = target
  · rwa [keeps found (.inr (.inr same)), keeps found' (.inr (.inr same))]
  by_cases first : t = Timestamp.unset
  · rw [keeps found (.inl first), first]
    exact Timestamp.unset_le _
  by_cases last : t' = Timestamp.endless
  · rw [keeps found' (.inr (.inl last)), last]
    exact Timestamp.le_endless _
  have set : t' ≠ Timestamp.unset := by
    rintro rfl
    exact first (Int64.le_antisymm le (Timestamp.unset_le t))
  have finite : t ≠ Timestamp.endless := by
    rintro rfl
    exact last (Int64.le_antisymm (Timestamp.le_endless t') le)
  obtain ⟨q, rounds, result⟩ := toInt_of_tryRescale valid valid' first finite same found
  obtain ⟨r, rounds', result'⟩ := toInt_of_tryRescale valid valid' set last same found'
  have num : 0 < b.num.toInt := Int64.lt_iff_toInt_lt.1 valid.1
  have den : 0 < target.den.toInt := Int64.lt_iff_toInt_lt.1 valid'.2
  have scaled_le : b.scaled t target ≤ b.scaled t' target := by
    refine div_le_div_of_nonneg_right ?_ (Int.cast_nonneg (scaleDen_pos valid valid').le)
    refine Int.cast_le.2 ?_
    exact mul_le_mul_of_nonneg_right
      (mul_le_mul_of_nonneg_right ((Timestamp.le_iff t t').1 le) num.le) den.le
  have order := rounds.mono rounds' scaled_le
  rw [Timestamp.le_iff, result, result']
  omega

end Valid

/-- **Timestamps are scaled to the nearest.**  Between valid bases there is a result if and only if words of
128 bits are wide enough for the timestamp, which they are for every timestamp if the terms are small; when
they are not, the reason given is the overflow.  The ends of the range stay as they are, and so does
everything if the bases are the same.  Any other result is the exact value rounded to the nearest integer,
halves away from zero, and kept inside the range, whose ends it is not; and a later timestamp has no earlier
result. -/
theorem rescale_rounds {b target : TimeBase} (valid : b.Valid) (valid' : target.Valid) :
    (∀ t, (∃ u, b.tryRescale t target = .ok u) ↔ b.Fits t target) ∧
    (b.num.toInt * target.den.toInt ≤ Int64.maxValue.toInt → ∀ t, b.Fits t target) ∧
    (∀ t, ¬b.Fits t target → b.tryRescale t target = .error .overflow) ∧
    (∀ t, t = Timestamp.unset ∨ t = Timestamp.endless ∨ b = target → b.tryRescale t target = .ok t) ∧
    (∀ t u, t ≠ Timestamp.unset → t ≠ Timestamp.endless → b ≠ target → b.tryRescale t target = .ok u →
      ∃ q, RoundsTo (b.scaled t target) q ∧
        u.toInt = max (Int64.minValue.toInt + 1) (min q (Int64.maxValue.toInt - 1))) ∧
    (∀ t u, t ≠ Timestamp.unset → t ≠ Timestamp.endless → b.tryRescale t target = .ok u →
      u ≠ Timestamp.unset ∧ u ≠ Timestamp.endless) ∧
    (∀ t t' u u', t ≤ t' → b.tryRescale t target = .ok u → b.tryRescale t' target = .ok u' → u ≤ u') := by
  refine ⟨fun t => tryRescale_isOk_iff valid valid', fits_of_terms valid valid',
    fun t => tryRescale_of_beyond valid valid', fun t => tryRescale_of_kept,
    fun t u => toInt_of_tryRescale valid valid', ?_, fun t t' u u' => tryRescale_mono valid valid'⟩
  intro t u set finite found
  by_cases same : b = target
  · obtain rfl := Except.ok.inj ((tryRescale_of_kept (.inr (.inr same))).symm.trans found)
    exact ⟨set, finite⟩
  · obtain ⟨q, -, inside⟩ := toInt_of_tryRescale valid valid' set finite same found
    have low : Int64.minValue.toInt = -9223372036854775808 := rfl
    have high : Int64.maxValue.toInt = 9223372036854775807 := rfl
    refine ⟨fun unset => ?_, fun endless => ?_⟩
    · rw [unset, Timestamp.unset] at inside
      omega
    · rw [endless, Timestamp.endless] at inside
      omega

/-- Three halves backwards are two whole ticks. -/
theorem rescale_rounds_half :
    let b : TimeBase := ⟨1, 2⟩
    let target : TimeBase := ⟨1, 1⟩
    b.Valid ∧ target.Valid ∧ b.tryRescale (-3) target = .ok (-2) ∧
      ∃ q, RoundsTo (b.scaled (-3) target) q ∧ (-2 : Timestamp).toInt =
        max (Int64.minValue.toInt + 1) (min q (Int64.maxValue.toInt - 1)) := by
  intro b target
  have valid : b.Valid := by decide
  have valid' : target.Valid := by decide
  have found : b.tryRescale (-3) target = .ok (-2) := by decide +kernel
  exact ⟨valid, valid', found,
    (rescale_rounds valid valid').2.2.2.2.1 (-3) (-2) (by decide) (by decide) (by decide) found⟩

/-- Two ticks have a value, and three have none, although the exact value is an integer and comes to the
same once it is kept inside the range. -/
theorem rescale_overflows :
    let b : TimeBase := ⟨Int64.maxValue, 1⟩
    let target : TimeBase := ⟨1, Int64.maxValue⟩
    b.Valid ∧ target.Valid ∧ b.tryRescale 2 target = .ok (Int64.maxValue - 1) ∧
      b.tryRescale 3 target = .error .overflow ∧
      ∃ q, RoundsTo (b.scaled 3 target) q ∧ (Int64.maxValue - 1).toInt =
        max (Int64.minValue.toInt + 1) (min q (Int64.maxValue.toInt - 1)) := by
  intro b target
  exact ⟨by decide, by decide, by decide +kernel, by decide +kernel, _,
    .of_nonneg (by decide) (by decide), by decide⟩

end TimeBase

end FrameOverlay
