import FrameOverlay.Proofs.Time.Rescaling

/-!
# One time base for several inputs

Bases are merged pairwise, from the left; the merge stops as soon as a denominator grows too large.  What
comes out depends on none of that.

* `TimeBase.commonDen`, `TimeBase.commonNum` — least common denominator and greatest common numerator of a
  list of bases, each with the property that makes it so;
* `TimeBase.Uniform`, `TimeBase.Merges` — all bases are the same one, and what a list of bases merges to;
* `TimeBase.common_of_valid` — two bases;
* `TimeBase.mergeFrom_merges` — **the pairwise merge**, by induction over the bases that follow;
* `TimeBase.merge_closed` — **the merge of a list in closed form**, and what follows for its inputs.
-/

namespace FrameOverlay

namespace TimeBase

/-! ### Common terms -/

/-- Least common multiple of the denominators. -/
def commonDen (bases : List TimeBase) : ℕ :=
  bases.foldr (fun b l => Nat.lcm b.den.toInt.natAbs l) 1

/-- Greatest common divisor of the numerators. -/
def commonNum (bases : List TimeBase) : ℕ :=
  bases.foldr (fun b g => Nat.gcd b.num.toInt.natAbs g) 0

section Terms

variable {bases others : List TimeBase}

theorem commonDen_dvd {n : ℕ} : commonDen bases ∣ n ↔ ∀ b ∈ bases, b.den.toInt.natAbs ∣ n := by
  induction bases with
  | nil => simp [commonDen]
  | cons b bases ih =>
    rw [List.forall_mem_cons, ← ih]
    exact Nat.lcm_dvd_iff

theorem dvd_commonNum {n : ℕ} : n ∣ commonNum bases ↔ ∀ b ∈ bases, n ∣ b.num.toInt.natAbs := by
  induction bases with
  | nil => simp [commonNum]
  | cons b bases ih =>
    rw [List.forall_mem_cons, ← ih]
    exact Nat.dvd_gcd_iff

theorem commonDen_append (bases others : List TimeBase) :
    commonDen (bases ++ others) = Nat.lcm (commonDen bases) (commonDen others) := by
  refine Nat.dvd_right_iff_eq.1 fun n => ?_
  rw [Nat.lcm_dvd_iff, commonDen_dvd, commonDen_dvd, commonDen_dvd, List.forall_mem_append]

theorem commonNum_append (bases others : List TimeBase) :
    commonNum (bases ++ others) = Nat.gcd (commonNum bases) (commonNum others) := by
  refine Nat.dvd_left_iff_eq.1 fun n => ?_
  rw [Nat.dvd_gcd_iff, dvd_commonNum, dvd_commonNum, dvd_commonNum, List.forall_mem_append]

theorem commonDen_singleton (b : TimeBase) : commonDen [b] = b.den.toInt.natAbs := Nat.lcm_one_right _

theorem commonNum_singleton (b : TimeBase) : commonNum [b] = b.num.toInt.natAbs := Nat.gcd_zero_right _

/-- Common terms do not depend on order and repetition. -/
theorem commonDen_congr (same : ∀ c, c ∈ others ↔ c ∈ bases) : commonDen others = commonDen bases := by
  refine Nat.dvd_right_iff_eq.1 fun n => ?_
  simp only [commonDen_dvd, same]

theorem commonNum_congr (same : ∀ c, c ∈ others ↔ c ∈ bases) : commonNum others = commonNum bases := by
  refine Nat.dvd_left_iff_eq.1 fun n => ?_
  simp only [dvd_commonNum, same]

variable (valid : ∀ b ∈ bases, b.Valid)
include valid

theorem commonDen_pos : 0 < commonDen bases := by
  induction bases with
  | nil => exact Nat.one_pos
  | cons b bases ih =>
    obtain ⟨first, rest⟩ := List.forall_mem_cons.1 valid
    have den : 0 < b.den.toInt := Int64.lt_iff_toInt_lt.1 first.2
    exact Nat.lcm_pos (by omega) (ih rest)

theorem commonNum_pos (some : bases ≠ []) : 0 < commonNum bases := by
  obtain ⟨b, rest, rfl⟩ := List.exists_cons_of_ne_nil some
  have num : 0 < b.num.toInt := Int64.lt_iff_toInt_lt.1 (valid b List.mem_cons_self).1
  exact Nat.gcd_pos_of_pos_left _ (by omega)

end Terms

/-! ### Two bases -/

theorem toInt_gcd {a b : Int64} (pos : 0 < a) :
    (gcd a b).toInt = Nat.gcd a.toInt.natAbs b.toInt.natAbs := by
  have pos : 0 < a.toInt := Int64.lt_iff_toInt_lt.1 pos
  have high := a.toInt_lt
  have le := Nat.gcd_le_left b.toInt.natAbs (show 0 < a.toInt.natAbs by omega)
  exact Int64.toInt_ofNat_of_lt (by unfold Int.gcd; omega)

/-- Two bases have the common terms, unless the denominator reaches the limit. -/
theorem common_of_valid {a b : TimeBase} (valid : a.Valid) (valid' : b.Valid) :
    (∃ d, common a b = .ok (some d) ∧ d.num.toInt = commonNum [a, b] ∧
      d.den.toInt = commonDen [a, b] ∧ (commonDen [a, b] : ℤ) < denominatorLimit) ∨
    (common a b = .ok none ∧ denominatorLimit ≤ (commonDen [a, b] : ℤ)) := by
  have first : 0 < a.den.toInt := Int64.lt_iff_toInt_lt.1 valid.2
  have second : 0 < b.den.toInt := Int64.lt_iff_toInt_lt.1 valid'.2
  have num : (gcd a.num b.num).toInt = commonNum [a, b] := by
    rw [toInt_gcd valid.1, show [a, b] = [a] ++ [b] from rfl, commonNum_append, commonNum_singleton,
      commonNum_singleton]
  have den : a.den.toInt.tdiv (gcd a.den b.den).toInt * b.den.toInt = commonDen [a, b] := by
    rw [toInt_gcd valid.2, show [a, b] = [a] ++ [b] from rfl, commonDen_append, commonDen_singleton,
      commonDen_singleton, Int.tdiv_eq_ediv_of_nonneg first.le]
    obtain ⟨m, hm⟩ := Int.eq_ofNat_of_zero_le first.le
    obtain ⟨n, hn⟩ := Int.eq_ofNat_of_zero_le second.le
    rw [hm, hn, Int.natAbs_natCast, Int.natAbs_natCast, ← Int.natCast_ediv, ← Int.natCast_mul]
    exact congrArg Nat.cast (Nat.div_mul_right_comm (Nat.gcd_dvd_left m n) n)
  have low : Int64.minValue.toInt = -9223372036854775808 := rfl
  have limit : denominatorLimit = 500000 := rfl
  unfold common
  simp only [gcd_ne_zero valid.2, if_false, den]
  split
  · next small => exact .inl ⟨_, rfl, num, Int64.toInt_ofInt_of_le (by omega) (by omega), small.2⟩
  · next large => exact .inr ⟨rfl, by omega⟩

/-! ### Lists of bases -/

/-- All bases are the same one. -/
def Uniform (bases : List TimeBase) : Prop := ∃ b, ∀ c ∈ bases, c = b

/-- `m` has the common terms, as there is only one base or the denominator is below the limit. -/
structure Merged (bases : List TimeBase) (m : TimeBase) : Prop where
  num_eq : m.num.toInt = commonNum bases
  den_eq : m.den.toInt = commonDen bases
  reason : (∀ c ∈ bases, c = m) ∨ (commonDen bases : ℤ) < denominatorLimit

/-- What a list of bases merges to: the base with the common terms, or microseconds if the bases differ and
the denominator reaches the limit. -/
inductive Merges (bases : List TimeBase) : TimeBase → Prop where
  | common {m : TimeBase} (merged : Merged bases m) : Merges bases m
  | fallback (mixed : ¬Uniform bases) (large : denominatorLimit ≤ (commonDen bases : ℤ)) :
      Merges bases micros

namespace Merged

variable {bases : List TimeBase} {m : TimeBase}

theorem singleton {b : TimeBase} (valid : b.Valid) : Merged [b] b where
  num_eq := by
    have num : 0 < b.num.toInt := Int64.lt_iff_toInt_lt.1 valid.1
    rw [commonNum_singleton]
    omega
  den_eq := by
    have den : 0 < b.den.toInt := Int64.lt_iff_toInt_lt.1 valid.2
    rw [commonDen_singleton]
    omega
  reason := .inl fun _ same => List.mem_singleton.1 same

/-- The terms leave no choice. -/
theorem eq_of_terms {n : TimeBase} (h : Merged bases m) (h' : Merged bases n) : m = n := by
  have num : m.num = n.num := by rw [← Int64.toInt_inj, h.num_eq, h'.num_eq]
  have den : m.den = n.den := by rw [← Int64.toInt_inj, h.den_eq, h'.den_eq]
  cases m
  cases n
  simp_all only

theorem congr {others : List TimeBase} (same : ∀ c, c ∈ others ↔ c ∈ bases) (h : Merged bases m) :
    Merged others m where
  num_eq := by rw [h.num_eq, commonNum_congr same]
  den_eq := by rw [h.den_eq, commonDen_congr same]
  reason := by
    simp only [same, commonDen_congr same]
    exact h.reason

variable (h : Merged bases m) (some : bases ≠ []) (valid : ∀ b ∈ bases, b.Valid)
include h

theorem commonNum_append (others : List TimeBase) :
    commonNum (bases ++ others) = commonNum (m :: others) := by
  rw [TimeBase.commonNum_append, ← List.singleton_append, TimeBase.commonNum_append,
    commonNum_singleton, h.num_eq, Int.natAbs_natCast]

theorem commonDen_append (others : List TimeBase) :
    commonDen (bases ++ others) = commonDen (m :: others) := by
  rw [TimeBase.commonDen_append, ← List.singleton_append, TimeBase.commonDen_append,
    commonDen_singleton, h.den_eq, Int.natAbs_natCast]

include some valid

theorem valid_base : m.Valid := by
  have num := commonNum_pos valid some
  have den := commonDen_pos valid
  have zero : (0 : Int64).toInt = 0 := rfl
  refine ⟨Int64.lt_iff_toInt_lt.2 ?_, Int64.lt_iff_toInt_lt.2 ?_⟩
  · rw [h.num_eq]
    omega
  · rw [h.den_eq]
    omega

/-- Equal bases merge to themselves. -/
theorem eq_of_uniform {b : TimeBase} (same : ∀ c ∈ bases, c = b) : m = b := by
  have members (c : TimeBase) : c ∈ bases ↔ c ∈ [b] := by
    rw [List.mem_singleton]
    refine ⟨same c, ?_⟩
    rintro rfl
    obtain ⟨x, rest, rfl⟩ := List.exists_cons_of_ne_nil some
    exact same x List.mem_cons_self ▸ List.mem_cons_self
  have alone := singleton (valid b ((members b).2 (List.mem_singleton_self b)))
  exact h.eq_of_terms (alone.congr members)

/-- The merge itself adds nothing. -/
theorem again : Merged (bases ++ [m]) m := by
  have alone := singleton (h.valid_base some valid)
  have twice (c : TimeBase) : c ∈ [m, m] ↔ c ∈ [m] := by simp
  have num := h.commonNum_append [m]
  have den := h.commonDen_append [m]
  rw [commonNum_congr twice] at num
  rw [commonDen_congr twice] at den
  refine ⟨by rw [num, alone.num_eq], by rw [den, alone.den_eq], ?_⟩
  rcases h.reason with same | small
  · refine .inl fun c member => ?_
    rcases List.mem_append.1 member with before | last
    · exact same c before
    · exact List.mem_singleton.1 last
  · rw [den, ← alone.den_eq, h.den_eq]
    exact .inr small

end Merged

/-- **Pairwise merging** of further bases into one that stands for those before it. -/
theorem mergeFrom_merges {done rest : List TimeBase} {cur : TimeBase} (some : done ≠ [])
    (valid : ∀ b ∈ done ++ rest, b.Valid) (h : Merged done cur) :
    ∃ m, mergeFrom cur rest = .ok m ∧ Merges (done ++ rest) m := by
  induction rest generalizing done cur with
  | nil =>
    rw [List.append_nil]
    exact ⟨cur, rfl, .common h⟩
  | cons c rest ih =>
    have doneValid : ∀ b ∈ done, b.Valid := fun b hb => valid b (List.mem_append_left _ hb)
    have nextValid : c.Valid := valid c (List.mem_append_right _ List.mem_cons_self)
    have assoc : done ++ c :: rest = (done ++ [c]) ++ rest := by simp
    rw [assoc] at valid ⊢
    unfold mergeFrom
    split
    · next same =>
      subst same
      exact ih (by simp) valid (h.again some doneValid)
    · next other =>
      have num := h.commonNum_append [c]
      have den := h.commonDen_append [c]
      rcases common_of_valid (h.valid_base some doneValid) nextValid with
        ⟨d, found, dNum, dDen, small⟩ | ⟨found, large⟩
      · rw [found]
        exact ih (by simp) valid ⟨num ▸ dNum, den ▸ dDen, .inr (den ▸ small)⟩
      · -- the denominator only grows with the bases that are left out
        rw [found]
        refine ⟨micros, rfl, .fallback ?_ ?_⟩
        · rintro ⟨b, same⟩
          have first : cur = b := h.eq_of_uniform some doneValid fun x hx => same x (by simp [hx])
          exact other (first.trans (same c (by simp)).symm)
        · rw [← den] at large
          have grows := Nat.le_of_dvd (commonDen_pos valid)
            (TimeBase.commonDen_append (done ++ [c]) rest ▸ Nat.dvd_lcm_left _ _)
          omega

namespace Merges

variable {bases : List TimeBase} {m n : TimeBase}

/-- Nothing but the common terms is left to depend on. -/
theorem unique (h : Merges bases m) (h' : Merges bases n) : m = n := by
  -- a merge with common terms is not a fallback: the bases are one, or the denominator is small
  have apart {m : TimeBase} (merged : Merged bases m) (mixed : ¬Uniform bases)
      (large : denominatorLimit ≤ (commonDen bases : ℤ)) : False := by
    rcases merged.reason with same | small
    · exact mixed ⟨m, same⟩
    · omega
  cases h with
  | common merged =>
    cases h' with
    | common merged' => exact merged.eq_of_terms merged'
    | fallback mixed large => exact (apart merged mixed large).elim
  | fallback mixed large =>
    cases h' with
    | common merged => exact (apart merged mixed large).elim
    | fallback => rfl

theorem congr {others : List TimeBase} (same : ∀ c, c ∈ others ↔ c ∈ bases) (h : Merges bases m) :
    Merges others m := by
  cases h with
  | common merged => exact .common (merged.congr same)
  | fallback mixed large =>
    refine .fallback ?_ (commonDen_congr same ▸ large)
    rintro ⟨b, uniform⟩
    exact mixed ⟨b, fun c member => uniform c ((same c).2 member)⟩

end Merges

theorem merge_merges {bases : List TimeBase} (some : bases ≠ []) (valid : ∀ b ∈ bases, b.Valid) :
    ∃ m, merge bases = .ok m ∧ Merges bases m := by
  obtain ⟨b, rest, rfl⟩ := List.exists_cons_of_ne_nil some
  exact mergeFrom_merges (List.cons_ne_nil b []) valid (.singleton (valid b List.mem_cons_self))

/-- Every base is a whole number of ticks of the base with the common terms. -/
theorem Merged.whole {bases : List TimeBase} {m b : TimeBase} (h : Merged bases m) (member : b ∈ bases)
    (valid : b.Valid) : b.scaleDen m ∣ b.num.toInt * m.den.toInt := by
  have num : 0 < b.num.toInt := Int64.lt_iff_toInt_lt.1 valid.1
  have den : 0 < b.den.toInt := Int64.lt_iff_toInt_lt.1 valid.2
  have numDvd : m.num.toInt ∣ b.num.toInt := by
    rw [h.num_eq, ← Int.natAbs_of_nonneg num.le]
    exact Int.natCast_dvd_natCast.2 (dvd_commonNum.1 dvd_rfl b member)
  have denDvd : b.den.toInt ∣ m.den.toInt := by
    rw [h.den_eq, ← Int.natAbs_of_nonneg den.le]
    exact Int.natCast_dvd_natCast.2 (commonDen_dvd.1 dvd_rfl b member)
  rw [scaleDen, mul_comm b.den.toInt]
  exact mul_dvd_mul numDvd denDvd

/-- Timestamps are scaled without rounding where a tick is a whole number of ticks. -/
theorem scaled_of_whole {b m : TimeBase} (valid : b.Valid) (valid' : m.Valid)
    (whole : b.scaleDen m ∣ b.num.toInt * m.den.toInt) (t : Timestamp) :
    ∃ k : ℤ, b.scaled t m = k ∧ (t ≠ Timestamp.unset → t ≠ Timestamp.endless → b ≠ m → b.Fits t m →
      (b.rescale t m).toInt = max (Int64.minValue.toInt + 1) (min k (Int64.maxValue.toInt - 1))) := by
  obtain ⟨c, eq⟩ := whole
  have pos : (0 : ℚ) < b.scaleDen m := Int.cast_pos.2 (scaleDen_pos valid valid')
  have exact : b.scaled t m = (t.toInt * c : ℤ) := by
    rw [scaled, scaleNum, mul_assoc, eq]
    push_cast
    field_simp
  refine ⟨t.toInt * c, exact, fun set finite other fits => ?_⟩
  obtain ⟨q, rounds, found⟩ := rescale_of_fits valid valid' set finite other fits
  rw [exact] at rounds
  rw [found, rounds.unique (RoundsTo.intCast _)]

/-- **Merging in closed form.**  Valid bases merge to a valid base: to the base they all are, or else to
the greatest common numerator over the least common denominator, or else, if that denominator reaches the
limit, to microseconds.  Order and repetition make no difference.  Except in the last case every base is a
whole number of ticks of the merged one, so a timestamp in it is a whole number of ticks `k`; where words of
128 bits are wide enough, scaling gives that number, kept inside the range. -/
theorem merge_closed {bases : List TimeBase} (some : bases ≠ []) (valid : ∀ b ∈ bases, b.Valid) :
    ∃ m, merge bases = .ok m ∧ m.Valid ∧
      (∀ b, (∀ c ∈ bases, c = b) → m = b) ∧
      (¬Uniform bases → (commonDen bases : ℤ) < denominatorLimit →
        m.num.toInt = commonNum bases ∧ m.den.toInt = commonDen bases) ∧
      (¬Uniform bases → denominatorLimit ≤ (commonDen bases : ℤ) → m = micros) ∧
      (∀ others, (∀ c, c ∈ others ↔ c ∈ bases) → merge others = .ok m) ∧
      (Uniform bases ∨ (commonDen bases : ℤ) < denominatorLimit → ∀ b ∈ bases,
        b.scaleDen m ∣ b.num.toInt * m.den.toInt ∧
        ∀ t, ∃ k : ℤ, b.scaled t m = k ∧
          (t ≠ Timestamp.unset → t ≠ Timestamp.endless → b ≠ m → b.Fits t m → (b.rescale t m).toInt =
            max (Int64.minValue.toInt + 1) (min k (Int64.maxValue.toInt - 1)))) := by
  obtain ⟨m, found, merges⟩ := merge_merges some valid
  have order (others : List TimeBase) (same : ∀ c, c ∈ others ↔ c ∈ bases) :
      merge others = .ok m := by
    have some' : others ≠ [] := by
      obtain ⟨b, member⟩ := List.exists_mem_of_ne_nil bases some
      exact List.ne_nil_of_mem ((same b).2 member)
    have valid' : ∀ b ∈ others, b.Valid := fun b member => valid b ((same b).1 member)
    obtain ⟨n, found', merges'⟩ := merge_merges some' valid'
    rw [found', merges'.unique (merges.congr same)]
  refine ⟨m, found, ?_⟩
  cases merges with
  | common merged =>
    have base := merged.valid_base some valid
    refine ⟨base, fun b same => merged.eq_of_uniform some valid same,
      fun _ _ => ⟨merged.num_eq, merged.den_eq⟩, fun mixed large => ?_, order, fun _ b member => ?_⟩
    · rcases merged.reason with same | small
      · exact absurd ⟨m, same⟩ mixed
      · omega
    · have whole := merged.whole member (valid b member)
      exact ⟨whole, scaled_of_whole (valid b member) base whole⟩
  | fallback mixed large =>
    refine ⟨micros_valid, fun b same => absurd ⟨b, same⟩ mixed, fun _ small => ?_, fun _ _ => rfl, order,
      fun exact => ?_⟩
    · omega
    · rcases exact with uniform | small
      · exact absurd uniform mixed
      · omega

/-- Two frame rates and the clock of a transport stream; the second of them twice. -/
theorem merge_closed_broadcast :
    let film : TimeBase := ⟨1001, 24000⟩
    let video : TimeBase := ⟨1001, 30000⟩
    let clock : TimeBase := ⟨1, 90000⟩
    merge [film, video, clock] = .ok ⟨1, 360000⟩ ∧ merge [clock, video, film, video] = .ok ⟨1, 360000⟩ ∧
      film.scaleDen ⟨1, 360000⟩ ∣ film.num.toInt * 360000 := by
  intro film video clock
  have valid : ∀ b ∈ [film, video, clock], b.Valid := by decide
  have found : merge [film, video, clock] = .ok ⟨1, 360000⟩ := by decide
  obtain ⟨m, merged, -, -, -, -, order, whole⟩ := merge_closed (by decide) valid
  obtain rfl : m = ⟨1, 360000⟩ := Except.ok.inj (merged.symm.trans found)
  refine ⟨found, order _ fun c => ?_, (whole (.inr (by decide)) film (by decide)).1⟩
  simp only [List.mem_cons, List.not_mem_nil, or_false]
  tauto

end TimeBase

end FrameOverlay
