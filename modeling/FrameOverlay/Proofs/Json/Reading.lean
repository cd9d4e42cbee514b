import FrameOverlay.Proofs.Json.Passing

/-!
# Reading single values

A reader of a certain kind of value reads no less than a whole value.  So whatever it makes of a value that is
written, it leaves what follows the value.

* `ReadsWhole` — whatever a reader makes a value of could also be passed over;
* `ReadsWhole.rest` — **of a value that is written such a reader leaves what follows the value**;
* `readsWhole_readText`, `readsWhole_readInt64`, `readsWhole_readName`, … — the readers are of this kind;
* `readText_written`, `readName_written`, `readInt64_written` — **what is written is read**.
-/

namespace FrameOverlay.Json

/-- Whatever the reader makes a value of is a whole value, which could be passed over. -/
def ReadsWhole {α : Type} (reader : (ts : List Token) → Read α ts) : Prop :=
  ∀ ts a rest, (reader ts).bare = .ok (a, rest) → Passes ts rest

/-- **Of a value that is written a reader leaves what follows the value, if it makes anything of it.** -/
theorem ReadsWhole.rest {α : Type} {reader : (ts : List Token) → Read α ts} (whole : ReadsWhole reader)
    {text r : List Char} (value : IsValue text) (ends : Ends r) {a : α} {rest : List Token}
    (read : (reader (scan (text ++ r))).bare = .ok (a, rest)) : rest = scan r :=
  (whole _ a rest read).eq (value.passes ends)

/-- What is made of a value that is read. -/
theorem bare_map {α β : Type} {ts rest : List Token} {r : Read α ts} (g : α → β) {a : α}
    (read : r.bare = .ok (a, rest)) :
    Read.bare (do let (a, rest) ← r; return (g a, rest) : Read β ts) = .ok (g a, rest) := by
  obtain ⟨bound, rfl⟩ := Read.bare_eq_ok.1 read
  rfl

theorem ReadsWhole.map {α β : Type} {reader : (ts : List Token) → Read α ts} (whole : ReadsWhole reader)
    (g : α → β) : ReadsWhole fun ts => do let (a, rest) ← reader ts; return (g a, rest) := by
  intro ts b rest read
  obtain ⟨bound, read⟩ := Read.bare_eq_ok.1 read
  obtain ⟨⟨a, ts', bound'⟩, first, same⟩ := bind_eq_ok.1 read
  cases same
  exact whole ts a rest (Read.bare_eq_ok.2 ⟨_, first⟩)

/-- What is made of the first token passes if the token is a value by itself. -/
theorem passes_token {t : Token} (inside : t ≠ .closing .list)
    (whole : ∀ outer, step .value outer t = .ok (.commaOrEnd, outer)) (ts : List Token) : Passes (t :: ts) ts :=
  fun outer => skipFrom_token (.inl rfl) inside (whole outer) ts

/-! ### Single values -/

theorem bare_taken {α : Type} (a : α) (t : Token) (ts : List Token) : (taken a t ts).bare = .ok (a, ts) := rfl

theorem step_string {body : StringBody} {s : String} (read : body.text = .ok s) (outer : List Bracket) :
    step .value outer (.string body) = .ok (.commaOrEnd, outer) := by
  simp only [step, StringBody.fault_of_text read]

theorem readText_string (body : StringBody) (ts : List Token) :
    (readText (.string body :: ts)).bare = body.text >>= fun s => .ok (s, ts) := by
  rw [readText]
  cases body.text <;> rfl

theorem readsWhole_readText : ReadsWhole readText := by
  rintro (_ | ⟨t, ts⟩) a rest read
  · cases read
  · cases t with
    | string body =>
      rw [readText_string, bind_eq_ok] at read
      obtain ⟨s, text, same⟩ := read
      cases same
      exact passes_token Token.noConfusion (step_string text) ts
    | _ => cases read

theorem readsWhole_readBool : ReadsWhole readBool := by
  intro ts a rest read
  unfold readBool at read
  split at read
  · cases read
    exact passes_token Token.noConfusion (fun _ => rfl) _
  · cases read
    exact passes_token Token.noConfusion (fun _ => rfl) _
  · cases read

/-- A numeral that is read as an integer has all its parts. -/
theorem Numeral.isComplete_of_fault {n : Numeral} (h : n.fault? = none) : n.isComplete = true := by
  unfold fault? at h
  simp only at h
  split_ifs at h with whole zero fraction exponent overflows
  simp only [isComplete, Bool.and_eq_true, Bool.not_eq_true', bne_iff_ne, ne_eq]
  refine ⟨⟨⟨Bool.eq_false_iff.2 whole, Bool.eq_false_iff.2 zero⟩, fun none => fraction (beq_iff_eq.2 none)⟩, ?_⟩
  cases same : n.exponent with
  | none => rfl
  | some e => simpa [same] using exponent

/-- An integer is read of one numeral with all its parts. -/
theorem readInt64_eq_ok {i : Int64} {ts rest : List Token} (read : (readInt64 ts).bare = .ok (i, rest)) :
    ∃ n : Numeral, n.isComplete = true ∧ ts = .number n :: rest := by
  unfold readInt64 at read
  split at read
  · split at read
    · next fine _ =>
      cases read
      exact ⟨_, Numeral.isComplete_of_fault fine, rfl⟩
    · cases read
  · cases read

theorem readsWhole_readInt64 : ReadsWhole readInt64 := by
  intro ts i rest read
  obtain ⟨n, complete, rfl⟩ := readInt64_eq_ok read
  exact passes_token Token.noConfusion (fun _ => by simp only [step, complete, if_true]) rest

theorem readsWhole_skip : ReadsWhole skip := by
  intro ts a rest read
  exact passes_iff.2 read

theorem readMark_eq_ok {mark : Token} {ts rest : List Token} :
    (readMark mark ts).bare = .ok ((), rest) ↔ ts = mark :: rest := by
  cases ts with
  | nil => exact ⟨nofun, nofun⟩
  | cons t ts =>
    rw [readMark, List.cons.injEq]
    split_ifs with same
    · rw [bare_taken, Except.ok.injEq, Prod.mk.injEq]
      exact ⟨fun h => ⟨same, h.2⟩, fun h => ⟨rfl, h.2⟩⟩
    · exact ⟨nofun, fun h => absurd h.1 same⟩

theorem readNull_eq_ok {ts rest : List Token} :
    (readNull ts).bare = .ok ((), rest) ↔ ts = .word .null none :: rest := by
  constructor
  · intro read
    unfold readNull at read
    split at read
    · cases read
      rfl
    · cases read
  · rintro rfl
    rfl

theorem readsWhole_readName {α : Type} (ofName? : String → Option α) : ReadsWhole (readName ofName?) := by
  intro ts a rest read
  obtain ⟨bound, read⟩ := Read.bare_eq_ok.1 read
  unfold readName at read
  split at read
  · next _ body ts =>
    obtain ⟨s, text, read⟩ := bind_eq_ok.1 read
    split at read
    · cases read
      exact passes_token Token.noConfusion (step_string text) _
    · cases read
  · next _ body ts =>
    obtain ⟨s, text, read⟩ := bind_eq_ok.1 read
    split at read
    · cases read
    · obtain ⟨⟨_, ts₁, _⟩, colon, read⟩ := bind_eq_ok.1 read
      obtain ⟨⟨_, ts₂, _⟩, null, read⟩ := bind_eq_ok.1 read
      obtain ⟨⟨_, ts₃, _⟩, closing, same⟩ := bind_eq_ok.1 read
      cases same
      cases readMark_eq_ok.1 (Read.bare_eq_ok.2 ⟨_, colon⟩)
      cases readNull_eq_ok.1 (Read.bare_eq_ok.2 ⟨_, null⟩)
      cases readMark_eq_ok.1 (Read.bare_eq_ok.2 ⟨_, closing⟩)
      intro outer
      simp [skipFrom_cons, step, StringBody.fault_of_text text]
  · cases read
  · cases read

/-! ### Values that are written -/

theorem readText_written {text : List Char} {s : String} (h : Spells text s) (r : List Char) :
    (readText (scan (text ++ r))).bare = .ok (s, scan r) := by
  obtain ⟨ps, string, denotes⟩ := h
  rw [scan_string string, readText_string, StringBody.text_iff.2 denotes, ok_bind]

theorem readName_written {α : Type} {ofName? : String → Option α} {text : List Char} {s : String} {a : α}
    (h : Spells text s) (known : ofName? s = some a) (r : List Char) :
    (readName ofName? (scan (text ++ r))).bare = .ok (a, scan r) := by
  obtain ⟨ps, string, denotes⟩ := h
  rw [scan_string string, readName, StringBody.text_iff.2 denotes, ok_bind]
  simp only [known]
  rfl

/-- No zero stands in front of the digits of a positive number. -/
theorem head?_toDigits {n : Nat} (positive : 0 < n) : (Nat.toDigits 10 n).head? ≠ some '0' := by
  induction n using Nat.strongRecOn with
  | _ n ih =>
    by_cases small : n < 10
    · rw [Nat.toDigits_of_lt_base small]
      intro zero
      exact absurd (Nat.digitChar_eq_zero.1 (Option.some.inj zero)) (Nat.ne_of_gt positive)
    · have large := Nat.not_lt.1 small
      have front := ih (n / 10) (by omega) (by omega)
      obtain ⟨d, ds, same⟩ := List.exists_cons_of_ne_nil (Nat.toDigits_ne_nil : Nat.toDigits 10 (n / 10) ≠ [])
      rw [Nat.toDigits_of_base_le (by decide) large]
      rwa [same] at front ⊢

theorem isWhole_toDigits {n : Nat} (positive : 0 < n) : IsWhole (Nat.toDigits 10 n) :=
  ⟨⟨Nat.toDigits_ne_nil, fun _ member => Nat.isDigit_of_mem_toDigits (by decide) (by decide) member⟩,
    fun zero => absurd zero (head?_toDigits positive)⟩

/-- The digits of a number have its value. -/
theorem ofDigits_toDigits (n : Nat) : Decimal.ofDigits (Nat.toDigits 10 n) = n :=
  Nat.ofDigitChars_eq_foldl.symm.trans Nat.ofDigitChars_ten_toDigits

/-- Digits whose value fits into 64 bits are all taken. -/
theorem gather_eq {ds : List Char} {k : Nat}
    (fits : ds.foldl (fun n c => 10 * n + Decimal.digitValue c) k < UInt64.size) :
    Numeral.gather k ds = (ds.foldl (fun n c => 10 * n + Decimal.digitValue c) k, []) := by
  induction ds generalizing k with
  | nil => rfl
  | cons c cs ih =>
    have grows (ds : List Char) (k : Nat) : k ≤ ds.foldl (fun n c => 10 * n + Decimal.digitValue c) k := by
      induction ds generalizing k with
      | nil => exact Nat.le_refl k
      | cons c cs ih => exact Nat.le_trans (by omega) (ih (10 * k + Decimal.digitValue c))
    rw [List.foldl_cons] at fits ⊢
    have more := Nat.lt_of_le_of_lt (grows cs _) fits
    rw [Numeral.gather]
    simp only [if_pos more]
    exact ih fits

/-- Digits of a number below the range of 64 bits have no fault. -/
theorem fault?_toDigits {n : Nat} (positive : 0 < n) (fits : n < UInt64.size) (atEnd : Bool) :
    (Numeral.mk false (Nat.toDigits 10 n) none none atEnd).fault? = none := by
  have whole := isWhole_toDigits positive
  have some : (Nat.toDigits 10 n).isEmpty = false := List.isEmpty_eq_false_iff.2 whole.1.1
  have noZero := IsWhole.not_hasLeadingZero (n := ⟨false, Nat.toDigits 10 n, none, none, atEnd⟩) whole
  have gathered : Numeral.gather 0 (Nat.toDigits 10 n) = (n, []) := by
    have value : (Nat.toDigits 10 n).foldl (fun n c => 10 * n + Decimal.digitValue c) 0 = n :=
      ofDigits_toDigits n
    rw [gather_eq (by rw [value]; exact fits), value]
  have small : (Numeral.mk false (Nat.toDigits 10 n) none none atEnd).overflows = false := by
    simp [Numeral.overflows, Numeral.magnitude, Numeral.exponentValue, gathered, Numeral.gather]
  simp [Numeral.fault?, some, noZero, small]

theorem toNat_positive {i : Int64} (positive : 0 < i) : 0 < i.toInt.toNat := by
  have above : 0 < i.toInt := Int64.lt_iff_toInt_lt.1 positive
  omega

/-- A positive integer is written in digits. -/
theorem toString_positive {i : Int64} (positive : 0 < i) :
    (toString i.toInt).toList = Nat.toDigits 10 i.toInt.toNat := by
  have above : 0 < i.toInt := Int64.lt_iff_toInt_lt.1 positive
  rw [Int.toString_eq_repr, Int.repr_eq_if, if_pos (Int.le_of_lt above), Nat.toList_repr]

/-- **A positive integer is read as it is written.** -/
theorem readInt64_written {i : Int64} (positive : 0 < i) {r : List Char} (ends : Ends r) :
    (readInt64 (scan ((toString i.toInt).toList ++ r))).bare = .ok (i, scan r) := by
  have above := toNat_positive positive
  have below := i.toInt_lt
  have same : ((i.toInt.toNat : Nat) : Int) = i.toInt := Int.toNat_of_nonneg (by omega)
  have read : (Numeral.mk false (Nat.toDigits 10 i.toInt.toNat) none none r.isEmpty).int64? = some i := by
    simp only [Numeral.int64?, ofDigits_toDigits, same, i.minValue_le_toInt, i.toInt_le, i.ofInt_toInt,
      Bool.false_eq_true, if_false, Option.isNone_none, Bool.and_self, Bool.false_and, Bool.not_false, decide_true,
      if_true]
  have fine := fault?_toDigits above (by rw [UInt64.size]; omega) r.isEmpty
  rw [toString_positive positive, scan_whole (isWhole_toDigits above) ends, readInt64]
  simp only [fine, read]
  rfl

end FrameOverlay.Json
