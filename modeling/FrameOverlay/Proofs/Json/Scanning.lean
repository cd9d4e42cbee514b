import FrameOverlay.Json.Grammar
import Mathlib.Tactic.SplitIfs

/-!
# The tokens of what is written

Whatever the grammar allows is cut into the tokens it is made of, with any text behind it.

* `StringBody.text_iff` — what the pieces of a string are read as;
* `spells_quoted`, `Spells.eq` — **a text that is written is a string that stands for it**, and for no other;
* `scan_gap`, `scan_mark`, `scan_word`, `scan_string`, `scan_number` — **blanks are left out, and each of the others is
  one token**;
* `Ends` — what must not follow a number.
-/

namespace FrameOverlay.Json

/-! ### Strings -/

theorem escape_short {letter c : Char} (listed : (letter, c) ∈ shortEscapes) (r : List Char) :
    escape (letter :: r) = .ok (.char c, 1) := by
  simp only [shortEscapes, List.mem_cons, Prod.mk.injEq, List.not_mem_nil, or_false] at listed
  rcases listed with ⟨rfl, rfl⟩ | ⟨rfl, rfl⟩ | ⟨rfl, rfl⟩ | ⟨rfl, rfl⟩ | ⟨rfl, rfl⟩ | ⟨rfl, rfl⟩ |
    ⟨rfl, rfl⟩ | ⟨rfl, rfl⟩ <;> rfl

theorem escape_unit {digits : List Char} {values : List Nat} (four : digits.length = 4)
    (read : digits.mapM hexValue? = some values) (r : List Char) :
    escape ('u' :: (digits ++ r)) = .ok (.unit (values.foldl (fun n v => 16 * n + v) 0), 5) := by
  have front : (digits ++ r).take 4 = digits := List.take_left' four
  have enough : ¬ Text.byteSize digits < 4 := by
    have := Text.length_le_byteSize digits
    omega
  simp only [escape, codeUnit, front, if_neg enough, read]
  rfl

/-- A piece is scanned as it is written. -/
theorem Piece.Written.scan {p : Piece} {front : List Char} (h : p.Written front) (r : List Char) :
    StringBody.scan (front ++ r) = ((StringBody.scan r).1.add p, (StringBody.scan r).2) := by
  cases h with
  | @plain c quote backslash printable =>
    rw [List.singleton_append, StringBody.scan.eq_def]
    split
    · next h => exact absurd h (List.cons_ne_nil _ _)
    · next h => exact absurd (List.cons.inj h).1 quote
    · next h => exact absurd (List.cons.inj h).1 backslash
    · next h =>
      obtain ⟨rfl, rfl⟩ := List.cons.inj h
      rw [if_neg (Nat.not_lt.2 printable)]
  | short listed =>
    rw [List.cons_append, List.cons_append, List.nil_append, StringBody.scan, escape_short listed]
    rfl
  | unit four read =>
    rw [List.cons_append, List.cons_append, StringBody.scan, escape_unit four read]
    show ((StringBody.scan (List.drop 4 _)).1.add _, (StringBody.scan (List.drop 4 _)).2) = _
    rw [List.drop_left' four]

theorem StringTail.scan {ps : List Piece} {cs : List Char} (h : StringTail ps cs) (r : List Char) :
    StringBody.scan (cs ++ r) = (⟨ps, none⟩, r) := by
  induction h with
  | closed => rw [List.singleton_append, StringBody.scan]
  | piece first others ih => rw [List.append_assoc, first.scan, ih, StringBody.add]

/-- A computation that may fail gives what its two halves give. -/
theorem bind_eq_ok {ε α β : Type} {x : Except ε α} {f : α → Except ε β} {b : β} :
    (x >>= f) = .ok b ↔ ∃ a, x = .ok a ∧ f a = .ok b := by
  cases x with
  | error e =>
    constructor
    · exact fun h => nomatch h
    · rintro ⟨a, h, -⟩
      cases h
  | ok a =>
    constructor
    · exact fun h => ⟨a, rfl, h⟩
    · rintro ⟨a, h, given⟩
      cases h
      exact given

@[simp] theorem ok_bind {ε α β : Type} (a : α) (f : α → Except ε β) : (Except.ok a >>= f) = f a := rfl

theorem pure_eq_ok {ε α : Type} {a b : α} : (pure a : Except ε α) = .ok b ↔ a = b := by
  exact ⟨fun h => Except.ok.inj h, fun h => congrArg _ h⟩

/-- A character that is read is in front of the others. -/
theorem cons_eq_ok {x : Except Fault (List Char)} {c : Char} {cs : List Char} :
    (do return c :: (← x)) = .ok cs ↔ ∃ others, x = .ok others ∧ c :: others = cs := by
  simp only [bind_eq_ok, pure_eq_ok]

theorem StringBody.characters_iff {ps : List Piece} {cs : List Char} :
    characters none ps = .ok cs ↔ Denotes ps cs := by
  constructor
  · intro read
    fun_induction characters none ps generalizing cs with
    | case1 f h => cases h
    | case2 h =>
      cases read
      exact .nil
    | case3 c ps ih =>
      obtain ⟨others, later, rfl⟩ := cons_eq_ok.1 read
      exact .char c (ih later)
    | case4 n ps trailing => cases read
    | case5 n trailing leading => cases read
    | case6 n trailing leading c ps => cases read
    | case7 n trailing leading m ps paired ih =>
      obtain ⟨others, later, rfl⟩ := cons_eq_ok.1 read
      exact .pair leading paired (ih later)
    | case8 n trailing leading m ps unpaired => cases read
    | case9 n ps trailing leading ih =>
      obtain ⟨others, later, rfl⟩ := cons_eq_ok.1 read
      exact .unit (Bool.eq_false_iff.2 leading) (Bool.eq_false_iff.2 trailing) (ih later)
  · intro h
    induction h with
    | nil => rfl
    | char c others ih => rw [characters, ih]; rfl
    | unit leading trailing others ih =>
      rw [characters.eq_def]
      simp only [if_neg (Bool.eq_false_iff.1 trailing), if_neg (Bool.eq_false_iff.1 leading), ih]
      rfl
    | @pair n m ps cs leading trailing others ih =>
      have other : ¬ isTrailing n = true := by
        simp only [isLeading, isTrailing, Bool.and_eq_true, decide_eq_true_eq] at leading ⊢
        omega
      rw [characters, if_neg other, if_pos leading, if_pos trailing, ih]
      rfl

/-- What the pieces of a closed string are read as. -/
theorem StringBody.text_iff {ps : List Piece} {s : String} :
    (StringBody.mk ps none).text = .ok s ↔ Denotes ps s.toList := by
  rw [text, bind_eq_ok, ← characters_iff]
  constructor
  · rintro ⟨cs, read, same⟩
    cases same
    rwa [String.toList_ofList]
  · intro read
    exact ⟨_, read, congrArg Except.ok (String.ofList_toList)⟩

/-- A string that is not closed is not read. -/
theorem StringBody.fault_of_text {b : StringBody} {s : String} (h : b.text = .ok s) : b.fault = none := by
  obtain ⟨ps, fault⟩ := b
  rw [text, bind_eq_ok] at h
  obtain ⟨cs, read, -⟩ := h
  cases fault with
  | none => rfl
  | some f =>
    exfalso
    simp only at read
    fun_induction characters (some f) ps generalizing cs with
    | case1 g same => cases read
    | case2 same => cases same
    | case3 c ps ih | case7 n trailing leading m ps paired ih | case9 n ps trailing leading ih =>
      obtain ⟨others, read, -⟩ := cons_eq_ok.1 read
      exact ih others read
    | case4 | case5 | case6 | case8 => cases read

/-- The code of a control character is given by four digits. -/
theorem fourDigits_read {n : Nat} (h : n < 0x20) :
    (fourDigits n).mapM hexValue? = some [0, 0, n / 0x10, n % 0x10] := by
  revert n
  decide

/-- Every character is written as one piece that stands for it. -/
theorem exists_written_escaped (c : Char) : ∃ p : Piece, p.Written (escaped c) ∧
    ∀ ps cs, Denotes ps cs → Denotes (p :: ps) (c :: cs) := by
  have short (letter : Char) (listed : (letter, c) ∈ shortEscapes) :
      ∃ p : Piece, p.Written ['\\', letter] ∧ ∀ ps cs, Denotes ps cs → Denotes (p :: ps) (c :: cs) :=
    ⟨.char c, .short listed, fun _ _ => .char c⟩
  simp only [escaped, beq_iff_eq, Bool.or_eq_true]
  split_ifs with mark backspace tab newline feed carriage control
  · rcases mark with rfl | rfl
    · exact short '"' (by decide)
    · exact short '\\' (by decide)
  · exact short 'b' (by rw [backspace]; decide)
  · exact short 't' (by rw [tab]; decide)
  · exact short 'n' (by rw [newline]; decide)
  · exact short 'f' (by rw [feed]; decide)
  · exact short 'r' (by rw [carriage]; decide)
  · have value : List.foldl (fun n v => 16 * n + v) 0 [0, 0, c.toNat / 0x10, c.toNat % 0x10] = c.toNat := by
      simp only [List.foldl_cons, List.foldl_nil]
      omega
    have written : Piece.Written (.unit c.toNat) ('\\' :: 'u' :: fourDigits c.toNat) := by
      have := Piece.Written.unit rfl (fourDigits_read control)
      rwa [value] at this
    refine ⟨.unit c.toNat, written, fun ps cs h => ?_⟩
    have leading : StringBody.isLeading c.toNat = false := by
      simp only [StringBody.isLeading, Bool.and_eq_false_iff, decide_eq_false_iff_not]
      omega
    have trailing : StringBody.isTrailing c.toNat = false := by
      simp only [StringBody.isTrailing, Bool.and_eq_false_iff, decide_eq_false_iff_not]
      omega
    have := Denotes.unit leading trailing h
    rwa [Char.ofNat_toNat] at this
  · rw [not_or] at mark
    exact ⟨.char c, .plain mark.1 mark.2 (Nat.not_lt.1 control), fun _ _ => .char c⟩

/-- **A text that is written is a string that stands for it.** -/
theorem spells_quoted (s : String) : Spells (quoted s).toList s := by
  have tail (cs : List Char) : ∃ ps, StringTail ps (cs.flatMap escaped ++ ['"']) ∧ Denotes ps cs := by
    induction cs with
    | nil => exact ⟨[], .closed, .nil⟩
    | cons c cs ih =>
      obtain ⟨p, written, stands⟩ := exists_written_escaped c
      obtain ⟨ps, others, denotes⟩ := ih
      refine ⟨p :: ps, ?_, stands ps cs denotes⟩
      rw [List.flatMap_cons, List.append_assoc]
      exact .piece written others
  obtain ⟨ps, others, denotes⟩ := tail s.toList
  exact ⟨ps, ⟨_, by rw [quoted, String.toList_ofList, List.cons_append], others⟩, denotes⟩

/-- A string has the same pieces however it is read. -/
theorem StringOf.eq {ps qs : List Piece} {text : List Char} (h : StringOf ps text) (h' : StringOf qs text) :
    ps = qs := by
  obtain ⟨cs, rfl, tail⟩ := h
  obtain ⟨cs', same, tail'⟩ := h'
  obtain ⟨-, rfl⟩ := List.cons.inj same
  have bodies := (tail.scan []).symm.trans (tail'.scan [])
  exact congrArg (fun read => read.1.pieces) bodies

theorem Spells.isString {text : List Char} {s : String} (h : Spells text s) : IsString text := by
  obtain ⟨ps, string, -⟩ := h
  exact ⟨ps, string⟩

/-- A string stands for one text at most. -/
theorem Spells.eq {text : List Char} {s t : String} (h : Spells text s) (h' : Spells text t) : s = t := by
  obtain ⟨ps, string, denotes⟩ := h
  obtain ⟨qs, string', denotes'⟩ := h'
  rw [string'.eq string, ← StringBody.text_iff] at denotes'
  exact Except.ok.inj ((StringBody.text_iff.2 denotes).symm.trans denotes')

/-! ### Single tokens -/

theorem scan_token {c : Char} (ink : isGap c = false) (r : List Char) :
    scan (c :: r) = (tokenAt c r).1 :: scan (tokenAt c r).2 := by
  rw [scan, if_neg (Bool.eq_false_iff.1 ink)]

theorem scan_gap (gap : Gap) (r : List Char) : scan (gap.1 ++ r) = scan r := by
  obtain ⟨cs, blank⟩ := gap
  show scan (cs ++ r) = scan r
  induction cs with
  | nil => rfl
  | cons c cs ih =>
    rw [List.cons_append, scan, if_pos (blank c List.mem_cons_self)]
    exact ih fun d h => blank d (List.mem_cons_of_mem _ h)

/-- The brackets, the comma and the colon. -/
theorem mark_cases {c : Char} {t : Token} (h : mark? c = some t) :
    c = '[' ∨ c = ']' ∨ c = '{' ∨ c = '}' ∨ c = ',' ∨ c = ':' := by
  unfold mark? at h
  split at h
  all_goals first | decide | cases h

theorem scan_mark {c : Char} {t : Token} (h : mark? c = some t) (r : List Char) :
    scan (c :: r) = t :: scan r := by
  have ink : isGap c = false := by
    rcases mark_cases h with rfl | rfl | rfl | rfl | rfl | rfl <;> rfl
  rw [scan_token ink, tokenAt, h]

theorem scan_string {ps : List Piece} {text : List Char} (h : StringOf ps text) (r : List Char) :
    scan (text ++ r) = .string ⟨ps, none⟩ :: scan r := by
  obtain ⟨cs, rfl, tail⟩ := h
  have quote (r : List Char) :
      tokenAt '"' r = (.string (StringBody.scan r).1, (StringBody.scan r).2) := rfl
  rw [List.cons_append, scan_token (by decide), quote, tail.scan]

theorem scan_word (w : Word) (r : List Char) : scan (w.letters ++ r) = .word w none :: scan r := by
  cases w <;>
  · rw [Word.letters, List.cons_append, scan_token (by decide)]
    rfl

/-! ### Numbers -/

/-- No number goes on with the text. -/
def Ends (r : List Char) : Prop := ∀ c ∈ r.head?, c.isDigit = false ∧ c ≠ '.' ∧ c ≠ 'e' ∧ c ≠ 'E'

theorem ends_gap (gap : Gap) {r : List Char} (h : Ends r) : Ends (gap.1 ++ r) := by
  obtain ⟨cs, blank⟩ := gap
  cases cs with
  | nil => exact h
  | cons c cs =>
    intro d first
    obtain rfl : c = d := Option.some.inj first
    have gap := blank c List.mem_cons_self
    simp only [isGap, Bool.or_eq_true, beq_iff_eq] at gap
    rcases gap with ((rfl | rfl) | rfl) | rfl <;> decide

theorem ends_mark {c : Char} {t : Token} (h : mark? c = some t) (r : List Char) : Ends (c :: r) := by
  intro d first
  obtain rfl : c = d := Option.some.inj first
  rcases mark_cases h with rfl | rfl | rfl | rfl | rfl | rfl <;> decide

/-- Digits are taken up to what follows them. -/
theorem span_digits {ds r : List Char} (digits : ∀ c ∈ ds, c.isDigit = true)
    (stop : ∀ c ∈ r.head?, c.isDigit = false) :
    (ds ++ r).takeWhile Char.isDigit = ds ∧ (ds ++ r).dropWhile Char.isDigit = r := by
  rw [List.takeWhile_append_of_pos digits, List.dropWhile_append_of_pos digits]
  cases r with
  | nil => exact ⟨List.append_nil _, rfl⟩
  | cons c r =>
    have other : ¬ c.isDigit = true := Bool.eq_false_iff.1 (stop c rfl)
    exact ⟨by rw [List.takeWhile_cons, if_neg other, List.append_nil], by rw [List.dropWhile_cons, if_neg other]⟩

theorem scanFraction_none {r : List Char} (h : '.' ∉ r.head?) : Numeral.scanFraction r = (none, r) := by
  unfold Numeral.scanFraction
  split
  · exact absurd rfl h
  · rfl

theorem scanExponent_none {r : List Char} (h : ∀ c ∈ r.head?, c ≠ 'e' ∧ c ≠ 'E') :
    Numeral.scanExponent r = (none, r) := by
  unfold Numeral.scanExponent
  split
  · exact absurd rfl (h _ rfl).1
  · exact absurd rfl (h _ rfl).2
  · rfl

/-- A fraction is scanned to its end, and has digits. -/
theorem scan_fraction {cs r : List Char} (h : IsFraction cs)
    (stop : ∀ c ∈ r.head?, c.isDigit = false ∧ c ≠ '.') :
    ∃ digits, digits ≠ some [] ∧ Numeral.scanFraction (cs ++ r) = (digits, r) := by
  cases h with
  | none => exact ⟨none, by decide, scanFraction_none fun point => (stop _ point).2 rfl⟩
  | @some digits decimal =>
    have span := span_digits decimal.2 fun c first => (stop c first).1
    refine ⟨some digits, fun h => decimal.1 (Option.some.inj h), ?_⟩
    rw [List.cons_append, Numeral.scanFraction, span.1, span.2]

theorem scan_sign {sign r : List Char} (signed : sign = [] ∨ sign = ['+'] ∨ sign = ['-'])
    (first : ∀ c ∈ r.head?, c.isDigit = true) : ∃ negative, Numeral.scanSign (sign ++ r) = (negative, r) := by
  rcases signed with rfl | rfl | rfl
  · refine ⟨false, ?_⟩
    rw [List.nil_append]
    unfold Numeral.scanSign
    split
    · exact absurd (first '-' rfl) (by decide)
    · exact absurd (first '+' rfl) (by decide)
    · rfl
  · exact ⟨false, rfl⟩
  · exact ⟨true, rfl⟩

/-- An exponent is scanned to its end, and has digits. -/
theorem scan_exponent {cs r : List Char} (h : IsExponent cs) (ends : Ends r) :
    ∃ exponent : Option NumeralExponent, (exponent.all fun e => !e.digits.isEmpty) = true ∧
      Numeral.scanExponent (cs ++ r) = (exponent, r) := by
  cases h with
  | none => exact ⟨none, rfl, scanExponent_none fun c first => (ends c first).2.2⟩
  | @some letter sign digits marked signed decimal =>
    have first : ∀ c ∈ (digits ++ r).head?, c.isDigit = true := by
      obtain ⟨d, ds, rfl⟩ := List.exists_cons_of_ne_nil decimal.1
      intro c same
      exact decimal.2 c (by rw [← Option.some.inj same]; exact List.mem_cons_self)
    obtain ⟨negative, signScanned⟩ := scan_sign signed first
    have span := span_digits decimal.2 fun c first => (ends c first).1
    refine ⟨some ⟨negative, digits⟩, by simpa using decimal.1, ?_⟩
    rcases marked with rfl | rfl <;>
    · rw [List.cons_append, List.append_assoc]
      simp only [Numeral.scanExponent, signScanned, span.1, span.2]

/-- A numeral without its sign is scanned part by part. -/
theorem scanUnsigned_parts {negative : Bool} {whole cs rest r : List Char} {fraction : Option (List Char)}
    {exponent : Option NumeralExponent} (digits : ∀ c ∈ whole, c.isDigit = true)
    (stop : ∀ c ∈ cs.head?, c.isDigit = false) (fractional : Numeral.scanFraction cs = (fraction, rest))
    (scaled : Numeral.scanExponent rest = (exponent, r)) :
    Numeral.scanUnsigned negative (whole ++ cs) = (⟨negative, whole, fraction, exponent, r.isEmpty⟩, r) := by
  have span := span_digits digits stop
  simp only [Numeral.scanUnsigned, span.1, span.2, fractional, scaled]

/-- What starts like a number is scanned as one. -/
theorem scan_numeral {c : Char} (start : c.isDigit = true ∨ c = '-') (r : List Char) :
    scan (c :: r) = .number (Numeral.scan (c :: r)).1 :: scan (Numeral.scan (c :: r)).2 := by
  have ink : isGap c = false := by
    rw [Bool.eq_false_iff]
    intro gap
    simp only [isGap, Bool.or_eq_true, beq_iff_eq] at gap
    rcases gap with ((rfl | rfl) | rfl) | rfl <;> revert start <;> decide
  have unmarked : mark? c = none := by
    cases h : mark? c with
    | none => rfl
    | some t =>
      exfalso
      rcases mark_cases h with rfl | rfl | rfl | rfl | rfl | rfl <;> revert start <;> decide
  have unquoted : (c == '"') = false := by
    rw [beq_eq_false_iff_ne]
    rintro rfl
    revert start
    decide
  have numeral : (c.isDigit || c == '-') = true := by simpa using start
  have token : tokenAt c r = (.number (Numeral.scan (c :: r)).1, (Numeral.scan (c :: r)).2) := by
    simp only [tokenAt, unmarked, unquoted, numeral, Bool.false_eq_true, if_false, if_true]
  rw [scan_token ink, token]

theorem IsWhole.not_hasLeadingZero {n : Numeral} (h : IsWhole n.whole) : n.hasLeadingZero = false := by
  rw [Numeral.hasLeadingZero, Bool.and_eq_false_iff]
  by_cases zero : n.whole.head? = some '0'
  · exact .inr (by rw [h.2 zero]; rfl)
  · exact .inl (beq_eq_false_iff_ne.2 zero)

/-- A sign in front of digits is all that is scanned before them. -/
theorem scan_unsigned {sign whole : List Char} (signed : sign = [] ∨ sign = ['-']) (digits : IsDigits whole)
    (cs : List Char) :
    scan (sign ++ (whole ++ cs)) = .number (Numeral.scanUnsigned (!sign.isEmpty) (whole ++ cs)).1 ::
      scan (Numeral.scanUnsigned (!sign.isEmpty) (whole ++ cs)).2 := by
  obtain ⟨d, ds, rfl⟩ := List.exists_cons_of_ne_nil digits.1
  have digit := digits.2 d List.mem_cons_self
  rcases signed with rfl | rfl
  · have plain : Numeral.scan (d :: (ds ++ cs)) = Numeral.scanUnsigned false (d :: (ds ++ cs)) := by
      rw [Numeral.scan.eq_2]
      rintro rest same
      rw [(List.cons.inj same).1] at digit
      exact absurd digit (by decide)
    rw [List.nil_append, List.cons_append, scan_numeral (.inl digit), plain]
    rfl
  · rw [List.singleton_append, scan_numeral (.inr rfl), Numeral.scan]
    rfl

/-- A number is scanned to its end, and complete. -/
theorem scan_number {cs : List Char} (h : IsNumber cs) {r : List Char} (ends : Ends r) :
    ∃ n : Numeral, n.isComplete = true ∧ scan (cs ++ r) = .number n :: scan r := by
  obtain @⟨sign, whole, fraction, exponent, signed, integral, fractional, scaled⟩ := h
  have behindFraction : ∀ c ∈ (exponent ++ r).head?, c.isDigit = false ∧ c ≠ '.' := by
    intro c first
    cases scaled with
    | none => exact ⟨(ends c first).1, (ends c first).2.1⟩
    | some marked =>
      rw [← Option.some.inj first]
      rcases marked with rfl | rfl <;> decide
  have behindWhole : ∀ c ∈ (fraction ++ (exponent ++ r)).head?, c.isDigit = false := by
    intro c first
    cases fractional with
    | none => exact (behindFraction c first).1
    | some => rw [← Option.some.inj first]; decide
  obtain ⟨f, digits, scannedFraction⟩ := scan_fraction fractional behindFraction
  obtain ⟨e, digits', scannedExponent⟩ := scan_exponent scaled ends
  have scanned := scan_unsigned signed integral.1 (fraction ++ (exponent ++ r))
  rw [scanUnsigned_parts integral.1.2 behindWhole scannedFraction scannedExponent] at scanned
  refine ⟨_, ?_, by simpa only [List.append_assoc] using scanned⟩
  have noZero := IsWhole.not_hasLeadingZero (n := ⟨!sign.isEmpty, whole, f, e, r.isEmpty⟩) integral
  have some : whole.isEmpty = false := List.isEmpty_eq_false_iff.2 integral.1.1
  simp only [Numeral.isComplete, noZero, digits', some, Bool.and_true, Bool.not_false, Bool.true_and]
  exact bne_iff_ne.2 digits

/-- Digits without a zero in front are scanned as the numeral they are. -/
theorem scan_whole {ds : List Char} (h : IsWhole ds) {r : List Char} (ends : Ends r) :
    scan (ds ++ r) = .number ⟨false, ds, none, none, r.isEmpty⟩ :: scan r := by
  have scanned := scan_unsigned (.inl rfl) h.1 r
  rwa [scanUnsigned_parts h.1.2 (fun c first => (ends c first).1)
    (scanFraction_none fun point => (ends _ point).2.1 rfl)
    (scanExponent_none fun c first => (ends c first).2.2)] at scanned

end FrameOverlay.Json
