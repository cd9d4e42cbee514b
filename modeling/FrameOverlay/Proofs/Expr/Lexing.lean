import FrameOverlay.Expr.Grammar

/-!
# Cutting a text into tokens

`scan` is maximal munch: every token it finds is a lexeme, no lexeme at its place is longer, and a text can
be cut in one way only.

* `Token.IsLexeme.eq_ofText` — a lexeme is known by its text;
* `tokenAt_isLexeme`, `tokenAt_text`, `tokenAt_longest` — what `tokenAt` finds;
* `munch_iff` — **the tokens of a text are those of the one way to cut it**.
-/

namespace FrameOverlay.Expr

/-! ### Characters -/

theorem isGap_cases {c : Char} (h : isGap c = true) :
    c = ' ' ∨ c = '\t' ∨ c = '\n' ∨ c = '\x0c' ∨ c = '\r' := by
  simpa only [isGap, Bool.or_eq_true, beq_iff_eq, or_assoc] using h

theorem not_isGap_of_isNumeralChar {c : Char} (h : isNumeralChar c = true) : isGap c = false := by
  rw [Bool.eq_false_iff]
  intro gap
  rcases isGap_cases gap with rfl | rfl | rfl | rfl | rfl <;> revert h <;> decide

theorem not_isGap_of_isNameStart {c : Char} (h : isNameStart c = true) : isGap c = false := by
  rw [Bool.eq_false_iff]
  intro gap
  rcases isGap_cases gap with rfl | rfl | rfl | rfl | rfl <;> revert h <;> decide

theorem not_isNameStart_of_isNumeralChar {c : Char} (h : isNumeralChar c = true) :
    isNameStart c = false := by
  rw [isNumeralChar, Bool.or_eq_true, beq_iff_eq] at h
  rcases h with digit | rfl
  · have other : c ≠ '_' := by
      rintro rfl
      exact absurd digit (by decide)
    have range : '0'.val ≤ c.val ∧ c.val ≤ '9'.val := by
      have both : (decide (c.val ≥ '0'.val) && decide (c.val ≤ '9'.val)) = true := digit
      simpa using both
    have letter : c.isAlpha = false := by
      show (decide ('A'.val ≤ c.val ∧ c.val ≤ 'Z'.val) ||
        (decide ('a'.val ≤ c.val) && decide (c.val ≤ 'z'.val))) = false
      grind
    rw [isNameStart, letter, Bool.false_or]
    exact beq_eq_false_iff_ne.2 other
  · decide

/-- A mark is the whole of its token. -/
theorem isLexeme_of_mark {c : Char} {t : Token} (h : marks.lookup c = some t) :
    t.IsLexeme ∧ t.text = [c] := by
  obtain ⟨before, after, same, -⟩ := List.lookup_eq_some_iff.1 h
  have mem : (c, t) ∈ marks := by
    rw [same]
    exact List.mem_append_right _ List.mem_cons_self
  simp only [marks, List.mem_cons, Prod.mk.injEq, List.not_mem_nil, or_false] at mem
  rcases mem with ⟨rfl, rfl⟩ | ⟨rfl, rfl⟩ | ⟨rfl, rfl⟩ | ⟨rfl, rfl⟩ | ⟨rfl, rfl⟩ | ⟨rfl, rfl⟩ | ⟨rfl, rfl⟩ |
    ⟨rfl, rfl⟩ <;> exact ⟨by constructor, rfl⟩

/-! ### Lexemes -/

/-- The token of the lexeme with the text `c :: tail`. -/
def Token.ofText (c : Char) (tail : List Char) : Token :=
  if isNumeralChar c then .numeral (c :: tail)
  else if isNameStart c then .name (c :: tail)
  else (marks.lookup c).getD (.stray c)

/-- A lexeme starts with a character that is no blank, and is known by its text. -/
theorem Token.IsLexeme.eq_ofText {t : Token} (h : t.IsLexeme) :
    ∃ c tail, t.text = c :: tail ∧ isGap c = false ∧ t = .ofText c tail := by
  cases h with
  | @numeral body exponent some run scaled =>
    obtain ⟨c, rest, rfl⟩ := List.exists_cons_of_ne_nil some
    have first := run c List.mem_cons_self
    exact ⟨c, rest ++ exponent, rfl, not_isGap_of_isNumeralChar first, by rw [ofText, if_pos first]; rfl⟩
  | @name first rest start run =>
    have numeral : ¬ isNumeralChar first = true := fun other =>
      Bool.false_ne_true ((not_isNameStart_of_isNumeralChar other).symm.trans start)
    exact ⟨first, rest, rfl, not_isGap_of_isNameStart start, by rw [ofText, if_neg numeral, if_pos start]⟩
  | operator op => cases op <;> exact ⟨_, _, rfl, by decide, by decide⟩
  | opening => exact ⟨_, _, rfl, by decide, by decide⟩
  | closing => exact ⟨_, _, rfl, by decide, by decide⟩
  | comma => exact ⟨_, _, rfl, by decide, by decide⟩
  | @stray c blank numeral name mark =>
    refine ⟨c, [], rfl, blank, ?_⟩
    rw [ofText, if_neg (Bool.eq_false_iff.1 numeral), if_neg (Bool.eq_false_iff.1 name), mark]
    rfl

theorem Token.IsLexeme.eq_of_text {t u : Token} (h : t.IsLexeme) (h' : u.IsLexeme)
    (same : t.text = u.text) : t = u := by
  obtain ⟨c, tail, text, -, rfl⟩ := h.eq_ofText
  obtain ⟨c', tail', text', -, rfl⟩ := h'.eq_ofText
  obtain ⟨rfl, rfl⟩ := List.cons.inj (text.symm.trans (same.trans text'))
  rfl

/-! ### Runs of characters -/

section Run

variable {p : Char → Bool} {run cs : List Char}

theorem length_le_takeWhile (all : ∀ c ∈ run, p c = true) (front : run <+: cs) :
    run.length ≤ (cs.takeWhile p).length := by
  obtain ⟨rest, rfl⟩ := front
  rw [List.takeWhile_append_of_pos all, List.length_append]
  exact Nat.le_add_right _ _

/-- A run ends where a character is of another kind. -/
theorem dropWhile_run {c : Char} {rest : List Char} (all : ∀ c ∈ run, p c = true) (other : p c = false) :
    (run ++ c :: rest).takeWhile p = run ∧ (run ++ c :: rest).dropWhile p = c :: rest := by
  have stop : ¬ p c = true := Bool.eq_false_iff.1 other
  constructor
  · rw [List.takeWhile_append_of_pos all, List.takeWhile_cons_of_neg stop, List.append_nil]
  · rw [List.dropWhile_append_of_pos all, List.dropWhile_cons_of_neg stop]

theorem forall_mem_takeWhile (p : Char → Bool) (cs : List Char) : ∀ c ∈ cs.takeWhile p, p c = true :=
  List.all_eq_true.1 List.all_takeWhile

end Run

/-! ### Numerals -/

/-- The digits behind a sign; without one, what comes first is no sign. -/
theorem exponentDigits_append {sign rest : List Char} (signed : IsSign sign)
    (bare : sign = [] → ∀ c ∈ rest.head?, (c == '+' || c == '-') = false) :
    exponentDigits (sign ++ rest) = if (rest.takeWhile Char.isDigit).isEmpty then [] else
      sign ++ rest.takeWhile Char.isDigit := by
  rcases signed with rfl | rfl | rfl
  · cases rest with
    | nil => rfl
    | cons c rest =>
      have other := bare rfl c rfl
      have none : ((c :: rest).take 1 |>.filter fun c => c == '+' || c == '-') = [] := by
        show ([c].filter fun c => c == '+' || c == '-') = []
        rw [List.filter_cons, other]
        rfl
      rw [List.nil_append, exponentDigits, none]
      rfl
  · rfl
  · rfl

/-- A text starts with a sign or with none. -/
theorem exists_sign (cs : List Char) : ∃ sign rest, cs = sign ++ rest ∧ IsSign sign ∧
    (sign = [] → ∀ c ∈ rest.head?, (c == '+' || c == '-') = false) := by
  cases cs with
  | nil => exact ⟨[], [], rfl, .inl rfl, fun _ c hc => absurd hc (Option.not_mem_none c)⟩
  | cons c cs =>
    by_cases plus : c = '+'
    · subst plus
      exact ⟨['+'], cs, rfl, .inr (.inl rfl), fun none => absurd none (List.cons_ne_nil _ _)⟩
    by_cases minus : c = '-'
    · subst minus
      exact ⟨['-'], cs, rfl, .inr (.inr rfl), fun none => absurd none (List.cons_ne_nil _ _)⟩
    refine ⟨[], c :: cs, rfl, .inl rfl, fun _ d hd => ?_⟩
    obtain rfl := Option.some.inj hd
    rw [Bool.or_eq_false_iff]
    exact ⟨beq_eq_false_iff_ne.2 plus, beq_eq_false_iff_ne.2 minus⟩

/-- What is found of an exponent is all of one, or nothing. -/
theorem exponentPart_spec (cs : List Char) :
    exponentPart cs = [] ∨ IsExponent (exponentPart cs) ∧ exponentPart cs <+: cs := by
  cases cs with
  | nil => exact .inl rfl
  | cons letter cs =>
    obtain ⟨sign, rest, rfl, signed, bare⟩ := exists_sign cs
    rw [exponentPart, exponentDigits_append signed bare]
    cases digits : (rest.takeWhile Char.isDigit).isEmpty with
    | true => exact .inl (if_neg (by simp))
    | false =>
      rw [if_neg Bool.false_ne_true]
      split
      next found =>
        have marked : letter = 'e' ∨ letter = 'E' := by
          have mark := (Bool.and_eq_true_iff.1 found).1
          rwa [Bool.or_eq_true, beq_iff_eq, beq_iff_eq] at mark
        have some : rest.takeWhile Char.isDigit ≠ [] := by
          rw [← List.isEmpty_eq_false_iff]
          exact digits
        refine .inr ⟨.intro marked signed some (forall_mem_takeWhile _ _), ?_⟩
        rw [List.cons_prefix_cons, List.prefix_append_right_inj]
        exact ⟨rfl, List.takeWhile_prefix _⟩
      next => exact .inl rfl

/-- An exponent at the front of a text is found, and as much of it as there is. -/
theorem length_le_exponentPart {exponent cs : List Char} (h : IsExponent exponent)
    (front : exponent <+: cs) : exponent.length ≤ (exponentPart cs).length := by
  cases h with
  | @intro letter sign digits marked signed some decimal =>
    obtain ⟨more, rfl⟩ := front
    obtain ⟨d, ds, rfl⟩ := List.exists_cons_of_ne_nil some
    have bare : sign = [] → ∀ c ∈ (d :: ds ++ more).head?, (c == '+' || c == '-') = false := by
      intro _ c hc
      obtain rfl := Option.some.inj hc
      have digit := decimal d List.mem_cons_self
      rw [Bool.eq_false_iff]
      intro other
      rw [Bool.or_eq_true, beq_iff_eq, beq_iff_eq] at other
      rcases other with rfl | rfl <;> exact absurd digit (by decide)
    have run : (d :: ds ++ more).takeWhile Char.isDigit = d :: ds ++ more.takeWhile Char.isDigit :=
      List.takeWhile_append_of_pos decimal
    have mark : (letter == 'e' || letter == 'E') = true := by
      rw [Bool.or_eq_true, beq_iff_eq, beq_iff_eq]
      exact marked
    have found : exponentPart (letter :: (sign ++ (d :: ds ++ more))) =
        letter :: (sign ++ (d :: ds ++ more.takeWhile Char.isDigit)) := by
      rw [exponentPart, exponentDigits_append signed bare, run, mark]
      cases sign <;> rfl
    rw [List.cons_append, List.append_assoc, found]
    simp only [List.length_cons, List.length_append]
    omega

/-- What starts as a numeral is not longer than what is found. -/
theorem length_le_numeralTail {body exponent cs : List Char} (run : ∀ c ∈ body, isNumeralChar c = true)
    (scaled : exponent = [] ∨ IsExponent exponent) (front : body ++ exponent <+: cs) :
    (body ++ exponent).length ≤ (numeralTail cs).length := by
  rw [numeralTail, List.length_append, List.length_append]
  rcases scaled with rfl | scaled
  · rw [List.append_nil] at front
    exact Nat.add_le_add (length_le_takeWhile run front) (Nat.zero_le _)
  · obtain ⟨more, rfl⟩ := front
    have longest := length_le_exponentPart scaled (List.prefix_append _ more)
    cases scaled with
    | @intro letter sign digits marked _ _ _ =>
      have other : isNumeralChar letter = false := by rcases marked with rfl | rfl <;> decide
      rw [List.append_assoc, List.cons_append, (dropWhile_run run other).1, (dropWhile_run run other).2]
      exact Nat.add_le_add_left longest _

/-! ### The token at a place -/

section Place

variable {c : Char} {cs : List Char}

theorem tokenAt_isLexeme (ink : isGap c = false) (cs : List Char) : (tokenAt c cs).IsLexeme := by
  rw [tokenAt]
  split
  next first =>
    have run : ∀ d ∈ c :: cs.takeWhile isNumeralChar, isNumeralChar d = true := by
      intro d hd
      rcases List.mem_cons.1 hd with rfl | within
      · exact first
      · exact forall_mem_takeWhile _ _ d within
    have scaled := exponentPart_spec (cs.dropWhile isNumeralChar)
    exact .numeral (List.cons_ne_nil c _) run (scaled.imp_right And.left)
  next numeral =>
  split
  next start => exact .name start (forall_mem_takeWhile _ _)
  next name =>
  cases mark : marks.lookup c with
  | none => exact .stray ink (Bool.eq_false_iff.2 numeral) (Bool.eq_false_iff.2 name) mark
  | some t => exact (isLexeme_of_mark mark).1

theorem numeralTail_front (cs : List Char) : numeralTail cs <+: cs := by
  have split : cs.takeWhile isNumeralChar ++ cs.dropWhile isNumeralChar = cs :=
    List.takeWhile_append_dropWhile
  conv => arg 2; rw [← split]
  rw [numeralTail, List.prefix_append_right_inj]
  rcases exponentPart_spec (cs.dropWhile isNumeralChar) with nothing | ⟨-, front⟩
  · rw [nothing]
    exact List.nil_prefix
  · exact front

/-- The token at a place, and what is behind it. -/
theorem tokenAt_text (c : Char) (cs : List Char) :
    (tokenAt c cs).text ++ cs.drop ((tokenAt c cs).text.length - 1) = c :: cs := by
  have rejoin {front : List Char} (h : front <+: cs) :
      (c :: front) ++ cs.drop ((c :: front).length - 1) = c :: cs := by
    obtain ⟨rest, rfl⟩ := h
    rw [List.length_cons, Nat.add_sub_cancel, List.drop_left]
    rfl
  rw [tokenAt]
  split
  · exact rejoin (numeralTail_front cs)
  split
  · exact rejoin (List.takeWhile_prefix _)
  have alone : ((marks.lookup c).getD (.stray c)).text = [c] := by
    cases mark : marks.lookup c with
    | none => rfl
    | some t => exact (isLexeme_of_mark mark).2
  rw [alone]
  rfl

theorem tokenAt_longest {u : Token} (lexeme : u.IsLexeme) (front : u.text <+: c :: cs) :
    u.text.length ≤ (tokenAt c cs).text.length := by
  have least : 1 ≤ (tokenAt c cs).text.length := by
    have text := congrArg List.length (tokenAt_text c cs)
    rw [List.length_append, List.length_drop, List.length_cons] at text
    omega
  cases lexeme with
  | @numeral body exponent some run scaled =>
    obtain ⟨d, rest, rfl⟩ := List.exists_cons_of_ne_nil some
    obtain ⟨rfl, tail⟩ := List.cons_prefix_cons.1
      (show d :: (rest ++ exponent) <+: c :: cs from front)
    have first := run d List.mem_cons_self
    rw [tokenAt, if_pos first]
    exact Nat.succ_le_succ (length_le_numeralTail (fun e he => run e (List.mem_cons_of_mem _ he)) scaled tail)
  | @name first rest start run =>
    obtain ⟨rfl, tail⟩ := List.cons_prefix_cons.1 (show first :: rest <+: c :: cs from front)
    have numeral : ¬ isNumeralChar first = true := fun other =>
      Bool.false_ne_true ((not_isNameStart_of_isNumeralChar other).symm.trans start)
    rw [tokenAt, if_neg numeral, if_pos start]
    exact Nat.succ_le_succ (length_le_takeWhile run tail)
  | operator | opening | closing | comma | stray => exact least

/-- No other lexeme is as long as it can be. -/
theorem tokenAt_unique (ink : isGap c = false) {t : Token} {rest : List Char} (lexeme : t.IsLexeme)
    (longest : ∀ u : Token, u.IsLexeme → u.text <+: t.text ++ rest → u.text.length ≤ t.text.length)
    (split : t.text ++ rest = c :: cs) :
    tokenAt c cs = t ∧ cs.drop ((tokenAt c cs).text.length - 1) = rest := by
  have text := tokenAt_text c cs
  have found := tokenAt_isLexeme ink cs
  have length : (tokenAt c cs).text.length = t.text.length := by
    refine Nat.le_antisymm (longest _ found ?_) (tokenAt_longest lexeme ?_)
    · rw [split, ← text]
      exact List.prefix_append _ _
    · rw [← split]
      exact List.prefix_append _ _
  obtain ⟨same, behind⟩ := List.append_inj (text.trans split.symm) length
  exact ⟨found.eq_of_text lexeme same, behind⟩

end Place

/-! ### Texts -/

theorem scanFrom_cons_of_ink {c : Char} (ink : isGap c = false) (start : Nat) (cs : List Char) :
    scanFrom start (c :: cs) = ⟨start, tokenAt c cs⟩ ::
      scanFrom (start + Text.byteSize (tokenAt c cs).text)
        (cs.drop ((tokenAt c cs).text.length - 1)) := by
  rw [scanFrom, if_neg (Bool.eq_false_iff.1 ink)]

theorem munch_scanFrom (start : Nat) (cs : List Char) :
    Munch cs ((scanFrom start cs).map Located.token) := by
  induction start, cs using scanFrom.induct with
  | case1 start =>
    rw [scanFrom]
    exact .done
  | case2 start c cs gap ih =>
    rw [scanFrom, if_pos gap]
    exact .gap gap ih
  | case3 start c cs ink _ ih =>
    have ink := Bool.eq_false_iff.2 ink
    have text := tokenAt_text c cs
    rw [scanFrom_cons_of_ink ink, List.map_cons]
    conv => arg 1; rw [← text]
    refine .token (tokenAt_isLexeme ink cs) (fun u lexeme front => ?_) ih
    rw [text] at front
    exact tokenAt_longest lexeme front

theorem Munch.eq_scanFrom {cs : List Char} {ts : List Token} (h : Munch cs ts) (start : Nat) :
    ts = (scanFrom start cs).map Located.token := by
  induction h generalizing start with
  | done =>
    rw [scanFrom]
    rfl
  | gap gap _ ih =>
    rw [scanFrom, if_pos gap]
    exact ih _
  | @token t cs ts lexeme longest _ ih =>
    obtain ⟨c, tail, text, ink, -⟩ := lexeme.eq_ofText
    have split : t.text ++ cs = c :: (tail ++ cs) := by rw [text]; rfl
    obtain ⟨same, behind⟩ := tokenAt_unique ink lexeme longest split
    rw [split, scanFrom_cons_of_ink ink, behind, same, List.map_cons, ← ih]

/-- **A text can be cut in one way**, and `scan` finds it. -/
theorem munch_iff {cs : List Char} {ts : List Token} :
    Munch cs ts ↔ ts = (scan cs).map Located.token := by
  constructor
  · intro h
    exact h.eq_scanFrom 0
  · rintro rfl
    exact munch_scanFrom 0 cs

end FrameOverlay.Expr
