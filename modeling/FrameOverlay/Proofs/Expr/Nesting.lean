import FrameOverlay.Proofs.Expr.Parsing

/-!
# How tall an expression can be

A level of nesting is charged when an operand is entered and let go of when it has been read.  A chain of
operators is then put on top of a first operand that has already been read, and so is a power on its base.  So
what the levels bound is not the height of a tree.

* `Expr.climb` — height, where the way to a left operand costs nothing: **this is what the levels bound**;
* `Expr.overhang` — how often the way down goes on to a left operand that is no leaf;
* `Derives.within` — what a derivation says about the height of its value, one case for each rule;
* `depth_le_of_parse` — **the height of whatever is read**: the limit and what leans to the left on top of it;
* `spaced`, `parse_spaced` — a text with a blank behind every token;
* `overgrown_parse` — **a text that is read although its tree is higher than the limit**;
* `tallest`, `exists_depth_eq_tallest` — no lower bound than `tallestDepth` holds of all texts.
-/

namespace FrameOverlay.Expr

/-! ### Heights -/

/-- Numbers, constants and variables. -/
def isLeaf : Expr → Bool
  | num _ | const _ | var _ => true
  | _ => false

mutual

/-- Number of signs, calls and right operands on the longest way down to a leaf. -/
def climb : Expr → Nat
  | num _ | const _ | var _ => 0
  | neg e => e.climb + 1
  | binary _ l r => max l.climb (r.climb + 1)
  | call _ args => climbAll args + 1

/-- The greatest climb in a list. -/
def climbAll : List Expr → Nat
  | [] => 0
  | e :: es => max e.climb (climbAll es)

end

mutual

/-- Number of left operands that are no leaves, on the way down to a leaf that has most of them. -/
def overhang : Expr → Nat
  | num _ | const _ | var _ => 0
  | neg e => e.overhang
  | binary _ l r => max (if l.isLeaf then 0 else l.overhang + 1) r.overhang
  | call _ args => overhangAll args

/-- The greatest overhang in a list. -/
def overhangAll : List Expr → Nat
  | [] => 0
  | e :: es => max e.overhang (overhangAll es)

end

theorem depth_of_isLeaf {e : Expr} (h : e.isLeaf = true) : e.depth = 0 := by
  cases e with
  | num | const | var => rw [depth]
  | neg | binary | call => exact absurd h Bool.false_ne_true

mutual

/-- Every step on the way down is a step to a left operand or one that climbs. -/
theorem depth_le_climb_add_overhang (e : Expr) : e.depth ≤ e.climb + e.overhang := by
  cases e with
  | num | const | var => simp only [depth, Nat.zero_le]
  | neg e =>
    have inside := depth_le_climb_add_overhang e
    simp only [depth, climb, overhang]
    omega
  | binary op l r =>
    have left := depth_le_climb_add_overhang l
    have right := depth_le_climb_add_overhang r
    simp only [depth, climb, overhang]
    by_cases leaf : l.isLeaf = true
    · have bare := depth_of_isLeaf leaf
      rw [if_pos leaf]
      omega
    · rw [if_neg leaf]
      omega
  | call f args =>
    have inside := depthAll_le_climbAll_add_overhangAll args
    simp only [depth, climb, overhang]
    omega

theorem depthAll_le_climbAll_add_overhangAll (es : List Expr) : depthAll es ≤ climbAll es + overhangAll es := by
  cases es with
  | nil => simp only [depthAll, Nat.zero_le]
  | cons e es =>
    have first := depth_le_climb_add_overhang e
    have others := depthAll_le_climbAll_add_overhangAll es
    simp only [depthAll, climbAll, overhangAll]
    omega

end

/-! ### What a derivation says -/

/-- Height of a signed operand that is read with `m` levels left. -/
def signedDepth (m : Nat) : Nat := m * m + m

/-- Height of a sum that is read with `m` levels left. -/
def tallestDepth (m : Nat) : Nat := m * m + 3 * m

theorem signedDepth_succ (m : Nat) : signedDepth (m + 1) = tallestDepth m + 2 := by
  simp only [signedDepth, tallestDepth, Nat.mul_add, Nat.add_mul]
  omega

theorem tallestDepth_eq (m : Nat) : tallestDepth m = signedDepth m + m + m := by
  simp only [signedDepth, tallestDepth]
  omega

theorem signedDepth_mono {m n : Nat} (h : m ≤ n) : signedDepth m ≤ signedDepth n :=
  Nat.add_le_add (Nat.mul_le_mul h h) h

/-- With `m` levels left, the value of a phrase does not climb higher than that, and is no higher than what
its rule can put on top of its parts. -/
def Phrase.Within (m : Nat) : Phrase → Prop
  | .sum k e => k ≤ m ∧ e.climb ≤ m ∧ e.depth ≤ signedDepth m + m + k
  | .product k e => k ≤ m ∧ e.climb ≤ m ∧ e.depth ≤ signedDepth m + k
  | .signed e | .power e => e.climb ≤ m ∧ e.depth ≤ signedDepth m
  | .primary e => e.climb ≤ m ∧ e.depth ≤ signedDepth m - 1
  | .arguments es => climbAll es ≤ m ∧ depthAll es ≤ tallestDepth m

/-- A sum stays below the height that is possible with the levels left. -/
theorem Phrase.Within.depth_le {m k : Nat} {e : Expr} (h : (Phrase.sum k e).Within m) :
    e.depth ≤ tallestDepth m := by
  obtain ⟨few, -, bound⟩ := h
  rw [tallestDepth_eq]
  omega

/-- The height of the value of a phrase, by the levels that are left around it. -/
theorem Derives.within {d : Nat} {p : Phrase} {ts : List Token} (h : Derives d p ts) :
    ∀ m, d + m = maxDepth → p.Within m := by
  induction h with
  | term _ ih =>
    intro m levels
    obtain ⟨few, climb, bound⟩ := ih m levels
    refine ⟨Nat.zero_le m, climb, ?_⟩
    omega
  | @terms d j k op l r ts us _ _ room _ ihl ihr =>
    intro m levels
    obtain ⟨few, climb, bound⟩ := ihl m levels
    obtain ⟨n, rfl⟩ : ∃ n, m = n + k + 1 := ⟨m - k - 1, by omega⟩
    obtain ⟨few', climb', bound'⟩ := ihr n (by omega)
    have less : signedDepth n ≤ signedDepth (n + k + 1) := signedDepth_mono (by omega)
    refine ⟨by omega, ?_, ?_⟩
    · simp only [Expr.climb]
      omega
    · simp only [depth]
      omega
  | factor _ ih =>
    intro m levels
    obtain ⟨climb, bound⟩ := ih m levels
    exact ⟨Nat.zero_le m, climb, bound⟩
  | @factors d k op l r ts us _ _ room _ ihl ihr =>
    intro m levels
    obtain ⟨few, climb, bound⟩ := ihl m levels
    obtain ⟨n, rfl⟩ : ∃ n, m = n + k + 1 := ⟨m - k - 1, by omega⟩
    obtain ⟨climb', bound'⟩ := ihr n (by omega)
    have less : signedDepth n ≤ signedDepth (n + k + 1) := signedDepth_mono (by omega)
    refine ⟨by omega, ?_, ?_⟩
    · simp only [Expr.climb]
      omega
    · simp only [depth]
      omega
  | minus room _ ih =>
    intro m levels
    obtain ⟨n, rfl⟩ : ∃ n, m = n + 1 := ⟨m - 1, by omega⟩
    obtain ⟨climb, bound⟩ := ih n (by omega)
    have taller := signedDepth_succ n
    have sum := tallestDepth_eq n
    refine ⟨?_, ?_⟩
    · simp only [Expr.climb]
      omega
    · simp only [depth]
      omega
  | plus room _ ih =>
    intro m levels
    obtain ⟨n, rfl⟩ : ∃ n, m = n + 1 := ⟨m - 1, by omega⟩
    obtain ⟨climb, bound⟩ := ih n (by omega)
    exact ⟨Nat.le_succ_of_le climb, Nat.le_trans bound (signedDepth_mono (Nat.le_succ n))⟩
  | unsigned _ ih =>
    intro m levels
    exact ih m levels
  | plain _ ih =>
    intro m levels
    obtain ⟨climb, bound⟩ := ih m levels
    exact ⟨climb, Nat.le_trans bound (Nat.sub_le _ 1)⟩
  | raised _ room _ ihb ihe =>
    intro m levels
    obtain ⟨climb, bound⟩ := ihb m levels
    obtain ⟨n, rfl⟩ : ∃ n, m = n + 1 := ⟨m - 1, by omega⟩
    obtain ⟨climb', bound'⟩ := ihe n (by omega)
    have taller := signedDepth_succ n
    have sum := tallestDepth_eq n
    refine ⟨?_, ?_⟩
    · simp only [Expr.climb]
      omega
    · simp only [depth]
      omega
  | numeral | named | constant =>
    intro m _
    exact ⟨Nat.zero_le m, Nat.zero_le _⟩
  | call _ room _ _ _ ih =>
    intro m levels
    obtain ⟨n, rfl⟩ : ∃ n, m = n + 1 := ⟨m - 1, by omega⟩
    obtain ⟨climb, bound⟩ := ih n (by omega)
    have taller := signedDepth_succ n
    refine ⟨?_, ?_⟩
    · simp only [Expr.climb]
      omega
    · simp only [depth]
      omega
  | parentheses room _ ih =>
    intro m levels
    obtain ⟨n, rfl⟩ : ∃ n, m = n + 1 := ⟨m - 1, by omega⟩
    have inside := ih n (by omega)
    have bound := inside.depth_le
    have taller := signedDepth_succ n
    refine ⟨Nat.le_succ_of_le inside.2.1, ?_⟩
    omega
  | argument _ ih =>
    intro m levels
    have last := ih m levels
    simp only [Phrase.Within, climbAll, depthAll, Nat.max_zero]
    exact ⟨last.2.1, last.depth_le⟩
  | arguments _ _ ihf iho =>
    intro m levels
    have first := ihf m levels
    obtain ⟨climb, bound⟩ := iho m levels
    simp only [Phrase.Within, climbAll, depthAll]
    exact ⟨Nat.max_le.2 ⟨first.2.1, climb⟩, Nat.max_le.2 ⟨first.depth_le, bound⟩⟩

/-- What is read has been derived inside no open level. -/
theorem within_of_parse {text : String} {e : Expr} (h : parse text = .ok e) :
    ∃ k, (Phrase.sum k e).Within maxDepth := by
  obtain ⟨ts, -, k, derives⟩ := denotes_of_parse h
  exact ⟨k, derives.within maxDepth (Nat.zero_add maxDepth)⟩

/-! ### Texts with blanks -/

/-- The tokens written one after the other, with a blank behind each. -/
def spaced : List Token → List Char
  | [] => []
  | t :: ts => t.text ++ ' ' :: spaced ts

theorem not_isGap_of_isNameChar {c : Char} (h : isNameChar c = true) : isGap c = false := by
  rw [Bool.eq_false_iff]
  intro gap
  rcases isGap_cases gap with rfl | rfl | rfl | rfl | rfl <;> revert h <;> decide

theorem IsExponent.no_gap {exponent : List Char} (h : IsExponent exponent) :
    ∀ c ∈ exponent, isGap c = false := by
  have digit_no_gap {c : Char} (digit : c.isDigit = true) : isGap c = false := by
    refine not_isGap_of_isNumeralChar ?_
    rw [isNumeralChar, digit, Bool.true_or]
  cases h with
  | @intro letter sign digits marked signed _ decimal =>
    intro c member
    rcases List.mem_cons.1 member with rfl | member
    · rcases marked with rfl | rfl <;> decide
    rcases List.mem_append.1 member with member | member
    · rcases signed with rfl | rfl | rfl
      · exact absurd member List.not_mem_nil
      · obtain rfl := List.mem_singleton.1 member
        decide
      · obtain rfl := List.mem_singleton.1 member
        decide
    · exact digit_no_gap (decimal c member)

/-- No blank is inside a lexeme. -/
theorem Token.IsLexeme.no_gap {t : Token} (h : t.IsLexeme) : ∀ c ∈ t.text, isGap c = false := by
  cases h with
  | numeral _ run scaled =>
    intro c member
    rcases List.mem_append.1 member with member | member
    · exact not_isGap_of_isNumeralChar (run c member)
    · rcases scaled with rfl | scaled
      · exact absurd member List.not_mem_nil
      · exact scaled.no_gap c member
  | name start run =>
    intro c member
    rcases List.mem_cons.1 member with rfl | later
    · exact not_isGap_of_isNameStart start
    · exact not_isGap_of_isNameChar (run c later)
  | operator op =>
    intro c member
    obtain rfl := List.mem_singleton.1 member
    cases op <;> decide
  | opening | closing | comma =>
    intro c member
    obtain rfl := List.mem_singleton.1 member
    decide
  | stray blank =>
    intro c member
    obtain rfl := List.mem_singleton.1 member
    exact blank

/-- A blank ends every piece, so a text with blanks is cut at them. -/
theorem munch_spaced {ts : List Token} (lexemes : ∀ t ∈ ts, t.IsLexeme) : Munch (spaced ts) ts := by
  induction ts with
  | nil => exact .done
  | cons t ts ih =>
    have rest := ih fun u member => lexemes u (List.mem_cons_of_mem t member)
    refine .token (lexemes t List.mem_cons_self) (fun u lexeme front => ?_) (.gap (by decide) rest)
    by_cases longer : t.text.length < u.text.length
    · have behind : t.text ++ [' '] <+: u.text := by
        have blank : t.text ++ [' '] <+: t.text ++ ' ' :: spaced ts := by
          rw [List.prefix_append_right_inj]
          exact ⟨spaced ts, rfl⟩
        refine List.prefix_of_prefix_length_le blank front ?_
        rw [List.length_append]
        exact longer
      have inside : ' ' ∈ u.text := behind.subset (List.mem_append_right _ List.mem_cons_self)
      exact absurd (lexeme.no_gap ' ' inside) (by decide)
    · exact Nat.le_of_not_lt longer

theorem parse_spaced {ts : List Token} {k : Nat} {e : Expr} (derives : Derives 0 (.sum k e) ts)
    (lexemes : ∀ t ∈ ts, t.IsLexeme) : parse (String.ofList (spaced ts)) = .ok e := by
  refine parse_of_denotes ⟨ts, ?_, k, derives⟩
  rw [String.toList_ofList]
  exact munch_spaced lexemes

/-! ### Chains and signs -/

/-- The numeral one. -/
def one : Expr := .num ⟨1, 0⟩

/-- The expression with an operator and a one behind it, so many times. -/
def chain (op : BinaryOp) (e : Expr) : Nat → Expr
  | 0 => e
  | n + 1 => .binary op (chain op e n) one

/-- The tokens with those of a chain behind them. -/
def chained (op : BinaryOp) (ts : List Token) : Nat → List Token
  | 0 => ts
  | n + 1 => chained op ts n ++ [.operator op, .numeral ['1']]

/-- The expression with so many signs before it. -/
def signs (e : Expr) : Nat → Expr
  | 0 => e
  | n + 1 => .neg (signs e n)

theorem depth_chain (op : BinaryOp) (e : Expr) (n : Nat) : (chain op e n).depth = e.depth + n := by
  induction n with
  | zero => rfl
  | succ n ih =>
    simp only [chain, depth, one, ih]
    omega

theorem depth_signs (e : Expr) (n : Nat) : (signs e n).depth = e.depth + n := by
  induction n with
  | zero => rfl
  | succ n ih =>
    simp only [signs, depth, ih]
    omega

theorem derives_one (d : Nat) : Derives d (.primary one) [.numeral ['1']] := .numeral (by decide)

theorem derives_sum_chain {d k n : Nat} {e : Expr} {ts : List Token} (first : Derives d (.product k e) ts)
    (room : d + n ≤ maxDepth) : Derives d (.sum n (chain .add e n)) (chained .add ts n) := by
  induction n with
  | zero => exact .term first
  | succ n ih =>
    have right : Derives (d + n + 1) (.product 0 one) [.numeral ['1']] :=
      .factor (.unsigned (.plain (derives_one _)))
    exact .terms (ih (by omega)) (.inl rfl) (by omega) right

theorem derives_product_chain {d n : Nat} {e : Expr} {ts : List Token} (first : Derives d (.signed e) ts)
    (room : d + n ≤ maxDepth) : Derives d (.product n (chain .mul e n)) (chained .mul ts n) := by
  induction n with
  | zero => exact .factor first
  | succ n ih =>
    have right : Derives (d + n + 1) (.signed one) [.numeral ['1']] := .unsigned (.plain (derives_one _))
    exact .factors (ih (by omega)) (.inl rfl) (by omega) right

theorem derives_signs {d n : Nat} (room : d + n ≤ maxDepth) :
    Derives d (.signed (signs one n)) (List.replicate n (.operator .sub) ++ [.numeral ['1']]) := by
  induction n generalizing d with
  | zero => exact .unsigned (.plain (derives_one d))
  | succ n ih => exact .minus (by omega) (ih (by omega))

theorem isLexeme_one : (Token.numeral ['1']).IsLexeme := by
  have digits : ∀ c ∈ ['1'], isNumeralChar c = true := List.forall_mem_singleton.2 rfl
  show (Token.numeral (['1'] ++ [])).IsLexeme
  exact .numeral (List.cons_ne_nil '1' []) digits (.inl rfl)

theorem isLexeme_chained {op : BinaryOp} {ts : List Token} (lexemes : ∀ t ∈ ts, t.IsLexeme) (n : Nat) :
    ∀ t ∈ chained op ts n, t.IsLexeme := by
  induction n with
  | zero => exact lexemes
  | succ n ih =>
    intro t member
    rcases List.mem_append.1 member with before | behind
    · exact ih t before
    · simp only [List.mem_cons, List.not_mem_nil, or_false] at behind
      rcases behind with rfl | rfl
      · exact .operator op
      · exact isLexeme_one

/-! ### Heights of what is read -/

/-- A text with `n` signs before the first of `k + 1` terms. -/
def leaning (n k : Nat) : String :=
  String.ofList (spaced (chained .add (List.replicate n (.operator .sub) ++ [.numeral ['1']]) k))

/-- The signs are let go of before the chain begins, so that each may have all levels. -/
theorem parse_leaning {n k : Nat} (few : n ≤ maxDepth) (short : k ≤ maxDepth) :
    parse (leaning n k) = .ok (chain .add (signs one n) k) := by
  have operand : Derives 0 (.signed (signs one n)) _ := derives_signs (by rwa [Nat.zero_add])
  refine parse_spaced (derives_sum_chain (.factor operand) (by rwa [Nat.zero_add])) ?_
  refine isLexeme_chained (fun t member => ?_) k
  rcases List.mem_append.1 member with sign | last
  · obtain rfl := List.eq_of_mem_replicate sign
    exact .operator .sub
  · obtain rfl := List.mem_singleton.1 last
    exact isLexeme_one

/-- **The height of whatever is read.**  Its tree is not higher than the limit and what overhangs on top of
it, so that a tree of which no left operand is more than a leaf keeps to the limit; and whatever overhangs,
the height is bounded. -/
theorem depth_le_of_parse {text : String} {e : Expr} (h : parse text = .ok e) :
    e.depth ≤ maxDepth + e.overhang ∧ e.depth ≤ tallestDepth maxDepth := by
  obtain ⟨k, within⟩ := within_of_parse h
  refine ⟨?_, within.depth_le⟩
  calc e.depth ≤ e.climb + e.overhang := depth_le_climb_add_overhang e
    _ ≤ maxDepth + e.overhang := Nat.add_le_add_right within.2.1 _

/-- A text on which the bound is met: a hundred signs and one operator on top of them. -/
theorem depth_le_of_parse_leaning :
    parse (leaning 100 1) = .ok (chain .add (signs one 100) 1) ∧
      (chain .add (signs one 100) 1).depth ≤ maxDepth + (chain .add (signs one 100) 1).overhang ∧
        (chain .add (signs one 100) 1).depth ≤ tallestDepth maxDepth := by
  have read : parse (leaning 100 1) = .ok (chain .add (signs one 100) 1) :=
    parse_leaning (Nat.le_refl _) (by decide)
  exact ⟨read, depth_le_of_parse read⟩

/-- **A text that is read although its tree is higher than the limit.** -/
theorem overgrown_parse : ∃ e, parse (leaning 100 1) = .ok e ∧ maxDepth < e.depth := by
  refine ⟨_, parse_leaning (Nat.le_refl _) (by decide), ?_⟩
  rw [depth_chain, depth_signs]
  decide

/-! ### The highest trees -/

/-- The highest tree that can be read with `m` levels left: each level that is entered holds a power, a chain
of products on top of it and a chain of sums on top of that. -/
def tallest : Nat → Expr
  | 0 => one
  | m + 1 => chain .add (chain .mul (.binary .pow (.call .abs [tallest m]) one) (m + 1)) (m + 1)

/-- The tokens of the highest tree. -/
def tallestTokens : Nat → List Token
  | 0 => [.numeral ['1']]
  | m + 1 =>
    let power := .name ['a', 'b', 's'] :: .opening :: (tallestTokens m ++ [.closing]) ++
      [.operator .pow, .numeral ['1']]
    chained .add (chained .mul power (m + 1)) (m + 1)

theorem depth_tallest (m : Nat) : (tallest m).depth = tallestDepth m := by
  induction m with
  | zero => rfl
  | succ m ih =>
    have sum := tallestDepth_eq (m + 1)
    have taller := signedDepth_succ m
    simp only [tallest, depth_chain, depth, depthAll, one, ih]
    omega

theorem derives_tallest (m : Nat) : ∀ d, d + m = maxDepth → Derives d (.sum m (tallest m)) (tallestTokens m) := by
  induction m with
  | zero =>
    intro d levels
    exact (derives_one d).alone
  | succ m ih =>
    intro d levels
    have room : d < maxDepth := by omega
    have inside := ih (d + 1) (by omega)
    have call : Derives d (.primary (.call .abs [tallest m]))
        (.name ['a', 'b', 's'] :: .opening :: (tallestTokens m ++ [.closing])) :=
      .call (by decide) room (.argument inside) (Nat.le_refl 1) (Nat.le_refl 1)
    have power := Derives.raised call room (.unsigned (.plain (derives_one (d + 1))))
    have product := derives_product_chain (n := m + 1) (.unsigned power) (by omega)
    exact derives_sum_chain product (by omega)

theorem isLexeme_tallestTokens (m : Nat) : ∀ t ∈ tallestTokens m, t.IsLexeme := by
  induction m with
  | zero =>
    intro t member
    obtain rfl := List.mem_singleton.1 member
    exact isLexeme_one
  | succ m ih =>
    refine isLexeme_chained (isLexeme_chained ?_ (m + 1)) (m + 1)
    intro t member
    simp only [List.cons_append, List.append_assoc, List.mem_cons, List.mem_append, List.not_mem_nil,
      or_false, false_or] at member
    rcases member with rfl | rfl | inside | rfl | rfl | rfl
    · have letters : ∀ c ∈ ['b', 's'], isNameChar c = true :=
        List.forall_mem_cons.2 ⟨rfl, List.forall_mem_singleton.2 rfl⟩
      exact .name rfl letters
    · exact .opening
    · exact ih t inside
    · exact .closing
    · exact .operator .pow
    · exact isLexeme_one

/-- **No lower bound holds of all texts**: the highest tree can be read. -/
theorem exists_depth_eq_tallest : ∃ text e, parse text = .ok e ∧ e.depth = tallestDepth maxDepth := by
  have derives := derives_tallest maxDepth 0 (Nat.zero_add maxDepth)
  exact ⟨_, _, parse_spaced derives (isLexeme_tallestTokens maxDepth), depth_tallest maxDepth⟩

example : tallestDepth maxDepth = 10300 := by decide

end FrameOverlay.Expr
