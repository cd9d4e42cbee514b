import FrameOverlay.Proofs.Expr.Parsing
import FrameOverlay.Text.Blank

/-!
# What can be read is not blank

More characters count as blanks in a configuration than between the tokens of an expression.  That makes no
difference to an expression that can be read: it has a token with a meaning, and no such token starts with a
blank of either kind.

* `Token.IsProper` — a token with a meaning;
* `Derives.exists_proper` — every phrase has one;
* `not_isBlankText_of_parse` — **a text that can be read is not blank**;
* `parse_numeral` — a text that can be read.
-/

namespace FrameOverlay.Expr

/-- The token is more than a character that no expression holds. -/
def Token.IsProper : Token → Prop
  | stray _ => False
  | _ => True

theorem isBlank_of_isNumeralChar {c : Char} (h : isNumeralChar c = true) : Text.isBlank c = false := by
  simp only [isNumeralChar, Char.isDigit, Bool.or_eq_true, Bool.and_eq_true, decide_eq_true_eq,
    beq_iff_eq] at h
  rcases h with ⟨low, high⟩ | rfl
  · have low : 48 ≤ c.toNat := low
    have high : c.toNat ≤ 57 := high
    exact Text.isBlank_of_visible (by omega) (by omega)
  · decide

theorem isBlank_of_isNameStart {c : Char} (h : isNameStart c = true) : Text.isBlank c = false := by
  delta isNameStart Char.isAlpha Char.isUpper Char.isLower at h
  simp only [Bool.or_eq_true, Bool.and_eq_true, decide_eq_true_eq, beq_iff_eq] at h
  rcases h with (⟨low, high⟩ | ⟨low, high⟩) | rfl
  · have low : 65 ≤ c.toNat := low
    have high : c.toNat ≤ 90 := high
    exact Text.isBlank_of_visible (by omega) (by omega)
  · have low : 97 ≤ c.toNat := low
    have high : c.toNat ≤ 122 := high
    exact Text.isBlank_of_visible (by omega) (by omega)
  · decide

/-- A lexeme with a meaning starts with a character that is not blank. -/
theorem Token.IsLexeme.exists_ink {t : Token} (h : t.IsLexeme) (proper : t.IsProper) :
    ∃ c ∈ t.text, Text.isBlank c = false := by
  cases h with
  | @numeral body exponent some run scaled =>
    obtain ⟨c, rest, rfl⟩ := List.exists_cons_of_ne_nil some
    exact ⟨c, List.mem_cons_self, isBlank_of_isNumeralChar (run c List.mem_cons_self)⟩
  | name start run => exact ⟨_, List.mem_cons_self, isBlank_of_isNameStart start⟩
  | operator op => exact ⟨op.symbol, List.mem_cons_self, by cases op <;> decide⟩
  | opening => exact ⟨'(', List.mem_cons_self, by decide⟩
  | closing => exact ⟨')', List.mem_cons_self, by decide⟩
  | comma => exact ⟨',', List.mem_cons_self, by decide⟩
  | stray => exact proper.elim

/-- A token that is cut out of a text is a lexeme, and its characters are in the text. -/
theorem Munch.of_mem {cs : List Char} {ts : List Token} (h : Munch cs ts) {t : Token} (member : t ∈ ts) :
    t.IsLexeme ∧ ∀ c ∈ t.text, c ∈ cs := by
  induction h with
  | done => exact absurd member List.not_mem_nil
  | gap _ _ ih =>
    obtain ⟨lexeme, inside⟩ := ih member
    exact ⟨lexeme, fun c hc => List.mem_cons_of_mem _ (inside c hc)⟩
  | token lexeme _ _ ih =>
    rcases List.mem_cons.1 member with rfl | later
    · exact ⟨lexeme, fun c hc => List.mem_append_left _ hc⟩
    · obtain ⟨lexeme, inside⟩ := ih later
      exact ⟨lexeme, fun c hc => List.mem_append_right _ (inside c hc)⟩

/-- Every phrase has a token with a meaning. -/
theorem Derives.exists_proper {d : Nat} {phrase : Phrase} {ts : List Token} (h : Derives d phrase ts) :
    ∃ t ∈ ts, t.IsProper := by
  induction h with
  | term _ ih | factor _ ih | unsigned _ ih | plain _ ih | argument _ ih => exact ih
  | terms _ _ _ _ ih | factors _ _ _ _ ih | raised _ _ _ ih | arguments _ _ ih =>
    obtain ⟨t, member, proper⟩ := ih
    exact ⟨t, List.mem_append_left _ member, proper⟩
  | minus | plus | numeral | named | constant | call | parentheses =>
    exact ⟨_, List.mem_cons_self, trivial⟩

/-- **A text that can be read is not blank.** -/
theorem not_isBlankText_of_parse {text : String} {e : Expr} (h : parse text = .ok e) :
    Text.isBlankText text = false := by
  obtain ⟨ts, munch, _, derives⟩ := denotes_of_parse h
  obtain ⟨t, member, proper⟩ := derives.exists_proper
  obtain ⟨lexeme, inside⟩ := munch.of_mem member
  obtain ⟨c, letter, ink⟩ := lexeme.exists_ink proper
  rw [Text.isBlankText, List.all_eq_false]
  exact ⟨c, inside c letter, Bool.eq_false_iff.1 ink⟩

/-- A numeral by itself is an expression. -/
theorem parse_numeral {text : String} {d : Decimal}
    (cut : scan text.toList = [⟨0, .numeral text.toList⟩])
    (value : Decimal.ofLiteral? text.toList = some d) : parse text = .ok (.num d) := by
  have derives : Derives 0 (.sum 0 (.num d)) [.numeral text.toList] := (Derives.numeral value).alone
  rw [parse_ok_iff, cut]
  exact derives.read _ [⟨0, .numeral text.toList⟩] [] rfl (stops_nil _) _ []
    (parseTerms_end (stops_nil 3))

end FrameOverlay.Expr
