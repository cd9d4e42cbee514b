import FrameOverlay.Proofs.Expr.Following

/-!
# Reading byte by byte is safe

Whatever the text, reading it with a cursor comes to what its tokens say, and to nothing that a cursor must not
do: an expression, or an error at a place between two characters.

* `readText_concludes` — a whole text is read as its tokens say;
* `Cursor.Sound` — what a reading function may come to;
* `compile_safe` — **no text makes reading crash**.
-/

namespace FrameOverlay.Expr

open Reading
open Text (byteSize IsBoundary)

/-! ### Whole texts -/

/-- What comes of a whole text, by its tokens. -/
theorem parse_eq (text : String) : parse text =
    if scan text.toList = [] then
      .error ⟨byteSize text.toList, .empty⟩
    else
      plain (parseSum (byteSize text.toList) 0 (scan text.toList)) >>= fun r =>
        match r.2 with
        | [] => .ok r.1
        | t :: _ => .error ⟨t.start, .trailingInput⟩ := by
  unfold parse
  dsimp only
  split
  next none =>
    rw [if_pos none]
    rfl
  next some =>
    rw [if_neg some]
    cases parseSum (byteSize text.toList) 0 (scan text.toList) with
    | error => rfl
    | ok r =>
      obtain ⟨e, rest, h⟩ := r
      cases rest <;> rfl

/-- A cursor before no blank is at the end of the text when there are no more tokens. -/
theorem atEnd_stands {text cs : List Char} {place depth : Nat} (stands : Stands text place cs) (ink : Inked cs) :
    atEnd text ⟨place, depth⟩ = .ok ((scanFrom place cs).isEmpty, ⟨place, depth⟩) := by
  have size := stands.size
  show Except.ok (place == byteSize text, (⟨place, depth⟩ : Cursor)) = _
  cases cs with
  | nil =>
    have last : place = byteSize text := size
    rw [scanFrom, last, beq_self_eq_true]
    rfl
  | cons c cs =>
    have least := Text.length_le_byteSize (c :: cs)
    rw [List.length_cons] at least
    have before : place ≠ byteSize text := by omega
    rw [scanFrom_cons_of_ink (ink c rfl), beq_eq_false_iff_ne.2 before]
    rfl

/-- What comes of a whole text: the same error, at a boundary, or the same value. -/
inductive Concludes (text : List Char) : Except Stop (Expr × Cursor) → Except ParseError Expr → Prop where
  | error {e : ParseError} (boundary : IsBoundary text e.offset) :
      Concludes text (.error (.error e)) (.error e)
  | ok {e : Expr} {c : Cursor} : Concludes text (.ok (e, c)) (.ok e)

theorem Concludes.after {text : List Char} {α : Type} {x : Reading α} {f : α → Reading Expr} {s s' : Cursor}
    {a : α} {r : Except ParseError Expr} (run : x s = .ok (a, s')) (h : Concludes text (f a s') r) :
    Concludes text ((x >>= f) s) r := by
  rw [reading_bind_ok run]
  exact h

/-- Behind the expression there must be no more tokens. -/
theorem readEnd_concludes {text cs : List Char} {place depth : Nat} (e : Expr) (stands : Stands text place cs) :
    Concludes text (readEnd text e ⟨place, depth⟩) (match scanFrom place cs with
      | [] => .ok e
      | t :: _ => .error ⟨t.start, .trailingInput⟩) := by
  obtain ⟨next, behind, blanks, -, stands', ink, ahead⟩ := blanks_stands depth stands
  refine .after blanks (.after (atEnd_stands stands' ink) ?_)
  have start := offsetOf_stands ink stands'
  rw [ahead] at start ⊢
  cases tokens : scanFrom place cs with
  | nil => exact .ok
  | cons t rest =>
    rw [tokens] at start
    obtain rfl : t.start = next := start
    exact .error stands'.isBoundary

theorem readText_concludes (text : String) :
    Concludes text.toList (readText text.toList ⟨0, 0⟩) (parse text) := by
  obtain ⟨next, behind, blanks, -, stands, ink, ahead⟩ :=
    blanks_stands 0 (⟨[], rfl, rfl⟩ : Stands text.toList 0 text.toList)
  have ahead : scanFrom next behind = scan text.toList := ahead
  rw [parse_eq]
  refine .after blanks (.after (atEnd_stands stands ink) ?_)
  have start := offsetOf_stands ink stands
  rw [ahead] at start ⊢
  by_cases none : scan text.toList = []
  · rw [if_pos none, none]
    rw [none] at start
    have last : byteSize text.toList = next := start
    rw [last]
    exact .error stands.isBoundary
  · rw [if_neg none, List.isEmpty_eq_false_iff.2 none]
    have sum := read_follows text.toList maxCalls .sum next 0 behind stands (Nat.zero_le _) (Nat.le_refl _)
    have tokens : plain (Rule.sum.parse (byteSize text.toList) 0 (Rule.sum.ahead next behind)) =
        plain (parseSum (byteSize text.toList) 0 (scan text.toList)) := by
      rw [← ahead]
      rfl
    rw [tokens] at sum
    generalize plain (parseSum (byteSize text.toList) 0 (scan text.toList)) = outcome at sum
    generalize run : Rule.sum.read text.toList maxCalls ⟨next, 0⟩ = result at sum
    cases sum with
    | error boundary =>
      rw [show (if false = true then fail .empty else _ : Reading Expr) _ = _ from reading_bind_error run]
      exact .error boundary
    | ok _ stands' => exact .after run (readEnd_concludes _ stands')

/-! ### Safety -/

/-- What a reading function that starts with the cursor `c` may come to: an error at a boundary of the text; or
an expression, with the cursor further on at another boundary, and the depth as before.  A crash is not among
these. -/
inductive Cursor.Sound (text : String) (c : Cursor) : Except Stop (Expr × Cursor) → Prop where
  | error {e : ParseError} (inside : e.offset ≤ text.utf8ByteSize)
      (boundary : String.Pos.Raw.IsValid text ⟨e.offset⟩) : Sound text c (.error (.error e))
  | ok {e : Expr} {c' : Cursor} (on : c.place < c'.place) (inside : c'.place ≤ text.utf8ByteSize)
      (boundary : String.Pos.Raw.IsValid text ⟨c'.place⟩) (depth : c'.depth = c.depth) :
      Sound text c (.ok (e, c'))

/-- A boundary is a position of the string. -/
theorem position_of_isBoundary {text : String} {n : Nat} (h : IsBoundary text.toList n) :
    n ≤ text.utf8ByteSize ∧ String.Pos.Raw.IsValid text ⟨n⟩ := by
  refine ⟨?_, (Text.isBoundary_iff_isValid text n).1 h⟩
  rw [Text.utf8ByteSize_eq_byteSize]
  exact h.le

theorem read_sound {text : String} {c : Cursor} (boundary : String.Pos.Raw.IsValid text ⟨c.place⟩)
    (within : c.depth ≤ maxDepth) {rule : Rule} {room : Nat} (enough : rule.calls c.depth ≤ room) :
    c.Sound text (rule.read text.toList room c) := by
  obtain ⟨cs, stands⟩ := Stands.of_isBoundary ((Text.isBoundary_iff_isValid text c.place).2 boundary)
  have follows := read_follows text.toList room rule c.place c.depth cs stands within enough
  generalize plain (rule.parse (byteSize text.toList) c.depth (rule.ahead c.place cs)) = outcome at follows
  generalize rule.read text.toList room c = result at follows
  cases follows with
  | error boundary =>
    obtain ⟨inside, boundary⟩ := position_of_isBoundary boundary
    exact .error inside boundary
  | ok on stands =>
    obtain ⟨inside, boundary⟩ := position_of_isBoundary stands.isBoundary
    exact .ok on inside boundary rfl

theorem calls_le_maxCalls (rule : Rule) (depth : Nat) : rule.calls depth ≤ maxCalls := by
  unfold maxCalls
  cases rule <;> simp only [Rule.calls] <;> omega

/-- **Reading is safe on every text.**  The cursor never goes behind the end, never cuts a character, never gives
back a level that it has not charged, and never has more than `maxCalls` calls inside each other; no loop goes
on for ever.  A reading function that succeeds has moved on and has restored the depth, and errors are
between characters of the text. -/
theorem compile_safe (text : String) :
    compile text = (parse text).mapError .error ∧
      (∀ e, parse text = .error e →
        e.offset ≤ text.utf8ByteSize ∧ String.Pos.Raw.IsValid text ⟨e.offset⟩) ∧
      ∀ (rule : Rule) (c : Cursor), String.Pos.Raw.IsValid text ⟨c.place⟩ → c.depth ≤ maxDepth →
        rule.calls c.depth ≤ maxCalls ∧
          ∀ room, rule.calls c.depth ≤ room → c.Sound text (rule.read text.toList room c) := by
  have whole := readText_concludes text
  refine ⟨?_, fun e wrong => ?_, fun rule c boundary within =>
    ⟨calls_le_maxCalls rule c.depth, fun room enough => read_sound boundary within enough⟩⟩
  · unfold compile
    generalize readText text.toList ⟨0, 0⟩ = result at whole ⊢
    generalize parse text = outcome at whole ⊢
    cases whole with
    | error => rfl
    | ok => rfl
  · rw [wrong] at whole
    generalize readText text.toList ⟨0, 0⟩ = result at whole
    cases whole with
    | error boundary => exact position_of_isBoundary boundary

/-- The operand is missing where a character of two bytes is. -/
theorem compile_safe_accent : parse "1 + é" = .error ⟨4, .unexpectedByte 0xC3⟩ ∧
    4 ≤ "1 + é".utf8ByteSize ∧ String.Pos.Raw.IsValid "1 + é" ⟨4⟩ ∧
      (⟨4, 0⟩ : Cursor).Sound "1 + é" (Rule.primary.read "1 + é".toList 602 ⟨4, 0⟩) := by
  obtain ⟨same, errors, rules⟩ := compile_safe "1 + é"
  have run : compile "1 + é" = .error (.error ⟨4, .unexpectedByte 0xC3⟩) := rfl
  have wrong : parse "1 + é" = .error ⟨4, .unexpectedByte 0xC3⟩ := by
    rw [run] at same
    generalize parse "1 + é" = outcome at same ⊢
    cases outcome with
    | error e => rw [Stop.error.inj (Except.error.inj same)]
    | ok => exact nomatch same
  obtain ⟨inside, boundary⟩ := errors _ wrong
  obtain ⟨-, primary⟩ := rules .primary ⟨4, 0⟩ boundary (Nat.zero_le _)
  exact ⟨wrong, inside, boundary, primary 602 (Nat.le_refl _)⟩

end FrameOverlay.Expr
