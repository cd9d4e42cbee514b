import FrameOverlay.Proofs.Expr.Descent
import FrameOverlay.Proofs.Expr.Lexing

/-!
# The grammar is what is read

A text is read as an expression exactly if it stands for it.

* `Phrase.Read`, `Derives.read` — whatever derives is read, wherever it stands;
* `Phrase.Taken`, `Sound` — whatever is read derives;
* `denotes_of_parse`, `parse_of_denotes` — both halves for whole texts;
* `parse_iff` — **reading a text and deriving it are one**.

A chain is derived from the left, while the descent goes on with the operators that follow.  So what is
proved of a chain leaves open how it goes on: it is read if what follows is read with the chain as its left
operand.
-/

namespace FrameOverlay.Expr

/-! ### Operators -/

theorem sumOperator?_eq_some {t : Token} {op : BinaryOp} :
    sumOperator? t = some op ↔ t = .operator op ∧ (op = .add ∨ op = .sub) := by
  cases t with
  | operator o => cases o <;> cases op <;> simp [sumOperator?]
  | _ => simp [sumOperator?]

theorem productOperator?_eq_some {t : Token} {op : BinaryOp} :
    productOperator? t = some op ↔ t = .operator op ∧ (op = .mul ∨ op = .div) := by
  cases t with
  | operator o => cases o <;> cases op <;> simp [productOperator?]
  | _ => simp [productOperator?]

/-! ### What may follow a phrase -/

/-- How far up the grammar a token is still about the phrase before it. -/
def Token.rank : Token → Nat
  | .opening => 0
  | .operator .pow => 1
  | .operator .mul | .operator .div => 2
  | .operator .add | .operator .sub => 3
  | _ => 4

/-- The token ahead, if any, ranks above `n`. -/
def Stops (n : Nat) (ls : List Located) : Prop := ∀ t ∈ ls.head?, n < t.token.rank

theorem Stops.mono {m n : Nat} {ls : List Located} (h : Stops n ls) (less : m ≤ n) : Stops m ls :=
  fun t ht => Nat.lt_of_le_of_lt less (h t ht)

theorem stops_nil (n : Nat) : Stops n [] := fun t ht => absurd ht (Option.not_mem_none t)

theorem stops_cons {n : Nat} {t : Located} {ls : List Located} (h : n < t.token.rank) :
    Stops n (t :: ls) := fun u hu => by
  obtain rfl := Option.some.inj hu
  exact h

/-- The highest rank of a token that would go on with a phrase.  A chain may go on. -/
def Phrase.rank : Phrase → Nat
  | .primary _ => 0
  | .power _ | .signed _ | .product .. => 1
  | .sum .. => 2
  | .arguments _ => 3

section Following

variable {size d : Nat} {e left : Expr} {ls rest : List Located}

theorem parseTerms_end (h : Stops 3 rest) : Yields (parseTerms size d e rest) e rest := by
  cases rest with
  | nil => exact parseTerms_nil.2 ⟨rfl, rfl⟩
  | cons t rest =>
    refine (parseTerms_stop (Option.eq_none_iff_forall_ne_some.2 fun op sign => ?_)).2 ⟨rfl, rfl⟩
    have above := h t rfl
    obtain ⟨same, rfl | rfl⟩ := sumOperator?_eq_some.1 sign <;> rw [same] at above <;>
      exact absurd above (by decide)

theorem parseFactors_end (h : Stops 2 rest) : Yields (parseFactors size d e rest) e rest := by
  cases rest with
  | nil => exact parseFactors_nil.2 ⟨rfl, rfl⟩
  | cons t rest =>
    refine (parseFactors_stop (Option.eq_none_iff_forall_ne_some.2 fun op sign => ?_)).2 ⟨rfl, rfl⟩
    have above := h t rfl
    obtain ⟨same, rfl | rfl⟩ := productOperator?_eq_some.1 sign <;> rw [same] at above <;>
      exact absurd above (by decide)

end Following

/-! ### Whatever derives is read -/

/-- The phrase is read of `ls`, with `rest` behind it. -/
def Phrase.Read (size d : Nat) (ls rest : List Located) : Phrase → Prop
  | .sum k e => ∀ e' behind, Yields (parseTerms size (d + k) e rest) e' behind →
      Yields (parseSum size d ls) e' behind
  | .product k e => ∀ e' behind, Yields (parseFactors size (d + k) e rest) e' behind →
      Yields (parseProduct size d ls) e' behind
  | .signed e => Yields (parseSigned size d ls) e rest
  | .power e => Yields (parsePower size d ls) e rest
  | .primary e => Yields (parsePrimary size d ls) e rest
  | .arguments es => ∀ start behind, rest = ⟨start, .closing⟩ :: behind →
      Yields (parseArguments size d ls) es behind

/-- Where a token stands among others. -/
theorem exists_place {front : List Located} {ts us : List Token} {t : Token}
    (h : front.map Located.token = ts ++ t :: us) : ∃ before start after,
      front = before ++ ⟨start, t⟩ :: after ∧ before.map Located.token = ts ∧
        after.map Located.token = us := by
  obtain ⟨before, others, rfl, first, second⟩ := List.map_eq_append_iff.1 h
  obtain ⟨⟨start, token⟩, after, rfl, rfl, last⟩ := List.map_eq_cons_iff.1 second
  exact ⟨before, start, after, rfl, first, last⟩

/-- A token that stands alone. -/
theorem exists_single {front : List Located} {t : Token} (h : front.map Located.token = [t]) :
    ∃ start, front = [⟨start, t⟩] := by
  obtain ⟨⟨start, token⟩, after, rfl, rfl, none⟩ := List.map_eq_cons_iff.1 h
  obtain rfl := List.map_eq_nil_iff.1 none
  exact ⟨start, rfl⟩

/-- No constant has the name of a variable. -/
theorem variable_of_constant {s : String} {c : Constant} (h : Constant.ofName? s = some c) :
    Variable.ofName? s = none := by
  obtain ⟨before, after, same, -⟩ := List.lookup_eq_some_iff.1 h
  have mem : (s, c) ∈ [("PI", Constant.pi), ("E", .e), ("PHI", .phi)] := by
    rw [same]
    exact List.mem_append_right _ List.mem_cons_self
  simp only [List.mem_cons, Prod.mk.injEq, List.not_mem_nil, or_false] at mem
  rcases mem with ⟨rfl, -⟩ | ⟨rfl, -⟩ | ⟨rfl, -⟩ <;> rfl

/-- A name that is not called stands for a variable or for a constant. -/
theorem named?_eq_some {name : List Char} {e : Expr} : named? name = some e ↔
    (∃ v, Variable.ofName? (String.ofList name) = some v ∧ e = .var v) ∨
      ∃ c, Constant.ofName? (String.ofList name) = some c ∧ e = .const c := by
  unfold named?
  cases found : Variable.ofName? (String.ofList name) with
  | some v =>
    constructor
    · intro same
      exact .inl ⟨v, rfl, (Option.some.inj same).symm⟩
    · rintro (⟨_, same, rfl⟩ | ⟨c, constant, -⟩)
      · rw [Option.some.inj same]
      · exact nomatch found.symm.trans (variable_of_constant constant)
  | none =>
    constructor
    · intro same
      obtain ⟨c, constant, value⟩ := Option.map_eq_some_iff.1 same
      exact .inr ⟨c, constant, value.symm⟩
    · rintro (⟨_, same, -⟩ | ⟨c, constant, rfl⟩)
      · exact nomatch same
      · exact Option.map_eq_some_iff.2 ⟨c, constant, rfl⟩

theorem not_opening {rest : List Located} (h : Stops 0 rest) : ∀ t ∈ rest.head?, t.token ≠ .opening := by
  intro t ahead opening
  have above := h t ahead
  rw [opening] at above
  exact absurd above (Nat.lt_irrefl 0)

/-- A phrase that is an operand starts with no sign. -/
theorem unsigned_of_parsePower {size d : Nat} {e : Expr} {ls rest : List Located}
    (h : Yields (parsePower size d ls) e rest) : ∀ t ∈ ls.head?, sumOperator? t.token = none := by
  obtain ⟨base, mid, primary, -⟩ := parsePower_yields.1 h
  intro t ahead
  obtain ⟨start, ts, rfl⟩ := eq_cons_of_head ahead rfl
  cases token : t.token with
  | operator op =>
    rw [token] at primary
    exact absurd primary (not_parsePrimary (by simp) (by simp) (by simp))
  | _ => rfl

theorem Derives.read {d : Nat} {p : Phrase} {ts : List Token} (h : Derives d p ts) (size : Nat) :
    ∀ front rest : List Located, front.map Located.token = ts → Stops p.rank rest →
      p.Read size d (front ++ rest) rest := by
  induction h with
  | term first ih =>
    intro front rest tokens stops e' behind goes
    have product := ih front rest tokens (stops.mono (Nat.le_succ 1)) _ rest (parseFactors_end stops)
    exact parseSum_yields.2 ⟨_, rest, product, goes⟩
  | @terms d j k op l r ts us left sign room right ihl ihr =>
    intro front rest tokens stops e' behind goes
    obtain ⟨before, start, after, rfl, first, second⟩ := exists_place tokens
    have taken : sumOperator? (.operator op) = some op := by rcases sign with rfl | rfl <;> rfl
    have product := ihr after rest second (stops.mono (Nat.le_succ 1)) _ rest (parseFactors_end stops)
    rw [List.append_assoc, List.cons_append]
    refine ihl before _ first (stops_cons ?_) e' behind ?_
    · show 2 < Token.rank (.operator op)
      rcases sign with rfl | rfl <;> decide
    · exact (parseTerms_more taken).2 ⟨room, r, rest, product, goes⟩
  | factor first ih =>
    intro front rest tokens stops e' behind goes
    exact parseProduct_yields.2 ⟨_, rest, ih front rest tokens stops, goes⟩
  | @factors d k op l r ts us left sign room right ihl ihr =>
    intro front rest tokens stops e' behind goes
    obtain ⟨before, start, after, rfl, first, second⟩ := exists_place tokens
    have taken : productOperator? (.operator op) = some op := by rcases sign with rfl | rfl <;> rfl
    rw [List.append_assoc, List.cons_append]
    refine ihl before _ first (stops_cons ?_) e' behind ?_
    · show 1 < Token.rank (.operator op)
      rcases sign with rfl | rfl <;> decide
    · exact (parseFactors_more taken).2 ⟨room, r, rest, ihr after rest second stops, goes⟩
  | minus room operand ih =>
    intro front rest tokens stops
    obtain ⟨⟨start, token⟩, after, rfl, rfl, second⟩ := List.map_eq_cons_iff.1 tokens
    exact parseSigned_minus.2 ⟨room, _, ih after rest second stops, rfl⟩
  | plus room operand ih =>
    intro front rest tokens stops
    obtain ⟨⟨start, token⟩, after, rfl, rfl, second⟩ := List.map_eq_cons_iff.1 tokens
    exact parseSigned_plus.2 ⟨room, ih after rest second stops⟩
  | unsigned power ih =>
    intro front rest tokens stops
    have read := ih front rest tokens stops
    exact (parseSigned_other (unsigned_of_parsePower read)).2 read
  | plain primary ih =>
    intro front rest tokens stops
    have read := ih front rest tokens (stops.mono (Nat.zero_le 1))
    refine parsePower_yields.2 ⟨_, rest, read, .inr ⟨fun t ahead power => ?_, rfl, rfl⟩⟩
    have above := stops t ahead
    rw [power] at above
    exact absurd above (Nat.lt_irrefl 1)
  | raised primary room operand ihp iho =>
    intro front rest tokens stops
    obtain ⟨before, start, after, rfl, first, second⟩ := exists_place tokens
    rw [List.append_assoc, List.cons_append]
    have ahead : Stops 0 (⟨start, .operator .pow⟩ :: (after ++ rest)) := stops_cons Nat.one_pos
    have base := ihp before _ first ahead
    exact parsePower_yields.2 ⟨_, _, base, .inl ⟨start, _, _, rfl, room, iho after rest second stops, rfl⟩⟩
  | numeral valid =>
    intro front rest tokens stops
    obtain ⟨start, rfl⟩ := exists_single tokens
    exact parsePrimary_numeral.2 ⟨_, valid, rfl, rfl⟩
  | @named d name v known =>
    intro front rest tokens stops
    obtain ⟨start, rfl⟩ := exists_single tokens
    exact (parsePrimary_name (not_opening stops)).2 ⟨named?_eq_some.2 (.inl ⟨v, known, rfl⟩), rfl⟩
  | @constant d name c known =>
    intro front rest tokens stops
    obtain ⟨start, rfl⟩ := exists_single tokens
    exact (parsePrimary_name (not_opening stops)).2 ⟨named?_eq_some.2 (.inr ⟨c, known, rfl⟩), rfl⟩
  | @call d name f args ts known room _ least most ih =>
    intro front rest tokens stops
    obtain ⟨⟨start, first⟩, behind, rfl, rfl, tokens'⟩ := List.map_eq_cons_iff.1 tokens
    obtain ⟨⟨bracket, second⟩, others, rfl, rfl, tokens''⟩ := List.map_eq_cons_iff.1 tokens'
    obtain ⟨inside, close, after, rfl, arguments, last⟩ := exists_place tokens''
    obtain rfl := List.map_eq_nil_iff.1 last
    have ahead : Stops 3 (⟨close, .closing⟩ :: rest) := stops_cons (Nat.lt_succ_self 3)
    have read := ih inside _ arguments ahead close rest rfl
    rw [List.cons_append, List.cons_append, List.append_assoc]
    exact parsePrimary_call.2 ⟨f, known, room, args, read, least, most, rfl⟩
  | @parentheses d k e ts room _ ih =>
    intro front rest tokens stops
    obtain ⟨⟨start, first⟩, behind, rfl, rfl, tokens'⟩ := List.map_eq_cons_iff.1 tokens
    obtain ⟨inside, close, after, rfl, sum, last⟩ := exists_place tokens'
    obtain rfl := List.map_eq_nil_iff.1 last
    have ahead : Stops 3 (⟨close, .closing⟩ :: rest) := stops_cons (Nat.lt_succ_self 3)
    have read := ih inside _ sum (ahead.mono (Nat.le_succ 2)) e _ (parseTerms_end ahead)
    rw [List.cons_append, List.append_assoc]
    exact parsePrimary_parentheses.2 ⟨room, close, read⟩
  | @argument d k e ts _ ih =>
    intro front rest tokens stops close behind same
    have read := ih front rest tokens (stops.mono (Nat.le_succ 2)) e rest (parseTerms_end stops)
    exact parseArguments_yields.2 ⟨e, rest, read, .inr ⟨close, same, rfl⟩⟩
  | @arguments d k e es ts us _ _ ihf iho =>
    intro front rest tokens stops close behind same
    obtain ⟨before, start, after, rfl, first, second⟩ := exists_place tokens
    have ahead : Stops 3 (⟨start, .comma⟩ :: (after ++ rest)) := stops_cons (Nat.lt_succ_self 3)
    have read := ihf before _ first (ahead.mono (Nat.le_succ 2)) e _ (parseTerms_end ahead)
    have others := iho after rest second stops close behind same
    rw [List.append_assoc, List.cons_append]
    exact parseArguments_yields.2 ⟨e, _, read, .inl ⟨start, _, es, rfl, others, rfl⟩⟩

/-! ### Whatever is read derives -/

/-- The phrase derives from the tokens in front of `rest`. -/
def Phrase.Taken (d : Nat) (p : Phrase) (ls rest : List Located) : Prop :=
  ∃ front, ls = front ++ rest ∧ Derives d p (front.map Located.token)

/-- The tokens in front of `rest` go on with a chain that took `ts`, and make it `e`. -/
def Continued (chain : Nat → Expr → Phrase) (d : Nat) (e : Expr) (ts : List Token)
    (ls rest : List Located) : Prop :=
  ∃ j front, ls = front ++ rest ∧ Derives d (chain j e) (ts ++ front.map Located.token)

namespace Continued

variable {chain : Nat → Expr → Phrase} {d k : Nat} {e : Expr} {ts : List Token} {ls rest : List Located}

/-- A chain that ends here. -/
theorem stop (before : Derives d (chain k e) ts) : Continued chain d e ts ls ls :=
  ⟨k, [], rfl, by rw [List.map_nil, List.append_nil]; exact before⟩

/-- A chain that takes an operator with its right operand. -/
theorem more {t : Located} {op : BinaryOp} {front : List Located} (same : t.token = .operator op)
    (goes : Continued chain d e (ts ++ .operator op :: front.map Located.token) ls rest) :
    Continued chain d e ts (t :: (front ++ ls)) rest := by
  obtain ⟨j, others, rfl, derives⟩ := goes
  refine ⟨j, t :: (front ++ others), by simp, ?_⟩
  rw [List.map_cons, same, List.map_append]
  rwa [List.append_assoc, List.cons_append] at derives

/-- A chain with its first operand. -/
theorem taken {front : List Located} (goes : Continued chain d e (front.map Located.token) ls rest) :
    ∃ k, Phrase.Taken d (chain k e) (front ++ ls) rest := by
  obtain ⟨j, others, rfl, derives⟩ := goes
  refine ⟨j, front ++ others, (List.append_assoc _ _ _).symm, ?_⟩
  rwa [List.map_append]

end Continued

/-- Whatever is read of fewer than `n` tokens derives.  A chain goes on from any derivation of its left
operand. -/
structure Sound (size n : Nat) : Prop where
  sum {d : Nat} {ls rest : List Located} {e : Expr} (few : ls.length < n)
    (h : Yields (parseSum size d ls) e rest) : ∃ k, Phrase.Taken d (.sum k e) ls rest
  terms {d k : Nat} {ls rest : List Located} {left e : Expr} {ts : List Token} (few : ls.length < n)
    (h : Yields (parseTerms size (d + k) left ls) e rest) (before : Derives d (.sum k left) ts) :
    Continued .sum d e ts ls rest
  factors {d k : Nat} {ls rest : List Located} {left e : Expr} {ts : List Token} (few : ls.length < n)
    (h : Yields (parseFactors size (d + k) left ls) e rest) (before : Derives d (.product k left) ts) :
    Continued .product d e ts ls rest
  product {d : Nat} {ls rest : List Located} {e : Expr} (few : ls.length < n)
    (h : Yields (parseProduct size d ls) e rest) : ∃ k, Phrase.Taken d (.product k e) ls rest
  signed {d : Nat} {ls rest : List Located} {e : Expr} (few : ls.length < n)
    (h : Yields (parseSigned size d ls) e rest) : Phrase.Taken d (.signed e) ls rest
  arguments {d : Nat} {ls rest : List Located} {es : List Expr} (few : ls.length < n)
    (h : Yields (parseArguments size d ls) es rest) :
    ∃ start, Phrase.Taken d (.arguments es) ls (⟨start, .closing⟩ :: rest)

namespace Sound

variable {size n d : Nat} {ls rest : List Located} {e : Expr}

theorem call_step (ih : Sound size n) {start bracket : Nat} {name : List Char}
    (few : ls.length < n)
    (h : Yields (parsePrimary size d (⟨start, .name name⟩ :: ⟨bracket, .opening⟩ :: ls)) e rest) :
    Phrase.Taken d (.primary e) (⟨start, .name name⟩ :: ⟨bracket, .opening⟩ :: ls) rest := by
  obtain ⟨f, known, room, args, read, least, most, rfl⟩ := parsePrimary_call.1 h
  obtain ⟨close, front, rfl, arguments⟩ := ih.arguments few read
  refine ⟨⟨start, .name name⟩ :: ⟨bracket, .opening⟩ :: (front ++ [⟨close, .closing⟩]), by simp, ?_⟩
  rw [List.map_cons, List.map_cons, List.map_append]
  exact .call known room arguments least most

theorem parentheses_step (ih : Sound size n) {start : Nat} (few : ls.length < n)
    (h : Yields (parsePrimary size d (⟨start, .opening⟩ :: ls)) e rest) :
    Phrase.Taken d (.primary e) (⟨start, .opening⟩ :: ls) rest := by
  obtain ⟨room, close, read⟩ := parsePrimary_parentheses.1 h
  obtain ⟨k, front, rfl, inside⟩ := ih.sum few read
  refine ⟨⟨start, .opening⟩ :: (front ++ [⟨close, .closing⟩]), by simp, ?_⟩
  rw [List.map_cons, List.map_append]
  exact .parentheses room inside

theorem name_step {start : Nat} {name : List Char} (other : ∀ t ∈ ls.head?, t.token ≠ .opening)
    (h : Yields (parsePrimary size d (⟨start, .name name⟩ :: ls)) e rest) :
    Phrase.Taken d (.primary e) (⟨start, .name name⟩ :: ls) rest := by
  obtain ⟨known, rfl⟩ := (parsePrimary_name other).1 h
  refine ⟨[⟨start, .name name⟩], rfl, ?_⟩
  rcases named?_eq_some.1 known with ⟨v, found, rfl⟩ | ⟨c, constant, rfl⟩
  · exact .named found
  · exact .constant constant

theorem primary_step (ih : Sound size n) (few : ls.length ≤ n)
    (h : Yields (parsePrimary size d ls) e rest) : Phrase.Taken d (.primary e) ls rest := by
  cases ls with
  | nil => exact absurd h parsePrimary_nil
  | cons t ls =>
  rcases t with ⟨start, token⟩
  cases token with
  | numeral text =>
    obtain ⟨value, valid, rfl, rfl⟩ := parsePrimary_numeral.1 h
    exact ⟨[⟨start, .numeral text⟩], rfl, .numeral valid⟩
  | name name =>
    by_cases call : ∃ t ∈ ls.head?, t.token = .opening
    · obtain ⟨t, ahead, opening⟩ := call
      obtain ⟨bracket, ls, rfl⟩ := eq_cons_of_head ahead opening
      exact ih.call_step (Nat.lt_of_succ_lt few) h
    · exact name_step (fun t ahead opening => call ⟨t, ahead, opening⟩) h
  | opening => exact ih.parentheses_step few h
  | operator | closing | comma | stray =>
    exact absurd h (not_parsePrimary (by simp) (by simp) (by simp))

theorem power_step (ih : Sound size n) (few : ls.length ≤ n)
    (h : Yields (parsePower size d ls) e rest) : Phrase.Taken d (.power e) ls rest := by
  obtain ⟨base, mid, read, behind⟩ := parsePower_yields.1 h
  obtain ⟨front, rfl, primary⟩ := ih.primary_step few read
  rcases behind with ⟨start, ls, exponent, rfl, room, read, rfl⟩ | ⟨-, rfl, rfl⟩
  · rw [List.length_append, List.length_cons] at few
    obtain ⟨others, rfl, operand⟩ := ih.signed (by omega) read
    refine ⟨front ++ ⟨start, .operator .pow⟩ :: others, by simp, ?_⟩
    rw [List.map_append, List.map_cons]
    exact .raised primary room operand
  · exact ⟨front, rfl, .plain primary⟩

theorem signed_step (ih : Sound size n) (few : ls.length ≤ n)
    (h : Yields (parseSigned size d ls) e rest) : Phrase.Taken d (.signed e) ls rest := by
  by_cases other : ∀ t ∈ ls.head?, sumOperator? t.token = none
  · obtain ⟨front, same, power⟩ := ih.power_step few ((parseSigned_other other).1 h)
    exact ⟨front, same, .unsigned power⟩
  · obtain ⟨t, ahead, some⟩ : ∃ t ∈ ls.head?, sumOperator? t.token ≠ none := by simpa using other
    obtain ⟨op, sign⟩ := Option.ne_none_iff_exists'.1 some
    obtain ⟨same, rfl | rfl⟩ := sumOperator?_eq_some.1 sign
    · obtain ⟨start, ls, rfl⟩ := eq_cons_of_head ahead same
      obtain ⟨room, read⟩ := parseSigned_plus.1 h
      obtain ⟨front, rfl, operand⟩ := ih.signed few read
      exact ⟨⟨start, .operator .add⟩ :: front, rfl, .plus room operand⟩
    · obtain ⟨start, ls, rfl⟩ := eq_cons_of_head ahead same
      obtain ⟨room, e', read, rfl⟩ := parseSigned_minus.1 h
      obtain ⟨front, rfl, operand⟩ := ih.signed few read
      exact ⟨⟨start, .operator .sub⟩ :: front, rfl, .minus room operand⟩

theorem factors_step (ih : Sound size n) {k : Nat} {left : Expr} {ts : List Token} (few : ls.length ≤ n)
    (h : Yields (parseFactors size (d + k) left ls) e rest) (before : Derives d (.product k left) ts) :
    Continued .product d e ts ls rest := by
  cases ls with
  | nil =>
    obtain ⟨rfl, rfl⟩ := parseFactors_nil.1 h
    exact .stop before
  | cons t ls =>
  cases sign : productOperator? t.token with
  | none =>
    obtain ⟨rfl, rfl⟩ := (parseFactors_stop sign).1 h
    exact .stop before
  | some op =>
    obtain ⟨room, right, mid, read, goes⟩ := (parseFactors_more sign).1 h
    obtain ⟨same, either⟩ := productOperator?_eq_some.1 sign
    obtain ⟨front, rfl, operand⟩ := ih.signed few read
    have both := before.factors either room operand
    rw [List.length_cons, List.length_append] at few
    exact .more same (ih.factors (k := k + 1) (by omega) goes both)

theorem product_step (ih : Sound size n) (few : ls.length ≤ n)
    (h : Yields (parseProduct size d ls) e rest) : ∃ k, Phrase.Taken d (.product k e) ls rest := by
  obtain ⟨first, mid, read, goes⟩ := parseProduct_yields.1 h
  have fewer := Nat.lt_of_lt_of_le read.1 few
  obtain ⟨front, rfl, operand⟩ := ih.signed_step few read
  exact (ih.factors (k := 0) fewer goes (.factor operand)).taken

theorem terms_step (ih : Sound size n) {k : Nat} {left : Expr} {ts : List Token} (few : ls.length ≤ n)
    (h : Yields (parseTerms size (d + k) left ls) e rest) (before : Derives d (.sum k left) ts) :
    Continued .sum d e ts ls rest := by
  cases ls with
  | nil =>
    obtain ⟨rfl, rfl⟩ := parseTerms_nil.1 h
    exact .stop before
  | cons t ls =>
  cases sign : sumOperator? t.token with
  | none =>
    obtain ⟨rfl, rfl⟩ := (parseTerms_stop sign).1 h
    exact .stop before
  | some op =>
    obtain ⟨room, right, mid, read, goes⟩ := (parseTerms_more sign).1 h
    obtain ⟨same, either⟩ := sumOperator?_eq_some.1 sign
    obtain ⟨i, front, rfl, product⟩ := ih.product few read
    have both := before.terms either room product
    rw [List.length_cons, List.length_append] at few
    exact .more same (ih.terms (k := k + 1) (by omega) goes both)

theorem sum_step (ih : Sound size n) (few : ls.length ≤ n)
    (h : Yields (parseSum size d ls) e rest) : ∃ k, Phrase.Taken d (.sum k e) ls rest := by
  obtain ⟨first, mid, read, goes⟩ := parseSum_yields.1 h
  have fewer := Nat.lt_of_lt_of_le read.1 few
  obtain ⟨k, front, rfl, product⟩ := ih.product_step few read
  exact (ih.terms (k := 0) fewer goes (.term product)).taken

theorem arguments_step (ih : Sound size n) {es : List Expr} (few : ls.length ≤ n)
    (h : Yields (parseArguments size d ls) es rest) :
    ∃ start, Phrase.Taken d (.arguments es) ls (⟨start, .closing⟩ :: rest) := by
  obtain ⟨first, mid, read, behind⟩ := parseArguments_yields.1 h
  obtain ⟨k, front, rfl, sum⟩ := ih.sum_step few read
  rcases behind with ⟨start, ls, others, rfl, goes, rfl⟩ | ⟨close, rfl, rfl⟩
  · rw [List.length_append, List.length_cons] at few
    obtain ⟨close, more, rfl, arguments⟩ := ih.arguments (by omega) goes
    refine ⟨close, front ++ ⟨start, .comma⟩ :: more, by simp, ?_⟩
    rw [List.map_append, List.map_cons]
    exact .arguments sum arguments
  · exact ⟨close, front, rfl, .argument sum⟩

end Sound

/-- Whatever is read derives, however many tokens there are. -/
theorem sound (size n : Nat) : Sound size n := by
  induction n with
  | zero =>
    exact
      { sum := fun few _ => absurd few (Nat.not_lt_zero _)
        terms := fun few _ _ => absurd few (Nat.not_lt_zero _)
        factors := fun few _ _ => absurd few (Nat.not_lt_zero _)
        product := fun few _ => absurd few (Nat.not_lt_zero _)
        signed := fun few _ => absurd few (Nat.not_lt_zero _)
        arguments := fun few _ => absurd few (Nat.not_lt_zero _) }
  | succ n ih =>
    exact
      { sum := fun few h => ih.sum_step (Nat.le_of_lt_succ few) h
        terms := fun few h before => ih.terms_step (Nat.le_of_lt_succ few) h before
        factors := fun few h before => ih.factors_step (Nat.le_of_lt_succ few) h before
        product := fun few h => ih.product_step (Nat.le_of_lt_succ few) h
        signed := fun few h => ih.signed_step (Nat.le_of_lt_succ few) h
        arguments := fun few h => ih.arguments_step (Nat.le_of_lt_succ few) h }

/-! ### Texts -/

/-- Whatever is read of a text, the text stands for. -/
theorem denotes_of_parse {text : String} {e : Expr} (h : parse text = .ok e) : Denotes text e := by
  obtain ⟨k, front, same, derives⟩ := (sound _ _).sum (Nat.lt_succ_self _) (parse_ok_iff.1 h)
  rw [List.append_nil] at same
  rw [← same] at derives
  exact ⟨_, munch_iff.2 rfl, k, derives⟩

/-- A text is read as whatever it stands for. -/
theorem parse_of_denotes {text : String} {e : Expr} (h : Denotes text e) : parse text = .ok e := by
  obtain ⟨ts, munch, k, derives⟩ := h
  have read := derives.read (Text.byteSize text.toList) (scan text.toList) [] (munch_iff.1 munch).symm
    (stops_nil _) e [] (parseTerms_end (stops_nil 3))
  rw [List.append_nil] at read
  exact parse_ok_iff.2 read

/-- **The grammar is what is read.**  A text is read as an expression exactly if it stands for it: cut into
its longest pieces it derives from the grammar, with no name unknown, no call with too few or too many
arguments, no numeral invalid, and nowhere more levels open than there may be; and the expression is the one
that the derivation gives. -/
theorem parse_iff (text : String) (e : Expr) : parse text = .ok e ↔ Denotes text e := by
  constructor
  · intro h
    exact denotes_of_parse h
  · intro h
    exact parse_of_denotes h

end FrameOverlay.Expr
