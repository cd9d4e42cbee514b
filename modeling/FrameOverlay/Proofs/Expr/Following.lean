import FrameOverlay.Proofs.Expr.Outcomes
import FrameOverlay.Proofs.Expr.Steps

/-!
# Reading byte by byte follows the tokens

The cursor does what the tokens say.  Take any reading function and a cursor that stands between two
characters.  The tokens ahead say what comes of the function; if it succeeds then the cursor has moved on to
where they say, and the nesting depth is as before.

* `Agrees` — what a reading function does with the cursor is what comes of it with the tokens ahead;
* `Rule.parse`, `Rule.ahead` — the function on tokens that belongs to a rule, and the tokens it is for;
* `Follows` — each rule agrees with its function, when there is room for the calls it makes;
* `chain_agrees`, `signed_agrees` and their siblings — one lemma for each rule, given what the others do;
* `read_follows` — **every rule follows the tokens**, by induction on the room.
-/

namespace FrameOverlay.Expr

open Reading
open Text (bytes byteSize byteChar IsBoundary firstByte)

/-! ### Agreement -/

/-- What comes of the cursor is what comes of the tokens: the same error, at a boundary of the text; or the same
value, with a cursor that has come to `base` at least, stands before the tokens that are left and is at `depth`. -/
inductive Agrees {α : Type} (text : List Char) (base depth : Nat) :
    Except Stop (α × Cursor) → Except ParseError (Readout α) → Prop where
  | error {e : ParseError} (boundary : IsBoundary text e.offset) :
      Agrees text base depth (.error (.error e)) (.error e)
  | ok {a : α} {place : Nat} {cs : List Char} (on : base ≤ place) (stands : Stands text place cs) :
      Agrees text base depth (.ok (a, ⟨place, depth⟩)) (.ok (a, scanFrom place cs))

section Agrees

variable {α β : Type} {text cs : List Char} {base base' place depth depth' : Nat}

theorem Agrees.mono {x : Except Stop (α × Cursor)} {r : Except ParseError (Readout α)}
    (h : Agrees text base depth x r) (le : base' ≤ base) : Agrees text base' depth x r := by
  cases h with
  | error boundary => exact .error boundary
  | ok on stands => exact .ok (Nat.le_trans le on) stands

theorem Agrees.bind {x : Reading α} {s : Cursor} {f : α → Reading β} {r : Except ParseError (Readout α)}
    {g : Readout α → Except ParseError (Readout β)} (first : Agrees text base depth (x s) r)
    (rest : ∀ a place cs, base ≤ place → Stands text place cs →
      Agrees text base' depth' (f a ⟨place, depth⟩) (g (a, scanFrom place cs))) :
    Agrees text base' depth' ((x >>= f) s) (r >>= g) := by
  generalize run : x s = outcome at first
  cases first with
  | error boundary =>
    rw [reading_bind_error run]
    exact .error boundary
  | ok on stands =>
    rw [reading_bind_ok run]
    exact rest _ _ _ on stands

/-- Something is made of the value. -/
theorem Agrees.map {x : Reading α} {s : Cursor} {r : Except ParseError (Readout α)} (f : α → β)
    (h : Agrees text base depth (x s) r) :
    Agrees text base depth ((do let a ← x; return f a) s) (r.map fun r => (f r.1, r.2)) := by
  generalize run : x s = outcome at h
  cases h with
  | error boundary =>
    rw [reading_bind_error run]
    exact .error boundary
  | ok on stands =>
    rw [reading_bind_ok run]
    exact .ok on stands

/-- Computations that leave the text alone. -/
theorem Agrees.after {x : Reading α} {f : α → Reading β} {s s' : Cursor} {a : α}
    {r : Except ParseError (Readout β)} (run : x s = .ok (a, s')) (h : Agrees text base depth (f a s') r) :
    Agrees text base depth ((x >>= f) s) r := by
  rw [reading_bind_ok run]
  exact h

/-- One level deeper, or no further. -/
theorem Agrees.deeper {f : Unit → Reading β} {g : Nat → Except ParseError (Readout β)}
    (stands : Stands text place cs)
    (rest : depth < maxDepth → Agrees text base depth' (f () ⟨place, depth + 1⟩) (g (depth + 1))) :
    Agrees text base depth' ((Reading.deeper >>= f) ⟨place, depth⟩) (descend place depth >>= g) := by
  unfold descend
  by_cases room : depth < maxDepth
  · have run : Reading.deeper ⟨place, depth⟩ = .ok ((), ⟨place, depth + 1⟩) := by
      show (if maxDepth < depth + 1 then fail .tooDeep else pure () : Reading Unit) ⟨place, depth + 1⟩ = _
      rw [if_neg (Nat.not_lt.2 room)]
      rfl
    rw [if_pos room]
    exact .after run (rest room)
  · have run : Reading.deeper ⟨place, depth⟩ = .error (.error ⟨place, .tooDeep⟩) := by
      show (if maxDepth < depth + 1 then fail .tooDeep else pure () : Reading Unit) ⟨place, depth + 1⟩ = _
      rw [if_pos (Nat.lt_succ_of_le (Nat.not_lt.1 room))]
      rfl
    rw [if_neg room, reading_bind_error run]
    exact .error stands.isBoundary

theorem ascend_ok {levels : Nat} : ascend levels ⟨place, depth + levels⟩ = .ok ((), ⟨place, depth⟩) := by
  show (if levels ≤ depth + levels then _ else _ : Reading Unit) _ = _
  rw [if_pos (Nat.le_add_left _ _)]
  show Except.ok ((), (⟨place, depth + levels - levels⟩ : Cursor)) = _
  rw [Nat.add_sub_cancel]

/-- One level is given back. -/
theorem Agrees.rise {x : Reading α} {s : Cursor} {r : Except ParseError (Readout α)}
    (h : Agrees text base (depth + 1) (x s) r) :
    Agrees text base depth ((do let a ← x; ascend 1; return a) s) r := by
  generalize run : x s = outcome at h
  cases h with
  | error boundary =>
    rw [reading_bind_error run]
    exact .error boundary
  | ok on stands =>
    rw [reading_bind_ok run, reading_bind_ok ascend_ok]
    exact .ok on stands

end Agrees

/-! ### Rules and tokens -/

namespace Rule

/-- The function on tokens for a rule.  Those for numerals and names are for operands in general. -/
def parse : Rule → (size depth : Nat) → (ts : List Located) → Parsed Expr ts
  | sum => parseSum
  | product => parseProduct
  | signed => parseSigned
  | power => parsePower
  | primary | numeral | name => parsePrimary

/-- The tokens that a rule is for.  A numeral or a name is what is read as one. -/
def ahead (rule : Rule) (place : Nat) (cs : List Char) : List Located :=
  match rule with
  | numeral => ⟨place, .numeral (numeralTail cs)⟩ ::
      scanFrom (place + byteSize (numeralTail cs)) (cs.drop (numeralTail cs).length)
  | name => ⟨place, .name (cs.takeWhile isNameChar)⟩ ::
      scanFrom (place + byteSize (cs.takeWhile isNameChar)) (cs.dropWhile isNameChar)
  | _ => scanFrom place cs

/-- One level deeper any function may be called, whichever calls it. -/
theorem calls_succ_lt (inner outer : Rule) {depth : Nat} (deep : depth < maxDepth) :
    inner.calls (depth + 1) < outer.calls depth := by
  have levels : 6 * (maxDepth - depth) = 6 * (maxDepth - (depth + 1)) + 6 := by omega
  cases inner <;> cases outer <;> simp only [calls] <;> omega

end Rule

/-- With room for so many calls inside each other, every rule agrees with its function on tokens. -/
def Follows (text : List Char) (room : Nat) (call : Rule → Reading Expr) : Prop :=
  ∀ (rule : Rule) (place depth : Nat) (cs : List Char), Stands text place cs → depth ≤ maxDepth →
    rule.calls depth ≤ room → Agrees text (place + 1) depth (call rule ⟨place, depth⟩)
      (plain (rule.parse (byteSize text) depth (rule.ahead place cs)))

section Rules

variable {text cs : List Char} {room place depth : Nat} {call : Rule → Reading Expr}

/-! ### Chains -/

theorem sumOperator?_eq_none {t : Token} (add : t ≠ .operator .add) (sub : t ≠ .operator .sub) :
    sumOperator? t = none := by
  unfold sumOperator?
  split
  next => exact absurd rfl add
  next => exact absurd rfl sub
  next => rfl

theorem productOperator?_eq_none {t : Token} (mul : t ≠ .operator .mul) (div : t ≠ .operator .div) :
    productOperator? t = none := by
  unfold productOperator?
  split
  next => exact absurd rfl mul
  next => exact absurd rfl div
  next => rfl

/-- A chain on tokens: what comes of the operands, and of what is behind the first of them. -/
structure IsChain (size : Nat) (operand : Nat → List Located → Except ParseError (Readout Expr))
    (more : Nat → Expr → List Located → Except ParseError (Readout Expr)) (first second : BinaryOp) : Prop where
  stop : ∀ d left ls, (∀ t ∈ ls.head?, t.token ≠ .operator first ∧ t.token ≠ .operator second) →
    more d left ls = .ok (left, ls)
  link : ∀ d left start op ls, op = first ∨ op = second →
    more d left (⟨start, .operator op⟩ :: ls) = descend (start + 1) d >>= fun d =>
      operand d ls >>= fun r => more d (.binary op left r.1) r.2

theorem isChain_sum (size : Nat) : IsChain size (fun d ls => plain (parseProduct size d ls))
    (fun d left ls => plain (parseTerms size d left ls)) .add .sub where
  stop d left ls other :=
    plain_parseTerms_stop fun t head => sumOperator?_eq_none (other t head).1 (other t head).2
  link d left start op ls either := by
    rcases either with rfl | rfl <;> exact plain_parseTerms_more rfl

theorem isChain_product (size : Nat) : IsChain size (fun d ls => plain (parseSigned size d ls))
    (fun d left ls => plain (parseFactors size d left ls)) .mul .div where
  stop d left ls other :=
    plain_parseFactors_stop fun t head => productOperator?_eq_none (other t head).1 (other t head).2
  link d left start op ls either := by
    rcases either with rfl | rfl <;> exact plain_parseFactors_more rfl

/-- The mark of an operator. -/
theorem lookup_symbol (op : BinaryOp) : marks.lookup op.symbol = some (.operator op) := by
  cases op <;> rfl

/-- What comes of asking for one of two operators. -/
inductive Asked (text : List Char) (place depth : Nat) (ts : List Located) (first second : BinaryOp) :
    Except Stop (Option BinaryOp × Cursor) → Prop where
  | found {op : BinaryOp} {start : Nat} {rest : List Char} (either : op = first ∨ op = second)
      (ahead : ts = ⟨start, .operator op⟩ :: scanFrom (start + 1) rest) (on : place ≤ start)
      (stands : Stands text (start + 1) rest) :
      Asked text place depth ts first second (.ok (some op, ⟨start + 1, depth⟩))
  | missed {next : Nat} {rest : List Char}
      (other : ∀ u ∈ ts.head?, u.token ≠ .operator first ∧ u.token ≠ .operator second)
      (ahead : ts = scanFrom next rest) (on : place ≤ next) (stands : Stands text next rest) :
      Asked text place depth ts first second (.ok (none, ⟨next, depth⟩))

theorem asked (depth : Nat) (first second : BinaryOp) (h : Stands text place cs) :
    Asked text place depth (scanFrom place cs) first second
      (Rule.operator text first second ⟨place, depth⟩) := by
  have view := eaten depth (lookup_symbol first) h
  generalize run : eat text first.symbol ⟨place, depth⟩ = result at view
  cases view with
  | found ahead on stands =>
    have whole : Rule.operator text first second ⟨place, depth⟩ = _ := reading_bind_ok run
    rw [whole]
    exact .found (.inl rfl) ahead on stands
  | @missed next rest other ahead on stands =>
    have whole : Rule.operator text first second ⟨place, depth⟩ = _ := reading_bind_ok run
    rw [whole]
    have view := eaten depth (lookup_symbol second) stands
    generalize run' : eat text second.symbol ⟨next, depth⟩ = result at view
    cases view with
    | found ahead' on' stands' =>
      rw [show (if false = true then _ else _ : Reading (Option BinaryOp)) _ = _ from reading_bind_ok run']
      exact .found (.inr rfl) (ahead.trans ahead') (Nat.le_trans on on') stands'
    | missed other' ahead' on' stands' =>
      rw [show (if false = true then _ else _ : Reading (Option BinaryOp)) _ = _ from reading_bind_ok run']
      refine .missed (fun u head => ⟨other u head, other' u ?_⟩) (ahead.trans ahead') (Nat.le_trans on on')
        stands'
      rwa [← ahead]

section Chain

variable {operand : Reading Expr} {size : Nat} {read : Nat → List Located → Except ParseError (Readout Expr)}
  {more : Nat → Expr → List Located → Except ParseError (Readout Expr)} {first second : BinaryOp}

/-- One turn of the loop: the chain ends, or goes on one level deeper behind another operand. -/
theorem loop_link_some {left : Expr} {links n next : Nat} {op : BinaryOp}
    (run : Rule.operator text first second ⟨place, depth⟩ = .ok (some op, ⟨next, depth⟩)) :
    loop (Rule.link text operand first second) (n + 1) (left, links) ⟨place, depth⟩ =
      (Reading.deeper >>= fun _ => operand >>= fun right =>
        loop (Rule.link text operand first second) n (.binary op left right, links + 1)) ⟨next, depth⟩ := by
  rw [loop, Rule.link]
  simp only [bind_assoc]
  rw [reading_bind_ok run]
  simp only [bind_assoc, pure_bind]

theorem loop_link_none {left : Expr} {links n next : Nat}
    (run : Rule.operator text first second ⟨place, depth + links⟩ = .ok (none, ⟨next, depth + links⟩)) :
    loop (Rule.link text operand first second) (n + 1) (left, links) ⟨place, depth + links⟩ =
      .ok (left, ⟨next, depth⟩) := by
  rw [loop, Rule.link]
  simp only [bind_assoc]
  rw [reading_bind_ok run]
  dsimp only
  rw [bind_assoc, reading_bind_ok ascend_ok]
  rfl

/-- The loop of a chain that has taken `links` operators. -/
theorem loop_link_agrees (chain : IsChain size read more first second)
    (operands : ∀ place d cs, Stands text place cs → depth ≤ d → d ≤ maxDepth →
      Agrees text (place + 1) d (operand ⟨place, d⟩) (read d (scanFrom place cs)))
    (n links : Nat) (left : Expr) (stands : Stands text place cs) (within : depth + links ≤ maxDepth)
    (enough : byteSize text < place + n) :
    Agrees text place depth (loop (Rule.link text operand first second) n (left, links) ⟨place, depth + links⟩)
      (more (depth + links) left (scanFrom place cs)) := by
  -- Every turn moves the cursor on, so the turns last longer than the text.
  induction n generalizing place links left cs with
  | zero =>
    have size := stands.size
    omega
  | succ n ih =>
    have view := asked (depth + links) first second stands
    generalize run : Rule.operator text first second ⟨place, depth + links⟩ = result at view
    cases view with
    | @missed next rest other ahead on stands' =>
      rw [loop_link_none run, chain.stop _ _ _ other, ahead]
      exact .ok on stands'
    | @found op start rest either ahead on stands' =>
      rw [loop_link_some run, ahead, chain.link _ _ _ _ _ either]
      refine .deeper stands' fun room => ?_
      refine (operands _ _ _ stands' (by omega) room).bind fun right place' cs' on' stands'' => ?_
      have rest := ih (links + 1) (.binary op left right) stands'' (by omega) (by omega)
      exact rest.mono (by omega)

theorem chain_agrees (chain : IsChain size read more first second)
    (operands : ∀ place d cs, Stands text place cs → depth ≤ d → d ≤ maxDepth →
      Agrees text (place + 1) d (operand ⟨place, d⟩) (read d (scanFrom place cs)))
    (stands : Stands text place cs) (within : depth ≤ maxDepth) :
    Agrees text (place + 1) depth (Rule.chain text operand first second ⟨place, depth⟩)
      (read depth (scanFrom place cs) >>= fun r => more depth r.1 r.2) := by
  refine (operands place depth cs stands (Nat.le_refl _) within).bind fun left place' cs' on stands' => ?_
  have rest := loop_link_agrees chain operands (turns text) 0 left stands' within (by unfold turns; omega)
  exact rest.mono on

end Chain

/-! ### Signs and powers -/

/-- The operand of a sign or of `^`. -/
theorem operand_agrees (follows : Follows text room call) (stands : Stands text place cs)
    (enough : depth < maxDepth → Rule.signed.calls (depth + 1) ≤ room) :
    Agrees text (place + 1) depth (Rule.operand call ⟨place, depth⟩)
      (operandFrom (byteSize text) place depth (scanFrom place cs)) := by
  refine .deeper stands fun deep => ?_
  exact (follows .signed place (depth + 1) cs stands deep (enough deep)).rise

theorem signed_agrees (follows : Follows text room call) (stands : Stands text place cs)
    (within : depth ≤ maxDepth) (enough : Rule.signed.calls depth ≤ room + 1) :
    Agrees text (place + 1) depth (Rule.signedBody text call ⟨place, depth⟩)
      (plain (parseSigned (byteSize text) depth (scanFrom place cs))) := by
  have inner (deep : depth < maxDepth) : Rule.signed.calls (depth + 1) ≤ room :=
    Nat.le_of_lt_succ (Nat.lt_of_lt_of_le (Rule.calls_succ_lt .signed .signed deep) enough)
  have view := eaten (c := '-') (t := .operator .sub) depth rfl stands
  generalize run : eat text '-' ⟨place, depth⟩ = result at view
  cases view with
  | found ahead on stands' =>
    rw [ahead, plain_parseSigned_minus]
    refine .after run ?_
    exact ((operand_agrees follows stands' inner).map Expr.neg).mono (by omega)
  | @missed next rest minus ahead on stands' =>
    refine .after run ?_
    have view := eaten (c := '+') (t := .operator .add) depth rfl stands'
    generalize run' : eat text '+' ⟨next, depth⟩ = result at view
    cases view with
    | found ahead' on' stands'' =>
      rw [ahead, ahead', plain_parseSigned_plus]
      refine .after run' ?_
      exact (operand_agrees follows stands'' inner).mono (by omega)
    | @missed next' rest' plus ahead' on' stands'' =>
      refine .after run' ?_
      have other : ∀ t ∈ (scanFrom place cs).head?, sumOperator? t.token = none :=
        fun t head => sumOperator?_eq_none (plus t (ahead ▸ head)) (minus t head)
      have power : Rule.power.calls depth ≤ room := by
        simp only [Rule.calls] at enough ⊢
        omega
      rw [plain_parseSigned_other other, ahead, ahead']
      exact (follows .power next' depth rest' stands'' within power).mono (by omega)

theorem power_agrees (follows : Follows text room call) (stands : Stands text place cs)
    (within : depth ≤ maxDepth) (enough : Rule.power.calls depth ≤ room + 1) :
    Agrees text (place + 1) depth (Rule.powerBody text call ⟨place, depth⟩)
      (plain (parsePower (byteSize text) depth (scanFrom place cs))) := by
  have primary : Rule.primary.calls depth ≤ room := by
    simp only [Rule.calls] at enough ⊢
    omega
  have inner (deep : depth < maxDepth) : Rule.signed.calls (depth + 1) ≤ room :=
    Nat.le_of_lt_succ (Nat.lt_of_lt_of_le (Rule.calls_succ_lt .signed .power deep) enough)
  rw [plain_parsePower]
  refine (follows .primary place depth cs stands within primary).bind fun base place' cs' on stands' => ?_
  have view := eaten (c := '^') (t := .operator .pow) depth rfl stands'
  generalize run : eat text '^' ⟨place', depth⟩ = result at view
  cases view with
  | found ahead on' stands'' =>
    refine .after run ?_
    dsimp only
    rw [ahead, powerFrom]
    exact ((operand_agrees follows stands'' inner).map (Expr.binary .pow base)).mono (by omega)
  | missed other ahead on' stands'' =>
    refine .after run ?_
    dsimp only
    rw [powerFrom_other other, ahead]
    exact .ok (by omega) stands''

/-! ### Numerals and names -/

/-- What is behind a known front. -/
theorem drop_length_of_append {front back : List Char} (h : front ++ back = cs) :
    cs.drop front.length = back := by
  rw [← h, List.drop_left]

theorem numeral_agrees (stands : Stands text place cs) :
    Agrees text (place + 1) depth (Rule.numeralBody text ⟨place, depth⟩)
      (plain (parsePrimary (byteSize text) depth (Rule.numeral.ahead place cs))) := by
  obtain ⟨behind, split⟩ := numeralTail_front cs
  have drop : cs.drop (numeralTail cs).length = behind := drop_length_of_append split
  have whole : Stands text place (numeralTail cs ++ behind) := split.symm ▸ stands
  have body := skipWhile_stands depth isAscii_isNumeralChar stands
  have scaled := exponent_stands depth (stands.behind isNumeralChar)
  have size : place + byteSize (cs.takeWhile isNumeralChar) +
      byteSize (exponentPart (cs.dropWhile isNumeralChar)) = place + byteSize (numeralTail cs) := by
    rw [numeralTail, Text.byteSize_append, Nat.add_assoc]
  rw [size] at scaled
  have literal := sliceFrom_stands depth whole
  rw [Rule.ahead, plain_parsePrimary_numeral, drop]
  refine .after rfl (.after body (.after scaled (.after literal ?_)))
  unfold numeralFrom
  dsimp only
  cases valid : Decimal.ofLiteral? (numeralTail cs) with
  | none => exact .error stands.isBoundary
  | some value =>
    -- Where no numeral starts there is nothing to read, which is no literal; so the cursor has moved on.
    have some : numeralTail cs ≠ [] := by
      intro nothing
      rw [nothing] at valid
      have empty : Decimal.ofLiteral? [] = none := rfl
      exact absurd (valid.symm.trans empty) (Option.some_ne_none value)
    have least := Text.length_le_byteSize (numeralTail cs)
    have longer := List.length_pos_iff.2 some
    exact .ok (by omega) whole.skip

/-- Arguments behind those that have been read. -/
theorem loop_argument_agrees (follows : Follows text room call) (within : depth ≤ maxDepth)
    (enough : Rule.sum.calls depth ≤ room) (n : Nat) (args : List Expr) (stands : Stands text place cs)
    (turns : byteSize text < place + n) :
    Agrees text place depth
      ((loop (Rule.argument text call) n args >>= Rule.closeCall text) ⟨place, depth⟩)
      (argumentsFrom (byteSize text) depth args (scanFrom place cs)) := by
  -- As in a chain, every turn moves the cursor on.
  induction n generalizing place args cs with
  | zero =>
    have size := stands.size
    omega
  | succ n ih =>
    have view := eaten (c := ',') (t := .comma) depth rfl stands
    generalize run : eat text ',' ⟨place, depth⟩ = result at view
    rw [loop, Rule.argument]
    simp only [bind_assoc]
    cases view with
    | @found start rest ahead on stands' =>
      refine .after run ?_
      simp only [if_true, bind_assoc, pure_bind]
      rw [ahead, argumentsFrom_comma]
      have sum := follows .sum (start + 1) depth rest stands' within enough
      refine sum.bind fun arg place' cs' on' stands'' => ?_
      exact (ih (args ++ [arg]) stands'' (by omega)).mono (by omega)
    | @missed next rest comma ahead on stands' =>
      refine .after run ?_
      simp only [Bool.false_eq_true, if_false, pure_bind]
      have view := eaten (c := ')') (t := .closing) depth rfl stands'
      generalize run' : eat text ')' ⟨next, depth⟩ = result at view
      cases view with
      | found ahead' on' stands'' =>
        rw [ahead, ahead', argumentsFrom]
        exact .after run' (.ok (by omega) stands'')
      | @missed next' rest' closing ahead' on' stands'' ink =>
        have other : ∀ t ∈ (scanFrom place cs).head?, t.token ≠ .comma ∧ t.token ≠ .closing :=
          fun t head => ⟨comma t head, closing t (ahead ▸ head)⟩
        rw [argumentsFrom_other other, ahead, ahead', offsetOf_stands ink stands'']
        exact .after run' (.error stands''.isBoundary)

theorem arguments_agrees (follows : Follows text room call) (stands : Stands text place cs)
    (within : depth ≤ maxDepth) (enough : Rule.sum.calls depth ≤ room) :
    Agrees text (place + 1) depth (Rule.arguments text call ⟨place, depth⟩)
      (plain (parseArguments (byteSize text) depth (scanFrom place cs))) := by
  rw [plain_parseArguments]
  refine (follows .sum place depth cs stands within enough).bind fun first place' cs' on stands' => ?_
  have rest := loop_argument_agrees follows within enough (turns text) [first] stands' (by unfold turns; omega)
  exact rest.mono on

theorem call_agrees {start : Nat} {word : List Char} (follows : Follows text room call)
    (boundary : IsBoundary text start) (stands : Stands text place cs)
    (enough : depth < maxDepth → Rule.sum.calls (depth + 1) ≤ room) :
    Agrees text (place + 1) depth (Rule.callBody text call start word ⟨place, depth⟩)
      (callFrom (byteSize text) start place depth word (scanFrom place cs)) := by
  unfold Rule.callBody callFrom
  cases Builtin.ofName? (String.ofList word) with
  | none => exact .error boundary
  | some f =>
    refine .deeper stands fun deep => ?_
    refine (arguments_agrees follows stands deep (enough deep)).bind fun args place' cs' on stands' => ?_
    refine .after ascend_ok ?_
    dsimp only
    split
    · exact .ok on stands'
    · exact .error boundary

theorem name_agrees (follows : Follows text room call) (stands : Stands text place cs)
    (enough : Rule.name.calls depth ≤ room + 1) :
    Agrees text (place + 1) depth (Rule.nameBody text call ⟨place, depth⟩)
      (plain (parsePrimary (byteSize text) depth (Rule.name.ahead place cs))) := by
  have inner (deep : depth < maxDepth) : Rule.sum.calls (depth + 1) ≤ room :=
    Nat.le_of_lt_succ (Nat.lt_of_lt_of_le (Rule.calls_succ_lt .sum .name deep) enough)
  have split : cs.takeWhile isNameChar ++ cs.dropWhile isNameChar = cs := List.takeWhile_append_dropWhile
  have whole : Stands text place (cs.takeWhile isNameChar ++ cs.dropWhile isNameChar) := split.symm ▸ stands
  have run := skipWhile_stands depth isAscii_isNameChar stands
  have behind := stands.behind isNameChar
  have word := sliceFrom_stands depth whole
  rw [Rule.ahead]
  generalize cs.takeWhile isNameChar = letters at *
  generalize cs.dropWhile isNameChar = rest at *
  have least := Text.length_le_byteSize letters
  refine .after rfl (.after run (.after word ?_))
  have view := eaten (c := '(') (t := .opening) depth rfl behind
  generalize ran : eat text '(' ⟨place + byteSize letters, depth⟩ = result at view
  cases view with
  | found ahead on stands' =>
    refine .after ran ?_
    rw [ahead, plain_parsePrimary_call]
    exact (call_agrees follows stands.isBoundary stands' inner).mono (by omega)
  | missed other ahead on stands' =>
    refine .after ran ?_
    rw [plain_parsePrimary_name other, ahead]
    simp only [Bool.false_eq_true, if_false]
    unfold namedFrom
    cases known : named? letters with
    | none => exact .error stands.isBoundary
    | some e =>
      -- Nor is there a name without letters.
      have some : letters ≠ [] := by
        intro nothing
        rw [nothing] at known
        have unknown : named? [] = none := by decide
        exact absurd (known.symm.trans unknown) (Option.some_ne_none e)
      have longer := List.length_pos_iff.2 some
      exact .ok (by omega) stands'

/-! ### Operands -/

theorem parentheses_agrees (follows : Follows text room call) (stands : Stands text place cs)
    (enough : depth < maxDepth → Rule.sum.calls (depth + 1) ≤ room) :
    Agrees text (place + 1) depth (Rule.parentheses text call ⟨place, depth⟩)
      (descend place depth >>= fun d => plain (parseSum (byteSize text) d (scanFrom place cs)) >>= fun r =>
        closeFrom (byteSize text) r.1 r.2) := by
  refine .deeper stands fun deep => ?_
  refine (follows .sum place (depth + 1) cs stands deep (enough deep)).bind fun e place' cs' on stands' => ?_
  have view := eaten (c := ')') (t := .closing) (depth + 1) rfl stands'
  generalize run : eat text ')' ⟨place', depth + 1⟩ = result at view
  cases view with
  | found ahead on' stands'' =>
    refine .after run (.after ascend_ok ?_)
    rw [ahead]
    exact .ok (by omega) stands''
  | @missed next rest other ahead on' stands'' ink =>
    refine .after run ?_
    dsimp only
    rw [closeFrom_other other, ahead, offsetOf_stands ink stands'']
    exact .error stands''.isBoundary

/-- Behind the first character of a numeral, the tokens ahead are those of the text. -/
theorem ahead_numeral {c : Char} (first : isNumeralChar c = true) (place : Nat) (cs : List Char) :
    Rule.numeral.ahead place (c :: cs) = scanFrom place (c :: cs) := by
  have token : tokenAt c cs = .numeral (c :: numeralTail cs) := if_pos first
  have tail : numeralTail (c :: cs) = c :: numeralTail cs := by
    rw [numeralTail, List.takeWhile_cons_of_pos first, List.dropWhile_cons_of_pos first]
    rfl
  rw [Rule.ahead, scanFrom_cons_of_ink (not_isGap_of_isNumeralChar first), token, tail]
  rfl

theorem ahead_name {c : Char} (numeral : ¬ isNumeralChar c = true) (first : isNameStart c = true)
    (place : Nat) (cs : List Char) : Rule.name.ahead place (c :: cs) = scanFrom place (c :: cs) := by
  have token : tokenAt c cs = .name (c :: cs.takeWhile isNameChar) := (if_neg numeral).trans (if_pos first)
  have inside : isNameChar c = true := by
    rcases Bool.or_eq_true_iff.1 first with letter | line
    · rw [isNameChar, Char.isAlphanum, letter]
      rfl
    · rw [isNameChar, line, Bool.or_true]
  have behind : cs.drop (cs.takeWhile isNameChar).length = cs.dropWhile isNameChar :=
    drop_length_of_append List.takeWhile_append_dropWhile
  rw [Rule.ahead, scanFrom_cons_of_ink (not_isGap_of_isNameStart first), token,
    List.takeWhile_cons_of_pos inside, List.dropWhile_cons_of_pos inside, ← behind]
  rfl

/-- A character that starts no operand. -/
theorem scanFrom_other {size : Nat} {c : Char} (ink : isGap c = false) (opening : c ≠ '(')
    (numeral : ¬ isNumeralChar c = true) (name : ¬ isNameStart c = true) :
    plain (parsePrimary size depth (scanFrom place (c :: cs))) = .error (unexpected place c) := by
  have token : tokenAt c cs = (marks.lookup c).getD (.stray c) := (if_neg numeral).trans (if_neg name)
  rw [scanFrom_cons_of_ink ink, token]
  cases mark : marks.lookup c with
  | none => exact plain_parsePrimary_other rfl nofun nofun nofun
  | some t =>
    rcases mark_cases mark with ⟨op, rfl, rfl⟩ | ⟨rfl, -⟩ | ⟨rfl, rfl⟩ | ⟨rfl, rfl⟩
    · exact plain_parsePrimary_other rfl nofun nofun nofun
    · exact absurd rfl opening
    · exact plain_parsePrimary_other rfl nofun nofun nofun
    · exact plain_parsePrimary_other rfl nofun nofun nofun

theorem primary_agrees (follows : Follows text room call) (stands : Stands text place cs)
    (within : depth ≤ maxDepth) (enough : Rule.primary.calls depth ≤ room + 1) :
    Agrees text (place + 1) depth (Rule.primaryBody text call ⟨place, depth⟩)
      (plain (parsePrimary (byteSize text) depth (scanFrom place cs))) := by
  obtain ⟨next, behind, blanks, on, stands', ink, ahead⟩ := blanks_stands depth stands
  have byte := getElem?_stands stands'
  rw [← ahead]
  refine Agrees.mono (.after blanks (.after rfl ?_)) (Nat.succ_le_succ on)
  dsimp only
  rw [byte]
  cases behind with
  | nil =>
    rw [scanFrom, plain_parsePrimary_nil]
    have last : next = byteSize text := stands'.size
    rw [← last]
    exact .error stands'.isBoundary
  | cons c behind =>
    obtain ⟨b, rest, encoded, first, same⟩ := Text.bytes_cons_first c behind
    rw [encoded]
    show Agrees text (next + 1) depth ((if byteChar b == '(' then _ else _ : Reading Expr) _) _
    rw [same _ (isAscii_beq (by decide)), same _ isAscii_isNumeralChar, same _ isAscii_isNameStart]
    by_cases opening : c = '('
    · subst opening
      have inner (deep : depth < maxDepth) : Rule.sum.calls (depth + 1) ≤ room :=
        Nat.le_of_lt_succ (Nat.lt_of_lt_of_le (Rule.calls_succ_lt .sum .primary deep) enough)
      rw [scanFrom_mark (t := .opening) rfl, plain_parsePrimary_parentheses, if_pos (beq_self_eq_true '(')]
      refine .after (advance_stands depth (by decide) stands') ?_
      exact (parentheses_agrees follows (stands'.step (by decide)) inner).mono (Nat.le_succ _)
    rw [if_neg (by simpa using opening)]
    by_cases numeral : isNumeralChar c = true
    · have part : Rule.numeral.calls depth ≤ room := by
        simp only [Rule.calls] at enough ⊢
        omega
      rw [if_pos numeral, ← ahead_numeral numeral]
      exact follows .numeral next depth (c :: behind) stands' within part
    by_cases name : isNameStart c = true
    · have part : Rule.name.calls depth ≤ room := by
        simp only [Rule.calls] at enough ⊢
        omega
      rw [if_neg numeral, if_pos name, ← ahead_name numeral name]
      exact follows .name next depth (c :: behind) stands' within part
    · rw [if_neg numeral, if_neg name, scanFrom_other (ink c rfl) opening numeral name, unexpected, ← first]
      exact .error stands'.isBoundary

/-! ### All rules -/

theorem body_agrees (follows : Follows text room call) (rule : Rule) (stands : Stands text place cs)
    (within : depth ≤ maxDepth) (enough : rule.calls depth ≤ room + 1) :
    Agrees text (place + 1) depth (rule.body text call ⟨place, depth⟩)
      (plain (rule.parse (byteSize text) depth (rule.ahead place cs))) := by
  cases rule with
  | sum =>
    have operands (place d : Nat) (cs : List Char) (h : Stands text place cs) (deeper : depth ≤ d)
        (inside : d ≤ maxDepth) : Agrees text (place + 1) d (call .product ⟨place, d⟩)
          (plain (parseProduct (byteSize text) d (scanFrom place cs))) := by
      refine follows .product place d cs h inside ?_
      simp only [Rule.calls] at enough ⊢
      omega
    have chain := chain_agrees (isChain_sum (byteSize text)) operands stands within
    rwa [← plain_parseSum] at chain
  | product =>
    have operands (place d : Nat) (cs : List Char) (h : Stands text place cs) (deeper : depth ≤ d)
        (inside : d ≤ maxDepth) : Agrees text (place + 1) d (call .signed ⟨place, d⟩)
          (plain (parseSigned (byteSize text) d (scanFrom place cs))) := by
      refine follows .signed place d cs h inside ?_
      simp only [Rule.calls] at enough ⊢
      omega
    have chain := chain_agrees (isChain_product (byteSize text)) operands stands within
    rwa [← plain_parseProduct] at chain
  | signed => exact signed_agrees follows stands within enough
  | power => exact power_agrees follows stands within enough
  | primary => exact primary_agrees follows stands within enough
  | numeral => exact numeral_agrees stands
  | name => exact name_agrees follows stands enough

/-- **Every reading function does what the tokens ahead say**, if there is room for its calls. -/
theorem read_follows (text : List Char) (room : Nat) : Follows text room (Rule.read text room) := by
  -- Not on the text: a rule may call another one where it stands itself, but then with less room to spare.
  induction room with
  | zero =>
    intro rule place depth cs _ _ enough
    cases rule <;> simp only [Rule.calls] at enough <;> omega
  | succ room ih =>
    intro rule place depth cs stands within enough
    exact body_agrees ih rule stands within enough

end Rules

end FrameOverlay.Expr
