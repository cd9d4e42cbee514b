import FrameOverlay.Proofs.Expr.Descent

/-!
# What comes of each reading function

`Yields` says when a function succeeds.  Here an equation for each function says what comes of it in any case,
errors and all, with the tokens that are left as a plain list.

* `plain`, `plain_bind` — what comes of reading, and of reading one part after another;
* `plain_parseSum` and its siblings — **one equation for each function**;
* `argumentsFrom` — what comes after an argument.
-/

namespace FrameOverlay.Expr

/-- A value and the tokens behind it. -/
abbrev Readout (α : Type) : Type := α × List Located

/-- Forgets that there are fewer tokens than before. -/
def plain {α : Type} {p : List Located → Prop} (r : Except ParseError (α × { rest // p rest })) :
    Except ParseError (Readout α) :=
  r.map fun (a, rest) => (a, rest.1)

section Plain

variable {α β : Type} {p q : List Located → Prop}

/-- Reading one part after another. -/
theorem plain_bind {x : Except ParseError (α × { rest // p rest })}
    {f : α × { rest // p rest } → Except ParseError (β × { rest // q rest })}
    {g : Readout α → Except ParseError (Readout β)} (same : ∀ a rest, plain (f (a, rest)) = g (a, rest.1)) :
    plain (x >>= f) = plain x >>= g := by
  rcases x with e | ⟨a, rest⟩
  · rfl
  · exact same a rest

/-- Reading a part and making something of its value. -/
theorem plain_map {x : Except ParseError (α × { rest // p rest })}
    {f : α × { rest // p rest } → Except ParseError (β × { rest // q rest })} {g : α → β}
    (same : ∀ a rest, plain (f (a, rest)) = .ok (g a, rest.1)) :
    plain (x >>= f) = (plain x).map fun r => (g r.1, r.2) := by
  rcases x with e | ⟨a, rest⟩
  · rfl
  · exact same a rest

/-- Reading a part and keeping its value. -/
theorem plain_keep {x : Except ParseError (α × { rest // p rest })}
    {f : α × { rest // p rest } → Except ParseError (α × { rest // q rest })}
    (same : ∀ a rest, plain (f (a, rest)) = .ok (a, rest.1)) : plain (x >>= f) = plain x := by
  rcases x with e | ⟨a, rest⟩
  · rfl
  · exact same a rest

theorem plain_descend {offset depth : Nat} {f : Nat → Except ParseError (β × { rest // q rest })} :
    plain (descend offset depth >>= f) = descend offset depth >>= fun d => plain (f d) := by
  cases descend offset depth <;> rfl

end Plain

variable {size d start : Nat} {left : Expr} {ls : List Located} {t : Located}

/-! ### Sums and products -/

theorem plain_parseSum : plain (parseSum size d ls) =
    plain (parseProduct size d ls) >>= fun r => plain (parseTerms size d r.1 r.2) := by
  rw [parseSum]
  exact plain_bind (by exact fun _ _ => plain_keep (by exact fun _ _ => rfl))

theorem plain_parseProduct : plain (parseProduct size d ls) =
    plain (parseSigned size d ls) >>= fun r => plain (parseFactors size d r.1 r.2) := by
  rw [parseProduct]
  exact plain_bind (by exact fun _ _ => plain_keep (by exact fun _ _ => rfl))

theorem plain_parseTerms_stop (stop : ∀ t ∈ ls.head?, sumOperator? t.token = none) :
    plain (parseTerms size d left ls) = .ok (left, ls) := by
  cases ls with
  | nil =>
    rw [parseTerms]
    rfl
  | cons t ls =>
    rw [parseTerms]
    split
    · rfl
    next op sign => exact absurd (sign.symm.trans (stop t rfl)) (Option.some_ne_none op)

theorem plain_parseTerms_more {op : BinaryOp} (sign : sumOperator? t.token = some op) :
    plain (parseTerms size d left (t :: ls)) = descend (t.start + 1) d >>= fun d =>
      plain (parseProduct size d ls) >>= fun r => plain (parseTerms size d (.binary op left r.1) r.2) := by
  rw [parseTerms]
  split
  next other => exact absurd (sign.symm.trans other) (Option.some_ne_none op)
  next op' sign' =>
  obtain rfl := Option.some.inj (sign'.symm.trans sign)
  rw [plain_descend]
  refine congrArg (descend _ _ >>= ·) (funext fun d => ?_)
  exact plain_bind (by exact fun _ _ => plain_keep (by exact fun _ _ => rfl))

theorem plain_parseFactors_stop (stop : ∀ t ∈ ls.head?, productOperator? t.token = none) :
    plain (parseFactors size d left ls) = .ok (left, ls) := by
  cases ls with
  | nil =>
    rw [parseFactors]
    rfl
  | cons t ls =>
    rw [parseFactors]
    split
    · rfl
    next op sign => exact absurd (sign.symm.trans (stop t rfl)) (Option.some_ne_none op)

theorem plain_parseFactors_more {op : BinaryOp} (sign : productOperator? t.token = some op) :
    plain (parseFactors size d left (t :: ls)) = descend (t.start + 1) d >>= fun d =>
      plain (parseSigned size d ls) >>= fun r => plain (parseFactors size d (.binary op left r.1) r.2) := by
  rw [parseFactors]
  split
  next other => exact absurd (sign.symm.trans other) (Option.some_ne_none op)
  next op' sign' =>
  obtain rfl := Option.some.inj (sign'.symm.trans sign)
  rw [plain_descend]
  refine congrArg (descend _ _ >>= ·) (funext fun d => ?_)
  exact plain_bind (by exact fun _ _ => plain_keep (by exact fun _ _ => rfl))

/-! ### Signs and powers -/

/-- The operand of a sign or of `^`, one level deeper. -/
def operandFrom (size offset d : Nat) (ls : List Located) : Except ParseError (Readout Expr) :=
  descend offset d >>= fun d => plain (parseSigned size d ls)

theorem plain_parseSigned_minus : plain (parseSigned size d (⟨start, .operator .sub⟩ :: ls)) =
    (operandFrom size (start + 1) d ls).map fun r => (.neg r.1, r.2) := by
  rw [parseSigned, plain_descend, operandFrom]
  cases descend (start + 1) d with
  | error => rfl
  | ok d => exact plain_map (g := Expr.neg) (by exact fun _ _ => rfl)

theorem plain_parseSigned_plus : plain (parseSigned size d (⟨start, .operator .add⟩ :: ls)) =
    operandFrom size (start + 1) d ls := by
  rw [parseSigned, plain_descend, operandFrom]
  exact congrArg (descend _ _ >>= ·) (funext fun d => plain_keep (by exact fun _ _ => rfl))

theorem plain_parseSigned_other (other : ∀ t ∈ ls.head?, sumOperator? t.token = none) :
    plain (parseSigned size d ls) = plain (parsePower size d ls) := by
  rw [parseSigned_eq_parsePower other]

/-- What comes after the base of a power. -/
def powerFrom (size d : Nat) (base : Expr) : List Located → Except ParseError (Readout Expr)
  | ⟨start, .operator .pow⟩ :: ls => (operandFrom size (start + 1) d ls).map fun r => (.binary .pow base r.1, r.2)
  | ls => .ok (base, ls)

theorem powerFrom_other {base : Expr} (other : ∀ t ∈ ls.head?, t.token ≠ .operator .pow) :
    powerFrom size d base ls = .ok (base, ls) := by
  unfold powerFrom
  split
  · exact absurd rfl (other _ rfl)
  · rfl

theorem plain_parsePower : plain (parsePower size d ls) =
    plain (parsePrimary size d ls) >>= fun r => powerFrom size d r.1 r.2 := by
  rw [parsePower]
  refine plain_bind fun base rest => ?_
  obtain ⟨rest, h⟩ := rest
  dsimp only
  split
  next start ts _ =>
    rw [plain_descend, powerFrom, operandFrom]
    cases descend (start + 1) d with
    | error => rfl
    | ok d => exact plain_map (g := Expr.binary .pow base) (by exact fun _ _ => rfl)
  next other =>
    rw [powerFrom_other fun t ahead power => ?_]
    · rfl
    · obtain ⟨start, ts, same⟩ := eq_cons_of_head ahead power
      subst same
      exact other start ts h rfl HEq.rfl

/-! ### Operands -/

theorem plain_parsePrimary_nil : plain (parsePrimary size d []) = .error ⟨size, .unexpectedEnd⟩ := by
  rw [parsePrimary]
  rfl

/-- What comes of a numeral with the tokens `ls` behind it. -/
def numeralFrom (start : Nat) (text : List Char) (ls : List Located) : Except ParseError (Readout Expr) :=
  match Decimal.ofLiteral? text with
  | some d => .ok (.num d, ls)
  | none => .error ⟨start, .invalidNumeral text⟩

theorem plain_parsePrimary_numeral {text : List Char} :
    plain (parsePrimary size d (⟨start, .numeral text⟩ :: ls)) = numeralFrom start text ls := by
  rw [parsePrimary, numeralFrom]
  cases Decimal.ofLiteral? text <;> rfl

/-- What comes of a name that is called, behind the opening parenthesis. -/
def callFrom (size start offset d : Nat) (name : List Char) (ls : List Located) : Except ParseError (Readout Expr) :=
  match Builtin.ofName? (String.ofList name) with
  | none => .error ⟨start, .unknownFunction name⟩
  | some f => descend offset d >>= fun d => plain (parseArguments size d ls) >>= fun r =>
    if f.minArgs ≤ r.1.length ∧ r.1.length ≤ f.maxArgs then
      .ok (.call f r.1, r.2)
    else
      .error ⟨start, .argumentCount name f.minArgs f.maxArgs r.1.length⟩

/-- What comes of a name that is not called. -/
def namedFrom (start : Nat) (name : List Char) (ls : List Located) : Except ParseError (Readout Expr) :=
  match named? name with
  | some e => .ok (e, ls)
  | none => .error ⟨start, .unknownName name⟩

theorem plain_parsePrimary_call {bracket : Nat} {name : List Char} :
    plain (parsePrimary size d (⟨start, .name name⟩ :: ⟨bracket, .opening⟩ :: ls)) =
      callFrom size start (bracket + 1) d name ls := by
  rw [parsePrimary, callFrom]
  cases Builtin.ofName? (String.ofList name) with
  | none => rfl
  | some f =>
  dsimp only
  rw [plain_descend]
  refine congrArg (descend _ _ >>= ·) (funext fun d => plain_bind fun args rest => ?_)
  dsimp only
  split <;> rfl

theorem plain_parsePrimary_name {name : List Char} (other : ∀ t ∈ ls.head?, t.token ≠ .opening) :
    plain (parsePrimary size d (⟨start, .name name⟩ :: ls)) = namedFrom start name ls := by
  rw [parsePrimary, namedFrom]
  · cases named? name <;> rfl
  · intro bracket ts same
    subst same
    exact other _ rfl rfl

/-- What comes after the sum in parentheses. -/
def closeFrom (size : Nat) (e : Expr) : List Located → Except ParseError (Readout Expr)
  | ⟨_, .closing⟩ :: ls => .ok (e, ls)
  | ls => .error ⟨offsetOf size ls, .unclosedParenthesis⟩

theorem closeFrom_other {e : Expr} (other : ∀ t ∈ ls.head?, t.token ≠ .closing) :
    closeFrom size e ls = .error ⟨offsetOf size ls, .unclosedParenthesis⟩ := by
  unfold closeFrom
  split
  · exact absurd rfl (other _ rfl)
  · rfl

theorem plain_parsePrimary_parentheses : plain (parsePrimary size d (⟨start, .opening⟩ :: ls)) =
    descend (start + 1) d >>= fun d => plain (parseSum size d ls) >>= fun r => closeFrom size r.1 r.2 := by
  rw [parsePrimary, plain_descend]
  refine congrArg (descend _ _ >>= ·) (funext fun d => plain_bind fun e rest => ?_)
  obtain ⟨rest, h⟩ := rest
  dsimp only
  split
  · rfl
  next other =>
    rw [closeFrom_other fun t ahead closing => ?_]
    · rfl
    · obtain ⟨start, ts, same⟩ := eq_cons_of_head ahead closing
      subst same
      exact other start ts h rfl HEq.rfl

/-- A token that starts no operand. -/
theorem plain_parsePrimary_other {c : Char} (text : t.token.text = [c])
    (numeral : ∀ text, t.token ≠ .numeral text) (name : ∀ name, t.token ≠ .name name)
    (opening : t.token ≠ .opening) :
    plain (parsePrimary size d (t :: ls)) = .error (unexpected t.start c) := by
  rcases t with ⟨start, token⟩
  cases token with
  | numeral literal => exact absurd rfl (numeral literal)
  | name word => exact absurd rfl (name word)
  | opening => exact absurd rfl opening
  | operator | closing | comma | stray =>
    obtain ⟨rfl, -⟩ := List.cons.inj text
    rw [parsePrimary]
    rfl

/-! ### Arguments -/

/-- What comes after the arguments `args`. -/
def argumentsFrom (size d : Nat) (args : List Expr) : List Located → Except ParseError (Readout (List Expr))
  | ⟨_, .comma⟩ :: ls => (plain (parseArguments size d ls)).map fun r => (args ++ r.1, r.2)
  | ⟨_, .closing⟩ :: ls => .ok (args, ls)
  | ls => .error ⟨offsetOf size ls, .unclosedCall⟩

theorem argumentsFrom_other {args : List Expr}
    (other : ∀ t ∈ ls.head?, t.token ≠ .comma ∧ t.token ≠ .closing) :
    argumentsFrom size d args ls = .error ⟨offsetOf size ls, .unclosedCall⟩ := by
  unfold argumentsFrom
  split
  · exact absurd rfl (other _ rfl).1
  · exact absurd rfl (other _ rfl).2
  · rfl

theorem plain_parseArguments : plain (parseArguments size d ls) =
    plain (parseSum size d ls) >>= fun r => argumentsFrom size d [r.1] r.2 := by
  rw [parseArguments]
  refine plain_bind fun first rest => ?_
  obtain ⟨rest, h⟩ := rest
  dsimp only
  split
  next start ts _ => exact plain_map (g := List.cons first) (by exact fun _ _ => rfl)
  next start ts _ => rfl
  next comma closing =>
    rw [argumentsFrom_other fun t ahead => ⟨fun token => ?_, fun token => ?_⟩]
    · rfl
    · obtain ⟨start, ts, same⟩ := eq_cons_of_head ahead token
      subst same
      exact comma start ts h rfl HEq.rfl
    · obtain ⟨start, ts, same⟩ := eq_cons_of_head ahead token
      subst same
      exact closing start ts h rfl HEq.rfl

/-- Arguments are gathered from the left. -/
theorem argumentsFrom_append (args args' : List Expr) :
    argumentsFrom size d (args ++ args') ls =
      (argumentsFrom size d args' ls).map fun r => (args ++ r.1, r.2) := by
  unfold argumentsFrom
  split
  next ts =>
    cases plain (parseArguments size d ts) with
    | error => rfl
    | ok r =>
      show Except.ok (args ++ args' ++ r.1, r.2) = Except.ok (args ++ (args' ++ r.1), r.2)
      rw [List.append_assoc]
  · rfl
  · rfl

/-- Behind a comma comes one more argument. -/
theorem argumentsFrom_comma (args : List Expr) : argumentsFrom size d args (⟨start, .comma⟩ :: ls) =
    plain (parseSum size d ls) >>= fun r => argumentsFrom size d (args ++ [r.1]) r.2 := by
  rw [argumentsFrom, plain_parseArguments]
  cases plain (parseSum size d ls) with
  | error => rfl
  | ok r => exact (argumentsFrom_append args [r.1]).symm

end FrameOverlay.Expr
