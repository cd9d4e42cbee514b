import FrameOverlay.Expr.Parser

/-!
# What each reading function does

One equivalence for each function of the descent and each shape of the tokens ahead: what it takes for the
function to succeed, with which value and which tokens left.  Nothing after this module unfolds the descent.

* `Yields` — reading succeeds, with a value and the tokens behind it;
* `parseSum_yields` and its siblings — **when a function succeeds**;
* `parse_ok_iff` — when a whole text is read.
-/

namespace FrameOverlay.Expr

/-! ### Success -/

/-- Reading succeeds with the value `a`, and the tokens `rest` are behind it. -/
def Yields {α : Type} {p : List Located → Prop} (r : Except ParseError (α × { rest // p rest })) (a : α)
    (rest : List Located) : Prop :=
  ∃ h : p rest, r = .ok (a, ⟨rest, h⟩)

section Yields

variable {α β : Type} {p q : List Located → Prop} {a : α} {b : β} {rest rest' : List Located}

theorem yields_ok {h : p rest} {a' : α} :
    Yields (.ok (a, ⟨rest, h⟩) : Except ParseError (α × { rest // p rest })) a' rest' ↔
      a' = a ∧ rest' = rest := by
  constructor
  · rintro ⟨_, same⟩
    obtain ⟨value, behind⟩ := Prod.mk.inj (Except.ok.inj same)
    exact ⟨value.symm, (congrArg Subtype.val behind).symm⟩
  · rintro ⟨rfl, rfl⟩
    exact ⟨h, rfl⟩

theorem not_yields_error {e : ParseError} :
    ¬ Yields (.error e : Except ParseError (α × { rest // p rest })) a rest := by
  rintro ⟨_, same⟩
  exact nomatch same

/-- Reading one part after another. -/
theorem yields_bind {x : Except ParseError (α × { rest // p rest })}
    {f : α × { rest // p rest } → Except ParseError (β × { rest // q rest })} :
    Yields (x >>= f) b rest ↔ ∃ a mid, Yields x a mid ∧ ∃ h : p mid, Yields (f (a, ⟨mid, h⟩)) b rest := by
  rcases x with e | ⟨a, mid, h⟩
  · constructor
    · intro yields
      exact absurd yields not_yields_error
    · rintro ⟨_, _, read, _⟩
      exact absurd read not_yields_error
  · constructor
    · intro yields
      exact ⟨a, mid, ⟨h, rfl⟩, h, yields⟩
    · rintro ⟨a', mid', read, _, yields⟩
      obtain ⟨rfl, rfl⟩ := yields_ok.1 read
      exact yields

/-- Reading a part, if it is known when what comes next succeeds. -/
theorem yields_bind_iff {x : Except ParseError (α × { rest // p rest })}
    {f : α × { rest // p rest } → Except ParseError (β × { rest // q rest })}
    {Next : α → List Located → Prop}
    (next : ∀ a mid (h : p mid), Yields (f (a, ⟨mid, h⟩)) b rest ↔ Next a mid) :
    Yields (x >>= f) b rest ↔ ∃ a mid, Yields x a mid ∧ Next a mid := by
  rw [yields_bind]
  refine exists_congr fun a => exists_congr fun mid => and_congr_right fun read => ?_
  rw [exists_prop_of_true read.1]
  exact next a mid read.1

/-- Reading a part and making something of its value. -/
theorem yields_map {x : Except ParseError (α × { rest // p rest })} {g : α → β}
    {f : α × { rest // p rest } → Except ParseError (β × { rest // q rest })}
    (plain : ∀ a rest (h : p rest), Yields (f (a, ⟨rest, h⟩)) (g a) rest) :
    Yields (x >>= f) b rest ↔ ∃ a, Yields x a rest ∧ b = g a := by
  rw [yields_bind]
  constructor
  · rintro ⟨a, mid, read, h, yields⟩
    obtain ⟨_, same⟩ := plain a mid h
    rw [same] at yields
    obtain ⟨rfl, rfl⟩ := yields_ok.1 yields
    exact ⟨a, read, rfl⟩
  · rintro ⟨a, ⟨h, read⟩, rfl⟩
    exact ⟨a, rest, ⟨h, read⟩, h, plain a rest h⟩

/-- Reading a part and keeping its value. -/
theorem yields_keep {x : Except ParseError (α × { rest // p rest })}
    {f : α × { rest // p rest } → Except ParseError (α × { rest // q rest })}
    (plain : ∀ a rest (h : p rest), Yields (f (a, ⟨rest, h⟩)) a rest) {a : α} :
    Yields (x >>= f) a rest ↔ Yields x a rest := by
  rw [yields_map (g := id) plain]
  constructor
  · rintro ⟨_, read, rfl⟩
    exact read
  · intro read
    exact ⟨a, read, rfl⟩

/-- Reading one level deeper. -/
theorem yields_descend {offset depth : Nat} {f : Nat → Except ParseError (β × { rest // q rest })} :
    Yields (descend offset depth >>= f) b rest ↔ depth < maxDepth ∧ Yields (f (depth + 1)) b rest := by
  unfold descend
  by_cases room : depth < maxDepth
  · rw [if_pos room]
    exact (and_iff_right room).symm
  · rw [if_neg room]
    constructor
    · intro yields
      exact absurd yields not_yields_error
    · rintro ⟨deeper, _⟩
      exact absurd deeper room

end Yields

/-- The token ahead. -/
theorem eq_cons_of_head {token : Token} {ls : List Located} {t : Located} (ahead : t ∈ ls.head?)
    (same : t.token = token) : ∃ start ts, ls = ⟨start, token⟩ :: ts := by
  cases ls with
  | nil => exact absurd ahead (Option.not_mem_none t)
  | cons first ts =>
    obtain rfl := Option.some.inj ahead
    subst same
    exact ⟨first.start, ts, rfl⟩

variable {size d : Nat} {e left : Expr} {es : List Expr} {ls rest : List Located}

/-! ### Sums and products -/

theorem parseSum_yields : Yields (parseSum size d ls) e rest ↔
    ∃ first mid, Yields (parseProduct size d ls) first mid ∧
      Yields (parseTerms size d first mid) e rest := by
  rw [parseSum]
  exact yields_bind_iff fun first mid h => yields_keep (by exact fun _ _ _ => yields_ok.2 ⟨rfl, rfl⟩)

theorem parseTerms_nil : Yields (parseTerms size d left []) e rest ↔ e = left ∧ rest = [] := by
  rw [parseTerms]
  exact yields_ok

theorem parseTerms_stop {t : Located} (other : sumOperator? t.token = none) :
    Yields (parseTerms size d left (t :: ls)) e rest ↔ e = left ∧ rest = t :: ls := by
  rw [parseTerms]
  split
  · exact yields_ok
  next op sign => exact absurd (sign.symm.trans other) (Option.some_ne_none op)

theorem parseTerms_more {t : Located} {op : BinaryOp} (sign : sumOperator? t.token = some op) :
    Yields (parseTerms size d left (t :: ls)) e rest ↔ d < maxDepth ∧ ∃ right mid,
      Yields (parseProduct size (d + 1) ls) right mid ∧
        Yields (parseTerms size (d + 1) (.binary op left right) mid) e rest := by
  rw [parseTerms]
  split
  next other => exact absurd (sign.symm.trans other) (Option.some_ne_none op)
  next op' sign' =>
  obtain rfl := Option.some.inj (sign'.symm.trans sign)
  rw [yields_descend, and_congr_right_iff]
  intro _
  exact yields_bind_iff fun right mid h => yields_keep (by exact fun _ _ _ => yields_ok.2 ⟨rfl, rfl⟩)

theorem parseProduct_yields : Yields (parseProduct size d ls) e rest ↔
    ∃ first mid, Yields (parseSigned size d ls) first mid ∧
      Yields (parseFactors size d first mid) e rest := by
  rw [parseProduct]
  exact yields_bind_iff fun first mid h => yields_keep (by exact fun _ _ _ => yields_ok.2 ⟨rfl, rfl⟩)

theorem parseFactors_nil : Yields (parseFactors size d left []) e rest ↔ e = left ∧ rest = [] := by
  rw [parseFactors]
  exact yields_ok

theorem parseFactors_stop {t : Located} (other : productOperator? t.token = none) :
    Yields (parseFactors size d left (t :: ls)) e rest ↔ e = left ∧ rest = t :: ls := by
  rw [parseFactors]
  split
  · exact yields_ok
  next op sign => exact absurd (sign.symm.trans other) (Option.some_ne_none op)

theorem parseFactors_more {t : Located} {op : BinaryOp} (sign : productOperator? t.token = some op) :
    Yields (parseFactors size d left (t :: ls)) e rest ↔ d < maxDepth ∧ ∃ right mid,
      Yields (parseSigned size (d + 1) ls) right mid ∧
        Yields (parseFactors size (d + 1) (.binary op left right) mid) e rest := by
  rw [parseFactors]
  split
  next other => exact absurd (sign.symm.trans other) (Option.some_ne_none op)
  next op' sign' =>
  obtain rfl := Option.some.inj (sign'.symm.trans sign)
  rw [yields_descend, and_congr_right_iff]
  intro _
  exact yields_bind_iff fun right mid h => yields_keep (by exact fun _ _ _ => yields_ok.2 ⟨rfl, rfl⟩)

/-! ### Signs and powers -/

theorem parseSigned_minus {start : Nat} :
    Yields (parseSigned size d (⟨start, .operator .sub⟩ :: ls)) e rest ↔
      d < maxDepth ∧ ∃ e', Yields (parseSigned size (d + 1) ls) e' rest ∧ e = .neg e' := by
  rw [parseSigned, yields_descend, and_congr_right_iff]
  intro _
  exact yields_map (by exact fun _ _ _ => yields_ok.2 ⟨rfl, rfl⟩)

theorem parseSigned_plus {start : Nat} :
    Yields (parseSigned size d (⟨start, .operator .add⟩ :: ls)) e rest ↔
      d < maxDepth ∧ Yields (parseSigned size (d + 1) ls) e rest := by
  rw [parseSigned, yields_descend, and_congr_right_iff]
  intro _
  exact yields_keep (by exact fun _ _ _ => yields_ok.2 ⟨rfl, rfl⟩)

/-- Without a sign ahead, an operand is a power. -/
theorem parseSigned_eq_parsePower (other : ∀ t ∈ ls.head?, sumOperator? t.token = none) :
    parseSigned size d ls = parsePower size d ls := by
  rw [parseSigned]
  · intro start ts same
    subst same
    exact absurd (other _ rfl) (Option.some_ne_none _)
  · intro start ts same
    subst same
    exact absurd (other _ rfl) (Option.some_ne_none _)

theorem parseSigned_other (other : ∀ t ∈ ls.head?, sumOperator? t.token = none) :
    Yields (parseSigned size d ls) e rest ↔ Yields (parsePower size d ls) e rest := by
  rw [parseSigned_eq_parsePower other]

/-- The operator `^` with its operand behind it. -/
theorem parsePower_yields : Yields (parsePower size d ls) e rest ↔
    ∃ base mid, Yields (parsePrimary size d ls) base mid ∧
      ((∃ start ts exponent, mid = ⟨start, .operator .pow⟩ :: ts ∧ d < maxDepth ∧
        Yields (parseSigned size (d + 1) ts) exponent rest ∧ e = .binary .pow base exponent) ∨
      ((∀ t ∈ mid.head?, t.token ≠ .operator .pow) ∧ e = base ∧ rest = mid)) := by
  rw [parsePower]
  refine yields_bind_iff fun base mid h => ?_
  dsimp only
  split
  next start ts _ =>
    rw [yields_descend, yields_map (g := Expr.binary .pow base)
      (by exact fun _ _ _ => yields_ok.2 ⟨rfl, rfl⟩)]
    constructor
    · rintro ⟨room, exponent, read, same⟩
      exact .inl ⟨start, ts, exponent, rfl, room, read, same⟩
    · rintro (⟨_, _, exponent, same, room, read, rfl⟩ | ⟨other, -⟩)
      · obtain ⟨-, rfl⟩ := List.cons.inj same
        exact ⟨room, exponent, read, rfl⟩
      · exact absurd rfl (other _ rfl)
  next other =>
    constructor
    · intro yields
      obtain ⟨rfl, rfl⟩ := yields_ok.1 yields
      refine .inr ⟨fun t ahead power => ?_, rfl, rfl⟩
      obtain ⟨start, ts, same⟩ := eq_cons_of_head ahead power
      subst same
      exact other start ts h rfl HEq.rfl
    · rintro (⟨start, ts, _, rfl, -⟩ | ⟨-, rfl, rfl⟩)
      · exact (other start ts h rfl HEq.rfl).elim
      · exact yields_ok.2 ⟨rfl, rfl⟩

/-! ### Operands -/

theorem parsePrimary_nil : ¬ Yields (parsePrimary size d []) e rest := by
  rw [parsePrimary]
  exact not_yields_error

theorem parsePrimary_numeral {start : Nat} {text : List Char} :
    Yields (parsePrimary size d (⟨start, .numeral text⟩ :: ls)) e rest ↔
      ∃ value, Decimal.ofLiteral? text = some value ∧ e = .num value ∧ rest = ls := by
  rw [parsePrimary]
  split
  next value valid =>
    rw [yields_ok, valid]
    simp only [Option.some.injEq, exists_eq_left']
  next invalid =>
    rw [invalid]
    simp only [not_yields_error, reduceCtorEq, false_and, exists_false]

theorem parsePrimary_call {start bracket : Nat} {name : List Char} :
    Yields (parsePrimary size d (⟨start, .name name⟩ :: ⟨bracket, .opening⟩ :: ls)) e rest ↔
      ∃ f, Builtin.ofName? (String.ofList name) = some f ∧ d < maxDepth ∧ ∃ args,
        Yields (parseArguments size (d + 1) ls) args rest ∧ f.minArgs ≤ args.length ∧
          args.length ≤ f.maxArgs ∧ e = .call f args := by
  rw [parsePrimary]
  split
  next unknown =>
    rw [unknown]
    simp only [not_yields_error, reduceCtorEq, false_and, exists_false]
  next f known =>
    rw [known, yields_descend]
    simp only [Option.some.injEq, exists_eq_left', and_congr_right_iff]
    intro _
    rw [yields_bind]
    constructor
    · rintro ⟨args, mid, read, h, yields⟩
      dsimp only at yields
      split at yields
      next fits =>
        obtain ⟨rfl, rfl⟩ := yields_ok.1 yields
        exact ⟨args, read, fits.1, fits.2, rfl⟩
      next => exact absurd yields not_yields_error
    · rintro ⟨args, ⟨h, read⟩, least, most, rfl⟩
      refine ⟨args, rest, ⟨h, read⟩, h, ?_⟩
      dsimp only
      rw [if_pos ⟨least, most⟩]
      exact yields_ok.2 ⟨rfl, rfl⟩

theorem parsePrimary_name {start : Nat} {name : List Char}
    (other : ∀ t ∈ ls.head?, t.token ≠ .opening) :
    Yields (parsePrimary size d (⟨start, .name name⟩ :: ls)) e rest ↔
      named? name = some e ∧ rest = ls := by
  rw [parsePrimary]
  · split
    next e' known =>
      rw [yields_ok, known, Option.some.injEq]
      exact and_congr_left fun _ => eq_comm
    next unknown =>
      rw [unknown]
      simp only [not_yields_error, reduceCtorEq, false_and]
  · intro bracket ts same
    subst same
    exact other _ rfl rfl

theorem parsePrimary_parentheses {start : Nat} :
    Yields (parsePrimary size d (⟨start, .opening⟩ :: ls)) e rest ↔
      d < maxDepth ∧ ∃ close, Yields (parseSum size (d + 1) ls) e (⟨close, .closing⟩ :: rest) := by
  rw [parsePrimary, yields_descend, and_congr_right_iff]
  intro _
  rw [yields_bind]
  constructor
  · rintro ⟨e', mid, read, h, yields⟩
    dsimp only at yields
    split at yields
    next close ts _ =>
      obtain ⟨rfl, rfl⟩ := yields_ok.1 yields
      exact ⟨close, read⟩
    next => exact absurd yields not_yields_error
  · rintro ⟨close, h, read⟩
    exact ⟨e, _, ⟨h, read⟩, h, yields_ok.2 ⟨rfl, rfl⟩⟩

/-- No other token starts an operand. -/
theorem not_parsePrimary {t : Located} (numeral : ∀ text, t.token ≠ .numeral text)
    (name : ∀ name, t.token ≠ .name name) (opening : t.token ≠ .opening) :
    ¬ Yields (parsePrimary size d (t :: ls)) e rest := by
  rcases t with ⟨start, token⟩
  cases token with
  | numeral text => exact absurd rfl (numeral text)
  | name text => exact absurd rfl (name text)
  | opening => exact absurd rfl opening
  | operator | closing | comma | stray =>
    rw [parsePrimary]
    exact not_yields_error

/-- Arguments go on behind a comma and end with a closing parenthesis. -/
theorem parseArguments_yields : Yields (parseArguments size d ls) es rest ↔
    ∃ first mid, Yields (parseSum size d ls) first mid ∧
      ((∃ start ts others, mid = ⟨start, .comma⟩ :: ts ∧
        Yields (parseArguments size d ts) others rest ∧ es = first :: others) ∨
      ∃ start, mid = ⟨start, .closing⟩ :: rest ∧ es = [first]) := by
  rw [parseArguments]
  refine yields_bind_iff fun first mid h => ?_
  dsimp only
  split
  next start ts _ =>
    rw [yields_map (g := List.cons first) (by exact fun _ _ _ => yields_ok.2 ⟨rfl, rfl⟩)]
    constructor
    · rintro ⟨others, read, same⟩
      exact .inl ⟨start, ts, others, rfl, read, same⟩
    · rintro (⟨_, _, others, same, read, rfl⟩ | ⟨_, same, -⟩)
      · obtain ⟨-, rfl⟩ := List.cons.inj same
        exact ⟨others, read, rfl⟩
      · exact absurd same (by simp)
  next start ts _ =>
    constructor
    · intro yields
      obtain ⟨rfl, rfl⟩ := yields_ok.1 yields
      exact .inr ⟨start, rfl, rfl⟩
    · rintro (⟨_, _, _, same, -⟩ | ⟨_, same, rfl⟩)
      · exact absurd same (by simp)
      · obtain ⟨-, rfl⟩ := List.cons.inj same
        exact yields_ok.2 ⟨rfl, rfl⟩
  next comma closing =>
    constructor
    · intro yields
      exact absurd yields not_yields_error
    · rintro (⟨start, ts, _, rfl, -⟩ | ⟨start, rfl, -⟩)
      · exact (comma start ts h rfl HEq.rfl).elim
      · exact (closing start rest h rfl HEq.rfl).elim

/-! ### Whole texts -/

theorem parse_ok_iff {text : String} : parse text = .ok e ↔
    Yields (parseSum (Text.byteSize text.toList) 0 (scan text.toList)) e [] := by
  unfold parse
  dsimp only
  cases scan text.toList with
  | nil =>
    constructor
    · intro none
      exact nomatch none
    · rintro ⟨less, -⟩
      exact absurd less (Nat.lt_irrefl 0)
  | cons t ts =>
    dsimp only
    rcases parseSum (Text.byteSize text.toList) 0 (t :: ts) with fault | ⟨e', rest, h⟩
    · constructor
      · intro failed
        exact nomatch failed
      · intro yields
        exact absurd yields not_yields_error
    · rw [yields_ok]
      cases rest with
      | nil =>
        constructor
        · intro read
          exact ⟨(Except.ok.inj read).symm, rfl⟩
        · rintro ⟨rfl, -⟩
          rfl
      | cons u us =>
        constructor
        · intro failed
          exact nomatch failed
        · rintro ⟨-, more⟩
          exact nomatch more

end FrameOverlay.Expr
