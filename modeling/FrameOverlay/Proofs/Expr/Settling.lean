import FrameOverlay.Position

/-!
# Positions without a history

An evaluation starts from the position that the one before it left behind, and takes three steps.  As long as
no axis refers to itself and the axes do not refer to each other both ways, the position it comes to solves
both expressions at once, and there is only one such position.

* `eval?_congr` — **the value of an expression depends on the variables that it mentions**;
* `Variables.SameFrame` — two vectors that differ in the position at most;
* `Variables.Settled` — a position that solves both expressions, `Settled.unique` — **there is only one**;
* `settled_settle` — the three steps come to one, whichever axis refers to the other;
* `evaluate_settled` — **an evaluation has no history**.
-/

namespace FrameOverlay

namespace Expr

variable {ν : Type}

/-! ### Variables that are mentioned -/

mutual

/-- The value of an expression depends on the variables that it mentions. -/
theorem eval?_congr (A : Arithmetic ν) {vars vars' : Variables ν} (e : Expr)
    (same : ∀ v, e.mentions v = true → vars.get v = vars'.get v) : e.eval? A vars = e.eval? A vars' := by
  cases e with
  | num | const => rfl
  | var v =>
    have here : vars.get v = vars'.get v := same v (by rw [mentions, beq_self_eq_true])
    simp only [eval?, here]
  | neg e =>
    have inside := eval?_congr A e fun v mentioned => same v (by rwa [mentions])
    simp only [eval?, inside]
  | binary op l r =>
    have left := eval?_congr A l fun v mentioned => same v (by rw [mentions, mentioned, Bool.true_or])
    have right := eval?_congr A r fun v mentioned => same v (by rw [mentions, mentioned, Bool.or_true])
    simp only [eval?, left, right]
  | call f args =>
    have inside := evalAll?_congr A args fun v mentioned => same v (by rwa [mentions])
    simp only [eval?, inside]

theorem evalAll?_congr (A : Arithmetic ν) {vars vars' : Variables ν} (es : List Expr)
    (same : ∀ v, mentionsAny v es = true → vars.get v = vars'.get v) :
    evalAll? A vars es = evalAll? A vars' es := by
  cases es with
  | nil => rfl
  | cons e es =>
    have first := eval?_congr A e fun v mentioned => same v (by rw [mentionsAny, mentioned, Bool.true_or])
    have others := evalAll?_congr A es fun v mentioned =>
      same v (by rw [mentionsAny, mentioned, Bool.or_true])
    simp only [evalAll?, first, others]

end

/-- No axis refers to itself, and the axes do not refer to each other both ways. -/
structure Acyclic (x y : Expr) : Prop where
  freeX : x.mentions .x = false
  freeY : y.mentions .y = false
  oneWay : x.mentions .y = false ∨ y.mentions .x = false

namespace Variables

/-- The vectors differ in the position at most: sizes, number, time and place in the stream are the same. -/
def SameFrame (vars vars' : Variables ν) : Prop := ∀ v, v ≠ .x → v ≠ .y → vars.get v = vars'.get v

theorem SameFrame.symm {vars vars' : Variables ν} (h : vars.SameFrame vars') : vars'.SameFrame vars :=
  fun v notX notY => (h v notX notY).symm

theorem SameFrame.trans {vars vars' vars'' : Variables ν} (h : vars.SameFrame vars')
    (h' : vars'.SameFrame vars'') : vars.SameFrame vars'' :=
  fun v notX notY => (h v notX notY).trans (h' v notX notY)

/-- A position moves within its frame. -/
theorem sameFrame_at (vars : Variables ν) (a b : ν) : vars.SameFrame { vars with x := a, y := b } := by
  intro v notX notY
  cases v with
  | x => exact absurd rfl notX
  | y => exact absurd rfl notY
  | mainWidth | mainHeight | overlayWidth | overlayHeight | n | t | pos => rfl

/-- A vector is known by its values. -/
theorem eq_of_get {vars vars' : Variables ν} (h : ∀ v, vars.get v = vars'.get v) : vars = vars' := by
  have sizes := And.intro (h .mainWidth) (h .mainHeight)
  have sizes' := And.intro (h .overlayWidth) (h .overlayHeight)
  have position := And.intro (h .x) (h .y)
  have event := And.intro (h .n) (And.intro (h .t) (h .pos))
  cases vars
  cases vars'
  simp only [get] at sizes sizes' position event
  simp only [sizes, sizes', position, event]

/-- The value of an expression, or what stands for one that a call does not have. -/
def solve (A : Arithmetic ν) (missing : ν) (e : Expr) (vars : Variables ν) : ν :=
  (e.eval? A vars).getD missing

section Solve

variable {A : Arithmetic ν} {missing : ν} {e : Expr} {vars vars' : Variables ν}

/-- For one frame the value of an expression depends on the axes that it mentions. -/
theorem solve_congr (same : vars.SameFrame vars') (x : e.mentions .x = false ∨ vars.x = vars'.x)
    (y : e.mentions .y = false ∨ vars.y = vars'.y) : solve A missing e vars = solve A missing e vars' := by
  refine congrArg (Option.getD · missing) (eval?_congr A e fun v mentioned => ?_)
  by_cases isX : v = .x
  · subst isX
    exact x.resolve_left fun free => Bool.false_ne_true (free.symm.trans mentioned)
  by_cases isY : v = .y
  · subst isY
    exact y.resolve_left fun free => Bool.false_ne_true (free.symm.trans mentioned)
  exact same v isX isY

end Solve

/-! ### Positions that solve both expressions -/

/-- The position solves both expressions. -/
structure Settled (A : Arithmetic ν) (missing : ν) (x y : Expr) (vars : Variables ν) : Prop where
  atX : vars.x = solve A missing x vars
  atY : vars.y = solve A missing y vars

section Settling

variable {A : Arithmetic ν} {missing : ν} {x y : Expr} {vars vars' : Variables ν}

/-- **A frame has one position** that solves both expressions.  The axis that does not refer to the other is
known by the frame, and then so is the other. -/
theorem Settled.unique (acyclic : Acyclic x y) (same : vars.SameFrame vars')
    (h : vars.Settled A missing x y) (h' : vars'.Settled A missing x y) : vars = vars' := by
  have position : vars.x = vars'.x ∧ vars.y = vars'.y := by
    rcases acyclic.oneWay with apart | apart
    · have sameX : vars.x = vars'.x := by
        rw [h.atX, h'.atX]
        exact solve_congr same (.inl acyclic.freeX) (.inl apart)
      refine ⟨sameX, ?_⟩
      rw [h.atY, h'.atY]
      exact solve_congr same (.inr sameX) (.inl acyclic.freeY)
    · have sameY : vars.y = vars'.y := by
        rw [h.atY, h'.atY]
        exact solve_congr same (.inl apart) (.inl acyclic.freeY)
      refine ⟨?_, sameY⟩
      rw [h.atX, h'.atX]
      exact solve_congr same (.inl acyclic.freeX) (.inr sameY)
  refine eq_of_get fun v => ?_
  by_cases isX : v = .x
  · subst isX
    exact position.1
  by_cases isY : v = .y
  · subst isY
    exact position.2
  exact same v isX isY

/-- An evaluation changes the position only. -/
theorem sameFrame_settle (A : Arithmetic ν) (missing : ν) (x y : Expr) (vars : Variables ν) :
    vars.SameFrame (vars.settle A missing x y) := vars.sameFrame_at _ _

/-- **The three steps solve both expressions.**  If `x` does not refer to `y`, its value is right from the
first step on, and `y` is right with it; if `y` does not refer to `x`, its value is right in the second step,
and the third makes `x` right. -/
theorem settled_settle (acyclic : Acyclic x y) (vars : Variables ν) :
    (vars.settle A missing x y).Settled A missing x y := by
  let first : Variables ν := { vars with x := solve A missing x vars }
  let second : Variables ν := { first with y := solve A missing y first }
  let third : Variables ν := { second with x := solve A missing x second }
  have frame {a b c d : ν} : ({ vars with x := a, y := b } : Variables ν).SameFrame
      { vars with x := c, y := d } := (vars.sameFrame_at a b).symm.trans (vars.sameFrame_at c d)
  have steps : vars.settle A missing x y = third := rfl
  have last : third.x = solve A missing x third := by
    show solve A missing x second = solve A missing x third
    exact solve_congr frame (.inl acyclic.freeX) (.inr rfl)
  have middle : third.y = solve A missing y third := by
    show solve A missing y first = solve A missing y third
    rcases acyclic.oneWay with apart | apart
    · have early : first.x = third.x := by
        show solve A missing x vars = solve A missing x second
        exact solve_congr frame (.inl acyclic.freeX) (.inl apart)
      exact solve_congr frame (.inr early) (.inl acyclic.freeY)
    · exact solve_congr frame (.inl apart) (.inl acyclic.freeY)
  rw [steps]
  exact ⟨last, middle⟩

end Settling

end Variables

end Expr

/-! ### Evaluations -/

open FrameOverlay.Expr

/-- **An evaluation has no history.**  If no axis refers to itself and the axes do not refer to each other
both ways, then under any arithmetic one frame gives one position, whatever the position was before; it solves
both expressions, and evaluating again changes nothing.  So it is with the offset that a position comes to. -/
theorem Position.evaluate_settled {x y : Expr} (acyclic : Acyclic x y) :
    (∀ {ν : Type} (A : Arithmetic ν) (missing : ν) (vars vars' : Variables ν), vars.SameFrame vars' →
      let settled := vars.settle A missing x y
      vars'.settle A missing x y = settled ∧ vars.SameFrame settled ∧ settled.Settled A missing x y ∧
        settled.settle A missing x y = settled) ∧
    ∀ p q : Position, p.x.tree = x → p.y.tree = y → q.x.tree = x → q.y.tree = y →
      p.vars.SameFrame q.vars →
      q.evaluate.offset = p.evaluate.offset ∧ q.evaluate.vars = p.evaluate.vars ∧
        p.evaluate.evaluate = p.evaluate ∧ p.evaluate.vars.x = x.value p.evaluate.vars ∧
          p.evaluate.vars.y = y.value p.evaluate.vars := by
  have general {ν : Type} (A : Arithmetic ν) (missing : ν) (vars vars' : Variables ν)
      (same : vars.SameFrame vars') :
      let settled := vars.settle A missing x y
      vars'.settle A missing x y = settled ∧ vars.SameFrame settled ∧ settled.Settled A missing x y ∧
        settled.settle A missing x y = settled := by
    intro settled
    have solved : settled.Settled A missing x y := Variables.settled_settle acyclic vars
    have kept : vars.SameFrame settled := Variables.sameFrame_settle A missing x y vars
    have kept' := Variables.sameFrame_settle A missing x y vars'
    refine ⟨?_, kept, solved, ?_⟩
    · have other : (vars'.settle A missing x y).Settled A missing x y := Variables.settled_settle acyclic vars'
      exact other.unique acyclic (kept'.symm.trans (same.symm.trans kept)) solved
    · have again : (settled.settle A missing x y).Settled A missing x y :=
        Variables.settled_settle acyclic settled
      have frame := Variables.sameFrame_settle A missing x y settled
      exact again.unique acyclic frame.symm solved
  refine ⟨general, fun p q px py qx qy same => ?_⟩
  subst px py
  obtain ⟨alike, -, solved, again⟩ := general double nan p.vars q.vars same
  have vars : q.evaluate.vars = p.evaluate.vars := by
    show q.vars.settle double nan q.x.tree q.y.tree = p.vars.settle double nan p.x.tree p.y.tree
    rw [qx, qy]
    exact alike
  have offset (r : Position) :
      r.evaluate.offset = ⟨.ofFloat r.evaluate.vars.x, r.evaluate.vars.y.toInt32⟩ := rfl
  refine ⟨?_, vars, ?_, solved.atX, solved.atY⟩
  · rw [offset, offset, vars]
  · have twice : p.evaluate.vars.settle double nan p.x.tree p.y.tree = p.evaluate.vars := again
    show ({ p.evaluate with
      vars := p.evaluate.vars.settle double nan p.x.tree p.y.tree
      offset := ⟨.ofFloat (p.evaluate.vars.settle double nan p.x.tree p.y.tree).x,
        (p.evaluate.vars.settle double nan p.x.tree p.y.tree).y.toInt32⟩ } : Position) = p.evaluate
    rw [twice]
    rfl

/-- Two evaluators of `W - w` and `x / 4` that stand at different places. -/
theorem Position.evaluate_settled_oneWay :
    let x : Expr := .binary .sub (.var .mainWidth) (.var .overlayWidth)
    let y : Expr := .binary .div (.var .x) (.num ⟨4, 0⟩)
    let p : Position := ⟨⟨"W - w", x⟩, ⟨"x / 4", y⟩, Position.initialVariables, .origin⟩
    let q : Position := { p with vars := { p.vars with x := 10, y := 20 } }
    Acyclic x y ∧ p.vars.SameFrame q.vars ∧ q.evaluate.offset = p.evaluate.offset ∧
      p.evaluate.evaluate = p.evaluate ∧ p.evaluate.vars.y = y.value p.evaluate.vars := by
  intro x y p q
  have acyclic : Acyclic x y := ⟨by decide, by decide, .inl (by decide)⟩
  have same : p.vars.SameFrame q.vars := p.vars.sameFrame_at 10 20
  obtain ⟨offset, -, again, -, atY⟩ :=
    (Position.evaluate_settled acyclic).2 p q rfl rfl rfl rfl same
  exact ⟨acyclic, same, offset, again, atY⟩

end FrameOverlay
