import FrameOverlay.Expr.Positional
import FrameOverlay.Proofs.Expr.Parsing

/-!
# Calls have their arguments

A function takes its arguments by position and trusts that they are there.  Their number is checked in one
place only, where a call has been read.  That no call of a tree has escaped the check is an invariant of
derivations, and evaluation keeps to it: a function is given one value for each argument.

* `Occurs`, `callsFit_iff` — a tree fits if each call that occurs in it has as many arguments as its function
  takes;
* `Derives.fits` — a tree that derives fits, one case for each rule;
* `Arithmetic.Answers` — functions that agree on calls that fit, whatever they do with others;
* `eval?_of_callsFit` — such functions give a tree that fits a value, and the same one;
* `supplied_of_parse` — **no call of an expression that was read lacks an argument**.
-/

namespace FrameOverlay.Expr

/-! ### Calls of a tree -/

/-- An expression occurs in itself, and wherever it occurs in a part. -/
inductive Occurs (p : Expr) : Expr → Prop where
  | here : Occurs p p
  | operand {e : Expr} (inside : Occurs p e) : Occurs p (.neg e)
  | left {op : BinaryOp} {l r : Expr} (inside : Occurs p l) : Occurs p (.binary op l r)
  | right {op : BinaryOp} {l r : Expr} (inside : Occurs p r) : Occurs p (.binary op l r)
  | argument {f : Builtin} {args : List Expr} {e : Expr} (member : e ∈ args) (inside : Occurs p e) :
      Occurs p (.call f args)

theorem callsFitAll_iff {es : List Expr} : CallsFitAll es ↔ ∀ e ∈ es, e.CallsFit := by
  induction es with
  | nil => simp only [CallsFitAll, List.not_mem_nil, false_implies, implies_true]
  | cons e es ih => rw [CallsFitAll, ih, List.forall_mem_cons]

/-- What occurs in a tree that fits, fits. -/
theorem Occurs.callsFit {p e : Expr} (h : Occurs p e) (fits : e.CallsFit) : p.CallsFit := by
  induction h with
  | here => exact fits
  | operand _ ih =>
    rw [CallsFit] at fits
    exact ih fits
  | left _ ih =>
    rw [CallsFit] at fits
    exact ih fits.1
  | right _ ih =>
    rw [CallsFit] at fits
    exact ih fits.2
  | argument member _ ih =>
    rw [CallsFit] at fits
    exact ih (callsFitAll_iff.1 fits.2.2 _ member)

mutual

/-- A tree fits if every call that occurs in it does. -/
theorem callsFit_of_occurs (e : Expr)
    (calls : ∀ f args, Occurs (.call f args) e → f.minArgs ≤ args.length ∧ args.length ≤ f.maxArgs) :
    e.CallsFit := by
  cases e with
  | num | const | var => rw [CallsFit]; trivial
  | neg e =>
    rw [CallsFit]
    exact callsFit_of_occurs e fun f args inside => calls f args (.operand inside)
  | binary op l r =>
    rw [CallsFit]
    exact ⟨callsFit_of_occurs l fun f args inside => calls f args (.left inside),
      callsFit_of_occurs r fun f args inside => calls f args (.right inside)⟩
  | call f args =>
    obtain ⟨least, most⟩ := calls f args .here
    rw [CallsFit]
    exact ⟨least, most, callsFitAll_of_occurs args fun e member g args inside =>
      calls g args (.argument member inside)⟩

theorem callsFitAll_of_occurs (es : List Expr)
    (calls : ∀ e ∈ es, ∀ f args, Occurs (.call f args) e →
      f.minArgs ≤ args.length ∧ args.length ≤ f.maxArgs) : CallsFitAll es := by
  cases es with
  | nil => rw [CallsFitAll]; trivial
  | cons e es =>
    rw [CallsFitAll]
    exact ⟨callsFit_of_occurs e (calls e List.mem_cons_self),
      callsFitAll_of_occurs es fun e member => calls e (List.mem_cons_of_mem _ member)⟩

end

/-- **What it is for a tree to fit**: each call that occurs in it has as many arguments as its function takes,
however deep it stands. -/
theorem callsFit_iff {e : Expr} : e.CallsFit ↔
    ∀ f args, Occurs (.call f args) e → f.minArgs ≤ args.length ∧ args.length ≤ f.maxArgs := by
  constructor
  · intro fits f args inside
    have call := inside.callsFit fits
    rw [CallsFit] at call
    exact ⟨call.1, call.2.1⟩
  · exact callsFit_of_occurs e

/-! ### Trees that are read -/

/-- The value of a phrase fits. -/
def Phrase.Fits : Phrase → Prop
  | .sum _ e | .product _ e | .signed e | .power e | .primary e => e.CallsFit
  | .arguments es => CallsFitAll es

/-- Every rule makes a value that fits of values that fit.  The rule of calls adds a call, whose arguments it
counts; no other rule does. -/
theorem Derives.fits {d : Nat} {p : Phrase} {ts : List Token} (h : Derives d p ts) : p.Fits := by
  induction h with
  | term _ ih | factor _ ih | plus _ _ ih | unsigned _ ih | plain _ ih | parentheses _ _ ih => exact ih
  | terms _ _ _ _ left right | factors _ _ _ _ left right | raised _ _ _ left right =>
    rw [Phrase.Fits, CallsFit]
    exact ⟨left, right⟩
  | minus _ _ ih =>
    rw [Phrase.Fits, CallsFit]
    exact ih
  | numeral | named | constant =>
    rw [Phrase.Fits, CallsFit]
    trivial
  | call _ _ _ least most arguments =>
    rw [Phrase.Fits, CallsFit]
    exact ⟨least, most, arguments⟩
  | argument _ last =>
    simp only [Phrase.Fits, CallsFitAll, and_true]
    exact last
  | arguments _ _ first others =>
    rw [Phrase.Fits, CallsFitAll]
    exact ⟨first, others⟩

theorem callsFit_of_parse {text : String} {e : Expr} (h : parse text = .ok e) : e.CallsFit := by
  obtain ⟨ts, -, k, derives⟩ := denotes_of_parse h
  exact derives.fits

/-! ### Evaluation -/

section Evaluation

variable {ν : Type} {A : Arithmetic ν} {call? : Builtin → List ν → Option ν}

/-- A call with as many arguments as its function takes has a value, and `call?` gives it the same one.
Nothing is said about other calls. -/
def Arithmetic.Answers (A : Arithmetic ν) (call? : Builtin → List ν → Option ν) : Prop :=
  ∀ f values, f.minArgs ≤ values.length → values.length ≤ f.maxArgs →
    ∃ v, A.call? f values = some v ∧ call? f values = some v

mutual

/-- **Evaluation makes no call that does not fit.**  A tree that fits has a value, and it is the same one if
the functions do something else with too few or too many arguments. -/
theorem eval?_of_callsFit (answers : A.Answers call?) (vars : Variables ν) (e : Expr) (fits : e.CallsFit) :
    ∃ v, e.eval? A vars = some v ∧ e.eval? { A with call? } vars = some v := by
  cases e with
  | num | const | var => exact ⟨_, rfl, rfl⟩
  | neg e =>
    rw [CallsFit] at fits
    obtain ⟨v, value, value'⟩ := eval?_of_callsFit answers vars e fits
    refine ⟨A.negate v, ?_, ?_⟩
    · rw [eval?, value, Option.map_some]
    · rw [eval?, value', Option.map_some]
  | binary op l r =>
    rw [CallsFit] at fits
    obtain ⟨a, left, left'⟩ := eval?_of_callsFit answers vars l fits.1
    obtain ⟨b, right, right'⟩ := eval?_of_callsFit answers vars r fits.2
    refine ⟨A.binary op a b, ?_, ?_⟩
    · rw [eval?, left, right]
      rfl
    · rw [eval?, left', right']
      rfl
  | call f args =>
    rw [CallsFit] at fits
    obtain ⟨least, most, inside⟩ := fits
    obtain ⟨values, all, all', count⟩ := evalAll?_of_callsFit answers vars args inside
    -- what was counted were the arguments; there are as many values
    obtain ⟨v, value, value'⟩ := answers f values (count ▸ least) (count ▸ most)
    refine ⟨v, ?_, ?_⟩
    · rw [eval?, all]
      exact value
    · rw [eval?, all']
      exact value'

/-- A function is given one value for each argument. -/
theorem evalAll?_of_callsFit (answers : A.Answers call?) (vars : Variables ν) (es : List Expr)
    (fits : CallsFitAll es) :
    ∃ values, evalAll? A vars es = some values ∧ evalAll? { A with call? } vars es = some values ∧
      values.length = es.length := by
  cases es with
  | nil => exact ⟨[], rfl, rfl, rfl⟩
  | cons e es =>
    rw [CallsFitAll] at fits
    obtain ⟨v, first, first'⟩ := eval?_of_callsFit answers vars e fits.1
    obtain ⟨values, others, others', count⟩ := evalAll?_of_callsFit answers vars es fits.2
    refine ⟨v :: values, ?_, ?_, ?_⟩
    · rw [evalAll?, first, others]
      rfl
    · rw [evalAll?, first', others']
      rfl
    · rw [List.length_cons, List.length_cons, count]

end

end Evaluation

/-- Taking arguments by position makes no difference to calls that fit. -/
theorem double_answers : double.Answers Builtin.positional? := by
  intro f values least _
  obtain ⟨v, value⟩ := Option.isSome_iff_exists.1 (f.double?_isSome values least)
  exact ⟨v, value, (Builtin.positional?_eq_double? least).trans value⟩

/-- **No call lacks an argument.**  Each call in an expression that was read has as many arguments as its
function takes, however deep it stands.  So there is a value under every arithmetic that can answer such calls,
and nothing hangs on how it answers others; and on doubles no function takes an argument that is not there:
with arguments taken by position, there is a value for all variables, the one that expressions are given. -/
theorem supplied_of_parse {text : String} {e : Expr} (h : parse text = .ok e) :
    (∀ f args, Occurs (.call f args) e → f.minArgs ≤ args.length ∧ args.length ≤ f.maxArgs) ∧
      (∀ {ν : Type} (A : Arithmetic ν) (call? : Builtin → List ν → Option ν), A.Answers call? →
        ∀ vars, ∃ v, e.eval? A vars = some v ∧ e.eval? { A with call? } vars = some v) ∧
      ∀ vars : Variables Float, e.eval? positional vars = some (e.value vars) := by
  have fits := callsFit_of_parse h
  refine ⟨callsFit_iff.1 fits, fun A call? answers vars => eval?_of_callsFit answers vars e fits,
    fun vars => ?_⟩
  obtain ⟨v, value, taken⟩ := eval?_of_callsFit double_answers vars e fits
  rw [Expr.value, value]
  exact taken

/-- Calls in calls, the outermost of them without the argument that may be left out. -/
theorem supplied_of_parse_nested :
    let e : Expr := .call .ifNonzero [.var .x, .call .clip [.var .n, .num ⟨2, 0⟩, .call .abs [.var .y]]]
    parse "if(x, clip(n, 2, abs(y)))" = .ok e ∧ Occurs (.call .abs [.var .y]) e ∧
      Builtin.abs.minArgs ≤ 1 ∧ 1 ≤ Builtin.abs.maxArgs ∧
        ∀ vars, e.eval? positional vars = some (e.value vars) := by
  intro e
  have name {v : Variable} (c : Char) (known : Variable.ofName? (String.ofList [c]) = some v) (d : Nat) :
      Derives d (.sum 0 (.var v)) [.name [c]] := (Derives.named known).alone
  have two : Derives 2 (.sum 0 (.num ⟨2, 0⟩)) [.numeral ['2']] := (Derives.numeral (by decide)).alone
  have inner : Derives 2 (.sum 0 (.call .abs [.var .y]))
      [.name ['a', 'b', 's'], .opening, .name ['y'], .closing] :=
    (Derives.call (by decide) (by decide) (.argument (name 'y' (by decide) 3)) (by decide) (by decide)).alone
  have middle : Derives 1 (.sum 0 (.call .clip [.var .n, .num ⟨2, 0⟩, .call .abs [.var .y]]))
      [.name ['c', 'l', 'i', 'p'], .opening, .name ['n'], .comma, .numeral ['2'], .comma,
        .name ['a', 'b', 's'], .opening, .name ['y'], .closing, .closing] :=
    (Derives.call (by decide) (by decide)
      (.arguments (name 'n' (by decide) 2) (.arguments two (.argument inner))) (by decide) (by decide)).alone
  have outer : Derives 0 (.sum 0 e) ((scan "if(x, clip(n, 2, abs(y)))".toList).map Located.token) := by
    have cut : (scan "if(x, clip(n, 2, abs(y)))".toList).map Located.token =
        [.name ['i', 'f'], .opening, .name ['x'], .comma, .name ['c', 'l', 'i', 'p'], .opening,
          .name ['n'], .comma, .numeral ['2'], .comma, .name ['a', 'b', 's'], .opening, .name ['y'],
          .closing, .closing, .closing] := by decide +kernel
    rw [cut]
    exact (Derives.call (by decide) (by decide) (.arguments (name 'x' (by decide) 1) (.argument middle))
      (by decide) (by decide)).alone
  have read : parse "if(x, clip(n, 2, abs(y)))" = .ok e := parse_of_denotes ⟨_, munch_iff.2 rfl, 0, outer⟩
  obtain ⟨calls, -, values⟩ := supplied_of_parse read
  have occurs : Occurs (.call .abs [.var .y]) e :=
    .argument (.tail _ (.head _)) (.argument (.tail _ (.tail _ (.head _))) .here)
  obtain ⟨least, most⟩ := calls .abs [.var .y] occurs
  exact ⟨read, occurs, least, most, values⟩

end FrameOverlay.Expr
