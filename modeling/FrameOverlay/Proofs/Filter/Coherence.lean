import FrameOverlay.Proofs.Device.Accounts
import FrameOverlay.Proofs.Expr.Ink

/-!
# The texts of the position

A filter has the expressions of its position twice: as texts in the configuration, and read into trees for
the evaluation.  A command replaces both, or neither.  So the two never drift apart, and the configuration
stays one that a filter can be made from.

* `OverlayFilter.Coherent` — the trees are those of the texts in the configuration, which is valid;
* `OverlayFilter.Retains` — configuration and expressions are kept, which is all that any order but a
  command does;
* `CoherenceLaw`, `Studio.texts_coherent` — **every filter of a run is coherent**.
-/

namespace FrameOverlay

open Pipeline

/-- The text of an axis in the configuration. -/
def OverlayConfig.textOf (c : OverlayConfig) : Axis → String
  | .x => c.x
  | .y => c.y

namespace OverlayFilter

/-- The position goes by the texts of the configuration, and by what they are read as. -/
structure Coherent (f : OverlayFilter) : Prop where
  text (a : Axis) : (f.position.expression a).text = f.config.textOf a
  compiled (a : Axis) : Expr.parse (f.config.textOf a) = .ok (f.position.expression a).tree
  valid : f.config.validate = .ok ()

/-- A filter made anew from the configuration has the same expressions. -/
def Renewable (f : OverlayFilter) : Prop :=
  ∃ g, OverlayFilter.new f.config = .ok g ∧ ∀ a, g.position.expression a = f.position.expression a

/-- The configuration and both expressions are kept. -/
structure Retains (f f' : OverlayFilter) : Prop where
  config : f'.config = f.config
  expression (a : Axis) : f'.position.expression a = f.position.expression a

/-! ### Expressions and their texts -/

theorem Coherent.of_retains {f f' : OverlayFilter} (h : f.Coherent) (retains : f.Retains f') :
    f'.Coherent where
  text a := by rw [retains.expression, retains.config, h.text]
  compiled a := by rw [retains.expression, retains.config, h.compiled]
  valid := by rw [retains.config, h.valid]

/-- An expression that has been read has the text it was read from. -/
theorem read_ok {axis : Axis} {text : String} {e : PositionExpr}
    (h : PositionExpr.read axis text = .ok e) : e.text = text ∧ Expr.parse text = .ok e.tree := by
  unfold PositionExpr.read at h
  split at h
  next tree parsed =>
    obtain rfl := Except.ok.inj h
    exact ⟨rfl, parsed⟩
  next => exact nomatch h

theorem read_of_parse {axis : Axis} {text : String} {tree : Expr} (h : Expr.parse text = .ok tree) :
    PositionExpr.read axis text = .ok ⟨text, tree⟩ := by
  rw [PositionExpr.read, h]

/-- Whether a configuration is valid is a matter of its time base once both texts can be read. -/
theorem valid_of_parse {c c' : OverlayConfig} (valid : c.validate = .ok ()) (base : c'.timeBase = c.timeBase)
    (parsed : ∀ a, ∃ tree, Expr.parse (c'.textOf a) = .ok tree) : c'.validate = .ok () := by
  obtain ⟨_, hx⟩ := parsed .x
  obtain ⟨_, hy⟩ := parsed .y
  refine OverlayConfig.validate_iff.2
    ⟨Expr.not_isBlankText_of_parse hx, Expr.not_isBlankText_of_parse hy, ?_⟩
  rw [base]
  exact (OverlayConfig.validate_iff.1 valid).2.2

/-- A filter is made coherent. -/
theorem Coherent.of_new {config : OverlayConfig} {f : OverlayFilter}
    (made : OverlayFilter.new config = .ok f) : f.Coherent := by
  obtain ⟨⟨⟩, allowed, made⟩ := ok_of_bind made
  obtain ⟨position, read, made⟩ := ok_of_bind made
  obtain rfl := Except.ok.inj made
  obtain ⟨x, readX, read⟩ := ok_of_bind read
  obtain ⟨y, readY, read⟩ := ok_of_bind read
  obtain rfl := Except.ok.inj read
  exact
    { text := fun a => by
        cases a with
        | x => exact (read_ok readX).1
        | y => exact (read_ok readY).1
      compiled := fun a => by
        cases a with
        | x => exact (read_ok readX).2
        | y => exact (read_ok readY).2
      valid := allowed }

/-- A coherent filter can be made anew. -/
theorem Coherent.renewable {f : OverlayFilter} (h : f.Coherent) : f.Renewable := by
  have readX : PositionExpr.read .x f.config.x = .ok _ := read_of_parse (h.compiled .x)
  have readY : PositionExpr.read .y f.config.y = .ok _ := read_of_parse (h.compiled .y)
  unfold Renewable OverlayFilter.new Position.new
  rw [h.valid, readX, readY]
  refine ⟨_, rfl, fun a => ?_⟩
  cases a with
  | x => exact congrArg (PositionExpr.mk · _) (h.text .x).symm
  | y => exact congrArg (PositionExpr.mk · _) (h.text .y).symm

/-! ### Commands -/

/-- A command that succeeds puts the new text and what it is read as in the place of the old ones, and
leaves the other axis alone. -/
theorem Coherent.command {f f' : OverlayFilter} {name argument : String} (h : f.Coherent)
    (changed : f.command name argument = .ok f') : f'.Coherent := by
  obtain ⟨axis, q, -, set, same⟩ := command_ok changed
  obtain ⟨e, read, set⟩ := ok_of_bind set
  obtain ⟨text, parsed⟩ := read_ok read
  have expression (a : Axis) :
      f'.position.expression a = if a = axis then e else f.position.expression a := by
    obtain rfl := Except.ok.inj set
    subst same
    dsimp only
    cases axis <;> cases a <;> split <;> rfl
  have config (a : Axis) : f'.config.textOf a = if a = axis then argument else f.config.textOf a := by
    subst same
    cases axis <;> cases a <;> rfl
  have compiled (a : Axis) : Expr.parse (f'.config.textOf a) = .ok (f'.position.expression a).tree := by
    rw [config, expression]
    split
    · exact parsed
    · exact h.compiled a
  have base : f'.config.timeBase = f.config.timeBase := by
    subst same
    cases axis <;> rfl
  exact
    { text := fun a => by
        rw [config, expression]
        split
        · exact text
        · exact h.text a
      compiled
      valid := valid_of_parse h.valid base fun a => ⟨_, compiled a⟩ }

/-- Why a command fails: there is no such axis, or the expression cannot be read. -/
theorem command_error {f : OverlayFilter} {name argument : String} {e : OverlayError}
    (failed : f.command name argument = .error e) :
    Axis.ofName? name = none ∧ e = .unknownCommand name ∨
      ∃ axis fault, Axis.ofName? name = some axis ∧ Expr.parse argument = .error fault ∧
        e = .expression axis.name argument fault.message := by
  unfold OverlayFilter.command at failed
  split at failed
  next unknown => exact .inl ⟨unknown, (Except.error.inj failed).symm⟩
  next axis named =>
  refine .inr ⟨axis, ?_⟩
  unfold Position.setExpression PositionExpr.read at failed
  cases parsed : Expr.parse argument with
  | ok tree =>
    rw [parsed] at failed
    exact nomatch failed
  | error fault =>
    rw [parsed] at failed
    exact ⟨fault, named, rfl, (Except.error.inj failed).symm⟩

/-! ### Every other order -/

theorem Retains.same (f : OverlayFilter) : f.Retains f := ⟨rfl, fun _ => rfl⟩

theorem Retains.of_eq {f f' : OverlayFilter} (config : f'.config = f.config)
    (position : f'.position = f.position) : f.Retains f' :=
  ⟨config, fun a => congrArg (Position.expression · a) position⟩

theorem retains_settlePosition (f : OverlayFilter) : f.Retains f.settlePosition := by
  unfold settlePosition
  split
  · exact ⟨rfl, fun a => by cases a <;> rfl⟩
  · exact .same f

/-- Taking in the sizes of both streams changes no expression. -/
theorem retains_place (f : OverlayFilter) (main overlay : LinkInfo) : f.Retains (f.place main overlay) := by
  obtain ⟨config, expression⟩ := retains_settlePosition { f with
    position := f.position.setDimensions main.width main.height overlay.width overlay.height }
  exact ⟨config, fun a => (expression a).trans (by cases a <;> rfl)⟩

/-- Positioning the overlay for an event changes no expression. -/
theorem retains_positionFor (f : OverlayFilter) (e : SyncEvent Picture) (overlay : Picture) :
    f.Retains (f.positionFor e overlay) := by
  unfold positionFor
  split
  · exact .same f
  · exact ⟨rfl, fun a => by cases a <;> rfl⟩

theorem retains_configure (p : Pipeline) (main overlay : LinkInfo)
    (image : Except OverlayError KernelImage) :
    p.filter.Retains (attempt (configureWith main overlay image) p).2.filter := by
  have view := configuring main overlay image p
  have placed := retains_place p.filter main overlay
  generalize attempt (configureWith main overlay image) p = run at view ⊢
  cases view with
  | refused => exact .same p.filter
  | unsynchronized | unopened | configured => exact ⟨placed.config, placed.expression⟩

theorem retains_activate (t : Cycle) : t.before.filter.Retains t.after.filter := by
  refine ⟨t.after_like.1, fun a => ?_⟩
  have placed (e : SyncEvent Picture) (overlay : Picture) :
      (t.placedFor e overlay).expression a = t.before.filter.position.expression a :=
    (retains_positionFor t.before.advanced.filter e overlay).expression a
  cases t.course with
  | quiet _ _ _ filter => rw [filter]
  | bare _ _ _ _ filter =>
    rw [filter]
    rfl
  | blended _ _ _ _ _ filter =>
    rw [filter]
    exact placed _ _
  | spoiled _ _ _ filter =>
    rw [filter]
    exact placed _ _

/-- **Every order that a filter outlives keeps it coherent.** -/
theorem Coherent.order {p : Pipeline} (h : p.filter.Coherent) {order : FilterOrder}
    (more : order.isLast = false) :
    (attempt order.body p).2.filter.Coherent := by
  cases order with
  | configure main overlay image =>
    have run : attempt (FilterOrder.configure main overlay image).body p = _ :=
      attempt_forget (configureWith main overlay image) p
    rw [run]
    exact h.of_retains (retains_configure p main overlay image)
  | push input i =>
    have kept : (attempt (FilterOrder.push input i).body p).2.filter = p.filter := by
      show (attempt (handOver input i) p).2.filter = _
      simp only [attempt, handOver]
      cases p.kept[i]? <;> cases input <;> rfl
    rwa [kept]
  | close input => cases input <;> exact h
  | activate =>
    have run : attempt FilterOrder.activate.body p = _ := attempt_forget activate p
    rw [run]
    exact h.of_retains (retains_activate ⟨p⟩)
  | command name argument =>
    cases changed : p.filter.command name argument with
    | error e =>
      have run : attempt (FilterOrder.command name argument).body p = (.error e, p) :=
        attempt_command_error changed
      rwa [run]
    | ok f =>
      have run : attempt (FilterOrder.command name argument).body p = (.ok (), { p with filter := f }) :=
        attempt_command_ok changed
      rw [run]
      exact h.command changed
  | pop | drain => exact h.of_retains (.of_eq rfl rfl)
  | teardown =>
    refine h.of_retains ?_
    rw [show (attempt FilterOrder.teardown.body p).2.filter = _ from p.teardown_filter]
    exact .of_eq rfl rfl
  | drop => exact absurd more (Bool.false_ne_true ∘ Eq.symm)

end OverlayFilter

/-! ### Runs -/

/-- A command that fails, and why: nothing else has changed. -/
structure Step.Declined (s : Step) (name argument : String) (e : OverlayError) : Prop where
  same : s.after = s.before
  cause : Axis.ofName? name = none ∧ e = .unknownCommand name ∨
    ∃ axis fault, Axis.ofName? name = some axis ∧ Expr.parse argument = .error fault ∧
      e = .expression axis.name argument fault.message

namespace Studio

variable {w : Studio}

/-- Every filter that is there is coherent. -/
def AllCoherent (w : Studio) : Prop := ∀ line ∈ w.lines, line.dropped = false → line.filter.Coherent

theorem AllCoherent.created (h : w.AllCoherent) (config : OverlayConfig) :
    (w.perform (.newFilter config)).2.AllCoherent := by
  simp only [Studio.perform]
  split
  next => exact h
  next filter made =>
  intro line member on
  rcases List.mem_append.1 member with before | last
  · exact h line before on
  · obtain rfl := List.mem_singleton.1 last
    exact .of_new made

theorem AllCoherent.filtered (h : w.AllCoherent) (n : Nat) (order : FilterOrder) :
    (w.perform (.filter n order)).2.AllCoherent := by
  cases live : w.line? n with
  | none =>
    rw [perform_filter_none live]
    exact h
  | some line =>
  rw [perform_filter live]
  obtain ⟨found, present⟩ := line?_eq_some.1 live
  have coherent : (w.pipeline line).filter.Coherent := h line (List.mem_of_getElem? found) present
  intro other member on
  rcases List.mem_or_eq_of_mem_set member with before | rfl
  · exact h other before on
  · exact OverlayFilter.Coherent.order coherent on

/-- Every order keeps every filter coherent. -/
theorem AllCoherent.perform (h : w.AllCoherent) (order : Order) : (w.perform order).2.AllCoherent := by
  cases order with
  | frame | openSession | session | leave =>
    unfold AllCoherent
    rw [lines_perform w rfl]
    exact h
  | newFilter config => exact h.created config
  | filter n order => exact h.filtered n order

/-- A command that fails leaves everything as it was. -/
theorem declined (w : Studio) (n : Nat) (name argument : String) (e : OverlayError)
    (failed : (w.step (.filter n (.command name argument))).result = .error e) :
    (w.step (.filter n (.command name argument))).Declined name argument e := by
  cases live : w.line? n with
  | none =>
    have same := perform_filter_none live (.command name argument)
    have result : (w.perform (.filter n (.command name argument))).1 = .error e := failed
    rw [same] at result
    exact nomatch result
  | some line =>
  have result := step_result live (.command name argument)
  rw [failed] at result
  cases changed : line.filter.command name argument with
  | ok f =>
    have run : attempt (FilterOrder.command name argument).body (w.pipeline line) = (.ok (), _) :=
      attempt_command_ok changed
    rw [run] at result
    exact nomatch result
  | error fault =>
    have run : attempt (FilterOrder.command name argument).body (w.pipeline line) = (.error fault, _) :=
      attempt_command_error changed
    rw [run] at result
    obtain rfl := Except.error.inj result
    refine ⟨?_, OverlayFilter.command_error changed⟩
    obtain ⟨found, present⟩ := line?_eq_some.1 live
    obtain ⟨inside, at_n⟩ := List.getElem?_eq_some_iff.1 found
    have line_eq : (⟨line.filter, line.main, line.overlay, false⟩ : Line) = w.lines[n] := by
      rw [← present, at_n]
    have lines : w.lines.set n ⟨line.filter, line.main, line.overlay, false⟩ = w.lines := by
      rw [line_eq, List.set_getElem_self]
    show (w.perform (.filter n (.command name argument))).2 = w
    rw [perform_filter live, performFilter, run]
    exact congrArg (fun lines => ({ w with lines } : Studio)) lines

end Studio

/-- What a run comes to for the expressions of its filters. -/
structure CoherenceLaw (steps : List Step) (w : Studio) : Prop where
  coherent : ∀ n line, w.line? n = some line → line.filter.Coherent
  renewable : ∀ n line, w.line? n = some line → line.filter.Renewable
  declined : ∀ s ∈ steps, ∀ n name argument e, s.order = .filter n (.command name argument) →
    s.result = .error e → s.Declined name argument e

namespace Studio

/-- **The expressions of a filter and their texts never drift apart.**  Take a driver and pools with any
faults, and any orders.  Every filter that is there has the texts of its configuration as expressions, both
can be read, and their trees are what they are read as; a filter can be made anew from its configuration;
and a command that fails, be it for its name or for its text, has changed nothing. -/
theorem texts_coherent (faults : FaultPlan) (orders : List Order) :
    CoherenceLaw ((empty faults).steps orders) ((empty faults).finish orders) := by
  let Does (s : Step) : Prop := ∀ n name argument e, s.order = .filter n (.command name argument) →
    s.result = .error e → s.Declined name argument e
  let Fair (_ : Step) : Prop := True
  have keep (w : Studio) (order : Order) (h : w.AllCoherent) (_ : Fair (w.step order)) :
      Does (w.step order) ∧ (w.perform order).2.AllCoherent := by
    refine ⟨fun n name argument e on failed => ?_, h.perform order⟩
    obtain rfl : order = _ := on
    exact declined w n name argument e failed
  have start : (empty faults).AllCoherent := fun line member => absurd member List.not_mem_nil
  obtain ⟨does, coherent⟩ := steps_keep keep _ start orders fun _ _ => trivial
  have live (n : Nat) (line : Line) (on : ((empty faults).finish orders).line? n = some line) :
      line.filter.Coherent := by
    obtain ⟨found, present⟩ := line?_eq_some.1 on
    exact coherent line (List.mem_of_getElem? found) present
  exact ⟨live, fun n line on => (live n line on).renewable, does⟩

end Studio

end FrameOverlay
