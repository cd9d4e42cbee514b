import FrameOverlay.Proofs.Device.Filters

/-!
# What each order does

* `Owner`, `Studio.session?` — who has a session: the caller, or a filter;
* `Order.owner?`, `Order.closes` — whose session an order works with, and whether it closes it;
* `Studio.Performed` — **what can become of an order**;
* `Studio.moments_of_history` — the calls of a step;
* `Studio.steps_keep`, `Studio.steps_pairwise` — what every order keeps, a run keeps.
-/

namespace FrameOverlay

open Session

/-- Who has a session. -/
inductive Owner where
  | caller (k : Nat)
  | filter (n : Nat)
  deriving DecidableEq, Repr

/-- The owner with whose session an order works. -/
def Order.owner? : Order → Option Owner
  | session k _ => some (.caller k)
  | filter n _ => some (.filter n)
  | _ => none

/-- The order closes the session it works with. -/
def Order.closes : Order → Bool
  | session _ .close | session _ .drop => true
  | filter _ order => order.closes
  | _ => false

/-- What can become of entering a session. -/
inductive Session.Entering (session : Session) (s : DeviceState) :
    Except OverlayError Unit × DeviceState → Prop where
  | shut (closed : session.openDevice = none) :
      Entering session s (.error (.invariantViolation .sessionClosed), s)
  | pushed {device : DeviceContext} {r : DriverResult} {h : Handle} {answer : Except OverlayError Unit}
      {s' : DeviceState} (opened : session.openDevice = some device)
      (noted : s.Noted [⟨.push device.context, r, h, s.store⟩] s') : Entering session s (answer, s')

theorem Session.entering (session : Session) (s : DeviceState) :
    Entering session s (attempt session.enter s) := by
  unfold enter
  cases opened : session.openDevice with
  | none =>
    have shut : attempt session.device s = (.error (.invariantViolation .sessionClosed), s) := by
      simp [Session.device, opened]
    rw [attempt_bind_error shut]
    exact .shut opened
  | some device =>
    have on : attempt session.device s = (.ok device, s) := by simp [Session.device, opened]
    rw [attempt_bind_ok on]
    have noted := DeviceState.noted_ask s (.push device.context)
    rw [← (DeviceM.attempt_call "cuCtxPushCurrent" (.push device.context) s).1] at noted
    exact .pushed opened noted

namespace Studio

/-- The session of an owner. -/
def session? (w : Studio) : Owner → Option Session
  | .caller k => w.sessions[k]?
  | .filter n => w.lines[n]?.bind fun line =>
      if line.dropped then none else some line.filter.session

end Studio

/-- A session order that needs the device. -/
def SessionOrder.Demands (w : Studio) : SessionOrder → Prop
  | enter => True
  | makeWritable i => ∃ f, w.frames[i]? = some f ∧ w.device.store.isExclusive f.content.buffer = false
  | composite _ i j _ => i ≠ j ∧ i < w.frames.length ∧ j < w.frames.length
  | close | drop => False

namespace Studio

/-- What can become of an order. -/
inductive Performed (w : Studio) : Order → Answer → Prop where
  | framed (order : FrameOrder) : Performed w (.frame order) (w.performFrame order)
  /-- The order is about something that is not there. -/
  | absent {order : Order}
      (nothing : ∀ o, order.owner? = some o → order.closes = true → w.session? o = none)
      (idle : ∀ k o, order = .session k o → ∀ s, w.sessions[k]? = some s → ¬ o.Demands w) :
      Performed w order (.ok (), w)
  | unopened {device : DeviceContext} {image : KernelImage} {e : OverlayError} {d : DeviceState}
      (opened : Opened device w.device (.error e, d)) :
      Performed w (.openSession device image) (.error e, { w with device := d })
  | opened {device : DeviceContext} {image : KernelImage} {session : Session} {d : DeviceState}
      (opened : Opened device w.device (.ok session, d)) :
      Performed w (.openSession device image)
        (.ok (), { w with device := d, sessions := w.sessions ++ [session] })
  | entered {k : Nat} {session : Session} {answer : Except OverlayError Unit} {d : DeviceState}
      (found : w.sessions[k]? = some session) (entering : Entering session w.device (answer, d)) :
      Performed w (.session k .enter) (answer, { w with device := d })
  | left : Performed w .leave (.ok (), { w with device := DeviceM.leave w.device })
  | closed {k : Nat} {session : Session} {order : SessionOrder}
      {answer answer' : Except OverlayError Unit} {d : DeviceState}
      (found : w.sessions[k]? = some session) (closes : (Order.session k order).closes = true)
      (closing : Closing session w.device (answer, d)) :
      Performed w (.session k order)
        (answer', { w with device := d, sessions := w.sessions.set k .closed })
  | rewritten {k i : Nat} {session : Session} {frame : Frame} {copied : Bool} {picture : Picture}
      {d : DeviceState} (found : w.sessions[k]? = some session) (held : w.frames[i]? = some frame)
      (rewritten : frame.content.Rewritten session w.device (.ok (copied, picture), d)) :
      Performed w (.session k (.makeWritable i))
        (.ok (), { w with device := d, frames := w.frames.set i { frame with content := picture } })
  | unwritable {k i : Nat} {session : Session} {frame : Frame} {e : OverlayError} {d : DeviceState}
      (found : w.sessions[k]? = some session) (held : w.frames[i]? = some frame)
      (rewritten : frame.content.Rewritten session w.device (.error e, d)) :
      Performed w (.session k (.makeWritable i)) (.error e, { w with device := d })
  | blended {k i j : Nat} {session : Session} {plan : PlanePlan} {offset : OverlayOffset}
      {main : Frame} {answer : Except OverlayError Nat} {picture : Picture} {d : DeviceState}
      (found : w.sessions[k]? = some session) (distinct : i ≠ j) (held : w.frames[i]? = some main)
      (composited : plan.Composited session main.content w.device ((answer, picture), d)) :
      Performed w (.session k (.composite plan i j offset)) (answer.map fun _ => (),
        { w with device := d, frames := w.frames.set i { main with content := picture } })
  | uncreated {config : OverlayConfig} {e : OverlayError} :
      Performed w (.newFilter config) (.error e, w)
  | created {config : OverlayConfig} {filter : OverlayFilter} (stage : filter.stage = none)
      (outputInfo : filter.outputInfo = none) (sync : filter.sync = .new)
      (output : filter.output = {}) :
      Performed w (.newFilter config) (.ok (), { w with lines := w.lines ++ [⟨filter, {}, {}, false⟩] })
  | filtered {n : Nat} {line : Line} {order : FilterOrder} {answer : Except OverlayError Unit}
      {p : Pipeline} (found : w.lines[n]? = some line) (live : line.dropped = false)
      (acted : Pipeline.Acted (w.pipeline line) order (answer, p)) :
      Performed w (.filter n order) (answer, { w with
        device := p.device
        frames := p.kept
        lines := w.lines.set n ⟨p.filter, p.main, p.overlay, order.isLast⟩ })

theorem performedSession {w : Studio} {k : Nat} {session : Session} (order : SessionOrder)
    (found : w.sessions[k]? = some session) :
    Performed w (.session k order) (w.performSession k session order) := by
  cases order with
  | enter =>
    have view := session.entering w.device
    simp only [performSession]
    generalize attempt session.enter w.device = run at view ⊢
    exact .entered found view
  | close =>
    have view := session.closing w.device
    simp only [performSession]
    generalize attempt session.close w.device = run at view ⊢
    exact .closed found rfl view
  | drop =>
    have view := session.closing w.device
    simp only [performSession]
    generalize attempt session.close w.device = run at view ⊢
    exact .closed found rfl view
  | makeWritable i =>
    simp only [performSession]
    split
    · next gone =>
      refine .absent nofun fun k o same s _ demands => ?_
      obtain ⟨-, rfl⟩ := Order.session.inj same
      obtain ⟨f, held, -⟩ := demands
      exact nomatch gone.symm.trans held
    next frame held =>
    have view := frame.content.rewritten session w.device
    generalize attempt (frame.content.makeWritable session) w.device = run at view ⊢
    rcases run with ⟨e | ⟨copied, picture⟩, d⟩
    · exact .unwritable found held view
    · exact .rewritten found held view
  | composite plan i j offset =>
    simp only [performSession]
    split
    · next main overlay held _ =>
      split
      · next alike =>
        refine .absent nofun fun k o same s _ demands => ?_
        obtain ⟨-, rfl⟩ := Order.session.inj same
        exact demands.1 alike
      next distinct =>
      have view := plan.composited session main.content overlay.content offset w.device
      generalize plan.composite session main.content overlay.content offset w.device = run at view ⊢
      rcases run with ⟨⟨answer, picture⟩, d⟩
      exact .blended found distinct held view
    · next gone =>
      refine .absent nofun fun k o same s _ demands => ?_
      obtain ⟨-, rfl⟩ := Order.session.inj same
      exact gone _ _ (List.getElem?_eq_getElem demands.2.1) (List.getElem?_eq_getElem demands.2.2)

theorem performed (w : Studio) (order : Order) : Performed w order (w.perform order) := by
  cases order with
  | frame order => exact .framed order
  | openSession device image =>
    have view := opened device image w.device
    simp only [perform]
    generalize attempt (start device image) w.device = run at view ⊢
    rcases run with ⟨e | session, d⟩
    · exact .unopened view
    · exact .opened view
  | session k order =>
    simp only [perform]
    split
    · next none =>
      refine .absent (fun o owner _ => ?_) fun k o same s found => ?_
      · obtain rfl := Option.some.inj owner
        exact none
      · obtain ⟨rfl, -⟩ := Order.session.inj same
        exact nomatch none.symm.trans found
    next session found => exact performedSession order found
  | leave => exact .left
  | newFilter config =>
    simp only [perform]
    split
    · exact .uncreated
    next filter made =>
    obtain ⟨-, -, made⟩ := ok_of_bind made
    obtain ⟨position, -, made⟩ := ok_of_bind made
    obtain rfl := Except.ok.inj made
    exact .created rfl rfl rfl rfl
  | filter n order =>
    simp only [perform]
    split
    · next none =>
      refine .absent (fun o owner _ => ?_) nofun
      obtain rfl := Option.some.inj owner
      simp [session?, none]
    next line found =>
    split
    · next gone =>
      refine .absent (fun o owner _ => ?_) nofun
      obtain rfl := Option.some.inj owner
      simp [session?, found, gone]
    · next live =>
      have view := Pipeline.acted order (w.pipeline line)
      simp only [performFilter]
      generalize attempt order.body (w.pipeline line) = run at view ⊢
      exact .filtered found (Bool.eq_false_iff.2 live) view

/-- Orders about frames and pools make no driver call, and concern neither sessions nor filters. -/
theorem performFrame_aside (w : Studio) (order : FrameOrder) :
    (w.performFrame order).2.device.history = w.device.history ∧
      (w.performFrame order).2.sessions = w.sessions ∧ (w.performFrame order).2.lines = w.lines := by
  unfold performFrame
  cases order with
  | make planes frame => exact ⟨rfl, rfl, rfl⟩
  | draw pool frame =>
    dsimp only
    split <;> exact ⟨rfl, rfl, rfl⟩
  | clone i =>
    dsimp only
    split <;> exact ⟨rfl, rfl, rfl⟩
  | alter i frame => exact ⟨rfl, rfl, rfl⟩
  | drop i =>
    dsimp only
    split <;> exact ⟨rfl, rfl, rfl⟩
  | addPool pool => exact ⟨rfl, rfl, rfl⟩
  | setPool p pool => exact ⟨rfl, rfl, rfl⟩

/-! ### Sessions and lines by number -/

section Replaced

variable {β γ : Type} (f : β → List γ) (q : γ → Bool) {l : List β} {k : Nat} {x : β}

/-- What is counted in the entries of a list is counted in one entry and in the others. -/
theorem countP_flatMap_of_getElem? (found : l[k]? = some x) :
    (l.flatMap f).countP q = (f x).countP q + ((l.eraseIdx k).flatMap f).countP q := by
  obtain ⟨inside, rfl⟩ := List.getElem?_eq_some_iff.1 found
  rw [← ((List.getElem_cons_eraseIdx_perm inside).flatMap_right f).countP_eq q, List.flatMap_cons,
    List.countP_append]

/-- The same once that entry has been replaced. -/
theorem countP_flatMap_set (found : l[k]? = some x) (y : β) :
    ((l.set k y).flatMap f).countP q = (f y).countP q + ((l.eraseIdx k).flatMap f).countP q := by
  have inside := (List.getElem?_eq_some_iff.1 found).1
  rw [((List.set_perm_cons_eraseIdx inside y).flatMap_right f).countP_eq q, List.flatMap_cons,
    List.countP_append]

end Replaced

/-! ### Runs -/

/-- The calls of a step are what it adds to the record. -/
theorem moments_of_history {w : Studio} {order : Order} {ms : List Moment}
    (h : (w.perform order).2.device.history = w.device.history ++ ms) :
    (w.step order).moments = ms := by
  show (w.perform order).2.device.history.drop w.device.history.length = ms
  rw [h, List.drop_left]

theorem steps_cons (w : Studio) (order : Order) (rest : List Order) :
    w.steps (order :: rest) = w.step order :: (w.perform order).2.steps rest := rfl

theorem steps_append (w : Studio) (orders rest : List Order) :
    w.steps (orders ++ rest) = w.steps orders ++ (w.finish orders).steps rest := by
  induction orders generalizing w with
  | nil => rfl
  | cons order orders ih => exact congrArg _ (ih _)

/-- A run that goes on with a new filter. -/
theorem steps_newFilter (w : Studio) {config : OverlayConfig} {filter : OverlayFilter}
    (made : OverlayFilter.new config = .ok filter) (rest : List Order) :
    w.steps (.newFilter config :: rest) =
      ⟨w, .newFilter config, .ok (), { w with lines := w.lines ++ [⟨filter, {}, {}, false⟩] }⟩ ::
        Studio.steps { w with lines := w.lines ++ [⟨filter, {}, {}, false⟩] } rest := by
  have answer : w.perform (.newFilter config) =
      (.ok (), { w with lines := w.lines ++ [⟨filter, {}, {}, false⟩] }) := by
    simp only [perform, made]
  rw [steps_cons, step, answer]

theorem finish_cons (w : Studio) (order : Order) (rest : List Order) :
    w.finish (order :: rest) = (w.perform order).2.finish rest := rfl

/-- What every order keeps, a run keeps; and what every order does meanwhile, every step does.  Each step
may be relied on to be `Fair`. -/
theorem steps_keep {Inv : Studio → Prop} {Fair Does : Step → Prop}
    (keep : ∀ w order, Inv w → Fair (w.step order) →
      Does (w.step order) ∧ Inv (w.perform order).2)
    (w : Studio) (start : Inv w) (orders : List Order) (fair : ∀ s ∈ w.steps orders, Fair s) :
    (∀ s ∈ w.steps orders, Does s) ∧ Inv (w.finish orders) := by
  induction orders generalizing w with
  | nil => exact ⟨fun s hs => absurd hs List.not_mem_nil, start⟩
  | cons order rest ih =>
    obtain ⟨first, next⟩ := keep w order start (fair _ List.mem_cons_self)
    obtain ⟨others, last⟩ := ih _ next fun s hs => fair s (List.mem_cons_of_mem _ hs)
    refine ⟨?_, last⟩
    intro s hs
    rcases List.mem_cons.1 hs with rfl | later
    · exact first
    · exact others s later

/-- What one step brings about for good holds of every later step. -/
theorem steps_pairwise {ι : Type} {Inv : Studio → Prop} {Fair : Step → Prop} {Over : Studio → ι → Prop}
    {Ends Quiet : Step → ι → Prop}
    (keep : ∀ w order, Inv w → Fair (w.step order) → Inv (w.perform order).2)
    (ends : ∀ w order, Inv w → Fair (w.step order) → ∀ i, Ends (w.step order) i →
      Over (w.perform order).2 i)
    (stays : ∀ w order i, Inv w → Over w i → Quiet (w.step order) i ∧ Over (w.perform order).2 i)
    (w : Studio) (start : Inv w) (orders : List Order) (fair : ∀ s ∈ w.steps orders, Fair s) :
    (w.steps orders).Pairwise fun s t => ∀ i, Ends s i → Quiet t i := by
  induction orders generalizing w with
  | nil => exact .nil
  | cons order rest ih =>
    have first := fair _ List.mem_cons_self
    have later : ∀ s ∈ (w.perform order).2.steps rest, Fair s :=
      fun s hs => fair s (List.mem_cons_of_mem _ hs)
    have next := keep w order start first
    refine .cons ?_ (ih _ next later)
    intro t ht i ended
    have step (w : Studio) (order : Order) (h : Inv w ∧ Over w i) (fair : Fair (w.step order)) :
        Quiet (w.step order) i ∧ Inv (w.perform order).2 ∧ Over (w.perform order).2 i := by
      obtain ⟨quiet, still⟩ := stays w order i h.1 h.2
      exact ⟨quiet, keep w order h.1 fair, still⟩
    have start := ends w order start first i ended
    exact (@steps_keep (fun w => Inv w ∧ Over w i) Fair (Quiet · i) step _ ⟨next, start⟩ rest later).1 t ht

end Studio

end FrameOverlay
