import FrameOverlay.Compositor
import FrameOverlay.Proofs.Memory.Store

/-!
# The driver calls of each operation

Every driver call leaves a `Moment` in the record.  For each operation on a device this module says which
moments it adds and what becomes of the buffers, so that nothing after it unfolds an operation.

* `attempt_bind_ok`, `attempt_bind_error` — a computation after another;
* `DeviceState.Noted` — moments are added and the buffers stay;
* `DeviceM.Entered` — **a computation with a context current**: a push that fails, or a push, the
  computation and a pop;
* `Session.Opened`, `Session.Closing` — what opening and closing a session comes to;
* `Session.Spell` — work in a session's context;
* `Picture.Rewritten` — what copy on write comes to, `PlanePlan.Composited` — and a blend.
-/

namespace FrameOverlay

/-! ### Computations after each other -/

theorem ok_of_bind {ε α β : Type} {x : Except ε α} {f : α → Except ε β} {b : β}
    (h : (x >>= f) = .ok b) : ∃ a, x = .ok a ∧ f a = .ok b := by
  cases x with
  | error e => injection h
  | ok a => exact ⟨a, rfl, h⟩

section Attempt

variable {σ α β : Type}

@[simp] theorem attempt_pure (a : α) (s : σ) :
    attempt (pure a : EStateM OverlayError σ α) s = (.ok a, s) := rfl

@[simp] theorem attempt_throw (e : OverlayError) (s : σ) :
    attempt (throw e : EStateM OverlayError σ α) s = (.error e, s) := rfl

theorem attempt_bind_ok {x : EStateM OverlayError σ α} {f : α → EStateM OverlayError σ β} {s t : σ}
    {a : α} (h : attempt x s = (.ok a, t)) : attempt (x >>= f) s = attempt (f a) t := by
  simp only [attempt, bind, EStateM.bind] at h ⊢
  rcases run : x s with ⟨b, u⟩ | ⟨e, u⟩
  · rw [run] at h
    simp_all
  · rw [run] at h
    simp at h

theorem attempt_bind_error {x : EStateM OverlayError σ α} {f : α → EStateM OverlayError σ β} {s s' : σ}
    {e : OverlayError} (h : attempt x s = (.error e, s')) : attempt (x >>= f) s = (.error e, s') := by
  simp only [attempt, bind, EStateM.bind] at h ⊢
  rcases run : x s with ⟨b, t⟩ | ⟨e, t⟩
  · rw [run] at h
    simp at h
  · rw [run] at h
    simp_all

theorem attempt_catch_ok {x : EStateM OverlayError σ α} {f : OverlayError → EStateM OverlayError σ α}
    {s s' : σ} {a : α} (h : attempt x s = (.ok a, s')) : attempt (tryCatch x f) s = (.ok a, s') := by
  simp only [attempt, tryCatch, tryCatchThe, MonadExceptOf.tryCatch] at h ⊢
  delta EStateM.tryCatch
  rcases run : x s with ⟨b, t⟩ | ⟨e, t⟩
  · rw [run] at h
    simp_all
  · rw [run] at h
    simp at h

theorem attempt_catch_error {x : EStateM OverlayError σ α}
    {f : OverlayError → EStateM OverlayError σ α} {s s' : σ} {e : OverlayError}
    (h : attempt x s = (.error e, s')) : attempt (tryCatch x f) s = attempt (f e) s' := by
  simp only [attempt, tryCatch, tryCatchThe, MonadExceptOf.tryCatch] at h ⊢
  delta EStateM.tryCatch
  rcases run : x s with ⟨b, t⟩ | ⟨e, t⟩
  · rw [run] at h
    simp at h
  · rw [run] at h
    simp_all [EStateM.Backtrackable.restore, EStateM.dummyRestore]

/-- Another answer is given. -/
theorem attempt_replace (x : EStateM OverlayError σ α) (b : β) (s : σ) :
    attempt (do let _ ← x; pure b) s = ((attempt x s).1.map fun _ => b, (attempt x s).2) := by
  rcases run : attempt x s with ⟨e | a, s'⟩
  · exact attempt_bind_error run
  · exact attempt_bind_ok run

/-- The answer is not asked for. -/
theorem attempt_forget (x : EStateM OverlayError σ α) (s : σ) :
    attempt (do let _ ← x) s = ((attempt x s).1.map fun _ => (), (attempt x s).2) :=
  attempt_replace x () s

end Attempt

/-! ### The record -/

namespace DeviceState

/-- The calls `ms` were made, and the buffers stayed. -/
structure Noted (s : DeviceState) (ms : List Moment) (s' : DeviceState) : Prop where
  history : s'.history = s.history ++ ms
  store : s'.store = s.store

namespace Noted

theorem refl (s : DeviceState) : s.Noted [] s := ⟨(List.append_nil _).symm, rfl⟩

theorem trans {s s' s'' : DeviceState} {ms ms' : List Moment} (h : s.Noted ms s')
    (h' : s'.Noted ms' s'') : s.Noted (ms ++ ms') s'' where
  history := by rw [h'.history, h.history, List.append_assoc]
  store := h'.store.trans h.store

end Noted

theorem noted_ask (s : DeviceState) (call : DriverCall) :
    s.Noted [⟨call, (s.ask call).1.1, (s.ask call).1.2, s.store⟩] (s.ask call).2 := ⟨rfl, rfl⟩

end DeviceState

open DeviceState

namespace DeviceM

variable {α β : Type}

/-- A driver call succeeds with its result. -/
theorem attempt_call (name : String) (request : DriverCall) (s : DeviceState) :
    (attempt (call name request) s).2 = (s.ask request).2 ∧
      (((s.ask request).1.1 = 0 ∧ (attempt (call name request) s).1 = .ok ()) ∨
        ((s.ask request).1.1 ≠ 0 ∧
          ∃ fault, (attempt (call name request) s).1 = .error (.driver fault))) := by
  have judged : attempt (call name request) s =
      attempt (check name (s.ask request).1.1) (s.ask request).2 := attempt_bind_ok rfl
  rw [judged]
  by_cases success : (s.ask request).1.1 = 0
  · simp [attempt, check, Driver.judge, success]
  · simp [attempt, check, Driver.judge, success]

/-! ### Scopes -/

/-- What can become of a computation with a context current. -/
inductive Entered (device : DeviceContext) (body : DeviceM α) (s : DeviceState) :
    Except OverlayError α × DeviceState → Prop where
  | refused {r : DriverResult} {h : Handle} {fault : DriverFault} {s' : DeviceState} (failed : r ≠ 0)
      (noted : s.Noted [⟨.push device.context, r, h, s.store⟩] s') :
      Entered device body s (.error (.driver fault), s')
  | entered {h : Handle} {s' : DeviceState}
      (noted : s.Noted [⟨.push device.context, 0, h, s.store⟩] s') :
      Entered device body s ((attempt body s').1, leave (attempt body s').2)

theorem entered (device : DeviceContext) (body : DeviceM α) (s : DeviceState) :
    Entered device body s (attempt (withContext device body) s) := by
  obtain ⟨after, answer⟩ := attempt_call "cuCtxPushCurrent" (.push device.context) s
  have noted := noted_ask s (.push device.context)
  rw [← after] at noted
  rcases run : call "cuCtxPushCurrent" (.push device.context) s with ⟨_, s'⟩ | ⟨e, s'⟩
  · simp only [attempt, run] at noted answer
    have inside : attempt (withContext device body) s =
        ((attempt body s').1, leave (attempt body s').2) := by
      simp only [attempt, withContext, enter, run]
      rcases body s' with ⟨a, t⟩ | ⟨e, t⟩ <;> rfl
    rw [inside]
    obtain ⟨success, -⟩ | ⟨-, fault, wrong⟩ := answer
    · rw [success] at noted
      exact .entered noted
    · exact absurd wrong (by simp)
  · simp only [attempt, run] at noted answer
    have outside : attempt (withContext device body) s = (.error e, s') := by
      simp only [attempt, withContext, enter, run]
    rw [outside]
    obtain ⟨-, wrong⟩ | ⟨failed, fault, same⟩ := answer
    · exact absurd wrong (by simp)
    · obtain rfl := Except.error.inj same
      exact .refused failed noted

/-- A scope ends with a pop. -/
theorem noted_leave (s : DeviceState) :
    ∃ r h, s.Noted [⟨.pop, r, h, s.store⟩] (leave s) := ⟨_, _, noted_ask s .pop⟩

/-- Every call that a computation makes while the buffers are `store` satisfies `p`, and the buffers
stay. -/
def Emits (p : Moment → Prop) (store : BufferStore) (body : DeviceM α) : Prop :=
  ∀ s : DeviceState, s.store = store → ∃ ms, s.Noted ms (attempt body s).2 ∧ ∀ m ∈ ms, p m

namespace Emits

variable {p : Moment → Prop} {store : BufferStore}

theorem silent {body : DeviceM α} (h : ∀ s, (attempt body s).2 = s) : Emits p store body := by
  intro s _
  refine ⟨[], ?_, fun m hm => absurd hm List.not_mem_nil⟩
  rw [h]
  exact .refl s

theorem bind {x : DeviceM α} {f : α → DeviceM β} (hx : Emits p store x)
    (hf : ∀ a, Emits p store (f a)) : Emits p store (x >>= f) := by
  intro s same
  obtain ⟨ms, noted, all⟩ := hx s same
  rcases run : attempt x s with ⟨e | a, s'⟩
  · rw [run] at noted
    exact ⟨ms, by rwa [attempt_bind_error run], all⟩
  · rw [run] at noted
    obtain ⟨ms', noted', all'⟩ := hf a s' (noted.store.trans same)
    refine ⟨ms ++ ms', by rw [attempt_bind_ok run]; exact noted.trans noted', ?_⟩
    intro m hm
    rcases List.mem_append.1 hm with first | second
    · exact all m first
    · exact all' m second

theorem call (name : String) {request : DriverCall} (h : ∀ r handle, p ⟨request, r, handle, store⟩) :
    Emits p store (DeviceM.call name request) := by
  intro s same
  refine ⟨[⟨request, (s.ask request).1.1, (s.ask request).1.2, s.store⟩], ?_, ?_⟩
  · rw [(attempt_call name request s).1]
    exact noted_ask s request
  · intro m hm
    obtain rfl := List.mem_singleton.1 hm
    rw [same]
    exact h _ _

end Emits

end DeviceM

open DeviceM

/-! ### Sessions -/

namespace Session

/-- What can become of opening a session. -/
inductive Opened (device : DeviceContext) (s : DeviceState) :
    Except OverlayError Session × DeviceState → Prop where
  | untried {e : OverlayError} : Opened device s (.error e, s)
  | refused {r : DriverResult} {h : Handle} {e : OverlayError} {s' : DeviceState} (failed : r ≠ 0)
      (noted : s.Noted [⟨.push device.context, r, h, s.store⟩] s') : Opened device s (.error e, s')
  | rejected {r r' : DriverResult} {h h' h'' : Handle} {size : Nat} {e : OverlayError}
      {s' : DeviceState} (failed : r ≠ 0)
      (noted : s.Noted [⟨.push device.context, 0, h, s.store⟩, ⟨.load size, r, h', s.store⟩,
        ⟨.pop, r', h'', s.store⟩] s') : Opened device s (.error e, s')
  | unresolved {r r' r'' : DriverResult} {h module h' h'' h''' : Handle} {size : Nat} {e : OverlayError}
      {s' : DeviceState} (failed : r ≠ 0)
      (noted : s.Noted [⟨.push device.context, 0, h, s.store⟩, ⟨.load size, 0, module, s.store⟩,
        ⟨.getFunction KernelImage.entryPoint, r, h', s.store⟩, ⟨.unload module, r', h'', s.store⟩,
        ⟨.pop, r'', h''', s.store⟩] s') : Opened device s (.error e, s')
  | opened {r : DriverResult} {h module function h' : Handle} {size : Nat} {s' : DeviceState}
      (noted : s.Noted [⟨.push device.context, 0, h, s.store⟩, ⟨.load size, 0, module, s.store⟩,
        ⟨.getFunction KernelImage.entryPoint, 0, function, s.store⟩, ⟨.pop, r, h', s.store⟩] s') :
      Opened device s (.ok ⟨some device, module, function⟩, s')

/-- A result is judged, and nothing else happens. -/
theorem attempt_checkModule (name : String) (result : DriverResult) (fault : DriverFault → ModuleFault)
    (s : DeviceState) :
    (attempt (checkModule name result fault) s).2 = s ∧
      ((result = 0 ∧ (attempt (checkModule name result fault) s).1 = .ok ()) ∨
        (result ≠ 0 ∧ ∃ e, (attempt (checkModule name result fault) s).1 = .error e)) := by
  by_cases success : result = 0
  · simp [attempt, checkModule, Driver.judge, success]
  · simp [attempt, checkModule, Driver.judge, success]

/-- Looking the kernel up: it is found, or its module is unloaded again. -/
theorem resolve_cases (module : Handle) (s : DeviceState) :
    (∃ function s', attempt (resolve module) s = (.ok function, s') ∧
      s.Noted [⟨.getFunction KernelImage.entryPoint, 0, function, s.store⟩] s') ∨
    (∃ r h r' h' e s', r ≠ 0 ∧ attempt (resolve module) s = (.error e, s') ∧
      s.Noted [⟨.getFunction KernelImage.entryPoint, r, h, s.store⟩,
        ⟨.unload module, r', h', s.store⟩] s') := by
  let request := DriverCall.getFunction KernelImage.entryPoint
  let s₁ := (s.ask request).2
  have asked : attempt (ask request) s = (.ok (s.ask request).1, s₁) := rfl
  have noted : s.Noted [⟨request, (s.ask request).1.1, (s.ask request).1.2, s.store⟩] s₁ :=
    noted_ask s request
  obtain ⟨same, judged⟩ := attempt_checkModule "cuModuleGetFunction" (s.ask request).1.1
    (.entryPointMissing KernelImage.entryPoint) s₁
  unfold resolve
  rw [attempt_bind_ok asked]
  obtain ⟨success, fine⟩ | ⟨failed, e, wrong⟩ := judged
  · refine .inl ⟨(s.ask request).1.2, s₁, attempt_bind_ok (a := ()) ?_, ?_⟩
    · exact attempt_catch_ok (Prod.ext fine same)
    · rwa [success] at noted
  · have unloaded := noted_ask s₁ (.unload module)
    rw [noted.store] at unloaded
    refine .inr ⟨_, _, _, _, e, _, failed, attempt_bind_error ?_, noted.trans unloaded⟩
    rw [attempt_catch_error (Prod.ext wrong same)]
    exact attempt_bind_ok rfl

theorem opened (device : DeviceContext) (image : KernelImage) (s : DeviceState) :
    Opened device s (attempt (start device image) s) := by
  unfold start
  split
  · exact .untried
  have view := entered device (load device image) s
  generalize attempt (withContext device (load device image)) s = result at view ⊢
  cases view with
  | refused failed noted => exact .refused failed noted
  | @entered h s₀ pushed =>
    let load := s₀.ask (.load image.size)
    have loaded : s.Noted [⟨.push device.context, 0, h, s.store⟩,
        ⟨.load image.size, load.1.1, load.1.2, s.store⟩] load.2 := by
      have noted := noted_ask s₀ (.load image.size)
      rw [pushed.store] at noted
      exact pushed.trans noted
    have asked : attempt (ask (.load image.size)) s₀ = (.ok load.1, load.2) := rfl
    obtain ⟨same, judged⟩ := attempt_checkModule "cuModuleLoadData" load.1.1 .loadFailed load.2
    unfold Session.load
    rw [attempt_bind_ok asked]
    obtain ⟨success, fine⟩ | ⟨failed, e, wrong⟩ := judged
    · rw [attempt_bind_ok (Prod.ext fine same)]
      rw [success] at loaded
      obtain ⟨function, s', found, noted⟩ | ⟨r, r', h', h'', e, s', failed, missing, noted⟩ :=
        resolve_cases load.1.2 load.2
      · rw [attempt_bind_ok found]
        have whole := loaded.trans noted
        obtain ⟨r, h', left⟩ := noted_leave s'
        rw [loaded.store] at whole
        rw [whole.store] at left
        exact .opened (whole.trans left)
      · rw [attempt_bind_error missing]
        have whole := loaded.trans noted
        obtain ⟨r, h', left⟩ := noted_leave s'
        rw [loaded.store] at whole
        rw [whole.store] at left
        exact .unresolved failed (whole.trans left)
    · rw [attempt_bind_error (Prod.ext wrong same)]
      obtain ⟨r, h', left⟩ := noted_leave load.2
      rw [loaded.store] at left
      exact .rejected failed (loaded.trans left)

/-- What can become of closing a session. -/
inductive Closing (session : Session) (s : DeviceState) :
    Except OverlayError Unit × DeviceState → Prop where
  | idle (nothing : session.openDevice = none ∨ session.module = 0) : Closing session s (.ok (), s)
  | refused {device : DeviceContext} {r : DriverResult} {h : Handle} {e : OverlayError}
      {s' : DeviceState} (opened : session.openDevice = some device) (failed : r ≠ 0)
      (noted : s.Noted [⟨.push device.context, r, h, s.store⟩] s') : Closing session s (.error e, s')
  | unloaded {device : DeviceContext} {r r' : DriverResult} {h h' h'' : Handle}
      {answer : Except OverlayError Unit} {s' : DeviceState} (opened : session.openDevice = some device)
      (noted : s.Noted [⟨.push device.context, 0, h, s.store⟩,
        ⟨.unload session.module, r, h', s.store⟩, ⟨.pop, r', h'', s.store⟩] s') :
      Closing session s (answer, s')

theorem closing (session : Session) (s : DeviceState) :
    Closing session s (attempt session.close s) := by
  unfold close
  split
  · next none => exact .idle (.inl none)
  next device opened =>
  split
  · next null => exact .idle (.inr null)
  next =>
  have view := entered device (call "cuModuleUnload" (.unload session.module)) s
  generalize attempt (withContext device (call "cuModuleUnload" (.unload session.module))) s = result
    at view ⊢
  cases view with
  | refused failed noted => exact .refused opened failed noted
  | @entered h s₀ pushed =>
    obtain ⟨after, -⟩ := attempt_call "cuModuleUnload" (.unload session.module) s₀
    have unloaded := noted_ask s₀ (.unload session.module)
    rw [← after, pushed.store] at unloaded
    have whole := pushed.trans unloaded
    obtain ⟨r, h', left⟩ :=
      noted_leave (attempt (call "cuModuleUnload" (.unload session.module)) s₀).2
    rw [whole.store] at left
    exact .unloaded opened (whole.trans left)

/-! ### Work in a session's context -/

/-- The calls of a computation in a session's context, of which the calls in the scope satisfy `p`, and how
the computation ends. -/
inductive Spell (session : Session) (store : BufferStore) (p : Moment → Prop) :
    Except OverlayError Unit → List Moment → Prop where
  | shut (closed : session.openDevice = none) :
      Spell session store p (.error (.invariantViolation .sessionClosed)) []
  | refused {device : DeviceContext} {r : DriverResult} {h : Handle} {fault : DriverFault}
      (opened : session.openDevice = some device) (failed : r ≠ 0) :
      Spell session store p (.error (.driver fault)) [⟨.push device.context, r, h, store⟩]
  | entered {device : DeviceContext} {inside : List Moment} {r : DriverResult} {h h' : Handle}
      {answer : Except OverlayError Unit} (opened : session.openDevice = some device)
      (work : ∀ m ∈ inside, p m) :
      Spell session store p answer
        (⟨.push device.context, 0, h, store⟩ :: inside ++ [⟨.pop, r, h', store⟩])

/-- What can become of a computation in a session's context. -/
inductive Hosted (session : Session) (body : DeviceContext → DeviceM Unit) (s : DeviceState) :
    Except OverlayError Unit × DeviceState → Prop where
  | shut (closed : session.openDevice = none) :
      Hosted session body s (.error (.invariantViolation .sessionClosed), s)
  | refused {device : DeviceContext} {r : DriverResult} {h : Handle} {fault : DriverFault}
      {s' : DeviceState} (opened : session.openDevice = some device) (failed : r ≠ 0)
      (noted : s.Noted [⟨.push device.context, r, h, s.store⟩] s') :
      Hosted session body s (.error (.driver fault), s')
  | entered {device : DeviceContext} {h : Handle} {s' : DeviceState}
      (opened : session.openDevice = some device)
      (noted : s.Noted [⟨.push device.context, 0, h, s.store⟩] s') :
      Hosted session body s ((attempt (body device) s').1, leave (attempt (body device) s').2)

theorem hosted (session : Session) (body : DeviceContext → DeviceM Unit) (s : DeviceState) :
    Hosted session body s
      (attempt (do let device ← session.device; withContext device (body device)) s) := by
  rcases opened : session.openDevice with _ | device
  · have shut : attempt session.device s = (.error (.invariantViolation .sessionClosed), s) := by
      simp [Session.device, opened]
    rw [attempt_bind_error shut]
    exact .shut opened
  · have on : attempt session.device s = (.ok device, s) := by simp [Session.device, opened]
    rw [attempt_bind_ok on]
    have view := DeviceM.entered device (body device) s
    generalize attempt (withContext device (body device)) s = result at view ⊢
    cases view with
    | refused failed noted => exact .refused opened failed noted
    | entered noted => exact .entered opened noted

/-- A computation in a session's context makes the calls of a spell. -/
theorem spell (session : Session) {p : Moment → Prop} {body : DeviceContext → DeviceM Unit}
    (s : DeviceState) (emits : ∀ device, Emits p s.store (body device)) :
    let run := attempt (do let device ← session.device; withContext device (body device)) s
    ∃ ms, Spell session s.store p run.1 ms ∧ s.Noted ms run.2 := by
  intro run
  have view : Hosted session body s run := hosted session body s
  generalize run = result at view ⊢
  cases view with
  | shut closed => exact ⟨[], .shut closed, .refl s⟩
  | refused opened failed noted => exact ⟨_, .refused opened failed, noted⟩
  | @entered device h s' opened pushed =>
    obtain ⟨inside, noted, work⟩ := emits device s' pushed.store
    have whole := pushed.trans noted
    obtain ⟨r, h', left⟩ := noted_leave (attempt (body device) s').2
    rw [whole.store] at left
    exact ⟨_, .entered opened work, whole.trans left⟩

end Session

open Session

/-! ### Copy on write -/

/-- A copy to one of the planes `targets`, which is large enough. -/
def Moment.CopiesInto (targets : List DevicePlane) (m : Moment) : Prop :=
  ∃ copy target, m.call = .copy copy ∧ target ∈ targets ∧ copy.target = target.address ∧
    copy.targetPitch = target.pitch ∧ copy.widthInBytes ≤ target.rowBytes ∧
    copy.height ≤ target.rows

/-- Planes are copied to the targets only. -/
theorem emits_copyPlanes (store : BufferStore) (targets : List DevicePlane) (index : Nat)
    (sources : List DevicePlane) :
    Emits (fun m => m.CopiesInto targets ∧ m.store = store) store (copyPlanes targets index sources) := by
  induction sources generalizing index with
  | nil => exact .silent fun _ => rfl
  | cons source rest ih =>
    unfold copyPlanes
    split
    · exact .silent fun _ => rfl
    next target found =>
    split
    · exact .silent fun _ => rfl
    next fits =>
    refine .bind (.call _ fun r handle => ?_) fun _ => ih _
    obtain ⟨wide, high⟩ := not_or.1 fits
    exact ⟨⟨_, target, rfl, List.mem_of_getElem? found, rfl, rfl, Nat.le_of_not_lt wide,
      Nat.le_of_not_lt high⟩, rfl⟩

namespace Picture

/-- What can become of copy on write. -/
inductive Rewritten (p : Picture) (session : Session) (s : DeviceState) :
    Except OverlayError (Bool × Picture) × DeviceState → Prop where
  | sole (exclusive : s.store.isExclusive p.buffer = true) : Rewritten p session s (.ok (false, p), s)
  | barren {fault : PoolFault} (shared : s.store.isExclusive p.buffer = false) :
      Rewritten p session s (.error (.pool fault), s)
  | undone {pool : PoolId} {fresh : BufferId} {store : BufferStore} {e : OverlayError}
      {ms : List Moment} {s' : DeviceState} (shared : s.store.isExclusive p.buffer = false)
      (acquired : s.store.acquire pool = .ok (fresh, store))
      (spell : Spell session store (fun m => m.CopiesInto (store.planes fresh) ∧ m.store = store)
        (.error e) ms)
      (history : s'.history = s.history ++ ms) (released : s'.store = store.release fresh) :
      Rewritten p session s (.error e, s')
  | copied {pool : PoolId} {fresh : BufferId} {store : BufferStore} {ms : List Moment}
      {s' : DeviceState} (shared : s.store.isExclusive p.buffer = false)
      (acquired : s.store.acquire pool = .ok (fresh, store))
      (spell : Spell session store (fun m => m.CopiesInto (store.planes fresh) ∧ m.store = store)
        (.ok ()) ms)
      (history : s'.history = s.history ++ ms) (released : s'.store = store.release p.buffer) :
      Rewritten p session s (.ok (true, { p with buffer := fresh }), s')

/-- The copy itself: a spell of copies, after which a copy that failed gives the fresh buffer back. -/
theorem copyBuffer_spell (p : Picture) (session : Session) (fresh : BufferId) (s : DeviceState) :
    ∃ answer ms s', Spell session s.store
        (fun m => m.CopiesInto (s.store.planes fresh) ∧ m.store = s.store) answer ms ∧
      s.Noted ms s' ∧ attempt (p.copyBuffer session fresh) s =
        (answer, match answer with
          | .ok () => s'
          | .error _ => { s' with store := s'.store.release fresh }) := by
  let sources := s.store.planes p.buffer
  let targets := s.store.planes fresh
  obtain ⟨ms, spell, noted⟩ := Session.spell session s fun _ =>
    emits_copyPlanes s.store targets 0 sources
  let body : DeviceM Unit := do
    let device ← session.device
    withContext device (copyPlanes targets 0 sources)
  refine ⟨(attempt body s).1, ms, (attempt body s).2, spell, noted, ?_⟩
  have read : attempt (p.copyBuffer session fresh) s = attempt (do
      try body
      catch e =>
        release fresh
        throw e) s := rfl
  rw [read]
  rcases run : attempt body s with ⟨e | ⟨⟩, s'⟩
  · rw [attempt_catch_error run]
    exact attempt_bind_ok rfl
  · exact attempt_catch_ok run

theorem rewritten (p : Picture) (session : Session) (s : DeviceState) :
    Rewritten p session s (attempt (p.makeWritable session) s) := by
  unfold makeWritable
  rw [attempt_bind_ok (a := s.store.isExclusive p.buffer) (t := s) rfl]
  cases exclusive : s.store.isExclusive p.buffer with
  | true => exact .sole exclusive
  | false =>
    rw [if_neg Bool.false_ne_true]
    split
    · exact .barren exclusive
    next pool _ =>
    rcases acquired : s.store.acquire pool with e | ⟨fresh, store⟩
    · have failed : attempt (acquire pool) s = (.error e, s) := by
        simp only [attempt, acquire, acquired]
      rw [attempt_bind_error failed]
      obtain ⟨fault, rfl⟩ := BufferStore.acquire_error acquired
      exact .barren exclusive
    · have drawn : attempt (acquire pool) s = (.ok fresh, { s with store }) := by
        simp only [attempt, acquire, acquired]
      rw [attempt_bind_ok drawn]
      obtain ⟨answer, ms, s', spell, noted, copied⟩ :=
        copyBuffer_spell p session fresh { s with store }
      have noted' : s'.store = store := noted.store
      cases answer with
      | error e =>
        rw [attempt_bind_error copied]
        exact .undone exclusive acquired spell noted.history (by rw [noted'])
      | ok =>
        rw [attempt_bind_ok copied]
        have released : attempt (do
            release p.buffer
            return (true, { p with buffer := fresh })) s' =
          (.ok (true, { p with buffer := fresh }), { s' with store := s'.store.release p.buffer }) := rfl
        refine .copied exclusive acquired spell noted.history (by rw [noted'])

end Picture

/-! ### Blending -/

/-- A launch that writes a plane of buffer `b`. -/
def Moment.Paints (b : BufferId) (m : Moment) : Prop :=
  ∃ record launch plane, m.call = .launch record ∧
    OverlayLaunch.ofArguments? record.arguments = some launch ∧ plane ∈ m.store.planes b ∧
    launch.main.address = plane.address ∧ record.grid = .covering plane.extent

namespace PlanePlan

theorem planeAt_ok {owner : String} {format : PixelFormat} {planes : List DevicePlane} {index : Nat}
    {plane : DevicePlane} (h : planeAt owner format planes index = .ok plane) : plane ∈ planes := by
  unfold planeAt at h
  split at h
  · next found =>
    obtain rfl := Except.ok.inj h
    exact List.mem_of_getElem? found
  · injection h

/-- The main plane of a launch is the one it was made for. -/
theorem launchFor_main {step : PlaneStep} {mainPlane : DevicePlane} {overlay : Picture}
    {overlayPlanes : List DevicePlane} {offset : OverlayOffset} {launch : OverlayLaunch}
    (h : launchFor step mainPlane overlay overlayPlanes offset = .ok launch) :
    launch.main.address = mainPlane.address := by
  obtain ⟨overlayPlane, -, h⟩ := ok_of_bind h
  obtain ⟨alpha, -, h⟩ := ok_of_bind h
  obtain ⟨main, made, h⟩ := ok_of_bind h
  obtain ⟨argument, -, h⟩ := ok_of_bind h
  obtain ⟨stride, -, made⟩ := ok_of_bind made
  obtain rfl := Except.ok.inj h
  obtain rfl := Except.ok.inj made
  rfl

/-- A launch is made of a plane of the main picture. -/
theorem recordFor_ok {step : PlaneStep} {device : DeviceContext} {function : Handle}
    {main overlay : Picture} {mainPlanes overlayPlanes : List DevicePlane} {offset : OverlayOffset}
    {record : LaunchRecord}
    (h : recordFor step device function main overlay mainPlanes overlayPlanes offset = .ok record) :
    ∃ launch plane, OverlayLaunch.ofArguments? record.arguments = some launch ∧
      plane ∈ mainPlanes ∧ launch.main.address = plane.address ∧
      record.grid = .covering plane.extent := by
  obtain ⟨plane, found, h⟩ := ok_of_bind h
  obtain ⟨launch, made, h⟩ := ok_of_bind h
  obtain rfl := Except.ok.inj h
  exact ⟨launch, plane, OverlayLaunch.ofArguments?_arguments launch, planeAt_ok found,
    launchFor_main made, rfl⟩

/-- A step makes its launch, or fails before it. -/
theorem launchStep_cases (step : PlaneStep) (device : DeviceContext) (function : Handle)
    (main overlay : Picture) (offset : OverlayOffset) (s : DeviceState) :
    (∃ e, recordFor step device function main overlay (s.store.planes main.buffer)
        (s.store.planes overlay.buffer) offset = .error e ∧
      attempt (launchStep step device function main overlay offset) s = (.error e, s)) ∨
    ∃ record, recordFor step device function main overlay (s.store.planes main.buffer)
        (s.store.planes overlay.buffer) offset = .ok record ∧
      attempt (launchStep step device function main overlay offset) s =
        attempt (call "cuLaunchKernel" (.launch record)) s := by
  unfold launchStep
  rw [attempt_bind_ok (a := s.store.planes main.buffer) (t := s) rfl,
    attempt_bind_ok (a := s.store.planes overlay.buffer) (t := s) rfl]
  rcases made : recordFor step device function main overlay (s.store.planes main.buffer)
    (s.store.planes overlay.buffer) offset with e | record
  · exact .inl ⟨e, rfl, rfl⟩
  · exact .inr ⟨record, rfl, rfl⟩

/-- Every call of a blend is a launch on the main picture's buffer. -/
theorem emits_launchAll (store : BufferStore) (device : DeviceContext) (function : Handle)
    (main overlay : Picture) (offset : OverlayOffset) (steps : List PlaneStep) :
    Emits (fun m => m.Paints main.buffer ∧ m.store = store) store
      (launchAll device function main overlay offset steps) := by
  induction steps with
  | nil => exact .silent fun _ => rfl
  | cons step rest ih =>
    refine .bind ?_ fun _ => ih
    intro s same
    obtain ⟨e, -, failed⟩ | ⟨record, made, run⟩ :=
      launchStep_cases step device function main overlay offset s
    · rw [failed]
      exact ⟨[], .refl s, fun m hm => absurd hm List.not_mem_nil⟩
    · rw [run]
      obtain ⟨launch, plane, decoded, member, address, grid⟩ := recordFor_ok made
      refine Emits.call "cuLaunchKernel" (fun r handle => ?_) s same
      exact ⟨⟨record, launch, plane, rfl, decoded, same ▸ member, address, grid⟩, rfl⟩

/-- A blend is its launches, and the number of them. -/
theorem blend_eq (plan : PlanePlan) (session : Session) (main overlay : Picture)
    (offset : OverlayOffset) (s : DeviceState) :
    let run := attempt (do
      let device ← session.device
      withContext device
        (launchAll device session.function main overlay offset plan.steps)) s
    attempt (plan.blend session main overlay offset) s =
      (run.1.map fun _ => plan.launches, run.2) := by
  intro run
  have read : attempt (plan.blend session main overlay offset) s = attempt ((do
      let device ← session.device
      withContext device (launchAll device session.function main overlay offset plan.steps)) >>=
        fun _ => pure plan.launches) s := by
    unfold blend
    rcases opened : session.openDevice with _ | device <;> simp only [Session.device, opened] <;> rfl
  rw [read, attempt_replace]

/-- The launches of a plan: a spell on the main picture's buffer. -/
theorem blend_spell (plan : PlanePlan) (session : Session) (main overlay : Picture)
    (offset : OverlayOffset) (s : DeviceState) :
    ∃ answer ms s', Spell session s.store (fun m => m.Paints main.buffer ∧ m.store = s.store) answer ms ∧
      s.Noted ms s' ∧ attempt (plan.blend session main overlay offset) s =
        (answer.map fun _ => plan.launches, s') := by
  obtain ⟨ms, spell, noted⟩ := Session.spell session s fun device =>
    emits_launchAll s.store device session.function main overlay offset plan.steps
  exact ⟨_, ms, _, spell, noted, blend_eq plan session main overlay offset s⟩

/-- What a blend is made of: the plan is not for these pictures, or the main picture does not become
writable, or it does and the plan is carried out. -/
inductive Composing (plan : PlanePlan) (session : Session) (main overlay : Picture)
    (offset : OverlayOffset) (s : DeviceState) :
    (Except OverlayError Nat × Picture) × DeviceState → Prop where
  | unplanned {fault : PairingFault} (misfit : plan.fits main overlay = false) :
      Composing plan session main overlay offset s ((.error (.invalidPairing fault), main), s)
  | unwritable {e : OverlayError} {s' : DeviceState} (fits : plan.fits main overlay = true)
      (shared : attempt (main.makeWritable session) s = (.error e, s')) :
      Composing plan session main overlay offset s ((.error e, main), s')
  | writable {copied : Bool} {main' : Picture} {s₁ s' : DeviceState} {answer : Except OverlayError Nat}
      (fits : plan.fits main overlay = true)
      (written : attempt (main.makeWritable session) s = (.ok (copied, main'), s₁))
      (blended : attempt (plan.blend session main' overlay offset) s₁ = (answer, s')) :
      Composing plan session main overlay offset s ((answer, main'), s')

theorem composing (plan : PlanePlan) (session : Session) (main overlay : Picture)
    (offset : OverlayOffset) (s : DeviceState) :
    Composing plan session main overlay offset s (plan.composite session main overlay offset s) := by
  unfold composite
  split
  next fits =>
    rcases run : main.makeWritable session s with ⟨⟨copied, main'⟩, s₁⟩ | ⟨e, s₁⟩
    · have written : attempt (main.makeWritable session) s = (.ok (copied, main'), s₁) := by
        simp only [attempt, run]
      dsimp only
      rcases run' : plan.blend session main' overlay offset s₁ with ⟨n, s₂⟩ | ⟨e, s₂⟩ <;>
        exact .writable fits written (by simp only [attempt, run'])
    · exact .unwritable fits (by simp only [attempt, run])
  next misfit => exact .unplanned (Bool.eq_false_iff.2 misfit)

/-- What can become of a blend: besides the answer, the main picture and the state afterwards. -/
inductive Composited (plan : PlanePlan) (session : Session) (main : Picture) (s : DeviceState) :
    (Except OverlayError Nat × Picture) × DeviceState → Prop where
  | unplanned {fault : PairingFault} :
      Composited plan session main s ((.error (.invalidPairing fault), main), s)
  | unwritable {e : OverlayError} {s' : DeviceState}
      (rewritten : main.Rewritten session s (.error e, s')) :
      Composited plan session main s ((.error e, main), s')
  | blended {copied : Bool} {main' : Picture} {s₁ s' : DeviceState} {answer : Except OverlayError Unit}
      {ms : List Moment} (rewritten : main.Rewritten session s (.ok (copied, main'), s₁))
      (spell : Spell session s₁.store (fun m => m.Paints main'.buffer ∧ m.store = s₁.store) answer ms)
      (noted : s₁.Noted ms s') :
      Composited plan session main s ((answer.map fun _ => plan.launches, main'), s')

theorem composited (plan : PlanePlan) (session : Session) (main overlay : Picture)
    (offset : OverlayOffset) (s : DeviceState) :
    Composited plan session main s (plan.composite session main overlay offset s) := by
  have rewritten := main.rewritten session s
  have view := plan.composing session main overlay offset s
  generalize plan.composite session main overlay offset s = result at view ⊢
  cases view with
  | unplanned => exact .unplanned
  | unwritable _ shared => exact .unwritable (shared ▸ rewritten)
  | @writable _ main' s₁ _ _ _ written blended =>
    obtain ⟨answer, ms, s', spell, noted, blended'⟩ := plan.blend_spell session main' overlay offset s₁
    obtain ⟨rfl, rfl⟩ := Prod.mk.inj (blended.symm.trans blended')
    exact .blended (written ▸ rewritten) spell noted

end PlanePlan

end FrameOverlay
