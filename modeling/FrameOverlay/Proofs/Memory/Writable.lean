import FrameOverlay.Proofs.Memory.Leases

/-!
# Copy on write is all or nothing

A picture that shares its buffer gets a copy of its own, or stays as it is.  Where the fresh buffer comes from
makes no difference: a pool may give planes of any number and size, and fail at any time.

* `BufferSource`, `Picture.makeWritableFrom` — copy on write with a buffer of any source, of which
  `Picture.makeWritable` is a case;
* `Accommodates`, `copyMoments` — targets with room for every plane, and the copies that fill them;
* `copyPlanes_ok`, `copyPlanes_steady` — what copying comes to, and when it succeeds;
* `Picture.Written` — what copy on write comes to;
* `Picture.Copied`, `Picture.Untouched` — what is left of a copy that was made, and of one that was not;
* `Picture.Likewise` — two copies that come to the same;
* `Picture.Atomic`, `Picture.makeWritable_atomic` — **copy on write is all or nothing**.
-/

namespace FrameOverlay

open DeviceState DeviceM Session

/-! ### Sources of buffers -/

/-- Pitch and size of a plane: all but its address. -/
def DevicePlane.shape (p : DevicePlane) : Nat × Nat × Nat := (p.pitch, p.rowBytes, p.rows)

/-- What a pool is to a caller: it gives a buffer, or fails. -/
abbrev BufferSource := BufferStore → Except OverlayError (BufferId × BufferStore)

/-- The source gives new buffers, each with its taker for a holder.  What it keeps for itself is its own. -/
def BufferSource.Unshared (source : BufferSource) : Prop :=
  ∀ s fresh store, source s = .ok (fresh, store) → fresh = s.buffers.length ∧
    ∃ buffer, buffer.holders = 1 ∧ store.buffers = s.buffers ++ [buffer]

/-- Whenever the source gives a buffer in one state, it gives one in the other, with planes that differ in
their addresses only. -/
def BufferSource.Alike (source : BufferSource) (s s' : BufferStore) : Prop :=
  ∀ fresh store, source s = .ok (fresh, store) → ∃ fresh' store', source s' = .ok (fresh', store') ∧
    (store'.planes fresh').map DevicePlane.shape = (store.planes fresh).map DevicePlane.shape

/-- The pool `p` as a source. -/
def BufferSource.ofPool (p : PoolId) : BufferSource := fun s => s.acquire p

theorem BufferSource.unshared_ofPool (p : PoolId) : (ofPool p).Unshared := by
  intro s fresh store drawn
  obtain ⟨number, -⟩ := BufferStore.acquire_ok drawn
  obtain ⟨pool, pool', planes, -, -, -, rfl⟩ := BufferStore.acquire_cases drawn
  exact ⟨number, ⟨planes, some p, 1⟩, rfl, rfl⟩

/-- A fresh buffer of a source. -/
def DeviceM.draw (source : BufferSource) : DeviceM BufferId := fun s =>
  match source s.store with
  | .ok (b, store) => .ok b { s with store }
  | .error e => .error e s

namespace Picture

/-- Copy on write with a buffer of any source. -/
def makeWritableFrom (p : Picture) (session : Session) (source? : Option BufferSource) :
    DeviceM (Bool × Picture) := do
  if ← DeviceM.isExclusive p.buffer then
    return (false, p)
  match source? with
  | none => throw (.pool .noPool)
  | some source => do
    let fresh ← DeviceM.draw source
    p.copyBuffer session fresh
    DeviceM.release p.buffer
    return (true, { p with buffer := fresh })

theorem makeWritable_eq (p : Picture) (session : Session) :
    p.makeWritable session = p.makeWritableFrom session (p.pool?.map .ofPool) := by
  unfold makeWritable makeWritableFrom
  cases p.pool? with
  | none => rfl
  | some pool => rfl

end Picture

/-! ### Drivers that do not fail -/

/-- From now on no context fails to become current and no copy fails. -/
def DeviceState.Steady (s : DeviceState) : Prop := ∀ n r,
  (s.driver.counts.push ≤ n → s.driver.faults.push n = some r → r = 0) ∧
    (s.driver.counts.copy ≤ n → s.driver.faults.copy n = some r → r = 0)

namespace DeviceState

variable {s : DeviceState}

/-- The faults of a driver are given once and for all, and it counts its calls. -/
theorem faults_ask (s : DeviceState) (call : DriverCall) :
    (s.ask call).2.driver.faults = s.driver.faults ∧
      s.driver.counts.push ≤ (s.ask call).2.driver.counts.push ∧
      s.driver.counts.copy ≤ (s.ask call).2.driver.counts.copy := by
  cases call with
  | push context =>
    simp only [ask, Driver.serve, Driver.push]
    split <;> exact ⟨rfl, Nat.le_succ _, Nat.le_refl _⟩
  | load size =>
    simp only [ask, Driver.serve, Driver.loadSized]
    split <;> exact ⟨rfl, Nat.le_refl _, Nat.le_refl _⟩
  | getFunction name =>
    simp only [ask, Driver.serve, Driver.getFunction]
    split <;> exact ⟨rfl, Nat.le_refl _, Nat.le_refl _⟩
  | launch record =>
    simp only [ask, Driver.serve, Driver.launch]
    split <;> exact ⟨rfl, Nat.le_refl _, Nat.le_refl _⟩
  | copy record =>
    simp only [ask, Driver.serve, Driver.copy]
    split <;> exact ⟨rfl, Nat.le_refl _, Nat.le_succ _⟩
  | pop => exact ⟨rfl, Nat.le_refl _, Nat.le_refl _⟩
  | unload => exact ⟨rfl, Nat.le_refl _, Nat.le_refl _⟩

theorem Steady.ask (h : s.Steady) (call : DriverCall) : (s.ask call).2.Steady := by
  obtain ⟨faults, pushes, copies⟩ := faults_ask s call
  intro n r
  rw [faults]
  exact ⟨fun later => (h n r).1 (Nat.le_trans pushes later),
    fun later => (h n r).2 (Nat.le_trans copies later)⟩

theorem Steady.pushed (h : s.Steady) (context : Handle) : (s.ask (.push context)).1.1 = 0 := by
  simp only [DeviceState.ask, Driver.serve, Driver.push]
  split
  next r fault => exact (h _ r).1 (Nat.le_refl _) fault
  next => rfl

theorem Steady.copied (h : s.Steady) (record : PlaneCopy) : (s.ask (.copy record)).1.1 = 0 := by
  simp only [DeviceState.ask, Driver.serve, Driver.copy]
  split
  next r fault => exact (h _ r).2 (Nat.le_refl _) fault
  next => rfl

end DeviceState

/-! ### Copies of planes -/

/-- The copy of one plane to another. -/
def PlaneCopy.between (source target : DevicePlane) : PlaneCopy :=
  ⟨source.address, source.pitch, target.address, target.pitch, source.rowBytes, source.rows⟩

/-- For each of the planes in the second list the first has one at the same place that is large enough. -/
inductive Accommodates : List DevicePlane → List DevicePlane → Prop where
  | nil (targets : List DevicePlane) : Accommodates targets []
  | cons {source target : DevicePlane} {sources targets : List DevicePlane}
      (wide : source.rowBytes ≤ target.rowBytes) (high : source.rows ≤ target.rows)
      (rest : Accommodates targets sources) : Accommodates (target :: targets) (source :: sources)

/-- One copy for each plane, in order, to the plane at the same place; all of them succeed. -/
def copyMoments (store : BufferStore) (sources targets : List DevicePlane) : List Moment :=
  List.zipWith (fun source target => ⟨.copy (.between source target), 0, 0, store⟩) sources targets

theorem ok_of_attempt_bind {σ α β : Type} {x : EStateM OverlayError σ α} {f : α → EStateM OverlayError σ β}
    {s s' : σ} {b : β} (h : attempt (x >>= f) s = (.ok b, s')) :
    ∃ a t, attempt x s = (.ok a, t) ∧ attempt (f a) t = (.ok b, s') := by
  rcases run : attempt x s with ⟨e | a, t⟩
  · rw [attempt_bind_error run] at h
    exact nomatch h
  · rw [attempt_bind_ok run] at h
    exact ⟨a, t, rfl, h⟩

theorem DeviceM.attempt_call_zero (name : String) {request : DriverCall} {s : DeviceState}
    (success : (s.ask request).1.1 = 0) : attempt (call name request) s = (.ok (), (s.ask request).2) := by
  obtain ⟨after, ⟨-, answer⟩ | ⟨failed, -⟩⟩ := attempt_call name request s
  · exact Prod.ext answer after
  · exact absurd success failed

theorem copyPlanes_ok {targets sources : List DevicePlane} {index : Nat} {s s' : DeviceState}
    (h : attempt (copyPlanes targets index sources) s = (.ok (), s')) :
    Accommodates (targets.drop index) sources ∧
      s.Noted (copyMoments s.store sources (targets.drop index)) s' := by
  induction sources generalizing index s with
  | nil =>
    obtain ⟨-, rfl⟩ := Prod.mk.inj (show (Except.ok (), s) = (.ok (), s') from h)
    exact ⟨.nil _, .refl s⟩
  | cons source sources ih =>
    unfold copyPlanes at h
    split at h
    · exact nomatch h
    next target found =>
    split at h
    · exact nomatch h
    next fits =>
    obtain ⟨wide, high⟩ := not_or.1 fits
    obtain ⟨⟨⟩, t, called, goes⟩ := ok_of_attempt_bind h
    obtain ⟨inside, here⟩ := List.getElem?_eq_some_iff.1 found
    have ahead : targets.drop index = target :: targets.drop (index + 1) := by
      rw [List.drop_eq_getElem_cons inside, here]
    have called : attempt (call "cuMemcpy2DAsync" (.copy (.between source target))) s = (.ok (), t) := called
    have noted : s.Noted [⟨.copy (.between source target), 0, 0, s.store⟩] t := by
      have asked := noted_ask s (.copy (.between source target))
      obtain ⟨after, ⟨success, -⟩ | ⟨-, fault, wrong⟩⟩ :=
        attempt_call "cuMemcpy2DAsync" (.copy (.between source target)) s
      · rw [success, ← after, called] at asked
        exact asked
      · rw [called] at wrong
        exact nomatch wrong
    obtain ⟨room, others⟩ := ih goes
    rw [noted.store] at others
    rw [ahead]
    exact ⟨.cons (Nat.le_of_not_lt wide) (Nat.le_of_not_lt high) room, noted.trans others⟩

theorem copyPlanes_steady {targets sources : List DevicePlane} {index : Nat} {s : DeviceState}
    (steady : s.Steady) (room : Accommodates (targets.drop index) sources) :
    ∃ s', attempt (copyPlanes targets index sources) s = (.ok (), s') := by
  induction sources generalizing index s with
  | nil => exact ⟨s, rfl⟩
  | cons source sources ih =>
    generalize ahead : targets.drop index = behind at room
    cases room with
    | @cons _ target _ others wide high rest =>
    have found : targets[index]? = some target := by
      rw [← List.head?_drop, ahead]
      rfl
    have others : targets.drop (index + 1) = others := by
      rw [← List.tail_drop, ahead]
      rfl
    have called : attempt (call "cuMemcpy2DAsync" (.copy (.between source target))) s =
        (.ok (), (s.ask (.copy (.between source target))).2) :=
      attempt_call_zero _ (steady.copied _)
    have room : Accommodates (targets.drop (index + 1)) sources := others.symm ▸ rest
    obtain ⟨s', goes⟩ := ih (steady.ask (.copy (.between source target))) room
    refine ⟨s', ?_⟩
    unfold copyPlanes
    rw [found]
    show attempt (if _ then _ else _) s = _
    rw [if_neg (not_or.2 ⟨Nat.not_lt.2 wide, Nat.not_lt.2 high⟩)]
    exact (attempt_bind_ok called).trans goes

/-! ### Copies of buffers -/

theorem DeviceM.attempt_withContext_ok {device : DeviceContext} {body : DeviceM Unit} {s t u : DeviceState}
    (pushed : attempt (enter device) s = (.ok (), t)) (ran : attempt body t = (.ok (), u)) :
    attempt (withContext device body) s = (.ok (), leave u) := by
  simp only [attempt, withContext] at pushed ran ⊢
  rcases first : enter device s with ⟨⟨⟩, t'⟩ | ⟨e, t'⟩
  · rw [first] at pushed
    obtain rfl := (Prod.mk.inj pushed).2
    rcases second : body t' with ⟨⟨⟩, u'⟩ | ⟨e, u'⟩
    · rw [second] at ran
      obtain rfl := (Prod.mk.inj ran).2
      simp only [second]
    · rw [second] at ran
      cases ran
  · rw [first] at pushed
    cases pushed

namespace Picture

variable {p : Picture} {session : Session} {fresh : BufferId} {s s' : DeviceState}

/-- Copying the planes of a buffer, in the context of the session. -/
def filling (p : Picture) (session : Session) (fresh : BufferId) (s : DeviceState) : DeviceM Unit := do
  let device ← session.device
  withContext device (copyPlanes (s.store.planes fresh) 0 (s.store.planes p.buffer))

theorem attempt_copyBuffer (p : Picture) (session : Session) (fresh : BufferId) (s : DeviceState) :
    attempt (p.copyBuffer session fresh) s = attempt (do
      try p.filling session fresh s
      catch e =>
        DeviceM.release fresh
        throw e) s := rfl

/-- A copy of a buffer that succeeds: a push, the copies and a pop. -/
theorem copyBuffer_ok (done : attempt (p.copyBuffer session fresh) s = (.ok (), s')) :
    ∃ device h r h', session.openDevice = some device ∧
      Accommodates (s.store.planes fresh) (s.store.planes p.buffer) ∧
      s.Noted (⟨.push device.context, 0, h, s.store⟩ ::
        copyMoments s.store (s.store.planes p.buffer) (s.store.planes fresh) ++
          [⟨.pop, r, h', s.store⟩]) s' := by
  rw [attempt_copyBuffer] at done
  have filled : attempt (p.filling session fresh s) s = (.ok (), s') := by
    rcases run : attempt (p.filling session fresh s) s with ⟨e | ⟨⟩, t⟩
    · rw [attempt_catch_error run] at done
      exact nomatch done
    · exact (attempt_catch_ok run).symm.trans done
  have view : session.Hosted (fun _ => copyPlanes (s.store.planes fresh) 0 (s.store.planes p.buffer)) s
      (attempt (p.filling session fresh s) s) := session.hosted _ s
  rw [filled] at view
  generalize ran : (Except.ok (), s') = result at view
  cases view with
  | shut => exact nomatch ran
  | refused => exact nomatch ran
  | @entered device h t opened pushed =>
    obtain ⟨answer, rfl⟩ := Prod.mk.inj ran
    obtain ⟨room, copies⟩ := copyPlanes_ok (Prod.ext answer.symm rfl)
    obtain ⟨r, h', left⟩ := noted_leave (attempt (copyPlanes _ 0 (s.store.planes p.buffer)) t).2
    rw [pushed.store, List.drop_zero] at copies
    have inside := pushed.trans copies
    rw [inside.store] at left
    exact ⟨device, h, r, h', opened, room, inside.trans left⟩

/-- With an open session, a driver that does not fail and room for every plane it succeeds. -/
theorem copyBuffer_steady {device : DeviceContext} (opened : session.openDevice = some device)
    (steady : s.Steady) (room : Accommodates (s.store.planes fresh) (s.store.planes p.buffer)) :
    ∃ s', attempt (p.copyBuffer session fresh) s = (.ok (), s') := by
  have pushed : attempt (enter device) s = (.ok (), (s.ask (.push device.context)).2) :=
    attempt_call_zero _ (steady.pushed device.context)
  have all : Accommodates ((s.store.planes fresh).drop 0) (s.store.planes p.buffer) := room
  obtain ⟨t, ran⟩ := copyPlanes_steady (steady.ask (.push device.context)) all
  refine ⟨leave t, ?_⟩
  rw [attempt_copyBuffer]
  refine attempt_catch_ok ?_
  have on : attempt session.device s = (.ok device, s) := by simp [Session.device, opened]
  exact (attempt_bind_ok on).trans (attempt_withContext_ok pushed ran)

/-! ### What copy on write comes to -/

/-- What can become of copy on write with a buffer of any source. -/
inductive Written (p : Picture) (session : Session) (source? : Option BufferSource) (s : DeviceState) :
    Except OverlayError (Bool × Picture) × DeviceState → Prop where
  | sole (one : s.store.holders p.buffer = 1) : Written p session source? s (.ok (false, p), s)
  | barren {e : OverlayError} (shared : s.store.holders p.buffer ≠ 1) :
      Written p session source? s (.error e, s)
  | undone {source : BufferSource} {fresh : BufferId} {store : BufferStore} {e : OverlayError}
      {t : DeviceState} (shared : s.store.holders p.buffer ≠ 1) (given : source? = some source)
      (drawn : source s.store = .ok (fresh, store))
      (failed : attempt (p.copyBuffer session fresh) { s with store } = (.error e, t)) :
      Written p session source? s (.error e, t)
  | copied {source : BufferSource} {fresh : BufferId} {store : BufferStore} {t : DeviceState}
      (shared : s.store.holders p.buffer ≠ 1) (given : source? = some source)
      (drawn : source s.store = .ok (fresh, store))
      (done : attempt (p.copyBuffer session fresh) { s with store } = (.ok (), t)) :
      Written p session source? s
        (.ok (true, { p with buffer := fresh }), { t with store := t.store.release p.buffer })

theorem written (p : Picture) (session : Session) (source? : Option BufferSource) (s : DeviceState) :
    Written p session source? s (attempt (p.makeWritableFrom session source?) s) := by
  unfold makeWritableFrom
  rw [attempt_bind_ok (a := s.store.isExclusive p.buffer) (t := s) rfl]
  by_cases one : s.store.holders p.buffer = 1
  · rw [if_pos ((s.store.isExclusive_iff p.buffer).2 one)]
    exact .sole one
  rw [if_neg (mt (s.store.isExclusive_iff p.buffer).1 one)]
  cases source? with
  | none => exact .barren one
  | some source =>
    rcases given : source s.store with e | ⟨fresh, store⟩
    · have failed : attempt (draw source) s = (.error e, s) := by simp only [attempt, draw, given]
      rw [attempt_bind_error failed]
      exact .barren one
    · have drawn : attempt (draw source) s = (.ok fresh, { s with store }) := by
        simp only [attempt, draw, given]
      rw [attempt_bind_ok drawn]
      rcases run : attempt (p.copyBuffer session fresh) { s with store } with ⟨e | ⟨⟩, t⟩
      · rw [attempt_bind_error run]
        exact .undone one rfl given run
      · rw [attempt_bind_ok run]
        exact .copied one rfl given run

/-- Nothing stands in the way of a copy. -/
structure CanCopy (p : Picture) (session : Session) (source : BufferSource) (s : DeviceState) : Prop where
  opened : session.isOpen = true
  steady : s.Steady
  room : ∃ fresh store, source s.store = .ok (fresh, store) ∧
    Accommodates (store.planes fresh) (store.planes p.buffer)

/-- Then the copy is made. -/
theorem CanCopy.succeeds {source : BufferSource} (can : p.CanCopy session source s)
    (shared : s.store.holders p.buffer ≠ 1) :
    ∃ q s', attempt (p.makeWritableFrom session (some source)) s = (.ok (true, q), s') := by
  obtain ⟨device, opened⟩ := Option.isSome_iff_exists.1 can.opened
  obtain ⟨fresh, store, given, room⟩ := can.room
  obtain ⟨t, done⟩ := copyBuffer_steady (s := { s with store }) opened can.steady room
  have drawn : attempt (draw source) s = (.ok fresh, { s with store }) := by
    simp only [attempt, draw, given]
  refine ⟨{ p with buffer := fresh }, { t with store := t.store.release p.buffer }, ?_⟩
  unfold makeWritableFrom
  rw [attempt_bind_ok (a := s.store.isExclusive p.buffer) (t := s) rfl,
    if_neg (mt (s.store.isExclusive_iff p.buffer).1 shared)]
  exact (attempt_bind_ok drawn).trans (attempt_bind_ok done)

end Picture

/-! ### Old buffers and new ones -/

section Drawn

variable {source : BufferSource} {s store : BufferStore} {fresh : BufferId} (unshared : source.Unshared)
  (drawn : source s = .ok (fresh, store))

include unshared drawn

theorem BufferSource.Unshared.old {b : BufferId} (h : b < s.buffers.length) :
    store.buffers[b]? = s.buffers[b]? := by
  obtain ⟨-, buffer, -, buffers⟩ := unshared s fresh store drawn
  rw [buffers, List.getElem?_append_left h]

theorem BufferSource.Unshared.new (b : BufferId) :
    store.holders b = s.holders b + if b = fresh then 1 else 0 := by
  obtain ⟨rfl, buffer, one, buffers⟩ := unshared s fresh store drawn
  rcases Nat.lt_trichotomy b s.buffers.length with inside | rfl | beyond
  · simp [BufferStore.holders, buffers, List.getElem?_append_left inside, Nat.ne_of_lt inside]
  · simp [BufferStore.holders, buffers, one]
  · have outside : store.buffers.length ≤ b := by
      rw [buffers, List.length_append]
      exact beyond
    rw [BufferStore.holders_of_le outside, BufferStore.holders_of_le (Nat.le_of_lt beyond),
      if_neg (Nat.ne_of_gt beyond)]

end Drawn

namespace BufferStore

/-- A buffer by its number, when a holder of `c` lets go. -/
theorem getElem?_release (s : BufferStore) (b c : BufferId) : (s.release c).buffers[b]? =
    s.buffers[b]?.map fun x => if b = c then { x with holders := x.holders - 1 } else x := by
  cases found : s.buffers[c]? with
  | none =>
    rw [release_of_none found]
    by_cases same : b = c
    · rw [same, found]
      rfl
    · simp [same]
  | some x =>
    rw [release_of_some found, List.getElem?_set]
    by_cases same : b = c
    · subst same
      rw [if_pos rfl, if_pos (List.getElem?_eq_some_iff.1 found).1, found]
      simp
    · simp [same, Ne.symm same]

theorem planes_congr {s s' : BufferStore} {b : BufferId} (same : s'.buffers[b]? = s.buffers[b]?) :
    s'.planes b = s.planes b := by
  rw [planes, same]
  rfl

theorem holders_congr {s s' : BufferStore} {b : BufferId} (same : s'.buffers[b]? = s.buffers[b]?) :
    s'.holders b = s.holders b := by
  rw [holders, same]
  rfl

/-- What the buffers of each pool are like. -/
def makes (s : BufferStore) : List (PixelFormat × UInt32 × UInt32) :=
  s.pools.map fun pool => (pool.format, pool.width, pool.height)

theorem makes_acquire {s store : BufferStore} {p : PoolId} {fresh : BufferId}
    (drawn : s.acquire p = .ok (fresh, store)) : store.makes = s.makes := by
  obtain ⟨-, pool, found, -, -, rfl⟩ := acquire_inv drawn
  obtain ⟨inside, here⟩ := List.getElem?_eq_some_iff.1 found
  apply List.ext_getElem?
  intro q
  by_cases same : p = q
  · subst same
    simp [makes, inside, here]
  · simp [makes, same]

theorem makes_release (s : BufferStore) (b : BufferId) : (s.release b).makes = s.makes := by
  obtain ⟨p, -, pools⟩ | ⟨-, pools⟩ := s.release_pools b
  · rw [makes, pools]
    apply List.ext_getElem?
    intro q
    by_cases same : p = q
    · subst same
      cases found : s.pools[p]? <;> simp [makes, found, FramePool.giveBack]
    · cases found : s.pools[q]? <;> simp [makes, found, same]
  · rw [makes, pools]
    rfl

end BufferStore

/-- Where the planes lie says nothing about their shape. -/
theorem DevicePlane.map_shape_stack (align : Nat) (address address' : UInt64) (extents : List PlaneExtent) :
    (stack align address extents).map shape = (stack align address' extents).map shape := by
  induction extents generalizing address address' with
  | nil => rfl
  | cons e es ih =>
    simp only [stack, List.map_cons]
    rw [ih]
    rfl

/-- A pool gives buffers that are alike as long as its format and size stay. -/
theorem BufferSource.alike_ofPool (p : PoolId) {s s' : BufferStore} (same : s'.makes = s.makes) :
    (ofPool p).Alike s s' := by
  intro fresh store drawn
  obtain ⟨⟨pool, found, planes⟩, -⟩ := BufferStore.acquire_planes drawn
  have makes : s'.makes[p]? = some (pool.format, pool.width, pool.height) := by
    rw [same, BufferStore.makes, List.getElem?_map, found]
    rfl
  rw [BufferStore.makes, List.getElem?_map] at makes
  obtain ⟨pool', found', make⟩ := Option.map_eq_some_iff.1 makes
  obtain ⟨format, size⟩ := Prod.mk.inj make
  obtain ⟨width, height⟩ := Prod.mk.inj size
  have sized : ¬ (pool'.width = 0 ∨ pool'.height = 0) := by
    intro empty
    rw [width, height] at empty
    have refused : s.acquire p = .error (.pool .zeroSized) := by
      simp only [BufferStore.acquire, found, FramePool.acquire, if_pos empty]
    exact nomatch refused.symm.trans drawn
  rcases given : s'.acquire p with e | ⟨fresh', store'⟩
  · simp only [BufferStore.acquire, found', FramePool.acquire, if_neg sized] at given
    exact nomatch given
  · obtain ⟨⟨pool'', found'', planes'⟩, -⟩ := BufferStore.acquire_planes given
    obtain rfl := Option.some.inj (found'.symm.trans found'')
    refine ⟨fresh', store', given, ?_⟩
    rw [planes, planes', FramePool.planesAt, FramePool.planesAt, DevicePlane.layout, DevicePlane.layout,
      format, width, height]
    exact DevicePlane.map_shape_stack _ _ _ _

/-! ### Accommodation and shape -/

theorem Accommodates.of_shape {targets targets' sources : List DevicePlane}
    (same : targets'.map DevicePlane.shape = targets.map DevicePlane.shape)
    (room : Accommodates targets sources) : Accommodates targets' sources := by
  induction room generalizing targets' with
  | nil => exact .nil targets'
  | cons wide high _ ih =>
    obtain ⟨target', rest', rfl, shape, others⟩ := List.map_eq_cons_iff.1 same
    obtain ⟨-, sizes⟩ := Prod.mk.inj shape
    obtain ⟨rowBytes, rows⟩ := Prod.mk.inj sizes
    exact .cons (rowBytes ▸ wide) (rows ▸ high) (ih others)

/-- A call but for the address that a copy goes to. -/
def DriverCall.untargeted : DriverCall → DriverCall
  | copy record => copy { record with target := 0 }
  | call => call

theorem map_untargeted_copyMoments {targets targets' : List DevicePlane} (sources : List DevicePlane)
    (store store' : BufferStore)
    (same : targets'.map DevicePlane.shape = targets.map DevicePlane.shape) :
    (copyMoments store' sources targets').map (fun m => m.call.untargeted) =
      (copyMoments store sources targets).map (fun m => m.call.untargeted) := by
  induction sources generalizing targets targets' with
  | nil => rfl
  | cons source sources ih =>
    cases targets with
    | nil =>
      obtain rfl := List.map_eq_nil_iff.1 same
      rfl
    | cons target targets =>
      obtain ⟨target', rest', rfl, shape, others⟩ := List.map_eq_cons_iff.1 same
      obtain ⟨pitch, -⟩ := Prod.mk.inj shape
      have first : DriverCall.untargeted (.copy (.between source target')) =
          DriverCall.untargeted (.copy (.between source target)) := by
        simp only [DriverCall.untargeted, PlaneCopy.between, pitch]
      have rest := ih others
      simp only [copyMoments, List.zipWith_cons_cons, List.map_cons] at rest ⊢
      rw [first, rest]

/-! ### Outcomes -/

/-- The calls made from one state to a later one. -/
def DeviceState.callsTo (s s' : DeviceState) : List DriverCall :=
  (s'.history.drop s.history.length).map Moment.call

namespace Picture

variable {p q : Picture} {session : Session} {source? : Option BufferSource} {s s' : DeviceState}

/-- What a copy that was made leaves. -/
structure Copied (p : Picture) (session : Session) (source? : Option BufferSource) (s : DeviceState)
    (q : Picture) (s' : DeviceState) : Prop where
  /-- A new buffer, and all else as it was. -/
  picture : q = { p with buffer := s.store.buffers.length }
  /-- Nobody else refers to it. -/
  own : s'.store.holders q.buffer = 1
  /-- The old buffers stay, and the picture lets go of the one it had. -/
  others : ∀ b, b < s.store.buffers.length → s'.store.buffers[b]? =
    s.store.buffers[b]?.map fun x => if b = p.buffer then { x with holders := x.holders - 1 } else x
  /-- Which others still hold. -/
  remains : 0 < s'.store.holders p.buffer
  /-- The new buffer has the planes that the source gave. -/
  given : ∃ source fresh store, source? = some source ∧ source s.store = .ok (fresh, store) ∧
    s'.store.planes q.buffer = store.planes fresh
  /-- Which are large enough. -/
  room : Accommodates (s'.store.planes q.buffer) (s.store.planes p.buffer)
  /-- The calls: one push, one copy for each plane of the old buffer, one pop. -/
  calls : ∃ device h r h' store, session.openDevice = some device ∧ s'.history = s.history ++
    (⟨.push device.context, 0, h, store⟩ ::
      copyMoments store (s.store.planes p.buffer) (s'.store.planes q.buffer) ++ [⟨.pop, r, h', store⟩])

/-- What a copy that was not made leaves: the old buffers with their holders, and no others that are held. -/
structure Untouched (s s' : DeviceState) : Prop where
  old : ∀ b, b < s.store.buffers.length → s'.store.buffers[b]? = s.store.buffers[b]?
  new : ∀ b, s.store.buffers.length ≤ b → s'.store.holders b = 0

/-- Two copies, from states that may differ, come to the same but for the addresses they go to. -/
structure Likewise (s : DeviceState) (q : Picture) (s' t : DeviceState) (r : Picture) (t' : DeviceState) :
    Prop where
  picture : r = { q with buffer := r.buffer }
  shape : (t'.store.planes r.buffer).map DevicePlane.shape =
    (s'.store.planes q.buffer).map DevicePlane.shape
  holders : t'.store.holders r.buffer = s'.store.holders q.buffer
  others : ∀ b, b < s.store.buffers.length → t'.store.buffers[b]? = s'.store.buffers[b]?
  calls : (t.callsTo t').map DriverCall.untargeted = (s.callsTo s').map DriverCall.untargeted

/-- Copy on write is all or nothing, with a source of buffers that may give or fail as it likes. -/
structure Atomic (p : Picture) (session : Session) (source? : Option BufferSource) (s : DeviceState) :
    Prop where
  /-- A sole holder stays as it is, without any call. -/
  sole : s.store.holders p.buffer = 1 →
    attempt (p.makeWritableFrom session source?) s = (.ok (false, p), s)
  /-- Another gets a copy. -/
  copied : s.store.holders p.buffer ≠ 1 → ∀ flag q s',
    attempt (p.makeWritableFrom session source?) s = (.ok (flag, q), s') →
      flag = true ∧ p.Copied session source? s q s'
  /-- Or nothing has happened. -/
  undone : ∀ e s', attempt (p.makeWritableFrom session source?) s = (.error e, s') → Untouched s s'
  /-- The copy is made when nothing stands in its way. -/
  able : s.store.holders p.buffer ≠ 1 → ∀ source, source? = some source → p.CanCopy session source s →
    ∃ q s', attempt (p.makeWritableFrom session source?) s = (.ok (true, q), s')
  /-- A call that failed makes no difference to a later one, with whatever session, source and driver: what
  succeeds without it succeeds after it, and comes to the same. -/
  again : ∀ e s', attempt (p.makeWritableFrom session source?) s = (.error e, s') →
    ∀ (p₁ : Picture) session₁ source₁ t t', p₁.buffer = p.buffer → t.store.buffers = s.store.buffers →
      t'.store.buffers = s'.store.buffers → source₁.Unshared → source₁.Alike t.store t'.store → t'.Steady →
      ∀ q u, attempt (p₁.makeWritableFrom session₁ (some source₁)) t = (.ok (true, q), u) →
        ∃ r u', attempt (p₁.makeWritableFrom session₁ (some source₁)) t' = (.ok (true, r), u') ∧
          Likewise t q u t' r u'

section Outcome

variable (unshared : ∀ source, source? = some source → source.Unshared)
  (held : 0 < s.store.holders p.buffer)

include unshared held

theorem copied_of_ok {flag : Bool} (shared : s.store.holders p.buffer ≠ 1)
    (run : attempt (p.makeWritableFrom session source?) s = (.ok (flag, q), s')) :
    flag = true ∧ p.Copied session source? s q s' := by
  have view := p.written session source? s
  rw [run] at view
  cases view with
  | sole one => exact absurd one shared
  | @copied source fresh store t _ given drawn done =>
    have mine := unshared source given
    obtain ⟨number, buffer, one, buffers⟩ := mine s.store fresh store drawn
    have inside := BufferStore.lt_of_holders held
    obtain ⟨device, h, r, h', opened, room, noted⟩ := copyBuffer_ok done
    have stays : t.store = store := noted.store
    -- The fresh buffer is another one, so it keeps its holder when the old one loses one.
    have apart : fresh ≠ p.buffer := number ▸ Nat.ne_of_gt inside
    have planes : (t.store.release p.buffer).planes fresh = store.planes fresh := by
      rw [BufferStore.planes_release, stays]
    have sources : store.planes p.buffer = s.store.planes p.buffer :=
      BufferStore.planes_congr (mine.old drawn inside)
    refine ⟨rfl, ?_⟩
    exact
      { picture := by rw [number]
        own := by
          show (t.store.release p.buffer).holders fresh = 1
          have new := mine.new drawn fresh
          rw [if_pos rfl, number, BufferStore.holders_of_le (Nat.le_refl _)] at new
          rw [BufferStore.holders_release, if_neg apart, stays, number, new]
        others := fun b old => by
          show (t.store.release p.buffer).buffers[b]? = _
          rw [BufferStore.getElem?_release, stays, mine.old drawn old]
        remains := by
          show 0 < (t.store.release p.buffer).holders p.buffer
          rw [BufferStore.holders_release, if_pos rfl, stays, mine.new drawn, if_neg apart.symm]
          omega
        given := ⟨source, fresh, store, given, drawn, planes⟩
        room := by
          show Accommodates ((t.store.release p.buffer).planes fresh) _
          rw [planes, ← sources]
          exact room
        calls := by
          refine ⟨device, h, r, h', store, opened, ?_⟩
          show t.history = _
          rw [planes, ← sources]
          exact noted.history }

omit held in
theorem untouched_of_error {e : OverlayError}
    (run : attempt (p.makeWritableFrom session source?) s = (.error e, s')) :
    s.store.holders p.buffer ≠ 1 ∧ Untouched s s' := by
  have view := p.written session source? s
  rw [run] at view
  cases view with
  | barren shared => exact ⟨shared, fun _ _ => rfl, fun b => BufferStore.holders_of_le⟩
  | @undone source fresh store _ _ shared given drawn failed =>
    have mine := unshared source given
    obtain ⟨number, -⟩ := mine s.store fresh store drawn
    obtain ⟨answer, ms, t, -, noted, copied⟩ := copyBuffer_spell p session fresh { s with store }
    obtain ⟨rfl, rest⟩ := Prod.mk.inj (failed.symm.trans copied)
    have stays : t.store = store := noted.store
    have released : s'.store = store.release fresh := by
      rw [rest, ← stays]
    refine ⟨shared, fun b old => ?_, fun b beyond => ?_⟩
    · rw [released, BufferStore.getElem?_release, mine.old drawn old]
      have apart : b ≠ fresh := number ▸ Nat.ne_of_lt old
      simp [apart]
    · rw [released, BufferStore.holders_release, mine.new drawn, BufferStore.holders_of_le beyond]
      omega

/-- A copy that was made after one that failed, and one that would have been made without it. -/
theorem likewise_of_ok {e : OverlayError} {p₁ : Picture} {session₁ : Session} {source₁ : BufferSource}
    {t t' u : DeviceState} (failed : attempt (p.makeWritableFrom session source?) s = (.error e, s'))
    (same : p₁.buffer = p.buffer) (before : t.store.buffers = s.store.buffers)
    (after : t'.store.buffers = s'.store.buffers) (unshared₁ : source₁.Unshared)
    (alike : source₁.Alike t.store t'.store) (steady : t'.Steady)
    (run : attempt (p₁.makeWritableFrom session₁ (some source₁)) t = (.ok (true, q), u)) :
    ∃ r u', attempt (p₁.makeWritableFrom session₁ (some source₁)) t' = (.ok (true, r), u') ∧
      Likewise t q u t' r u' := by
  obtain ⟨shared, untouched⟩ := untouched_of_error unshared failed
  -- Both states have the buffers of before the failed call; the one after it may have one more, without holder.
  have old (b : BufferId) (h : b < t.store.buffers.length) :
      t'.store.buffers[b]? = t.store.buffers[b]? := by
    rw [after, untouched.old b (before ▸ h), before]
  have mine (source : BufferSource) (given : some source₁ = some source) : source.Unshared :=
    Option.some.inj given ▸ unshared₁
  have inside : p₁.buffer < t.store.buffers.length := by
    rw [same, before]
    exact BufferStore.lt_of_holders held
  have held₁ : t.store.holders p₁.buffer = s.store.holders p.buffer := by
    rw [same]
    exact BufferStore.holders_congr (by rw [before])
  have held₂ : t'.store.holders p₁.buffer = s.store.holders p.buffer :=
    (BufferStore.holders_congr (old _ inside)).trans held₁
  have sources : t'.store.planes p₁.buffer = t.store.planes p₁.buffer :=
    BufferStore.planes_congr (old _ inside)
  have copied := (copied_of_ok mine (held₁ ▸ held) (held₁ ▸ shared) run).2
  obtain ⟨_, fresh, store, given, drawn, planes⟩ := copied.given
  obtain rfl := Option.some.inj given
  obtain ⟨device, h, r, h', store₁, opened, calls⟩ := copied.calls
  obtain ⟨fresh', store', drawn', shape⟩ := alike fresh store drawn
  have room : Accommodates (store'.planes fresh') (store'.planes p₁.buffer) := by
    have inside' := BufferStore.lt_of_holders (held₂ ▸ held)
    rw [BufferStore.planes_congr (unshared₁.old drawn' inside'), sources]
    exact (planes ▸ copied.room).of_shape shape
  have can : p₁.CanCopy session₁ source₁ t' :=
    ⟨Option.isSome_iff_exists.2 ⟨device, opened⟩, steady, fresh', store', drawn', room⟩
  obtain ⟨q', u', run'⟩ := can.succeeds (held₂ ▸ shared)
  have copied' := (copied_of_ok mine (held₂ ▸ held) (held₂ ▸ shared) run').2
  obtain ⟨_, _, _, given', again, planes'⟩ := copied'.given
  obtain rfl := Option.some.inj given'
  obtain ⟨rfl, rfl⟩ := Prod.mk.inj (Except.ok.inj (again.symm.trans drawn'))
  obtain ⟨device', k, v, k', store₂, opened', calls'⟩ := copied'.calls
  obtain rfl := Option.some.inj (opened.symm.trans opened')
  have shapes : (u'.store.planes q'.buffer).map DevicePlane.shape =
      (u.store.planes q.buffer).map DevicePlane.shape := by
    rw [planes, planes', shape]
  refine ⟨q', u', run', ?_⟩
  exact
    { picture := by
        rw [copied.picture, copied'.picture]
      shape := shapes
      holders := copied'.own.trans copied.own.symm
      others := fun b h => by
        have here : b < t'.store.buffers.length :=
          (List.getElem?_eq_some_iff.1 ((old b h).trans (List.getElem?_eq_getElem h))).1
        rw [copied.others b h, copied'.others b here, old b h]
      calls := by
        rw [callsTo, callsTo, calls, calls', List.drop_left, List.drop_left, sources]
        simp only [List.map_cons, List.map_append, List.map_map, Function.comp_def, List.cons_append]
        rw [map_untargeted_copyMoments _ store₁ store₂ shapes] }

theorem atomic : p.Atomic session source? s where
  sole one := by
    have view := p.written session source? s
    generalize attempt (p.makeWritableFrom session source?) s = result at view ⊢
    cases view with
    | sole => rfl
    | barren shared => exact absurd one shared
    | undone shared => exact absurd one shared
    | copied shared => exact absurd one shared
  copied shared _ _ _ run := copied_of_ok unshared held shared run
  undone _ _ run := (untouched_of_error unshared run).2
  able shared source given can := by
    subst given
    exact can.succeeds shared
  again _ _ failed _ _ _ _ _ same before after unshared₁ alike steady _ _ run :=
    likewise_of_ok unshared held failed same before after unshared₁ alike steady run

end Outcome

/-! ### Pools -/

/-- A copy that was made is the only thing that its pool counts besides. -/
theorem outstanding_makeWritable (held : 0 < s.store.holders p.buffer)
    (run : attempt (p.makeWritable session) s = (.ok (true, q), s')) :
    ∃ pool, p.pool? = some pool ∧
      ∀ n, s'.store.outstanding n = s.store.outstanding n + if n = pool then 1 else 0 := by
  have view := p.written session (p.pool?.map .ofPool) s
  rw [← makeWritable_eq, run] at view
  cases view with
  | @copied _ fresh store t shared given drawn done =>
    obtain ⟨pool, link, rfl⟩ := Option.map_eq_some_iff.1 given
    have acquired : s.store.acquire pool = .ok (fresh, store) := drawn
    obtain ⟨device, h, r, h', -, -, noted⟩ := copyBuffer_ok done
    have stays : t.store = store := noted.store
    refine ⟨pool, link, fun n => ?_⟩
    have several : ¬ store.IsLast p.buffer n := by
      intro last
      obtain ⟨number, -⟩ := BufferStore.acquire_ok acquired
      have apart : p.buffer ≠ fresh := number ▸ Nat.ne_of_lt (BufferStore.lt_of_holders held)
      have one := last.1
      rw [BufferStore.holders_acquire acquired, if_neg apart] at one
      exact shared one
    show (t.store.release p.buffer).outstanding n = _
    rw [BufferStore.outstanding_release, stays, if_neg several, BufferStore.outstanding_acquire acquired]
    rfl

/-- A copy that failed leaves the pools as they were, but for the buffers they have made. -/
theorem makes_makeWritable {e : OverlayError}
    (run : attempt (p.makeWritable session) s = (.error e, s')) : s'.store.makes = s.store.makes := by
  have view := p.rewritten session s
  rw [run] at view
  cases view with
  | barren => rfl
  | undone _ acquired _ _ released =>
    rw [released, BufferStore.makes_release, BufferStore.makes_acquire acquired]

/-! ### All or nothing -/

/-- What copy on write does to a picture and all that is around it. -/
structure WritableLaw (p : Picture) (session : Session) (s : DeviceState) : Prop where
  /-- With any source of buffers it is all or nothing. -/
  atomic : ∀ source? : Option BufferSource, (∀ source, source? = some source → source.Unshared) →
    p.Atomic session source? s
  /-- The source is the pool of the picture's link. -/
  pooled : p.makeWritable session = p.makeWritableFrom session (p.pool?.map .ofPool)
  /-- Pools give new buffers, and these are alike whatever a pool has given before. -/
  pools : ∀ n, (BufferSource.ofPool n).Unshared ∧
    ∀ t t' : BufferStore, t'.makes = t.makes → (BufferSource.ofPool n).Alike t t'
  /-- A pool has one buffer more outstanding for a copy that was made. -/
  counted : ∀ q s', attempt (p.makeWritable session) s = (.ok (true, q), s') → ∃ pool, p.pool? = some pool ∧
    ∀ n, s'.store.outstanding n = s.store.outstanding n + if n = pool then 1 else 0
  /-- And none for one that was not. -/
  returned : ∀ e s', attempt (p.makeWritable session) s = (.error e, s') →
    (∀ n, s'.store.outstanding n = s.store.outstanding n) ∧ s'.store.makes = s.store.makes
  /-- Of the frames that a caller has at hand, only the one with the picture gets another, if at all. -/
  frames : ∀ (w : Studio) k i frame, w.device = s → w.sessions[k]? = some session →
    w.frames[i]? = some frame → frame.content = p →
    (∀ e s', attempt (p.makeWritable session) s = (.error e, s') →
      w.perform (.session k (.makeWritable i)) = (.error e, { w with device := s' })) ∧
    ∀ flag q s', attempt (p.makeWritable session) s = (.ok (flag, q), s') →
      w.perform (.session k (.makeWritable i)) =
        (.ok (), { w with device := s', frames := w.frames.set i { frame with content := q } })

/-- **Copy on write is all or nothing.**  Take any session, picture, state of the device and driver faults, and
a source that gives buffers with any planes, or fails.  The picture's only holder keeps it as it is, without a
call.  Another holder gets a buffer of its own with every plane copied, all in one scope; or else
nothing has happened, the fresh buffer is back, and a later call succeeds as if this one had not been made. -/
theorem makeWritable_atomic (p : Picture) (session : Session) (s : DeviceState)
    (held : 0 < s.store.holders p.buffer) : p.WritableLaw session s where
  atomic _ unshared := atomic unshared held
  pooled := p.makeWritable_eq session
  pools n := ⟨BufferSource.unshared_ofPool n, fun _ _ same => BufferSource.alike_ofPool n same⟩
  counted _ _ run := outstanding_makeWritable held run
  returned _ s' run := by
    have view := p.rewritten session s
    rw [run] at view
    exact ⟨view.undone_outstanding.1, makes_makeWritable run⟩
  frames w k i frame device on here content := by
    subst device content
    refine ⟨fun e s' run => ?_, fun flag q s' run => ?_⟩
    · simp only [Studio.perform, on, Studio.performSession, here, run]
    · simp only [Studio.perform, on, Studio.performSession, here, run]

/-- Two pictures share a buffer of two planes.  The second copy fails, and the next attempt succeeds. -/
theorem makeWritable_atomic_nv12 :
    let context : FramesContext := ⟨⟨1, 2⟩, .nv12, 4, 4, some 0⟩
    let p : Picture := ⟨0, .nv12, 4, 4, none, some context⟩
    let session : Session := ⟨some ⟨1, 2⟩, 3, 4⟩
    let pool : FramePool := .new .nv12 4 4
    let s : DeviceState :=
      { driver := { faults := { copy := Fault.only 1 200 } }
        store := ⟨[⟨pool.planesAt 0, none, 2⟩], [pool]⟩ }
    let failed := attempt (p.makeWritable session) s
    let done := attempt (p.makeWritable session) failed.2
    0 < s.store.holders p.buffer ∧ failed.1.isOk = false ∧ failed.2.store.holders 0 = 2 ∧
      done.1.map Prod.fst = .ok true ∧ done.2.store.holders 0 = 1 ∧
      (done.2.driver.calls.map DriverCall.tag) = ["push", "copy", "pop", "push", "copy", "copy", "pop"] ∧
      p.WritableLaw session s := by
  intro context p session pool s failed done
  exact ⟨by decide, by decide +kernel, by decide +kernel, by decide +kernel, by decide +kernel,
    by decide +kernel, makeWritable_atomic p session s (by decide)⟩

end Picture

end FrameOverlay
