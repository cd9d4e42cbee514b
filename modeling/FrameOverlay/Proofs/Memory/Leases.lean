import FrameOverlay.Proofs.Device.Accounts
import FrameOverlay.Proofs.Memory.Isolation
import Mathlib.Data.List.Dedup

/-!
# No buffer of a pool is lost

A pool counts the buffers that it has handed out and not got back.  These are its buffers that have a holder,
and holders are frames; so none is lost, and none is given back while a frame still refers to it.

* `BufferStore.Leased` — a pool has outstanding what is held of its buffers, `BufferStore.Grows` — it has
  made and counted as many buffers as were acquired;
* `BufferStore.Trade`, `BufferStore.Trades`, `BufferStore.Reaches` — what can become of buffers and pools, at
  once and in a row: **the counters stay right**;
* `Picture.Rewritten.reaches`, `PlanePlan.Composited.reaches`, `Pipeline.Acted.reaches`,
  `Studio.perform_reaches` — every operation is a row of trades;
* `Picture.Rewritten.undone_outstanding`, `PlanePlan.Composited.undone_outstanding`,
  `Pipeline.attempt_activate_uncopied` — **a copy that fails gives its buffer back**;
* `LeaseLaw`, `Studio.leases_lawful` — **every step of a run keeps to the counters**.
-/

namespace FrameOverlay

open DeviceState Session

/-- The buffer came from pool `p` and has not gone back. -/
def SharedBuffer.isLent (p : PoolId) (x : SharedBuffer) : Bool := x.lender == some p && x.holders != 0

namespace BufferStore

/-! ### Counters -/

/-- The pool that a buffer came from. -/
def lender? (s : BufferStore) (b : BufferId) : Option PoolId := s.buffers[b]?.bind SharedBuffer.lender

/-- What a pool counts as handed out and not given back. -/
def outstanding (s : BufferStore) (p : PoolId) : Nat := (s.pools[p]?.map FramePool.outstanding).getD 0

/-- What a pool counts as handed out. -/
def acquired (s : BufferStore) (p : PoolId) : Nat := (s.pools[p]?.map FramePool.acquired).getD 0

/-- The number of buffers of a pool that have a holder. -/
def lent (s : BufferStore) (p : PoolId) : Nat := s.buffers.countP (SharedBuffer.isLent p)

/-- The buffer is of pool `p`, and has one holder. -/
def IsLast (s : BufferStore) (b : BufferId) (p : PoolId) : Prop := s.holders b = 1 ∧ s.lender? b = some p

instance (s : BufferStore) (b : BufferId) (p : PoolId) : Decidable (s.IsLast b p) :=
  inferInstanceAs (Decidable (_ ∧ _))

/-- A pool has outstanding what is held of its buffers. -/
def Leased (s : BufferStore) : Prop := ∀ p, s.outstanding p = s.lent p

/-- No buffer is forgotten, and of the buffers that are new each pool has made and counted those that were
acquired: `ps` are the pools of these, one by one. -/
def Grows (s : BufferStore) (ps : List PoolId) (s' : BufferStore) : Prop := ∃ lenders,
  s'.buffers.map SharedBuffer.lender = s.buffers.map SharedBuffer.lender ++ lenders ∧
    ∀ p, lenders.count (some p) = ps.count p ∧ s'.acquired p = s.acquired p + ps.count p

theorem Grows.refl (s : BufferStore) : s.Grows [] s :=
  ⟨[], (List.append_nil _).symm, fun _ => ⟨rfl, rfl⟩⟩

theorem Grows.trans {s s' s'' : BufferStore} {ps ps' : List PoolId} (h : s.Grows ps s')
    (h' : s'.Grows ps' s'') : s.Grows (ps ++ ps') s'' := by
  obtain ⟨new, lenders, counts⟩ := h
  obtain ⟨new', lenders', counts'⟩ := h'
  refine ⟨new ++ new', by rw [lenders', lenders, List.append_assoc], fun p => ?_⟩
  obtain ⟨made, counted⟩ := counts p
  obtain ⟨made', counted'⟩ := counts' p
  rw [List.count_append, List.count_append, made, made', counted', counted, Nat.add_assoc]
  exact ⟨rfl, rfl⟩

/-! ### Trades -/

/-- What can become of buffers and pools at once, with the pool of an acquisition that succeeds. -/
inductive Trade : BufferStore → Option PoolId → BufferStore → Prop where
  /-- A new buffer outside every pool. -/
  | allocate (s : BufferStore) (planes : List DevicePlane) : Trade s none (s.allocate planes none).2
  | acquire {s store : BufferStore} {p : PoolId} {fresh : BufferId}
      (acquired : s.acquire p = .ok (fresh, store)) : Trade s (some p) store
  | share {s : BufferStore} {b : BufferId} (alive : 0 < s.holders b) : Trade s none (s.share b)
  | release (s : BufferStore) (b : BufferId) : Trade s none (s.release b)

/-- Trades one after the other, with the pools of all acquisitions that succeed. -/
inductive Trades : BufferStore → List PoolId → BufferStore → Prop where
  | refl (s : BufferStore) : Trades s [] s
  | head {s s' s'' : BufferStore} {drawn : Option PoolId} {ps : List PoolId} (first : Trade s drawn s')
      (rest : Trades s' ps s'') : Trades s (drawn.toList ++ ps) s''

/-- Some trades lead from one state to the other. -/
def Reaches (s s' : BufferStore) : Prop := ∃ ps, Trades s ps s'

/-- What a pool gives, with its counters. -/
theorem acquire_cases {s store : BufferStore} {p : PoolId} {fresh : BufferId}
    (h : s.acquire p = .ok (fresh, store)) : ∃ pool pool' planes, s.pools[p]? = some pool ∧
      pool'.acquired = pool.acquired + 1 ∧ pool'.outstanding = pool.outstanding + 1 ∧
        store = ⟨s.buffers ++ [⟨planes, some p, 1⟩], s.pools.set p pool'⟩ := by
  obtain ⟨-, pool, found, -, -, rfl⟩ := acquire_inv h
  exact ⟨pool, _, _, found, rfl, rfl, rfl⟩

section Acquire

variable {s store : BufferStore} {p : PoolId} {fresh : BufferId} (h : s.acquire p = .ok (fresh, store))
  (q : PoolId)

include h

theorem outstanding_acquire : store.outstanding q = s.outstanding q + if q = p then 1 else 0 := by
  obtain ⟨pool, pool', planes, found, -, counted, rfl⟩ := acquire_cases h
  obtain ⟨inside, here⟩ := List.getElem?_eq_some_iff.1 found
  by_cases same : q = p
  · subst same
    simp [outstanding, inside, here, counted]
  · simp [outstanding, same, Ne.symm same]

theorem acquired_acquire : store.acquired q = s.acquired q + if q = p then 1 else 0 := by
  obtain ⟨pool, pool', planes, found, counted, -, rfl⟩ := acquire_cases h
  obtain ⟨inside, here⟩ := List.getElem?_eq_some_iff.1 found
  by_cases same : q = p
  · subst same
    simp [acquired, inside, here, counted]
  · simp [acquired, same, Ne.symm same]

/-- A buffer that has just come from a pool goes back there when it is let go of. -/
theorem isLast_acquire : store.IsLast fresh q ↔ q = p := by
  have one := holders_acquire h fresh
  obtain ⟨rfl, -⟩ := acquire_ok h
  rw [holders_of_le (Nat.le_refl _), if_pos rfl] at one
  obtain ⟨pool, pool', planes, -, -, -, rfl⟩ := acquire_cases h
  simp [IsLast, one, lender?, eq_comm]

theorem lent_acquire : store.lent q = s.lent q + if q = p then 1 else 0 := by
  obtain ⟨pool, pool', planes, -, -, -, rfl⟩ := acquire_cases h
  rw [lent, lent, List.countP_append]
  by_cases same : q = p
  · simp [SharedBuffer.isLent, same]
  · simp [SharedBuffer.isLent, same, Ne.symm same]

end Acquire

section Release

variable (s : BufferStore) (b : BufferId) (q : PoolId)

/-- The pools when a holder lets go: the last one gives the buffer back. -/
theorem release_pools : (∃ p, s.IsLast b p ∧ (s.release b).pools = s.pools.modify p FramePool.giveBack) ∨
    (∀ p, ¬ s.IsLast b p) ∧ (s.release b).pools = s.pools := by
  cases found : s.buffers[b]? with
  | none =>
    refine .inr ⟨fun p last => ?_, by rw [release_of_none found]⟩
    rw [IsLast, lender?, found] at last
    exact nomatch last.2
  | some x =>
    simp only [IsLast, holders, lender?, release, found, Option.map_some, Option.getD_some,
      Option.bind_some]
    split
    next p one lender => exact .inl ⟨p, ⟨one, lender⟩, rfl⟩
    next other => exact .inr ⟨fun p last => other p last.1 last.2, rfl⟩

theorem outstanding_release :
    (s.release b).outstanding q = s.outstanding q - if s.IsLast b q then 1 else 0 := by
  rcases s.release_pools b with ⟨p, last, pools⟩ | ⟨never, pools⟩
  · rw [outstanding, pools, List.getElem?_modify]
    by_cases same : p = q
    · subst same
      rw [if_pos last, outstanding]
      cases s.pools[p]? <;> simp [FramePool.giveBack]
    · have other : ¬ s.IsLast b q := fun h => same (Option.some.inj (last.2.symm.trans h.2))
      rw [if_neg other, outstanding]
      cases s.pools[q]? <;> simp [same]
  · rw [outstanding, pools, if_neg (never q)]
    rfl

theorem acquired_release : (s.release b).acquired q = s.acquired q := by
  rcases s.release_pools b with ⟨p, last, pools⟩ | ⟨never, pools⟩
  · rw [acquired, pools, List.getElem?_modify, acquired]
    cases s.pools[q]? with
    | none => rfl
    | some pool => by_cases same : p = q <;> simp [same, FramePool.giveBack]
  · rw [acquired, pools]
    rfl

theorem lent_release : (s.release b).lent q = s.lent q - if s.IsLast b q then 1 else 0 := by
  cases found : s.buffers[b]? with
  | none =>
    have never : ¬ s.IsLast b q := by
      rw [IsLast, lender?, found]
      exact fun last => nomatch last.2
    rw [release_of_none found, if_neg never]
    rfl
  | some x =>
    obtain ⟨inside, here⟩ := List.getElem?_eq_some_iff.1 found
    have last : s.IsLast b q ↔ x.holders = 1 ∧ x.lender = some q := by simp [IsLast, holders, lender?, found]
    have counted : SharedBuffer.isLent q x = true → 0 < s.buffers.countP (SharedBuffer.isLent q) :=
      fun lent => List.countP_pos_iff.2 ⟨x, List.mem_of_getElem? found, lent⟩
    rw [lent, release_of_some found, List.countP_set inside, here, lent]
    simp only [last]
    by_cases mine : x.lender = some q
    · simp only [SharedBuffer.isLent, mine, beq_self_eq_true, Bool.true_and, bne_iff_ne, and_true] at counted ⊢
      split <;> split <;> split <;> omega
    · simp [SharedBuffer.isLent, mine]

end Release

section Share

variable {s : BufferStore} {b : BufferId}

theorem lent_share (alive : 0 < s.holders b) (q : PoolId) : (s.share b).lent q = s.lent q := by
  have same : (s.share b).buffers.map (SharedBuffer.isLent q) = s.buffers.map (SharedBuffer.isLent q) := by
    apply List.ext_getElem?
    intro c
    simp only [share, List.getElem?_map, List.getElem?_modify]
    by_cases here : b = c
    · subst here
      cases found : s.buffers[b]? with
      | none => rfl
      | some x =>
        have held : x.holders ≠ 0 := by
          simp only [holders, found, Option.map_some, Option.getD_some] at alive
          omega
        simp [SharedBuffer.isLent, held]
    · cases s.buffers[c]? <;> simp [here]
  have counts := congrArg (List.count true) same
  simpa only [List.count_eq_countP, List.countP_map, Function.comp_def, beq_true, lent] using counts

end Share

/-! ### What trades keep -/

section Blind

variable {α : Type} (f : SharedBuffer → α) (blind : ∀ x n, f { x with holders := n } = f x)
include blind

/-- What does not depend on holders stays when a holder lets go. -/
theorem map_release (s : BufferStore) (b : BufferId) : (s.release b).buffers.map f = s.buffers.map f := by
  cases found : s.buffers[b]? with
  | none => rw [release_of_none found]
  | some x =>
    obtain ⟨inside, here⟩ := List.getElem?_eq_some_iff.1 found
    have bound : b < (s.buffers.map f).length := by rwa [List.length_map]
    have same : f x = (s.buffers.map f)[b] := by rw [List.getElem_map, here]
    rw [release_of_some found, List.map_set, blind, same, List.set_getElem_self]

/-- And when there is one more. -/
theorem map_share (s : BufferStore) (b : BufferId) : (s.share b).buffers.map f = s.buffers.map f := by
  apply List.ext_getElem?
  intro c
  simp only [share, List.getElem?_map, List.getElem?_modify]
  cases s.buffers[c]? with
  | none => rfl
  | some x => by_cases here : b = c <;> simp [here, blind]

end Blind

namespace Trade

variable {s s' : BufferStore}

/-- **A trade keeps the counters right.** -/
theorem leased {drawn : Option PoolId} (h : Trade s drawn s') (before : s.Leased) : s'.Leased := by
  intro q
  have count := before q
  cases h with
  | allocate planes =>
    have lent : (s.allocate planes none).2.lent q = s.lent q := by
      simp [lent, BufferStore.allocate, SharedBuffer.isLent]
    rw [lent]
    exact count
  | acquire acquired => rw [outstanding_acquire acquired, lent_acquire acquired, count]
  | share alive =>
    rw [lent_share alive]
    exact count
  | release b => rw [outstanding_release, lent_release, count]

theorem grows {drawn : Option PoolId} (h : Trade s drawn s') : s.Grows drawn.toList s' := by
  cases h with
  | allocate planes => exact ⟨[none], by simp [BufferStore.allocate], fun p => ⟨rfl, rfl⟩⟩
  | @acquire _ p _ acquired =>
    have counts := acquired_acquire acquired
    obtain ⟨pool, pool', planes, -, -, -, rfl⟩ := acquire_cases acquired
    refine ⟨[some p], by simp, fun q => ?_⟩
    rw [counts]
    by_cases same : q = p
    · simp [same]
    · simp [same, Ne.symm same]
  | @share b alive =>
    exact ⟨[], by rw [map_share SharedBuffer.lender (fun _ _ => rfl) s b, List.append_nil], fun _ => ⟨rfl, rfl⟩⟩
  | release b =>
    exact ⟨[], by rw [map_release SharedBuffer.lender (fun _ _ => rfl) s b, List.append_nil],
      fun p => ⟨rfl, acquired_release s b p⟩⟩

end Trade

namespace Trades

variable {s s' s'' : BufferStore} {ps ps' : List PoolId}

theorem trans (h : Trades s ps s') (h' : Trades s' ps' s'') : Trades s (ps ++ ps') s'' := by
  induction h with
  | refl => exact h'
  | head first _ ih =>
    rw [List.append_assoc]
    exact .head first (ih h')

theorem leased (h : Trades s ps s') (before : s.Leased) : s'.Leased := by
  induction h with
  | refl => exact before
  | head first _ ih => exact ih (first.leased before)

theorem grows (h : Trades s ps s') : s.Grows ps s' := by
  induction h with
  | refl s => exact .refl s
  | head first _ ih => exact first.grows.trans ih

end Trades

namespace Reaches

variable {s s' s'' : BufferStore}

theorem refl (s : BufferStore) : s.Reaches s := ⟨[], .refl s⟩

theorem of_eq (h : s' = s) : s.Reaches s' := h ▸ refl s

theorem single {drawn : Option PoolId} (h : Trade s drawn s') : s.Reaches s' := ⟨_, .head h (.refl s')⟩

theorem trans (h : s.Reaches s') (h' : s'.Reaches s'') : s.Reaches s'' := by
  obtain ⟨_, first⟩ := h
  obtain ⟨_, rest⟩ := h'
  exact ⟨_, first.trans rest⟩

theorem releaseAll (s : BufferStore) (buffers : List BufferId) : s.Reaches (s.releaseAll buffers) := by
  induction buffers generalizing s with
  | nil => exact refl s
  | cons b rest ih => exact (single (.release s b)).trans (ih (s.release b))

end Reaches

end BufferStore

open BufferStore

/-! ### Operations -/

/-- An event whose main frame the synchronizer keeps shares its buffer. -/
theorem DeviceState.sharing_reaches {s : DeviceState} {e : SyncEvent Picture}
    (alive : e.mainKept = true → 0 < s.store.holders e.main.content.buffer) :
    Reaches s.store (s.sharing e).store := by
  unfold sharing
  split
  next kept => exact .single (.share (alive kept))
  next => exact .refl _

theorem DeviceState.without_reaches (s : DeviceState) (frames : List Frame) :
    Reaches s.store (s.without frames).store := Reaches.releaseAll s.store (buffersOf frames)

namespace Picture

variable {p : Picture} {session : Session} {s s' : DeviceState}

theorem Rewritten.reaches {answer : Except OverlayError (Bool × Picture)}
    (h : p.Rewritten session s (answer, s')) : Reaches s.store s'.store := by
  cases h with
  | sole | barren => exact .refl _
  | undone _ acquired _ _ released | copied _ acquired _ _ released =>
    rw [released]
    exact (Reaches.single (.acquire acquired)).trans (.single (.release _ _))

/-- **A copy that fails gives its buffer back**, and the picture stays shared. -/
theorem Rewritten.undone_outstanding {e : OverlayError} (h : p.Rewritten session s (.error e, s')) :
    (∀ q, s'.store.outstanding q = s.store.outstanding q) ∧
      s'.store.holders p.buffer = s.store.holders p.buffer ∧ s.store.holders p.buffer ≠ 1 := by
  have shared (h : s.store.isExclusive p.buffer = false) : s.store.holders p.buffer ≠ 1 := fun one =>
    Bool.false_ne_true (h.symm.trans ((s.store.isExclusive_iff p.buffer).2 one))
  cases h with
  | barren several => exact ⟨fun _ => rfl, rfl, shared several⟩
  | undone several acquired _ _ released =>
    refine ⟨fun q => ?_, ?_, shared several⟩
    · rw [released, outstanding_release, outstanding_acquire acquired]
      simp only [isLast_acquire acquired]
      omega
    · rw [released, holders_release, holders_acquire acquired]
      omega

end Picture

namespace PlanePlan

variable {plan : PlanePlan} {session : Session} {main main' : Picture} {s s' : DeviceState}

theorem Composited.reaches {answer : Except OverlayError Nat}
    (h : plan.Composited session main s ((answer, main'), s')) : Reaches s.store s'.store := by
  cases h with
  | unplanned => exact .refl _
  | unwritable rewritten => exact rewritten.reaches
  | blended rewritten _ noted =>
    rw [noted.store]
    exact rewritten.reaches

/-- **A blend that leaves the picture in its buffer leaves the counters.** -/
theorem Composited.undone_outstanding {answer : Except OverlayError Nat}
    (h : plan.Composited session main s ((answer, main'), s')) (stays : main'.buffer = main.buffer)
    (old : main.buffer < s.store.buffers.length) (q : PoolId) :
    s'.store.outstanding q = s.store.outstanding q := by
  cases h with
  | unplanned => rfl
  | unwritable rewritten => exact rewritten.undone_outstanding.1 q
  | blended rewritten _ noted =>
    rw [noted.store]
    cases rewritten with
    | sole => rfl
    | copied _ acquired =>
      obtain ⟨rfl, -⟩ := acquire_ok acquired
      exact absurd old (Nat.not_lt_of_le (Nat.le_of_eq stays))

end PlanePlan

namespace Session

theorem Opened.reaches {device : DeviceContext} {s s' : DeviceState} {answer : Except OverlayError Session}
    (h : Opened device s (answer, s')) : Reaches s.store s'.store := by
  obtain ⟨_, noted, -⟩ := h.writes_nothing
  exact .of_eq noted.store

theorem Closing.reaches {session : Session} {s s' : DeviceState} {answer : Except OverlayError Unit}
    (h : Closing session s (answer, s')) : Reaches s.store s'.store := by
  obtain ⟨_, noted, -⟩ := h.writes_nothing
  exact .of_eq noted.store

end Session

namespace Pipeline

variable {p p' : Pipeline} {others : BufferId → Nat}

theorem Received.reaches {e : SyncEvent Picture} {answer : Except OverlayError Unit}
    (alive : e.mainKept = true → 0 < p.device.store.holders e.main.content.buffer)
    (h : Received p e (answer, p')) : Reaches p.device.store p'.device.store := by
  have shared := sharing_reaches alive
  cases h with
  | forwarded => exact shared
  | blended _ _ _ composited => exact shared.trans composited.reaches
  | spoiled _ _ _ composited => exact (shared.trans composited.reaches).trans (without_reaches _ _)

theorem Acted.reaches {order : FilterOrder} {answer : Except OverlayError Unit} (held : p.HeldBy others)
    (h : Acted p order (answer, p')) : Reaches p.device.store p'.device.store := by
  cases h with
  | quiet _ device => exact .of_eq (congrArg DeviceState.store device)
  | unopened _ _ _ _ _ _ opened => exact (without_reaches _ _).trans opened.reaches
  | configured _ _ _ _ _ _ opened => exact (without_reaches _ _).trans opened.reaches
  | advanced => exact without_reaches _ _
  | received event received =>
    exact (without_reaches p.device _).trans (received.reaches fun kept => held.alive event kept)
  | tornDown _ closing => exact closing.reaches
  | discarded closing =>
    exact ((without_reaches _ _).trans closing.reaches).trans (without_reaches _ _)

/-- An event whose main frame cannot be copied fails, and the counters are as they were before it. -/
theorem attempt_activate_uncopied {e : SyncEvent Picture} {stage : Stage} {overlay : Frame}
    {fault : OverlayError} {d : DeviceState} (configured : p.filter.outputInfo.isSome = true)
    (loaded : p.filter.stage = some stage)
    (event : (p.filter.sync.activate p.main p.overlay).1 = .event e) (covered : e.overlay = some overlay)
    (fits : stage.plan.fits e.main.content overlay.content = true)
    (uncopied : attempt (e.main.content.makeWritable stage.session) (p.advanced.device.sharing e) =
      (.error fault, d)) :
    (attempt activate p).1 = .error fault ∧
      ∀ q, (attempt activate p).2.device.store.outstanding q = p.advanced.device.store.outstanding q := by
  have blended (offset : OverlayOffset) : stage.plan.composite stage.session e.main.content overlay.content
      offset (p.advanced.device.sharing e) = ((.error fault, e.main.content), d) := by
    rcases run : e.main.content.makeWritable stage.session (p.advanced.device.sharing e) with ⟨_, _⟩ | ⟨_, _⟩
    · simp only [attempt, run] at uncopied
      cases uncopied
    · simp only [attempt, run] at uncopied
      injection uncopied with same same'
      injection same with same
      rw [PlanePlan.composite, if_pos fits, run, same, same']
  have received : attempt (receive e) p.advanced = (.error fault, { p.advanced with
      device := d.without [e.main], filter := p.advanced.filter.positionFor e overlay.content }) := by
    have ready : p.advanced.filter.stage = some stage := loaded
    rw [attempt_receive_covered covered ready, attempt_composite]
    dsimp only
    rw [blended]
  have run : attempt activate p = (.error fault, { p.advanced with
      device := d.without [e.main], filter := p.advanced.filter.positionFor e overlay.content }) := by
    have view := p.activated
    generalize attempt activate p = run at view ⊢
    cases view with
    | unready unready =>
      rw [configured, loaded] at unready
      cases unready
    | silent _ none =>
      rw [event] at none
      cases none
    | event _ _ same =>
      obtain rfl := Outcome.event.inj (event.symm.trans same)
      rw [received]
      rfl
  rw [run]
  refine ⟨rfl, fun q => ?_⟩
  have view := e.main.content.rewritten stage.session (p.advanced.device.sharing e)
  rw [uncopied] at view
  obtain ⟨counters, holders, shared⟩ := view.undone_outstanding
  have others : ¬ d.store.IsLast e.main.content.buffer q := fun last => shared (holders.symm.trans last.1)
  have same : (p.advanced.device.sharing e).store.outstanding q =
      p.advanced.device.store.outstanding q := by
    unfold sharing
    split <;> rfl
  show (d.store.release e.main.content.buffer).outstanding q = _
  rw [outstanding_release, if_neg others, counters, same]
  rfl

end Pipeline

/-! ### Leases of a studio -/

section Indices

variable {α : Type}

/-- What is counted of the entries of a list is counted of their places. -/
theorem countP_eq_length_places (l : List α) (q : α → Bool) :
    l.countP q = ((List.range l.length).filter fun i => l[i]?.any q).length := by
  have places : l.map some = (List.range l.length).map fun i => l[i]? := by
    apply List.ext_getElem?
    intro i
    rcases Nat.lt_or_ge i l.length with inside | outside
    · simp [inside]
    · simp [outside]
  have counts := congrArg (List.countP (Option.any q)) places
  rw [List.countP_map, List.countP_map] at counts
  rw [← List.countP_eq_length_filter]
  exact counts

end Indices

namespace Studio

/-- The buffers of a pool to which a frame refers. -/
def leases (w : Studio) (p : PoolId) : List BufferId :=
  (buffersOf w.live).dedup.filter fun b => w.device.store.lender? b == some p

/-- A buffer has a holder if a frame refers to it. -/
theorem lent_eq_leases {w : Studio} (accounted : w.Accounted) (p : PoolId) :
    w.device.store.lent p = (w.leases p).length := by
  rw [lent, countP_eq_length_places]
  refine List.Perm.length_eq ((List.perm_ext_iff_of_nodup ?_ ?_).2 fun b => ?_)
  · exact List.nodup_range.filter _
  · exact (List.nodup_dedup _).filter _
  · have referred : 0 < w.device.store.holders b ↔ b ∈ buffersOf w.live := by
      rw [accounted b, ← count_buffersOf, List.count_pos_iff]
    rw [leases, List.mem_filter, List.mem_filter, List.mem_dedup, ← referred, List.mem_range]
    simp only [holders, lender?]
    cases found : w.device.store.buffers[b]? with
    | none => simp
    | some x =>
      have inside := (List.getElem?_eq_some_iff.1 found).1
      simp [SharedBuffer.isLent, inside, Nat.pos_iff_ne_zero, and_comm]

end Studio

/-- The order is not about a pool itself. -/
def Order.IsAside (order : Order) : Prop :=
  ∀ pool, order ≠ .frame (.addPool pool) ∧ ∀ p, order ≠ .frame (.setPool p pool)

namespace Step

/-- The number of buffers of a pool that were made in a step. -/
def draws (s : Step) (p : PoolId) : Nat :=
  (s.after.device.store.buffers.drop s.before.device.store.buffers.length).countP fun x => x.lender == some p

/-- A new pool has handed out nothing, and one that is to behave differently keeps its counters. -/
def KeepsCounters (s : Step) : Prop :=
  match s.order with
  | .frame (.addPool pool) => pool.acquired = 0 ∧ pool.outstanding = 0
  | .frame (.setPool p pool) => ∀ old ∈ s.before.device.store.pools[p]?,
    pool.acquired = old.acquired ∧ pool.outstanding = old.outstanding
  | _ => True

/-- Orders that are not about a pool itself keep all counters. -/
theorem keepsCounters_of_aside {w : Studio} {order : Order} (aside : order.IsAside) :
    (w.step order).KeepsCounters := by
  unfold KeepsCounters
  split
  next pool on => exact absurd on (aside pool).1
  next p pool on => exact absurd on ((aside pool).2 p)
  trivial

theorem draws_eq {s : Step} {lenders : List (Option PoolId)}
    (grown : s.after.device.store.buffers.map SharedBuffer.lender =
      s.before.device.store.buffers.map SharedBuffer.lender ++ lenders) (p : PoolId) :
    s.draws p = lenders.count (some p) := by
  have new : (s.after.device.store.buffers.drop s.before.device.store.buffers.length).map
      SharedBuffer.lender = lenders := by
    rw [List.map_drop, grown, List.drop_left' (List.length_map _)]
  rw [← new, List.count_eq_countP, List.countP_map]
  rfl

end Step

namespace Studio

variable {w : Studio}

/-- Orders about frames are trades. -/
theorem performFrame_reaches (accounted : w.Accounted) (order : FrameOrder)
    (aside : (Order.frame order).IsAside) :
    Reaches w.device.store (w.performFrame order).2.device.store := by
  unfold performFrame
  cases order with
  | make planes frame => exact .single (.allocate _ _)
  | draw pool frame =>
    dsimp only
    split
    · exact .refl _
    next acquired => exact .single (.acquire acquired)
  | clone i =>
    dsimp only
    split
    · exact .refl _
    next frame found =>
    have alive : 0 < w.device.store.holders frame.content.buffer := by
      rw [accounted, references_live]
      have there := references_pos (List.mem_of_getElem? found)
      omega
    exact .single (.share alive)
  | alter i frame => exact .refl _
  | drop i =>
    dsimp only
    split
    · exact .refl _
    next frame _ => exact .single (.release _ _)
  | addPool pool => exact absurd rfl (aside pool).1
  | setPool p pool => exact absurd rfl ((aside pool).2 p)

/-- **Every order that is not about a pool itself is a row of trades.** -/
theorem perform_reaches (accounted : w.Accounted) (order : Order) (aside : order.IsAside) :
    Reaches w.device.store (w.perform order).2.device.store := by
  have view := w.performed order
  generalize w.perform order = result at view ⊢
  cases view with
  | framed order => exact performFrame_reaches accounted order aside
  | absent | uncreated | created => exact .refl _
  | unopened opened | opened opened => exact opened.reaches
  | entered _ entering =>
    cases entering with
    | shut => exact .refl _
    | pushed _ noted => exact .of_eq noted.store
  | left =>
    obtain ⟨_, _, noted⟩ := DeviceM.noted_leave w.device
    exact .of_eq noted.store
  | closed _ _ closing => exact closing.reaches
  | rewritten _ _ rewritten | unwritable _ _ rewritten => exact rewritten.reaches
  | blended _ _ _ composited => exact composited.reaches
  | filtered found _ acted => exact acted.reaches (accounted.pipeline found)

/-- **Every order keeps the counters of every pool right.** -/
theorem perform_leased (accounted : w.Accounted) (leased : w.device.store.Leased) (order : Order)
    (keeps : (w.step order).KeepsCounters) : (w.perform order).2.device.store.Leased ∧
      ∃ ps, w.device.store.Grows ps (w.perform order).2.device.store ∧
        (order.IsAside → Trades w.device.store ps (w.perform order).2.device.store) := by
  have of_trades (aside : order.IsAside) : (w.perform order).2.device.store.Leased ∧
      ∃ ps, w.device.store.Grows ps (w.perform order).2.device.store ∧
        (order.IsAside → Trades w.device.store ps (w.perform order).2.device.store) := by
    obtain ⟨ps, trades⟩ := perform_reaches accounted order aside
    exact ⟨trades.leased leased, ps, trades.grows, fun _ => trades⟩
  -- a pool that is new or replaced has the counters of the pool before it
  have of_counters (pools : List FramePool) (about : ¬ order.IsAside)
      (same : ∀ q, (pools[q]?.map FramePool.outstanding).getD 0 = w.device.store.outstanding q ∧
        (pools[q]?.map FramePool.acquired).getD 0 = w.device.store.acquired q) :
      Leased ⟨w.device.store.buffers, pools⟩ ∧ ∃ ps, w.device.store.Grows ps ⟨w.device.store.buffers, pools⟩ ∧
        (order.IsAside → Trades w.device.store ps ⟨w.device.store.buffers, pools⟩) :=
    ⟨fun q => (same q).1.trans (leased q), [],
      ⟨[], (List.append_nil _).symm, fun q => ⟨rfl, (same q).2⟩⟩, fun aside => absurd aside about⟩
  cases order with
  | frame order =>
    cases order with
    | addPool pool =>
      obtain ⟨acquired, outstanding⟩ : pool.acquired = 0 ∧ pool.outstanding = 0 := keeps
      refine of_counters (w.device.store.pools ++ [pool]) (fun aside => (aside pool).1 rfl) fun q => ?_
      rcases Nat.lt_trichotomy q w.device.store.pools.length with old | rfl | beyond
      · simp [BufferStore.outstanding, BufferStore.acquired, List.getElem?_append_left old]
      · simp [BufferStore.outstanding, BufferStore.acquired, acquired, outstanding]
      · have outside : (w.device.store.pools ++ [pool]).length ≤ q := by
          rw [List.length_append]
          exact beyond
        simp only [BufferStore.outstanding, BufferStore.acquired, List.getElem?_eq_none outside,
          List.getElem?_eq_none (Nat.le_of_lt beyond), and_self]
    | setPool p pool =>
      have counters : ∀ old ∈ w.device.store.pools[p]?, pool.acquired = old.acquired ∧
          pool.outstanding = old.outstanding := keeps
      refine of_counters (w.device.store.pools.set p pool) (fun aside => (aside pool).2 p rfl) fun q => ?_
      simp only [BufferStore.outstanding, BufferStore.acquired, List.getElem?_set]
      split
      next same =>
        subst same
        cases found : w.device.store.pools[p]? with
        | none => simp [Nat.not_lt_of_le (List.getElem?_eq_none_iff.1 found)]
        | some old =>
          obtain ⟨acquired, outstanding⟩ := counters old found
          simp [(List.getElem?_eq_some_iff.1 found).1, acquired, outstanding]
      next => exact ⟨rfl, rfl⟩
    | make | draw | clone | alter | drop => exact of_trades fun _ => ⟨nofun, nofun⟩
  | openSession | session | leave | newFilter | filter => exact of_trades fun _ => ⟨nofun, nofun⟩

/-! ### Orders that fail -/

/-- Copy on write that fails leaves the counters. -/
theorem outstanding_unwritable {k i : Nat} {e : OverlayError}
    (failed : (w.perform (.session k (.makeWritable i))).1 = .error e) (p : PoolId) :
    (w.perform (.session k (.makeWritable i))).2.device.store.outstanding p =
      w.device.store.outstanding p := by
  have view := w.performed (.session k (.makeWritable i))
  generalize w.perform (.session k (.makeWritable i)) = answer at view failed ⊢
  cases view with
  | absent => rfl
  | closed _ closes => exact nomatch closes
  | rewritten => exact nomatch failed
  | unwritable _ _ rewritten => exact rewritten.undone_outstanding.1 p

/-- So does a blend after which the frame is what it was. -/
theorem outstanding_unblended {k i j : Nat} {plan : PlanePlan} {offset : OverlayOffset}
    (accounted : w.Accounted)
    (stays : (w.perform (.session k (.composite plan i j offset))).2.frames[i]? = w.frames[i]?)
    (p : PoolId) : (w.perform (.session k (.composite plan i j offset))).2.device.store.outstanding p =
      w.device.store.outstanding p := by
  have view := w.performed (.session k (.composite plan i j offset))
  generalize w.perform (.session k (.composite plan i j offset)) = answer at view stays ⊢
  cases view with
  | absent => rfl
  | closed _ closes => exact nomatch closes
  | @blended _ _ _ _ _ _ main _ picture _ _ _ held composited =>
    have inside := (List.getElem?_eq_some_iff.1 held).1
    have same : ({ main with content := picture } : Frame) = main := by
      rw [held, List.getElem?_set_self inside] at stays
      exact Option.some.inj stays
    have alive : 0 < w.device.store.holders main.content.buffer := by
      have one := accounted.held held main.content.buffer
      rw [if_pos rfl] at one
      omega
    exact composited.undone_outstanding (congrArg (fun f : Frame => f.content.buffer) same)
      (lt_of_holders alive) p

end Studio

/-! ### Runs -/

/-- The activation comes to an event whose main frame must be copied, and cannot be. -/
structure Step.Uncopied (s : Step) (p : Pipeline) (fault : OverlayError) : Prop where
  line : ∃ n line, s.order = .filter n .activate ∧ s.before.line? n = some line ∧ p = s.before.pipeline line
  configured : p.filter.outputInfo.isSome = true
  copy : ∃ stage e overlay d, p.filter.stage = some stage ∧
    (p.filter.sync.activate p.main p.overlay).1 = .event e ∧ e.overlay = some overlay ∧
    stage.plan.fits e.main.content overlay.content = true ∧
    attempt (e.main.content.makeWritable stage.session) (p.advanced.device.sharing e) = (.error fault, d)

/-- What a step does to the counters of the pools. -/
structure LeaseLaw (s : Step) : Prop where
  /-- A pool has outstanding those of its buffers to which a frame refers. -/
  outstanding : ∀ p, s.after.device.store.outstanding p = (s.after.leases p).length
  /-- Without such frames it has nothing outstanding. -/
  returned : ∀ p, (∀ f ∈ s.after.live, s.after.device.store.lender? f.content.buffer ≠ some p) →
    s.after.device.store.outstanding p = 0
  /-- What a pool counts as handed out grows by the acquisitions that succeed, of which each makes a buffer. -/
  acquired : ∃ ps, (s.order.IsAside → Trades s.before.device.store ps s.after.device.store) ∧
    ∀ p, s.after.device.store.acquired p = s.before.device.store.acquired p + ps.count p ∧
      s.draws p = ps.count p
  /-- Copy on write that fails leaves nothing outstanding besides. -/
  unwritable : ∀ k i e, s.order = .session k (.makeWritable i) → s.result = .error e →
    ∀ p, s.after.device.store.outstanding p = s.before.device.store.outstanding p
  /-- Nor does a blend that fails before the frame has its copy. -/
  unblended : ∀ k plan i j offset e, s.order = .session k (.composite plan i j offset) →
    s.result = .error e → s.after.frames[i]? = s.before.frames[i]? →
    ∀ p, s.after.device.store.outstanding p = s.before.device.store.outstanding p
  /-- Nor does an event; what the synchronizer let go of before it is let go of. -/
  uncopied : ∀ p fault, s.Uncopied p fault → s.result = .error fault ∧
    ∀ q, s.after.device.store.outstanding q = p.advanced.device.store.outstanding q

namespace Studio

variable {w : Studio}

/-- An activation that comes to such an event. -/
theorem outstanding_uncopied {order : Order} {p : Pipeline} {fault : OverlayError}
    (h : (w.step order).Uncopied p fault) : (w.step order).result = .error fault ∧
      ∀ q, (w.step order).after.device.store.outstanding q = p.advanced.device.store.outstanding q := by
  obtain ⟨n, line, on, live, rfl⟩ := h.line
  obtain rfl : order = .filter n .activate := on
  obtain ⟨stage, e, overlay, d, loaded, event, covered, fits, failed⟩ := h.copy
  have facts : (attempt Pipeline.activate (w.pipeline line)).1 = .error fault ∧
      ∀ q, (attempt Pipeline.activate (w.pipeline line)).2.device.store.outstanding q =
        (w.pipeline line).advanced.device.store.outstanding q :=
    Pipeline.attempt_activate_uncopied h.configured loaded event covered fits failed
  obtain ⟨result, counters⟩ := facts
  have run : attempt FilterOrder.activate.body (w.pipeline line) = _ :=
    attempt_forget Pipeline.activate (w.pipeline line)
  have performed : w.perform (.filter n .activate) = w.performFilter n line .activate :=
    perform_filter live .activate
  constructor
  · show (w.perform (.filter n .activate)).1 = _
    rw [performed, performFilter, run, result]
    rfl
  · intro q
    show (w.perform (.filter n .activate)).2.device.store.outstanding q = _
    rw [performed, performFilter, run]
    exact counters q

theorem lawful_perform (accounted : w.Accounted) (leased : w.device.store.Leased) (order : Order)
    (keeps : (w.step order).KeepsCounters) :
    LeaseLaw (w.step order) ∧ (w.perform order).2.Accounted ∧ (w.perform order).2.device.store.Leased := by
  have after := (isolated_perform w order accounted).2
  obtain ⟨right, ps, ⟨lenders, grown, counted⟩, trades⟩ := perform_leased accounted leased order keeps
  have outstanding (p : PoolId) : (w.perform order).2.device.store.outstanding p =
      ((w.perform order).2.leases p).length := (right p).trans (lent_eq_leases after p)
  refine ⟨?_, after, right⟩
  exact
    { outstanding
      returned := fun p gone => by
        refine (outstanding p).trans (List.length_eq_zero_iff.2 (List.filter_eq_nil_iff.2 fun b member => ?_))
        obtain ⟨f, live, rfl⟩ := List.mem_map.1 (List.mem_dedup.1 member)
        exact fun lender => gone f live (beq_iff_eq.1 lender)
      acquired := ⟨ps, trades, fun p => ⟨(counted p).2, (Step.draws_eq grown p).trans (counted p).1⟩⟩
      unwritable := fun k i e on failed p => by
        obtain rfl : order = _ := on
        exact outstanding_unwritable failed p
      unblended := fun k plan i j offset e on _ stays p => by
        obtain rfl : order = _ := on
        exact outstanding_unblended accounted stays p
      uncopied := fun p fault h => outstanding_uncopied h }

/-- **No buffer of a pool is lost, and none is given back early.**  Take a driver with any faults, pools that
may fail at any time, and any orders.  After every step a pool has outstanding exactly those of its buffers
to which some frame refers, it has counted the buffers that it made, and a copy that failed has left no
trace. -/
theorem leases_lawful (faults : FaultPlan) (orders : List Order)
    (keeps : ∀ s ∈ (empty faults).steps orders, s.KeepsCounters) :
    ∀ s ∈ (empty faults).steps orders, LeaseLaw s := by
  let Inv (w : Studio) : Prop := w.Accounted ∧ w.device.store.Leased
  have keep (w : Studio) (order : Order) (inv : Inv w) (counters : (w.step order).KeepsCounters) :
      LeaseLaw (w.step order) ∧ Inv (w.perform order).2 :=
    lawful_perform inv.1 inv.2 order counters
  have start : Inv (empty faults) := ⟨accounted_empty faults, fun _ => rfl⟩
  obtain ⟨lawful, -⟩ := steps_keep keep _ start orders keeps
  exact lawful

/-- A frame is cloned and made writable; the first copy fails, the second does not, and then both frames are
dropped. -/
theorem leases_lawful_cloned :
    let frame : Frame := ⟨⟨0, .nv12, 4, 4, none, some ⟨⟨1, 2⟩, .nv12, 4, 4, some 0⟩⟩, none⟩
    let orders : List Order := [.frame (.addPool (.new .nv12 4 4)), .frame (.draw 0 frame),
      .frame (.clone 0), .openSession ⟨1, 2⟩ ⟨[7, 0]⟩, .session 0 (.makeWritable 0),
      .session 0 (.makeWritable 0), .frame (.drop 0), .frame (.drop 0)]
    let steps := (Studio.empty { copy := Fault.only 0 200 }).steps orders
    (steps.map fun s => (s.result.isOk, s.after.device.store.outstanding 0, s.after.device.store.acquired 0)) =
        [(true, 0, 0), (true, 1, 1), (true, 1, 1), (true, 1, 1), (false, 1, 2), (true, 2, 3), (true, 1, 3),
          (true, 0, 3)] ∧
      ∀ s ∈ steps, LeaseLaw s := by
  intro frame orders steps
  have keeps : ∀ s ∈ steps, s.KeepsCounters := by
    simp only [steps, orders, Studio.steps, List.forall_mem_cons]
    refine ⟨⟨rfl, rfl⟩, ?_, ?_, ?_, ?_, ?_, ?_, ?_, fun _ h => absurd h List.not_mem_nil⟩ <;>
      exact Step.keepsCounters_of_aside fun _ => ⟨(by intro about; cases about), by intro _ about; cases about⟩
  exact ⟨by decide +kernel, leases_lawful _ orders keeps⟩

end Studio

end FrameOverlay
