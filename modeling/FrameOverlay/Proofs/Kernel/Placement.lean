import FrameOverlay.Proofs.Kernel.Blends

/-!
# Where a blend draws

The overlay keeps its place on every plane, up to the division of its offset and its size.  Two places are
delicate.  Without a position the overlay is put to the right of every plane, but a plane of halved width can
reach a halved column; and interleaved chroma is not halved in width, so an odd overlay ends within a pair.

* `XPosition.IsEven` — no position but an even column, or none;
* `Picture.Pooled`, `PlanePlan.Canvas` — the planes that a blend draws on, copied or not;
* `PlanePlan.launches_on` — each launch by its place: of which step it is, on which canvas;
* `PlanePlan.composite_unset` — **an unset position draws nothing**, but one column of the widest chroma
  planes there can be;
* `PlanePlan.PairLaw`, `PlanePlan.composite_pairs` — **pairs of chroma bytes stay whole**, but the last one
  under an overlay of odd width.
-/

namespace FrameOverlay

open DeviceState DeviceM Session

/-! ### Positions -/

namespace XPosition

/-- An even column, or none. -/
def IsEven : XPosition → Prop
  | aligned column => column.toInt % 2 = 0
  | unset => True

theorem isEven_ofFloat (v : Float) : (ofFloat v).IsEven := by
  unfold ofFloat
  split
  · trivial
  · rw [IsEven, toInt_evenColumn, Int.mul_emod_right]

end XPosition

/-! ### The planes that are drawn on -/

/-- The pool of the picture's link gives buffers for the picture's format. -/
def Picture.Pooled (p : Picture) (store : BufferStore) : Prop :=
  ∀ n pool, p.pool? = some n → store.pools[n]? = some pool → pool.format = p.format

theorem Picture.pooled_of_pool {p : Picture} {store : BufferStore} {n : PoolId} {pool : FramePool}
    (link : p.pool? = some n) (found : store.pools[n]? = some pool) (same : pool.format = p.format) :
    p.Pooled store := by
  intro n' pool' link' found'
  obtain rfl := Option.some.inj (link.symm.trans link')
  obtain rfl := Option.some.inj (found.symm.trans found')
  exact same

/-- A picture that is laid out by its format and size has planes of the right sizes. -/
theorem Picture.shaped_of_layout {p : Picture} {store : BufferStore} (base : UInt64) {align : Nat}
    (word : align < UInt64.size)
    (laid : store.planes p.buffer = DevicePlane.layout base p.format p.width p.height align) :
    p.Shaped store where
  extents := by
    rw [laid]
    exact DevicePlane.map_extent_stack _ _ _
  pitches plane listed := by
    rw [laid] at listed
    exact (DevicePlane.pitch_layout word listed).1.2

theorem PixelFormat.rowBytes_luma (f : PixelFormat) (width height : UInt32) :
    (f.planeExtent 0 width height).rowBytes = width.toNat * f.bytesPerSample := by
  cases f <;> rfl

theorem PixelFormat.bytesPerSample_pos (f : PixelFormat) : 0 < f.bytesPerSample := by
  cases f <;> decide

/-- Each plane finds a target that is wide enough. -/
theorem Accommodates.rowBytes {targets sources : List DevicePlane} (room : Accommodates targets sources)
    {i : Nat} {source : DevicePlane} (here : sources[i]? = some source) :
    ∃ target, targets[i]? = some target ∧ source.rowBytes ≤ target.rowBytes := by
  induction room generalizing i with
  | nil => exact nomatch here
  | cons wide _ _ ih =>
    cases i with
    | zero => exact ⟨_, rfl, Option.some.inj here ▸ wide⟩
    | succ i => exact ih here

namespace PlanePlan

/-- The planes that a blend draws on: those of a picture of the main picture's format, and as wide.  If it is
wider then they are a pool's. -/
structure Canvas (main : Picture) (planes : List DevicePlane) (width height : UInt32) : Prop where
  extents : planes.map DevicePlane.extent = main.format.extents width height
  roomy : ∀ plane ∈ planes, plane.Roomy
  enough : main.width.toNat ≤ width.toNat
  pooled : width = main.width ∨ ∀ plane ∈ planes, FramePool.pitchAlign ∣ plane.pitch

variable {plan : PlanePlan} {session : Session} {main main' overlay : Picture} {offset : OverlayOffset}
  {s s₁ : DeviceState}

theorem canvas_of_shaped (shaped : main.Shaped s.store) :
    Canvas main (s.store.planes main.buffer) main.width main.height where
  extents := shaped.extents
  roomy _ := shaped.roomy
  enough := Nat.le_refl _
  pooled := .inl rfl

/-- What copy on write gives to draw on. -/
theorem canvas_of_written (shaped : main.Shaped s.store) (pooled : main.Pooled s.store) {copied : Bool}
    (written : attempt (main.makeWritable session) s = (.ok (copied, main'), s₁)) :
    ∃ width height, Canvas main (s₁.store.planes main'.buffer) width height := by
  have view := main.written session (main.pool?.map .ofPool) s
  rw [← Picture.makeWritable_eq, written] at view
  cases view with
  | sole => exact ⟨_, _, canvas_of_shaped shaped⟩
  | @copied _ fresh store t _ given drawn done =>
    obtain ⟨n, link, rfl⟩ := Option.map_eq_some_iff.1 given
    have acquired : s.store.acquire n = .ok (fresh, store) := drawn
    obtain ⟨⟨pool, found, planes⟩, old⟩ := BufferStore.acquire_planes acquired
    obtain ⟨_, _, _, _, -, room, noted⟩ := Picture.copyBuffer_ok done
    have stays : t.store = store := noted.store
    have format := pooled n pool link found
    simp only at room
    rw [old main.buffer shaped.inside] at room
    simp only [BufferStore.planes_release, stays]
    have extents : (store.planes fresh).map DevicePlane.extent =
        main.format.extents pool.width pool.height := by
      rw [planes, ← format]
      exact DevicePlane.map_extent_stack _ _ _
    refine ⟨pool.width, pool.height, extents, fun plane listed => ?_, ?_, .inr fun plane listed => ?_⟩
    · rw [planes] at listed
      exact FramePool.roomy listed
    · obtain ⟨source, here⟩ : ∃ source, (s.store.planes main.buffer)[0]? = some source := by
        refine ⟨_, List.getElem?_eq_getElem ?_⟩
        have count := congrArg List.length shaped.extents
        rw [List.length_map, List.length_map, List.length_range] at count
        exact count ▸ main.format.planeCount_pos
      obtain ⟨target, there, wide⟩ := room.rowBytes here
      have narrow := congrArg PlaneExtent.rowBytes (shaped.extent here)
      have broad := congrArg PlaneExtent.rowBytes (DevicePlane.extent_of_extents extents there)
      rw [PixelFormat.rowBytes_luma] at narrow broad
      have wide : main.width.toNat * main.format.bytesPerSample ≤
          pool.width.toNat * main.format.bytesPerSample := narrow ▸ broad ▸ wide
      exact Nat.le_of_mul_le_mul_right wide main.format.bytesPerSample_pos
    · rw [planes] at listed
      exact (DevicePlane.pitch_layout (by decide) listed).1.1

/-- The moment is the launch of the step at place `i` of the plan, drawn on `planes`. -/
def Places (plan : PlanePlan) (overlay : Picture) (offset : OverlayOffset) (planes : List DevicePlane)
    (i : Nat) (m : Moment) : Prop :=
  ∃ step record launch overlayPlanes mainPlane overlayPlane, plan.steps[i]? = some step ∧
    m.call = .launch record ∧
    Drawn step overlay offset planes overlayPlanes record launch mainPlane overlayPlane

/-- Every launch is of the step at its place, and all are on one canvas. -/
def OnCanvas (plan : PlanePlan) (main overlay : Picture) (offset : OverlayOffset) (ms : List Moment) : Prop :=
  ∃ planes width height, Canvas main planes width height ∧
    ∀ (i : Nat) (m : Moment), (ms.filter Moment.isLaunch)[i]? = some m →
      plan.fits main overlay = true ∧ plan.Places overlay offset planes i m

theorem onCanvas_of_silent (shaped : main.Shaped s.store) {ms : List Moment}
    (silent : ∀ m ∈ ms, m.isLaunch = false) : plan.OnCanvas main overlay offset ms := by
  refine ⟨_, _, _, canvas_of_shaped shaped, fun i m here => ?_⟩
  rw [Moment.filter_isLaunch silent] at here
  exact nomatch here

theorem composite_onCanvas (shaped : main.Shaped s.store) (pooled : main.Pooled s.store)
    {ms : List Moment}
    (history : (plan.composite session main overlay offset s).2.history = s.history ++ ms) :
    plan.OnCanvas main overlay offset ms := by
  have view := plan.composing session main overlay offset s
  generalize plan.composite session main overlay offset s = result at history view
  cases view with
  | unplanned =>
    obtain rfl := List.self_eq_append_right.1 history
    exact onCanvas_of_silent shaped fun _ h => absurd h List.not_mem_nil
  | unwritable _ shared =>
    have rewritten := main.rewritten session s
    rw [shared] at rewritten
    obtain ⟨ms', calls, silent⟩ := rewritten.no_launch
    obtain rfl := List.append_cancel_left (calls.symm.trans history)
    exact onCanvas_of_silent shaped silent
  | @writable _ main' s₁ _ _ fits written blended =>
    obtain ⟨copies, before, quiet⟩ := Picture.quiet_of_ok written
    obtain ⟨ms', issued, noted, front, all, -⟩ := plan.blend_issues session main' overlay offset s₁
    rw [blended] at noted
    have calls := noted.history
    rw [before, List.append_assoc] at calls
    obtain rfl := List.append_cancel_left (calls.symm.trans history)
    obtain ⟨width, height, canvas⟩ := canvas_of_written shaped pooled written
    refine ⟨_, width, height, canvas, fun i m here => ⟨fits, ?_⟩⟩
    rw [List.filter_append, Moment.filter_isLaunch fun m hm => (quiet m hm).1, List.nil_append] at here
    obtain ⟨step, listed, device, record, -, call, made⟩ := getElem?_of_forall₂ all.launches here
    obtain ⟨launch, mainPlane, overlayPlane, d⟩ := drawn made
    have during := all.stores m (List.mem_of_mem_filter (List.mem_of_getElem? here))
      (Moment.isLaunch_of_launch call)
    rw [during] at d
    obtain ⟨rest, whole⟩ := front
    refine ⟨step, record, launch, _, mainPlane, overlayPlane, ?_, call, d⟩
    rw [← whole, List.getElem?_append_left (List.getElem?_eq_some_iff.1 listed).1, listed]

/-! ### Plans -/

/-- There are two kinds of plans, by the format of the main picture. -/
theorem steps_cases {f g : PixelFormat} (planned : ofFormats f g = .ok plan) :
    (f = .nv12 ∧ plan.steps = [lumaStep none, packedChromaStep]) ∨
      ∃ alpha, f = .yuv420p ∧
        plan.steps = [lumaStep alpha, planarChromaStep alpha 1, planarChromaStep alpha 2] := by
  cases f <;> cases g <;> first
    | exact .inl ⟨rfl, by rw [← Except.ok.inj planned]; rfl⟩
    | exact .inr ⟨_, rfl, by rw [← Except.ok.inj planned]; rfl⟩
    | exact nomatch planned

theorem format_of_fits {f g : PixelFormat} (planned : ofFormats f g = .ok plan)
    (fits : plan.fits main overlay = true) : main.format = f := by
  obtain ⟨_, -, rfl⟩ := ofFormats_ok planned
  exact eq_of_beq (Bool.and_eq_true_iff.1 fits).1

end PlanePlan

/-! ### Without a position -/

/-- The parameters of a launch. -/
def Moment.launch? (m : Moment) : Option OverlayLaunch :=
  match m.call with
  | .launch record => OverlayLaunch.ofArguments? record.arguments
  | _ => none

namespace PlanePlan

section Unset

variable {step : PlaneStep} {overlay : Picture} {offset : OverlayOffset}
  {mainPlanes overlayPlanes : List DevicePlane} {record : LaunchRecord} {launch : OverlayLaunch}
  {mainPlane overlayPlane : DevicePlane}
  (d : Drawn step overlay offset mainPlanes overlayPlanes record launch mainPlane overlayPlane)

include d

theorem Drawn.launch?_eq {m : Moment} (call : m.call = .launch record) : m.launch? = some launch := by
  rw [Moment.launch?, call]
  exact d.decoded

/-- A row is not longer than a word with a sign counts. -/
theorem Drawn.pitch_le : (mainPlane.pitch : Int) ≤ Int32.maxValue.toInt := by
  rw [← (planeArgument_ok d.main_argument).1.stride]
  exact Int32.toInt_le _

variable (roomy : mainPlane.Roomy)

include roomy

theorem Drawn.toInt_extent : launch.extent.x.toInt =
    max 0 (min (step.overlayExtent overlay.width overlay.height).x.toInt
      (mainPlane.rowBytes - (step.offset offset).x.toInt)) := by
  rw [d.extent]
  exact toInt_visibleExtent _ _ (near_of_small _ (d.narrow roomy))

/-- On a plane of full width nothing of the overlay is left. -/
theorem Drawn.unset_full (unset : offset.x = .unset) (full : step.offsetReduction.x = 0) :
    launch.extent.x = 0 := by
  have wide := roomy.pitch
  have pitch := d.pitch_le
  have origin : (step.offset offset).x.toInt = Int32.maxValue.toInt := by
    rw [PlaneStep.offset, unset, full]
    exact (by decide : (PlaneStep.reduced XPosition.unsetColumn 0).toInt = Int32.maxValue.toInt)
  refine Int32.toInt_inj.1 ?_
  rw [d.toInt_extent roomy, origin, Int32.toInt_zero]
  omega

/-- On a plane of half the width of a `width` pixels wide picture a column is left, if the picture is as wide
as a word with a sign counts. -/
theorem Drawn.unset_halved (unset : offset.x = .unset) (halved : step.offsetReduction.x = 1)
    (halved' : step.overlayReduction.x = 1) {width : Nat} (small : (width : Int) ≤ Int32.maxValue.toInt)
    (size : mainPlane.rowBytes = PixelFormat.subsampled width 1) :
    launch.extent.x = if width = Int32.maxValue.toInt ∧ 2 ≤ overlay.width.toNat then 1 else 0 := by
  have origin : (step.offset offset).x.toInt = 1073741823 := by
    rw [PlaneStep.offset, unset, halved]
    exact (by decide : (PlaneStep.reduced XPosition.unsetColumn 1).toInt = 1073741823)
  have word := overlay.width.toNat_lt
  have extent : (step.overlayExtent overlay.width overlay.height).x.toInt =
      (overlay.width.toNat / 2 : Nat) := by
    rw [PlaneStep.overlayExtent, halved', Nat.shiftRight_succ, Nat.shiftRight_zero]
    exact Int32.toInt_ofNat_of_lt (by omega)
  have drawn := d.toInt_extent roomy
  rw [origin, extent, size] at drawn
  simp only [PixelFormat.subsampled, Nat.reduceShiftLeft] at drawn
  rw [show Int32.maxValue.toInt = 2147483647 from rfl] at small ⊢
  refine Int32.toInt_inj.1 ?_
  split
  · rw [drawn, Int32.toInt_one]
    omega
  · rw [drawn, Int32.toInt_zero]
    omega

end Unset

/-- What there is of a planar picture is not wider than a word with a sign counts, if there is a launch on its
luma.  It is as wide as that only if it has not been copied, as the rows of a pool are never that long. -/
theorem Canvas.width_bounds {main overlay : Picture} {planes overlayPlanes : List DevicePlane}
    {width height : UInt32} (canvas : Canvas main planes width height) (format : main.format = .yuv420p)
    {alpha : Option Nat} {offset : OverlayOffset} {record : LaunchRecord} {launch : OverlayLaunch}
    {luma overlayPlane : DevicePlane}
    (d : Drawn (lumaStep alpha) overlay offset planes overlayPlanes record launch luma overlayPlane) :
    (width.toNat : Int) ≤ Int32.maxValue.toInt ∧
      (width.toNat = Int32.maxValue.toInt ↔ main.width.toNat = Int32.maxValue.toInt) := by
  have listed := List.mem_of_getElem? d.main_at
  have size := congrArg PlaneExtent.rowBytes (DevicePlane.extent_of_extents canvas.extents d.main_at)
  rw [format] at size
  have full : luma.rowBytes = width.toNat := size.trans (Nat.mul_one _)
  have wide := (canvas.roomy luma listed).pitch
  have pitch := d.pitch_le
  have enough := canvas.enough
  rw [show Int32.maxValue.toInt = 2147483647 from rfl] at pitch ⊢
  refine ⟨by omega, fun widest => ?_, fun widest => by omega⟩
  rcases canvas.pooled with own | aligned
  · rw [← own]
    exact widest
  · have aligned := aligned luma listed
    rw [show FramePool.pitchAlign = 256 from rfl] at aligned
    omega

/-- **An unset position draws nothing**, but for one case.  For every accepted pair of formats, a main picture
with planes of the sizes of its format and any overlay: each launch of a blend has no columns left to draw,
unless it is on a chroma plane of half the width of a main picture as wide as a word with a sign counts.  The
column that stands for no position is halved there too, and is the last column of that plane. -/
theorem composite_unset {f g : PixelFormat} {plan : PlanePlan} (planned : ofFormats f g = .ok plan)
    (session : Session) {main : Picture} (overlay : Picture) (y : Int32) {s : DeviceState}
    (shaped : main.Shaped s.store) (pooled : main.Pooled s.store) {ms : List Moment}
    (history : (plan.composite session main overlay ⟨.unset, y⟩ s).2.history = s.history ++ ms) :
    ∀ (i : Nat) (m : Moment), (ms.filter Moment.isLaunch)[i]? = some m →
      ∃ launch, m.launch? = some launch ∧ launch.extent.x =
        if 0 < i ∧ f = .yuv420p ∧ main.width.toNat = Int32.maxValue.toInt ∧ 2 ≤ overlay.width.toNat
        then 1 else 0 := by
  intro i m here
  obtain ⟨planes, width, height, canvas, launches⟩ := composite_onCanvas shaped pooled history
  obtain ⟨fits, step, record, launch, _, mainPlane, _, listed, call, d⟩ := launches i m here
  have format := format_of_fits planned fits
  have roomy := canvas.roomy mainPlane (List.mem_of_getElem? d.main_at)
  refine ⟨launch, d.launch?_eq call, ?_⟩
  obtain ⟨rfl, steps⟩ | ⟨alpha, rfl, steps⟩ := steps_cases planned
  · rw [if_neg (by simp)]
    refine d.unset_full roomy rfl ?_
    rw [steps] at listed
    rcases List.mem_cons.1 (List.mem_of_getElem? listed) with rfl | chroma
    · rfl
    · rw [List.mem_singleton.1 chroma]
      rfl
  rw [steps] at listed
  cases i with
  | zero =>
    obtain rfl := Option.some.inj listed
    rw [if_neg (by simp)]
    exact d.unset_full roomy rfl rfl
  | succ i =>
    obtain ⟨k, plane, rfl⟩ : ∃ k, (k = 1 ∨ k = 2) ∧ step = planarChromaStep alpha k := by
      rcases List.mem_cons.1 (List.mem_of_getElem? (i := i) listed) with rfl | last
      · exact ⟨1, .inl rfl, rfl⟩
      · exact ⟨2, .inr rfl, List.mem_singleton.1 last⟩
    -- The launch on luma comes first, and bounds the width.
    have several : 0 < (ms.filter Moment.isLaunch).length :=
      Nat.zero_lt_of_lt (List.getElem?_eq_some_iff.1 here).1
    have there := List.getElem?_eq_getElem several
    obtain ⟨-, _, _, _, _, luma, _, listed', -, d'⟩ := launches 0 _ there
    rw [steps] at listed'
    obtain rfl := Option.some.inj listed'
    have size := congrArg PlaneExtent.rowBytes (DevicePlane.extent_of_extents canvas.extents d.main_at)
    have halved : mainPlane.rowBytes = PixelFormat.subsampled width.toNat 1 := by
      rw [format] at size
      rcases plane with rfl | rfl <;> exact size.trans (Nat.mul_one _)
    obtain ⟨narrow, same⟩ := canvas.width_bounds format d'
    rw [d.unset_halved roomy rfl rfl rfl narrow halved]
    simp only [same, Nat.succ_pos, true_and]

/-- A main picture as wide as can be, with rows right behind each other: both chroma launches draw. -/
theorem composite_unset_fails :
    let main : Picture := ⟨0, .yuv420p, 2147483647, 2, none, none⟩
    let overlay : Picture := ⟨1, .yuv420p, 4, 4, none, none⟩
    let session : Session := ⟨some ⟨1, 2⟩, 3, 4⟩
    let s : DeviceState :=
      { store :=
          { buffers := [⟨DevicePlane.layout 0x1000 .yuv420p 2147483647 2 1, none, 1⟩,
              ⟨DevicePlane.layout 0x100000000000 .yuv420p 4 4 1, none, 1⟩] } }
    let plan : PlanePlan := ⟨.yuv420p, .yuv420p, stepsOf none .planar⟩
    let run := plan.composite session main overlay ⟨.unset, 0⟩ s
    ofFormats .yuv420p .yuv420p = .ok plan ∧ main.Shaped s.store ∧ overlay.Shaped s.store ∧
      run.1.1 = .ok 3 ∧
      ((run.2.history.filterMap Moment.launch?).map fun l => l.extent.x) = [0, 1, 1] ∧
      ¬ ∀ l ∈ run.2.history.filterMap Moment.launch?, l.extent.x = 0 := by
  intro main overlay session s plan run
  have narrow : 1 < UInt64.size := by decide
  exact ⟨rfl, Picture.shaped_of_layout 0x1000 narrow rfl, Picture.shaped_of_layout 0x100000000000 narrow rfl,
    by decide +kernel, by decide +kernel, by decide +kernel⟩

/-- A main picture that is copied first. -/
theorem composite_unset_copied :
    let main : Picture := ⟨0, .yuv420p, 5, 3, none, some ⟨⟨1, 2⟩, .yuv420p, 5, 3, some 0⟩⟩
    let overlay : Picture := ⟨1, .yuva420p, 3, 5, none, none⟩
    let session : Session := ⟨some ⟨1, 2⟩, 3, 4⟩
    let s : DeviceState :=
      { store :=
          { buffers := [⟨DevicePlane.layout 0x1000 .yuv420p 5 3 16, none, 2⟩,
              ⟨DevicePlane.layout 0x9000 .yuva420p 3 5 16, none, 1⟩]
            pools := [.new .yuv420p 5 3] } }
    let plan : PlanePlan := ⟨.yuv420p, .yuva420p, stepsOf (some 3) .planar⟩
    let ms := (plan.composite session main overlay ⟨.unset, 1⟩ s).2.history
    (ms.filter Moment.isLaunch).length = 3 ∧
      ∀ (i : Nat) (m : Moment), (ms.filter Moment.isLaunch)[i]? = some m →
        ∃ launch, m.launch? = some launch ∧ launch.extent.x =
          if 0 < i ∧ PixelFormat.yuv420p = .yuv420p ∧ main.width.toNat = Int32.maxValue.toInt ∧
            2 ≤ overlay.width.toNat then 1 else 0 := by
  intro main overlay session s plan ms
  have pooled : main.Pooled s.store := Picture.pooled_of_pool rfl rfl rfl
  have narrow : 16 < UInt64.size := by decide
  have shaped : main.Shaped s.store := Picture.shaped_of_layout 0x1000 narrow rfl
  exact ⟨by decide +kernel, composite_unset (g := .yuva420p) rfl session overlay 1 shaped pooled
    (List.nil_append ms).symm⟩

end PlanePlan

/-! ### Pairs of chroma bytes -/

namespace Moment

/-- A thread of the launch goes on for the byte. -/
def Covers (m : Moment) (p : Sample) : Prop :=
  ∃ record launch t, m.call = .launch record ∧
    OverlayLaunch.ofArguments? record.arguments = some launch ∧
    record.grid.Runs t ∧ record.grid.sample t = p ∧ launch.Active p

/-- In every row a pair of bytes is covered as a whole or not at all. -/
def KeepsPairs (m : Moment) : Prop := ∀ k y : Int, m.Covers ⟨2 * k, y⟩ ↔ m.Covers ⟨2 * k + 1, y⟩

/-- No pair is split but one that the column `edge` goes through: there the first byte is covered, and the
second is not. -/
structure SplitsAt (m : Moment) (edge : Int) : Prop where
  first : ∀ k y : Int, m.Covers ⟨2 * k + 1, y⟩ → m.Covers ⟨2 * k, y⟩
  second : ∀ k y : Int, m.Covers ⟨2 * k, y⟩ → (m.Covers ⟨2 * k + 1, y⟩ ↔ 2 * k + 1 ≠ edge)

end Moment

/-- A word with a sign that is not negative has kept its number. -/
theorem toInt_ofNat_of_pos {n : Nat} (word : n < UInt32.size) (pos : 0 < (Int32.ofNat n).toInt) :
    (Int32.ofNat n).toInt = n := by
  rw [Int32.toInt_ofNat', Int.bmod_def] at pos ⊢
  rw [show UInt32.size = 4294967296 from rfl] at word
  rw [show Int32.size = 4294967296 from rfl] at pos ⊢
  split at pos <;> omega

namespace PlanePlan

/-- Which pairs of chroma bytes a blend of interleaved pictures splits. -/
structure PairLaw (plan : PlanePlan) (session : Session) (main overlay : Picture) (s : DeviceState) :
    Prop where
  /-- A computed position is an even column, or none. -/
  computed : ∀ v, (XPosition.ofFloat v).IsEven
  /-- At such a position the launch on chroma splits no pair but the one in which the overlay ends. -/
  split : ∀ offset : OverlayOffset, offset.x.IsEven → ∀ ms,
    (plan.composite session main overlay offset s).2.history = s.history ++ ms →
    ∀ m, (ms.filter Moment.isLaunch)[1]? = some m →
      m.SplitsAt (offset.x.kernelColumn.toInt + overlay.width.toNat)
  /-- It splits none if the overlay has an even width. -/
  whole : overlay.width.toNat % 2 = 0 → ∀ offset : OverlayOffset, offset.x.IsEven → ∀ ms,
    (plan.composite session main overlay offset s).2.history = s.history ++ ms →
    ∀ m, (ms.filter Moment.isLaunch)[1]? = some m → m.KeepsPairs

section Covered

variable {step : PlaneStep} {overlay : Picture} {offset : OverlayOffset}
  {mainPlanes overlayPlanes : List DevicePlane} {record : LaunchRecord} {launch : OverlayLaunch}
  {mainPlane overlayPlane : DevicePlane} {m : Moment}

theorem Drawn.covers_iff
    (d : Drawn step overlay offset mainPlanes overlayPlanes record launch mainPlane overlayPlane)
    (roomy : mainPlane.Roomy) (call : m.call = .launch record) (p : Sample) :
    m.Covers p ↔ mainPlane.extent.Holds p ∧
      (step.rectangle offset overlay.width overlay.height).Holds p := by
  rw [← d.region roomy p]
  constructor
  · rintro ⟨record', launch', t, call', decoded, work⟩
    obtain rfl := DriverCall.launch.inj (call.symm.trans call')
    obtain rfl := Option.some.inj (d.decoded.symm.trans decoded)
    exact ⟨t, work⟩
  · rintro ⟨t, work⟩
    exact ⟨record, launch, t, call, d.decoded, work⟩

/-- On a plane with an even number of bytes per row, from an even column on. -/
theorem Drawn.splitsAt (d : Drawn packedChromaStep overlay offset mainPlanes overlayPlanes record launch
      mainPlane overlayPlane) (roomy : mainPlane.Roomy) (call : m.call = .launch record)
    (pairs : mainPlane.rowBytes % 2 = 0) (even : offset.x.IsEven) :
    m.SplitsAt (offset.x.kernelColumn.toInt + overlay.width.toNat) ∧
      (overlay.width.toNat % 2 = 0 → m.KeepsPairs) := by
  have wide := roomy.pitch
  have pitch := d.pitch_le
  have origin : (packedChromaStep.offset offset).x = offset.x.kernelColumn := by
    simp [PlaneStep.offset, PlaneStep.reduced, packedChromaStep]
  have width : 0 < (packedChromaStep.overlayExtent overlay.width overlay.height).x.toInt →
      (packedChromaStep.overlayExtent overlay.width overlay.height).x.toInt = overlay.width.toNat :=
    toInt_ofNat_of_pos overlay.width.toNat_lt
  -- A column that stands for no position is odd, and past the end of the plane.
  have parity : offset.x.kernelColumn.toInt % 2 = 0 ∨
      (mainPlane.rowBytes : Int) ≤ offset.x.kernelColumn.toInt := by
    cases position : offset.x with
    | aligned column =>
      rw [position] at even
      exact .inl even
    | unset => exact .inr (by rw [XPosition.kernelColumn, XPosition.unsetColumn]; omega)
  have across (x y : Int) : m.Covers ⟨x, y⟩ ↔ ((0 ≤ x ∧ x < mainPlane.rowBytes) ∧
      offset.x.kernelColumn.toInt ≤ x ∧ x < offset.x.kernelColumn.toInt +
        (packedChromaStep.overlayExtent overlay.width overlay.height).x.toInt) ∧
      (0 ≤ y ∧ y < mainPlane.rows) ∧ (packedChromaStep.offset offset).y.toInt ≤ y ∧
        y < (packedChromaStep.offset offset).y.toInt +
          (packedChromaStep.overlayExtent overlay.width overlay.height).y.toInt := by
    rw [d.covers_iff roomy call, ← origin]
    exact and_and_and_comm
  refine ⟨⟨fun k y => ?_, fun k y => ?_⟩, fun even k y => ?_⟩ <;> simp only [across] <;> omega

end Covered

/-- **Pairs of chroma bytes stay whole**, but the last one under an overlay of odd width.  For interleaved
pictures, a main picture with planes of the sizes of its format, any overlay and every offset that can be
computed: take the launch of a blend on the chroma plane.  In each row it covers both bytes of a pair or none,
except that of the pair with the last byte of an overlay of odd width it covers only that byte. -/
theorem composite_pairs {plan : PlanePlan} (planned : ofFormats .nv12 .nv12 = .ok plan) (session : Session)
    {main : Picture} (overlay : Picture) {s : DeviceState} (shaped : main.Shaped s.store)
    (pooled : main.Pooled s.store) : plan.PairLaw session main overlay s := by
  have law (offset : OverlayOffset) (even : offset.x.IsEven) (ms : List Moment)
      (history : (plan.composite session main overlay offset s).2.history = s.history ++ ms) (m : Moment)
      (here : (ms.filter Moment.isLaunch)[1]? = some m) :
      m.SplitsAt (offset.x.kernelColumn.toInt + overlay.width.toNat) ∧
        (overlay.width.toNat % 2 = 0 → m.KeepsPairs) := by
    obtain ⟨planes, width, height, canvas, launches⟩ := composite_onCanvas shaped pooled history
    obtain ⟨fits, step, record, launch, _, mainPlane, _, listed, call, d⟩ := launches 1 m here
    obtain rfl := Except.ok.inj planned
    obtain rfl := Option.some.inj listed
    have size := congrArg PlaneExtent.rowBytes (DevicePlane.extent_of_extents canvas.extents d.main_at)
    rw [format_of_fits planned fits] at size
    refine d.splitsAt (canvas.roomy mainPlane (List.mem_of_getElem? d.main_at)) call ?_ even
    rw [show mainPlane.rowBytes = PixelFormat.subsampled width.toNat 1 * 2 from
      size.trans (Nat.mul_one _), Nat.mul_mod_left]
  exact
    { computed := XPosition.isEven_ofFloat
      split := fun offset even ms history m here => (law offset even ms history m here).1
      whole := fun width offset even ms history m here => (law offset even ms history m here).2 width }

/-- A main picture of odd width that is copied first, and an overlay partly to its left. -/
theorem composite_pairs_copied :
    let main : Picture := ⟨0, .nv12, 7, 5, none, some ⟨⟨1, 2⟩, .nv12, 7, 5, some 0⟩⟩
    let overlay : Picture := ⟨1, .nv12, 5, 3, none, none⟩
    let session : Session := ⟨some ⟨1, 2⟩, 3, 4⟩
    let s : DeviceState :=
      { store :=
          { buffers := [⟨DevicePlane.layout 0x1000 .nv12 7 5 16, none, 2⟩,
              ⟨DevicePlane.layout 0x9000 .nv12 5 3 16, none, 1⟩]
            pools := [.new .nv12 7 5] } }
    let plan : PlanePlan := ⟨.nv12, .nv12, stepsOf none .chromaPacked⟩
    let ms := (plan.composite session main overlay ⟨.aligned (-2), 1⟩ s).2.history
    (XPosition.aligned (-2)).IsEven ∧ plan.PairLaw session main overlay s ∧
      ∃ m, (ms.filter Moment.isLaunch)[1]? = some m ∧ m.SplitsAt 3 := by
  intro main overlay session s plan ms
  have pooled : main.Pooled s.store := Picture.pooled_of_pool rfl rfl rfl
  have narrow : 16 < UInt64.size := by decide
  have shaped : main.Shaped s.store := Picture.shaped_of_layout 0x1000 narrow rfl
  have even : (XPosition.aligned (-2)).IsEven := by
    show Int32.toInt (-2) % 2 = 0
    decide
  have law : plan.PairLaw session main overlay s := composite_pairs rfl session overlay shaped pooled
  have twice : 1 < (ms.filter Moment.isLaunch).length := by decide +kernel
  have here := List.getElem?_eq_getElem twice
  exact ⟨even, law, _, here, law.split ⟨.aligned (-2), 1⟩ even ms (List.nil_append ms).symm _ here⟩

/-- An overlay three bytes wide at the left edge: of the second pair it covers the first byte only. -/
theorem composite_pairs_fails :
    let main : Picture := ⟨0, .nv12, 8, 4, none, none⟩
    let overlay : Picture := ⟨1, .nv12, 3, 2, none, none⟩
    let session : Session := ⟨some ⟨1, 2⟩, 3, 4⟩
    let s : DeviceState :=
      { store :=
          { buffers := [⟨DevicePlane.layout 0x1000 .nv12 8 4 16, none, 1⟩,
              ⟨DevicePlane.layout 0x9000 .nv12 3 2 16, none, 1⟩] } }
    let plan : PlanePlan := ⟨.nv12, .nv12, stepsOf none .chromaPacked⟩
    let ms := (plan.composite session main overlay ⟨.aligned 0, 0⟩ s).2.history
    ofFormats .nv12 .nv12 = .ok plan ∧ main.Shaped s.store ∧ overlay.Shaped s.store ∧
      ∃ m, (ms.filter Moment.isLaunch)[1]? = some m ∧ m.Covers ⟨2, 0⟩ ∧ ¬ m.Covers ⟨3, 0⟩ ∧
        ¬ m.KeepsPairs := by
  intro main overlay session s plan ms
  have narrow : 16 < UInt64.size := by decide
  let launch : OverlayLaunch :=
    ⟨⟨0, 0⟩, ⟨0x1040, 16⟩, ⟨0x9020, 16⟩, ⟨3, 1⟩, ⟨0, 0⟩, ⟨0, 0⟩⟩
  let m : Moment := ⟨.launch ⟨4, .covering ⟨8, 2⟩, 2, launch.arguments⟩, 0, 0, s.store⟩
  have covered : m.Covers ⟨2, 0⟩ :=
    ⟨_, launch, ⟨⟨0, 0, 0⟩, ⟨2, 0, 0⟩⟩, rfl, rfl, by decide, by decide, by decide⟩
  have bare : ¬ m.Covers ⟨3, 0⟩ := by
    rintro ⟨record, launch', t, call, decoded, -, -, active⟩
    obtain rfl := DriverCall.launch.inj call
    obtain rfl := Option.some.inj decoded
    exact absurd active (by decide)
  exact ⟨rfl, Picture.shaped_of_layout 0x1000 narrow rfl, Picture.shaped_of_layout 0x9000 narrow rfl, m,
    by decide +kernel, covered, bare, fun keeps => bare ((keeps 1 0).1 covered)⟩

end PlanePlan

end FrameOverlay
