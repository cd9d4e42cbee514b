import FrameOverlay.Kernel.Thread
import FrameOverlay.Proofs.Device.Launches
import FrameOverlay.Proofs.Memory.Layout
import Mathlib.Logic.ExistsUnique

/-!
# What a launch draws

Each launch of a blend has one thread for every byte of the main plane that the overlay covers, and no
thread that goes on elsewhere.  Three roundings have to fit for that: plane sizes round up, the size of the
overlay on a chroma plane rounds down, and offsets are divided toward zero.

* `toInt_visibleExtent` — the part that is drawn, without the words it is computed in;
* `LaunchGrid.exists_unique_thread` — the threads of a grid and the bytes of a plane;
* `PlaneStep.Suits` — the overlay of a step lies within the planes it is read from;
* `Picture.Shaped` — the planes of a picture have the sizes of its format;
* `PlanePlan.composite_exact` — **every launch draws exactly what the overlay covers**, and reads inside
  its planes.
-/

namespace FrameOverlay

/-! ### The part that is drawn -/

/-- The part that is drawn, as long as a word holds the distance to the end of the plane. -/
theorem toInt_visibleExtent (extent origin : Int32) {limit : Nat}
    (near : (limit : Int) - origin.toInt ≤ Int64.maxValue.toInt) :
    (visibleExtent extent origin limit).toInt = max 0 (min extent.toInt (limit - origin.toInt)) := by
  have low := origin.le_toInt
  have high := origin.toInt_lt
  have bound := extent.toInt_lt
  rw [show Int64.maxValue.toInt = 9223372036854775807 from rfl] at near
  have word : ((limit : Int) - origin.toInt).bmod UInt64.size = limit - origin.toInt := by
    rw [show UInt64.size = 18446744073709551616 from rfl, Int.bmod_eq_of_le] <;> omega
  unfold visibleExtent
  dsimp only
  rw [word]
  exact Int32.toInt_ofInt_of_le (by omega) (by omega)

/-- It holds that of a plane smaller than a word counts. -/
theorem near_of_small (origin : Int32) {limit : Nat} (small : limit < UInt32.size) :
    (limit : Int) - origin.toInt ≤ Int64.maxValue.toInt := by
  have low := origin.le_toInt
  rw [show Int64.maxValue.toInt = 9223372036854775807 from rfl]
  rw [show UInt32.size = 4294967296 from rfl] at small
  omega

/-- In one direction: the guard lets through what lies on the plane and under the overlay. -/
theorem guard_iff (extent origin : Int32) {limit : Nat} (small : limit < UInt32.size) (x : Int) :
    (0 ≤ x - origin.toInt ∧ x - origin.toInt < (visibleExtent extent origin limit).toInt) ↔
      x < limit ∧ origin.toInt ≤ x ∧ x < origin.toInt + extent.toInt := by
  rw [toInt_visibleExtent extent origin (near_of_small origin small)]
  omega

/-! ### Threads -/

namespace LaunchGrid

/-- In one direction: the block of a place, and the place in the block. -/
theorem place_unique {n b l x : Nat} (inside : l < n) (same : b * n + l = x) :
    b = x / n ∧ l = x % n := by
  subst same
  rw [Nat.mul_comm, Nat.mul_add_div (Nat.zero_lt_of_lt inside), Nat.div_eq_of_lt inside,
    Nat.mul_add_mod, Nat.mod_eq_of_lt inside]
  exact ⟨rfl, rfl⟩

/-- Enough blocks for a size that a word holds. -/
theorem le_blocksFor {size threads : Nat} (pos : 0 < threads) (small : size < UInt32.size) :
    size ≤ blocksFor size threads * threads := by
  unfold blocksFor
  rw [Nat.mod_eq_of_lt small]
  have split := Nat.div_add_mod (size + threads - 1) threads
  have rest := Nat.mod_lt (size + threads - 1) pos
  rw [Nat.mul_comm] at split
  omega

/-- In one direction: every place below `size` is one in a block. -/
theorem place_exists {size threads x : Nat} (pos : 0 < threads) (small : size < UInt32.size)
    (inside : x < size) : x / threads < blocksFor size threads ∧ x % threads < threads ∧
      x / threads * threads + x % threads = x := by
  refine ⟨?_, Nat.mod_lt x pos, ?_⟩
  · rw [Nat.div_lt_iff_lt_mul pos]
    exact Nat.lt_of_lt_of_le inside (le_blocksFor pos small)
  · rw [Nat.mul_comm]
    exact Nat.div_add_mod x threads

/-- Every byte of a plane has a thread of its own. -/
theorem exists_unique_thread {e : PlaneExtent} (wide : e.rowBytes < UInt32.size)
    (high : e.rows < UInt32.size) {p : Sample} (on : e.Holds p) :
    ∃! t, (covering e).Runs t ∧ (covering e).sample t = p := by
  obtain ⟨⟨left, right⟩, top, bottom⟩ := on
  obtain ⟨x, y⟩ := p
  lift x to Nat using left
  lift y to Nat using top
  obtain ⟨column, lane, across⟩ := place_exists (by decide : 0 < blockSize.x) wide
    (Int.ofNat_lt.1 right)
  obtain ⟨row, line, down⟩ := place_exists (by decide : 0 < blockSize.y) high
    (Int.ofNat_lt.1 bottom)
  refine ⟨⟨⟨x / blockSize.x, y / blockSize.y, 0⟩, ⟨x % blockSize.x, y % blockSize.y, 0⟩⟩, ⟨?_, ?_⟩, ?_⟩
  · exact ⟨⟨column, row, Nat.one_pos⟩, lane, line, Nat.one_pos⟩
  · show Sample.mk (x / blockSize.x * blockSize.x + x % blockSize.x : Nat)
      (y / blockSize.y * blockSize.y + y % blockSize.y : Nat) = _
    rw [across, down]
  · rintro ⟨⟨bx, bY, bz⟩, ⟨lx, ly, lz⟩⟩ ⟨⟨⟨-, -, zero⟩, wx, wy, zero'⟩, same⟩
    injection same with sameX sameY
    obtain ⟨rfl, rfl⟩ := place_unique wx (Int.ofNat.inj sameX)
    obtain ⟨rfl, rfl⟩ := place_unique wy (Int.ofNat.inj sameY)
    obtain rfl := Nat.lt_one_iff.1 zero
    obtain rfl := Nat.lt_one_iff.1 zero'
    rfl

end LaunchGrid

/-! ### Sizes of planes -/

namespace PixelFormat

theorem planeCount_pos (f : PixelFormat) : 0 < f.planeCount := by
  cases f <;> decide

end PixelFormat

/-- The plane has room for its rows, and a word holds their number. -/
structure DevicePlane.Roomy (p : DevicePlane) : Prop where
  pitch : p.rowBytes ≤ p.pitch
  rows : p.rows < UInt32.size

/-- The planes of a pool's buffers have room for their rows. -/
theorem FramePool.roomy {pool : FramePool} {base : UInt64} {plane : DevicePlane}
    (h : plane ∈ pool.planesAt base) : plane.Roomy := by
  obtain ⟨listed, -⟩ := DevicePlane.mem_stack h
  obtain ⟨i, -, extent⟩ := List.mem_map.1 listed
  have rows := (pool.format.planeExtent_bounds i pool.width pool.height).2
  rw [extent] at rows
  exact ⟨(DevicePlane.pitch_layout (by decide) h).1.2, rows⟩

/-- The planes of a picture have the sizes of its format, with room for their rows. -/
structure Picture.Shaped (p : Picture) (store : BufferStore) : Prop where
  extents : (store.planes p.buffer).map DevicePlane.extent =
    (List.range p.format.planeCount).map fun i => p.format.planeExtent i p.width p.height
  pitches : ∀ plane ∈ store.planes p.buffer, plane.rowBytes ≤ plane.pitch

namespace Picture.Shaped

variable {p : Picture} {store : BufferStore} {plane : DevicePlane} {i : Nat}

theorem extent (h : p.Shaped store) (here : (store.planes p.buffer)[i]? = some plane) :
    plane.extent = p.format.planeExtent i p.width p.height :=
  DevicePlane.extent_of_extents h.extents here

theorem roomy (h : p.Shaped store) (listed : plane ∈ store.planes p.buffer) : plane.Roomy := by
  obtain ⟨i, inside, here⟩ := List.getElem_of_mem listed
  refine ⟨h.pitches plane listed, ?_⟩
  have extent := h.extent (by rw [List.getElem?_eq_getElem inside, here])
  have rows := (p.format.planeExtent_bounds i p.width p.height).2
  rw [← extent] at rows
  exact rows

/-- A picture with planes has a buffer. -/
theorem inside (h : p.Shaped store) : p.buffer < store.buffers.length := by
  refine Nat.lt_of_not_le fun outside => ?_
  have count := congrArg List.length h.extents
  simp only [BufferStore.planes, List.getElem?_eq_none outside, Option.map_none, Option.getD_none,
    List.map_nil, List.length_nil, List.length_map, List.length_range] at count
  exact Nat.ne_of_lt p.format.planeCount_pos count

end Picture.Shaped

/-! ### Steps -/

/-- The overlay of a step lies within the planes it is read from: its own, and the alpha plane if the step
reads one. -/
structure PlaneStep.Suits (step : PlaneStep) (f : PixelFormat) : Prop where
  width : ∀ w h : UInt32,
    w.toNat >>> step.overlayReduction.x ≤ (f.planeExtent step.plane w h).rowBytes
  height : ∀ w h : UInt32, h.toNat >>> step.overlayReduction.y ≤ (f.planeExtent step.plane w h).rows
  alpha : ∀ k, step.alphaPlane = some k → ∀ (w h : UInt32) (x y : Nat),
    x < w.toNat >>> step.overlayReduction.x → y < h.toNat >>> step.overlayReduction.y →
      (f.planeExtent k w h).Holds ⟨step.alphaStep.x.toInt * x, step.alphaStep.y.toInt * y⟩

namespace PlanePlan

theorem ofFormats_ok {f g : PixelFormat} {plan : PlanePlan} (h : ofFormats f g = .ok plan) :
    ∃ family, g.family = some family ∧ plan = ⟨f, g, stepsOf g.alphaPlane family⟩ := by
  unfold ofFormats at h
  split at h
  · split at h
    · injection h
    · next family known =>
      split at h
      · exact ⟨family, known, (Except.ok.inj h).symm⟩
      · injection h
  · injection h

/-- On luma nothing is reduced. -/
theorem lumaStep_suits {f : PixelFormat} {family : PlaneFamily} (known : f.family = some family) :
    (lumaStep f.alphaPlane).Suits f where
  width w h := by
    cases f <;> simp_all [lumaStep, PixelFormat.family, PixelFormat.planeExtent,
      PixelFormat.bytesPerSample]
  height w h := by
    cases f <;> simp_all [lumaStep, PixelFormat.family, PixelFormat.planeExtent,
      PixelFormat.bytesPerSample]
  alpha k reads w h x y hx hy := by
    cases f <;> simp only [lumaStep, PixelFormat.alphaPlane, reduceCtorEq] at reads
    obtain rfl := Option.some.inj reads
    simp only [lumaStep, Nat.shiftRight_zero] at hx hy
    simp only [PlaneExtent.Holds, PixelFormat.planeExtent, lumaStep, Int32.reduceToInt]
    omega

/-- The rows of interleaved chroma are halved, rounded down against the plane's rounding up. -/
theorem packedChromaStep_suits : packedChromaStep.Suits .nv12 where
  width w h := by
    simp only [packedChromaStep, PixelFormat.planeExtent, PixelFormat.subsampled,
      PixelFormat.chromaReduction, PixelFormat.bytesPerSample, Nat.reduceShiftLeft, Nat.shiftRight_zero]
    omega
  height w h := by
    simp only [packedChromaStep, PixelFormat.planeExtent, PixelFormat.subsampled,
      PixelFormat.chromaReduction, Nat.reduceShiftLeft, Nat.shiftRight_succ, Nat.shiftRight_zero]
    omega
  alpha k reads := nomatch reads

/-- Chroma in a plane of its own is halved both ways, and the alpha plane is read at every other byte. -/
theorem planarChromaStep_suits {f : PixelFormat} (known : f.family = some .planar) {plane : Nat}
    (chroma : plane = 1 ∨ plane = 2) : (planarChromaStep f.alphaPlane plane).Suits f where
  width w h := by
    rcases chroma with rfl | rfl <;> cases f <;>
      simp only [PixelFormat.family, reduceCtorEq, Option.some.injEq] at known <;>
      simp only [planarChromaStep, PixelFormat.planeExtent, PixelFormat.subsampled,
        PixelFormat.chromaReduction, PixelFormat.bytesPerSample, Nat.reduceShiftLeft,
        Nat.shiftRight_succ, Nat.shiftRight_zero] <;> omega
  height w h := by
    rcases chroma with rfl | rfl <;> cases f <;>
      simp only [PixelFormat.family, reduceCtorEq, Option.some.injEq] at known <;>
      simp only [planarChromaStep, PixelFormat.planeExtent, PixelFormat.subsampled,
        PixelFormat.chromaReduction, Nat.reduceShiftLeft, Nat.shiftRight_succ,
        Nat.shiftRight_zero] <;> omega
  alpha k reads w h x y hx hy := by
    cases f <;> simp only [planarChromaStep, PixelFormat.alphaPlane, reduceCtorEq] at reads
    obtain rfl := Option.some.inj reads
    simp only [planarChromaStep, Nat.shiftRight_succ, Nat.shiftRight_zero] at hx hy
    simp only [PlaneExtent.Holds, PixelFormat.planeExtent, planarChromaStep, Int32.reduceToInt]
    omega

/-- Every step of a plan suits the overlay's format. -/
theorem suits {f g : PixelFormat} {plan : PlanePlan} (planned : ofFormats f g = .ok plan)
    {step : PlaneStep} (listed : step ∈ plan.steps) : step.Suits g := by
  obtain ⟨family, known, rfl⟩ := ofFormats_ok planned
  cases family with
  | chromaPacked =>
    have packed : g = .nv12 := by
      cases g <;> simp only [PixelFormat.family, reduceCtorEq, Option.some.injEq] at known
      rfl
    rcases List.mem_cons.1 listed with rfl | later
    · exact lumaStep_suits known
    · rw [List.mem_singleton.1 later, packed]
      exact packedChromaStep_suits
  | planar =>
    rcases List.mem_cons.1 listed with rfl | later
    · exact lumaStep_suits known
    rcases List.mem_cons.1 later with rfl | last
    · exact planarChromaStep_suits known (.inl rfl)
    · rw [List.mem_singleton.1 last]
      exact planarChromaStep_suits known (.inr rfl)

end PlanePlan

/-! ### One launch -/

/-- A kernel argument stands for a plane: it has the plane's address and pitch. -/
structure PlaneArgument.Binds (a : PlaneArgument) (plane : DevicePlane) : Prop where
  address : a.address = plane.address
  stride : a.stride.toInt = plane.pitch

/-- A plane as a kernel argument.  Its pitch is not too large. -/
theorem planeArgument_ok {plane : DevicePlane} {a : PlaneArgument} (h : planeArgument plane = .ok a) :
    a.Binds plane ∧ plane.pitch < UInt32.size := by
  obtain ⟨stride, made, h⟩ := ok_of_bind h
  obtain rfl := Except.ok.inj h
  unfold strideOf at made
  split at made
  · next fits =>
    obtain rfl := Except.ok.inj made
    rw [show Int32.maxValue.toInt = 2147483647 from rfl] at fits
    refine ⟨⟨rfl, Int32.toInt_ofNat_of_lt (by omega)⟩, ?_⟩
    simp only [UInt32.size]
    omega
  · injection made

/-- Sizes of overlays are numbers as long as words with a sign hold them. -/
theorem toInt_overlayExtent (step : PlaneStep) {w h : UInt32}
    (wide : w.toNat ≤ Int32.maxValue.toInt) (high : h.toNat ≤ Int32.maxValue.toInt) :
    (step.overlayExtent w h).x.toInt = (w.toNat >>> step.overlayReduction.x : Nat) ∧
      (step.overlayExtent w h).y.toInt = (h.toNat >>> step.overlayReduction.y : Nat) := by
  rw [show Int32.maxValue.toInt = 2147483647 from rfl] at wide high
  have width : w.toNat >>> step.overlayReduction.x ≤ w.toNat := Nat.shiftRight_le _ _
  have height : h.toNat >>> step.overlayReduction.y ≤ h.toNat := Nat.shiftRight_le _ _
  exact ⟨Int32.toInt_ofNat_of_lt (by omega), Int32.toInt_ofNat_of_lt (by omega)⟩

/-- What a launch does, read off its parameters and its grid: it draws exactly the bytes of its main plane
that lie in `placed`, each by one thread, and reads inside `overlay`. -/
structure OverlayLaunch.Exact (l : OverlayLaunch) (grid : LaunchGrid) (main overlay : PlaneExtent)
    (placed : Rectangle) : Prop where
  region : ∀ p, (∃ t, grid.Runs t ∧ grid.sample t = p ∧ l.Active p) ↔ main.Holds p ∧ placed.Holds p
  once : ∀ p, main.Holds p → placed.Holds p → ∃! t, grid.Runs t ∧ grid.sample t = p
  reads : ∀ t, grid.Runs t → l.Active (grid.sample t) → overlay.Holds (l.overlaySample (grid.sample t))

namespace PlanePlan.Drawn

variable {step : PlaneStep} {overlay : Picture} {offset : OverlayOffset}
  {mainPlanes overlayPlanes : List DevicePlane} {record : LaunchRecord} {launch : OverlayLaunch}
  {mainPlane overlayPlane : DevicePlane}

section

variable (d : Drawn step overlay offset mainPlanes overlayPlanes record launch mainPlane overlayPlane)
  (roomy : mainPlane.Roomy)
include d roomy

/-- A word holds the bytes of a row of the main plane. -/
theorem narrow : mainPlane.rowBytes < UInt32.size :=
  Nat.lt_of_le_of_lt roomy.pitch (planeArgument_ok d.main_argument).2

/-- The guard lets through what lies under the overlay and does not lie past the plane. -/
theorem active_iff (p : Sample) : launch.Active p ↔
    (p.x < mainPlane.rowBytes ∧ p.y < mainPlane.rows) ∧
      (step.rectangle offset overlay.width overlay.height).Holds p := by
  have across := guard_iff (step.overlayExtent overlay.width overlay.height).x (step.offset offset).x
    (d.narrow roomy) p.x
  have down := guard_iff (step.overlayExtent overlay.width overlay.height).y (step.offset offset).y
    roomy.rows p.y
  unfold OverlayLaunch.Active OverlayLaunch.overlaySample
  rw [d.origin, d.extent]
  dsimp only
  rw [across, down]
  exact ⟨fun ⟨⟨r, x⟩, b, y⟩ => ⟨⟨r, b⟩, x, y⟩, fun ⟨⟨r, b⟩, x, y⟩ => ⟨⟨r, x⟩, b, y⟩⟩

/-- The bytes of the main plane with an active thread are those under the overlay. -/
theorem region (p : Sample) : (∃ t, record.grid.Runs t ∧ record.grid.sample t = p ∧ launch.Active p) ↔
    mainPlane.extent.Holds p ∧ (step.rectangle offset overlay.width overlay.height).Holds p := by
  constructor
  · rintro ⟨t, runs, rfl, active⟩
    obtain ⟨⟨right, bottom⟩, under⟩ := (d.active_iff roomy _).1 active
    exact ⟨⟨⟨Int.natCast_nonneg _, right⟩, Int.natCast_nonneg _, bottom⟩, under⟩
  · rintro ⟨on, under⟩
    obtain ⟨t, ⟨runs, here⟩, -⟩ :=
      LaunchGrid.exists_unique_thread (e := mainPlane.extent) (d.narrow roomy) roomy.rows on
    rw [d.grid]
    exact ⟨t, runs, here, (d.active_iff roomy p).2 ⟨⟨on.1.2, on.2.2⟩, under⟩⟩

variable {f : PixelFormat} (suits : step.Suits f)
  (wide : overlay.width.toNat ≤ Int32.maxValue.toInt)
  (high : overlay.height.toNat ≤ Int32.maxValue.toInt)
include wide high

/-- What an active thread reads is a byte of the overlay at the size it has on the step's plane. -/
theorem reach {p : Sample} (active : launch.Active p) : ∃ x y : Nat, launch.overlaySample p = ⟨x, y⟩ ∧
    x < overlay.width.toNat >>> step.overlayReduction.x ∧
      y < overlay.height.toNat >>> step.overlayReduction.y := by
  obtain ⟨-, ⟨left, right⟩, top, bottom⟩ := (d.active_iff roomy p).1 active
  obtain ⟨width, height⟩ := toInt_overlayExtent step wide high
  simp only [PlaneStep.rectangle, width, height] at left right top bottom
  refine ⟨(p.x - (step.offset offset).x.toInt).toNat, (p.y - (step.offset offset).y.toInt).toNat, ?_, ?_, ?_⟩
  · rw [OverlayLaunch.overlaySample, d.origin, Int.toNat_of_nonneg (by omega),
      Int.toNat_of_nonneg (by omega)]
  · omega
  · omega

include suits

/-- **One launch draws exactly what the overlay covers.** -/
theorem exact (size : overlayPlane.extent = f.planeExtent step.plane overlay.width overlay.height) :
    launch.Exact record.grid mainPlane.extent overlayPlane.extent
      (step.rectangle offset overlay.width overlay.height) where
  region := d.region roomy
  once p on _ := by
    rw [d.grid]
    exact LaunchGrid.exists_unique_thread (d.narrow roomy) roomy.rows on
  reads t _ active := by
    obtain ⟨x, y, sample, right, bottom⟩ := d.reach roomy wide high active
    have width := suits.width overlay.width overlay.height
    have height := suits.height overlay.width overlay.height
    rw [sample, size]
    exact ⟨⟨Int.natCast_nonneg _, Int.ofNat_lt.2 (Nat.lt_of_lt_of_le right width)⟩,
      Int.natCast_nonneg _, Int.ofNat_lt.2 (Nat.lt_of_lt_of_le bottom height)⟩

/-- An active thread reads inside the alpha plane. -/
theorem alpha_inside {k : Nat} (alpha : step.alphaPlane = some k) {alphaPlane : DevicePlane}
    (size : alphaPlane.extent = f.planeExtent k overlay.width overlay.height) {p : Sample}
    (active : launch.Active p) : alphaPlane.extent.Holds (launch.alphaSample p) := by
  obtain ⟨x, y, sample, right, bottom⟩ := d.reach roomy wide high active
  rw [OverlayLaunch.alphaSample, d.alphaStep, sample, size]
  exact suits.alpha k alpha overlay.width overlay.height x y right bottom

end

/-- The alpha plane of a launch is the one its step reads. -/
theorem alpha_bound (d : Drawn step overlay offset mainPlanes overlayPlanes record launch mainPlane
    overlayPlane) :
    (launch.hasAlpha = true → step.alphaPlane.isSome = true) ∧
      ∀ k, step.alphaPlane = some k → ∃ alphaPlane, overlayPlanes[k]? = some alphaPlane ∧
        launch.alpha.Binds alphaPlane := by
  have made := d.alpha_argument
  unfold alphaArgument at made
  cases alpha : step.alphaPlane with
  | none =>
    rw [alpha] at made
    refine ⟨fun bound => ?_, fun k reads => nomatch reads⟩
    rw [OverlayLaunch.hasAlpha, ← Except.ok.inj made] at bound
    exact absurd bound (by decide)
  | some k =>
    rw [alpha] at made
    refine ⟨fun _ => rfl, fun k' reads => ?_⟩
    obtain rfl := Option.some.inj reads
    obtain ⟨alphaPlane, found, made⟩ := ok_of_bind made
    exact ⟨alphaPlane, planeAt_getElem? found, (planeArgument_ok made).1⟩

end PlanePlan.Drawn

/-! ### Every launch of a blend -/

namespace PlanePlan

/-- What holds of a launch that a blend issued: of which step it is and of which planes, and what it draws
and reads. -/
structure Confined (plan : PlanePlan) (main overlay : Picture) (offset : OverlayOffset)
    (store : BufferStore) (record : LaunchRecord) (step : PlaneStep) (launch : OverlayLaunch)
    (mainPlane overlayPlane : DevicePlane) : Prop where
  step_of : step ∈ plan.steps
  decoded : OverlayLaunch.ofArguments? record.arguments = some launch
  main_at : (store.planes main.buffer)[step.plane]? = some mainPlane
  main_bound : launch.main.Binds mainPlane
  overlay_at : (store.planes overlay.buffer)[step.plane]? = some overlayPlane
  overlay_bound : launch.overlay.Binds overlayPlane
  exact : launch.Exact record.grid mainPlane.extent overlayPlane.extent
    (step.rectangle offset overlay.width overlay.height)
  opaque_unless : launch.hasAlpha = true → step.alphaPlane.isSome = true
  alpha : ∀ k, step.alphaPlane = some k → ∃ alphaPlane,
    (store.planes overlay.buffer)[k]? = some alphaPlane ∧ launch.alpha.Binds alphaPlane ∧
    ∀ t, record.grid.Runs t → launch.Active (record.grid.sample t) →
      alphaPlane.extent.Holds (launch.alphaSample (record.grid.sample t))

/-- **Every launch draws exactly what the overlay covers.**  For every accepted pair of formats, all
pictures with planes of the sizes of their formats, every offset and whatever else is the case on the
device: take any launch that a blend issues.  It is of one step of the plan, the bytes of its main plane
that have an active thread are those under the overlay as the step places it, each has one thread only,
and what the thread reads of the overlay and of its alpha plane lies on these planes.  The main plane is
that of the picture after copy on write, whose fresh buffer may have another size. -/
theorem composite_exact {f g : PixelFormat} {plan : PlanePlan} (planned : ofFormats f g = .ok plan)
    (session : Session) {main overlay : Picture} (offset : OverlayOffset) {s : DeviceState}
    (mainShaped : main.Shaped s.store) (overlayShaped : overlay.Shaped s.store)
    (wide : overlay.width.toNat ≤ Int32.maxValue.toInt)
    (high : overlay.height.toNat ≤ Int32.maxValue.toInt) {ms : List Moment}
    (history : (plan.composite session main overlay offset s).2.history = s.history ++ ms) :
    ∀ m ∈ ms, ∀ record, m.call = .launch record → ∃ step launch mainPlane overlayPlane,
      plan.Confined (plan.composite session main overlay offset s).1.2 overlay offset m.store record
        step launch mainPlane overlayPlane := by
  intro m hm record call
  have view := plan.composite_issues session main overlay offset s
  generalize plan.composite session main overlay offset s = result at history view ⊢
  cases view with
  | stuck same silent =>
    obtain rfl := List.append_cancel_left (same.symm.trans history)
    exact absurd (silent m hm) (by rw [Moment.isLaunch_of_launch call]; decide)
  | @issued _ main' s₁ _ _ _ _ fits rewritten same front launches _ =>
    obtain rfl := List.append_cancel_left (same.symm.trans history)
    have isLaunch := Moment.isLaunch_of_launch call
    obtain ⟨step, listed, device, record', -, call', made⟩ := launches.of_mem hm isLaunch
    obtain rfl := DriverCall.launch.inj (call'.symm.trans call)
    obtain ⟨launch, mainPlane, overlayPlane, d⟩ := drawn made
    rw [launches.stores m hm isLaunch] at d ⊢
    have kept := rewritten.old overlayShaped.inside
    rw [kept] at d
    have format : overlay.format = g := by
      obtain ⟨_, -, rfl⟩ := ofFormats_ok planned
      exact eq_of_beq (Bool.and_eq_true_iff.1 fits).2
    subst format
    have roomy : mainPlane.Roomy := by
      have listed := List.mem_of_getElem? d.main_at
      rcases rewritten.planes with ⟨rfl, stays⟩ | ⟨pool, fresh⟩
      · rw [stays] at listed
        exact mainShaped.roomy listed
      · rw [fresh] at listed
        exact FramePool.roomy listed
    have step_of := front.subset listed
    have step_suits := suits planned step_of
    refine ⟨step, launch, mainPlane, overlayPlane, ?_⟩
    exact
      { step_of
        decoded := d.decoded
        main_at := d.main_at
        main_bound := (planeArgument_ok d.main_argument).1
        overlay_at := by rw [kept]; exact d.overlay_at
        overlay_bound := (planeArgument_ok d.overlay_argument).1
        exact := d.exact roomy step_suits wide high (overlayShaped.extent d.overlay_at)
        opaque_unless := d.alpha_bound.1
        alpha := by
          intro k reads
          obtain ⟨alphaPlane, here, binds⟩ := d.alpha_bound.2 k reads
          rw [kept]
          exact ⟨alphaPlane, here, binds, fun t _ active =>
            d.alpha_inside roomy step_suits wide high reads (overlayShaped.extent here) active⟩ }

/-- An overlay with alpha, of odd size and partly to the left of a main picture that is copied first: three
launches. -/
theorem composite_exact_odd :
    let main : Picture := ⟨0, .yuv420p, 5, 3, none, some ⟨⟨1, 2⟩, .yuv420p, 5, 3, some 0⟩⟩
    let overlay : Picture := ⟨1, .yuva420p, 3, 5, none, none⟩
    let offset : OverlayOffset := ⟨.aligned (-2), 1⟩
    let session : Session := ⟨some ⟨1, 2⟩, 3, 4⟩
    let s : DeviceState :=
      { store :=
          { buffers := [⟨DevicePlane.layout 0x1000 .yuv420p 5 3 16, none, 2⟩,
              ⟨DevicePlane.layout 0x9000 .yuva420p 3 5 16, none, 1⟩]
            pools := [.new .yuv420p 5 3] } }
    let plan : PlanePlan := ⟨.yuv420p, .yuva420p, stepsOf (some 3) .planar⟩
    ((plan.composite session main overlay offset s).2.history.filter Moment.isLaunch).length = 3 ∧
    ∀ m ∈ (plan.composite session main overlay offset s).2.history, ∀ record,
      m.call = .launch record → ∃ step launch mainPlane overlayPlane,
        plan.Confined (plan.composite session main overlay offset s).1.2 overlay offset m.store record
          step launch mainPlane overlayPlane := by
  intro main overlay offset session s plan
  have mainShaped : main.Shaped s.store := ⟨by decide +kernel, by decide +kernel⟩
  have overlayShaped : overlay.Shaped s.store := ⟨by decide +kernel, by decide +kernel⟩
  have planned : ofFormats .yuv420p .yuva420p = .ok plan := rfl
  have draws := composite_exact planned session offset mainShaped overlayShaped (by decide) (by decide)
    (List.nil_append _).symm
  exact ⟨by decide +kernel, draws⟩

end PlanePlan

end FrameOverlay
