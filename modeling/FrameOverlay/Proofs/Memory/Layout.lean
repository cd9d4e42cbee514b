import FrameOverlay.Memory.Plane
import Mathlib.Data.Nat.Basic
import Mathlib.Order.Bounds.Defs
import Mathlib.Order.Interval.Set.Defs

/-!
# How the planes of a picture lie

The planes of a picture follow each other without a gap.  Addresses are words: this is so as long as the last
byte has an address.

* `roundedUp`, `PixelFormat.footprint` — the bytes of a picture, without the words they are computed in;
* `DevicePlane.Consecutive` — planes from an address on, each where the one before ends;
* `DevicePlane.bytes_stack`, `DevicePlane.consecutive_stack` — what stacking some sizes comes to;
* `DevicePlane.LaidOut`, `DevicePlane.laidOut_layout` — **a layout lies as it should**.
-/

namespace FrameOverlay

/-! ### Exact sizes -/

/-- The least multiple of `align` that is not below `bytes`. -/
def roundedUp (bytes align : Nat) : Nat := (bytes + align - 1) / align * align

theorem isLeast_roundedUp (bytes : Nat) {align : Nat} (pos : 0 < align) :
    IsLeast {n | align ∣ n ∧ bytes ≤ n} (roundedUp bytes align) := by
  have split := Nat.div_add_mod (bytes + align - 1) align
  have rest := Nat.mod_lt (bytes + align - 1) pos
  rw [Nat.mul_comm] at split
  refine ⟨⟨Nat.dvd_mul_left _ _, by unfold roundedUp; omega⟩, ?_⟩
  rintro n ⟨⟨k, rfl⟩, enough⟩
  have fewer : (bytes + align - 1) / align < k + 1 := by
    rw [Nat.div_lt_iff_lt_mul pos, Nat.add_mul, Nat.one_mul, Nat.mul_comm k]
    omega
  rw [roundedUp, Nat.mul_comm align]
  exact Nat.mul_le_mul_right align (Nat.le_of_lt_succ fewer)

/-- The bytes that planes of some sizes take. -/
def PlaneExtent.footprint (align : Nat) : List PlaneExtent → Nat
  | [] => 0
  | e :: es => roundedUp e.rowBytes align * e.rows + footprint align es

namespace PixelFormat

/-- A word holds the rows of a plane, and almost its bytes per row. -/
theorem planeExtent_bounds (f : PixelFormat) (plane : Nat) (width height : UInt32) :
    (f.planeExtent plane width height).rowBytes < 4 * UInt32.size ∧
      (f.planeExtent plane width height).rows < UInt32.size := by
  have w := width.toNat_lt
  have h := height.toNat_lt
  simp only [UInt32.size]
  cases f <;> rcases plane with _ | _ | _ | _ | plane <;>
    simp only [planeExtent, subsampled, chromaReduction, bytesPerSample, Nat.shiftLeft_zero,
      Nat.reduceShiftLeft] <;> omega

/-- The sizes of all planes of a picture. -/
def extents (f : PixelFormat) (width height : UInt32) : List PlaneExtent :=
  (List.range f.planeCount).map fun i => f.planeExtent i width height

/-- The bytes that the planes of a picture take. -/
def footprint (f : PixelFormat) (width height : UInt32) (align : Nat) : Nat :=
  PlaneExtent.footprint align (f.extents width height)

theorem rowBytes_lt {f : PixelFormat} {width height : UInt32} {e : PlaneExtent}
    (listed : e ∈ f.extents width height) : e.rowBytes < 4 * UInt32.size := by
  obtain ⟨i, -, rfl⟩ := List.mem_map.1 listed
  exact (f.planeExtent_bounds i width height).1

/-- A picture that is not empty takes some bytes. -/
theorem footprint_pos (f : PixelFormat) {width height : UInt32} {align : Nat} (pos : 0 < align)
    (wide : width ≠ 0) (high : height ≠ 0) : 0 < f.footprint width height align := by
  have w : 0 < width.toNat := Nat.pos_of_ne_zero fun h => wide (UInt32.toNat_inj.1 h)
  have h : 0 < height.toNat := Nat.pos_of_ne_zero fun h => high (UInt32.toNat_inj.1 h)
  obtain ⟨es, first⟩ : ∃ es, f.extents width height =
      ⟨width.toNat * f.bytesPerSample, height.toNat⟩ :: es := by
    cases f <;> exact ⟨_, rfl⟩
  have bytes : 0 < f.bytesPerSample := by cases f <;> decide
  have enough := (isLeast_roundedUp (width.toNat * f.bytesPerSample) pos).1.2
  rw [footprint, first, PlaneExtent.footprint]
  exact Nat.add_pos_left (Nat.mul_pos (Nat.lt_of_lt_of_le (Nat.mul_pos w bytes) enough) h) _

end PixelFormat

namespace DevicePlane

/-- What lies in a layout: one of the sizes asked for, at an aligned pitch. -/
theorem mem_stack {align : Nat} {address : UInt64} {extents : List PlaneExtent} {plane : DevicePlane}
    (h : plane ∈ stack align address extents) :
    plane.extent ∈ extents ∧ plane.pitch = alignedPitch plane.rowBytes align := by
  induction extents generalizing address with
  | nil => exact absurd h List.not_mem_nil
  | cons e es ih =>
    rcases List.mem_cons.1 h with rfl | later
    · exact ⟨List.mem_cons_self, rfl⟩
    · obtain ⟨listed, pitch⟩ := ih later
      exact ⟨List.mem_cons_of_mem _ listed, pitch⟩

/-- A pitch fits in a word. -/
theorem alignedPitch_eq {bytes align : Nat} (pos : 0 < align) (word : align < UInt64.size)
    (small : bytes < 4 * UInt32.size) : alignedPitch bytes align = roundedUp bytes align := by
  refine Nat.mod_eq_of_lt ?_
  show (bytes + align - 1) / align * align < _
  simp only [UInt32.size, UInt64.size] at small word ⊢
  rcases Nat.lt_or_ge align bytes with less | more
  · have all := Nat.div_mul_le_self (bytes + align - 1) align
    omega
  · have one : (bytes + align - 1) / align < 2 := by
      rw [Nat.div_lt_iff_lt_mul pos]
      omega
    have all := Nat.mul_le_mul_right align (Nat.le_of_lt_succ one)
    omega

/-! ### Planes one after the other -/

/-- The planes lie one after the other from `start` on. -/
def Consecutive : Nat → List DevicePlane → Prop
  | _, [] => True
  | start, p :: ps => p.address.toNat = start ∧ Consecutive (start + p.span) ps

/-- The bytes of some planes. -/
def bytes : List DevicePlane → Nat
  | [] => 0
  | p :: ps => p.span + bytes ps

/-- The addresses from a plane's first byte to the end of its last row. -/
def range (p : DevicePlane) : Set Nat := Set.Ico p.address.toNat (p.address.toNat + p.span)

namespace Consecutive

variable {start : Nat} {planes : List DevicePlane} {p q : DevicePlane} {i j : Nat}

theorem within (h : Consecutive start planes) (listed : p ∈ planes) :
    start ≤ p.address.toNat ∧ p.address.toNat + p.span ≤ start + bytes planes := by
  induction planes generalizing start with
  | nil => exact absurd listed List.not_mem_nil
  | cons first rest ih =>
    obtain ⟨here, others⟩ := h
    rw [bytes]
    rcases List.mem_cons.1 listed with rfl | later
    · omega
    · have inside := ih others later
      omega

/-- A later plane begins where an earlier one has ended. -/
theorem apart (h : Consecutive start planes) (first : planes[i]? = some p) (second : planes[j]? = some q)
    (less : i < j) : p.address.toNat + p.span ≤ q.address.toNat := by
  induction planes generalizing start i j with
  | nil => exact nomatch first
  | cons plane rest ih =>
    obtain ⟨here, others⟩ := h
    obtain ⟨j, rfl⟩ := Nat.exists_eq_add_one_of_ne_zero (Nat.ne_zero_of_lt less)
    cases i with
    | zero =>
      obtain rfl := Option.some.inj first
      rw [here]
      exact (others.within (List.mem_of_getElem? second)).1
    | succ i => exact ih others first second (Nat.lt_of_succ_lt_succ less)

/-- The next plane begins where the one before ends. -/
theorem next (h : Consecutive start planes) (here : planes[i]? = some p) (there : planes[i + 1]? = some q) :
    q.address.toNat = p.address.toNat + p.span := by
  induction planes generalizing start i with
  | nil => exact nomatch here
  | cons plane rest ih =>
    obtain ⟨first, others⟩ := h
    cases i with
    | succ i => exact ih others here there
    | zero =>
      obtain rfl := Option.some.inj here
      cases rest with
      | nil => exact nomatch there
      | cons second rest =>
        obtain rfl := Option.some.inj there
        rw [first]
        exact others.1

end Consecutive

/-! ### Layouts -/

/-- The size of a plane by its place. -/
theorem extent_of_extents {planes : List DevicePlane} {plane : DevicePlane} {f : PixelFormat}
    {width height : UInt32} (sizes : planes.map extent = f.extents width height) {i : Nat}
    (here : planes[i]? = some plane) : plane.extent = f.planeExtent i width height := by
  have same := congrArg (·[i]?) sizes
  simp only [PixelFormat.extents, List.getElem?_map, here, Option.map_some] at same
  obtain ⟨k, found, extent⟩ := Option.map_eq_some_iff.1 same.symm
  obtain ⟨_, rfl⟩ := List.getElem?_eq_some_iff.1 found
  rw [← extent, List.getElem_range]

section Stack

variable {align : Nat} {address : UInt64} {extents : List PlaneExtent}

theorem map_extent_stack (align : Nat) (address : UInt64) (extents : List PlaneExtent) :
    (stack align address extents).map extent = extents := by
  induction extents generalizing address with
  | nil => rfl
  | cons e es ih => rw [stack, List.map_cons, ih]; rfl

variable (pos : 0 < align) (word : align < UInt64.size)
  (small : ∀ e ∈ extents, e.rowBytes < 4 * UInt32.size)
include pos word small

theorem bytes_stack : bytes (stack align address extents) = PlaneExtent.footprint align extents := by
  induction extents generalizing address with
  | nil => rfl
  | cons e es ih =>
    obtain ⟨first, rest⟩ := List.forall_mem_cons.1 small
    rw [stack, bytes, ih rest, span, alignedPitch_eq pos word first]
    rfl

/-- Planes that are stacked lie one after the other. -/
theorem consecutive_stack (fits : address.toNat + PlaneExtent.footprint align extents < UInt64.size) :
    Consecutive address.toNat (stack align address extents) := by
  induction extents generalizing address with
  | nil => trivial
  | cons e es ih =>
    obtain ⟨first, rest⟩ := List.forall_mem_cons.1 small
    rw [PlaneExtent.footprint] at fits
    let after := address + UInt64.ofNat (roundedUp e.rowBytes align * e.rows)
    have behind : after.toNat = address.toNat + roundedUp e.rowBytes align * e.rows := by
      rw [UInt64.toNat_add, UInt64.toNat_ofNat_of_lt' (by omega), Nat.mod_eq_of_lt]
      simp only [UInt64.size] at fits
      omega
    have others : Consecutive after.toNat (stack align after es) := ih rest (by rw [behind]; omega)
    rw [behind] at others
    rw [stack, Consecutive, span, alignedPitch_eq pos word first]
    exact ⟨rfl, others⟩

end Stack

/-- How the planes of a `width × height` picture lie from `base` on. -/
structure LaidOut (base : UInt64) (format : PixelFormat) (width height : UInt32) (align : Nat)
    (planes : List DevicePlane) : Prop where
  /-- There are as many as the format has, each of its size. -/
  extents : planes.map extent =
    (List.range format.planeCount).map fun i => format.planeExtent i width height
  pitches : ∀ p ∈ planes, IsLeast {n | align ∣ n ∧ p.rowBytes ≤ n} p.pitch
  first : ∀ p, planes[0]? = some p → p.address = base
  next : ∀ i p q, planes[i]? = some p → planes[i + 1]? = some q →
    q.address.toNat = p.address.toNat + p.span

section Layout

variable {base : UInt64} {format : PixelFormat} {width height : UInt32} {align : Nat}

/-- An alignment of zero counts as one. -/
theorem align_bounds (word : align < UInt64.size) : 0 < max align 1 ∧ max align 1 < UInt64.size :=
  ⟨Nat.lt_of_lt_of_le Nat.one_pos (Nat.le_max_right _ _), Nat.max_lt.2 ⟨word, by decide⟩⟩

theorem consecutive_layout (word : align < UInt64.size)
    (fits : base.toNat + format.footprint width height (max align 1) < UInt64.size) :
    Consecutive base.toNat (layout base format width height align) :=
  consecutive_stack (align_bounds word).1 (align_bounds word).2
    (fun _ listed => PixelFormat.rowBytes_lt listed) fits

theorem bytes_layout (word : align < UInt64.size) : bytes (layout base format width height align) =
    format.footprint width height (max align 1) :=
  bytes_stack (align_bounds word).1 (align_bounds word).2
    fun _ listed => PixelFormat.rowBytes_lt listed

theorem pitch_layout (word : align < UInt64.size) {p : DevicePlane}
    (listed : p ∈ layout base format width height align) :
    IsLeast {n | max align 1 ∣ n ∧ p.rowBytes ≤ n} p.pitch := by
  obtain ⟨size, pitch⟩ := mem_stack listed
  obtain ⟨pos, word⟩ := align_bounds word
  have small : p.rowBytes < 4 * UInt32.size := PixelFormat.rowBytes_lt size
  rw [pitch, alignedPitch_eq pos word small]
  exact isLeast_roundedUp p.rowBytes pos

/-- **A layout lies as it should**, as long as its last byte has an address. -/
theorem laidOut_layout (word : align < UInt64.size)
    (fits : base.toNat + format.footprint width height (max align 1) < UInt64.size) :
    LaidOut base format width height (max align 1) (layout base format width height align) where
  extents := map_extent_stack _ _ _
  pitches _ listed := pitch_layout word listed
  first p here := by
    cases format <;> exact (Option.some.inj here).symm ▸ rfl
  next _ _ _ here there := (consecutive_layout word fits).next here there

end Layout

end DevicePlane

end FrameOverlay
