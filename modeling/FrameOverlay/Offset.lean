/-!
# Overlay offsets

Where the overlay's upper left corner lies on the main picture, in luma pixels.

* `XPosition` — an even column, or unset;
* `XPosition.ofFloat` — a computed column, cut to an integer and rounded down to an even one;
* `OverlayOffset` — column and row.
-/

namespace FrameOverlay

/-- Horizontal position of the overlay.  An expression that yields no number leaves it unset. -/
inductive XPosition where
  | aligned (column : Int32)
  | unset
  deriving DecidableEq, Repr

namespace XPosition

/-- The column handed to the kernel for an unset position: to the right of every plane. -/
def unsetColumn : Int32 := Int32.maxValue

/-- The greatest even column that is not above `column`. -/
def evenColumn (column : Int32) : Int32 :=
  Int32.ofInt (2 * (column.toInt / 2))

/-- A computed column: cut toward zero into the range of columns, then made even; unset where
there is no number. -/
def ofFloat (x : Float) : XPosition :=
  if x.isNaN then unset else aligned (evenColumn x.toInt32)

/-- The column handed to the kernel. -/
def kernelColumn : XPosition → Int32
  | aligned column => column
  | unset => unsetColumn

/-- How the position is written. -/
def text : XPosition → String
  | aligned column => toString column.toInt
  | unset => "unset"

/-- An even column stays within the range of columns. -/
theorem toInt_evenColumn (column : Int32) :
    (evenColumn column).toInt = 2 * (column.toInt / 2) := by
  have low := column.le_toInt
  have high := column.toInt_lt
  exact Int32.toInt_ofInt_of_le (by omega) (by omega)

end XPosition

/-- Column and row of the overlay's upper left corner. -/
structure OverlayOffset where
  x : XPosition
  y : Int32
  deriving DecidableEq, Repr

namespace OverlayOffset

/-- The upper left corner of the main picture. -/
def origin : OverlayOffset := ⟨.aligned 0, 0⟩

end OverlayOffset

end FrameOverlay
