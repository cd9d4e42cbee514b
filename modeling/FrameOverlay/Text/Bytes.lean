/-!
# Text as bytes

Places in a text are counted in bytes of its UTF-8 form.

* `Text.byteSize` — the number of bytes of a text;
* `Text.firstByte` — the byte a character starts with.
-/

namespace FrameOverlay.Text

/-- Bytes of a text in UTF-8. -/
def byteSize : List Char → Nat
  | [] => 0
  | c :: cs => c.utf8Size + byteSize cs

/-- First byte of a character in UTF-8. -/
def firstByte (c : Char) : Nat :=
  let n := c.toNat
  match c.utf8Size with
  | 1 => n
  | 2 => 0xC0 + n / 0x40
  | 3 => 0xE0 + n / 0x1000
  | _ => 0xF0 + n / 0x40000

@[simp] theorem byteSize_append (cs ds : List Char) :
    byteSize (cs ++ ds) = byteSize cs + byteSize ds := by
  induction cs with
  | nil => simp only [List.nil_append, byteSize, Nat.zero_add]
  | cons c cs ih => simp only [List.cons_append, byteSize, ih, Nat.add_assoc]

/-- A character takes at least one byte. -/
theorem length_le_byteSize (cs : List Char) : cs.length ≤ byteSize cs := by
  induction cs with
  | nil => exact Nat.le_refl _
  | cons c cs ih =>
    have := c.utf8Size_pos
    simp only [List.length_cons, byteSize]
    omega

example : byteSize ['a', 'é', '😀'] = 7 ∧ firstByte 'é' = 0xC3 ∧ firstByte '😀' = 0xF0 := by decide

end FrameOverlay.Text
