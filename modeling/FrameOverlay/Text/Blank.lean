/-!
# Blank characters

* `Text.isBlank` — the twenty-five characters with the property White_Space;
* `Text.isBlankText` — nothing is left of the text once blanks are removed from both ends.
-/

namespace FrameOverlay.Text

/-- Ranges of code points with the property White_Space, both ends included. -/
def blankRanges : List (Nat × Nat) :=
  [(0x09, 0x0D), (0x20, 0x20), (0x85, 0x85), (0xA0, 0xA0), (0x1680, 0x1680), (0x2000, 0x200A),
    (0x2028, 0x2029), (0x202F, 0x202F), (0x205F, 0x205F), (0x3000, 0x3000)]

/-- The character has the property White_Space. -/
def isBlank (c : Char) : Bool :=
  blankRanges.any fun (first, last) => first ≤ c.toNat && c.toNat ≤ last

/-- Every character is blank. -/
def isBlankText (s : String) : Bool :=
  s.toList.all isBlank

example : isBlank '\u3000' = true ∧ isBlank '\u200b' = false ∧ isBlank '\x1c' = false := by decide

/-- Visible ASCII characters are not blank. -/
theorem isBlank_of_visible {c : Char} (low : 0x20 < c.toNat) (high : c.toNat < 0x7F) :
    isBlank c = false := by
  rw [isBlank, List.any_eq_false]
  simp only [blankRanges, List.forall_mem_cons, Bool.and_eq_true, decide_eq_true_eq]
  refine ⟨?_, ?_, ?_, ?_, ?_, ?_, ?_, ?_, ?_, ?_, by simp⟩ <;> omega

end FrameOverlay.Text
