import FrameOverlay.Text.Bytes

/-!
# Places in a text

* `Text.bytes` — the bytes of a text in UTF-8;
* `Text.cut?`, `Text.between?` — a text cut at a byte, and the piece between two bytes; a text cannot be cut
  inside a character or behind its end;
* `Text.IsBoundary` — a byte at which a text can be cut.
-/

namespace FrameOverlay.Text

/-- The bytes of a text in UTF-8. -/
def bytes (cs : List Char) : List UInt8 := cs.flatMap String.utf8EncodeChar

/-- The character with the code of a byte. -/
def byteChar (b : UInt8) : Char := Char.ofNat b.toNat

/-- What is before byte `n` and what is behind it, if no character goes across. -/
def cut? : List Char → Nat → Option (List Char × List Char)
  | cs, 0 => some ([], cs)
  | [], _ + 1 => none
  | c :: cs, n + 1 =>
    if c.utf8Size ≤ n + 1 then
      (cut? cs (n + 1 - c.utf8Size)).map fun (front, back) => (c :: front, back)
    else
      none

/-- The characters from byte `start` to byte `stop`. -/
def between? (cs : List Char) (start stop : Nat) : Option (List Char) :=
  if start ≤ stop then do
    let (_, back) ← cut? cs start
    let (piece, _) ← cut? back (stop - start)
    return piece
  else
    none

example : between? ['a', 'é', 'b'] 1 3 = some ['é'] ∧ between? ['a', 'é', 'b'] 1 2 = none := by decide

/-- A character starts at byte `n`, or the text ends there. -/
def IsBoundary (cs : List Char) (n : Nat) : Prop :=
  ∃ front back, cs = front ++ back ∧ byteSize front = n

/-! ### Bytes -/

@[simp] theorem bytes_cons (c : Char) (cs : List Char) :
    bytes (c :: cs) = String.utf8EncodeChar c ++ bytes cs := rfl

@[simp] theorem bytes_append (cs ds : List Char) : bytes (cs ++ ds) = bytes cs ++ bytes ds :=
  List.flatMap_append

@[simp] theorem length_bytes (cs : List Char) : (bytes cs).length = byteSize cs := by
  induction cs with
  | nil => rfl
  | cons c cs ih => rw [bytes_cons, List.length_append, String.length_utf8EncodeChar, ih, byteSize]

/-- These are the bytes that a string is made of. -/
theorem toByteArray_eq_bytes (s : String) : s.toByteArray = (bytes s.toList).toByteArray := by
  conv => arg 1; rw [← String.ofList_toList (s := s)]
  rw [String.toByteArray_ofList]
  rfl

theorem utf8ByteSize_eq_byteSize (s : String) : s.utf8ByteSize = byteSize s.toList := by
  rw [String.utf8ByteSize, toByteArray_eq_bytes, List.size_toByteArray, length_bytes]

/-- The code of a small character is its only byte. -/
theorem utf8EncodeChar_of_small {c : Char} (small : c.toNat < 0x80) :
    String.utf8EncodeChar c = [UInt8.ofNat c.toNat] := by
  have low : c.val.toNat ≤ 0x7F := Nat.le_of_lt_succ small
  simp only [String.utf8EncodeChar, low, if_true]
  rfl

/-- The bytes of other characters start with a large one. -/
theorem utf8EncodeChar_of_large {c : Char} (large : 0x80 ≤ c.toNat) :
    ∃ b rest, String.utf8EncodeChar c = b :: rest ∧ 0x80 ≤ b.toNat := by
  have high : ¬ c.val.toNat ≤ 0x7F := Nat.not_le.2 large
  simp only [String.utf8EncodeChar, high, if_false]
  split
  · refine ⟨_, _, rfl, ?_⟩
    simp only [UInt8.toNat_ofNat']
    omega
  split
  · refine ⟨_, _, rfl, ?_⟩
    simp only [UInt8.toNat_ofNat']
    omega
  · refine ⟨_, _, rfl, ?_⟩
    simp only [UInt8.toNat_ofNat']
    omega

/-- The first byte of a character is the first of its bytes. -/
theorem head?_utf8EncodeChar (c : Char) :
    (String.utf8EncodeChar c).head?.map UInt8.toNat = some (firstByte c) := by
  have most : c.toNat < 0x110000 := by
    rcases c.valid with low | ⟨-, high⟩
    · exact Nat.lt_trans low (by decide)
    · exact high
  have size : c.utf8Size =
      if c.toNat ≤ 127 then 1 else if c.toNat ≤ 2047 then 2 else if c.toNat ≤ 65535 then 3 else 4 := by
    simp only [Char.utf8Size, UInt32.le_iff_toNat_le]
    rfl
  have code : c.val.toNat = c.toNat := rfl
  have byte {b : Nat} (small : b < 2 ^ 8) : (UInt8.ofNat b).toNat = b := by
    rw [UInt8.toNat_ofNat', Nat.mod_eq_of_lt small]
  simp only [firstByte, size, String.utf8EncodeChar, code]
  generalize c.toNat = n at most
  by_cases one : n ≤ 127
  · simp only [if_pos one, List.head?_cons, Option.map_some, byte (b := n) (by omega)]
  by_cases two : n ≤ 2047
  · simp only [if_neg one, if_pos two, List.head?_cons, Option.map_some,
      byte (b := n / 64 % 32 + 192) (by omega), Option.some.injEq]
    omega
  by_cases three : n ≤ 65535
  · simp only [if_neg one, if_neg two, if_pos three, List.head?_cons, Option.map_some,
      byte (b := n / 4096 % 16 + 224) (by omega), Option.some.injEq]
    omega
  · simp only [if_neg one, if_neg two, if_neg three, List.head?_cons, Option.map_some,
      byte (b := n / 262144 % 8 + 240) (by omega), Option.some.injEq]
    omega

/-- What is said of ASCII characters alone can be told from the first byte. -/
theorem bytes_cons_first (c : Char) (cs : List Char) : ∃ b rest, bytes (c :: cs) = b :: rest ∧
    b.toNat = firstByte c ∧
    ∀ p : Char → Bool, (∀ d, p d = true → d.toNat < 0x80) → p (byteChar b) = p c := by
  have first := head?_utf8EncodeChar c
  rcases Nat.lt_or_ge c.toNat 0x80 with small | large
  · have encoded := utf8EncodeChar_of_small small
    have code : (UInt8.ofNat c.toNat).toNat = c.toNat := by
      rw [UInt8.toNat_ofNat', Nat.mod_eq_of_lt (by omega)]
    rw [encoded] at first
    refine ⟨UInt8.ofNat c.toNat, bytes cs, by rw [bytes_cons, encoded]; rfl, Option.some.inj first, ?_⟩
    intro p _
    rw [byteChar, code, Char.ofNat_toNat]
  · obtain ⟨b, rest, encoded, high⟩ := utf8EncodeChar_of_large large
    rw [encoded] at first
    refine ⟨b, rest ++ bytes cs, by rw [bytes_cons, encoded]; rfl, Option.some.inj first, ?_⟩
    intro p ascii
    have valid : b.toNat.isValidChar := .inl (Nat.lt_trans b.toNat_lt (by decide))
    have code : (byteChar b).toNat = b.toNat := by
      rw [byteChar, Char.ofNat, dif_pos valid]
      rfl
    have other {d : Char} (h : 0x80 ≤ d.toNat) : p d = false :=
      Bool.eq_false_iff.2 fun holds => Nat.not_le.2 (ascii d holds) h
    rw [other large, other (code.symm ▸ high)]

/-! ### Boundaries -/

theorem IsBoundary.le {cs : List Char} {n : Nat} (h : IsBoundary cs n) : n ≤ byteSize cs := by
  obtain ⟨front, back, rfl, rfl⟩ := h
  rw [byteSize_append]
  exact Nat.le_add_right _ _

/-- Boundaries are the valid positions of a string. -/
theorem isBoundary_iff_isValid (s : String) (n : Nat) :
    IsBoundary s.toList n ↔ String.Pos.Raw.IsValid s ⟨n⟩ := by
  rw [String.Pos.Raw.isValid_iff_exists_append]
  constructor
  · rintro ⟨front, back, whole, size⟩
    refine ⟨String.ofList front, String.ofList back, ?_, ?_⟩
    · rw [← String.ofList_append, ← whole, String.ofList_toList]
    · rw [← size, String.Pos.Raw.ext_iff]
      show byteSize front = (String.ofList front).utf8ByteSize
      rw [utf8ByteSize_eq_byteSize, String.toList_ofList]
  · rintro ⟨front, back, rfl, place⟩
    refine ⟨front.toList, back.toList, String.toList_append, ?_⟩
    rw [← utf8ByteSize_eq_byteSize]
    exact (String.Pos.Raw.ext_iff.1 place).symm

/-- A text is cut where one piece ends and the other starts. -/
theorem cut?_append (front back : List Char) :
    cut? (front ++ back) (byteSize front) = some (front, back) := by
  induction front with
  | nil =>
    cases back <;> rfl
  | cons c front ih =>
    have some := c.utf8Size_pos
    obtain ⟨n, size⟩ : ∃ n, c.utf8Size + byteSize front = n + 1 := ⟨_, (Nat.succ_pred (by omega)).symm⟩
    show cut? (c :: (front ++ back)) (c.utf8Size + byteSize front) = _
    rw [size, cut?, if_pos (by omega), ← size, Nat.add_sub_cancel_left, ih]
    rfl

theorem between?_append (front piece back : List Char) :
    between? (front ++ piece ++ back) (byteSize front) (byteSize front + byteSize piece) = some piece := by
  rw [between?, if_pos (Nat.le_add_right _ _), Nat.add_sub_cancel_left, List.append_assoc, cut?_append]
  show (cut? (piece ++ back) (byteSize piece) >>= fun found => some found.1) = some piece
  rw [cut?_append]
  rfl

end FrameOverlay.Text
