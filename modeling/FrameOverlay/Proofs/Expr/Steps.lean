import FrameOverlay.Expr.Cursor
import FrameOverlay.Proofs.Expr.Lexing

/-!
# What a cursor does on a text

A cursor between two characters sees the first byte of the one behind it, which tells what it needs to know.
So what the cursor does byte by byte can be said of the characters and tokens ahead.

* `Stands` — the cursor stands between two characters, with `cs` ahead of it;
* `IsAscii`, `byteIs_stands` — what the next byte tells;
* `skipWhile_stands`, `sliceFrom_stands`, `exponent_stands` — **runs of characters**;
* `eaten` — **the next token is a mark, or it is not**.
-/

namespace FrameOverlay.Expr

open Text (bytes byteSize byteChar IsBoundary firstByte)

/-! ### Computations after each other -/

section Bind

variable {α β : Type} {x : Reading α} {f : α → Reading β} {s s' : Cursor}

theorem reading_bind_ok {a : α} (h : x s = .ok (a, s')) : (x >>= f) s = f a s' := by
  show (x s >>= fun p => f p.1 p.2) = f a s'
  rw [h]
  rfl

theorem reading_bind_error {e : Stop} (h : x s = .error e) : (x >>= f) s = .error e := by
  show (x s >>= fun p => f p.1 p.2) = .error e
  rw [h]
  rfl

end Bind

/-! ### Where the cursor stands -/

/-- A place between two characters of the text, with `cs` behind it. -/
def Stands (text : List Char) (place : Nat) (cs : List Char) : Prop :=
  ∃ front, text = front ++ cs ∧ byteSize front = place

section Stands

variable {text cs ds : List Char} {place : Nat}

theorem Stands.isBoundary (h : Stands text place cs) : IsBoundary text place := by
  obtain ⟨front, whole, size⟩ := h
  exact ⟨front, cs, whole, size⟩

theorem Stands.of_isBoundary (h : IsBoundary text place) : ∃ cs, Stands text place cs := by
  obtain ⟨front, cs, whole, size⟩ := h
  exact ⟨cs, front, whole, size⟩

theorem Stands.size (h : Stands text place cs) : place + byteSize cs = byteSize text := by
  obtain ⟨front, rfl, rfl⟩ := h
  exact (Text.byteSize_append front cs).symm

theorem Stands.skip (h : Stands text place (ds ++ cs)) : Stands text (place + byteSize ds) cs := by
  obtain ⟨front, rfl, rfl⟩ := h
  exact ⟨front ++ ds, (List.append_assoc front ds cs).symm, Text.byteSize_append front ds⟩

end Stands

/-! ### Bytes of ASCII characters -/

/-- Only ASCII characters satisfy `p`. -/
def IsAscii (p : Char → Bool) : Prop := ∀ c, p c = true → c.toNat < 0x80

theorem isAscii_isDigit : IsAscii Char.isDigit := by
  intro c digit
  simp only [Char.isDigit, Bool.and_eq_true, decide_eq_true_eq] at digit
  have most : c.toNat ≤ 57 := digit.2
  omega

theorem isAscii_isGap : IsAscii isGap := by
  intro c gap
  simp only [isGap, Bool.or_eq_true, beq_iff_eq] at gap
  rcases gap with (((rfl | rfl) | rfl) | rfl) | rfl <;> decide

theorem isAscii_isNumeralChar : IsAscii isNumeralChar := by
  intro c numeral
  rcases Bool.or_eq_true_iff.1 numeral with digit | point
  · exact isAscii_isDigit c digit
  · obtain rfl := beq_iff_eq.1 point
    decide

theorem isAscii_isAlpha : IsAscii Char.isAlpha := by
  intro c letter
  delta Char.isAlpha Char.isUpper Char.isLower at letter
  simp only [Bool.or_eq_true, Bool.and_eq_true, decide_eq_true_eq] at letter
  rcases letter with ⟨-, upper⟩ | ⟨-, lower⟩
  · have most : c.toNat ≤ 90 := upper
    omega
  · have most : c.toNat ≤ 122 := lower
    omega

theorem isAscii_isNameStart : IsAscii isNameStart := by
  intro c start
  rcases Bool.or_eq_true_iff.1 start with letter | line
  · exact isAscii_isAlpha c letter
  · obtain rfl := beq_iff_eq.1 line
    decide

theorem isAscii_isNameChar : IsAscii isNameChar := by
  intro c inside
  rcases Bool.or_eq_true_iff.1 inside with plain | line
  · rcases Bool.or_eq_true_iff.1 plain with letter | digit
    · exact isAscii_isAlpha c letter
    · exact isAscii_isDigit c digit
  · obtain rfl := beq_iff_eq.1 line
    decide

theorem isAscii_beq {d : Char} (small : d.toNat < 0x80) : IsAscii (· == d) := by
  intro c same
  obtain rfl := beq_iff_eq.1 same
  exact small

theorem isAscii_or {p q : Char → Bool} (hp : IsAscii p) (hq : IsAscii q) : IsAscii fun c => p c || q c := by
  intro c either
  exact (Bool.or_eq_true_iff.1 either).elim (hp c) (hq c)

/-- An ASCII character takes one byte. -/
theorem utf8Size_of_ascii {c : Char} (small : c.toNat < 0x80) : c.utf8Size = 1 := by
  rw [← String.length_utf8EncodeChar, Text.utf8EncodeChar_of_small small]
  rfl

/-- One step over an ASCII character. -/
theorem Stands.step {text cs : List Char} {place : Nat} {c : Char} (small : c.toNat < 0x80)
    (h : Stands text place (c :: cs)) : Stands text (place + 1) cs := by
  have behind : Stands text (place + byteSize [c]) cs := Stands.skip h
  rwa [byteSize, byteSize, utf8Size_of_ascii small] at behind

/-- A run of characters is behind the cursor. -/
theorem Stands.behind {text cs : List Char} {place : Nat} (h : Stands text place cs) (p : Char → Bool) :
    Stands text (place + byteSize (cs.takeWhile p)) (cs.dropWhile p) := by
  rw [← List.takeWhile_append_dropWhile (p := p) (l := cs)] at h
  exact h.skip

namespace Reading

variable {text cs : List Char} {place : Nat} {p : Char → Bool} (depth : Nat)

/-- The first byte behind the cursor. -/
theorem getElem?_stands (h : Stands text place cs) : (bytes text)[place]? = (bytes cs)[0]? := by
  obtain ⟨front, rfl, rfl⟩ := h
  rw [Text.bytes_append, List.getElem?_append_right (Nat.le_of_eq (Text.length_bytes front)), Text.length_bytes,
    Nat.sub_self]

/-- What the next byte tells. -/
theorem byteIs_stands (ascii : IsAscii p) (h : Stands text place cs) :
    byteIs text p place = cs.head?.any p := by
  rw [byteIs, getElem?_stands h]
  cases cs with
  | nil => rfl
  | cons c cs =>
    obtain ⟨b, rest, encoded, -, same⟩ := Text.bytes_cons_first c cs
    rw [encoded]
    exact same p ascii

theorem nextIs_stands (ascii : IsAscii p) (h : Stands text place cs) :
    nextIs text p ⟨place, depth⟩ = .ok (cs.head?.any p, ⟨place, depth⟩) := by
  rw [← byteIs_stands ascii h]
  rfl

theorem moveTo_stands {n : Nat} (h : Stands text n cs) :
    moveTo text n ⟨place, depth⟩ = .ok ((), ⟨n, depth⟩) := by
  have inside : n ≤ byteSize text := by
    rw [← h.size]
    exact Nat.le_add_right _ _
  unfold moveTo
  rw [if_pos inside]
  rfl

theorem advance_stands {c : Char} (small : c.toNat < 0x80) (h : Stands text place (c :: cs)) :
    advance text ⟨place, depth⟩ = .ok ((), ⟨place + 1, depth⟩) :=
  moveTo_stands depth (Stands.step small h)

/-! ### Runs -/

/-- A run of ASCII characters is skipped, however many turns there are beyond its length. -/
theorem skipWhile_stands (ascii : IsAscii p) (h : Stands text place cs) :
    skipWhile text p ⟨place, depth⟩ = .ok ((), ⟨place + byteSize (cs.takeWhile p), depth⟩) := by
  have enough : cs.length < turns text := by
    have least := Text.length_le_byteSize cs
    have size := h.size
    unfold turns
    omega
  unfold skipWhile
  -- One turn for each character of the run, and one to see that it is over.
  generalize turns text = n at enough
  induction cs generalizing place n with
  | nil =>
    obtain ⟨n, rfl⟩ := Nat.exists_eq_succ_of_ne_zero (Nat.ne_zero_of_lt enough)
    have stop := nextIs_stands depth ascii h
    have turn : skipOne text p () ⟨place, depth⟩ = .ok (.inr (), ⟨place, depth⟩) := reading_bind_ok stop
    exact reading_bind_ok turn
  | cons c cs ih =>
    obtain ⟨n, rfl⟩ := Nat.exists_eq_succ_of_ne_zero (Nat.ne_zero_of_lt enough)
    have next := nextIs_stands depth ascii h
    by_cases run : p c = true
    · have small := ascii c run
      rw [show (c :: cs).head?.any p = true from run] at next
      have on := ih (Stands.step small h) n (Nat.lt_of_succ_lt_succ enough)
      have size : place + byteSize ((c :: cs).takeWhile p) = place + 1 + byteSize (cs.takeWhile p) := by
        rw [List.takeWhile_cons_of_pos run, byteSize, utf8Size_of_ascii small, Nat.add_assoc]
      have turn : skipOne text p () ⟨place, depth⟩ = .ok (.inl (), ⟨place + 1, depth⟩) :=
        (reading_bind_ok next).trans (reading_bind_ok (advance_stands depth small h))
      rw [size, ← on]
      exact reading_bind_ok turn
    · rw [show (c :: cs).head?.any p = false from Bool.eq_false_iff.2 run] at next
      have turn : skipOne text p () ⟨place, depth⟩ = .ok (.inr (), ⟨place, depth⟩) := reading_bind_ok next
      rw [List.takeWhile_cons_of_neg run]
      exact reading_bind_ok turn

/-- A piece of the text between two places where the cursor stood. -/
theorem sliceFrom_stands {piece : List Char} (h : Stands text place (piece ++ cs)) :
    sliceFrom text place ⟨place + byteSize piece, depth⟩ =
      .ok (piece, ⟨place + byteSize piece, depth⟩) := by
  obtain ⟨front, rfl, rfl⟩ := h
  have found := Text.between?_append front piece cs
  rw [List.append_assoc] at found
  refine (reading_bind_ok rfl).trans ?_
  dsimp only
  rw [found]
  rfl

/-! ### Exponents -/

theorem isAscii_exponentLetter : IsAscii fun c => c == 'e' || c == 'E' :=
  isAscii_or (isAscii_beq (by decide)) (isAscii_beq (by decide))

theorem isAscii_sign : IsAscii fun c => c == '+' || c == '-' :=
  isAscii_or (isAscii_beq (by decide)) (isAscii_beq (by decide))

/-- The place of the first digit of an exponent, if there is one: behind a sign or none. -/
theorem digits_stands {sign rest : List Char} (signed : IsSign sign)
    (bare : sign = [] → ∀ c ∈ rest.head?, (c == '+' || c == '-') = false)
    (h : Stands text place (sign ++ rest)) :
    (if byteIs text (fun c => c == '+' || c == '-') place then place + 1 else place) =
      place + byteSize sign := by
  rw [byteIs_stands isAscii_sign h]
  rcases signed with rfl | rfl | rfl
  · cases rest with
    | nil => rfl
    | cons c rest =>
      have other := bare rfl c rfl
      rw [show (([] : List Char) ++ c :: rest).head?.any (fun c => c == '+' || c == '-') = false from other]
      rfl
  · rfl
  · rfl

/-- The exponent behind its letter and its sign. -/
theorem exponentPart_of_mark {letter : Char} {sign rest : List Char}
    (mark : (letter == 'e' || letter == 'E') = true) (signed : IsSign sign)
    (bare : sign = [] → ∀ c ∈ rest.head?, (c == '+' || c == '-') = false) :
    exponentPart (letter :: (sign ++ rest)) =
      if rest.head?.any Char.isDigit then letter :: (sign ++ rest.takeWhile Char.isDigit) else [] := by
  rw [exponentPart, exponentDigits_append signed bare, mark]
  cases rest with
  | nil => rfl
  | cons d rest =>
    rw [List.takeWhile_cons]
    cases digit : d.isDigit with
    | true => cases sign <;> simp [digit]
    | false => simp [digit]

/-- What is found of an exponent is skipped. -/
theorem exponent_stands (h : Stands text place cs) :
    Rule.exponent text ⟨place, depth⟩ = .ok ((), ⟨place + byteSize (exponentPart cs), depth⟩) := by
  have marked := nextIs_stands depth isAscii_exponentLetter h
  cases cs with
  | nil => exact (reading_bind_ok marked).trans rfl
  | cons letter cs =>
    by_cases mark : (letter == 'e' || letter == 'E') = true
    · have small := isAscii_exponentLetter letter mark
      rw [show (letter :: cs).head?.any (fun c => c == 'e' || c == 'E') = true from mark] at marked
      obtain ⟨sign, rest, rfl, signed, bare⟩ := exists_sign cs
      have behind := Stands.step small h
      have start := digits_stands signed bare behind
      have there := behind.skip
      have digit := byteIs_stands isAscii_isDigit there
      have head := exponentPart_of_mark mark signed bare
      refine (reading_bind_ok marked).trans ?_
      show (if byteIs text Char.isDigit (if byteIs text (fun c => c == '+' || c == '-') (place + 1) then
        place + 1 + 1 else place + 1) then _ else _ : Reading Unit) _ = _
      rw [start, digit, head]
      cases found : rest.head?.any Char.isDigit with
      | false => rfl
      | true =>
        have size : place + byteSize (letter :: (sign ++ rest.takeWhile Char.isDigit)) =
            place + 1 + byteSize sign + byteSize (rest.takeWhile Char.isDigit) := by
          rw [byteSize, utf8Size_of_ascii small, Text.byteSize_append]
          omega
        rw [if_pos rfl, if_pos rfl, size]
        exact (reading_bind_ok (moveTo_stands depth there)).trans (skipWhile_stands depth isAscii_isDigit there)
    · rw [show (letter :: cs).head?.any (fun c => c == 'e' || c == 'E') = false from
        Bool.eq_false_iff.2 mark] at marked
      have none : exponentPart (letter :: cs) = [] := by
        rw [exponentPart, Bool.eq_false_iff.2 mark]
        rfl
      rw [none]
      exact (reading_bind_ok marked).trans rfl

/-! ### Marks -/

section Mark

variable {c : Char} {t : Token}

/-- The marks are operators, parentheses and the comma. -/
theorem mark_cases (mark : marks.lookup c = some t) : (∃ op : BinaryOp, c = op.symbol ∧ t = .operator op) ∨
    c = '(' ∧ t = .opening ∨ c = ')' ∧ t = .closing ∨ c = ',' ∧ t = .comma := by
  obtain ⟨before, after, same, -⟩ := List.lookup_eq_some_iff.1 mark
  have mem : (c, t) ∈ marks := by
    rw [same]
    exact List.mem_append_right _ List.mem_cons_self
  simp only [marks, List.mem_cons, Prod.mk.injEq, List.not_mem_nil, or_false] at mem
  rcases mem with ⟨rfl, rfl⟩ | ⟨rfl, rfl⟩ | ⟨rfl, rfl⟩ | ⟨rfl, rfl⟩ | ⟨rfl, rfl⟩ | bracket | bracket | comma
  · exact .inl ⟨.add, rfl, rfl⟩
  · exact .inl ⟨.sub, rfl, rfl⟩
  · exact .inl ⟨.mul, rfl, rfl⟩
  · exact .inl ⟨.div, rfl, rfl⟩
  · exact .inl ⟨.pow, rfl, rfl⟩
  · exact .inr (.inl bracket)
  · exact .inr (.inr (.inl bracket))
  · exact .inr (.inr (.inr comma))

theorem tokenAt_of_mark (mark : marks.lookup c = some t) (cs : List Char) :
    tokenAt c cs = t ∧ isGap c = false ∧ c.toNat < 0x80 := by
  rcases mark_cases mark with ⟨op, rfl, rfl⟩ | ⟨rfl, rfl⟩ | ⟨rfl, rfl⟩ | ⟨rfl, rfl⟩
  · cases op <;> exact ⟨rfl, by decide, by decide⟩
  · exact ⟨rfl, by decide, by decide⟩
  · exact ⟨rfl, by decide, by decide⟩
  · exact ⟨rfl, by decide, by decide⟩

/-- No other character starts the token of a mark. -/
theorem eq_of_tokenAt_mark {d : Char} (mark : marks.lookup c = some t) (same : tokenAt d cs = t) : d = c := by
  have text := tokenAt_text d cs
  rw [same, (isLexeme_of_mark mark).2] at text
  exact (List.cons.inj text).1.symm

theorem scanFrom_mark (mark : marks.lookup c = some t) (start : Nat) (cs : List Char) :
    scanFrom start (c :: cs) = ⟨start, t⟩ :: scanFrom (start + 1) cs := by
  obtain ⟨token, ink, small⟩ := tokenAt_of_mark mark cs
  rw [scanFrom_cons_of_ink ink, token, (isLexeme_of_mark mark).2, byteSize, utf8Size_of_ascii small]
  rfl

end Mark

/-- Blanks in front make no difference to the tokens. -/
theorem scanFrom_dropWhile_isGap (start : Nat) (cs : List Char) :
    scanFrom (start + byteSize (cs.takeWhile isGap)) (cs.dropWhile isGap) = scanFrom start cs := by
  induction cs generalizing start with
  | nil => rfl
  | cons c cs ih =>
    by_cases gap : isGap c = true
    · have size := utf8Size_of_ascii (isAscii_isGap c gap)
      rw [List.takeWhile_cons_of_pos gap, List.dropWhile_cons_of_pos gap, byteSize, size, ← Nat.add_assoc,
        ih, scanFrom, if_pos gap]
    · rw [List.takeWhile_cons_of_neg gap, List.dropWhile_cons_of_neg gap]
      rfl

/-- The next character is no blank. -/
def Inked (cs : List Char) : Prop := ∀ c ∈ cs.head?, isGap c = false

theorem inked_dropWhile_isGap (cs : List Char) : Inked (cs.dropWhile isGap) := by
  intro c head
  have stop := List.head?_dropWhile_not isGap cs
  rw [head] at stop
  exact stop

/-- What blanks come to: the same tokens are ahead, and no blank. -/
theorem blanks_stands (h : Stands text place cs) : ∃ next behind,
    skipWhile text isGap ⟨place, depth⟩ = .ok ((), ⟨next, depth⟩) ∧ place ≤ next ∧
      Stands text next behind ∧ Inked behind ∧ scanFrom next behind = scanFrom place cs :=
  ⟨_, _, skipWhile_stands depth isAscii_isGap h, Nat.le_add_right _ _, h.behind isGap, inked_dropWhile_isGap cs,
    scanFrom_dropWhile_isGap place cs⟩

/-- A cursor before no blank is where the tokens start. -/
theorem offsetOf_stands (ink : Inked cs) (h : Stands text place cs) :
    offsetOf (byteSize text) (scanFrom place cs) = place := by
  cases cs with
  | nil =>
    rw [scanFrom]
    exact h.size.symm
  | cons c cs =>
    rw [scanFrom_cons_of_ink (ink c rfl)]
    rfl

/-- What the mark `t` comes to when the tokens `ts` are ahead: it is the next token and is skipped, or it is
not and only blanks are skipped. -/
inductive Eaten (text : List Char) (place depth : Nat) (ts : List Located) (t : Token) :
    Except Stop (Bool × Cursor) → Prop where
  | found {start : Nat} {rest : List Char} (ahead : ts = ⟨start, t⟩ :: scanFrom (start + 1) rest)
      (on : place ≤ start) (stands : Stands text (start + 1) rest) :
      Eaten text place depth ts t (.ok (true, ⟨start + 1, depth⟩))
  | missed {next : Nat} {rest : List Char} (other : ∀ u ∈ ts.head?, u.token ≠ t)
      (ahead : ts = scanFrom next rest) (on : place ≤ next) (stands : Stands text next rest)
      (ink : Inked rest) : Eaten text place depth ts t (.ok (false, ⟨next, depth⟩))

theorem eaten {c : Char} {t : Token} (mark : marks.lookup c = some t) (h : Stands text place cs) :
    Eaten text place depth (scanFrom place cs) t (eat text c ⟨place, depth⟩) := by
  obtain ⟨next, behind, blanks, on, stands, ink, same⟩ := blanks_stands depth h
  have ahead := same.symm
  have small : c.toNat < 0x80 := (tokenAt_of_mark mark []).2.2
  have is := nextIs_stands depth (isAscii_beq small) stands
  have missed (other : behind.head?.any (· == c) = false) :
      eat text c ⟨place, depth⟩ = .ok (false, ⟨next, depth⟩) := by
    rw [other] at is
    exact (reading_bind_ok blanks).trans (reading_bind_ok is)
  cases behind with
  | nil =>
    rw [missed rfl]
    refine .missed (fun u head => ?_) ahead on stands ink
    rw [ahead, scanFrom] at head
    exact absurd head (Option.not_mem_none u)
  | cons d behind =>
    by_cases same : d = c
    · subst same
      have on' : advance text ⟨next, depth⟩ = .ok ((), ⟨next + 1, depth⟩) := advance_stands depth small stands
      have run : eat text d ⟨place, depth⟩ = .ok (true, ⟨next + 1, depth⟩) := by
        rw [show (d :: behind).head?.any (· == d) = true from beq_self_eq_true d] at is
        exact (reading_bind_ok blanks).trans ((reading_bind_ok is).trans (reading_bind_ok on'))
      rw [run]
      exact .found (ahead.trans (scanFrom_mark mark next behind)) on (Stands.step small stands)
    · rw [missed (beq_eq_false_iff_ne.2 same)]
      refine .missed (fun u head token => ?_) ahead on stands ink
      rw [ahead, scanFrom_cons_of_ink (ink d rfl)] at head
      obtain rfl := Option.some.inj head
      exact same (eq_of_tokenAt_mark mark token)

end Reading

end FrameOverlay.Expr
