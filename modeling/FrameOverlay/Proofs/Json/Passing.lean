import FrameOverlay.Json.Reader
import FrameOverlay.Proofs.Json.Scanning

/-!
# Passing over values

* `Read.bare` — what a reader gives, without the bound on what is left;
* `Passes` — a value stands in front of what is left, inside any brackets;
* `IsValue.passes` — **a value that is written is passed over to its end**.
-/

namespace FrameOverlay.Json

/-- What a reader gives, without the bound on what is left. -/
def Read.bare {α : Type} {ts : List Token} (r : Read α ts) : Except Fault (α × List Token) :=
  r.map fun x => (x.1, x.2.1)

theorem Read.bare_eq_ok {α : Type} {ts rest : List Token} {r : Read α ts} {a : α} :
    r.bare = .ok (a, rest) ↔ ∃ bound, r = .ok (a, ⟨rest, bound⟩) := by
  cases r with
  | error e =>
    constructor
    · exact fun h => nomatch h
    · rintro ⟨bound, h⟩
      cases h
  | ok x =>
    constructor
    · intro h
      cases h
      exact ⟨x.2.2, rfl⟩
    · rintro ⟨bound, h⟩
      cases h
      rfl

/-! ### Brackets -/

theorem skipFrom_nil (ts : List Token) : (skipFrom .commaOrEnd [] ts).bare = .ok ((), ts) := by
  rw [skipFrom]
  rfl

theorem skipFrom_truncated {expecting : Expecting} {brackets : List Bracket}
    (ongoing : ¬ (expecting = .commaOrEnd ∧ brackets = [])) :
    (skipFrom expecting brackets []).bare = .error .truncated := by
  rw [skipFrom]
  · rfl
  · exact fun h h' => ongoing ⟨h, h'⟩

theorem skipFrom_cons {expecting : Expecting} {brackets : List Bracket}
    (ongoing : ¬ (expecting = .commaOrEnd ∧ brackets = [])) (t : Token) (ts : List Token) :
    (skipFrom expecting brackets (t :: ts)).bare =
      step expecting brackets t >>= fun next => (skipFrom next.1 next.2 ts).bare := by
  rw [skipFrom]
  · cases step expecting brackets t with
    | error f => rfl
    | ok next =>
      show Read.bare (skipFrom next.1 next.2 ts >>= _) = (skipFrom next.1 next.2 ts).bare
      cases skipFrom next.1 next.2 ts <;> rfl
  · exact fun h h' => ongoing ⟨h, h'⟩

theorem skipFrom_inside (expecting : Expecting) (b : Bracket) (outer : List Bracket) (t : Token)
    (ts : List Token) : (skipFrom expecting (b :: outer) (t :: ts)).bare =
      step expecting (b :: outer) t >>= fun next => (skipFrom next.1 next.2 ts).bare :=
  skipFrom_cons (fun both => List.cons_ne_nil _ _ both.2) t ts

/-- What is expected behind an opening bracket. -/
def Bracket.first : Bracket → Expecting
  | list => .valueOrEnd
  | object => .keyOrEnd

/-- What is expected behind a comma. -/
def Bracket.next : Bracket → Expecting
  | list => .value
  | object => .key

/-- Brackets further out play no part before the brackets inside are closed. -/
theorem step_frame {expecting next : Expecting} {brackets brackets' : List Bracket} {t : Token}
    (h : step expecting brackets t = .ok (next, brackets')) (outer : List Bracket) :
    step expecting (brackets ++ outer) t = .ok (next, brackets' ++ outer) := by
  revert h
  fun_cases step expecting brackets t <;> intro h <;> cases h <;> simp [step, *]

theorem skipFrom_frame {expecting : Expecting} {brackets : List Bracket} {ts rest : List Token}
    (h : (skipFrom expecting brackets ts).bare = .ok ((), rest)) (outer : List Bracket) :
    (skipFrom expecting (brackets ++ outer) ts).bare = (skipFrom .commaOrEnd outer rest).bare := by
  induction ts generalizing expecting brackets with
  | nil =>
    by_cases closed : expecting = .commaOrEnd ∧ brackets = []
    · obtain ⟨rfl, rfl⟩ := closed
      rw [skipFrom_nil] at h
      cases h
      rfl
    · rw [skipFrom_truncated closed] at h
      cases h
  | cons t ts ih =>
    by_cases closed : expecting = .commaOrEnd ∧ brackets = []
    · obtain ⟨rfl, rfl⟩ := closed
      rw [skipFrom_nil] at h
      cases h
      rfl
    · rw [skipFrom_cons closed, bind_eq_ok] at h
      obtain ⟨⟨next, brackets'⟩, step, others⟩ := h
      rw [skipFrom_cons fun both => closed ⟨both.1, (List.append_eq_nil_iff.1 both.2).1⟩, step_frame step]
      exact ih others

/-! ### Values -/

/-- A value stands in front of `rest`, inside whatever brackets. -/
def Passes (ts rest : List Token) : Prop :=
  ∀ outer, (skipFrom .value outer ts).bare = (skipFrom .commaOrEnd outer rest).bare

theorem passes_iff {ts rest : List Token} : Passes ts rest ↔ (skip ts).bare = .ok ((), rest) := by
  constructor
  · intro h
    rw [skip, h [], skipFrom_nil]
  · intro h outer
    exact skipFrom_frame h outer

/-- What follows a value is what follows it however it is read. -/
theorem Passes.eq {ts rest rest' : List Token} (h : Passes ts rest) (h' : Passes ts rest') : rest = rest' := by
  have same := (passes_iff.1 h).symm.trans (passes_iff.1 h')
  injection same with same
  exact (Prod.mk.inj same).2

/-! ### Values that are written -/

/-- Where a value is expected, or the end of a list, what does not end a list must be a value. -/
theorem step_value {expecting : Expecting} (start : expecting = .value ∨ expecting = .valueOrEnd) {t : Token}
    (inside : t ≠ .closing .list) (brackets : List Bracket) :
    step expecting brackets t = step .value brackets t := by
  rcases start with rfl | rfl
  · rfl
  · cases t with
    | opening b => cases b <;> rfl
    | closing b => cases b <;> simp_all [step]
    | _ => rfl

/-- A token that is a value by itself. -/
theorem skipFrom_token {expecting : Expecting} (start : expecting = .value ∨ expecting = .valueOrEnd)
    {outer : List Bracket} {t : Token} (inside : t ≠ .closing .list)
    (whole : step .value outer t = .ok (.commaOrEnd, outer)) (ts : List Token) :
    (skipFrom expecting outer (t :: ts)).bare = (skipFrom .commaOrEnd outer ts).bare := by
  have ongoing : ¬ (expecting = .commaOrEnd ∧ outer = []) := by
    rcases start with rfl | rfl <;> exact fun h => nomatch h.1
  rw [skipFrom_cons ongoing, step_value start inside, whole]
  rfl

theorem intercalate_comma (p : List Char) (ps : List (List Char)) :
    [','].intercalate (p :: ps) = p ++ ps.flatMap (',' :: ·) := by
  induction ps generalizing p with
  | nil => simp [List.intercalate]
  | cons q ps ih =>
    rw [List.intercalate_cons_cons, ih, List.flatMap_cons, List.append_assoc, List.singleton_append]
    rfl

theorem mark_opens (b : Bracket) : mark? b.opens = some (.opening b) := by cases b <;> rfl

theorem mark_closes (b : Bracket) : mark? b.closes = some (.closing b) := by cases b <;> rfl

theorem ends_further (b : Bracket) (ps : List (List Char)) (r : List Char) :
    Ends (ps.flatMap (',' :: ·) ++ b.closes :: r) := by
  cases ps with
  | nil => exact ends_mark (mark_closes b) r
  | cons p ps => exact ends_mark rfl _

/-- What stands in brackets is passed over up to the closing one if each part is. -/
theorem skipFrom_parts {b : Bracket} {outer : List Bracket} {parts : List (List Char)}
    (each : ∀ p ∈ parts, ∀ expecting, expecting = b.first ∨ expecting = b.next → ∀ r, Ends r →
      (skipFrom expecting (b :: outer) (scan (p ++ r))).bare =
        (skipFrom .commaOrEnd (b :: outer) (scan r)).bare) (r : List Char) :
    (skipFrom .commaOrEnd (b :: outer) (scan (parts.flatMap (',' :: ·) ++ b.closes :: r))).bare =
      (skipFrom .commaOrEnd outer (scan r)).bare := by
  induction parts with
  | nil =>
    have closes : step .commaOrEnd (b :: outer) (.closing b) = .ok (.commaOrEnd, outer) := by
      cases b <;> rfl
    rw [List.flatMap_nil, List.nil_append, scan_mark (mark_closes b), skipFrom_inside, closes]
    rfl
  | cons p ps ih =>
    have goes : step .commaOrEnd (b :: outer) .comma = .ok (b.next, b :: outer) := by cases b <;> rfl
    rw [List.flatMap_cons, List.append_assoc, List.cons_append, scan_mark rfl, skipFrom_inside, goes]
    exact (each p List.mem_cons_self b.next (.inr rfl) _ (ends_further b ps r)).trans
      (ih fun q member => each q (List.mem_cons_of_mem _ member))

theorem scan_enclosed_nil (b : Bracket) (gap : Gap) (r : List Char) :
    scan (b.enclosed gap [] ++ r) = .opening b :: .closing b :: scan r := by
  rw [Bracket.enclosed, List.isEmpty_nil, if_pos rfl, List.cons_append, List.append_assoc, List.singleton_append,
    scan_mark (mark_opens b), scan_gap, scan_mark (mark_closes b)]

theorem scan_enclosed_cons (b : Bracket) (gap : Gap) (p : List Char) (ps : List (List Char)) (r : List Char) :
    scan (b.enclosed gap (p :: ps) ++ r) =
      .opening b :: scan (p ++ (ps.flatMap (',' :: ·) ++ b.closes :: r)) := by
  rw [Bracket.enclosed, List.isEmpty_cons, if_neg Bool.false_ne_true, intercalate_comma, List.cons_append,
    scan_mark (mark_opens b)]
  simp only [List.append_assoc, List.singleton_append]

/-- Brackets are passed over if each part is. -/
theorem skipFrom_enclosed {b : Bracket} {outer : List Bracket} {parts : List (List Char)}
    (each : ∀ p ∈ parts, ∀ expecting, expecting = b.first ∨ expecting = b.next → ∀ r, Ends r →
      (skipFrom expecting (b :: outer) (scan (p ++ r))).bare =
        (skipFrom .commaOrEnd (b :: outer) (scan r)).bare)
    {expecting : Expecting} (start : expecting = .value ∨ expecting = .valueOrEnd) (gap : Gap) (r : List Char) :
    (skipFrom expecting outer (scan (b.enclosed gap parts ++ r))).bare =
      (skipFrom .commaOrEnd outer (scan r)).bare := by
  have ongoing : ¬ (expecting = .commaOrEnd ∧ outer = []) := by
    rcases start with rfl | rfl <;> exact fun h => nomatch h.1
  have opens : step .value outer (.opening b) = .ok (b.first, b :: outer) := by cases b <;> rfl
  cases parts with
  | nil =>
    have closes : step b.first (b :: outer) (.closing b) = .ok (.commaOrEnd, outer) := by cases b <;> rfl
    rw [scan_enclosed_nil, skipFrom_cons ongoing, step_value start Token.noConfusion, opens, ok_bind,
      skipFrom_inside, closes, ok_bind]
  | cons p ps =>
    rw [scan_enclosed_cons, skipFrom_cons ongoing, step_value start Token.noConfusion, opens, ok_bind]
    exact (each p List.mem_cons_self b.first (.inl rfl) _ (ends_further b ps r)).trans
      (skipFrom_parts (fun q member => each q (List.mem_cons_of_mem _ member)) r)

/-- The tokens of a text with blanks around it. -/
theorem scan_spaced (s : Spaced) (r : List Char) : scan (s.chars ++ r) = scan (s.text ++ (s.behind.1 ++ r)) := by
  rw [Spaced.chars, List.append_assoc, List.append_assoc, scan_gap]

/-- The tokens of a member. -/
theorem scan_member {m : Member} {ps : List Piece} (key : StringOf ps m.key.text) (r : List Char) :
    scan (m.chars ++ r) =
      .string ⟨ps, none⟩ :: .colon :: scan (m.value.text ++ (m.value.behind.1 ++ r)) := by
  rw [Member.chars, List.append_assoc, List.cons_append, scan_spaced, scan_string key, scan_gap, scan_mark rfl,
    scan_spaced]

/-- A value that is written is passed over wherever one is expected. -/
theorem IsValue.skipFrom {text : List Char} (h : IsValue text) :
    ∀ {expecting : Expecting}, expecting = .value ∨ expecting = .valueOrEnd → ∀ outer r, Ends r →
      (skipFrom expecting outer (scan (text ++ r))).bare = (skipFrom .commaOrEnd outer (scan r)).bare := by
  induction h with
  | word w =>
    intro expecting start outer r ends
    rw [scan_word]
    exact skipFrom_token start Token.noConfusion rfl _
  | number h =>
    intro expecting start outer r ends
    obtain ⟨n, complete, scanned⟩ := scan_number h ends
    rw [scanned]
    exact skipFrom_token start Token.noConfusion (by simp [step, complete]) _
  | string h =>
    intro expecting start outer r ends
    obtain ⟨ps, string⟩ := h
    rw [scan_string string]
    exact skipFrom_token start Token.noConfusion rfl _
  | list gap items values ih =>
    intro expecting start outer r ends
    refine skipFrom_enclosed (fun p member e inside r ends => ?_) start gap r
    obtain ⟨i, listed, rfl⟩ := List.mem_map.1 member
    rw [scan_spaced, ih i listed inside.symm _ _ (ends_gap _ ends), scan_gap]
  | object gap members keys values ih =>
    intro expecting start outer r ends
    refine skipFrom_enclosed (fun p member e inside r ends => ?_) start gap r
    obtain ⟨m, listed, rfl⟩ := List.mem_map.1 member
    obtain ⟨ps, key⟩ := keys m listed
    have named : step e (.object :: outer) (.string ⟨ps, none⟩) = .ok (.colon, .object :: outer) := by
      rcases inside with rfl | rfl <;> rfl
    rw [scan_member key, skipFrom_inside, named]
    show (Json.skipFrom .colon _ _).bare = _
    rw [skipFrom_inside]
    show (Json.skipFrom .value _ _).bare = _
    rw [ih m listed (.inl rfl) _ _ (ends_gap _ ends), scan_gap]

/-- **A value that is written is passed over to its end.** -/
theorem IsValue.passes {text r : List Char} (h : IsValue text) (ends : Ends r) :
    Passes (scan (text ++ r)) (scan r) :=
  fun outer => h.skipFrom (.inl rfl) outer r ends

end FrameOverlay.Json
