import FrameOverlay.Config
import FrameOverlay.Proofs.Json.Members
import Mathlib.Data.List.Forall2

/-!
# Fields of a configuration in JSON

* `WritesValue` — a text writes the value of a field;
* `readsWhole_readField` — whatever is read as the value of a field is a whole value;
* `readField_written` — **the value of a field is read as it is written**;
* `WritesValue.isValue` — what is written is well formed.
-/

namespace FrameOverlay.OverlayConfig

open Json

/-! ### What is written -/

/-- Key of a term. -/
def Term.key : Term → String
  | num => "num"
  | den => "den"

/-- A term of a time base. -/
def Term.of (b : TimeBase) : Term → Int64
  | num => b.num
  | den => b.den

/-- The member writes a term of a time base. -/
def WritesTerm (b : TimeBase) (t : Term) (m : Member) : Prop :=
  m.key.text = (quoted t.key).toList ∧ m.value.text = (toString (t.of b).toInt).toList

/-- The text is the value of a field.  A time base may have its terms in any order and blanks between
its tokens. -/
def WritesValue (c : OverlayConfig) (f : Field) (text : List Char) : Prop :=
  match f, c.timeBase with
  | .timeBase, some b => ∃ gap terms members, (terms = [Term.num, Term.den] ∨ terms = [Term.den, Term.num]) ∧
      List.Forall₂ (WritesTerm b) terms members ∧ text = objectText gap members
  | f, _ => text = (c.jsonValue f).toList

theorem WritesValue.eq {c : OverlayConfig} {f : Field} {text : List Char} (written : c.WritesValue f text)
    (other : f ≠ .timeBase) : text = (c.jsonValue f).toList := by
  cases f with
  | timeBase => exact absurd rfl other
  | _ => exact written

/-! ### Whole values -/

theorem readsWhole_readTerm (terms : Terms) (term : Option Term) : ReadsWhole (readTerm terms term) := by
  match term with
  | some .num => exact readsWhole_readInt64.map fun value => { terms with num := some value }
  | some .den => exact readsWhole_readInt64.map fun value => { terms with den := some value }
  | none => exact readsWhole_skip.map fun _ => terms

/-- The first term of a list is one numeral. -/
theorem readListedTerm_eq_ok {i : Int64} {ts rest : List Token} (read : (readListedTerm ts).bare = .ok (i, rest)) :
    ∃ n : Numeral, n.isComplete = true ∧ ts = .number n :: rest := by
  unfold readListedTerm at read
  split at read
  · cases read
  · exact readInt64_eq_ok read

theorem readListComma_eq_ok {ts rest : List Token} (read : (readListComma ts).bare = .ok ((), rest)) :
    ts = .comma :: rest := by
  unfold readListComma at read
  split at read
  · cases read
  · cases read
  · exact readMark_eq_ok.1 read

theorem readsWhole_readTimeBase : ReadsWhole readTimeBase := by
  intro ts a rest read
  unfold readTimeBase at read
  split at read
  · cases read
    exact passes_token Token.noConfusion (fun _ => rfl) _
  · obtain ⟨bound, read⟩ := Read.bare_eq_ok.1 read
    obtain ⟨⟨terms, ts', bound'⟩, object, read⟩ := bind_eq_ok.1 read
    simp only at read
    split at read
    · cases read
      exact passes_object readsWhole_readTerm (Read.bare_eq_ok.2 ⟨_, object⟩)
    · cases read
  · obtain ⟨bound, read⟩ := Read.bare_eq_ok.1 read
    obtain ⟨⟨num, ts₁, _⟩, first, read⟩ := bind_eq_ok.1 read
    obtain ⟨⟨_, ts₂, _⟩, comma, read⟩ := bind_eq_ok.1 read
    obtain ⟨⟨den, ts₃, _⟩, second, read⟩ := bind_eq_ok.1 read
    obtain ⟨⟨_, ts₄, _⟩, closing, same⟩ := bind_eq_ok.1 read
    cases same
    obtain ⟨n, complete, rfl⟩ := readListedTerm_eq_ok (Read.bare_eq_ok.2 ⟨_, first⟩)
    cases readListComma_eq_ok (Read.bare_eq_ok.2 ⟨_, comma⟩)
    obtain ⟨m, complete', rfl⟩ := readInt64_eq_ok (Read.bare_eq_ok.2 ⟨_, second⟩)
    cases readMark_eq_ok.1 (Read.bare_eq_ok.2 ⟨_, closing⟩)
    intro outer
    simp [skipFrom_cons, step, complete, complete']
  · cases read

theorem readsWhole_readField (c : OverlayConfig) (f : Field) : ReadsWhole (readField c f) := by
  cases f with
  | x => exact readsWhole_readText.map fun x => { c with x }
  | y => exact readsWhole_readText.map fun y => { c with y }
  | eval => exact (readsWhole_readName _).map fun eval => { c with eval }
  | eofAction => exact (readsWhole_readName _).map fun eofAction => { c with eofAction }
  | shortest => exact readsWhole_readBool.map fun shortest => { c with shortest }
  | repeatLast => exact readsWhole_readBool.map fun repeatLast => { c with repeatLast }
  | timeBase => exact readsWhole_readTimeBase.map fun timeBase => { c with timeBase }

/-! ### Values that are written -/

/-- One more field of another configuration. -/
def put (c : OverlayConfig) (d : OverlayConfig) : Field → OverlayConfig
  | .x => { d with x := c.x }
  | .y => { d with y := c.y }
  | .eval => { d with eval := c.eval }
  | .eofAction => { d with eofAction := c.eofAction }
  | .shortest => { d with shortest := c.shortest }
  | .repeatLast => { d with repeatLast := c.repeatLast }
  | .timeBase => { d with timeBase := c.timeBase }

theorem readBool_written (b : Bool) (r : List Char) :
    (readBool (scan ((jsonBool b).toList ++ r))).bare = .ok (b, scan r) := by
  cases b with
  | true => rw [show (jsonBool true).toList = Word.true.letters from rfl, scan_word]; rfl
  | false => rw [show (jsonBool false).toList = Word.false.letters from rfl, scan_word]; rfl

/-- A term that has been read. -/
def Terms.get (terms : Terms) : Term → Option Int64
  | .num => terms.num
  | .den => terms.den

/-- One more term. -/
def Terms.put (terms : Terms) (value : Int64) : Term → Terms
  | .num => { terms with num := some value }
  | .den => { terms with den := some value }

theorem findTerm_key {terms : Terms} {t : Term} (fresh : terms.get t = none) :
    findTerm terms t.key = .ok (some t) := by
  cases t with
  | num => simp [findTerm, Term.key, show terms.num = none from fresh]
  | den => simp [findTerm, Term.key, show terms.den = none from fresh]

theorem Term.of_positive {b : TimeBase} (valid : b.Valid) (t : Term) : 0 < t.of b := by
  cases t with
  | num => exact valid.1
  | den => exact valid.2

/-- A term is read as it is written. -/
theorem readsMember_term {b : TimeBase} (valid : b.Valid) {t : Term} {m : Member} (written : WritesTerm b t m)
    {terms : Terms} (fresh : terms.get t = none) :
    ReadsMember findTerm readTerm terms m (terms.put (t.of b) t) := by
  obtain ⟨key, value⟩ := written
  refine ⟨t.key, some t, by rw [key]; exact spells_quoted _, findTerm_key fresh, fun r ends => ?_⟩
  have read := readInt64_written (t.of_positive valid) ends
  rw [← value] at read
  cases t with
  | num => exact bare_map (fun value => { terms with num := some value }) read
  | den => exact bare_map (fun value => { terms with den := some value }) read

/-- A time base is read as it is written. -/
theorem readTimeBase_written {b : TimeBase} (valid : b.Valid) {ts : List Term} {members : List Member}
    (order : ts = [Term.num, Term.den] ∨ ts = [Term.den, Term.num])
    (written : List.Forall₂ (WritesTerm b) ts members) (gap : Gap) (r : List Char) :
    (readTimeBase (scan (objectText gap members ++ r))).bare = .ok (some b, scan r) := by
  have through {t u : Term} (other : (({} : Terms).put (t.of b) t).get u = none)
      (written : List.Forall₂ (WritesTerm b) [t, u] members) :
      Through (ReadsMember findTerm readTerm) {} members ((({} : Terms).put (t.of b) t).put (u.of b) u) := by
    obtain ⟨m, ms, first, others, rfl⟩ := List.forall₂_cons_left_iff.1 written
    obtain ⟨m', ms', second, none, rfl⟩ := List.forall₂_cons_left_iff.1 others
    cases none
    have fresh : ({} : Terms).get t = none := by cases t <;> rfl
    exact .cons (readsMember_term valid first fresh) (.cons (readsMember_term valid second other) (.nil _))
  have both : Through (ReadsMember findTerm readTerm) {} members ⟨some b.num, some b.den⟩ := by
    rcases order with rfl | rfl
    · exact through (t := .num) (u := .den) rfl written
    · exact through (t := .den) (u := .num) rfl written
  obtain ⟨tokens, scanned, read⟩ := both.readObject gap r
  obtain ⟨bound, read⟩ := Read.bare_eq_ok.1 read
  rw [scanned, readTimeBase, read]
  rfl

/-- **The value of a field is read as it is written.** -/
theorem readField_written {c : OverlayConfig} (valid : c.validate = .ok ()) {f : Field} {text : List Char}
    (written : c.WritesValue f text) (d : OverlayConfig) (r : List Char) :
    (readField d f (scan (text ++ r))).bare = .ok (c.put d f, scan r) := by
  cases f with
  | x =>
    rw [written.eq Field.noConfusion]
    exact bare_map (fun x => { d with x }) (readText_written (spells_quoted c.x) r)
  | y =>
    rw [written.eq Field.noConfusion]
    exact bare_map (fun y => { d with y }) (readText_written (spells_quoted c.y) r)
  | eval =>
    rw [written.eq Field.noConfusion]
    exact bare_map (fun eval => { d with eval })
      (readName_written (spells_quoted _) (EvalMode.ofName?_name c.eval) r)
  | eofAction =>
    rw [written.eq Field.noConfusion]
    exact bare_map (fun eofAction => { d with eofAction })
      (readName_written (spells_quoted _) (EofAction.ofName?_name c.eofAction) r)
  | shortest =>
    rw [written.eq Field.noConfusion]
    exact bare_map (fun shortest => { d with shortest }) (readBool_written c.shortest r)
  | repeatLast =>
    rw [written.eq Field.noConfusion]
    exact bare_map (fun repeatLast => { d with repeatLast }) (readBool_written c.repeatLast r)
  | timeBase =>
    have read : (readTimeBase (scan (text ++ r))).bare = .ok (c.timeBase, scan r) := by
      cases base : c.timeBase with
      | none =>
        have same : text = (c.jsonValue .timeBase).toList := by simpa only [WritesValue, base] using written
        have null : (c.jsonValue .timeBase).toList = Word.null.letters := by
          rw [jsonValue, base]
          rfl
        rw [same, null, scan_word]
        rfl
      | some b =>
        simp only [WritesValue, base] at written
        obtain ⟨gap, ts, members, order, each, rfl⟩ := written
        exact readTimeBase_written ((validate_iff.1 valid).2.2 b base) order each gap r
    exact bare_map (fun timeBase => { d with timeBase }) read

/-! ### Well-formed values -/

theorem exists_left_of_mem {α β : Type} {R : α → β → Prop} {as : List α} {bs : List β}
    (h : List.Forall₂ R as bs) {b : β} (member : b ∈ bs) : ∃ a ∈ as, R a b := by
  induction h with
  | nil => exact absurd member List.not_mem_nil
  | cons first others ih =>
    rcases List.mem_cons.1 member with rfl | later
    · exact ⟨_, List.mem_cons_self, first⟩
    · obtain ⟨a, member, related⟩ := ih later
      exact ⟨a, List.mem_cons_of_mem _ member, related⟩

theorem isValue_quoted (s : String) : IsValue (quoted s).toList := .string (spells_quoted s).isString

theorem isValue_jsonBool (b : Bool) : IsValue (jsonBool b).toList := by
  cases b with
  | true => exact .word .true
  | false => exact .word .false

theorem isNumber_toString {i : Int64} (positive : 0 < i) : IsNumber (toString i.toInt).toList := by
  rw [toString_positive positive]
  have number := IsNumber.intro (.inl rfl) (isWhole_toDigits (toNat_positive positive)) .none .none
  rwa [List.nil_append, List.append_nil, List.append_nil] at number

/-- The value of a field is well formed as it is written. -/
theorem WritesValue.isValue {c : OverlayConfig} (valid : c.validate = .ok ()) {f : Field} {text : List Char}
    (written : c.WritesValue f text) : IsValue text := by
  cases f with
  | x | y | eval | eofAction =>
    rw [written.eq Field.noConfusion]
    exact isValue_quoted _
  | shortest | repeatLast =>
    rw [written.eq Field.noConfusion]
    exact isValue_jsonBool _
  | timeBase =>
    cases base : c.timeBase with
    | none =>
      simp only [WritesValue, jsonValue, base] at written
      rw [written]
      exact .word .null
    | some b =>
      simp only [WritesValue, base] at written
      obtain ⟨gap, ts, members, order, each, rfl⟩ := written
      have terms : ∀ m ∈ members, ∃ t, WritesTerm b t m := by
        intro m member
        obtain ⟨t, -, writes⟩ := exists_left_of_mem each member
        exact ⟨t, writes⟩
      refine .object gap members (fun m member => ?_) (fun m member => ?_)
      · obtain ⟨t, key, -⟩ := terms m member
        rw [key]
        exact (spells_quoted t.key).isString
      · obtain ⟨t, -, value⟩ := terms m member
        rw [value]
        exact .number (isNumber_toString (t.of_positive ((validate_iff.1 valid).2.2 b base)))

end FrameOverlay.OverlayConfig
