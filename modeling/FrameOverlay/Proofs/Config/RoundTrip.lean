import FrameOverlay.Proofs.Config.Fields

/-!
# Configurations in JSON and back

A configuration is found again in any object that its fields are written in: some fields or all, in any order, with
any blanks between the tokens.  Nothing else is an object of fields: a key that is no field's, or that has been there
before, makes it one that cannot be read.

* `only` — some fields of a configuration, with the defaults elsewhere;
* `Writes`, `document` — a member writes a field; a text of one object, with blanks around it;
* `read_written` — **the fields that are written are read**;
* `fields_of_read` — **the keys of an object that is read are fields, each once**;
* `ofText_written` — **what is written of a configuration is read, and with any other member it is not**.
-/

namespace FrameOverlay.OverlayConfig

open Json

/-! ### What is written -/

/-- The given fields of a configuration, and the defaults elsewhere. -/
def only (c : OverlayConfig) (fields : List Field) : OverlayConfig :=
  let default : OverlayConfig := {}
  { x := if .x ∈ fields then c.x else default.x
    y := if .y ∈ fields then c.y else default.y
    eval := if .eval ∈ fields then c.eval else default.eval
    eofAction := if .eofAction ∈ fields then c.eofAction else default.eofAction
    shortest := if .shortest ∈ fields then c.shortest else default.shortest
    repeatLast := if .repeatLast ∈ fields then c.repeatLast else default.repeatLast
    timeBase := if .timeBase ∈ fields then c.timeBase else default.timeBase }

/-- The member writes a field of a configuration. -/
def Writes (c : OverlayConfig) (f : Field) (m : Member) : Prop :=
  m.key.text = (quoted f.key).toList ∧ c.WritesValue f m.value.text

/-- A text of one object, with blanks around it. -/
def document (lead gap trail : Gap) (members : List Member) : String :=
  String.ofList (Spaced.chars ⟨lead, objectText gap members, trail⟩)

theorem Writes.spells {c : OverlayConfig} {f : Field} {m : Member} (h : c.Writes f m) : Spells m.key.text f.key := by
  rw [h.1]
  exact spells_quoted f.key

theorem put_only (c : OverlayConfig) (seen : List Field) (f : Field) :
    c.put (c.only seen) f = c.only (f :: seen) := by
  cases f <;> simp [put, only]

/-! ### Objects of fields -/

theorem readsWhole_readNewField (p : Progress) (f : Field) : ReadsWhole (readNewField p f) :=
  (readsWhole_readField p.config f).map (Progress.mk (f :: p.seen))

theorem ofKey?_eq_some {s : String} {f : Field} (h : Field.ofKey? s = some f) : s = f.key := by
  have found := List.find?_some h
  exact (beq_iff_eq.1 found).symm

theorem findField_eq_ok {p : Progress} {s : String} {f : Field} (h : findField p s = .ok f) :
    s = f.key ∧ f ∉ p.seen := by
  unfold findField at h
  split at h
  · next g known =>
    split_ifs at h with seen
    cases h
    exact ⟨ofKey?_eq_some known, fun member => seen (List.contains_iff_mem.2 member)⟩
  · cases h

theorem findField_key {p : Progress} {f : Field} (fresh : f ∉ p.seen) : findField p f.key = .ok f := by
  rw [findField, Field.ofKey?_key]
  exact if_neg fun seen => fresh (List.contains_iff_mem.1 seen)

/-- The value of a field is read, and the field is one of those seen. -/
theorem seen_of_readNewField {p p' : Progress} {f : Field} {ts rest : List Token}
    (read : (readNewField p f ts).bare = .ok (p', rest)) : p'.seen = f :: p.seen := by
  obtain ⟨bound, read⟩ := Read.bare_eq_ok.1 read
  obtain ⟨⟨config, rest', bound'⟩, -, same⟩ := bind_eq_ok.1 read
  cases same
  rfl

/-- The keys of members that have been read are fields that had not been seen, each once. -/
theorem fields_of_through {p p' : Progress} {members : List Member}
    (h : Through (HasRead findField readNewField) p members p') :
    ∃ fields : List Field, List.Forall₂ (fun f (m : Member) => Spells m.key.text f.key) fields members ∧
      fields.Nodup ∧ ∀ f ∈ fields, f ∉ p.seen := by
  induction h with
  | nil p => exact ⟨[], .nil, List.nodup_nil, fun f h => absurd h List.not_mem_nil⟩
  | @cons p p₁ p' m ms first others ih =>
    obtain ⟨text, f, ts, rest, spells, found, read⟩ := first
    obtain ⟨rfl, fresh⟩ := findField_eq_ok found
    obtain ⟨fields, each, once, new⟩ := ih
    rw [seen_of_readNewField read] at new
    refine ⟨f :: fields, .cons spells each, List.nodup_cons.2 ⟨fun again => ?_, once⟩, fun g member => ?_⟩
    · exact new f again List.mem_cons_self
    · rcases List.mem_cons.1 member with rfl | later
      · exact fresh
      · exact fun seen => new g later (List.mem_cons_of_mem _ seen)

/-- Members that write fields of a configuration are read one after another. -/
theorem through_written {c : OverlayConfig} (valid : c.validate = .ok ()) {fields : List Field}
    {members : List Member} (written : List.Forall₂ c.Writes fields members) :
    ∀ seen : List Field, fields.Nodup → (∀ f ∈ fields, f ∉ seen) →
      Through (ReadsMember findField readNewField) ⟨seen, c.only seen⟩ members
        ⟨fields.reverse ++ seen, c.only (fields.reverse ++ seen)⟩ := by
  induction written with
  | nil => exact fun _ _ _ => .nil _
  | @cons f m fields members first others ih =>
    intro seen once new
    obtain ⟨other, once⟩ := List.nodup_cons.1 once
    have fresh : f ∉ seen := new f List.mem_cons_self
    have step : ReadsMember findField readNewField ⟨seen, c.only seen⟩ m ⟨f :: seen, c.only (f :: seen)⟩ := by
      refine ⟨f.key, f, first.spells, findField_key fresh, fun r _ => ?_⟩
      rw [← put_only]
      exact bare_map (Progress.mk (f :: seen)) (readField_written valid first.2 _ r)
    have later := ih (f :: seen) once fun g member seen' => by
      rcases List.mem_cons.1 seen' with rfl | before
      · exact other member
      · exact new g (List.mem_cons_of_mem _ member) before
    rw [List.reverse_cons, List.append_assoc, List.singleton_append]
    exact .cons step later

/-! ### Documents -/

/-- A text is read if nothing is left behind a value. -/
theorem read_eq_ok {text : String} {c : OverlayConfig} :
    read text = .ok c ↔ (readValue (scan text.toList)).bare = .ok (c, []) := by
  rw [read]
  cases readValue (scan text.toList) with
  | error fault => exact ⟨nofun, nofun⟩
  | ok x =>
    obtain ⟨d, rest, bound⟩ := x
    cases rest with
    | nil =>
      show Except.ok d = Except.ok c ↔ Except.ok (d, []) = Except.ok (c, [])
      simp only [Except.ok.injEq, Prod.mk.injEq, and_true]
    | cons t ts => exact ⟨nofun, nofun⟩

theorem readValue_object (ts : List Token) :
    (readValue (.opening .object :: ts)).bare = (do
      let (p, rest) ← (readObject findField readNewField {} ts).bare
      return (p.config, rest)) := by
  rw [readValue]
  cases readObject findField readNewField {} ts <;> rfl

/-- The tokens of a document are those of its object. -/
theorem scan_document (lead gap trail : Gap) (members : List Member) :
    scan (document lead gap trail members).toList = scan (objectText gap members ++ trail.1) := by
  rw [document, String.toList_ofList, Spaced.chars, List.append_assoc, scan_gap]

theorem scan_trail (trail : Gap) : scan trail.1 = [] := by
  have blank := scan_gap trail []
  rwa [List.append_nil, scan] at blank

/-- Only which fields are given matters. -/
theorem only_congr (c : OverlayConfig) {fields fields' : List Field} (same : ∀ f, f ∈ fields ↔ f ∈ fields') :
    c.only fields = c.only fields' := by
  simp only [only, same]

/-- **The fields that are written are read.** -/
theorem read_written {c : OverlayConfig} (valid : c.validate = .ok ()) {fields : List Field}
    {members : List Member} (once : fields.Nodup) (written : List.Forall₂ c.Writes fields members)
    (lead gap trail : Gap) : read (document lead gap trail members) = .ok (c.only fields) := by
  have through := through_written valid written [] once fun _ _ h => nomatch h
  rw [List.append_nil] at through
  obtain ⟨ts, scanned, read⟩ := through.readObject gap trail.1
  rw [scan_trail] at read
  have all : c.only fields = c.only fields.reverse := only_congr c fun f => List.mem_reverse.symm
  rw [read_eq_ok, scan_document, scanned, readValue_object, all]
  exact bind_eq_ok.2 ⟨_, read, rfl⟩

/-- **The keys of an object that is read are fields, each once.** -/
theorem fields_of_read {d : OverlayConfig} {lead gap trail : Gap} {members : List Member}
    (wellFormed : ∀ m ∈ members, m.WellFormed) (accepted : read (document lead gap trail members) = .ok d) :
    ∃ fields : List Field, List.Forall₂ (fun f (m : Member) => Spells m.key.text f.key) fields members ∧
      fields.Nodup := by
  rw [read_eq_ok, scan_document] at accepted
  have opened : ∃ ts, scan (objectText gap members ++ trail.1) = .opening .object :: ts := by
    cases members with
    | nil => exact ⟨_, scan_enclosed_nil _ _ _⟩
    | cons m ms => exact ⟨_, scan_enclosed_cons _ _ _ _ _⟩
  obtain ⟨ts, scanned⟩ := opened
  rw [scanned, readValue_object] at accepted
  obtain ⟨⟨p, rest⟩, object, -⟩ := bind_eq_ok.1 accepted
  obtain ⟨fields, each, once, -⟩ :=
    fields_of_through (through_of_readObject readsWhole_readNewField wellFormed scanned object)
  exact ⟨fields, each, once⟩

/-! ### The round trip -/

/-- A member without blanks. -/
def compact (member : String × String) : Member :=
  ⟨⟨.none, (quoted member.1).toList, .none⟩, ⟨.none, member.2.toList, .none⟩⟩

theorem toList_jsonObject (members : List (String × String)) :
    (jsonObject members).toList = objectText .none (members.map compact) := by
  have chars (m : String × String) : (compact m).chars = (quoted m.1 ++ ":" ++ m.2).toList := by
    simp [compact, Member.chars, Spaced.chars, Gap.none]
  have parts : (members.map compact).map Member.chars =
      members.map fun m => (quoted m.1 ++ ":" ++ m.2).toList := by
    rw [List.map_map]
    exact List.map_congr_left fun m _ => chars m
  rw [jsonObject, objectText, Bracket.enclosed, String.toList_append, String.toList_append,
    String.toList_intercalate, parts, List.map_map]
  cases members <;> rfl

theorem writesTerm_compact (b : TimeBase) (t : Term) :
    WritesTerm b t (compact (t.key, toString (t.of b).toInt)) := by
  constructor <;> rw [compact]

/-- The value of a field without blanks. -/
theorem writesValue_jsonValue (c : OverlayConfig) (f : Field) : c.WritesValue f (c.jsonValue f).toList := by
  cases f with
  | timeBase =>
    cases base : c.timeBase with
    | none => simp only [WritesValue, base]
    | some b =>
      simp only [WritesValue, base, jsonValue, jsonTimeBase, toList_jsonObject]
      exact ⟨.none, [.num, .den], _, .inl rfl,
        .cons (writesTerm_compact b .num) (.cons (writesTerm_compact b .den) .nil), rfl⟩
  | _ => rfl

/-- A field without blanks. -/
theorem writes_compact (c : OverlayConfig) (f : Field) : c.Writes f (compact (f.key, c.jsonValue f)) := by
  constructor
  · rw [compact]
  · rw [compact]
    exact c.writesValue_jsonValue f

/-- The text of a configuration is a document of all its fields without blanks. -/
theorem json_eq_document (c : OverlayConfig) :
    ∃ members, List.Forall₂ c.Writes Field.all members ∧ c.json = document .none .none .none members := by
  refine ⟨Field.all.map fun f => compact (f.key, c.jsonValue f), ?_, ?_⟩
  · rw [List.forall₂_map_right_iff]
    exact List.forall₂_same.2 fun f _ => c.writes_compact f
  · have text : c.json.toList = objectText .none ((Field.all.map fun f => (f.key, c.jsonValue f)).map compact) :=
      toList_jsonObject _
    rw [List.map_map] at text
    rw [document, Spaced.chars, Gap.none, List.nil_append, List.append_nil]
    exact String.ofList_toList.symm.trans (congrArg String.ofList text)

theorem ofText_of_read {text : String} {c : OverlayConfig} (accepted : read text = .ok c)
    (valid : c.validate = .ok ()) : ofText text = .ok c := by
  rw [ofText, accepted]
  simp only [valid]
  rfl

/-- Fields of a configuration that is allowed are allowed. -/
theorem validate_only {c : OverlayConfig} (valid : c.validate = .ok ()) (fields : List Field) :
    (c.only fields).validate = .ok () := by
  obtain ⟨x, y, base⟩ := validate_iff.1 valid
  have zero : Text.isBlankText "0" = false := by decide
  refine validate_iff.2 ⟨?_, ?_, ?_⟩
  · simp only [only]
    split_ifs
    · exact x
    · exact zero
  · simp only [only]
    split_ifs
    · exact y
    · exact zero
  · simp only [only]
    split_ifs
    · exact base
    · exact nofun

theorem only_all (c : OverlayConfig) : c.only Field.all = c := by
  simp [only, Field.all]

/-- A key spelled like a field's is that field's. -/
theorem eq_of_spells {text : List Char} {f g : Field} (h : Spells text f.key) (h' : Spells text g.key) : f = g := by
  have same := congrArg Field.ofKey? (h.eq h')
  rw [Field.ofKey?_key, Field.ofKey?_key] at same
  exact Option.some.inj same

theorem exists_right_of_mem {α β : Type} {R : α → β → Prop} {as : List α} {bs : List β}
    (h : List.Forall₂ R as bs) {a : α} (member : a ∈ as) : ∃ b ∈ bs, R a b :=
  exists_left_of_mem (R := fun b a => R a b) h.flip member

/-- The text of a configuration is read as the configuration. -/
theorem ofText_json {c : OverlayConfig} (valid : c.validate = .ok ()) : ofText c.json = .ok c := by
  obtain ⟨members, written, same⟩ := json_eq_document c
  have accepted := read_written valid (by decide) written .none .none .none
  rw [← same, only_all] at accepted
  exact ofText_of_read accepted valid

/-- No object of fields is read with one more member, if the key of that is one of the fields or no field's. -/
theorem ofText_extra {c : OverlayConfig} (valid : c.validate = .ok ()) {fields : List Field}
    {before after : List Member} (written : List.Forall₂ c.Writes fields (before ++ after)) {extra : Member}
    (wellFormed : extra.WellFormed) (known : ∀ f : Field, Spells extra.key.text f.key → f ∈ fields)
    (lead gap trail : Gap) :
    ∃ fault, ofText (document lead gap trail (before ++ extra :: after)) = .error (.configJson fault) := by
  cases accepted : read (document lead gap trail (before ++ extra :: after)) with
  | error fault => exact ⟨fault, by rw [ofText, accepted]; rfl⟩
  | ok d =>
    exfalso
    have every : ∀ m ∈ before ++ extra :: after, m.WellFormed := by
      intro m member
      have place : m ∈ before ++ after ∨ m = extra := by
        simp only [List.mem_append, List.mem_cons] at member ⊢
        tauto
      rcases place with listed | rfl
      · obtain ⟨f, -, writes⟩ := exists_left_of_mem written listed
        exact ⟨writes.spells.isString, writes.2.isValue valid⟩
      · exact wellFormed
    -- the keys before, at and behind the member are different fields, and one of the others has its field
    obtain ⟨found, each, distinct⟩ := fields_of_read every accepted
    rw [← List.take_append_drop before.length found] at distinct
    have front := List.forall₂_take_append found before (extra :: after) each
    have back := List.forall₂_drop_append found before (extra :: after) each
    obtain ⟨f, behind, spelled, back, split⟩ := List.forall₂_cons_right_iff.1 back
    rw [split] at distinct
    obtain ⟨m, member, writes⟩ := exists_right_of_mem written (known f spelled)
    rcases List.mem_append.1 member with earlier | later
    · obtain ⟨g, listed, spells⟩ := exists_left_of_mem front earlier
      rw [eq_of_spells spells writes.spells] at listed
      exact (List.nodup_append.1 distinct).2.2 f listed f List.mem_cons_self rfl
    · obtain ⟨g, listed, spells⟩ := exists_left_of_mem back later
      rw [eq_of_spells spells writes.spells] at listed
      exact (List.nodup_cons.1 (List.nodup_append.1 distinct).2.1).1 listed

/-- **What is written of a configuration is read.**  The text of a configuration that is allowed is read as the
configuration.  So are some of its fields in any order, with blanks wherever they may stand and the defaults elsewhere;
and if one more member is put anywhere between them, with a value of any kind, whose key is one of the fields again or
no field's, then the text cannot be read. -/
theorem ofText_written {c : OverlayConfig} (valid : c.validate = .ok ()) :
    ofText c.json = .ok c ∧
      ∀ (fields : List Field) (before after : List Member) (lead gap trail : Gap), fields.Nodup →
        List.Forall₂ c.Writes fields (before ++ after) →
          ofText (document lead gap trail (before ++ after)) = .ok (c.only fields) ∧
            ∀ extra : Member, extra.WellFormed → (∀ f : Field, Spells extra.key.text f.key → f ∈ fields) →
              ∃ fault, ofText (document lead gap trail (before ++ extra :: after)) =
                .error (.configJson fault) := by
  refine ⟨ofText_json valid, fun fields before after lead gap trail once written => ⟨?_, ?_⟩⟩
  · exact ofText_of_read (read_written valid once written lead gap trail) (validate_only valid fields)
  · intro extra wellFormed known
    exact ofText_extra valid written wellFormed known lead gap trail

/-- A configuration whose text needs escapes and has a time base. -/
def escapedConfig : OverlayConfig := { x := "\"\\\n\u0001😀", timeBase := some ⟨1, 25⟩ }

/-- A line break. -/
def lineBreak : Gap := ⟨['\n'], List.forall_mem_singleton.2 rfl⟩

/-- The time base by itself on a line of its own, and then with a key that is no field's before it. -/
theorem ofText_written_escaped :
    escapedConfig.validate = .ok () ∧ ofText escapedConfig.json = .ok escapedConfig ∧
      ofText (document lineBreak .none lineBreak [compact ("time_base", escapedConfig.jsonValue .timeBase)]) =
        .ok { timeBase := some ⟨1, 25⟩ } ∧
      ∃ fault, ofText (document lineBreak .none lineBreak
        [compact ("z", "null"), compact ("time_base", escapedConfig.jsonValue .timeBase)]) =
          .error (.configJson fault) := by
  have valid : escapedConfig.validate = .ok () := by decide
  have writes : List.Forall₂ escapedConfig.Writes [.timeBase]
      [compact ("time_base", escapedConfig.jsonValue .timeBase)] :=
    .cons (escapedConfig.writes_compact .timeBase) .nil
  obtain ⟨restored, parts⟩ := ofText_written valid
  obtain ⟨part, refused⟩ := parts [.timeBase] [] _ lineBreak .none lineBreak (by decide) writes
  refine ⟨valid, restored, part, refused (compact ("z", "null")) ?_ fun f spelled => ?_⟩
  · exact ⟨(spells_quoted "z").isString, .word .null⟩
  · have other := (spells_quoted "z").eq spelled
    cases f <;> exact absurd other (by decide)

end FrameOverlay.OverlayConfig
