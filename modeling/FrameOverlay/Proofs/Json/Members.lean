import FrameOverlay.Proofs.Json.Reading

/-!
# Reading objects

An object is read member by member: the key is looked up in what has been read so far, which decides how the value
is read.

* `afterMember`, `readMembers_member` — **a member is read, and then what follows it**;
* `passes_object` — an object that is read could be passed over;
* `Through` — one step after another leads through a list;
* `Through.readObject` — **an object is read if its members are read one after another**;
* `through_of_readObject` — **an object that has been read has had its members read one after another**.
-/

namespace FrameOverlay.Json

/-! ### Objects -/

section

variable {σ κ : Type} (find : σ → String → Except Fault κ) (value : σ → κ → (ts : List Token) → Read σ ts)

/-- What is read behind a member. -/
def afterMember (s : σ) : List Token → Except Fault (σ × List Token)
  | .comma :: ts => (readMembers find value s ts).bare
  | .closing .object :: ts => .ok (s, ts)
  | ts => .error (unexpected ts)

/-- A comma or the closing brace decides whether there is another member. -/
theorem afterMember_eq (s : σ) (ts : List Token) : afterMember find value s ts =
    (readSeparator ts).bare >>= fun next =>
      if next.1 then (readMembers find value s next.2).bare else .ok (s, next.2) := by
  rcases ts with _ | ⟨t, ts⟩
  · rfl
  · cases t with
    | closing b => cases b <;> rfl
    | _ => rfl

/-- **A member is read, and then what follows it.** -/
theorem readMembers_member (s : σ) (body : StringBody) (ts : List Token) :
    (readMembers find value s (.string body :: .colon :: ts)).bare = (do
      let key ← find s (← body.text)
      let (s, rest) ← (value s key ts).bare
      afterMember find value s rest) := by
  rw [readMembers]
  cases body.text with
  | error f => rfl
  | ok text =>
    show Read.bare (find s text >>= _) = (find s text >>= _)
    cases find s text with
    | error f => rfl
    | ok key =>
      show Read.bare (value s key ts >>= _) = ((value s key ts).bare >>= _)
      cases value s key ts with
      | error f => rfl
      | ok read =>
        obtain ⟨s, rest, bound⟩ := read
        show Read.bare (readSeparator rest >>= _) = afterMember find value s rest
        rw [afterMember_eq]
        cases readSeparator rest with
        | error f => rfl
        | ok next =>
          obtain ⟨more, ts', bound'⟩ := next
          cases more with
          | false => rfl
          | true =>
            show Read.bare (readMembers find value s ts' >>= _) = (readMembers find value s ts').bare
            cases readMembers find value s ts' <;> rfl

variable {find value}

theorem afterMember_eq_ok {s s' : σ} {ts rest : List Token} (h : afterMember find value s ts = .ok (s', rest)) :
    (∃ ts', ts = .comma :: ts' ∧ (readMembers find value s ts').bare = .ok (s', rest)) ∨
      (ts = .closing .object :: rest ∧ s = s') := by
  unfold afterMember at h
  split at h
  · exact .inl ⟨_, rfl, h⟩
  · cases h
    exact .inr ⟨rfl, rfl⟩
  · cases h

/-- What has been read if members are read: a key that is found, a value, and what follows. -/
theorem readMembers_eq_ok {s s' : σ} {ts rest : List Token}
    (h : (readMembers find value s ts).bare = .ok (s', rest)) :
    ∃ body ts' text key s₁ rest₁, ts = .string body :: .colon :: ts' ∧ body.text = .ok text ∧
      find s text = .ok key ∧ (value s key ts').bare = .ok (s₁, rest₁) ∧
      afterMember find value s₁ rest₁ = .ok (s', rest) := by
  have start : ∃ body ts', ts = .string body :: .colon :: ts' := by
    obtain ⟨bound, read⟩ := Read.bare_eq_ok.1 h
    unfold readMembers at read
    split at read
    · obtain ⟨text, -, read⟩ := bind_eq_ok.1 read
      obtain ⟨key, -, read⟩ := bind_eq_ok.1 read
      obtain ⟨⟨_, ts', _⟩, colon, -⟩ := bind_eq_ok.1 read
      exact ⟨_, ts', by rw [readMark_eq_ok.1 (Read.bare_eq_ok.2 ⟨_, colon⟩)]⟩
    · cases read
  obtain ⟨body, ts', rfl⟩ := start
  rw [readMembers_member] at h
  obtain ⟨text, said, h⟩ := bind_eq_ok.1 h
  obtain ⟨key, found, h⟩ := bind_eq_ok.1 h
  obtain ⟨⟨s₁, rest₁⟩, read, h⟩ := bind_eq_ok.1 h
  exact ⟨body, ts', text, key, s₁, rest₁, rfl, said, found, read, h⟩

/-- Members that are read could be passed over, if every value could be. -/
theorem skipFrom_members (whole : ∀ s key, ReadsWhole (value s key)) {outer : List Bracket} (k : Nat) :
    ∀ {s s' : σ} {ts rest : List Token} {expecting : Expecting}, ts.length = k →
      expecting = .keyOrEnd ∨ expecting = .key → (readMembers find value s ts).bare = .ok (s', rest) →
        (skipFrom expecting (.object :: outer) ts).bare = (skipFrom .commaOrEnd outer rest).bare := by
  induction k using Nat.strongRecOn with
  | _ k ih =>
    intro s s' ts rest expecting length start read
    obtain ⟨body, ts', text, key, s₁, rest₁, rfl, said, -, valued, after⟩ := readMembers_eq_ok read
    have named : step expecting (.object :: outer) (.string body) = .ok (.colon, .object :: outer) := by
      rcases start with rfl | rfl <;> simp only [step, StringBody.fault_of_text said]
    rw [skipFrom_inside, named, ok_bind, skipFrom_inside]
    show (skipFrom .value (.object :: outer) ts').bare = _
    rw [whole s key ts' s₁ rest₁ valued]
    rcases afterMember_eq_ok after with ⟨ts'', rfl, others⟩ | ⟨rfl, rfl⟩
    · obtain ⟨bound, -⟩ := Read.bare_eq_ok.1 valued
      simp only [List.length_cons] at bound length
      rw [skipFrom_inside]
      exact ih ts''.length (by omega) rfl (.inr rfl) others
    · rw [skipFrom_inside]
      rfl

/-- An object that is read could be passed over, if every value could be. -/
theorem passes_object (whole : ∀ s key, ReadsWhole (value s key)) {s s' : σ} {ts rest : List Token}
    (read : (readObject find value s ts).bare = .ok (s', rest)) : Passes (.opening .object :: ts) rest := by
  intro outer
  have opens : step .value outer (.opening .object) = .ok (.keyOrEnd, .object :: outer) := rfl
  rw [skipFrom_cons (fun both => Expecting.noConfusion both.1), opens, ok_bind]
  unfold readObject at read
  split at read
  · cases read
    rw [skipFrom_inside]
    rfl
  · exact skipFrom_members whole _ rfl (.inl rfl) read

end

/-! ### Members one after another -/

/-- One step after another leads through a list. -/
inductive Through {σ α : Type} (R : σ → α → σ → Prop) : σ → List α → σ → Prop where
  | nil (s : σ) : Through R s [] s
  | cons {s s₁ s' : σ} {a : α} {as : List α} (first : R s a s₁) (others : Through R s₁ as s') :
      Through R s (a :: as) s'

section

variable {σ κ : Type} (find : σ → String → Except Fault κ) (value : σ → κ → (ts : List Token) → Read σ ts)

/-- Reading the member leads from `s` to `s'`, whatever follows. -/
def ReadsMember (s : σ) (m : Member) (s' : σ) : Prop :=
  ∃ text key, Spells m.key.text text ∧ find s text = .ok key ∧
    ∀ r, Ends r → (value s key (scan (m.value.text ++ r))).bare = .ok (s', scan r)

/-- The member has been read, which led from `s` to `s'`. -/
def HasRead (s : σ) (m : Member) (s' : σ) : Prop :=
  ∃ text key ts rest, Spells m.key.text text ∧ find s text = .ok key ∧ (value s key ts).bare = .ok (s', rest)

variable {find value}

/-- The text behind the first member of an object. -/
theorem ends_members (members : List Member) (r : List Char) :
    Ends ((members.map Member.chars).flatMap (',' :: ·) ++ '}' :: r) := ends_further .object _ r

theorem ReadsMember.readMembers {s s' : σ} {m : Member} (h : ReadsMember find value s m s') {r : List Char}
    (ends : Ends r) :
    (Json.readMembers find value s (scan (m.chars ++ r))).bare = afterMember find value s' (scan r) := by
  obtain ⟨text, key, ⟨ps, string, denotes⟩, found, read⟩ := h
  rw [scan_member string, readMembers_member, StringBody.text_iff.2 denotes, ok_bind, found, ok_bind,
    read _ (ends_gap _ ends), ok_bind, scan_gap]

theorem readObject_member (s : σ) {m : Member} (key : IsString m.key.text) (r : List Char) :
    (Json.readObject find value s (scan (m.chars ++ r))).bare =
      (Json.readMembers find value s (scan (m.chars ++ r))).bare := by
  obtain ⟨ps, string⟩ := key
  rw [scan_member string]
  rfl

/-- **An object is read if its members are read one after another.** -/
theorem Through.readObject {s s' : σ} {members : List Member} (h : Through (ReadsMember find value) s members s')
    (gap : Gap) (r : List Char) : ∃ ts, scan (objectText gap members ++ r) = .opening .object :: ts ∧
      (Json.readObject find value s ts).bare = .ok (s', scan r) := by
  have after {s s' : σ} {members : List Member} (h : Through (ReadsMember find value) s members s') :
      afterMember find value s (scan ((members.map Member.chars).flatMap (',' :: ·) ++ '}' :: r)) =
        .ok (s', scan r) := by
    induction h with
    | nil s => rw [List.map_nil, List.flatMap_nil, List.nil_append, scan_mark rfl, afterMember]
    | @cons s s₁ s' m ms first others ih =>
      rw [List.map_cons, List.flatMap_cons, List.append_assoc, List.cons_append, scan_mark rfl, afterMember,
        first.readMembers (ends_members ms r), ih]
  cases h with
  | nil => exact ⟨_, scan_enclosed_nil _ _ _, rfl⟩
  | @cons _ s₁ _ m ms first others =>
    have key : IsString m.key.text := by
      obtain ⟨text, key, spells, -⟩ := first
      exact spells.isString
    refine ⟨_, scan_enclosed_cons _ _ _ _ _, ?_⟩
    rw [readObject_member s key, first.readMembers (ends_further .object _ r)]
    exact after others

/-- A member that has been read is one that was written, with what follows it behind. -/
theorem hasRead_of_readMembers (whole : ∀ s key, ReadsWhole (value s key)) {s s' : σ} {m : Member}
    (wellFormed : m.WellFormed) {r : List Char} (ends : Ends r)
    {rest : List Token} (read : (Json.readMembers find value s (scan (m.chars ++ r))).bare = .ok (s', rest)) :
    ∃ s₁, HasRead find value s m s₁ ∧ afterMember find value s₁ (scan r) = .ok (s', rest) := by
  obtain ⟨ps, string⟩ := wellFormed.key
  rw [scan_member string, readMembers_member] at read
  obtain ⟨text, said, read⟩ := bind_eq_ok.1 read
  obtain ⟨key, found, read⟩ := bind_eq_ok.1 read
  obtain ⟨⟨s₁, rest₁⟩, valued, after⟩ := bind_eq_ok.1 read
  refine ⟨s₁, ⟨text, key, _, _, ⟨ps, string, StringBody.text_iff.1 said⟩, found, valued⟩, ?_⟩
  have same := (whole s key).rest wellFormed.value (ends_gap m.value.behind ends) valued
  rw [scan_gap] at same
  rwa [← same]

/-- **An object that has been read has had its members read one after another.** -/
theorem through_of_readObject (whole : ∀ s key, ReadsWhole (value s key)) {s s' : σ} {members : List Member}
    (wellFormed : ∀ m ∈ members, m.WellFormed) {gap : Gap} {r : List Char} {ts rest : List Token}
    (scanned : scan (objectText gap members ++ r) = .opening .object :: ts)
    (read : (Json.readObject find value s ts).bare = .ok (s', rest)) :
    Through (HasRead find value) s members s' := by
  have after (members : List Member) : ∀ {s : σ}, (∀ m ∈ members, m.WellFormed) →
      afterMember find value s (scan ((members.map Member.chars).flatMap (',' :: ·) ++ '}' :: r)) =
        .ok (s', rest) → Through (HasRead find value) s members s' := by
    induction members with
    | nil =>
      intro s _ read
      rw [List.map_nil, List.flatMap_nil, List.nil_append, scan_mark rfl, afterMember] at read
      cases read
      exact .nil _
    | cons m ms ih =>
      intro s wellFormed read
      obtain ⟨own, later⟩ := List.forall_mem_cons.1 wellFormed
      rw [List.map_cons, List.flatMap_cons, List.append_assoc, List.cons_append, scan_mark rfl, afterMember] at read
      obtain ⟨s₁, first, others⟩ := hasRead_of_readMembers whole own (ends_members ms r) read
      exact .cons first (ih later others)
  cases members with
  | nil =>
    rw [objectText, List.map_nil, scan_enclosed_nil] at scanned
    cases scanned
    cases read
    exact .nil _
  | cons m ms =>
    obtain ⟨own, later⟩ := List.forall_mem_cons.1 wellFormed
    rw [objectText, List.map_cons, scan_enclosed_cons] at scanned
    cases scanned
    rw [readObject_member s own.key] at read
    obtain ⟨s₁, first, others⟩ := hasRead_of_readMembers whole own (ends_further .object _ r) read
    exact .cons first (after ms later others)

end

end FrameOverlay.Json
