import FrameOverlay.Sync.Options
import FrameOverlay.Timestamp
import Mathlib.Data.List.Basic

/-!
# The pairing of two frame lists

What a synchronizer is to give out, said without slots, levels or rounds: each main frame with the
overlay frame that covers it, and what the policy says about the time before the first and after the
last overlay frame.

* `covering` — the overlay frame that covers an instant;
* `Pair`, `pairing` — **the pairs of two complete lists**, by policy;
* `onward` — the pairs still to come once some of the frames have become current.
-/

namespace FrameOverlay

variable {α : Type}

/-- The overlay frame that covers `t`: the last one that is not later. -/
def covering (O : List (Stamped α)) (t : Timestamp) : Option (Stamped α) :=
  (O.filter fun o => o.time ≤ t).getLast?

/-- Some overlay frame is not earlier than `t`. -/
def reaches (O : List (Stamped α)) (t : Timestamp) : Bool := O.any fun o => t ≤ o.time

/-- A main frame, the overlay frame with it, and when. -/
structure Pair (α : Type) where
  main : Stamped α
  overlay : Option (Stamped α)
  time : Timestamp
  deriving DecidableEq, Repr

/-- The pairs of the main frames `M` and the overlay frames `O`.  Every main frame comes with the
overlay frame that covers it.  With `shortest`, nothing comes after the last overlay frame, if there
is one.  With `repeatLast`, the overlay frames after the last main frame come with that.  With
neither, main frames after the last overlay frame come without. -/
def pairing (options : SyncOptions) (M O : List (Stamped α)) : List (Pair α) :=
  if options.shortest then
    (M.filter fun m => O.isEmpty || reaches O m.time).map fun m => ⟨m, covering O m.time, m.time⟩
  else if options.repeatLast then
    M.map (fun m => ⟨m, covering O m.time, m.time⟩) ++
      M.getLast?.elim [] fun l =>
        (O.filter fun o => l.time < o.time).map fun o => ⟨l, some o, o.time⟩
  else
    M.map fun m => ⟨m, if reaches O m.time then covering O m.time else none, m.time⟩

/-! ### Covering frames -/

/-- A frame that is not later than `t` hides those before it. -/
theorem covering_append (H : List (Stamped α)) {o : Stamped α} {O : List (Stamped α)}
    {t : Timestamp} (due : o.time ≤ t) : covering (H ++ o :: O) t = covering (o :: O) t := by
  have kept : (o :: O).filter (fun f => f.time ≤ t) = o :: O.filter (fun f => f.time ≤ t) :=
    List.filter_cons_of_pos (by simpa using due)
  unfold covering
  rw [List.filter_append, kept, List.getLast?_append, List.getLast?_cons]
  rfl

/-- No frame that is later than `t` covers at `t`. -/
theorem due_eq_nil {O : List (Stamped α)} {t : Timestamp} (later : ∀ o ∈ O, t < o.time) :
    O.filter (fun f => f.time ≤ t) = [] := by
  rw [List.filter_eq_nil_iff]
  intro o ho
  have := later o ho
  simpa using this

theorem covering_of_later {O : List (Stamped α)} {t : Timestamp} (later : ∀ o ∈ O, t < o.time) :
    covering O t = none := by
  unfold covering
  rw [due_eq_nil later]
  rfl

/-- Before the next overlay frame, the current one covers. -/
theorem covering_current {cur : Option (Stamped α)} {O : List (Stamped α)} {t : Timestamp}
    (due : ∀ c ∈ cur, c.time ≤ t) (later : ∀ o ∈ O, t < o.time) :
    covering (cur.toList ++ O) t = cur := by
  cases cur with
  | none => exact covering_of_later later
  | some c =>
    have due : c.time ≤ t := due c rfl
    have first : (c :: O).filter (fun f => f.time ≤ t) = c :: O.filter (fun f => f.time ≤ t) :=
      List.filter_cons_of_pos (by simpa using due)
    show covering (c :: O) t = some c
    unfold covering
    rw [first, due_eq_nil later]
    rfl

/-- A frame that is later than those before it reaches as far as they do. -/
theorem reaches_append {cur : Option (Stamped α)} {o : Stamped α} {O : List (Stamped α)}
    (earlier : ∀ c ∈ cur, c.time < o.time) (t : Timestamp) :
    reaches (cur.toList ++ o :: O) t = reaches (o :: O) t := by
  cases cur with
  | none => rfl
  | some c =>
    have hidden : (decide (t ≤ c.time) || decide (t ≤ o.time)) = decide (t ≤ o.time) := by
      by_cases h : t ≤ c.time
      · have := Int64.le_trans h (Int64.le_of_lt (earlier c rfl))
        simp [h, this]
      · simp [h]
    show (decide (t ≤ c.time) || (decide (t ≤ o.time) || reaches O t)) = _
    rw [← Bool.or_assoc, hidden]
    rfl

/-! ### Pairs still to come -/

/-- The pair of a main frame, if it has one, where `H` are the overlay frames. -/
def pairOf (options : SyncOptions) (H : List (Stamped α)) (m : Stamped α) : Option (Pair α) :=
  if options.shortest then
    if H.isEmpty || reaches H m.time then some ⟨m, covering H m.time, m.time⟩ else none
  else if options.repeatLast || reaches H m.time then
    some ⟨m, covering H m.time, m.time⟩
  else
    some ⟨m, none, m.time⟩

/-- The pairs after the last main frame `l`. -/
def latePairs (options : SyncOptions) (l : Option (Stamped α)) (O : List (Stamped α)) :
    List (Pair α) :=
  if options.shortest || !options.repeatLast then []
  else l.elim [] fun l => (O.filter fun o => l.time < o.time).map fun o => ⟨l, some o, o.time⟩

/-- The pairs still to come, where `last` has been the last main frame so far and `cur` is the
current overlay frame, and `M` and `O` are ahead. -/
def onward (options : SyncOptions) (last : Option (Stamped α)) (M : List (Stamped α))
    (cur : Option (Stamped α)) (O : List (Stamped α)) : List (Pair α) :=
  M.filterMap (pairOf options (cur.toList ++ O)) ++ latePairs options (M.getLast?.or last) O

/-- At the start, everything is still to come. -/
theorem onward_start (options : SyncOptions) (M O : List (Stamped α)) :
    onward options none M none O = pairing options M O := by
  have kept (p : Stamped α → Bool) (g : Stamped α → Pair α) (M : List (Stamped α)) :
      M.filterMap (fun m => if p m then some (g m) else none) = (M.filter p).map g := by
    induction M with
    | nil => rfl
    | cons m M ih =>
      by_cases h : p m
      · simp [h, ih]
      · simp [h, ih]
  unfold onward pairing pairOf latePairs
  rcases options with ⟨action, shortest, repeatLast⟩
  cases shortest with
  | true =>
    simp only [Bool.true_or, if_true, List.append_nil, Option.toList_none, List.nil_append]
    exact kept _ _ M
  | false =>
    cases repeatLast with
    | true =>
      simp only [Bool.true_or, if_true, Option.toList_none, List.nil_append, Bool.false_eq_true,
        if_false, Option.or_none, Bool.not_true, Bool.or_self, List.filterMap_eq_map']
    | false =>
      simp only [Bool.false_or, Bool.not_false, if_true, Option.toList_none, List.nil_append,
        Bool.false_eq_true, if_false, List.append_nil]
      rw [← List.filterMap_eq_map']
      congr 1
      funext m
      split <;> rfl

/-- A place in two ordered lists: everything ahead is finite and not earlier than what came before
it, and later for overlay frames. -/
structure Ordered (last : Option (Stamped α)) (M : List (Stamped α)) (cur : Option (Stamped α))
    (O : List (Stamped α)) : Prop where
  main_sorted : M.Pairwise fun a b => a.time ≤ b.time
  overlay_sorted : O.Pairwise fun a b => a.time < b.time
  main_finite : ∀ m ∈ M, m.time ≠ Timestamp.endless
  overlay_finite : ∀ o ∈ O, o.time ≠ Timestamp.endless
  cur_main : ∀ c ∈ cur, ∀ m ∈ M, c.time ≤ m.time
  cur_overlay : ∀ c ∈ cur, ∀ o ∈ O, c.time < o.time
  last_overlay : ∀ l ∈ last, ∀ o ∈ O, l.time < o.time

namespace Ordered

variable {last cur : Option (Stamped α)} {M O : List (Stamped α)}

theorem overlay_step {o : Stamped α} (h : Ordered last M cur (o :: O))
    (due : ∀ m ∈ M, o.time ≤ m.time) : Ordered last M (some o) O where
  main_sorted := h.main_sorted
  overlay_sorted := (List.pairwise_cons.1 h.overlay_sorted).2
  main_finite := h.main_finite
  overlay_finite := fun x hx => h.overlay_finite x (List.mem_cons_of_mem o hx)
  cur_main := by
    intro c hc
    obtain rfl := Option.some.inj hc
    exact due
  cur_overlay := by
    intro c hc
    obtain rfl := Option.some.inj hc
    exact (List.pairwise_cons.1 h.overlay_sorted).1
  last_overlay := fun l hl x hx => h.last_overlay l hl x (List.mem_cons_of_mem o hx)

theorem main_step {m : Stamped α} (h : Ordered last (m :: M) cur O)
    (later : ∀ o ∈ O, m.time < o.time) : Ordered (some m) M cur O where
  main_sorted := (List.pairwise_cons.1 h.main_sorted).2
  overlay_sorted := h.overlay_sorted
  main_finite := fun x hx => h.main_finite x (List.mem_cons_of_mem m hx)
  overlay_finite := h.overlay_finite
  cur_main := fun c hc x hx => h.cur_main c hc x (List.mem_cons_of_mem m hx)
  cur_overlay := h.cur_overlay
  last_overlay := by
    intro l hl
    obtain rfl := Option.some.inj hl
    exact later

theorem overlay_gone (h : Ordered last M cur O) : Ordered last M none O :=
  { h with
    cur_main := fun _ none => nomatch none
    cur_overlay := fun _ none => nomatch none }

end Ordered

section Onward

variable {options : SyncOptions} {last cur : Option (Stamped α)} {M O : List (Stamped α)}

/-- An overlay frame that is not later than any main frame ahead can become current first. -/
theorem onward_overlay {o : Stamped α} (earlier : ∀ c ∈ cur, c.time < o.time)
    (due : ∀ m ∈ M, o.time ≤ m.time) (late : ∀ l ∈ M.getLast?.or last, o.time ≤ l.time) :
    onward options last M cur (o :: O) = onward options last M (some o) O := by
  have nonempty : (cur.toList ++ o :: O).isEmpty = (o :: O).isEmpty := by
    cases cur <;> rfl
  have pairs : M.filterMap (pairOf options (cur.toList ++ o :: O)) =
      M.filterMap (pairOf options (o :: O)) := by
    apply List.filterMap_congr
    intro m hm
    unfold pairOf
    rw [covering_append _ (due m hm), reaches_append earlier, nonempty]
  have lates : latePairs options (M.getLast?.or last) (o :: O) =
      latePairs options (M.getLast?.or last) O := by
    unfold latePairs
    cases limit : M.getLast?.or last with
    | none => rfl
    | some l =>
      have dropped : (o :: O).filter (fun f => l.time < f.time) =
          O.filter (fun f => l.time < f.time) := by
        apply List.filter_cons_of_neg
        have := late l limit
        simpa using this
      simp only [Option.elim_some, dropped]
  unfold onward
  rw [pairs, lates]
  rfl

/-- A main frame before the next overlay frame comes with the current one. -/
theorem onward_main {m : Stamped α} (due : ∀ c ∈ cur, c.time ≤ m.time)
    (later : ∀ o ∈ O, m.time < o.time)
    (reach : O = [] → options.shortest = true ∨ options.repeatLast = false →
      ∀ c ∈ cur, m.time ≤ c.time) :
    onward options last (m :: M) cur O = ⟨m, cur, m.time⟩ :: onward options (some m) M cur O := by
  have covered := covering_current due later
  have reached : options.shortest = true ∨ options.repeatLast = false →
      (cur.toList ++ O) = [] ∨ reaches (cur.toList ++ O) m.time = true := by
    intro limited
    rcases O with _ | ⟨o, O⟩
    · rcases cur with _ | c
      · exact .inl rfl
      · have := reach rfl limited c rfl
        right
        simp [reaches, this]
    · right
      have := Int64.le_of_lt (later o List.mem_cons_self)
      simp [reaches, this]
  have pair : pairOf options (cur.toList ++ O) m = some ⟨m, cur, m.time⟩ := by
    unfold pairOf
    rw [covered]
    cases shortest : options.shortest with
    | false =>
      cases repeats : options.repeatLast with
      | false =>
        rcases reached (.inr repeats) with empty | reaches
        · have none : cur = Option.none := by
            rw [← covered, empty]
            rfl
          rw [none]
          simp
        · simp [reaches]
      | true => simp
    | true =>
      rcases reached (.inl shortest) with empty | reaches
      · simp [empty]
      · simp [reaches]
  have limit : (m :: M).getLast?.or last = M.getLast?.or (some m) := by
    rw [List.getLast?_cons]
    cases M.getLast? <;> rfl
  unfold onward
  rw [List.filterMap_cons_some pair, limit]
  rfl

/-- After the last main frame, every overlay frame comes with it. -/
theorem onward_late {l o : Stamped α} (later : l.time < o.time)
    (unlimited : options.shortest = false) (repeats : options.repeatLast = true) :
    onward options (some l) [] cur (o :: O) =
      ⟨l, some o, o.time⟩ :: onward options (some l) [] (some o) O := by
  have kept : (o :: O).filter (fun f => l.time < f.time) =
      o :: O.filter (fun f => l.time < f.time) := List.filter_cons_of_pos (by simpa using later)
  show latePairs options (some l) (o :: O) = _ :: latePairs options (some l) O
  unfold latePairs
  simp only [unlimited, repeats, Bool.not_true, Bool.or_self, Bool.false_eq_true, if_false,
    Option.elim_some, kept, List.map_cons]

/-- The last overlay frame does not reach beyond its end. -/
theorem not_reaches {c m : Stamped α} (after : c.time < m.time) : reaches [c] m.time = false := by
  have past : ¬m.time ≤ c.time := Int64.not_le.2 after
  simp [reaches, past]

/-- Nothing is to come after the end of the overlay if that ends the output. -/
theorem onward_stopped {c : Stamped α} (shortest : options.shortest = true)
    (after : ∀ m ∈ M, c.time < m.time) : onward options last M (some c) [] = [] := by
  have pairs : M.filterMap (pairOf options [c]) = [] := by
    rw [List.filterMap_eq_nil_iff]
    intro m hm
    simp [pairOf, shortest, not_reaches (after m hm)]
  have lates : latePairs options (M.getLast?.or last) [] = [] := by
    simp [latePairs, shortest]
  show M.filterMap (pairOf options [c]) ++ _ = []
  rw [pairs, lates]
  rfl

/-- After the end of the overlay, main frames come without overlay. -/
theorem onward_passed {c : Stamped α} (unlimited : options.shortest = false)
    (passes : options.repeatLast = false) (after : ∀ m ∈ M, c.time < m.time) :
    onward options last M (some c) [] = onward options last M none [] := by
  have pairs : M.filterMap (pairOf options [c]) = M.filterMap (pairOf options []) := by
    apply List.filterMap_congr
    intro m hm
    have none : reaches ([] : List (Stamped α)) m.time = false := rfl
    simp only [pairOf, unlimited, passes, not_reaches (after m hm), none, Bool.or_self,
      Bool.false_eq_true, if_false]
  show M.filterMap (pairOf options [c]) ++ _ = M.filterMap (pairOf options []) ++ _
  rw [pairs]

/-- Nothing is to come without further frames, nor without main frames unless the overlay goes on
under the last one. -/
theorem onward_over (limited : options.shortest = true ∨ options.repeatLast = false ∨ last = none ∨
    O = []) : onward options last [] cur O = [] := by
  show latePairs options last O = []
  unfold latePairs
  rcases limited with shortest | passes | none | empty
  · rw [shortest]
    rfl
  · rw [passes, Bool.not_false, Bool.or_true]
    rfl
  · rw [none]
    split <;> rfl
  · rw [empty]
    cases last <;> split <;> rfl

end Onward

end FrameOverlay
