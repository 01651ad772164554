import SceneTracer.Proofs.Scene.Difference

namespace SceneTracer

/-!
# When the two solids of a union or an intersection can be exchanged

Exchanging the solids changes neither which places of a line the joined solid holds nor the order of
crossings at different parameters. At one parameter the merge takes all entries that come first, and
then what is left of the first solid before what is left of the second. So it makes a difference there
if both solids are left and not equally often, unless both are entered again.

* `Hit.meeting` — how many crossings are kept at one parameter, by the numbers of those of each solid.
* `Hit.meeting_comm_iff` — where this number does not depend on which solid is first.
* `Hit.Next` — where a parameter is when a crossing comes next; `Hit.length_crossingsAt_mergeFrom`
  that the merge keeps the number above at each parameter.
* `Hit.forall₂_iff_length_crossingsAt` — regular crossings are known by their numbers at each
  parameter.
* `Scene.hits_join_comm_iff` — the two orders of joined scenes.
-/

namespace Hit

/-! ### Crossings that meet -/

/-- How many crossings are kept where membership goes from `before` to `after`. -/
def kept (before after : Bool) : ℕ := if before = after then 0 else 1

theorem kept_comm (before after : Bool) : kept before after = kept after before := by
  cases before <;> cases after <;> rfl

/-- Turning one solid over makes the same difference in both directions. -/
theorem kept_not (f : Bool → Bool) (inside : Bool) :
    kept (f inside) (f !inside) = kept (f true) (f false) := by
  cases inside with
  | true => rfl
  | false => exact kept_comm _ _

/-- How many crossings a walk keeps of those at one parameter, of which `m` are of the first solid and
`n` of the second. Each of them turns the membership in its solid over. -/
def meeting (rule : Bool → Bool → Bool) (inA inB : Bool) : ℕ → ℕ → ℕ
  | 0, 0 => 0
  | m + 1, 0 => kept (rule inA inB) (rule (!inA) inB) + meeting rule (!inA) inB m 0
  | 0, n + 1 => kept (rule inA inB) (rule inA !inB) + meeting rule inA (!inB) 0 n
  | m + 1, n + 1 =>
    -- The first solid goes first if it is entered or the second is left.
    if !inA || inB then kept (rule inA inB) (rule (!inA) inB) + meeting rule (!inA) inB m (n + 1)
    else kept (rule inA inB) (rule inA !inB) + meeting rule inA (!inB) (m + 1) n
termination_by m n => m + n

section

variable (rule : Bool → Bool → Bool) (inA inB : Bool) (m n : ℕ)

/-- The first solid goes first. -/
theorem meeting_succ_left (h : n = 0 ∨ (!inA || inB) = true) :
    meeting rule inA inB (m + 1) n
      = kept (rule inA inB) (rule (!inA) inB) + meeting rule (!inA) inB m n := by
  cases n with
  | zero => rw [meeting]
  | succ n => rw [meeting, if_pos (h.resolve_left n.succ_ne_zero)]

/-- The second solid goes first. -/
theorem meeting_succ_right (h : m = 0 ∨ (!inA || inB) = false) :
    meeting rule inA inB m (n + 1)
      = kept (rule inA inB) (rule inA !inB) + meeting rule inA (!inB) m n := by
  cases m with
  | zero => rw [meeting]
  | succ m => rw [meeting, if_neg (Bool.eq_false_iff.mp (h.resolve_left m.succ_ne_zero))]

/-- Where only the second list crosses, each of its crossings counts by itself. -/
theorem meeting_zero_left :
    meeting rule inA inB 0 n = n * kept (rule inA true) (rule inA false) := by
  induction n generalizing inB with
  | zero => simp [meeting]
  | succ n ih =>
    rw [meeting, ih, kept_not (rule inA)]
    ring

theorem meeting_zero_right :
    meeting rule inA inB m 0 = m * kept (rule true inB) (rule false inB) := by
  induction m generalizing inA with
  | zero => simp [meeting]
  | succ m ih =>
    rw [meeting, ih, kept_not fun inside => rule inside inB]
    ring

/-- Inside of the second solid all crossings of the first go first. -/
theorem meeting_inside :
    meeting rule inA true m n = m * kept (rule true true) (rule false true)
      + n * kept (rule (inA == decide (Even m)) true) (rule (inA == decide (Even m)) false) := by
  induction m generalizing inA with
  | zero => simp [meeting_zero_left]
  | succ m ih =>
    have hturned : ((!inA) == decide (Even m)) = (inA == decide (Even (m + 1))) := by
      by_cases hm : Even m <;> cases inA <;> simp [Nat.even_add_one, hm]
    -- The next crossing of the second solid is an exit, and any crossing of the first goes before it.
    rw [meeting_succ_left rule inA true m n (.inr (Bool.or_true _)), ih, hturned,
      kept_not fun inside => rule inside true]
    ring

end

/-- How many of `m` crossings at one parameter are left if they start with an entry that is not
counted. -/
def leaves (inside : Bool) (m : ℕ) : ℕ := if inside then m else m - 1

/-- Two numbers of crossings of which it does not matter which solid goes first. -/
def Exchangeable (m n : ℕ) : Prop := m = 0 ∨ n = 0 ∨ m = n ∨ Even m ∧ Even n

theorem exchangeable_comm {m n : ℕ} : Exchangeable m n ↔ Exchangeable n m := by
  unfold Exchangeable
  tauto

variable {how : Join}

/-- But for differences, joins do not depend on the order of their operands. -/
theorem holds_comm (h : how ≠ .difference) (a b : Bool) : how.holds a b = how.holds b a := by
  cases how with
  | union => exact Bool.or_comm a b
  | intersection => exact Bool.and_comm a b
  | difference => exact absurd rfl h

/-- Inside of both solids. -/
theorem meeting_inside_comm_iff (h : how ≠ .difference) (m n : ℕ) :
    meeting how.holds true true m n = meeting how.holds true true n m ↔ Exchangeable m n := by
  rw [meeting_inside, meeting_inside, Exchangeable]
  -- All crossings of the first solid count for an intersection and none for a union. Those of the
  -- second count for an intersection if the first is entered again, and for a union if it is not.
  cases how with
  | union =>
    by_cases hm : Even m <;> by_cases hn : Even n <;> simp [Join.holds, kept, hm, hn] <;>
      (rw [Nat.even_iff] at hm hn; omega)
  | intersection =>
    by_cases hm : Even m <;> by_cases hn : Even n <;> simp [Join.holds, kept, hm, hn] <;>
      (rw [Nat.even_iff] at hm hn; omega)
  | difference => exact absurd rfl h

/-- **Where the order of the two solids makes no difference.** -/
theorem meeting_comm_iff (h : how ≠ .difference) (inA inB : Bool) (m n : ℕ) :
    meeting how.holds inA inB m n = meeting how.holds inB inA n m
      ↔ Exchangeable (leaves inA m) (leaves inB n) := by
  have hcomm := holds_comm h
  -- Where one solid does not cross, only the number of crossings of the other counts.
  have hzero (inA inB : Bool) (n : ℕ) :
      meeting how.holds inA inB 0 n = meeting how.holds inB inA n 0 := by
    rw [meeting_zero_left, meeting_zero_right, hcomm inA, hcomm inA]
  -- A solid in which the walk is not yet is entered before the other one is left.
  have hright (m n : ℕ) : meeting how.holds true false m (n + 1)
      = meeting how.holds false true (n + 1) m ↔ Exchangeable m n := by
    rw [meeting_succ_right _ _ _ _ _ (.inr rfl), meeting_succ_left _ _ _ _ _ (.inr rfl),
      hcomm true false, Bool.not_false, Nat.add_left_cancel_iff, meeting_inside_comm_iff h]
  cases inA with
  | true =>
    cases inB with
    | true => exact meeting_inside_comm_iff h m n
    | false =>
      cases n with
      | zero => exact iff_of_true (hzero _ _ _).symm (.inr (.inl rfl))
      | succ n => exact hright m n
  | false =>
    cases m with
    | zero => exact iff_of_true (hzero _ _ _) (.inl rfl)
    | succ m =>
      cases inB with
      | true => exact eq_comm.trans ((hright n m).trans exchangeable_comm)
      | false =>
        cases n with
        | zero => exact iff_of_true (hzero _ _ _).symm (.inr (.inl rfl))
        | succ n =>
          rw [meeting_succ_left _ _ _ _ _ (.inr rfl), meeting_succ_left _ _ _ _ _ (.inr rfl),
            meeting_succ_right _ _ _ _ _ (.inr rfl), meeting_succ_right _ _ _ _ _ (.inr rfl)]
          simpa [leaves] using meeting_inside_comm_iff h m n

/-! ### Crossings at one parameter -/

section

variable {α σ : Type} [Scalar α]

/-- The crossings at a parameter. -/
def crossingsAt (t : α) (hits : List (Hit α σ)) : List (Hit α σ) := hits.filter fun h => h.t == t

/-- The crossings at a parameter from the first exit on. -/
def leavingAt (t : α) (hits : List (Hit α σ)) : List (Hit α σ) :=
  (crossingsAt t hits).dropWhile fun h => h.crossing = .entry

/-- Whether the crossings in front of a parameter lead inside, from inside or outside. -/
def insideFrom (inside : Bool) (hits : List (Hit α σ)) (t : α) : Bool :=
  insideAfter inside (hits.filter fun h => decide (h.t < t))

/-- A crossing adds to the count at its parameter if it is kept. -/
theorem length_crossingsAt_keep (h : Hit α σ) (before after : Bool) (rest : List (Hit α σ)) (t : α) :
    (crossingsAt t (h.keep before after rest)).length
      = (if h.t == t then kept before after else 0) + (crossingsAt t rest).length := by
  rw [keep, kept]
  split
  · simp
  · by_cases ht : h.t == t <;> simp [crossingsAt, ht, add_comm]

/-- Nothing is at a parameter that is not behind the crossings. -/
theorem crossingsAt_eq_nil {t : α} {hits : List (Hit α σ)} (h : ∀ k ∈ hits, ¬ (k.t == t) = true) :
    crossingsAt t hits = [] :=
  List.filter_eq_nil_iff.mpr h

/-- Without crossings before a parameter, the line is there as it started. -/
theorem insideFrom_eq {inside : Bool} {t : α} {hits : List (Hit α σ)} (h : ∀ k ∈ hits, ¬ k.t < t) :
    insideFrom inside hits t = inside := by
  have hnone : (hits.filter fun k => decide (k.t < t)) = [] := by
    rw [List.filter_eq_nil_iff]
    simpa using h
  rw [insideFrom, hnone, insideAfter]

variable [OrderedScalar α] {inA inB : Bool} {as bs : List (Hit α σ)} {t : α}

/-- A crossing in front of others, and a parameter that is not behind it. -/
theorem not_lt_of_le {a k : Hit α σ} (h : a.t ≤ k.t) (ht : ¬ a.t < t) : ¬ k.t < t :=
  fun hk => ht (OrderedScalar.lt_of_le_of_lt h hk)

/-- If the first crossing is behind a parameter, no later one is at it. -/
theorem not_beq_of_le {a k : Hit α σ} (h : a.t ≤ k.t) (ht : ¬ a.t < t) (hne : ¬ (a.t == t) = true) :
    ¬ (k.t == t) = true := by
  intro hk
  obtain ⟨hkt, htk⟩ := OrderedScalar.beq_iff.mp hk
  have hat : a.t ≤ t := OrderedScalar.le_trans h hkt
  have hta : t ≤ a.t := by
    by_contra hnot
    exact ht (OrderedScalar.lt_iff.mpr ⟨hat, hnot⟩)
  exact hne (OrderedScalar.beq_iff.mpr ⟨hat, hta⟩)

/-- Where a parameter is when the crossing `h` comes next, in front of `hits` of its own solid and of
`others` of the other one. -/
inductive Next (t : α) (inside other : Bool) (h : Hit α σ) (hits others : List (Hit α σ)) : Prop
  /-- Behind the crossing, which only changes the membership there. -/
  | behind (hne : ¬ (h.t == t) = true)
      (hinside : insideFrom inside (h :: hits) t = insideFrom (!inside) hits t)
      (hcrossings : crossingsAt t (h :: hits) = crossingsAt t hits)
  /-- At the crossing. Of the other solid there is a crossing here only if the next one is. -/
  | here (heq : (h.t == t) = true) (hinside : insideFrom inside (h :: hits) t = inside)
      (hturned : insideFrom (!inside) hits t = !inside) (hother : insideFrom other others t = other)
      (hcrossings : crossingsAt t (h :: hits) = h :: crossingsAt t hits)
      (hmeet : crossingsAt t others = [] ∨ ∃ k rest, others = k :: rest ∧ (h.t == k.t) = true)
  /-- In front of the crossing, where there are none. -/
  | ahead (hne : ¬ (h.t == t) = true) (hcrossings : crossingsAt t (h :: hits) = [])
      (hhits : crossingsAt t hits = []) (hothers : crossingsAt t others = [])

/-- **What the first crossing of two lists means for a parameter**: it lies behind, at, or before
the parameter. -/
theorem next_of_le {inside other : Bool} {h : Hit α σ} {hits others : List (Hit α σ)}
    (halt : Alternates (!inside) (h :: hits)) (hs : InOrder (h :: hits)) (ho : InOrder others)
    (hle : ∀ k ∈ others, h.t ≤ k.t) (t : α) : Next t inside other h hits others := by
  have hhead : ∀ k ∈ h :: hits, h.t ≤ k.t := fun k hk => hs.head_le hk
  have htail : ∀ k ∈ hits, h.t ≤ k.t := fun k hk => hhead k (List.mem_cons_of_mem _ hk)
  by_cases hlt : h.t < t
  · have hne : ¬ (h.t == t) = true :=
      fun heq => (OrderedScalar.lt_iff.mp hlt).2 (OrderedScalar.beq_iff.mp heq).2
    have hentering : h.entering = !inside := halt.decide_head
    have hinside : insideFrom inside (h :: hits) t = insideFrom (!inside) hits t := by
      simp [insideFrom, hlt, insideAfter, hentering]
    exact .behind hne hinside (List.filter_cons_of_neg hne)
  · have hnone (inside : Bool) (ks : List (Hit α σ)) (hks : ∀ k ∈ ks, h.t ≤ k.t) :
        insideFrom inside ks t = inside :=
      insideFrom_eq fun k hk => not_lt_of_le (hks k hk) hlt
    by_cases heq : h.t == t
    · refine .here heq (hnone _ _ hhead) (hnone _ _ htail) (hnone _ _ hle)
        (List.filter_cons_of_pos heq) ?_
      cases others with
      | nil => exact .inl rfl
      | cons k rest =>
        by_cases hkt : k.t == t
        · exact .inr ⟨k, rest, rfl, OrderedScalar.beq_trans heq (OrderedScalar.beq_symm hkt)⟩
        · -- If the next one is behind `t`, so are those behind it.
          have hnot := not_lt_of_le (hle k List.mem_cons_self) hlt
          exact .inl (crossingsAt_eq_nil fun k' hk' => not_beq_of_le (ho.head_le hk') hnot hkt)
    · have hnil (ks : List (Hit α σ)) (hks : ∀ k ∈ ks, h.t ≤ k.t) : crossingsAt t ks = [] :=
        crossingsAt_eq_nil fun k hk => not_beq_of_le (hks k hk) hlt heq
      exact .ahead heq (hnil _ hhead) (hnil _ htail) (hnil _ hle)

omit [OrderedScalar α] in
/-- Where two crossings meet, the memberships in front of them tell which goes first. -/
theorem precedes_of_meet {a b : Hit α σ} (has : Alternates (!inA) (a :: as))
    (hbs : Alternates (!inB) (b :: bs)) (h : (a.t == b.t) = true) :
    a.precedes b = (!inA || inB) := by
  rw [precedes, if_pos h, has.1, hbs.1]
  cases inA <;> cases inB <;> rfl

/-- **One crossing of the first solid**, which the merge takes next. -/
theorem meeting_cons_left (rule : Bool → Bool → Bool) {a : Hit α σ}
    (has : Alternates (!inA) (a :: as)) (hbs : Alternates (!inB) bs) (ha : InOrder (a :: as))
    (hb : InOrder bs) (hle : ∀ b ∈ bs, a.t ≤ b.t) (hfirst : ∀ b ∈ bs.head?, a.precedes b) :
    meeting rule (insideFrom inA (a :: as) t) (insideFrom inB bs t)
        (crossingsAt t (a :: as)).length (crossingsAt t bs).length
      = (if a.t == t then kept (rule inA inB) (rule (!inA) inB) else 0)
        + meeting rule (insideFrom (!inA) as t) (insideFrom inB bs t)
            (crossingsAt t as).length (crossingsAt t bs).length := by
  have hnext : Next t inA inB a as bs := next_of_le has ha hb hle t
  cases hnext with
  | behind hne hinside hcrossings => rw [hinside, hcrossings, if_neg hne, zero_add]
  | here heq hinside hturned hother hcrossings hmeet =>
    rw [hinside, hturned, hother, hcrossings, List.length_cons, if_pos heq]
    apply meeting_succ_left
    -- Of the second solid only a crossing that `a` meets could go first.
    rcases hmeet with hnil | ⟨b, rest, rfl, hmeet⟩
    · exact .inl (by rw [hnil, List.length_nil])
    · rw [← precedes_of_meet has hbs hmeet]
      exact .inr (hfirst b rfl)
  | ahead hne hcrossings hhits hothers =>
    rw [hcrossings, hhits, hothers, if_neg hne]
    simp [meeting_zero_left]

/-- **One crossing of the second solid**, which the merge takes next. -/
theorem meeting_cons_right (rule : Bool → Bool → Bool) {b : Hit α σ}
    (has : Alternates (!inA) as) (hbs : Alternates (!inB) (b :: bs)) (ha : InOrder as)
    (hb : InOrder (b :: bs)) (hle : ∀ a ∈ as, b.t ≤ a.t) (hfirst : ∀ a ∈ as.head?, ¬ a.precedes b) :
    meeting rule (insideFrom inA as t) (insideFrom inB (b :: bs) t)
        (crossingsAt t as).length (crossingsAt t (b :: bs)).length
      = (if b.t == t then kept (rule inA inB) (rule inA !inB) else 0)
        + meeting rule (insideFrom inA as t) (insideFrom (!inB) bs t)
            (crossingsAt t as).length (crossingsAt t bs).length := by
  have hnext : Next t inB inA b bs as := next_of_le hbs hb ha hle t
  -- The first crossing lies behind the parameter, at it, or before it.
  cases hnext with
  | behind hne hinside hcrossings => rw [hinside, hcrossings, if_neg hne, zero_add]
  | here heq hinside hturned hother hcrossings hmeet =>
    rw [hinside, hturned, hother, hcrossings, List.length_cons, if_pos heq]
    apply meeting_succ_right
    rcases hmeet with hnil | ⟨a, rest, rfl, hmeet⟩
    · exact .inl (by rw [hnil, List.length_nil])
    · rw [← precedes_of_meet has hbs (OrderedScalar.beq_symm hmeet)]
      exact .inr (Bool.eq_false_iff.mpr (hfirst a rfl))
  | ahead hne hcrossings hhits hothers =>
    rw [hcrossings, hhits, hothers, if_neg hne]
    simp [meeting_zero_left]

/-- **What a merge keeps at one parameter** follows from the memberships in front of it and from the
numbers of crossings there. -/
theorem length_crossingsAt_mergeFrom (rule : Bool → Bool → Bool) (has : Alternates (!inA) as)
    (hbs : Alternates (!inB) bs) (ha : InOrder as) (hb : InOrder bs) (t : α) :
    (crossingsAt t (mergeFrom rule inA inB as bs)).length
      = meeting rule (insideFrom inA as t) (insideFrom inB bs t)
          (crossingsAt t as).length (crossingsAt t bs).length := by
  -- Along the merge, each step of which is one crossing of either solid.
  fun_induction mergeFrom rule inA inB as bs with
  | case1 inA inB => simp [crossingsAt, meeting]
  | case2 inA inB a as entering ih =>
    have hentering : entering = !inA := has.decide_head
    rw [length_crossingsAt_keep, meeting_cons_left rule has hbs ha hb (by simp) (by simp)]
    rw [ih (hentering ▸ has.2) hbs ha.tail hb, hentering]
  | case3 inA inB b bs entering ih =>
    have hentering : entering = !inB := hbs.decide_head
    rw [length_crossingsAt_keep, meeting_cons_right rule has hbs ha hb (by simp) (by simp)]
    rw [ih has (hentering ▸ hbs.2) ha hb.tail, hentering]
  | case4 inA inB a as b bs h entering ih =>
    have hentering : entering = !inA := has.decide_head
    have hle : ∀ b' ∈ b :: bs, a.t ≤ b'.t :=
      fun b' hb' => OrderedScalar.le_trans (le_of_precedes h) (hb.head_le hb')
    rw [length_crossingsAt_keep, meeting_cons_left rule has hbs ha hb hle (by simpa using h)]
    rw [ih (hentering ▸ has.2) hbs ha.tail hb, hentering]
  | case5 inA inB a as b bs h entering ih =>
    have hentering : entering = !inB := hbs.decide_head
    have hba : b.t ≤ a.t :=
      le_of_not_precedes (ha.head_le List.mem_cons_self) (hb.head_le List.mem_cons_self) h
    have hle : ∀ a' ∈ a :: as, b.t ≤ a'.t :=
      fun a' ha' => OrderedScalar.le_trans hba (ha.head_le ha')
    rw [length_crossingsAt_keep, meeting_cons_right rule has hbs ha hb hle (by simpa using h)]
    rw [ih has (hentering ▸ hbs.2) ha hb.tail, hentering]

/-- **How many crossings a merged list has at a parameter** depends on the two counts and on where
the line is before it. -/
theorem length_crossingsAt_merge (rule : Bool → Bool → Bool) (ha : Regular as) (hb : Regular bs)
    (t : α) :
    (crossingsAt t (merge rule as bs)).length
      = meeting rule (insideFrom false as t) (insideFrom false bs t)
          (crossingsAt t as).length (crossingsAt t bs).length := by
  have has : Alternates (!false) as := ha.alternates
  have hbs : Alternates (!false) bs := hb.alternates
  exact length_crossingsAt_mergeFrom rule has hbs ha.inOrder hb.inOrder t

/-- What is left at a parameter from the first exit on, by number. -/
theorem length_leavingAt {inside : Bool} {hits : List (Hit α σ)} (halt : Alternates (!inside) hits)
    (hs : InOrder hits) (t : α) :
    (leavingAt t hits).length = leaves (insideFrom inside hits t) (crossingsAt t hits).length := by
  induction hits generalizing inside with
  | nil => simp [leavingAt, crossingsAt, leaves]
  | cons h hits ih =>
    have hrest : Alternates (!!inside) hits := halt.2
    have ih := ih hrest hs.tail
    have hnext : Next t inside false h hits [] := next_of_le halt hs ⟨by simp, by simp⟩ (by simp) t
    cases hnext with
    | behind hne hinside hcrossings => rw [leavingAt, hinside, hcrossings, ← ih, leavingAt]
    | here heq hinside hturned hother hcrossings hmeet =>
      rw [hinside, leavingAt, hcrossings, List.length_cons]
      rw [hturned, leavingAt] at ih
      cases inside with
      | false =>
        -- The entry is not counted, and behind it all are.
        rw [List.dropWhile_cons_of_pos (by simp [halt.1, Crossing.ofInside]), ih]
        rfl
      | true =>
        rw [List.dropWhile_cons_of_neg (by simp [halt.1, Crossing.ofInside])]
        rfl
    | ahead hne hcrossings hhits hothers => simp [leavingAt, hcrossings, leaves]

/-! ### The same crossings -/

/-- Two crossings are at the same parameter, and lead to the same side. -/
def SameCrossing (h k : Hit α σ) : Prop := (h.t == k.t) = true ∧ h.crossing = k.crossing

omit [OrderedScalar α] in
/-- A crossing adds one to the count at its own parameter. -/
theorem length_crossingsAt_cons (h : Hit α σ) (hits : List (Hit α σ)) (t : α) :
    (crossingsAt t (h :: hits)).length
      = (if h.t == t then 1 else 0) + (crossingsAt t hits).length := by
  rw [crossingsAt, List.filter_cons]
  split
  · exact Nat.add_comm _ 1
  · exact (Nat.zero_add _).symm

/-- Crossings at the same parameter are at the same parameters. -/
theorem beq_congr {h k : Hit α σ} (hhk : (h.t == k.t) = true) (t : α) : (h.t == t) = (k.t == t) :=
  Bool.eq_iff_iff.mpr ⟨OrderedScalar.beq_trans (OrderedScalar.beq_symm hhk),
    OrderedScalar.beq_trans hhk⟩

omit [OrderedScalar α] in
/-- Lists with the same counts have crossings at the same parameters. -/
theorem exists_of_length_crossingsAt {hits hits' : List (Hit α σ)} {h : Hit α σ} (hmem : h ∈ hits)
    (hlength : (crossingsAt t hits).length = (crossingsAt t hits').length)
    (ht : (h.t == t) = true) : ∃ k ∈ hits', (k.t == t) = true := by
  have hpos : 0 < (crossingsAt t hits').length := by
    rw [← hlength]
    exact List.length_pos_of_mem (List.mem_filter.mpr ⟨hmem, ht⟩)
  obtain ⟨k, hk⟩ := List.exists_mem_of_length_pos hpos
  exact ⟨k, List.mem_filter.mp hk⟩

/-- Crossings in order that alternate are known by their numbers at each parameter. -/
theorem forall₂_of_length_crossingsAt {outside : Bool} {hits hits' : List (Hit α σ)}
    (hs : InOrder hits) (hs' : InOrder hits') (halt : Alternates outside hits)
    (halt' : Alternates outside hits')
    (hlength : ∀ t, (crossingsAt t hits).length = (crossingsAt t hits').length) :
    List.Forall₂ SameCrossing hits hits' := by
  have hself {h : Hit α σ} {hits : List (Hit α σ)} (hs : InOrder (h :: hits)) :
      (h.t == h.t) = true := by
    have hle := hs.comparable h List.mem_cons_self
    exact OrderedScalar.beq_iff.mpr ⟨hle, hle⟩
  induction hits generalizing outside hits' with
  | nil =>
    cases hits' with
    | nil => exact .nil
    | cons k hits' =>
      obtain ⟨_, hmem, -⟩ :=
        exists_of_length_crossingsAt List.mem_cons_self (hlength k.t).symm (hself hs')
      cases hmem
  | cons h hits ih =>
    obtain ⟨k', hk', hk't⟩ :=
      exists_of_length_crossingsAt List.mem_cons_self (hlength h.t) (hself hs)
    cases hits' with
    | nil => cases hk'
    | cons k hits' =>
      -- Neither list has a crossing in front of the first of the other.
      obtain ⟨h', hh', hh't⟩ :=
        exists_of_length_crossingsAt List.mem_cons_self (hlength k.t).symm (hself hs')
      have hkh : k.t ≤ h.t :=
        OrderedScalar.le_trans (hs'.head_le hk') (OrderedScalar.beq_iff.mp hk't).1
      have hhk : h.t ≤ k.t :=
        OrderedScalar.le_trans (hs.head_le hh') (OrderedScalar.beq_iff.mp hh't).1
      have heq : (h.t == k.t) = true := OrderedScalar.beq_iff.mpr ⟨hhk, hkh⟩
      refine .cons ⟨heq, halt.1.trans halt'.1.symm⟩ (ih hs.tail hs'.tail halt.2 halt'.2 fun t => ?_)
      have hlength := hlength t
      rw [length_crossingsAt_cons, length_crossingsAt_cons, beq_congr heq t] at hlength
      exact Nat.add_left_cancel hlength

/-- **Two lists of regular crossings are the same** just if they have equally many at each
parameter. -/
theorem forall₂_iff_length_crossingsAt {hits hits' : List (Hit α σ)} (hr : Regular hits)
    (hr' : Regular hits') :
    List.Forall₂ SameCrossing hits hits'
      ↔ ∀ t, (crossingsAt t hits).length = (crossingsAt t hits').length := by
  constructor
  · intro h t
    clear hr hr'
    induction h with
    | nil => rfl
    | cons hhk _ ih => rw [length_crossingsAt_cons, length_crossingsAt_cons, beq_congr hhk.1 t, ih]
  · exact forall₂_of_length_crossingsAt hr.inOrder hr'.inOrder hr.alternates hr'.alternates

/-- **When the operands of a merge can be exchanged.** -/
theorem forall₂_merge_comm_iff {how : Join} (hhow : how ≠ .difference) (ha : Regular as)
    (hb : Regular bs) :
    List.Forall₂ SameCrossing (merge how.holds as bs) (merge how.holds bs as)
      ↔ ∀ t, Exchangeable (leavingAt t as).length (leavingAt t bs).length := by
  have hfalse := Scene.join_holds_false how
  rw [forall₂_iff_length_crossingsAt (ha.merge hb hfalse) (hb.merge ha hfalse)]
  refine forall_congr' fun t => ?_
  have hleaving {hits : List (Hit α σ)} (hr : Regular hits) : (leavingAt t hits).length
      = leaves (insideFrom false hits t) (crossingsAt t hits).length := by
    have halt : Alternates (!false) hits := hr.alternates
    exact length_leavingAt halt hr.inOrder t
  rw [length_crossingsAt_merge _ ha hb, length_crossingsAt_merge _ hb ha, meeting_comm_iff hhow,
    hleaving ha, hleaving hb]

omit [OrderedScalar α] in
/-- Where crossings are left to count, there is an exit. -/
theorem exists_exit_of_leavingAt {hits : List (Hit α σ)} (h : leavingAt t hits ≠ []) :
    ∃ k ∈ hits, k.crossing = .exit ∧ (k.t == t) = true := by
  have hmem : (leavingAt t hits).head h ∈ crossingsAt t hits :=
    (List.dropWhile_sublist _).subset (List.head_mem h)
  obtain ⟨hhits, ht⟩ := List.mem_filter.mp hmem
  have hnot : decide (((leavingAt t hits).head h).crossing = .entry) = false :=
    List.head_dropWhile_not _ h
  refine ⟨_, hhits, ?_, ht⟩
  cases hcrossing : ((leavingAt t hits).head h).crossing with
  | entry => exact absurd hcrossing (of_decide_eq_false hnot)
  | exit => rfl

/-- The operands can be exchanged if no exit of one is at an exit of the other. -/
theorem exchangeable_of_exits_apart
    (h : ∀ a ∈ as, ∀ b ∈ bs, a.crossing = .exit → b.crossing = .exit → ¬ (a.t == b.t) = true)
    (t : α) : Exchangeable (leavingAt t as).length (leavingAt t bs).length := by
  by_cases has : leavingAt t as = []
  · exact .inl (by rw [has, List.length_nil])
  by_cases hbs : leavingAt t bs = []
  · exact .inr (.inl (by rw [hbs, List.length_nil]))
  obtain ⟨a, ha, hexit, hat⟩ := exists_exit_of_leavingAt has
  obtain ⟨b, hb, hexit', hbt⟩ := exists_exit_of_leavingAt hbs
  have hmeet := OrderedScalar.beq_trans hat (OrderedScalar.beq_symm hbt)
  exact absurd hmeet (h a ha b hb hexit hexit')

end

end Hit

namespace Scene

variable {σ : Type}

/-- **What it matters which solid is written first.** Where every primitive has a span or nothing on
the line, a union or an intersection of two scenes holds the same places of the line in both orders.
It reports the same crossings, at the same parameters and in the same directions, just if there is no
parameter at which both scenes are left, from the first exit on, by different numbers of crossings of
which one at least is odd. -/
theorem hits_join_comm_iff {how : Join} (hhow : how ≠ .difference) (a b : Scene Float σ)
    (origin direction : Vec3 Float) (ha : ∀ p ∈ a.primitives, Hit.IsSpan (p.hits origin direction))
    (hb : ∀ p ∈ b.primitives, Hit.IsSpan (p.hits origin direction)) :
    (∀ t, Hit.insideAt ((join how a b).hits origin direction) t
      = Hit.insideAt ((join how b a).hits origin direction) t) ∧
    (List.Forall₂ Hit.SameCrossing ((join how a b).hits origin direction)
        ((join how b a).hits origin direction) ↔
      ∀ t, Hit.Exchangeable (Hit.leavingAt t (a.hits origin direction)).length
        (Hit.leavingAt t (b.hits origin direction)).length) := by
  have hregular := regular_hits a origin direction ha
  have hregular' := regular_hits b origin direction hb
  refine ⟨fun t => ?_, Hit.forall₂_merge_comm_iff hhow hregular hregular'⟩
  have hfalse := join_holds_false how
  rw [hits, hits, Hit.insideAt_merge hregular.inOrder hregular'.inOrder hfalse,
    Hit.insideAt_merge hregular'.inOrder hregular.inOrder hfalse, Hit.holds_comm hhow]

/-- Two cubes, one on top of the other: the union has no gap, whichever is written first. -/
theorem hits_join_comm_iff_touching :
    let lower : Scene Float Unit := .atOrigin .cube ()
    let upper : Scene Float Unit :=
      .primitive ⟨.cube, (), ⟨.translation 0 1 0, .translation 0 (-1) 0⟩⟩
    let origin : Vec3 Float := ⟨0.5, -1, 0.5⟩
    let direction : Vec3 Float := ⟨0, 1, 0⟩
    (∀ p ∈ lower.primitives, Hit.IsSpan (p.hits origin direction)) ∧
    (∀ p ∈ upper.primitives, Hit.IsSpan (p.hits origin direction)) ∧
    List.Forall₂ Hit.SameCrossing ((join .union lower upper).hits origin direction)
      ((join .union upper lower).hits origin direction) ∧
    ((join .union lower upper).hits origin direction).map (·.crossing) = [.entry, .exit] := by
  intro lower upper origin direction
  have hlower : ∀ p ∈ lower.primitives, Hit.IsSpan (p.hits origin direction) := by
    simp only [Primitive.isSpan_hits_iff]
    decide +kernel
  have hupper : ∀ p ∈ upper.primitives, Hit.IsSpan (p.hits origin direction) := by
    simp only [Primitive.isSpan_hits_iff]
    decide +kernel
  have hcomm := hits_join_comm_iff (by decide : Join.union ≠ .difference) lower upper origin
    direction hlower hupper
  -- The cubes are left at different parameters, although one ends where the other begins.
  have hapart : ∀ a ∈ lower.hits origin direction, ∀ b ∈ upper.hits origin direction,
      a.crossing = .exit → b.crossing = .exit → ¬ (a.t == b.t) = true := by
    decide +kernel
  have hsame := hcomm.2.mpr (Hit.exchangeable_of_exits_apart hapart)
  exact ⟨hlower, hupper, hsame, by decide +kernel⟩

/-- A tall cube that a plane cuts in two, and a cube that ends at the cut. The line leaves both there,
and enters one of them again. If the tall one is written first, their union is in one piece and their
intersection in two, and otherwise it is the other way round. -/
theorem exchange_opens_gap :
    let tall : Scene Float Unit := .primitive ⟨.cube, (), ⟨.scaling 1 2 1, .scaling 1 0.5 1⟩⟩
    let plane : Scene Float Unit :=
      .primitive ⟨.plane, (), ⟨.translation 0 1 0, .translation 0 (-1) 0⟩⟩
    let cut : Scene Float Unit := .join .difference tall plane
    let cube : Scene Float Unit := .atOrigin .cube ()
    let origin : Vec3 Float := ⟨0.5, -1, 0.5⟩
    let direction : Vec3 Float := ⟨0, 1, 0⟩
    let crossings (s : Scene Float Unit) := (s.hits origin direction).map (·.crossing)
    (∀ p ∈ cut.primitives, Hit.IsSpan (p.hits origin direction)) ∧
    (∀ p ∈ cube.primitives, Hit.IsSpan (p.hits origin direction)) ∧
    crossings (.join .union cut cube) = [.entry, .exit] ∧
    crossings (.join .union cube cut) = [.entry, .exit, .entry, .exit] ∧
    crossings (.join .intersection cut cube) = [.entry, .exit, .entry, .exit] ∧
    crossings (.join .intersection cube cut) = [.entry, .exit] := by
  intro tall plane cut cube origin direction crossings
  -- The plane cuts the tall cube in two at the height where the small cube ends.
  refine ⟨?_, ?_, ?_, ?_, ?_, ?_⟩
  · simp only [Primitive.isSpan_hits_iff]
    decide +kernel
  · simp only [Primitive.isSpan_hits_iff]
    decide +kernel
  · decide +kernel
  · decide +kernel
  · decide +kernel
  · decide +kernel

end Scene

end SceneTracer
