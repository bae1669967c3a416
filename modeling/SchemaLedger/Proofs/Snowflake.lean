import Mathlib.Data.Prod.Lex
import Mathlib.Tactic
import SchemaLedger.Snowflake

/-!
Ids that are drawn from a clock.

* `Snowflake.Advances`: what one draw does.  It follows the clock, or counts on within the
  millisecond, or borrows the next one.
* `Snowflake.Advances.moment_lt`: whatever the clock reads, every draw gets beyond the one before,
  if milliseconds are compared first and then the numbers within them.
* `Snowflake.IsSound.toNat_current`: as long as milliseconds have 42 bits, the three parts of an id
  stand next to each other and none of their bits is lost.
* `Snowflake.ids_never_repeat`: the ids of one source increase, and two nodes have no id in common.
-/

namespace SchemaLedger

namespace Snowflake

variable {s t : Snowflake} {now : Int} {clock : List Int}

/-! ### One draw -/

/-- Node and number fit into the bits that there are for them. -/
structure IsSound (s : Snowflake) : Prop where
  node : s.node < Word.limit nodeBits
  sequence : s.sequence < Word.limit sequenceBits

/-- A new source is sound, and it is that of its node. -/
lemma isSound_of_ofNode {node : Nat} (accepted : ofNode node = .ok s) :
    s.IsSound ∧ s.node = node := by
  rw [ofNode] at accepted
  split at accepted
  · cases accepted
  · rename_i few
    cases accepted
    exact ⟨⟨Nat.lt_succ_of_le (Nat.le_of_not_lt few), Nat.two_pow_pos sequenceBits⟩, rfl⟩

/-- What one draw does to a source. -/
inductive Advances (s : Snowflake) (now : Int) : Snowflake → Prop
  | followed (ahead : s.lastMilli < sinceEpoch now) :
    Advances s now { s with lastMilli := sinceEpoch now, sequence := 0 }
  | counted (behind : sinceEpoch now ≤ s.lastMilli)
    (room : s.sequence + 1 < Word.limit sequenceBits) :
    Advances s now { s with sequence := s.sequence + 1 }
  | borrowed (behind : sinceEpoch now ≤ s.lastMilli)
    (full : s.sequence + 1 = Word.limit sequenceBits) :
    Advances s now { s with lastMilli := s.lastMilli + 1, sequence := 0 }

/-- A sound source advances in one of the three ways. -/
lemma IsSound.advances (h : s.IsSound) (now : Int) : s.Advances now (s.advance now) := by
  simp only [advance]
  split
  · exact .followed ‹_›
  · have behind : sinceEpoch now ≤ s.lastMilli := Nat.le_of_not_lt ‹_›
    rcases Nat.lt_or_ge (s.sequence + 1) (Word.limit sequenceBits) with room | full
    · rw [Nat.mod_eq_of_lt room, if_neg (Nat.succ_ne_zero _)]
      exact .counted behind room
    · have full : s.sequence + 1 = Word.limit sequenceBits := Nat.le_antisymm h.sequence full
      rw [full, Nat.mod_self, if_pos rfl]
      exact .borrowed behind full

/-- The millisecond of the latest id and its number, compared in this order. -/
def moment (s : Snowflake) : ℕ ×ₗ ℕ :=
  toLex (s.lastMilli, s.sequence)

namespace Advances

/-- A draw keeps a source sound. -/
lemma isSound (step : s.Advances now t) (h : s.IsSound) : t.IsSound := by
  cases step with
  | followed ahead => exact ⟨h.node, Nat.two_pow_pos sequenceBits⟩
  | counted behind room => exact ⟨h.node, room⟩
  | borrowed behind full => exact ⟨h.node, Nat.two_pow_pos sequenceBits⟩

/-- A draw leaves a source with its node. -/
lemma node (step : s.Advances now t) : t.node = s.node := by
  cases step <;> rfl

/-- Every draw gets beyond the one before, even if the clock stands still or runs backwards. -/
lemma moment_lt (step : s.Advances now t) : s.moment < t.moment := by
  refine Prod.Lex.toLex_lt_toLex.2 ?_
  cases step with
  | followed ahead => exact .inl ahead
  | counted behind room => exact .inr ⟨rfl, Nat.lt_succ_self _⟩
  | borrowed behind full => exact .inl (Nat.lt_succ_self _)

end Advances

/-! ### The parts of an id -/

/-- The parts of an id before it is cut to 64 bits. -/
lemma IsSound.parts (h : s.IsSound) :
    s.lastMilli <<< (nodeBits + sequenceBits) ||| s.node <<< sequenceBits ||| s.sequence =
      s.lastMilli * 2 ^ 22 + s.node * 2 ^ 12 + s.sequence := by
  have node := h.node
  have sequence := h.sequence
  simp only [nodeBits, sequenceBits, Word.limit, Nat.pow_eq] at node sequence ⊢
  have fits : s.node <<< 12 < 2 ^ 22 := by
    rw [Nat.shiftLeft_eq]
    omega
  -- the number within the millisecond comes behind the two other parts as a whole
  have whole : s.lastMilli <<< 22 ||| s.node <<< 12 = (s.lastMilli * 2 ^ 10 + s.node) <<< 12 := by
    rw [← Nat.shiftLeft_add_eq_or_of_lt fits]
    simp only [Nat.shiftLeft_eq]
    omega
  rw [whole, ← Nat.shiftLeft_add_eq_or_of_lt sequence, Nat.shiftLeft_eq]
  omega

/-- As long as milliseconds have 42 bits no part of an id is lost. -/
lemma IsSound.toNat_current (h : s.IsSound) (early : s.lastMilli < Word.limit 42) :
    s.current.toNat = s.lastMilli * 2 ^ 22 + s.node * 2 ^ 12 + s.sequence := by
  have node := h.node
  have sequence := h.sequence
  simp only [nodeBits, sequenceBits, Word.limit, Nat.pow_eq] at node sequence early
  rw [current, h.parts, UInt64.toNat_ofNat_of_lt']
  rw [UInt64.size]
  omega

/-- The bits of the node survive in any case. -/
lemma IsSound.node_of_current (h : s.IsSound) : s.current.toNat / 2 ^ 12 % 2 ^ 10 = s.node := by
  have node := h.node
  have sequence := h.sequence
  simp only [nodeBits, sequenceBits, Word.limit, Nat.pow_eq] at node sequence
  rw [current, h.parts, UInt64.toNat_ofNat']
  omega

/-- Later ids are larger. -/
lemma IsSound.current_lt (hs : s.IsSound) (ht : t.IsSound) (node : t.node = s.node)
    (early : t.lastMilli < Word.limit 42) (later : s.moment < t.moment) :
    s.current < t.current := by
  have order := Prod.Lex.toLex_lt_toLex.1 later
  dsimp only at order
  have earlier : s.lastMilli < Word.limit 42 := by
    omega
  have fits := hs.node
  have fits' := hs.sequence
  simp only [nodeBits, sequenceBits, Word.limit, Nat.pow_eq] at fits fits'
  rw [UInt64.lt_iff_toNat_lt, hs.toNat_current earlier, ht.toNat_current early, node]
  omega

/-- An id consists of a millisecond, the number of a node in bits 12 to 21, and a number within the
millisecond in the bits below. -/
def HasParts (id : UInt64) (milli node number : Nat) : Prop :=
  node < Word.limit nodeBits ∧ number < Word.limit sequenceBits ∧
    id.toNat = milli <<< (nodeBits + sequenceBits) + node <<< sequenceBits + number

/-- An id has the parts that it was made of, and no others. -/
lemma IsSound.hasParts_iff (h : s.IsSound) (early : s.lastMilli < Word.limit 42)
    {milli node number : Nat} :
    HasParts s.current milli node number ↔
      milli = s.lastMilli ∧ node = s.node ∧ number = s.sequence := by
  have fits := h.node
  have fits' := h.sequence
  simp only [HasParts, h.toNat_current early, Nat.shiftLeft_eq, nodeBits, sequenceBits, Word.limit,
    Nat.pow_eq] at fits fits' ⊢
  constructor
  · rintro ⟨small, small', same⟩
    omega
  · rintro ⟨rfl, rfl, rfl⟩
    omega

/-! ### Any number of draws -/

/-- The source after each of some draws, given what the clock reads at each of them. -/
def states (s : Snowflake) : List Int → List Snowflake
  | [] => []
  | now :: clock => (s.draw now).2 :: (s.draw now).2.states clock

/-- The ids of some draws. -/
def ids (s : Snowflake) : List Int → List UInt64
  | [] => []
  | now :: clock => (s.draw now).1 :: (s.draw now).2.ids clock

lemma states_cons (s : Snowflake) (now : Int) (clock : List Int) :
    s.states (now :: clock) = s.advance now :: (s.advance now).states clock := by
  rw [states, draw]

/-- Each draw gives the id of the source after it. -/
lemma ids_eq_map (s : Snowflake) (clock : List Int) :
    s.ids clock = (s.states clock).map current := by
  induction clock generalizing s with
  | nil => rfl
  | cons now clock ih => rw [ids, states, List.map_cons, ih, draw]

/-- After any draws a source is sound, has its node and is beyond where it was. -/
lemma IsSound.of_mem_states (h : s.IsSound) (ht : t ∈ s.states clock) :
    t.IsSound ∧ t.node = s.node ∧ s.moment < t.moment := by
  induction clock generalizing s with
  | nil => cases ht
  | cons now clock ih =>
    have step := h.advances now
    rw [states_cons] at ht
    generalize s.advance now = s' at step ht
    rcases List.mem_cons.1 ht with rfl | ht
    · exact ⟨step.isSound h, step.node, step.moment_lt⟩
    · obtain ⟨sound, node, later⟩ := ih (step.isSound h) ht
      exact ⟨sound, node.trans step.node, step.moment_lt.trans later⟩

/-- Each draw gets beyond all draws before it. -/
lemma IsSound.pairwise_states (h : s.IsSound) (clock : List Int) :
    (s.states clock).Pairwise fun t u => t.moment < u.moment := by
  induction clock generalizing s with
  | nil => exact .nil
  | cons now clock ih =>
    have sound := (h.advances now).isSound h
    rw [states_cons]
    exact .cons (fun u hu => (sound.of_mem_states hu).2.2) (ih sound)

/-- The ids of a source increase, as long as its milliseconds have 42 bits. -/
lemma IsSound.pairwise_ids (h : s.IsSound)
    (early : ∀ t ∈ s.states clock, t.lastMilli < Word.limit 42) :
    (s.ids clock).Pairwise (· < ·) := by
  rw [ids_eq_map]
  refine List.pairwise_map.2 ((h.pairwise_states clock).imp_of_mem fun ht hu later => ?_)
  obtain ⟨sound, node, -⟩ := h.of_mem_states ht
  obtain ⟨sound', node', -⟩ := h.of_mem_states hu
  exact sound.current_lt sound' (node'.trans node.symm) (early _ hu) later

/-- **Ids never repeat**, whatever the clock reads at the draws.  As long as the milliseconds of a
source have 42 bits, its ids increase, and each of them has three parts, which are those of the
source at its draw.  Two sources of different nodes never have an id in common. -/
theorem ids_never_repeat (node : Nat) (s : Snowflake) (accepted : ofNode node = .ok s)
    (clock : List Int) :
    ((∀ t ∈ s.states clock, t.lastMilli < Word.limit 42) →
      (s.ids clock).Pairwise (· < ·) ∧
      List.Forall₂ (fun id t => ∀ milli n number, HasParts id milli n number ↔
        milli = t.lastMilli ∧ n = node ∧ number = t.sequence) (s.ids clock) (s.states clock)) ∧
    ∀ (node' : Nat) (s' : Snowflake) (clock' : List Int), ofNode node' = .ok s' → node' ≠ node →
      ∀ id ∈ s.ids clock, id ∉ s'.ids clock' := by
  obtain ⟨sound, rfl⟩ := isSound_of_ofNode accepted
  refine ⟨fun early => ⟨sound.pairwise_ids early, ?_⟩, fun node' s' clock' accepted' other => ?_⟩
  · rw [ids_eq_map, List.forall₂_map_left_iff, List.forall₂_same]
    intro t ht milli n number
    obtain ⟨sound', same, -⟩ := sound.of_mem_states ht
    rw [sound'.hasParts_iff (early t ht), same]
  · obtain ⟨sound', rfl⟩ := isSound_of_ofNode accepted'
    intro id drawn drawn'
    rw [ids_eq_map] at drawn drawn'
    obtain ⟨t, ht, rfl⟩ := List.mem_map.1 drawn
    obtain ⟨u, hu, same⟩ := List.mem_map.1 drawn'
    -- both ids show the node from which they come
    obtain ⟨st, nt, -⟩ := sound.of_mem_states ht
    obtain ⟨su, nu, -⟩ := sound'.of_mem_states hu
    exact other (by rw [← nu, ← nt, ← st.node_of_current, ← su.node_of_current, same])

/-- A clock that stands still, runs backwards and goes back before the epoch, on two nodes. -/
theorem ids_of_stuck_clock :
    ofNode 7 = .ok { node := 7 } ∧ ofNode 8 = .ok { node := 8 } ∧
    ids { node := 7 } [1600000000005, 1600000000005, 1600000000002, -1] =
      [21000192, 21000193, 21000194, 21000195] ∧
    ([21000192, 21000193, 21000194, 21000195] : List UInt64).Pairwise (· < ·) ∧
    HasParts 21000195 5 7 3 ∧ 21000192 ∉ ids { node := 8 } [1600000000005] := by
  have drawn : ids { node := 7 } [1600000000005, 1600000000005, 1600000000002, -1] =
      [21000192, 21000193, 21000194, 21000195] := by decide
  obtain ⟨increasing, apart⟩ := ids_never_repeat 7 { node := 7 } rfl
    [1600000000005, 1600000000005, 1600000000002, -1]
  obtain ⟨pairwise, parts⟩ := increasing (by decide)
  have others := apart 8 { node := 8 } [1600000000005] rfl (by decide)
  rw [drawn] at pairwise parts others
  have last := (List.forall₂_iff_get.1 parts).2 3 (by decide) (by decide) 5 7 3
  exact ⟨rfl, rfl, drawn, pairwise, last.2 (by decide), others _ (by decide)⟩

/-- After 4096 ids in one millisecond the next one is borrowed. -/
example : advance { node := 7, lastMilli := 5, sequence := 4095 } 1600000000005 =
    { node := 7, lastMilli := 6, sequence := 0 } := by
  decide

end Snowflake

end SchemaLedger
