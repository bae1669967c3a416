import SchemaLedger.Proofs.Concurrency.Contributions

/-!
The compatibility gate.

* `Aggregate.Judged`: each version but the first was accepted as the follower of the one before
  it, under the policy of the schema.
* `World.judged_after`: all that jobs ever store side by side is judged.  What the gate sees is
  what a job has read, which may be outdated; but a write that succeeds shows that its ledger
  was still the one in the store.
* `World.gate_not_bypassed`: the policy is the one that was given at registration.
-/

namespace SchemaLedger

/-- Each version but the first was accepted by the gate, in view of the versions before. -/
def Aggregate.Judged (a : Aggregate) (history : List Event) : Prop :=
  ∀ v, 1 ≤ v → v < a.lastVersion → ∃ e ∈ history, ∃ candidate current : Aggregate,
    e.talk = ⟨.judge candidate current a.info.policy, Except.ok ()⟩ ∧
      current.ledger.records = a.ledger.records.take v ∧
      candidate.ledger.records = a.ledger.records.take (v + 1)

namespace Aggregate.Judged

variable {a s : Aggregate} {history history' : List Event}

/-- What was accepted stays accepted. -/
lemma mono (h : a.Judged history) (longer : history ⊆ history') : a.Judged history' := by
  intro v first last
  obtain ⟨e, he, judged⟩ := h v first last
  exact ⟨e, longer he, judged⟩

/-- A first version needs no judgement. -/
lemma of_lastVersion (h : a.lastVersion = 1) : a.Judged history := by
  intro v first last
  omega

/-- The judgement is about metadata and ledger alone. -/
lemma of_eq (h : s.Judged history) (info : s.info = a.info) (ledger : s.ledger = a.ledger) :
    a.Judged history := by
  intro v first last
  rw [lastVersion, ← ledger] at last
  rw [← info, ← ledger]
  exact h v first last

/-- One more version that the gate has accepted. -/
lemma concat (h : s.Judged history) (info : s.info = a.info) {record : Record}
    (grown : a.ledger.records = s.ledger.records ++ [record]) {e : Event} (he : e ∈ history)
    {candidate current : Aggregate}
    (accepted : e.talk = ⟨.judge candidate current a.info.policy, Except.ok ()⟩)
    (before : current.ledger = s.ledger) (after : candidate.ledger = a.ledger) :
    a.Judged history := by
  intro v first last
  simp only [lastVersion, Ledger.lastVersion, grown, List.length_append, List.length_singleton]
    at last
  rcases Nat.lt_or_ge v s.ledger.records.length with earlier | latest
  · obtain ⟨e, he, candidate, current, accepted, before, after⟩ := h v first earlier
    refine ⟨e, he, candidate, current, info ▸ accepted, ?_, ?_⟩
    · rw [grown, List.take_append_of_le_length (by omega), before]
    · rw [grown, List.take_append_of_le_length (by omega), after]
  · obtain rfl : v = s.ledger.records.length := by omega
    refine ⟨e, he, candidate, current, accepted, ?_, ?_⟩
    · rw [before, grown, List.take_left']
      rfl
    · rw [after, List.take_of_length_le (by simp [grown])]

end Aggregate.Judged

namespace World

/-- One move keeps this up: what is stored is what was judged. -/
lemma judged_step {w w' : World MemoryStore.backend}
    (h : ∀ a ∈ written w.history, a.Judged w.history) (traced : w.Traced)
    (outcome : w.Outcome w') : ∀ a ∈ written w'.history, a.Judged w'.history := by
  intro b hb
  cases outcome with
  | silent history _ =>
    rw [history] at hb ⊢
    exact h b hb
  | @quiet e history _ effect _ =>
    rw [history] at hb ⊢
    rw [written_append_of_none (by simp [Event.written?, effect])] at hb
    exact (h b hb).mono (List.subset_append_left _ _)
  | @wrote e call history effect may performs =>
    rw [history] at hb ⊢
    rw [written_concat] at hb
    rcases List.mem_append.1 hb with hb | hb
    · exact (h b hb).mono (List.subset_append_left _ _)
    · generalize w'.tables = tables at performs
      cases performs with
      | @register name a free unbound =>
        obtain rfl : b = a := by
          simpa [Event.written?, effect, StoreCall.payload?] using hb
        obtain ⟨request, -, -, texts, -⟩ := contributes_of_register effect may
        refine .of_lastVersion ?_
        simpa [Aggregate.lastVersion, Ledger.lastVersion] using congrArg List.length texts
      | @replace name a s stored =>
        obtain rfl : b = a := by
          simpa [Event.written?, effect, StoreCall.payload?] using hb
        have old := h s (mem_lineage.1 (traced.mem_lineage_of_stored stored)).1
        have info := (traced.precedes_of_mayWrite stored may).1.info
        obtain ⟨current, cached, read, same, cases⟩ := may.replace_cases
        -- what the job has read is what is stored, but for the artifact
        have bare := traced.bare_eq_of_revision stored (traced.written_of_transcript read) same
        have ledger := Aggregate.ledger_eq_of_bare bare
        suffices judged : b.Judged w.history from judged.mono (List.subset_append_left _ _)
        rcases cases with ⟨r, actor, request, candidate, record, -, judged, after, grown, -⟩ |
          ⟨r, actor, -, still⟩
        · obtain ⟨e', he', -, accepted⟩ := mem_talksOf.1 judged
          refine old.concat info (ledger ▸ grown) he' ?_ ledger after
          rw [accepted, Aggregate.info_eq_of_bare bare, info]
        · exact old.of_eq info (by rw [still, ledger])
      | remove stored => simp [Event.written?, effect, StoreCall.payload?] at hb

/-- **All that was ever stored is judged**, after any moves. -/
theorem judged_after (moves : List (Move MemoryStore.backend)) :
    ∀ a ∈ written (start.after moves).history, a.Judged (start.after moves).history := by
  induction moves using List.reverseRecOn with
  | nil => exact fun a ha => nomatch ha
  | append_singleton moves m ih => exact judged_step ih (traced_after _) (outcome_after _ m)

variable {moves : List (Move MemoryStore.backend)}

/-- The policy of a stored schema is the one of its registration. -/
lemma policy_of_registration {key : String} {a : Aggregate} {caller : Nat}
    {request : Registration} (stored : (start.after moves).stored? key = some a)
    (member : (caller, request) ∈ registrationsOf (start.after moves).history a.info.uniqueId) :
    a.info.policy = request.policy := by
  obtain ⟨e, he, registration⟩ := List.mem_filterMap.1 member
  obtain ⟨-, name, b, effect, same⟩ := effect?_of_registration? registration
  obtain ⟨before, later, split⟩ := List.append_of_mem he
  obtain ⟨_, _, _, rfl, rfl, -, may, -⟩ := moment_of_write split effect
  obtain ⟨request', registration', -, -, policy⟩ := contributes_of_register effect may
  rw [registration', if_pos same] at registration
  cases registration
  rw [← policy]
  have written : b ∈ written (start.after _).history :=
    List.mem_filterMap.2 ⟨e, he, by simp [Event.written?, effect, StoreCall.payload?]⟩
  rw [((traced_after _).precedes_stored stored written same).info]

/-- **The gate cannot be bypassed by a race.** -/
theorem gate_not_bypassed (moves : List (Move MemoryStore.backend)) (key : String) (a : Aggregate)
    (stored : (start.after moves).stored? key = some a) :
    ∃ caller request,
      registrationsOf (start.after moves).history a.info.uniqueId = [(caller, request)] ∧
      ∀ v, 1 ≤ v → v < a.lastVersion →
        ∃ e ∈ (start.after moves).history, ∃ candidate current : Aggregate,
          e.talk = ⟨.judge candidate current request.policy, Except.ok ()⟩ ∧
          current.ledger.records = a.ledger.records.take v ∧
          candidate.ledger.records = a.ledger.records.take (v + 1) := by
  obtain ⟨one, -⟩ := (told_after moves).texts _ a ((traced_after moves).stored key a stored).2
  obtain ⟨⟨caller, request⟩, single⟩ := List.length_eq_one_iff.1 one
  have policy : a.info.policy = request.policy :=
    policy_of_registration stored (by rw [single]; exact List.mem_singleton_self _)
  refine ⟨caller, request, single, ?_⟩
  rw [← policy]
  exact judged_after moves a
    (mem_lineage.1 ((traced_after moves).mem_lineage_of_stored stored)).1

open Rehearsal in
/-- After a change the gate has seen both versions. -/
theorem gate_of_changed :
    (start.after (registering ++ alone 1 (.update orders change) 6)).stored? orders.fullName =
      some changed ∧ ∃ e ∈ (start.after (registering ++ alone 1 (.update orders change) 6)).history,
        ∃ candidate current : Aggregate,
          e.talk = ⟨.judge candidate current .backward, Except.ok ()⟩ ∧
          current.ledger.records = registered.ledger.records ∧
          candidate.ledger.records = changed.ledger.records := by
  obtain ⟨caller, request, single, judged⟩ := gate_not_bypassed
    (registering ++ alone 1 (.update orders change) 6) orders.fullName changed rfl
  obtain rfl : registration = request :=
    congrArg Prod.snd (List.head_eq_of_cons_eq (show [(0, registration)] = _ from single))
  exact ⟨rfl, judged 1 (Nat.le_refl 1) (by decide)⟩

end World

end SchemaLedger
