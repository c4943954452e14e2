import JobBroker.Proofs.Discards
import JobBroker.Proofs.Isolation
import JobBroker.Proofs.Noted

/-!
# Retiring a processor

A processor that is retired leaves its bucket, and the others there stay in their order; its unit
is asked to stop. That is done to a processor that is registered and has no references, and where it
is not done the buckets are as before.
-/

namespace JobBroker

/-- Where an element passes a test once at most, erasing it is filtering it out. -/
theorem eraseP_eq_filter {α : Type} {test : α → Bool} {items : List α}
    (once : items.countP test ≤ 1) : items.eraseP test = items.filter fun item => !test item := by
  induction items with
  | nil => rfl
  | cons item items ih =>
    rw [List.countP_cons] at once
    cases htest : test item with
    | true =>
      rw [htest, if_pos rfl] at once
      have hnone : ∀ other ∈ items, ¬test other = true := List.countP_eq_zero.1 (by omega)
      rw [List.eraseP_cons_of_pos htest, List.filter_cons_of_neg (by simp [htest])]
      exact (List.filter_eq_self.2 fun other hmem => by simpa using hnone other hmem).symm
    | false =>
      rw [htest, if_neg Bool.false_ne_true] at once
      rw [List.eraseP_cons_of_neg (by simp [htest]), List.filter_cons_of_pos (by simp [htest]),
        ih once]

namespace Manager

/-- A turn that tells results and changes neither what is registered nor what is active, and for
which nobody is called. -/
structure Turn.Reports (s : State) (turn : Turn) (settled : List (Ticket × Result)) : Prop where
  calls : callsOf turn.effects = []
  settled : settledOf turn.effects = settled
  buckets : turn.state.buckets = s.buckets
  index : turn.state.index = s.index

/-- A turn that takes a processor out of its bucket and asks for the teardown of its unit. -/
structure Turn.Retires (s : State) (turn : Turn) (processor : Processor) : Prop where
  calls : callsOf turn.effects = [(⟨s.nextOperation⟩, .teardown processor)]
  bucket : turn.state.buckets.get? processor.partition =
    (s.buckets.get? processor.partition).map fun bucket =>
      { bucket with processors := bucket.processors.filter fun other => other ≠ processor }
  others : ∀ partition, partition ≠ processor.partition →
    turn.state.buckets.get? partition = s.buckets.get? partition
  index : turn.state.index = s.index

theorem Turn.Retires.since {s s' : State} {turn : Turn} {processor : Processor}
    (h : turn.Retires s' processor) (buckets : s'.buckets = s.buckets)
    (index : s'.index = s.index) (next : s'.nextOperation = s.nextOperation) :
    turn.Retires s processor := by
  obtain ⟨hcalls, hbucket, hothers, hindex⟩ := h
  rw [next] at hcalls
  rw [buckets] at hbucket hothers
  exact ⟨hcalls, hbucket, hothers, hindex.trans index⟩

namespace World

variable {w : World} {creditCapacity : Nat} {processor : Processor}

/-- A processor of which something is noted was built. -/
theorem built_of_noted (h : Reachable creditCapacity w) {operation : OperationId}
    {continuation : Continuation}
    (noted : w.state.continuations.get? operation = some continuation)
    (called : continuation.processor? = some processor) : processor ∈ w.built := by
  have hheld : Holding.ongoing continuation ∈ (w.state.ledger 0).holdings :=
    State.ongoing_mem_ledger.2 (.inl ⟨operation, noted⟩)
  exact Holding.built_of_proper ((consistent_of_reachable h).sound.proper _ hheld) called

/-- A processor that was built is found in its bucket under its id, and nothing else is. -/
theorem bucket_of_registered (h : Reachable creditCapacity w) (built : processor ∈ w.built)
    (registered : w.state.isRegistered processor = true) :
    ∃ bucket, w.state.buckets.get? processor.partition = some bucket ∧
      bucket.detach? processor.id = some { bucket with
        processors := bucket.processors.filter fun other => other ≠ processor } := by
  unfold State.isRegistered at registered
  cases hbucket : w.state.buckets.get? processor.partition with
  | none =>
    rw [hbucket] at registered
    cases registered
  | some bucket =>
    rw [hbucket] at registered
    refine ⟨bucket, rfl, ?_⟩
    have hsame : ∀ member ∈ bucket.processors, member.id = processor.id → member = processor := by
      intro member hmember hid
      have hheld : (processor.partition, member) ∈ w.state.registrations processor.id :=
        State.mem_registrations.2 ⟨⟨bucket, hbucket, hmember⟩, hid⟩
      exact congrArg Prod.snd (eq_of_registrations h built hheld)
    have honce : bucket.processors.countP (fun member => member.id = processor.id) ≤ 1 := by
      have hexclusive := units_le_one h processor.key
      have hserving : w.state.serving processor.key =
          bucket.processors.filter fun member => member.jobType = processor.jobType := by
        have hhere : w.state.buckets.get? processor.key.partition = some bucket := hbucket
        rw [State.serving, hhere]
        rfl
      rw [hserving, ← List.countP_eq_length_filter] at hexclusive
      have hle := List.countP_mono_left (p := fun member => decide (member.id = processor.id))
        (q := fun member => decide (member.jobType = processor.jobType)) (l := bucket.processors)
        fun member hmember hid => by
          rw [hsame member hmember (of_decide_eq_true hid)]
          exact decide_eq_true rfl
      omega
    have hfilter : bucket.processors.filter (fun other => !decide (other.id = processor.id)) =
        bucket.processors.filter fun other => other ≠ processor := by
      refine List.filter_congr fun other hother => ?_
      by_cases hid : other.id = processor.id
      · simp [hsame other hother hid]
      · have hne : other ≠ processor := fun heq => hid (congrArg Processor.id heq)
        simp [hid, hne]
    rw [Bucket.detach?, if_pos registered, eraseP_eq_filter honce, hfilter]

end World

namespace State

variable {s : State} {processor : Processor} {bucket : Bucket}

theorem retires_retire (found : s.buckets.get? processor.partition = some bucket)
    (detached : bucket.detach? processor.id = some { bucket with
      processors := bucket.processors.filter fun other => other ≠ processor })
    (reply : Option Ticket) :
    (s.retire processor reply).Retires s processor ∧
      settledOf (s.retire processor reply).effects = [] ∧
      (s.retire processor reply).state.continuations.get? ⟨s.nextOperation⟩ =
        some (.teardown processor reply) := by
  have hretire : s.retire processor reply = State.teardown { s with
      buckets := s.buckets.insert processor.partition { bucket with
        processors := bucket.processors.filter fun other => other ≠ processor } }
      processor reply := by
    rw [retire, found, Option.bind_some, detached]
  rw [hretire]
  refine ⟨⟨rfl, ?_, ?_, rfl⟩, rfl, Table.get?_insert_self _ _ _⟩
  · rw [found]
    exact Table.get?_insert_self _ _ _
  · intro partition other
    exact (Table.get?_insert _ _ _ _).trans (if_neg other)

end State

end Manager

end JobBroker
