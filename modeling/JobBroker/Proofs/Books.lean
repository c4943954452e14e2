import JobBroker.Proofs.Sound

/-!
# The ledger of a state

A state with what a turn has in its hands makes a ledger. The small operations on states, those
that take one thing out of a table or put one in, are told here as equations between ledgers.
-/

namespace JobBroker.Manager

open Holding Table

def bucketHoldings (partition : PartitionId) (bucket : Bucket) : Multiset Holding :=
  (bucket.processors.map (registered partition) : List Holding)

def queueHoldings (key : UnitKey) (queue : List Waiting) : Multiset Holding :=
  (queue.map (waiting key) : List Holding)

namespace State

def holdings (s : State) : Multiset Holding :=
  s.buckets.contents bucketHoldings + s.pending.contents queueHoldings +
    s.index.contents (fun key entry => {indexed key entry}) +
    s.continuations.contents fun _ continuation => {ongoing continuation}

/-- The ledger of a state, when a turn has more in its hands. -/
def ledger (s : State) (hand : Multiset Holding) : Ledger where
  holdings := s.holdings + hand
  references id := (s.references.get? id).getD 0
  retiring key := (s.retiring.get? key).getD 0
  awaited key := s.pending.contains key
  nextKey := s.nextKey
  nextProcessor := s.nextProcessor

variable {s : State} {hand : Multiset Holding}

theorem ledger_add (s : State) (things hand : Multiset Holding) :
    s.ledger (things + hand) = (s.ledger hand).plus things := by
  ext1 <;> simp only [ledger, Ledger.plus]
  abel

/-- All that a turn has in its hands comes on top of what the tables hold. -/
theorem ledger_hand (s : State) (hand : Multiset Holding) :
    s.ledger hand = (s.ledger 0).plus hand := by rw [← ledger_add, add_zero]

/-! ### What is in the ledger -/

theorem registered_mem_ledger {partition : PartitionId} {processor : Processor} :
    registered partition processor ∈ (s.ledger hand).holdings ↔
      (∃ bucket, s.buckets.get? partition = some bucket ∧ processor ∈ bucket.processors) ∨
        registered partition processor ∈ hand := by
  simp only [ledger, holdings, Multiset.mem_add, mem_contents, bucketHoldings, queueHoldings,
    Multiset.mem_coe, List.mem_map, Multiset.mem_singleton, registered.injEq, reduceCtorEq,
    and_false, exists_false, or_false]
  grind

theorem waiting_mem_ledger {key : UnitKey} {w : Waiting} :
    waiting key w ∈ (s.ledger hand).holdings ↔
      (∃ queue, s.pending.get? key = some queue ∧ w ∈ queue) ∨ waiting key w ∈ hand := by
  simp only [ledger, holdings, Multiset.mem_add, mem_contents, bucketHoldings, queueHoldings,
    Multiset.mem_coe, List.mem_map, Multiset.mem_singleton, waiting.injEq, reduceCtorEq,
    and_false, exists_false, or_false, false_or]
  grind

theorem indexed_mem_ledger {key : SubscriberKey} {entry : IndexEntry} :
    indexed key entry ∈ (s.ledger hand).holdings ↔
      s.index.get? key = some entry ∨ indexed key entry ∈ hand := by
  simp only [ledger, holdings, Multiset.mem_add, mem_contents, bucketHoldings, queueHoldings,
    Multiset.mem_coe, List.mem_map, Multiset.mem_singleton, indexed.injEq, reduceCtorEq,
    and_false, exists_false, or_false, false_or]
  grind

theorem ongoing_mem_ledger {continuation : Continuation} :
    ongoing continuation ∈ (s.ledger hand).holdings ↔
      (∃ operation, s.continuations.get? operation = some continuation) ∨
        ongoing continuation ∈ hand := by
  simp only [ledger, holdings, Multiset.mem_add, mem_contents, bucketHoldings, queueHoldings,
    Multiset.mem_coe, List.mem_map, Multiset.mem_singleton, ongoing.injEq, reduceCtorEq,
    and_false, exists_false, or_false, false_or]
  grind

theorem mem_processors {processor : Processor} :
    processor ∈ s.processors ↔
      ∃ partition bucket, s.buckets.get? partition = some bucket ∧
        processor ∈ bucket.processors := by
  rw [processors, List.mem_flatMap]
  constructor
  · rintro ⟨bucket, hbucket, hmember⟩
    obtain ⟨⟨partition, value⟩, hentry, rfl⟩ := List.mem_map.1 hbucket
    exact ⟨partition, value, get?_eq_some_iff.2 hentry, hmember⟩
  · rintro ⟨partition, bucket, hget, hmember⟩
    exact ⟨bucket, List.mem_map.2 ⟨_, get?_eq_some_iff.1 hget, rfl⟩, hmember⟩

/-- A reply that is owed hides nothing that is registered. -/
theorem registered_mem_owed {asked : Option Ticket} {partition : PartitionId}
    {processor : Processor} :
    registered partition processor ∈ (s.ledger (owed asked)).holdings ↔
      ∃ bucket, s.buckets.get? partition = some bucket ∧ processor ∈ bucket.processors := by
  have hnot : registered partition processor ∉ owed asked := by cases asked <;> simp [owed]
  rw [registered_mem_ledger, or_iff_left hnot]

theorem partition_of_registered {k : Knowledge} (proper : (s.ledger 0).Proper k)
    {partition : PartitionId} {bucket : Bucket} {processor : Processor}
    (found : s.buckets.get? partition = some bucket) (member : processor ∈ bucket.processors) :
    processor.partition = partition := by
  have hheld : registered partition processor ∈ (s.ledger 0).holdings :=
    registered_mem_ledger.2 (.inl ⟨bucket, found, member⟩)
  exact (proper _ hheld).1

/-! ### Calls under way -/

theorem ledger_issue (fresh : ∀ operation continuation,
      s.continuations.get? operation = some continuation → operation.val < s.nextOperation)
    (continuation : Continuation) (call : Call) (hand : Multiset Holding) :
    (s.issue continuation call).state.ledger hand =
      (s.ledger hand).plus {ongoing continuation} := by
  have hnew : s.continuations.get? ⟨s.nextOperation⟩ = none := by
    by_contra hsome
    obtain ⟨old, hold⟩ := Option.ne_none_iff_exists'.1 hsome
    exact absurd (fresh _ _ hold) (Nat.lt_irrefl _)
  ext1 <;> simp only [issue, ledger, Ledger.plus, holdings]
  rw [contents_insert_new _ hnew]
  abel

theorem ledger_erase_continuation {operation : OperationId} {continuation : Continuation}
    (h : s.continuations.get? operation = some continuation) (hand : Multiset Holding) :
    { s with continuations := s.continuations.erase operation }.ledger
      ({ongoing continuation} + hand) = s.ledger hand := by
  ext1 <;> simp only [ledger, holdings]
  rw [← contents_erase (fun _ c => {ongoing c}) h]
  abel

/-! ### References and the index -/

theorem ledger_acquire (s : State) (id : ProcessorId) (hand : Multiset Holding) :
    (s.acquire id).ledger hand = (s.ledger hand).acquire id := by
  ext1 <;> simp only [acquire, ledger, Ledger.acquire, holdings]
  funext i
  rw [get?_insert]
  split <;> simp_all

theorem ledger_dropReference (s : State) (id : ProcessorId) (hand : Multiset Holding) :
    (s.dropReference id).ledger hand = (s.ledger hand).release id := by
  unfold dropReference
  split
  next hnone =>
    ext1 <;> simp only [ledger, Ledger.release]
    funext i
    split <;> simp_all
  next count hcount =>
    split
    · ext1 <;> simp only [ledger, Ledger.release, holdings]
      funext i
      rw [get?_erase]
      split <;> simp_all
    · ext1 <;> simp only [ledger, Ledger.release, holdings]
      funext i
      rw [get?_insert]
      split <;> simp_all

theorem ledger_insert_index {key : SubscriberKey} (h : s.index.get? key = none)
    (entry : IndexEntry) (hand : Multiset Holding) :
    { s with index := s.index.insert key entry }.ledger hand =
      (s.ledger hand).plus {indexed key entry} := by
  ext1 <;> simp only [ledger, Ledger.plus, holdings]
  rw [contents_insert_new _ h]
  abel

theorem ledger_erase_index {key : SubscriberKey} {entry : IndexEntry}
    (h : s.index.get? key = some entry) (hand : Multiset Holding) :
    ({ s with index := s.index.erase key }.ledger hand).plus {indexed key entry} =
      s.ledger hand := by
  ext1 <;> simp only [ledger, Ledger.plus, holdings]
  rw [← contents_erase (fun k e => {indexed k e}) h]
  abel

/-! ### Waiting subscriptions -/

theorem contains_insert {κ α : Type} [DecidableEq κ] (table : Table κ α) (key other : κ)
    (value : α) :
    (table.insert key value).contains other =
      if other = key then true else table.contains other := by
  simp only [Table.contains, get?_insert]
  split <;> rfl

theorem contains_erase {κ α : Type} [DecidableEq κ] (table : Table κ α) (key other : κ) :
    (table.erase key).contains other = if other = key then false else table.contains other := by
  simp only [Table.contains, get?_erase]
  split <;> rfl

theorem ledger_insert_pending {key : UnitKey} (h : s.pending.get? key = none)
    (queue : List Waiting) (hand : Multiset Holding) :
    { s with pending := s.pending.insert key queue }.ledger hand =
      ((s.ledger hand).await key).plus (queueHoldings key queue) := by
  ext1 <;> simp only [ledger, Ledger.plus, Ledger.await, holdings]
  · rw [contents_insert_new _ h]
    abel
  · funext other
    exact contains_insert _ _ _ _

theorem ledger_append_pending {key : UnitKey} {queue : List Waiting}
    (h : s.pending.get? key = some queue) (w : Waiting) (hand : Multiset Holding) :
    { s with pending := s.pending.insert key (queue ++ [w]) }.ledger hand =
      (s.ledger hand).plus {waiting key w} := by
  ext1 <;> simp only [ledger, Ledger.plus, holdings]
  · have hinsert := contents_insert_old queueHoldings h (queue ++ [w])
    have hqueue : queueHoldings key (queue ++ [w]) = queueHoldings key queue + {waiting key w} := by
      simp only [queueHoldings, List.map_append, List.map_cons, List.map_nil,
        ← Multiset.coe_add, Multiset.coe_singleton]
    have hadd : (s.pending.insert key (queue ++ [w])).contents queueHoldings =
        s.pending.contents queueHoldings + {waiting key w} := by
      rw [hqueue, add_comm (queueHoldings key queue), ← add_assoc] at hinsert
      exact add_right_cancel hinsert
    rw [hadd]
    abel
  · funext other
    rw [contains_insert]
    split
    · simp_all [Table.contains]
    · rfl

theorem ledger_erase_pending (s : State) (key : UnitKey) (hand : Multiset Holding) :
    { s with pending := s.pending.erase key }.ledger
      (queueHoldings key ((s.pending.get? key).getD []) + hand) = (s.ledger hand).forget key := by
  ext1 <;> simp only [ledger, Ledger.forget, holdings]
  · cases h : s.pending.get? key with
    | none =>
      rw [erase_of_get?_eq_none h]
      simp [queueHoldings]
    | some queue =>
      rw [← contents_erase queueHoldings h]
      simp only [Option.getD_some]
      abel
  · funext other
    exact contains_erase _ _ _

/-! ### Buckets -/

theorem ledger_insert_bucket {partition : PartitionId} (h : s.buckets.get? partition = none)
    (bucket : Bucket) (hand : Multiset Holding) :
    { s with buckets := s.buckets.insert partition bucket }.ledger hand =
      (s.ledger hand).plus (bucketHoldings partition bucket) := by
  ext1 <;> simp only [ledger, Ledger.plus, holdings]
  rw [contents_insert_new _ h]
  abel

theorem ledger_replace_bucket {partition : PartitionId} {bucket : Bucket}
    (h : s.buckets.get? partition = some bucket) (new : Bucket) (hand : Multiset Holding) :
    ({ s with buckets := s.buckets.insert partition new }.ledger hand).plus
        (bucketHoldings partition bucket) =
      (s.ledger hand).plus (bucketHoldings partition new) := by
  have hinsert := contents_insert_old bucketHoldings h new
  ext1 <;> simp only [ledger, Ledger.plus, holdings]
  have hleft : ∀ a b c d e : Multiset Holding,
      a + b + c + d + hand + e = (a + e) + b + c + d + hand := by
    intro a b c d e
    abel
  rw [hleft, hinsert]
  abel

theorem plus_cancel {b b' : Ledger} {things : Multiset Holding}
    (h : b.plus things = b'.plus things) : b = b' := by
  have hh := congrArg Ledger.holdings h
  have hr := congrArg Ledger.references h
  have ht := congrArg Ledger.retiring h
  have ha := congrArg Ledger.awaited h
  have hk := congrArg Ledger.nextKey h
  have hp := congrArg Ledger.nextProcessor h
  simp only [Ledger.plus] at hh hr ht ha hk hp
  exact Ledger.ext (add_right_cancel hh) hr ht ha hk hp

theorem ledger_register {partition : PartitionId} {bucket : Bucket}
    (h : s.buckets.get? partition = some bucket) (processor : Processor)
    (hand : Multiset Holding) :
    { s with buckets := s.buckets.insert partition (bucket.register processor) }.ledger hand =
      (s.ledger hand).plus {registered partition processor} := by
  have hmore : bucketHoldings partition (bucket.register processor) =
      {registered partition processor} + bucketHoldings partition bucket := by
    simp only [bucketHoldings, Bucket.register, List.map_append, List.map_cons, List.map_nil,
      ← Multiset.coe_add, Multiset.coe_singleton]
    exact add_comm _ _
  have hreplace := ledger_replace_bucket h (bucket.register processor) hand
  rw [hmore, ← Ledger.plus_plus] at hreplace
  exact plus_cancel hreplace

theorem ledger_detach {partition : PartitionId} {bucket rest : Bucket} {id : ProcessorId}
    (h : s.buckets.get? partition = some bucket) (hdetach : bucket.detach? id = some rest)
    (hand : Multiset Holding) :
    ∃ found, found.id = id ∧
      s.ledger hand = ({ s with buckets := s.buckets.insert partition rest }.ledger hand).plus
        {registered partition found} := by
  unfold Bucket.detach? at hdetach
  split at hdetach
  next hcontains =>
    obtain ⟨member, hmem, hid⟩ := Bucket.contains_iff.1 hcontains
    obtain ⟨found, front, back, -, hfound, hsplit, herase⟩ :=
      List.exists_of_eraseP (p := fun p => p.id = id) hmem (by simpa using hid)
    have hrest : rest.processors = front ++ back := by rw [← Option.some.inj hdetach, ← herase]
    have hmore : bucketHoldings partition bucket =
        {registered partition found} + bucketHoldings partition rest := by
      simp only [bucketHoldings, hsplit, hrest, List.map_append, List.map_cons,
        ← Multiset.coe_add, ← Multiset.cons_coe, ← Multiset.singleton_add]
      abel
    have hreplace := ledger_replace_bucket h rest hand
    rw [hmore, ← Ledger.plus_plus] at hreplace
    exact ⟨found, by simpa using hfound, (plus_cancel hreplace).symm⟩
  next => cases hdetach

theorem ledger_erase_bucket {partition : PartitionId} {bucket : Bucket}
    (h : s.buckets.get? partition = some bucket) (hand : Multiset Holding) :
    { s with buckets := s.buckets.erase partition }.ledger
      (bucketHoldings partition bucket + hand) = s.ledger hand := by
  ext1 <;> simp only [ledger, holdings]
  rw [← contents_erase bucketHoldings h]
  abel

/-! ### Counting in tables -/

section

variable {α : Type} [DecidableEq α] (s) (role : Holding → Option α) (a : α)

theorem count_ledger : (s.ledger 0).count role a =
    (s.buckets.contents bucketHoldings).countP (fun thing => role thing = some a) +
      (s.pending.contents queueHoldings).countP (fun thing => role thing = some a) +
      (s.index.entries.countP fun entry => role (indexed entry.1 entry.2) = some a) +
      s.continuations.entries.countP fun entry => role (ongoing entry.2) = some a := by
  simp only [Ledger.count, ledger, holdings, add_zero, Multiset.countP_add, countP_contents]

variable {s role a}

theorem countP_buckets (h : ∀ partition processor, role (registered partition processor) = none) :
    (s.buckets.contents bucketHoldings).countP (fun thing => role thing = some a) = 0 := by
  rw [Multiset.countP_eq_zero]
  intro thing hmem
  obtain ⟨partition, bucket, -, hthing⟩ := mem_contents.1 hmem
  obtain ⟨processor, -, rfl⟩ := List.mem_map.1 (Multiset.mem_coe.1 hthing)
  rw [h]
  exact (Option.some_ne_none a).symm

theorem countP_pending (h : ∀ unit w, role (waiting unit w) = none) :
    (s.pending.contents queueHoldings).countP (fun thing => role thing = some a) = 0 := by
  rw [Multiset.countP_eq_zero]
  intro thing hmem
  obtain ⟨unit, queue, -, hthing⟩ := mem_contents.1 hmem
  obtain ⟨w, -, rfl⟩ := List.mem_map.1 (Multiset.mem_coe.1 hthing)
  rw [h]
  exact (Option.some_ne_none a).symm

theorem count_owed_none (h : ∀ reply, role (owing reply) = none) (asked : Option Ticket) :
    (s.ledger (owed asked)).count role a = (s.ledger 0).count role a := by
  cases asked with
  | none => rfl
  | some reply =>
    rw [owed, ledger_hand]
    exact Ledger.count_plus_none (h reply) a

theorem count_calls {test : Continuation → Bool}
    (registered : ∀ partition processor, role (registered partition processor) = none)
    (waiting : ∀ unit w, role (waiting unit w) = none)
    (indexed : ∀ key entry, role (indexed key entry) = none)
    (ongoing : ∀ continuation, role (ongoing continuation) = some a ↔ test continuation = true) :
    (s.ledger 0).count role a = (s.continuations.keysWhere test).length := by
  rw [count_ledger, countP_buckets registered, countP_pending waiting, length_keysWhere]
  simp only [indexed, ongoing, (Option.some_ne_none a).symm, decide_false, List.countP_false,
    Function.const_apply, Nat.zero_add, Bool.decide_eq_true]

end

end State

end JobBroker.Manager
