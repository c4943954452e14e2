import JobBroker.Proofs.CreditRest
import JobBroker.Proofs.Units

/-!
# Snapshots

What a manager shows of itself does not depend on the order in which its tables happen to be, and
it is the state that the history has led to: every list is in strict order, a unit has one processor
at most, and a subscription is listed from when its future was told the key until it is ended.
-/

namespace JobBroker

/-! ### Sorted lists -/

section

variable {α : Type} {le : α → α → Bool}
  (trans : ∀ a b c, le a b = true → le b c = true → le a c = true)
  (total : ∀ a b, (le a b || le b a) = true) {items items' : List α}
include trans total

/-- Sorting brings lists of the same elements into the same order, if no two of them tie. -/
theorem mergeSort_eq_of_perm (same : items.Perm items')
    (untied : ∀ a ∈ items, ∀ b ∈ items, le a b = true → le b a = true → a = b) :
    items.mergeSort le = items'.mergeSort le := by
  have hperm := (List.mergeSort_perm items le).trans
    (same.trans (List.mergeSort_perm items' le).symm)
  refine hperm.eq_of_pairwise ?_ (List.pairwise_mergeSort trans total items)
    (List.pairwise_mergeSort trans total items')
  intro a b ha hb
  exact untied a (List.mem_mergeSort.1 ha) b (same.mem_iff.2 (List.mem_mergeSort.1 hb))

/-- What is sorted and has no doublets is in strict order. -/
theorem pairwise_mergeSort_of_nodup (distinct : items.Nodup) :
    (items.mergeSort le).Pairwise fun a b => le a b = true ∧ a ≠ b :=
  (List.pairwise_mergeSort trans total items).and
    ((List.mergeSort_perm items le).nodup_iff.2 distinct)

end

section

variable {α β : Type} [LE β] [DecidableLE β] [Std.IsLinearOrder β] {val : α → β}
  (injective : Function.Injective val) {items items' : List α}

theorem le_trans_val (a b c : α) (h : decide (val a ≤ val b) = true)
    (h' : decide (val b ≤ val c) = true) : decide (val a ≤ val c) = true :=
  decide_eq_true (Std.le_trans (of_decide_eq_true h) (of_decide_eq_true h'))

theorem le_total_val (a b : α) : (decide (val a ≤ val b) || decide (val b ≤ val a)) = true := by
  rw [Bool.or_eq_true, decide_eq_true_eq, decide_eq_true_eq]
  exact Std.le_total

include injective

theorem mergeSort_val_eq_of_perm (same : items.Perm items') :
    (items.mergeSort fun a b => val a ≤ val b) = items'.mergeSort fun a b => val a ≤ val b :=
  mergeSort_eq_of_perm le_trans_val le_total_val same fun _ _ _ _ h h' =>
    injective (Std.le_antisymm (of_decide_eq_true h) (of_decide_eq_true h'))

theorem ascending_mergeSort [LT β] [Std.LawfulOrderLT β] (distinct : items.Nodup) :
    (items.mergeSort fun a b => val a ≤ val b).Pairwise fun a b => val a < val b := by
  refine (pairwise_mergeSort_of_nodup le_trans_val le_total_val distinct).imp ?_
  rintro a b ⟨hle, hne⟩
  exact Std.lt_of_le_of_ne (of_decide_eq_true hle) (injective.ne hne)

end

theorem PartitionId.val_injective : Function.Injective PartitionId.val := by
  rintro ⟨a⟩ ⟨b⟩ h
  exact congrArg PartitionId.mk h

theorem SubscriberKey.val_injective : Function.Injective SubscriberKey.val := by
  rintro ⟨a⟩ ⟨b⟩ h
  exact congrArg SubscriberKey.mk h

namespace ProcessorSummary

def key (summary : ProcessorSummary) : UnitKey := ⟨summary.partition, summary.jobType⟩

/-- The order by partitions, and within a partition by the bytes of job types, of which the first
that differs decides. -/
def Before (a b : ProcessorSummary) : Prop :=
  a.partition.val < b.partition.val ∨
    a.partition = b.partition ∧ a.jobType.bytes < b.jobType.bytes

theorem le_iff {a b : ProcessorSummary} : a.le b = true ↔
    a.partition = b.partition ∧ a.jobType.bytes ≤ b.jobType.bytes ∨
      a.partition ≠ b.partition ∧ a.partition.val ≤ b.partition.val := by
  unfold le JobType.le
  split
  next heq => simp [heq]
  next hne => simp [hne]

theorem le_trans (a b c : ProcessorSummary) (h : a.le b = true) (h' : b.le c = true) :
    a.le c = true := by
  rw [le_iff] at *
  rcases h with ⟨heq, hle⟩ | ⟨hne, hle⟩ <;> rcases h' with ⟨heq', hle'⟩ | ⟨hne', hle'⟩
  · exact .inl ⟨heq.trans heq', List.le_trans hle hle'⟩
  · exact .inr ⟨heq ▸ hne', heq ▸ hle'⟩
  · exact .inr ⟨heq' ▸ hne, heq' ▸ hle⟩
  · refine .inr ⟨fun heq => hne ?_, UInt16.le_trans hle hle'⟩
    exact PartitionId.val_injective (UInt16.le_antisymm hle (heq ▸ hle'))

theorem le_total (a b : ProcessorSummary) : (a.le b || b.le a) = true := by
  rw [Bool.or_eq_true, le_iff, le_iff]
  by_cases heq : a.partition = b.partition
  · exact (List.le_total a.jobType.bytes b.jobType.bytes).imp (fun hle => .inl ⟨heq, hle⟩)
      fun hle => .inl ⟨heq.symm, hle⟩
  · exact (UInt16.le_total a.partition.val b.partition.val).imp (fun hle => .inr ⟨heq, hle⟩)
      fun hle => .inr ⟨Ne.symm heq, hle⟩

/-- Only summaries of processors for the same unit tie. -/
theorem key_eq_of_le {a b : ProcessorSummary} (h : a.le b = true) (h' : b.le a = true) :
    a.key = b.key := by
  obtain ⟨ida, partition, ⟨bytes⟩, namea⟩ := a
  obtain ⟨idb, partition', ⟨bytes'⟩, nameb⟩ := b
  rw [le_iff] at h h'
  rcases h with ⟨heq, hle⟩ | ⟨hne, hle⟩
  · obtain ⟨-, hle'⟩ := h'.resolve_right fun hother => hother.1 heq.symm
    have hbytes : bytes = bytes' := List.le_antisymm hle hle'
    rw [key, key]
    exact congr (congrArg UnitKey.mk heq) (congrArg JobType.mk hbytes)
  · obtain ⟨-, hle'⟩ := h'.resolve_left fun hother => hne hother.1.symm
    exact absurd (PartitionId.val_injective (UInt16.le_antisymm hle hle')) hne

theorem before_of_le {a b : ProcessorSummary} (h : a.le b = true) (distinct : a.key ≠ b.key) :
    a.Before b := by
  by_contra hnot
  rw [Before, not_or, not_and, List.not_lt] at hnot
  refine distinct (key_eq_of_le h (le_iff.2 ?_))
  by_cases heq : a.partition = b.partition
  · exact .inl ⟨heq.symm, hnot.2 heq⟩
  · exact .inr ⟨Ne.symm heq, UInt16.not_lt.1 hnot.1⟩

end ProcessorSummary

namespace Manager

open Table

/-! ### The order of tables -/

/-- A state whose tables hold the same entries, in whatever order. -/
structure State.Reordered (s s' : State) : Prop where
  buckets : s.buckets.entries.Perm s'.buckets.entries
  index : s.index.entries.Perm s'.index.entries
  continuations : s.continuations.entries.Perm s'.continuations.entries
  credits : s.credits = s'.credits

namespace State

variable {s s' : State}

theorem Reordered.processors (h : s.Reordered s') : s.processors.Perm s'.processors :=
  (h.buckets.map Prod.snd).flatMap_right _

/-- Sorting undoes any order of the tables, as long as no two processors are for one unit. -/
theorem Reordered.snapshot (h : s.Reordered s')
    (distinct : (s.processors.map Processor.key).Nodup) : s'.snapshot = s.snapshot := by
  have hpartitions := mergeSort_val_eq_of_perm PartitionId.val_injective (h.buckets.map Prod.fst)
  have hsubscriptions := mergeSort_val_eq_of_perm SubscriberKey.val_injective (h.index.map Prod.fst)
  have hprocessors := mergeSort_eq_of_perm ProcessorSummary.le_trans ProcessorSummary.le_total
    (h.processors.map ProcessorSummary.ofProcessor) (by
      intro a ha b hb hle hle'
      obtain ⟨processor, hmem, rfl⟩ := List.mem_map.1 ha
      obtain ⟨other, hother, rfl⟩ := List.mem_map.1 hb
      have hkey : processor.key = other.key := ProcessorSummary.key_eq_of_le hle hle'
      exact congrArg _ (List.inj_on_of_nodup_map distinct hmem hother hkey))
  have hpending : s.continuations.size = s'.continuations.size := h.continuations.length_eq
  unfold State.snapshot Table.keys
  rw [hpartitions, hsubscriptions, hprocessors, hpending, h.credits]

theorem mem_snapshot_partitions {partition : PartitionId} :
    partition ∈ s.snapshot.partitions ↔ s.buckets.contains partition = true :=
  List.mem_mergeSort.trans contains_iff.symm

theorem mem_snapshot_processors {summary : ProcessorSummary} :
    summary ∈ s.snapshot.processors ↔
      ∃ processor ∈ s.processors, ProcessorSummary.ofProcessor processor = summary :=
  List.mem_mergeSort.trans List.mem_map

theorem processorsFor_snapshot (partition : PartitionId) (jobType : JobType) :
    s.snapshot.processorsFor partition jobType =
      s.processors.countP fun processor => processor.key = ⟨partition, jobType⟩ := by
  have hsorted := List.mergeSort_perm (s.processors.map ProcessorSummary.ofProcessor)
    ProcessorSummary.le
  refine (hsorted.countP_eq _).trans (List.countP_map.trans ?_)
  refine List.countP_congr fun processor _ => ?_
  rw [Function.comp_apply, decide_eq_true_eq, decide_eq_true_eq]
  exact (UnitKey.mk.injEq ..).to_iff.symm

theorem mem_snapshot_subscriptions {key : SubscriberKey} :
    key ∈ s.snapshot.subscriptions ↔ s.index.contains key = true :=
  List.mem_mergeSort.trans contains_iff.symm

theorem mem_serving {k : Knowledge} (proper : (s.ledger 0).Proper k) {key : UnitKey}
    {processor : Processor} :
    processor ∈ s.serving key ↔ processor ∈ s.processors ∧ processor.key = key := by
  have hserving : processor ∈ s.serving key ↔ ∃ bucket,
      s.buckets.get? key.partition = some bucket ∧ processor ∈ bucket.processors ∧
        processor.jobType = key.jobType := by
    unfold State.serving
    split
    next hnone => simp [hnone]
    next bucket hbucket => simp [hbucket, List.mem_filter]
  rw [hserving, mem_processors]
  constructor
  · rintro ⟨bucket, hget, hmember, hjobType⟩
    have hpartition := partition_of_registered proper hget hmember
    exact ⟨⟨key.partition, bucket, hget, hmember⟩,
      congr (congrArg UnitKey.mk hpartition) hjobType⟩
  · rintro ⟨⟨partition, bucket, hget, hmember⟩, rfl⟩
    obtain rfl := partition_of_registered proper hget hmember
    exact ⟨bucket, hget, hmember, rfl⟩

end State

/-- Tells whether an event ends a subscription, if it is active: it is given up, its connection
closes, or its partition is removed or registered anew. -/
def Event.Ends (event : Event) (key : SubscriberKey)
    (subscription : JobSubscription) : Prop :=
  ∃ message, event = .told message ∧
    ((∃ reply, message = .unsubscribe key reply) ∨
      message = .connectionClosed subscription.connection ∨
      message.cleared? = some subscription.partition)

namespace World

variable {w w' : World} {moment : Moment} {creditCapacity : Nat}

/-! ### Processors -/

theorem count_key_le_one (h : Reachable creditCapacity w) {partition : PartitionId}
    {bucket : Bucket} (found : w.state.buckets.get? partition = some bucket) (key : UnitKey) :
    (bucket.processors.map Processor.key).count key ≤ 1 := by
  have hserving := units_le_one h key
  have hproper := (consistent_of_reachable h).sound.proper
  by_cases hpartition : key.partition = partition
  · have hle : (bucket.processors.map Processor.key).count key ≤ (w.state.serving key).length := by
      rw [State.serving, hpartition, found, List.count, List.countP_map,
        ← List.countP_eq_length_filter]
      refine List.countP_mono_left fun processor _ hkey => ?_
      have hsame : processor.key = key := by simpa using hkey
      rw [← hsame]
      exact decide_eq_true rfl
    omega
  · rw [List.count_eq_zero_of_not_mem]
    · exact Nat.zero_le 1
    · intro hmem
      obtain ⟨processor, hmember, rfl⟩ := List.mem_map.1 hmem
      exact hpartition (State.partition_of_registered hproper found hmember)

/-- No two registered processors are for one unit. -/
theorem processors_distinct (h : Reachable creditCapacity w) :
    (w.state.processors.map Processor.key).Nodup := by
  have hproper := (consistent_of_reachable h).sound.proper
  have hpartition : ∀ entry ∈ w.state.buckets.entries, ∀ key,
      key ∈ entry.2.processors.map Processor.key → key.partition = entry.1 := by
    intro entry hentry key hkey
    obtain ⟨processor, hmember, rfl⟩ := List.mem_map.1 hkey
    exact State.partition_of_registered hproper (get?_eq_some_iff.2 hentry) hmember
  rw [State.processors, List.map_flatMap, List.nodup_flatMap]
  refine ⟨?_, ?_⟩
  · intro bucket hbucket
    obtain ⟨entry, hentry, rfl⟩ := List.mem_map.1 hbucket
    exact List.nodup_iff_count_le_one.2 (count_key_le_one h (get?_eq_some_iff.2 hentry))
  · have hdistinct := List.pairwise_map.1 w.state.buckets.distinct
    refine List.pairwise_map.2 (hdistinct.imp_of_mem ?_)
    intro entry other hentry hother hne key hkey hkey'
    exact hne ((hpartition entry hentry key hkey).symm.trans (hpartition other hother key hkey'))

/-- What is counted over all partitions is registered for the unit on its own. -/
theorem countP_key_eq_length_serving (h : Reachable creditCapacity w) (key : UnitKey) :
    (w.state.processors.countP fun processor => processor.key = key) =
      (w.state.serving key).length := by
  have hcount := List.nodup_iff_count_le_one.1 (processors_distinct h) key
  have hserving := units_le_one h key
  have hmem : (∃ processor ∈ w.state.processors, decide (processor.key = key) = true) ↔
      ∃ processor, processor ∈ w.state.serving key := by
    refine exists_congr fun processor => ?_
    rw [decide_eq_true_eq, State.mem_serving (consistent_of_reachable h).sound.proper]
  rw [← List.countP_pos_iff, ← List.length_pos_iff_exists_mem] at hmem
  rw [List.count, List.countP_map] at hcount
  change (w.state.processors.countP fun processor => processor.key = key) ≤ 1 at hcount
  omega

/-! ### Subscriptions -/

/-- The future of a subscription was told its key, and nothing has ended it since. -/
structure Lasts (w : World) (key : SubscriberKey) (subscription : JobSubscription)
    (reply : Ticket) : Prop where
  assigned : (key, subscription) ∈ w.assigned
  promised : (key, reply) ∈ w.promised
  since : ∃ front moment back, w.history = front ++ moment :: back ∧
    (reply, .ok (.key key)) ∈ settledOf moment.turn.effects ∧
    ∀ later ∈ back, ¬later.event.Ends key subscription

theorem promised_of_told (h : Reachable creditCapacity w) {key : SubscriberKey} {reply : Ticket} :
    ∀ moment ∈ w.history, (reply, .ok (.key key)) ∈ settledOf moment.turn.effects →
      (key, reply) ∈ w.promised := by
  induction h with
  | start => exact List.forall_mem_nil _
  | next reached step ih =>
    obtain ⟨moment, hposted⟩ := posted_of_step (consistent_of_reachable reached) step
    intro other hmem told
    rw [hposted.history, List.mem_append, List.mem_singleton] at hmem
    rcases hmem with hold | rfl
    · exact hposted.promised_later (ih other hold told)
    · exact (hposted.active_of_told reached step told).1

/-- What is ended is not in the index any more. -/
theorem Posted.index_ends (h : Reachable creditCapacity w) (posted : w.Posted moment w')
    {key : SubscriberKey} {subscription : JobSubscription} {entry : IndexEntry}
    (found : w.state.index.get? key = some entry) (assigned : (key, subscription) ∈ w.assigned)
    (ends : moment.event.Ends key subscription) : w'.state.index.get? key = none := by
  obtain ⟨other, hother, honly, hunit, hconnection⟩ := (routed_of_index h found).asked
  cases honly subscription assigned
  obtain ⟨message, hevent, hends⟩ := ends
  have hpartition : entry.processor.partition = subscription.partition :=
    congrArg UnitKey.partition hunit
  rw [← hconnection, ← hpartition] at hends
  have hgone := index_of_ends h found hends
  rw [posted.state, posted.told message hevent]
  exact hgone

section

variable (h : Reachable creditCapacity w) (step : Step w w') (posted : w.Posted moment w')
  {key : SubscriberKey} {subscription : JobSubscription}
include h step posted

/-- An active subscription stays in the index when nothing ends it. -/
theorem Posted.index_stays {entry : IndexEntry} (found : w.state.index.get? key = some entry)
    (assigned : (key, subscription) ∈ w.assigned)
    (goesOn : ¬moment.event.Ends key subscription) :
    w'.state.index.get? key = some entry := by
  obtain ⟨other, hother, honly, hunit, hconnection⟩ := (routed_of_index h found).asked
  cases honly subscription assigned
  have hpartition : entry.processor.partition = subscription.partition :=
    congrArg UnitKey.partition hunit
  cases posted.turns (consistent_of_reachable h) step with
  | told message client =>
    rcases State.index_handle client found with hstays | hcleared | hgivenUp | hclosed
    · exact posted.state ▸ hstays
    · exact absurd ⟨message, rfl, .inr (.inr (hpartition ▸ hcleared))⟩ goesOn
    · exact absurd ⟨message, rfl, .inl hgivenUp⟩ goesOn
    · exact absurd ⟨message, rfl, .inr (.inl (hconnection ▸ hclosed))⟩ goesOn
  | ended operation continuation call held noted fits result =>
    exact posted.index_of_untold (posted.untold fun _ h => Event.noConfusion h) found
  | worked event credits untold unended =>
    exact posted.index_of_untold (posted.untold untold) found

theorem Posted.lasts_next {reply : Ticket}
    (lasts : w'.Lasts key subscription reply) :
    w'.state.index.contains key = true ∨
      w.Lasts key subscription reply ∧ ¬moment.event.Ends key subscription := by
  obtain ⟨front, first, back, hhistory, htold, hsince⟩ := lasts.since
  rw [posted.history] at hhistory
  rcases List.eq_nil_or_concat back with rfl | ⟨between, last, rfl⟩
  · obtain ⟨-, hlast⟩ := List.append_inj' hhistory rfl
    cases hlast
    exact .inl (posted.active_of_told h step htold).2
  · rw [List.concat_eq_append, ← List.cons_append, ← List.append_assoc] at hhistory
    obtain ⟨hold, hlast⟩ := List.append_inj' hhistory rfl
    cases hlast
    rw [List.concat_eq_append, List.forall_mem_append] at hsince
    have hpromised := promised_of_told h first
      (hold ▸ List.mem_append_right _ (List.mem_cons_self ..)) htold
    have hkey : key ∈ w.assigned.map Prod.fst := by
      rw [← promised_keys]
      exact List.mem_map_of_mem hpromised
    obtain ⟨⟨named, other⟩, hassigned, hnamed⟩ := List.mem_map.1 hkey
    obtain rfl : key = named := hnamed.symm
    have hlater : (key, other) ∈ w'.assigned := by
      rw [posted.assigned]
      exact List.mem_append_left _ hassigned
    have hsame := (consistent_of_reachable (h.next step)).unique _ hlater _ lasts.assigned rfl
    cases hsame
    exact .inr ⟨⟨hassigned, hpromised, front, first, between, hold, htold, hsince.1⟩,
      hsince.2 moment (List.mem_singleton_self _)⟩

end

/-- The index holds the subscriptions that last. -/
theorem lasts_iff (h : Reachable creditCapacity w) (key : SubscriberKey) :
    w.state.index.contains key = true ↔ ∃ subscription reply, w.Lasts key subscription reply := by
  induction h with
  | start =>
    constructor
    · intro hindexed
      cases hindexed
    · rintro ⟨subscription, reply, lasts⟩
      obtain ⟨front, moment, back, hhistory, -⟩ := lasts.since
      cases front <;> cases hhistory
  | @next w w' reached step ih =>
    obtain ⟨moment, hposted⟩ := posted_of_step (consistent_of_reachable reached) step
    constructor
    · intro hindexed
      obtain ⟨entry, hfound⟩ := Option.isSome_iff_exists.1 hindexed
      by_cases hold : w.state.index.get? key = some entry
      · -- it was active before, so that nothing has ended it just now
        obtain ⟨subscription, reply, hassigned, hpromised, front, first, back, hhistory, htold,
          hsince⟩ := ih.1 (Option.isSome_iff_exists.2 ⟨entry, hold⟩)
        have hgoesOn : ¬moment.event.Ends key subscription := fun ends => by
          rw [hposted.index_ends reached hold hassigned ends] at hfound
          cases hfound
        refine ⟨subscription, reply, ?_, hposted.promised_later hpromised, front, first,
          back ++ [moment], ?_, htold, ?_⟩
        · rw [hposted.assigned]
          exact List.mem_append_left _ hassigned
        · rw [hposted.history, hhistory, List.append_assoc, List.cons_append]
        · exact List.forall_mem_append.2 ⟨hsince, List.forall_mem_singleton.2 hgoesOn⟩
      · -- its addition has just ended well
        obtain ⟨subscription, hassigned, -⟩ := (routed_of_index (reached.next step) hfound).asked
        have hkey : key ∈ w'.promised.map Prod.fst := by
          rw [promised_keys]
          exact List.mem_map_of_mem hassigned
        obtain ⟨⟨named, reply⟩, hpromised, hnamed⟩ := List.mem_map.1 hkey
        obtain rfl : key = named := hnamed.symm
        obtain ⟨operation, _, _, -, hnoted⟩ := hposted.index_new reached step hfound hold
        have hbefore : w.state.standing key ≠ .active := by
          rw [standing_of_noted reached hnoted]
          exact Standing.noConfusion
        have htold := hposted.told_of_active reached step hpromised hbefore
          (standing_of_indexed (reached.next step) hfound)
        exact ⟨subscription, reply, hassigned, hpromised, w.history, moment, [], hposted.history,
          htold, List.forall_mem_nil _⟩
    · rintro ⟨subscription, reply, lasts⟩
      rcases hposted.lasts_next reached step lasts with hindexed | ⟨hlasts, hgoesOn⟩
      · exact hindexed
      · obtain ⟨entry, hfound⟩ := Option.isSome_iff_exists.1 (ih.2 ⟨subscription, reply, hlasts⟩)
        have hstays := hposted.index_stays reached step hfound hlasts.assigned hgoesOn
        exact Option.isSome_iff_exists.2 ⟨entry, hstays⟩

/-! ### One world -/

/-- What a snapshot shows of a world. -/
structure Shows (w : World) (snapshot : Snapshot) : Prop where
  partitions : snapshot.partitions.Pairwise fun a b => a.val < b.val
  registered : ∀ partition, partition ∈ snapshot.partitions ↔
    w.state.buckets.contains partition = true
  processors : snapshot.processors.Pairwise ProcessorSummary.Before
  listed : ∀ summary, summary ∈ snapshot.processors ↔
    ∃ partition bucket processor, w.state.buckets.get? partition = some bucket ∧
      processor ∈ bucket.processors ∧
      summary = ⟨processor.id, partition, processor.jobType, processor.unit.name⟩
  served : ∀ partition jobType, snapshot.processorsFor partition jobType =
    (w.state.serving ⟨partition, jobType⟩).length
  single : ∀ partition jobType, snapshot.processorsFor partition jobType ≤ 1
  placed : ∀ summary ∈ snapshot.processors, summary.partition ∈ snapshot.partitions
  subscriptions : snapshot.subscriptions.Pairwise fun a b => a.val < b.val
  active : ∀ key, key ∈ snapshot.subscriptions ↔
    ∃ subscription reply, w.Lasts key subscription reply
  backpressured : snapshot.backpressuredCredits = w.state.credits.parked.size
  parked : snapshot.backpressuredCredits ≤ 1
  pending : snapshot.pendingOperations = w.outstanding.length

theorem shows_snapshot (h : Reachable creditCapacity w) : w.Shows w.state.snapshot := by
  have hproper := (consistent_of_reachable h).sound.proper
  have hsummaries : ((w.state.processors.map ProcessorSummary.ofProcessor).map
      ProcessorSummary.key).Nodup := by
    rw [List.map_map]
    exact processors_distinct h
  have hsorted := List.mergeSort_perm (w.state.processors.map ProcessorSummary.ofProcessor)
    ProcessorSummary.le
  have hserved : ∀ partition jobType, w.state.snapshot.processorsFor partition jobType =
      (w.state.serving ⟨partition, jobType⟩).length := fun partition jobType =>
    (State.processorsFor_snapshot partition jobType).trans (countP_key_eq_length_serving h _)
  have hlisted : ∀ summary, summary ∈ w.state.snapshot.processors ↔
      ∃ partition bucket processor, w.state.buckets.get? partition = some bucket ∧
        processor ∈ bucket.processors ∧
        summary = ⟨processor.id, partition, processor.jobType, processor.unit.name⟩ := by
    intro summary
    rw [State.mem_snapshot_processors]
    constructor
    · rintro ⟨processor, hmember, rfl⟩
      obtain ⟨bucket, hget, hmember⟩ := partition_of_member h hmember
      exact ⟨processor.partition, bucket, processor, hget, hmember, rfl⟩
    · rintro ⟨partition, bucket, processor, hget, hmember, rfl⟩
      obtain rfl := State.partition_of_registered hproper hget hmember
      exact ⟨processor, State.mem_processors.2 ⟨_, bucket, hget, hmember⟩, rfl⟩
  refine ⟨?_, ?_, ?_, hlisted, hserved, ?_, ?_, ?_, ?_, rfl, ?_, ?_⟩
  · exact ascending_mergeSort PartitionId.val_injective w.state.buckets.distinct
  · exact fun partition => State.mem_snapshot_partitions
  · have hpairwise := pairwise_mergeSort_of_nodup ProcessorSummary.le_trans
      ProcessorSummary.le_total hsummaries.of_map
    refine hpairwise.imp_of_mem ?_
    rintro a b ha hb ⟨hle, hne⟩
    refine ProcessorSummary.before_of_le hle fun hkey => hne ?_
    exact List.inj_on_of_nodup_map hsummaries (hsorted.mem_iff.1 ha) (hsorted.mem_iff.1 hb) hkey
  · intro partition jobType
    have hle := units_le_one h ⟨partition, jobType⟩
    rw [hserved]
    omega
  · intro summary hsummary
    obtain ⟨partition, bucket, processor, hget, -, rfl⟩ := (hlisted summary).1 hsummary
    exact State.mem_snapshot_partitions.2 (Option.isSome_iff_exists.2 ⟨bucket, hget⟩)
  · exact ascending_mergeSort SubscriberKey.val_injective w.state.index.distinct
  · exact fun key => State.mem_snapshot_subscriptions.trans (lasts_iff h key)
  · exact (inOrder_of_reachable h).single
  · have hlength := (noted_perm h).length_eq
    rw [List.length_map] at hlength
    exact (List.length_map _).symm.trans hlength

/-- Snapshots are canonical: whatever order the tables of the manager are in, the same is shown.
It is in strict order: the partitions that are registered, and the processors that serve them, one
at most for a unit; the subscriptions are those whose futures were told their keys and that nothing
has ended since; the credits are the one that is parked, if any; and what is pending are the calls
whose ends were not handled. -/
theorem snapshots_canonical (h : Reachable creditCapacity w) :
    (∀ s, w.state.Reordered s → s.snapshot = w.state.snapshot) ∧ w.Shows w.state.snapshot :=
  ⟨fun _ reordered => reordered.snapshot (processors_distinct h), shows_snapshot h⟩

/-- Another partition is registered, behind the one that is served. -/
def spread : World := Sample.active.tell (.addPartition ⟨⟨0⟩, "log"⟩ "broker")

theorem reachable_spread : Reachable 2 spread := Sample.reachable_active.next (.tell _ rfl)

/-- The same state, with the partitions the other way round. -/
def turned : State :=
  { spread.state with
    buckets := ⟨spread.state.buckets.entries.reverse, by decide +kernel⟩ }

theorem snapshots_canonical_turned :
    turned.buckets.keys = [⟨0⟩, ⟨1⟩] ∧ spread.state.buckets.keys = [⟨1⟩, ⟨0⟩] ∧
      turned.snapshot = spread.state.snapshot ∧
      (∃ subscription reply, spread.Lasts ⟨0⟩ subscription reply) ∧
      spread.state.snapshot.processorsFor ⟨1⟩ ⟨[106]⟩ = 1 ∧
      spread.state.snapshot.processorsFor ⟨0⟩ ⟨[106]⟩ = 0 ∧
      spread.state.snapshot.pendingOperations = 0 := by
  obtain ⟨hsame, hshows⟩ := snapshots_canonical reachable_spread
  have hreordered : spread.state.Reordered turned :=
    ⟨(List.reverse_perm _).symm, .refl _, .refl _, rfl⟩
  have hactive : ⟨0⟩ ∈ spread.state.snapshot.subscriptions :=
    State.mem_snapshot_subscriptions.2 (by decide +kernel)
  refine ⟨by decide +kernel, by decide +kernel, hsame turned hreordered,
    (hshows.active ⟨0⟩).1 hactive, ?_, ?_, ?_⟩
  · rw [hshows.served]
    decide +kernel
  · rw [hshows.served]
    decide +kernel
  · rw [hshows.pending]
    decide +kernel

end World

end Manager

end JobBroker
