import JobBroker.Proofs.Registrations

/-!
# Partitions that are given up

A partition that is removed, or registered anew, loses its bucket, the index entries of its
processors and these processors themselves; nothing else changes. Subscriptions that were on their
way to it are still waited for, and are turned away one by one where they next come up: when a
build begins or ends, or when the processor has accepted them.
-/

namespace JobBroker.Manager

open Table

def Message.added? : Message → Option PartitionId
  | .addPartition partition _ => some partition.id
  | _ => none

/-- The partition that an event has registered. -/
def Event.added? : Event → Option PartitionId
  | .told message => message.added?
  | _ => none

namespace State

/-- The processors of a partition, in the order in which they were registered. -/
def members (s : State) (partition : PartitionId) : List Processor :=
  ((s.buckets.get? partition).map Bucket.processors).getD []

/-! ### What purging the index leaves alone -/

section

variable {s : State} {id : ProcessorId}

theorem index_purge_eq (s : State) (test : IndexEntry → Bool) (key : SubscriberKey) :
    (s.purge test).index.get? key = (s.index.get? key).filter fun entry => !test entry := by
  refine Option.ext fun entry => ?_
  rw [Option.filter_eq_some_iff, Bool.not_eq_true']
  exact ⟨index_purge, fun found => index_purge_of_stays found.1 found.2⟩

theorem references_dropReference {other : ProcessorId} (ne : id ≠ other) :
    (s.dropReference other).references.get? id = s.references.get? id := by
  unfold dropReference
  split
  next => rfl
  next =>
    split
    next => rw [get?_erase, if_neg ne]
    next => rw [get?_insert, if_neg ne]

theorem references_unindex {key : SubscriberKey}
    (others : ∀ entry, s.index.get? key = some entry → id ≠ entry.processor.id) :
    (s.unindex key).references.get? id = s.references.get? id := by
  unfold unindex
  split
  next => rfl
  next entry hentry => exact references_dropReference (others entry hentry)

theorem references_unindexAll (keys : List SubscriberKey)
    (others : ∀ key ∈ keys, ∀ entry, s.index.get? key = some entry → id ≠ entry.processor.id) :
    (keys.foldl unindex s).references.get? id = s.references.get? id := by
  induction keys generalizing s with
  | nil => rfl
  | cons first keys ih =>
    rw [List.foldl_cons, ih, references_unindex (others first (List.mem_cons_self ..))]
    intro key hkey entry hentry
    rw [index_unindex] at hentry
    split at hentry
    next => cases hentry
    next => exact others key (List.mem_cons_of_mem _ hkey) entry hentry

theorem references_purge {test : IndexEntry → Bool}
    (others : ∀ key entry, s.index.get? key = some entry → test entry = true →
      id ≠ entry.processor.id) :
    (s.purge test).references.get? id = s.references.get? id := by
  refine references_unindexAll _ fun key hkey entry hentry => ?_
  obtain ⟨other, hother, htest⟩ := mem_keysWhere.1 hkey
  cases hentry.symm.trans hother
  exact others key entry hentry htest

end

/-! ### Tearing down a whole bucket -/

section

variable (s : State) (processors : List Processor)

theorem tearDown_eq :
    (s.forEach processors fun s processor => s.teardown processor none).state =
      { s with
        retiring := (s.forEach processors fun s processor =>
          s.teardown processor none).state.retiring
        continuations := (s.forEach processors fun s processor =>
          s.teardown processor none).state.continuations
        nextOperation := (s.forEach processors fun s processor =>
          s.teardown processor none).state.nextOperation } := by
  induction processors generalizing s with
  | nil => rfl
  | cons processor processors ih =>
    rw [forEach, Turn.state_andThen, ih]
    rfl

theorem calls_tearDown :
    (callsOf (s.forEach processors fun s processor => s.teardown processor none).effects).map
      Prod.snd = processors.map Call.teardown := by
  induction processors generalizing s with
  | nil => rfl
  | cons processor processors ih =>
    rw [forEach, Turn.effects_andThen, callsOf_append, List.map_append, ih, List.map_cons]
    rfl

theorem settledOf_tearDown :
    settledOf (s.forEach processors fun s processor => s.teardown processor none).effects = [] := by
  induction processors generalizing s with
  | nil => rfl
  | cons processor processors ih =>
    rw [forEach, Turn.effects_andThen, settledOf_append, ih]
    rfl

theorem retiring_tearDown {key : UnitKey} (others : ∀ processor ∈ processors, key ≠ processor.key) :
    (s.forEach processors fun s processor => s.teardown processor none).state.retiring.get? key =
      s.retiring.get? key := by
  induction processors generalizing s with
  | nil => rfl
  | cons processor processors ih =>
    rw [forEach, Turn.state_andThen,
      ih _ fun other hother => others other (List.mem_cons_of_mem _ hother)]
    exact (get?_insert _ _ _ _).trans (if_neg (others processor (List.mem_cons_self ..)))

theorem continuations_tearDown_old {operation : OperationId}
    (old : operation.val < s.nextOperation) :
    (s.forEach processors fun s processor =>
      s.teardown processor none).state.continuations.get? operation =
        s.continuations.get? operation := by
  induction processors generalizing s with
  | nil => rfl
  | cons processor processors ih =>
    have hne : operation ≠ ⟨s.nextOperation⟩ := by
      rintro rfl
      exact Nat.lt_irrefl _ old
    rw [forEach, Turn.state_andThen, ih _ (Nat.lt_succ_of_lt old)]
    exact (get?_insert _ _ _ _).trans (if_neg hne)

theorem continuations_tearDown_new {operation : OperationId} {continuation : Continuation}
    (found : (s.forEach processors fun s processor =>
      s.teardown processor none).state.continuations.get? operation = some continuation) :
    s.continuations.get? operation = some continuation ∨
      ∃ processor ∈ processors, continuation = .teardown processor none := by
  induction processors generalizing s with
  | nil => exact .inl found
  | cons processor processors ih =>
    rw [forEach, Turn.state_andThen] at found
    rcases ih _ found with hold | ⟨other, hother, heq⟩
    · have hinsert := (get?_insert _ _ _ _).symm.trans hold
      split at hinsert
      next => exact .inr ⟨processor, List.mem_cons_self .., (Option.some.inj hinsert).symm⟩
      next => exact .inl hinsert
    · exact .inr ⟨other, List.mem_cons_of_mem _ hother, heq⟩

end

/-! ### Giving a partition up -/

section

variable (s : State) (partition : PartitionId) (bucket : Option Bucket)

theorem discardBucket_eq :
    s.discardBucket partition bucket =
      (s.purge fun entry => entry.processor.partition = partition).forEach
        ((bucket.map Bucket.processors).getD []) fun s processor => s.teardown processor none := by
  cases bucket <;> rfl

theorem calls_discardBucket :
    (callsOf (s.discardBucket partition bucket).effects).map Prod.snd =
      ((bucket.map Bucket.processors).getD []).map Call.teardown := by
  rw [discardBucket_eq, calls_tearDown]

theorem settledOf_discardBucket :
    settledOf (s.discardBucket partition bucket).effects = [] := by
  rw [discardBucket_eq, settledOf_tearDown]

theorem pending_discardBucket : (s.discardBucket partition bucket).state.pending = s.pending := by
  rw [discardBucket_eq, tearDown_eq, purge, unindexAll_eq]

theorem references_discardBucket {id : ProcessorId}
    (others : ∀ key entry, s.index.get? key = some entry → entry.processor.partition = partition →
      id ≠ entry.processor.id) :
    (s.discardBucket partition bucket).state.references.get? id = s.references.get? id := by
  rw [discardBucket_eq, tearDown_eq]
  exact references_purge fun key entry found test => others key entry found (of_decide_eq_true test)

theorem retiring_discardBucket {key : UnitKey}
    (others : ∀ processor ∈ (bucket.map Bucket.processors).getD [], key ≠ processor.key) :
    (s.discardBucket partition bucket).state.retiring.get? key = s.retiring.get? key := by
  rw [discardBucket_eq, retiring_tearDown _ _ others, purge, unindexAll_eq]

theorem continuations_discardBucket_old {operation : OperationId}
    (old : operation.val < s.nextOperation) :
    (s.discardBucket partition bucket).state.continuations.get? operation =
      s.continuations.get? operation := by
  rw [discardBucket_eq, purge, unindexAll_eq]
  exact continuations_tearDown_old _ _ old

theorem continuations_discardBucket_new {operation : OperationId} {continuation : Continuation}
    (found : (s.discardBucket partition bucket).state.continuations.get? operation =
      some continuation) :
    s.continuations.get? operation = some continuation ∨
      ∃ processor ∈ (bucket.map Bucket.processors).getD [],
        continuation = .teardown processor none := by
  rw [discardBucket_eq, purge, unindexAll_eq] at found
  have hnew := continuations_tearDown_new _ _ found
  exact hnew

end

end State

namespace World

section

variable {w w' : World} {moment : Moment} {creditCapacity : Nat} {partition : PartitionId}

/-- What a turn does that gives a partition up, with the bucket that there is afterwards. -/
structure Clears (w : World) (partition : PartitionId) (new : Option Bucket) (turn : Turn) :
    Prop where
  bucket : turn.state.buckets.get? partition = new
  buckets : ∀ other, other ≠ partition →
    turn.state.buckets.get? other = w.state.buckets.get? other
  index : ∀ key, turn.state.index.get? key =
    (w.state.index.get? key).filter fun entry => entry.processor.partition ≠ partition
  calls : (callsOf turn.effects).map Prod.snd = (w.state.members partition).map Call.teardown
  settled : settledOf turn.effects = []
  pending : turn.state.pending = w.state.pending
  references : ∀ processor ∈ w.built, processor.partition ≠ partition →
    turn.state.references.get? processor.id = w.state.references.get? processor.id
  retiring : ∀ key, key.partition ≠ partition →
    turn.state.retiring.get? key = w.state.retiring.get? key
  continuations : ∀ operation continuation,
    w.state.continuations.get? operation = some continuation →
    turn.state.continuations.get? operation = some continuation
  noted : ∀ operation continuation,
    turn.state.continuations.get? operation = some continuation →
    w.state.continuations.get? operation = some continuation ∨
      ∃ processor ∈ w.state.members partition, continuation = .teardown processor none

theorem partition_of_members (h : Reachable creditCapacity w) {processor : Processor}
    (member : processor ∈ w.state.members partition) : processor.partition = partition := by
  unfold State.members at member
  cases hget : w.state.buckets.get? partition with
  | none => rw [hget] at member; cases member
  | some bucket =>
    rw [hget] at member
    exact State.partition_of_registered (consistent_of_reachable h).sound.proper hget member

theorem clears_discardBucket (h : Reachable creditCapacity w) {new : Option Bucket}
    {buckets : Table PartitionId Bucket}
    (changed : ∀ other, buckets.get? other =
      if other = partition then new else w.state.buckets.get? other) :
    w.Clears partition new
      ({ w.state with buckets := buckets }.discardBucket partition
        (w.state.buckets.get? partition)) := by
  have hconsistent := consistent_of_reachable h
  refine ⟨?_, ?_, ?_, State.calls_discardBucket _ _ _, State.settledOf_discardBucket _ _ _,
    State.pending_discardBucket _ _ _, ?_, ?_, ?_, ?_⟩
  · rw [State.buckets_discardBucket, changed, if_pos rfl]
  · intro other hne
    rw [State.buckets_discardBucket, changed, if_neg hne]
  · intro key
    rw [State.index_discardBucket, State.index_purge_eq]
    simp only [ne_eq, decide_not]
  · intro processor hbuilt hne
    refine State.references_discardBucket _ _ _ fun key entry hentry hpartition heq => hne ?_
    -- an entry with the id of the processor leads to the processor
    rw [hconsistent.distinct processor entry.processor hbuilt (routed_of_index h hentry).built heq]
    exact hpartition
  · intro key hne
    refine State.retiring_discardBucket _ _ _ fun processor hmember heq => hne ?_
    rw [heq]
    exact partition_of_members h hmember
  · intro operation continuation hget
    have hold := State.continuations_discardBucket_old { w.state with buckets := buckets } partition
      (w.state.buckets.get? partition) (hconsistent.orderly.fresh operation continuation hget)
    exact hold.trans hget
  · intro operation continuation hget
    have hnew := State.continuations_discardBucket_new _ _ _ hget
    exact hnew

theorem clears_removePartition (h : Reachable creditCapacity w) (partition : PartitionId) :
    w.Clears partition none (w.state.handle (.removePartition partition)) :=
  clears_discardBucket h (get?_erase _ _)

theorem clears_addPartition (h : Reachable creditCapacity w) (new : Partition) (service : String)
    (registered : w.state.buckets.contains new.id = true) :
    w.Clears new.id (some ⟨new, service, []⟩) (w.state.handle (.addPartition new service)) := by
  obtain ⟨bucket, hbucket⟩ := Option.isSome_iff_exists.1 registered
  have hclears := clears_discardBucket h fun other =>
    get?_insert w.state.buckets new.id other ⟨new, service, []⟩
  rw [hbucket] at hclears
  rw [State.handle, State.addPartition, hbucket]
  exact hclears

/-! ### Subscriptions that are told their key -/

theorem requests_of_settlements (h : Reachable creditCapacity w) {reply : Ticket}
    (settled : reply ∈ w.settlements) : reply ∈ w.requests := by
  have hbalance := replies_of_reachable h reply
  have hpos := List.count_pos_iff.2 settled
  exact List.count_pos_iff.1 (by omega)

/-- Where every message brings a future of its own, the message is found where its future is. -/
theorem asked_before (steps : Relation.ReflTransGen Step w w') (own : w'.requests.Nodup)
    {asking : Moment} (mem : asking ∈ w'.history) {reply : Ticket}
    (asks : asking.event.reply? = some reply) (held : reply ∈ w.requests) :
    asking ∈ w.history := by
  obtain ⟨later, hlater⟩ := history_of_steps steps
  rw [requests, ← hlater, List.filterMap_append, List.nodup_append] at own
  rw [← hlater, List.mem_append] at mem
  refine mem.resolve_right fun hnew => ?_
  exact own.2.2 reply held reply (List.mem_filterMap.2 ⟨asking, hnew, asks⟩) rfl

/-- In the moment in which a subscription is told its key, it is in the index, with a processor of
its partition. -/
theorem Posted.indexed_of_told (h : Reachable creditCapacity w) (posted : w.Posted moment w')
    (step : Step w w') (own : w'.requests.Nodup) {asking : Moment} (mem : asking ∈ w'.history)
    {subscription : JobSubscription} {reply : Ticket}
    (asks : asking.event = .told (.subscribe subscription reply)) {answer : Answer}
    (told : (reply, .ok answer) ∈ settledOf moment.turn.effects) :
    ∃ key entry, w'.state.index.get? key = some entry ∧
      entry.processor.partition = subscription.partition := by
  have hmem : asking ∈ w.history ∨ asking = moment := by
    rw [posted.history] at mem
    exact (List.mem_append.1 mem).imp_right List.mem_singleton.1
  rcases hmem with hold | rfl
  · rcases promised_of_subscribed h hold asks with hsettled | ⟨key, hpromised, hassigned⟩
    · exact absurd hsettled (posted.told_once h step own told).1
    · have htells := posted.tells h step own (posted.promised_later hpromised)
      have hactive := ((htells.activated answer).1 told).2.2
      have hindexed := (standing_spec (h.next step) key).2.2.1.2 hactive
      obtain ⟨entry, hentry⟩ := Option.isSome_iff_exists.1 hindexed
      obtain ⟨other, -, honly, hkey, -⟩ := (routed_of_index (h.next step) hentry).asked
      have hlater : (key, subscription) ∈ w'.assigned := by
        rw [posted.assigned]
        exact List.mem_append_left _ hassigned
      rw [← honly subscription hlater] at hkey
      exact ⟨key, entry, hentry, congrArg UnitKey.partition hkey⟩
  · have hgreets := posted.greets h step asks
    cases hfound : w.state.buckets.contains subscription.partition with
    | false =>
      rw [(hgreets.refused hfound).1] at told
      cases List.mem_singleton.1 told
    | true =>
      rw [(hgreets.taken hfound).1] at told
      cases told

/-! ### After a partition was removed -/

theorem Posted.unregistered (h : Reachable creditCapacity w) (posted : w.Posted moment w')
    (step : Step w w') (before : w.state.buckets.get? partition = none)
    (other : moment.event.added? ≠ some partition) :
    w'.state.buckets.get? partition = none := by
  by_cases hcleared : moment.event.cleared? = some partition
  · cases hevent : moment.event with
    | told message =>
      rw [hevent] at hcleared other
      cases message with
      | addPartition new service => exact absurd hcleared other
      | removePartition old =>
        cases hcleared
        rw [posted.state, posted.told _ hevent]
        exact (clears_removePartition h partition).bucket
      | _ => cases hcleared
    | _ =>
      rw [hevent] at hcleared
      cases hcleared
  · have hsame := posted.registration?_eq (consistent_of_reachable h) step hcleared
    rw [State.registration?, State.registration?, before] at hsame
    exact Option.map_eq_none_iff.1 hsame

/-- A partition that is not registered stays so until it is registered anew. -/
theorem unregistered_of_steps (h : Reachable creditCapacity w) {v : World}
    (steps : Relation.ReflTransGen Step w v) (rest : Relation.ReflTransGen Step v w')
    {later : List Moment} (history : w'.history = w.history ++ later)
    (others : ∀ moment ∈ later, moment.event.added? ≠ some partition)
    (start : w.state.buckets.get? partition = none) : v.state.buckets.get? partition = none := by
  obtain ⟨middle, hmiddle⟩ := history_of_steps steps
  obtain ⟨last, hlast⟩ := history_of_steps rest
  rw [← hlast, ← hmiddle, List.append_assoc] at history
  have hlater := List.append_cancel_left history
  refine keep_of_steps (P := fun w => w.state.buckets.get? partition = none) h steps
    hmiddle.symm ?_ start
  intro u u' moment hreached hstep hposted hmem before
  refine hposted.unregistered hreached hstep before (others moment ?_)
  rw [← hlater]
  exact List.mem_append_left _ hmem

theorem unindexed_of_unregistered (h : Reachable creditCapacity w)
    (unregistered : w.state.buckets.get? partition = none) {key : SubscriberKey}
    {entry : IndexEntry} (found : w.state.index.get? key = some entry) :
    entry.processor.partition ≠ partition := by
  rintro rfl
  obtain ⟨bucket, hbucket, -⟩ := (routed_of_index h found).registered
  rw [unregistered] at hbucket
  cases hbucket

/-- Whoever is told their key has a partition that is registered. -/
theorem Posted.not_told_of_unregistered (h : Reachable creditCapacity w)
    (posted : w.Posted moment w') (step : Step w w') (own : w'.requests.Nodup) {asking : Moment}
    (mem : asking ∈ w'.history) {subscription : JobSubscription} {reply : Ticket}
    (asks : asking.event = .told (.subscribe subscription reply))
    (unregistered : w'.state.buckets.get? subscription.partition = none) (answer : Answer) :
    (reply, .ok answer) ∉ settledOf moment.turn.effects := by
  intro told
  obtain ⟨key, entry, hentry, hpartition⟩ := posted.indexed_of_told h step own mem asks told
  exact unindexed_of_unregistered (h.next step) unregistered hentry hpartition

/-- What is so of a partition that was removed and not registered since. -/
structure Vacant (w : World) (partition : PartitionId) (w' : World) : Prop where
  unregistered : w'.state.buckets.get? partition = none
  unindexed : ∀ key entry, w'.state.index.get? key = some entry →
    entry.processor.partition ≠ partition
  refused : w'.requests.Nodup → ∀ asking ∈ w'.history, ∀ subscription reply,
    asking.event = .told (.subscribe subscription reply) → subscription.partition = partition →
    (asking ∈ w.history → reply ∉ w.settlements) →
    ∀ moment ∈ w'.history, ∀ result, (reply, result) ∈ settledOf moment.turn.effects →
      ∃ error, result = .error error

theorem vacant_of_steps (h : Reachable creditCapacity w) (partition : PartitionId)
    {later : List Moment}
    (steps : Relation.ReflTransGen Step (w.tell (.removePartition partition)) w')
    (history : w'.history = (w.tell (.removePartition partition)).history ++ later)
    (others : ∀ moment ∈ later, moment.event.added? ≠ some partition) :
    w.Vacant partition w' := by
  have hremoved : Reachable creditCapacity (w.tell (.removePartition partition)) :=
    h.next (.tell _ rfl)
  have hclears := clears_removePartition h partition
  have hunregistered : ∀ v, Relation.ReflTransGen Step (w.tell (.removePartition partition)) v →
      Relation.ReflTransGen Step v w' → v.state.buckets.get? partition = none := fun v hsteps hrest =>
    unregistered_of_steps hremoved hsteps hrest history others hclears.bucket
  refine ⟨hunregistered w' steps .refl, fun key entry =>
    unindexed_of_unregistered (reachable_of_steps hremoved steps) (hunregistered w' steps .refl), ?_⟩
  rintro own asking hasking subscription reply asks rfl hopen moment hmoment result told
  have hreply : asking.event.reply? = some reply := by rw [asks]; rfl
  -- a future that was settled before would be that of an earlier message
  have hunsettled : reply ∉ w.settlements := by
    intro hsettled
    refine hopen ?_ hsettled
    exact asked_before (.head (.tell _ rfl) steps) own hasking hreply
      (requests_of_settlements h hsettled)
  cases result with
  | error error => exact ⟨error, rfl⟩
  | ok answer =>
    exfalso
    rcases moments_of_steps hremoved steps moment hmoment with
      hbefore | ⟨v, v', hsteps, hstep, hposted, hrest⟩
    · rcases List.mem_append.1 hbefore with hearly | hclearing
      · exact hunsettled (List.mem_flatMap.2 ⟨moment, hearly, List.mem_map.2 ⟨_, told, rfl⟩⟩)
      · rw [List.mem_singleton.1 hclearing, hclears.settled] at told
        cases told
    · have hreached := reachable_of_steps hremoved hsteps
      have hown : v'.requests.Nodup := own.sublist (requests_of_steps hrest)
      have hsettled := (hposted.told_once hreached hstep hown told).2.2.2
      have hmem := asked_before hrest own hasking hreply
        (requests_of_settlements (hreached.next hstep) hsettled)
      exact hposted.not_told_of_unregistered hreached hstep hown hmem asks
        (hunregistered v' (hsteps.tail hstep) hrest) answer told

/-- Removing a partition takes its bucket away and the index entries of its processors, and asks
for the teardown of each of these, in their order; everything else is as before. As long as the
partition is not registered again, nothing in the index leads to it, and no subscription to it is
told anything but errors, wherever it was on its way when the partition was removed. Registering a
partition anew does the same with the earlier registration. -/
theorem partition_removed (h : Reachable creditCapacity w) (partition : PartitionId) :
    w.Clears partition none (w.state.handle (.removePartition partition)) ∧
    (∀ w' later, Relation.ReflTransGen Step (w.tell (.removePartition partition)) w' →
      w'.history = (w.tell (.removePartition partition)).history ++ later →
      (∀ moment ∈ later, moment.event.added? ≠ some partition) → w.Vacant partition w') ∧
    ∀ (new : Partition) (service : String), new.id = partition →
      w.state.buckets.contains partition = true →
      w.Clears partition (some ⟨new, service, []⟩)
        (w.state.handle (.addPartition new service)) := by
  refine ⟨clears_removePartition h partition, fun w' later => vacant_of_steps h partition, ?_⟩
  rintro new service rfl registered
  exact clears_addPartition h new service registered

end

end World

namespace Sample

open World

/-- The partition is removed while an addition is under way. -/
def vacated : World := adding.tell (.removePartition ⟨1⟩)

def turnedAway : Moment :=
  ⟨vacated.state, .ended ⟨1⟩ (.add processor { subscription with key := some ⟨0⟩ }) (.ok ()),
    vacated.state.handle (.resume ⟨1⟩ (.settled (.ok ())))⟩

/-- The addition ends well, and the subscription is turned away. -/
def refused : World :=
  vacated.finish ⟨1⟩ (.add processor { subscription with key := some ⟨0⟩ }) (.ok ())

end Sample

namespace World

open Sample in
theorem partition_removed_sample :
    (callsOf (adding.state.handle (.removePartition ⟨1⟩)).effects).map Prod.snd =
        [.teardown processor] ∧
      refused.state.buckets.get? ⟨1⟩ = none ∧
      (∃ error, (⟨0⟩, .error error) ∈ settledOf turnedAway.turn.effects) ∧
      (adding.state.handle (.addPartition ⟨⟨1⟩, "new log"⟩ "other broker")).state.buckets.get? ⟨1⟩ =
        some ⟨⟨⟨1⟩, "new log"⟩, "other broker", []⟩ := by
  obtain ⟨hclears, hvacant, hanew⟩ := partition_removed reachable_adding ⟨1⟩
  have hmembers : adding.state.members ⟨1⟩ = [processor] := by decide +kernel
  have hrefused := hvacant refused [turnedAway]
    (.single (.finish _ _ (by decide +kernel) _)) rfl (by simp [turnedAway, Event.added?])
  refine ⟨?_, hrefused.unregistered, ?_, (hanew _ _ rfl (by decide +kernel)).bucket⟩
  · rw [hclears.calls, hmembers, List.map_singleton]
  · obtain ⟨result, htold⟩ : ∃ result, (⟨0⟩, result) ∈ settledOf turnedAway.turn.effects :=
      ⟨.error (.partitionNotFound ⟨1⟩), by decide +kernel⟩
    obtain ⟨error, rfl⟩ := hrefused.refused (by decide +kernel) _
      (List.mem_append_left _ (List.mem_append_left _ (List.mem_append_left _
        (List.mem_append_right _ (List.mem_singleton_self _))))) subscription ⟨0⟩ rfl rfl
      (fun _ => by decide +kernel) turnedAway (List.mem_append_right _ (List.mem_singleton_self _))
      result htold
    exact ⟨error, htold⟩

end World

end JobBroker.Manager
