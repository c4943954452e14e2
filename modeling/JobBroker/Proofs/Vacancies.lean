import JobBroker.Proofs.Closings

/-!
# Vacant processors

What becomes of a processor that is left without references, in one step. An index entry goes with
its processor, or the processor is told to drop it; a reference that goes otherwise takes the
processor along if it was the last. A vacant processor that reports to hold nothing is retired.
-/

namespace JobBroker.Manager

open Holding Table

namespace State

variable {s : State} {key : SubscriberKey} {entry : IndexEntry}

/-! ### The index -/

theorem index_purge_of_stays {test : IndexEntry → Bool} (found : s.index.get? key = some entry)
    (stays : test entry = false) : (s.purge test).index.get? key = some entry := by
  rw [purge, index_unindexAll, if_neg, found]
  intro hmem
  obtain ⟨other, hget, htest⟩ := mem_keysWhere.1 hmem
  cases found.symm.trans hget
  rw [stays] at htest
  cases htest

theorem index_tearDown (s : State) (processors : List Processor) :
    (s.forEach processors fun s processor => s.teardown processor none).state.index = s.index := by
  induction processors generalizing s with
  | nil => rfl
  | cons processor processors ih => exact ih _

theorem index_discardBucket (s : State) (partition : PartitionId) (bucket : Option Bucket) :
    (s.discardBucket partition bucket).state.index =
      (s.purge fun entry => entry.processor.partition = partition).index := by
  cases bucket with
  | none => rfl
  | some bucket => exact index_tearDown _ bucket.processors

theorem index_startBuild (s : State) (key : UnitKey) :
    (s.startBuild key).state.index = s.index := by
  unfold startBuild
  split <;> rfl

theorem index_subscribe (s : State) (subscription : JobSubscription) (reply : Ticket) :
    (s.subscribe subscription reply).state.index = s.index := by
  unfold subscribe
  split
  next => rfl
  next =>
    dsimp only
    split
    next => rfl
    next =>
      split
      next => rfl
      next =>
        split
        next => rfl
        next => exact index_startBuild _ _

theorem index_unsubscribe_of_ne {other : SubscriberKey} (ne : key ≠ other) (reply : Ticket) :
    (s.unsubscribe other reply).state.index.get? key = s.index.get? key := by
  unfold unsubscribe
  split
  next => rfl
  next =>
    show (s.unindex other).index.get? key = _
    rw [index_unindex, if_neg ne]

theorem index_addPartition_of_ne (found : s.index.get? key = some entry) {partition : Partition}
    (ne : entry.processor.partition ≠ partition.id) (service : String) :
    (s.addPartition partition service).state.index.get? key = some entry := by
  unfold addPartition
  dsimp only
  split
  next => exact found
  next =>
    rw [index_discardBucket]
    exact index_purge_of_stays (s := { s with buckets := _ }) found (by simpa using ne)

theorem index_removePartition_of_ne (found : s.index.get? key = some entry)
    {partition : PartitionId} (ne : entry.processor.partition ≠ partition) :
    (s.removePartition partition).state.index.get? key = some entry := by
  rw [removePartition, index_discardBucket]
  exact index_purge_of_stays (s := { s with buckets := _ }) found (by simpa using ne)

/-- What a message takes out of the index. -/
theorem index_handle {message : Message} (client : message.fromClient = true)
    (found : s.index.get? key = some entry) :
    (s.handle message).state.index.get? key = some entry ∨
      message.cleared? = some entry.processor.partition ∨
      (∃ reply, message = .unsubscribe key reply) ∨
      message = .connectionClosed entry.connection := by
  cases message with
  | subscribe subscription reply => exact .inl ((s.index_subscribe _ _).symm ▸ found)
  | unsubscribe other reply =>
    by_cases heq : key = other
    · subst heq
      exact .inr (.inr (.inl ⟨reply, rfl⟩))
    · exact .inl ((index_unsubscribe_of_ne heq reply).trans found)
  | addPartition partition service =>
    by_cases heq : entry.processor.partition = partition.id
    · exact .inr (.inl (congrArg some heq.symm))
    · exact .inl (index_addPartition_of_ne found heq service)
  | removePartition partition =>
    by_cases heq : entry.processor.partition = partition
    · exact .inr (.inl (congrArg some heq.symm))
    · exact .inl (index_removePartition_of_ne found heq)
  | connectionClosed connection =>
    by_cases heq : entry.connection = connection
    · exact .inr (.inr (.inr (congrArg Message.connectionClosed heq.symm)))
    · refine .inl ((s.index_connectionClosed connection key).trans ?_)
      rw [found, Option.filter_some, if_pos (by simpa using heq)]
  | snapshot reply => exact .inl found
  | resume | shutdown => cases client

/-! ### Processors that are retired -/

theorem isRegistered_of_mem {processor : Processor} {bucket : Bucket}
    (found : s.buckets.get? processor.partition = some bucket)
    (member : processor ∈ bucket.processors) : s.isRegistered processor = true := by
  rw [isRegistered, found]
  exact Bucket.contains_iff.2 ⟨processor, member, rfl⟩

/-- A registered processor that is retired is told to stop. -/
theorem discarded_retire {processor : Processor} (registered : s.isRegistered processor = true)
    (reply : Option Ticket) : .discarded processor ∈ (s.retire processor reply).signs := by
  unfold isRegistered at registered
  unfold retire
  split at registered
  next => cases registered
  next bucket hbucket =>
    simp only [hbucket, Option.bind_some, Bucket.detach?, registered, if_true]
    exact List.mem_singleton_self _

theorem discarded_onRemoved {processor : Processor} (registered : s.isRegistered processor = true)
    (unreferenced : s.isUnreferenced processor.id = true) (reply : Ticket) :
    .discarded processor ∈ (s.onRemoved processor reply (.ok false)).signs := by
  simp only [onRemoved, unreferenced, Bool.not_false, Bool.and_self, if_true]
  exact discarded_retire registered (some reply)

theorem discarded_onSwept {processor : Processor} (registered : s.isRegistered processor = true)
    (unreferenced : s.isUnreferenced processor.id = true) :
    .discarded processor ∈ (s.onSwept processor (.ok false)).signs := by
  simp only [onSwept, unreferenced, Bool.not_false, Bool.and_self, if_true]
  exact discarded_retire registered none

/-- A processor whose last reference is given back by an addition that has failed is retired. -/
theorem discarded_release {processor : Processor} (registered : s.isRegistered processor = true)
    (unreferenced : (s.release processor).state.isUnreferenced processor.id = true) :
    .discarded processor ∈ (s.release processor).signs := by
  have hregistered : (s.dropReference processor.id).isRegistered processor = true := by
    rw [dropReference_eq]
    exact registered
  unfold release at unreferenced ⊢
  dsimp only at unreferenced ⊢
  split
  next => exact discarded_retire hregistered none
  next hreferenced =>
    rw [if_neg hreferenced] at unreferenced
    exact absurd unreferenced hreferenced

/-- A processor that was built is told to stop at once, or is handed what waits for it. -/
theorem handed_onBuilt (s : State) (unit : ActivationUnit) (runner : Runner) :
    .discarded ⟨⟨s.nextProcessor⟩, unit, runner⟩ ∈ (s.onBuilt unit (.ok runner)).signs ∨
      ∃ operation subscription,
        (operation, .add ⟨⟨s.nextProcessor⟩, unit, runner⟩ subscription) ∈
          callsOf (s.onBuilt unit (.ok runner)).effects := by
  unfold onBuilt
  dsimp only
  split
  next => exact .inl (List.mem_singleton_self _)
  next hwaiting =>
    split
    next =>
      refine .inl ?_
      rw [Turn.signs_andThen]
      exact List.mem_append_right _ (List.mem_singleton_self _)
    next bucket _ =>
      cases hqueue : (s.pending.get? unit.key).getD [] with
      | nil =>
        rw [hqueue] at hwaiting
        exact absurd rfl hwaiting
      | cons w queue =>
        rw [forEach, Turn.effects_andThen, callsOf_append]
        exact .inr ⟨_, w.subscription, List.mem_append_left _ (List.mem_singleton_self _)⟩

end State

/-- The processor that a call tells to drop subscriptions, and so to report what it still holds. -/
def Call.drained? : Call → Option Processor
  | .remove processor _ => some processor
  | .sweep processor _ => some processor
  | _ => none

/-- The processor that has reported to hold nothing any more. -/
def Call.emptied? : (call : Call) → Except String call.Success → Option Processor
  | .remove processor _, .ok false => some processor
  | .sweep processor _, .ok false => some processor
  | _, _ => none

section

open Ledger

variable {k : Knowledge} {b b' : Ledger} {signs : List Sign} {settled : List Ticket}
  {processor : Processor}

theorem Moves.registered_back (h : Moves k b signs settled b') {partition : PartitionId}
    (held : registered partition processor ∈ b'.holdings) :
    registered partition processor ∈ b.holdings ∨ b.nextProcessor ≤ processor.id.val := by
  induction h with
  | rest => exact .inl held
  | next moves move ih =>
    rcases move.registered_back held with hold | hnew
    · exact ih hold
    · rw [hnew, moves.nextProcessor]
      exact .inr (Nat.le_add_right ..)

end

namespace World

variable {w w' : World} {moment : Moment} {creditCapacity : Nat} {key : SubscriberKey}
  {processor : Processor} {entry : IndexEntry}

/-! ### Members -/

theorem partition_of_member (h : Reachable creditCapacity w)
    (member : processor ∈ w.state.processors) :
    ∃ bucket, w.state.buckets.get? processor.partition = some bucket ∧
      processor ∈ bucket.processors := by
  obtain ⟨partition, bucket, hget, hmember⟩ := State.mem_processors.1 member
  have hpartition := State.partition_of_registered (consistent_of_reachable h).sound.proper hget
    hmember
  exact ⟨bucket, hpartition ▸ hget, hmember⟩

theorem isRegistered_of_member (h : Reachable creditCapacity w)
    (member : processor ∈ w.state.processors) : w.state.isRegistered processor = true := by
  obtain ⟨bucket, hget, hmember⟩ := partition_of_member h member
  exact State.isRegistered_of_mem hget hmember

theorem built_of_member (h : Reachable creditCapacity w)
    (member : processor ∈ w.state.processors) : processor ∈ w.built :=
  ((consistent_of_reachable h).sound.proper _ (registered_of_processors h member 0)).2.1

theorem member_of_index (h : Reachable creditCapacity w)
    (found : w.state.index.get? key = some entry) :
    entry.processor ∈ w.state.processors := by
  obtain ⟨bucket, hget, hmember⟩ := (routed_of_index h found).registered
  exact State.mem_processors.2 ⟨_, bucket, hget, hmember⟩

theorem not_member_of_discarded (h : Reachable creditCapacity w)
    (sign : .discarded processor ∈ w.signs) : processor ∉ w.state.processors := fun member =>
  (gone_of_discarded h sign).2 _ (registered_of_processors h member 0)

theorem Posted.not_member_of_discarded (h' : Reachable creditCapacity w')
    (posted : w.Posted moment w') (sign : .discarded processor ∈ moment.turn.signs) :
    processor ∉ w'.state.processors := by
  apply World.not_member_of_discarded h'
  rw [posted.signs]
  exact List.mem_append_right _ (List.mem_append_right _ sign)

/-- A processor that is new has just been built. -/
theorem Posted.built_of_new (h : Reachable creditCapacity w) (posted : w.Posted moment w')
    (h' : Reachable creditCapacity w') (here : processor ∈ w'.state.processors)
    (new : processor ∉ w.state.processors) : moment.built? = some processor := by
  have hbuilt := built_of_member h' here
  rw [posted.built, List.mem_append, Option.mem_toList] at hbuilt
  refine hbuilt.resolve_left fun hold => ?_
  have hlt := (consistent_of_reachable h).built processor hold
  rcases posted.moves.registered_back (registered_of_processors h' here 0) with hheld | hnew
  · obtain ⟨bucket, hget, hmember⟩ := State.registered_mem_owed.1 hheld
    exact new (State.mem_processors.2 ⟨_, bucket, hget, hmember⟩)
  · exact absurd hlt (Nat.not_lt.2 hnew)

theorem unreferenced_iff (h : Reachable creditCapacity w) (id : ProcessorId) :
    w.state.isUnreferenced id = true ↔
      w.state.indexedOn id = [] ∧ w.state.addingOn id = [] := by
  have hcount : (w.state.ledger 0).references id =
      (w.state.indexedOn id).length + (w.state.addingOn id).length := references_eq h id
  have hzero : w.state.isUnreferenced id = true ↔ (w.state.ledger 0).references id = 0 :=
    State.isUnreferenced_iff (consistent_of_reachable h).orderly
  rw [hzero, hcount, Nat.add_eq_zero_iff, List.length_eq_zero_iff, List.length_eq_zero_iff]

theorem referenced_of_index (h : Reachable creditCapacity w)
    (found : w.state.index.get? key = some entry) :
    w.state.isUnreferenced entry.processor.id = false := by
  rw [← Bool.not_eq_true, unreferenced_iff h]
  rintro ⟨hnone, -⟩
  have hmem : key ∈ w.state.indexedOn entry.processor.id :=
    mem_keysWhere.2 ⟨entry, found, by simp⟩
  rw [hnone] at hmem
  cases hmem

theorem referenced_of_noted (h : Reachable creditCapacity w) {operation : OperationId}
    {connection : ConnectionId} {reply : Ticket} {closed : Bool}
    (noted : w.state.continuations.get? operation =
      some (.subscribe key connection processor reply closed)) :
    w.state.isUnreferenced processor.id = false := by
  rw [← Bool.not_eq_true, unreferenced_iff h]
  rintro ⟨-, hnone⟩
  have hmem : operation ∈ w.state.addingOn processor.id :=
    mem_keysWhere.2 ⟨_, noted, by simp⟩
  rw [hnone] at hmem
  cases hmem

/-- A processor with references is that of an index entry, or of an addition under way. -/
theorem referenced_cases (h : Reachable creditCapacity w)
    (member : processor ∈ w.state.processors)
    (referenced : w.state.isUnreferenced processor.id = false) :
    (∃ key entry, w.state.index.get? key = some entry ∧ entry.processor = processor) ∨
      ∃ operation key connection reply closed, w.state.continuations.get? operation =
        some (.subscribe key connection processor reply closed) := by
  have hconsistent := consistent_of_reachable h
  have hbuilt := built_of_member h member
  have hrefers : ¬(w.state.indexedOn processor.id = [] ∧ w.state.addingOn processor.id = []) := by
    rw [← unreferenced_iff h, referenced]
    exact Bool.false_ne_true
  rcases not_and_or.1 hrefers with hsome | hsome
  · obtain ⟨key, hkey⟩ := List.exists_mem_of_ne_nil _ hsome
    obtain ⟨entry, hentry, hid⟩ := mem_keysWhere.1 hkey
    refine .inl ⟨key, entry, hentry, ?_⟩
    exact hconsistent.distinct _ _ (routed_of_index h hentry).built hbuilt (by simpa using hid)
  · obtain ⟨operation, hoperation⟩ := List.exists_mem_of_ne_nil _ hsome
    obtain ⟨continuation, hnoted, hid⟩ := mem_keysWhere.1 hoperation
    cases continuation with
    | subscribe key connection other reply closed =>
      have hheld : ongoing (.subscribe key connection other reply closed) ∈
          (w.state.ledger 0).holdings := State.ongoing_mem_ledger.2 (.inl ⟨operation, hnoted⟩)
      have hsame : other = processor := hconsistent.distinct _ _
        (hconsistent.sound.proper _ hheld).2.1 hbuilt (by simpa using hid)
      exact .inr ⟨operation, key, connection, reply, closed, hsame ▸ hnoted⟩
    | _ => cases hid

/-! ### Index entries come and go -/

theorem Posted.untold (posted : w.Posted moment w')
    (other : ∀ message, moment.event ≠ .told message) : ¬w'.knowledge.told := by
  rintro ⟨message, htold⟩
  rw [posted.event?] at htold
  exact other message (Option.some.inj htold)

section

variable (h : Reachable creditCapacity w) (step : Step w w') (posted : w.Posted moment w')
include h step posted

/-- An index entry stays, or its processor is told to drop what it stands for, or is gone too. -/
theorem Posted.index_goes (found : w.state.index.get? key = some entry) :
    w'.state.index.get? key = some entry ∨
      .remove entry.processor key ∈ moment.withdrawals ∨
      .sweep entry.processor entry.connection ∈ moment.withdrawals ∨
      entry.processor ∉ w'.state.processors := by
  cases posted.turns (consistent_of_reachable h) step with
  | told message client =>
    rcases State.index_handle client found with hstays | hcleared | ⟨reply, rfl⟩ | rfl
    · exact .inl (posted.state ▸ hstays)
    · -- with its bucket all that belonged to it is gone
      refine .inr (.inr (.inr fun here => ?_))
      obtain ⟨bucket, hbucket, hmember⟩ := partition_of_member (h.next step) here
      rw [posted.emptied hcleared hbucket] at hmember
      cases hmember
    · refine .inr (.inl ?_)
      simp [Moment.withdrawals, found]
    · refine .inr (.inr (.inl ?_))
      exact List.mem_map.2 ⟨entry.processor, member_of_index h found, rfl⟩
  | ended operation continuation call held noted fits result =>
    exact .inl (posted.index_of_untold (posted.untold fun _ h => Event.noConfusion h) found)
  | worked event credits untold unended =>
    exact .inl (posted.index_of_untold (posted.untold untold) found)

/-- An index entry that is new is that of an addition that has just ended well, and whose
connection has not closed. -/
theorem Posted.index_new (found : w'.state.index.get? key = some entry)
    (new : w.state.index.get? key ≠ some entry) :
    ∃ operation subscription reply,
      moment.event = .ended operation (.add entry.processor subscription) (.ok ()) ∧
      w.state.continuations.get? operation =
        some (.subscribe key entry.connection entry.processor reply false) := by
  have hconsistent := consistent_of_reachable h
  have hheld' : Holding.indexed key entry ∈ (w'.state.ledger 0).holdings :=
    State.indexed_mem_ledger.2 (.inl found)
  have haccepted := (routed_of_index (h.next step) found).accepted
  rw [posted.accepted, List.mem_append, Option.mem_toList] at haccepted
  rcases haccepted with hold | hnew
  · -- what was accepted before and is active now was active before, under the same entry
    rcases standing_of_accepted h hold with hactive | hgone
    · obtain ⟨old, hold⟩ := Option.isSome_iff_exists.1 ((standing_spec h key).2.2.1.2 hactive)
      have hheld : Holding.indexed key old ∈ (w.state.ledger 0).holdings :=
        State.indexed_mem_ledger.2 (.inl hold)
      cases posted.leads_to hconsistent hheld rfl hheld' rfl
      exact absurd hold new
    · have hgone' := gone_of_gone h (.single step) hgone
      rw [standing_of_indexed (h.next step) found] at hgone'
      cases hgone'
  · obtain ⟨operation, subscription, connection, reply, closed, hevent, hnoted⟩ :=
      posted.noted_of_accepted hconsistent hnew
    obtain ⟨owner, asking⟩ := entry
    have hheld : ongoing (.subscribe key connection owner reply closed) ∈
        (w.state.ledger 0).holdings := State.ongoing_mem_ledger.2 (.inl ⟨operation, hnoted⟩)
    cases posted.leads_to hconsistent hheld rfl hheld' rfl
    exact ⟨operation, subscription, reply, hevent, hnoted⟩

/-- What a processor that stays has accepted is active, or the processor is told to drop it. -/
theorem Posted.index_of_added {operation : OperationId} {subscription : JobSubscription}
    {connection : ConnectionId} {reply : Ticket} {closed : Bool}
    (event : moment.event = .ended operation (.add processor subscription) (.ok ()))
    (noted : w.state.continuations.get? operation =
      some (.subscribe key connection processor reply closed))
    (here : processor ∈ w.state.processors) :
    w'.state.index.get? key = some ⟨processor, connection⟩ ∨
      .remove processor key ∈ moment.withdrawals := by
  cases closed with
  | true =>
    refine .inr ?_
    rw [← posted.before] at noted
    simp [Moment.withdrawals, event, noted]
  | false =>
    refine .inl ?_
    rw [posted.state, posted.turn_of_added (consistent_of_reachable h) step event noted]
    have hregistered : State.isRegistered { w.state with
        continuations := w.state.continuations.erase operation } processor = true :=
      isRegistered_of_member h here
    simp only [State.onAdded, Bool.false_eq_true, if_false, hregistered, if_true]
    exact get?_insert_self _ _ _

/-! ### References come and go -/

/-- A processor that stays and loses its last reference is told to drop what it has. -/
theorem Posted.drained_of_unreferenced (before : processor ∈ w.state.processors)
    (here : processor ∈ w'.state.processors)
    (referenced : w.state.isUnreferenced processor.id = false)
    (unreferenced : w'.state.isUnreferenced processor.id = true) :
    ∃ call ∈ moment.withdrawals, call.drained? = some processor := by
  have hconsistent := consistent_of_reachable h
  rcases referenced_cases h before referenced with
    ⟨key, entry, hentry, rfl⟩ | ⟨operation, key, connection, reply, closed, hnoted⟩
  · rcases posted.index_goes h step hentry with hstays | hremoved | hswept | hgone
    · rw [referenced_of_index (h.next step) hstays] at unreferenced
      cases unreferenced
    · exact ⟨_, hremoved, rfl⟩
    · exact ⟨_, hswept, rfl⟩
    · exact absurd here hgone
  · have hends : moment.event.ended? = some operation := by
      by_contra going
      rcases posted.goes_on hconsistent hnoted going with hgoes | hgoes
      all_goals
        rw [referenced_of_noted (h.next step) hgoes] at unreferenced
        cases unreferenced
    obtain ⟨subscription, result, -, hevent⟩ :=
      posted.added_of_ended hconsistent step hnoted hends
    cases result with
    | ok =>
      rcases posted.index_of_added h step hevent hnoted before with hactive | hremoved
      · rw [referenced_of_index (h.next step) hactive] at unreferenced
        cases unreferenced
      · exact ⟨_, hremoved, rfl⟩
    | error reason =>
      -- the last reference was given back, so that the processor is retired
      have hturn := posted.turn_of_added hconsistent step hevent hnoted
      refine absurd here (posted.not_member_of_discarded (h.next step) ?_)
      rw [posted.state, hturn] at unreferenced
      rw [hturn, State.onAdded, Turn.signs_andThen]
      refine List.mem_append_left _ (State.discarded_release ?_ unreferenced)
      exact isRegistered_of_member h before

/-- What was just built and stays has been handed something. -/
theorem Posted.referenced_of_new (here : processor ∈ w'.state.processors)
    (new : processor ∉ w.state.processors) : w'.state.isUnreferenced processor.id = false := by
  have hnew := posted.built_of_new h (h.next step) here new
  unfold Moment.built? at hnew
  split at hnew
  next operation unit runner hevent =>
    cases hnew
    rw [posted.before] at here ⊢
    have hturn : moment.turn = State.onBuilt { w.state with
        continuations := w.state.continuations.erase operation } unit (.ok runner) := by
      cases posted.turns (consistent_of_reachable h) step with
      | told message => cases hevent
      | ended other continuation call held noted fits result =>
        cases hevent
        cases continuation with
        | build unit' =>
          cases fits
          simp only [State.handle, State.resume, noted, Call.outcome]
        | _ => cases fits
      | worked event credits untold unended =>
        cases hevent
        cases unended
    rcases State.handed_onBuilt { w.state with
        continuations := w.state.continuations.erase operation } unit runner with
      hspared | ⟨other, subscription, hcall⟩
    · rw [← hturn] at hspared
      exact absurd here (posted.not_member_of_discarded (h.next step) hspared)
    · rw [← hturn] at hcall
      obtain ⟨continuation, hnoted, hfits⟩ := posted.notes.held _ hcall
      cases continuation with
      | subscribe key connection processor reply closed =>
        obtain ⟨rfl, -⟩ := hfits
        rw [← posted.state] at hnoted
        exact referenced_of_noted (h.next step) hnoted
      | _ => cases hfits
  next => cases hnew

/-- A processor without references that reports to hold nothing is retired. -/
theorem Posted.retired_of_emptied {operation : OperationId} {call : Call}
    {result : Except String call.Success} (event : moment.event = .ended operation call result)
    (emptied : call.emptied? result = some processor) (before : processor ∈ w.state.processors)
    (unreferenced : w.state.isUnreferenced processor.id = true) :
    processor ∉ w'.state.processors := by
  refine posted.not_member_of_discarded (h.next step) ?_
  cases posted.turns (consistent_of_reachable h) step with
  | told message => cases event
  | ended other continuation call' held noted fits result' =>
    cases event
    have hregistered : State.isRegistered { w.state with
        continuations := w.state.continuations.erase operation } processor = true :=
      isRegistered_of_member h before
    simp only [State.handle, State.resume, noted]
    unfold Call.emptied? at emptied
    split at emptied
    next =>
      cases emptied
      cases continuation with
      | unsubscribe =>
        cases fits
        exact State.discarded_onRemoved hregistered unreferenced _
      | sweep =>
        cases fits
        exact State.discarded_onSwept hregistered unreferenced
      | _ => cases fits
    next =>
      cases emptied
      cases continuation with
      | sweep =>
        cases fits.1
        exact State.discarded_onSwept hregistered unreferenced
      | _ => cases fits
    next => cases emptied
  | worked event' credits untold unended =>
    cases event
    cases unended

end

end World

end JobBroker.Manager
