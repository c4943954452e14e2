import JobBroker.Proofs.Vacancies

/-!
# Registrations of partitions

A partition is registered with its log and under a service, and stays so until it is registered
anew or removed. A unit is asked for with what its partition is registered as at that time, but
when its build has ended it goes to whatever bucket there is under the id. So the two agree where
the registration was not replaced while the build was under way, and only there.
-/

namespace JobBroker

/-- What a bucket is registered as: the partition with its log, and the service. -/
def Bucket.registration (bucket : Bucket) : Partition × String :=
  (bucket.partition, bucket.service)

/-- The registration that a unit was asked for under. -/
def ActivationUnit.registration (unit : ActivationUnit) : Partition × String :=
  (unit.partition, unit.service)

theorem Bucket.registration_detach {bucket rest : Bucket} {id : ProcessorId}
    (h : bucket.detach? id = some rest) : rest.registration = bucket.registration := by
  unfold detach? at h
  split at h
  next => rw [← Option.some.inj h, registration, registration]
  next => cases h

namespace Manager

open Table

def State.registration? (s : State) (id : PartitionId) : Option (Partition × String) :=
  (s.buckets.get? id).map Bucket.registration

/-- A turn leaves every partition registered as it was, and has units built for what is
registered. -/
structure Turn.Upholds (s : State) (turn : Turn) : Prop where
  kept : ∀ partition, turn.state.registration? partition = s.registration? partition
  asked : ∀ operation unit, (operation, Call.build unit) ∈ callsOf turn.effects →
    ∃ partition, s.registration? partition = some unit.registration

namespace Turn.Upholds

variable {s s' : State} {turn : Turn}

theorem rest (s : State) : s.rest.Upholds s := ⟨fun _ => rfl, fun _ _ asked => by cases asked⟩

theorem settle (s : State) (reply : Ticket) (result : Result) : (s.settle reply result).Upholds s :=
  ⟨fun _ => rfl, fun _ _ asked => by cases asked⟩

theorem settle? (s : State) (reply : Option Ticket) (result : Result) :
    (s.settle? reply result).Upholds s := by
  cases reply with
  | none => exact rest s
  | some reply => exact settle s reply result

theorem settleAll (s : State) (replies : List Ticket) (result : Result) :
    (s.settleAll replies result).Upholds s := by
  refine ⟨fun _ => rfl, fun operation unit asked => ?_⟩
  rw [State.settleAll, callsOf_settle] at asked
  cases asked

theorem issue (s : State) (continuation : Continuation) {call : Call}
    (other : ∀ unit, call ≠ .build unit) : (s.issue continuation call).Upholds s := by
  refine ⟨fun _ => rfl, fun operation unit asked => ?_⟩
  cases List.mem_singleton.1 asked
  exact absurd rfl (other unit)

theorem andThen {next : State → Turn} (h : turn.Upholds s)
    (h' : (next turn.state).Upholds turn.state) : (turn.andThen next).Upholds s := by
  refine ⟨fun partition => (h'.kept partition).trans (h.kept partition), ?_⟩
  intro operation unit asked
  rw [effects_andThen, callsOf_append, List.mem_append] at asked
  rcases asked with hfirst | hsecond
  · exact h.asked operation unit hfirst
  · obtain ⟨partition, hfound⟩ := h'.asked operation unit hsecond
    exact ⟨partition, (h.kept partition).symm.trans hfound⟩

theorem since (h : turn.Upholds s')
    (same : ∀ partition, s'.registration? partition = s.registration? partition) :
    turn.Upholds s := by
  refine ⟨fun partition => (h.kept partition).trans (same partition), ?_⟩
  intro operation unit asked
  obtain ⟨partition, hfound⟩ := h.asked operation unit asked
  exact ⟨partition, (same partition).symm.trans hfound⟩

theorem forEach {α : Type} {act : State → α → Turn} (each : ∀ s item, (act s item).Upholds s)
    (items : List α) (s : State) : (s.forEach items act).Upholds s := by
  induction items generalizing s with
  | nil => exact rest s
  | cons item items ih => exact (each s item).andThen (ih _)

end Turn.Upholds

namespace State

variable (s : State)

theorem registration?_insert (partition other : PartitionId) (bucket : Bucket) :
    { s with buckets := s.buckets.insert partition bucket }.registration? other =
      if other = partition then some bucket.registration else s.registration? other := by
  simp only [registration?, get?_insert]
  split <;> rfl

theorem registration?_insert_same {partition : PartitionId} {bucket new : Bucket}
    (found : s.buckets.get? partition = some bucket)
    (same : new.registration = bucket.registration) (other : PartitionId) :
    { s with buckets := s.buckets.insert partition new }.registration? other =
      s.registration? other := by
  rw [registration?_insert]
  split
  next heq => rw [heq, registration?, found, Option.map_some, same]
  next => rfl

theorem registration?_erase (partition other : PartitionId) :
    { s with buckets := s.buckets.erase partition }.registration? other =
      if other = partition then none else s.registration? other := by
  simp only [registration?, get?_erase]
  split <;> rfl

theorem registration?_purge (test : IndexEntry → Bool) (partition : PartitionId) :
    (s.purge test).registration? partition = s.registration? partition := by
  rw [purge, unindexAll_eq]
  rfl

/-! ### Turns -/

theorem upholds_failPending (key : UnitKey) (error : SubscriptionError) :
    (s.failPending key error).Upholds s := Turn.Upholds.since (.settleAll _ _ _) fun _ => rfl

theorem upholds_startBuild (key : UnitKey) : (s.startBuild key).Upholds s := by
  unfold startBuild
  split
  next => exact s.upholds_failPending key _
  next bucket hbucket =>
    refine ⟨fun _ => rfl, fun operation unit asked => ?_⟩
    cases List.mem_singleton.1 asked
    exact ⟨key.partition, by rw [registration?, hbucket]; rfl⟩

theorem upholds_startDeferred (key : UnitKey) : (s.startDeferred key).Upholds s := by
  unfold startDeferred
  split
  next => exact .rest s
  next => exact .since (.rest _) fun _ => rfl
  next => exact s.upholds_startBuild key

theorem upholds_forward (processor : Processor) (waiting : Waiting) :
    (s.forward processor waiting).Upholds s :=
  Turn.Upholds.since (.issue _ _ nofun) fun _ => rfl

theorem upholds_teardown (processor : Processor) (reply : Option Ticket) :
    (s.teardown processor reply).Upholds s :=
  Turn.Upholds.since (.issue _ _ nofun) fun _ => rfl

theorem upholds_retire (processor : Processor) (reply : Option Ticket) :
    (s.retire processor reply).Upholds s := by
  unfold retire
  split
  next rest hrest =>
    obtain ⟨bucket, hbucket, hdetach⟩ := Option.bind_eq_some_iff.1 hrest
    exact (upholds_teardown _ processor reply).since
      (s.registration?_insert_same hbucket (Bucket.registration_detach hdetach))
  next => exact .settle? s reply _

theorem registration?_dropReference (id : ProcessorId) (partition : PartitionId) :
    (s.dropReference id).registration? partition = s.registration? partition := by
  rw [dropReference_eq]
  rfl

theorem upholds_release (processor : Processor) : (s.release processor).Upholds s := by
  unfold release
  dsimp only
  split
  next => exact (upholds_retire _ processor none).since (s.registration?_dropReference _)
  next => exact .since (.rest _) (s.registration?_dropReference _)

theorem upholds_discardBucket (partition : PartitionId) (bucket : Option Bucket) :
    (s.discardBucket partition bucket).Upholds s := by
  cases bucket with
  | none => exact .since (.rest _) (s.registration?_purge _)
  | some bucket =>
    exact .since (.forEach (fun s processor => s.upholds_teardown processor none) _ _)
      (s.registration?_purge _)

theorem upholds_onBuilt (unit : ActivationUnit) (result : Except String Runner) :
    (s.onBuilt unit result).Upholds s := by
  unfold onBuilt
  split
  next => exact s.upholds_failPending _ _
  next runner =>
    dsimp only
    split
    next => exact (upholds_teardown _ _ none).since fun _ => rfl
    next =>
      split
      next =>
        exact .since (.andThen (.settleAll _ _ _) (upholds_teardown _ _ none)) fun _ => rfl
      next bucket hbucket =>
        exact .since (.forEach (fun s w => s.upholds_forward _ w) _ _)
          (s.registration?_insert_same hbucket rfl)

theorem upholds_onAdded (key : SubscriberKey) (connection : ConnectionId) (processor : Processor)
    (reply : Ticket) (closed : Bool) (result : Except String Unit) :
    (s.onAdded key connection processor reply closed result).Upholds s := by
  unfold onAdded
  split
  next =>
    refine .andThen (s.upholds_release processor) ?_
    exact .settle _ reply _
  next =>
    split
    next =>
      refine .andThen (.settle s reply _) ?_
      exact .since (.issue _ _ nofun) (registration?_dropReference _ _)
    next =>
      split
      next => exact .since (.settle _ reply _) fun _ => rfl
      next =>
        refine .andThen (s.upholds_release processor) ?_
        exact .settle _ reply _

theorem upholds_onRemoved (processor : Processor) (reply : Ticket) (result : Except String Bool) :
    (s.onRemoved processor reply result).Upholds s := by
  unfold onRemoved
  split
  next => exact .settle s reply _
  next =>
    split
    next => exact s.upholds_retire processor _
    next => exact .settle s reply _

theorem upholds_onSwept (processor : Processor) (result : Except String Bool) :
    (s.onSwept processor result).Upholds s := by
  unfold onSwept
  split
  next => exact .rest s
  next =>
    split
    next => exact s.upholds_retire processor none
    next => exact .rest s

theorem upholds_onTornDown (processor : Processor) (reply : Option Ticket)
    (result : Except String Unit) : (s.onTornDown processor reply result).Upholds s := by
  unfold onTornDown
  refine .andThen (.settle? s reply _) ?_
  rw [state_settle?]
  split
  next => exact s.upholds_startDeferred _
  next =>
    split
    next => exact .since (.rest _) fun _ => rfl
    next => exact .since (upholds_startDeferred _ _) fun _ => rfl

theorem upholds_resume (operation : OperationId) (outcome : Outcome) :
    (s.resume operation outcome).Upholds s := by
  unfold resume
  split
  next => exact .rest s
  next =>
    -- what is noted is taken first, which no registration depends on
    refine .since (?_ : Turn.Upholds { s with continuations := s.continuations.erase operation } _)
      fun _ => rfl
    dsimp only
    split
    next => exact upholds_onBuilt _ _ _
    next => exact upholds_onAdded _ _ _ _ _ _ _
    next => exact upholds_onRemoved _ _ _ _
    next => exact upholds_onTornDown _ _ _ _
    next => exact upholds_onSwept _ _ _
    next => exact .rest _

theorem upholds_subscribe (subscription : JobSubscription) (reply : Ticket) :
    (s.subscribe subscription reply).Upholds s := by
  unfold subscribe
  split
  next => exact .settle s reply _
  next =>
    dsimp only
    split
    next => exact (upholds_forward _ _ _).since fun _ => rfl
    next =>
      split
      next => exact .since (.rest _) fun _ => rfl
      next =>
        split
        next => exact .since (.rest _) fun _ => rfl
        next => exact (upholds_startBuild _ _).since fun _ => rfl

theorem upholds_unsubscribe (key : SubscriberKey) (reply : Ticket) :
    (s.unsubscribe key reply).Upholds s := by
  unfold unsubscribe
  split
  next => exact .settle s reply _
  next =>
    refine .since (.issue _ _ nofun) fun partition => ?_
    rw [unindex_eq]
    rfl

theorem upholds_connectionClosed (connection : ConnectionId) :
    (s.connectionClosed connection).Upholds s := by
  rw [connectionClosed_eq]
  refine .andThen (.since (.settleAll _ _ _) (s.registration?_purge _)) ?_
  exact .forEach (fun s processor => .issue s _ fun _ heq => by cases heq) _ _

/-- A message that clears a partition changes only the registration of that one. -/
theorem registration?_handle {message : Message} {partition : PartitionId}
    (other : message.cleared? ≠ some partition) :
    (s.handle message).state.registration? partition = s.registration? partition := by
  cases message with
  | subscribe subscription reply => exact (s.upholds_subscribe subscription reply).kept partition
  | unsubscribe key reply => exact (s.upholds_unsubscribe key reply).kept partition
  | addPartition new service =>
    have hne : partition ≠ new.id := fun heq => other (congrArg some heq.symm)
    have hinsert := s.registration?_insert new.id partition { partition := new, service }
    rw [if_neg hne] at hinsert
    rw [handle, addPartition]
    split
    next => exact hinsert
    next => exact ((upholds_discardBucket _ _ _).kept partition).trans hinsert
  | removePartition old =>
    have hne : partition ≠ old := fun heq => other (congrArg some heq.symm)
    have herase := s.registration?_erase old partition
    rw [if_neg hne] at herase
    exact ((upholds_discardBucket _ _ _).kept partition).trans herase
  | connectionClosed connection => exact (s.upholds_connectionClosed connection).kept partition
  | snapshot reply => rfl
  | resume operation outcome => exact (s.upholds_resume operation outcome).kept partition
  | shutdown => rfl

theorem asked_handle {message : Message} {operation : OperationId} {unit : ActivationUnit}
    (asked : (operation, .build unit) ∈ callsOf (s.handle message).effects) :
    ∃ partition, (s.handle message).state.registration? partition = some unit.registration := by
  have hkept : ∀ {s : State} {turn : Turn}, turn.Upholds s →
      (operation, Call.build unit) ∈ callsOf turn.effects →
      ∃ partition, turn.state.registration? partition = some unit.registration := by
    intro s turn hturn hasked
    obtain ⟨partition, hfound⟩ := hturn.asked operation unit hasked
    exact ⟨partition, (hturn.kept partition).trans hfound⟩
  cases message with
  | subscribe subscription reply => exact hkept (s.upholds_subscribe subscription reply) asked
  | unsubscribe key reply => exact hkept (s.upholds_unsubscribe key reply) asked
  | addPartition new service =>
    rw [handle, addPartition] at asked ⊢
    split at asked
    next => cases asked
    next => exact hkept (upholds_discardBucket _ _ _) asked
  | removePartition old => exact hkept (upholds_discardBucket _ _ _) asked
  | connectionClosed connection => exact hkept (s.upholds_connectionClosed connection) asked
  | snapshot reply => cases asked
  | resume operation outcome => exact hkept (s.upholds_resume operation outcome) asked
  | shutdown => cases asked

end State

/-! ### Registrations in a run -/

namespace World

section

variable {w w' : World} {moment : Moment} {creditCapacity : Nat} {partition : PartitionId}
  {processor : Processor}

/-- The worlds on both sides of a moment in the history of a run. -/
theorem steps_of_history (h : Reachable creditCapacity w) {early late : List Moment}
    (history : w.history = early ++ moment :: late) :
    ∃ v v', Reachable creditCapacity v ∧ v.history = early ∧ Step v v' ∧ v.Posted moment v' ∧
      Relation.ReflTransGen Step v' w := by
  induction h generalizing late with
  | start => simp [initial] at history
  | @next w w' reached step ih =>
    obtain ⟨posting, hposted⟩ := posted_of_step (consistent_of_reachable reached) step
    rw [hposted.history] at history
    rcases List.eq_nil_or_concat late with rfl | ⟨late, last, rfl⟩
    · obtain ⟨hearly, hmoment⟩ := List.append_inj' history rfl
      rw [← List.singleton_inj.1 hmoment]
      exact ⟨w, w', reached, hearly, step, hposted, .refl⟩
    · rw [List.concat_eq_append, ← List.cons_append, ← List.append_assoc] at history
      obtain ⟨v, v', hreached, hearly, hstep, hposted', hsteps⟩ :=
        ih (List.append_inj' history rfl).1
      exact ⟨v, v', hreached, hearly, hstep, hposted', hsteps.tail step⟩

/-- What every moment of a stretch of a run keeps is true at its end. -/
theorem keep_of_steps {P : World → Prop} (h : Reachable creditCapacity w)
    (steps : Relation.ReflTransGen Step w w') {later : List Moment}
    (history : w'.history = w.history ++ later)
    (keep : ∀ v v' moment, Reachable creditCapacity v → Step v v' → v.Posted moment v' →
      moment ∈ later → P v → P v')
    (start : P w) : P w' := by
  induction steps generalizing later with
  | refl => exact start
  | @tail v v' earlier step ih =>
    have hreached := reachable_of_steps h earlier
    obtain ⟨posting, hposted⟩ := posted_of_step (consistent_of_reachable hreached) step
    obtain ⟨middle, hmiddle⟩ := history_of_steps earlier
    rw [hposted.history, ← hmiddle, List.append_assoc] at history
    have hlater := List.append_cancel_left history
    subst hlater
    refine keep v v' posting hreached step hposted (by simp) ?_
    exact ih hmiddle.symm fun u u' other hu hstep hpost hmem =>
      keep u u' other hu hstep hpost (List.mem_append_left _ hmem)

theorem Posted.registration?_eq (h : w.Consistent) (posted : w.Posted moment w')
    (step : Step w w') (other : moment.event.cleared? ≠ some partition) :
    w'.state.registration? partition = w.state.registration? partition := by
  rw [posted.state]
  cases posted.turns h step with
  | told message client => exact w.state.registration?_handle other
  | ended operation continuation call held noted fits result =>
    exact (w.state.upholds_resume operation _).kept partition
  | worked event credits untold unended => rfl

theorem Posted.registration?_of_asked (h : w.Consistent) (posted : w.Posted moment w')
    (step : Step w w') {operation : OperationId} {unit : ActivationUnit}
    (asked : (operation, .build unit) ∈ callsOf moment.turn.effects) :
    w'.state.registration? unit.partition.id = some unit.registration := by
  have hfound : ∃ partition, w'.state.registration? partition = some unit.registration := by
    rw [posted.state]
    cases posted.turns h step with
    | told message client => exact w.state.asked_handle asked
    | ended ended continuation call held noted fits result =>
      have hasked : (operation, Call.build unit) ∈
          callsOf (w.state.handle (.resume ended (call.outcome result))).effects := asked
      exact w.state.asked_handle hasked
    | worked event credits untold unended => cases asked
  obtain ⟨partition, hpartition⟩ := hfound
  obtain ⟨bucket, hbucket, hsame⟩ := Option.map_eq_some_iff.1 hpartition
  have hplaced := (posted.consistent h).orderly.placed partition bucket hbucket
  rw [show bucket.partition = unit.partition from congrArg Prod.fst hsame] at hplaced
  rw [hplaced]
  exact hpartition

/-- How a processor has come into its bucket: its unit was asked for as what its partition was
registered as, the build has ended later on, and since then the partition was neither removed nor
registered anew. -/
structure Enrolled (w : World) (processor : Processor) (early : List Moment) (asking : Moment)
    (between : List Moment) (ending : Moment) (late : List Moment) : Prop where
  history : w.history = early ++ asking :: (between ++ ending :: late)
  current : asking.turn.state.registration? processor.partition = some processor.unit.registration
  built : ∃ operation, (operation, .build processor.unit) ∈ callsOf asking.turn.effects ∧
    ending.event = .ended operation (.build processor.unit) (.ok processor.runner)
  id : processor.id = ⟨ending.before.nextProcessor⟩
  kept : ∀ moment ∈ late, moment.event.cleared? ≠ some processor.partition

theorem enrolled_of_built (h : Reachable creditCapacity w) (posted : w.Posted moment w')
    (built : moment.built? = some processor) :
    ∃ early asking between, w'.Enrolled processor early asking between moment [] := by
  unfold Moment.built? at built
  split at built
  next operation unit runner hevent =>
    cases built
    have hheld := posted.ended operation _ _ hevent
    obtain ⟨asking, hasking, hcall⟩ := List.mem_flatMap.1 (mem_outstanding.1 hheld).1
    obtain ⟨early, between, hhistory⟩ := List.append_of_mem hasking
    obtain ⟨v, v', hreached, -, hstep, hposted, -⟩ := steps_of_history h hhistory
    refine ⟨early, asking, between, ?_, ?_, ⟨operation, hcall, hevent⟩, rfl, by simp⟩
    · rw [posted.history, hhistory, List.append_assoc, List.cons_append]
    · rw [← hposted.state]
      exact hposted.registration?_of_asked (consistent_of_reachable hreached) hstep hcall
  next => cases built

theorem Enrolled.later {early between late : List Moment} {asking ending : Moment}
    (h : w.Enrolled processor early asking between ending late) (posted : w.Posted moment w')
    (stays : moment.event.cleared? ≠ some processor.partition) :
    w'.Enrolled processor early asking between ending (late ++ [moment]) where
  history := by
    rw [posted.history, h.history]
    simp
  current := h.current
  built := h.built
  id := h.id
  kept other mem := by
    rcases List.mem_append.1 mem with hold | hnew
    · exact h.kept other hold
    · rw [List.mem_singleton.1 hnew]
      exact stays

theorem enrolled_of_member (h : Reachable creditCapacity w)
    (member : processor ∈ w.state.processors) :
    ∃ early asking between ending late,
      w.Enrolled processor early asking between ending late := by
  induction h with
  | start => cases member
  | @next w w' reached step ih =>
    obtain ⟨moment, hposted⟩ := posted_of_step (consistent_of_reachable reached) step
    by_cases hold : processor ∈ w.state.processors
    · obtain ⟨early, asking, between, ending, late, henrolled⟩ := ih hold
      refine ⟨early, asking, between, ending, late ++ [moment], henrolled.later hposted ?_⟩
      -- whoever is there after a clearing is not there
      intro hcleared
      obtain ⟨bucket, hbucket, hmember⟩ := partition_of_member (reached.next step) member
      rw [hposted.emptied hcleared hbucket] at hmember
      cases hmember
    · obtain ⟨early, asking, between, henrolled⟩ := enrolled_of_built reached hposted
        (hposted.built_of_new reached (reached.next step) member hold)
      exact ⟨early, asking, between, moment, [], henrolled⟩

theorem Enrolled.registration?_eq (h : Reachable creditCapacity w) {early between late : List Moment}
    {asking ending : Moment} (enrolled : w.Enrolled processor early asking between ending late)
    (kept : ∀ moment ∈ between, moment.event.cleared? ≠ some processor.partition) :
    w.state.registration? processor.partition = some processor.unit.registration := by
  obtain ⟨v, v', hreached, hearly, hstep, hposted, hsteps⟩ :=
    steps_of_history h enrolled.history
  have hhistory : w.history = v'.history ++ (between ++ ending :: late) := by
    rw [enrolled.history, hposted.history, hearly]
    simp
  refine keep_of_steps (P := fun w => w.state.registration? processor.partition =
    some processor.unit.registration) (hreached.next hstep) hsteps hhistory ?_ ?_
  · intro u u' moment hu hustep hpost hmem hregistered
    rw [hpost.registration?_eq (consistent_of_reachable hu) hustep ?_, hregistered]
    rcases List.mem_append.1 hmem with hbetween | hending
    · exact kept moment hbetween
    · rcases List.mem_cons.1 hending with rfl | hlate
      · obtain ⟨operation, -, hevent⟩ := enrolled.built
        rw [hevent]
        exact (Option.some_ne_none _).symm
      · exact enrolled.kept moment hlate
  · rw [hposted.state]
    exact enrolled.current

/-- Whoever is registered has a unit for the partition of the bucket, which was asked for as what
that partition was registered as at the time. The unit agrees with the bucket in its log and its
service unless the partition was removed or registered anew while the build was under way. -/
theorem registered_unit (h : Reachable creditCapacity w) {bucket : Bucket}
    (found : w.state.buckets.get? partition = some bucket)
    (member : processor ∈ bucket.processors) :
    bucket.partition.id = partition ∧ processor.unit.partition.id = partition ∧
      ∃ early asking between ending late,
        w.Enrolled processor early asking between ending late ∧
        ((∀ moment ∈ between, moment.event.cleared? ≠ some partition) →
          processor.unit.partition = bucket.partition ∧
            processor.unit.service = bucket.service) := by
  have hconsistent := consistent_of_reachable h
  have hpartition : processor.partition = partition :=
    State.partition_of_registered hconsistent.sound.proper found member
  obtain ⟨early, asking, between, ending, late, henrolled⟩ :=
    enrolled_of_member h (State.mem_processors.2 ⟨partition, bucket, found, member⟩)
  refine ⟨hconsistent.orderly.placed partition bucket found, hpartition,
    early, asking, between, ending, late, henrolled, ?_⟩
  intro kept
  have hregistered := henrolled.registration?_eq h (hpartition.symm ▸ kept)
  rw [hpartition, State.registration?, found, Option.map_some, Option.some.injEq] at hregistered
  exact ⟨(congrArg Prod.fst hregistered).symm, (congrArg Prod.snd hregistered).symm⟩

end

end World

namespace Sample

open World

/-- The partition is registered anew, with another log and service, while a unit is being built. -/
def replaced : World :=
  (building.tell (.removePartition ⟨1⟩)).tell (.addPartition ⟨⟨1⟩, "new log"⟩ "other broker")

/-- The build ends, and its processor goes to the new bucket. -/
def outdated : World := replaced.finish ⟨0⟩ (.build unit) (.ok ⟨7⟩)

theorem reachable_outdated : Reachable 2 outdated :=
  ((reachable_building.next (.tell _ rfl)).next (.tell _ rfl)).next
    (.finish _ _ (by decide +kernel) _)

end Sample

namespace World

open Sample in
theorem registered_unit_sample :
    ∃ early asking between ending late,
      active.Enrolled processor early asking between ending late ∧
      ((∀ moment ∈ between, moment.event.cleared? ≠ some ⟨1⟩) →
        processor.unit.partition = unit.partition ∧ processor.unit.service = unit.service) := by
  have hfound : active.state.buckets.get? ⟨1⟩ =
      some ⟨unit.partition, unit.service, [processor]⟩ := by decide +kernel
  exact (registered_unit reachable_active hfound (List.mem_singleton_self processor)).2.2

open Sample in
/-- A unit that was asked for before its partition was registered anew is registered all the same,
and its log and service are those of before. -/
theorem registered_unit_outdated :
    ¬∀ (creditCapacity : Nat) (w : World), Reachable creditCapacity w →
      ∀ partition bucket, w.state.buckets.get? partition = some bucket →
        ∀ processor ∈ bucket.processors, processor.unit.partition = bucket.partition ∧
          processor.unit.service = bucket.service := by
  intro agrees
  have hunit := agrees 2 outdated reachable_outdated ⟨1⟩
    ⟨⟨⟨1⟩, "new log"⟩, "other broker", [processor]⟩ (by decide +kernel) processor
    (List.mem_singleton_self _)
  exact absurd hunit.2 (by decide)

end World

end Manager

end JobBroker
