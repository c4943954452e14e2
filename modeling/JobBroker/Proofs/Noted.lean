import JobBroker.Proofs.Closings

/-!
# What is noted of a call

What a turn notes it notes under new numbers. What was noted of a call before stays as it is until
the call ends; only the close of a connection marks the additions that are on their way for it.
-/

namespace JobBroker.Manager

open Table

/-- A turn that leaves what was noted under old numbers as it is. -/
structure Turn.Retains (s : State) (turn : Turn) : Prop where
  later : s.nextOperation ≤ turn.state.nextOperation
  kept : ∀ operation : OperationId, operation.val < s.nextOperation →
    turn.state.continuations.get? operation = s.continuations.get? operation

namespace Turn.Retains

variable {s : State} {turn : Turn}

theorem since {s' : State} (h : turn.Retains s')
    (continuations : s'.continuations = s.continuations)
    (next : s'.nextOperation = s.nextOperation) : turn.Retains s := by
  refine ⟨next ▸ h.later, fun operation old => ?_⟩
  rw [h.kept operation (next.symm ▸ old), continuations]

theorem rest (s : State) : s.rest.Retains s := ⟨Nat.le_refl _, fun _ _ => rfl⟩

theorem settle (s : State) (reply : Ticket) (result : Result) :
    (s.settle reply result).Retains s := ⟨Nat.le_refl _, fun _ _ => rfl⟩

theorem settle? (s : State) (reply : Option Ticket) (result : Result) :
    (s.settle? reply result).Retains s := by
  cases reply with
  | none => exact rest s
  | some reply => exact settle s reply result

theorem settleAll (s : State) (replies : List Ticket) (result : Result) :
    (s.settleAll replies result).Retains s := ⟨Nat.le_refl _, fun _ _ => rfl⟩

theorem issue (s : State) (continuation : Continuation) (call : Call) :
    (s.issue continuation call).Retains s := by
  refine ⟨Nat.le_succ _, fun operation old => ?_⟩
  have hold : operation ≠ ⟨s.nextOperation⟩ := by
    rintro rfl
    exact Nat.lt_irrefl _ old
  simp only [State.issue, get?_insert, if_neg hold]

theorem andThen {next : State → Turn} (h : turn.Retains s)
    (h' : (next turn.state).Retains turn.state) : (turn.andThen next).Retains s where
  later := Nat.le_trans h.later h'.later
  kept operation old :=
    (h'.kept operation (Nat.lt_of_lt_of_le old h.later)).trans (h.kept operation old)

theorem forEach {α : Type} {act : State → α → Turn} (each : ∀ s item, (act s item).Retains s)
    (items : List α) (s : State) : (s.forEach items act).Retains s := by
  induction items generalizing s with
  | nil => exact rest s
  | cons item items ih => exact andThen (each s item) (ih _)

end Turn.Retains

namespace State

open Turn

variable (s : State)

theorem retains_failPending (key : UnitKey) (error : SubscriptionError) :
    (s.failPending key error).Retains s := (Retains.settleAll _ _ _).since rfl rfl

theorem retains_startBuild (key : UnitKey) : (s.startBuild key).Retains s := by
  unfold startBuild
  split
  next => exact retains_failPending s key _
  next => exact .issue s _ _

theorem retains_startDeferred (key : UnitKey) : (s.startDeferred key).Retains s := by
  unfold startDeferred
  split
  next => exact .rest s
  next => exact (Retains.rest _).since rfl rfl
  next => exact retains_startBuild s key

theorem retains_forward (processor : Processor) (waiting : Waiting) :
    (s.forward processor waiting).Retains s := (Retains.issue _ _ _).since rfl rfl

theorem retains_teardown (processor : Processor) (reply : Option Ticket) :
    (s.teardown processor reply).Retains s := (Retains.issue _ _ _).since rfl rfl

theorem retains_retire (processor : Processor) (reply : Option Ticket) :
    (s.retire processor reply).Retains s := by
  unfold retire
  split
  next => exact (retains_teardown _ processor reply).since rfl rfl
  next => exact .settle? s reply _

theorem retains_dropReference (id : ProcessorId) {turn : Turn}
    (h : turn.Retains (s.dropReference id)) : turn.Retains s := by
  have hframe := dropReference_eq s id
  have hcontinuations := congrArg State.continuations hframe
  have hnext := congrArg State.nextOperation hframe
  exact h.since hcontinuations hnext

theorem retains_release (processor : Processor) : (s.release processor).Retains s := by
  refine retains_dropReference s processor.id ?_
  unfold release
  dsimp only
  split
  next => exact retains_retire _ processor none
  next => exact .rest _

theorem retains_discardBucket (partition : PartitionId) (bucket : Option Bucket) :
    (s.discardBucket partition bucket).Retains s := by
  have hframe := unindexAll_eq (s.index.keysWhere fun entry =>
    entry.processor.partition = partition) s
  have hcontinuations := congrArg State.continuations hframe
  have hnext := congrArg State.nextOperation hframe
  have hbegin : ∀ {turn : Turn}, turn.Retains (s.purge fun entry =>
      entry.processor.partition = partition) → turn.Retains s :=
    fun h => h.since hcontinuations hnext
  cases bucket with
  | none => exact hbegin (.rest _)
  | some bucket =>
    exact hbegin (.forEach (fun s processor => retains_teardown s processor none) _ _)

/-! ### Ended calls -/

theorem retains_onBuilt (unit : ActivationUnit) (result : Except String Runner) :
    (s.onBuilt unit result).Retains s := by
  unfold onBuilt
  split
  next => exact retains_failPending s unit.key _
  next =>
    dsimp only
    split
    next => exact (retains_teardown _ _ none).since rfl rfl
    next =>
      split
      next =>
        exact Retains.since (.andThen (.settleAll _ _ _) (retains_teardown _ _ none)) rfl rfl
      next =>
        exact (Retains.forEach (fun s waiting => retains_forward s _ waiting) _ _).since rfl rfl

theorem retains_onAdded (key : SubscriberKey) (connection : ConnectionId) (processor : Processor)
    (reply : Ticket) (closed : Bool) (result : Except String Unit) :
    (s.onAdded key connection processor reply closed result).Retains s := by
  unfold onAdded
  split
  next => exact .andThen (retains_release s processor) (.settle _ reply _)
  next =>
    split
    next => exact .andThen (.settle s reply _) (retains_dropReference _ _ (.issue _ _ _))
    next =>
      split
      next => exact (Retains.settle _ reply _).since rfl rfl
      next => exact .andThen (retains_release s processor) (.settle _ reply _)

theorem retains_onRemoved (processor : Processor) (reply : Ticket)
    (result : Except String Bool) : (s.onRemoved processor reply result).Retains s := by
  unfold onRemoved
  split
  next => exact .settle s reply _
  next =>
    split
    next => exact retains_retire s processor _
    next => exact .settle s reply _

theorem retains_onSwept (processor : Processor) (result : Except String Bool) :
    (s.onSwept processor result).Retains s := by
  unfold onSwept
  split
  next => exact .rest s
  next =>
    split
    next => exact retains_retire s processor _
    next => exact .rest s

theorem retains_onTornDown (processor : Processor) (reply : Option Ticket)
    (result : Except String Unit) : (s.onTornDown processor reply result).Retains s := by
  unfold onTornDown
  refine .andThen (.settle? s reply _) ?_
  rw [state_settle?]
  split
  next => exact retains_startDeferred s processor.key
  next =>
    split
    next => exact (Retains.rest _).since rfl rfl
    next => exact (retains_startDeferred _ processor.key).since rfl rfl

theorem retains_resume {operation : OperationId} {continuation : Continuation}
    (noted : s.continuations.get? operation = some continuation) (outcome : Outcome) :
    (s.resume operation outcome).Retains
      { s with continuations := s.continuations.erase operation } := by
  unfold resume
  rw [noted]
  dsimp only
  split
  next => exact retains_onBuilt _ _ _
  next => exact retains_onAdded _ _ _ _ _ _ _
  next => exact retains_onRemoved _ _ _ _
  next => exact retains_onTornDown _ _ _ _
  next => exact retains_onSwept _ _ _
  next => exact .rest _

/-! ### Messages -/

theorem retains_subscribe (subscription : JobSubscription) (reply : Ticket) :
    (s.subscribe subscription reply).Retains s := by
  unfold subscribe
  split
  next => exact .settle s reply _
  next =>
    dsimp only
    split
    next => exact (retains_forward _ _ _).since rfl rfl
    next =>
      split
      next => exact (Retains.rest _).since rfl rfl
      next =>
        split
        next => exact (Retains.rest _).since rfl rfl
        next => exact (retains_startBuild _ _).since rfl rfl

theorem retains_unsubscribe (key : SubscriberKey) (reply : Ticket) :
    (s.unsubscribe key reply).Retains s := by
  unfold unsubscribe
  split
  next => exact .settle s reply _
  next =>
    have hframe := unindex_eq s key
    have hcontinuations := congrArg State.continuations hframe
    have hnext := congrArg State.nextOperation hframe
    exact (Retains.issue _ _ _).since hcontinuations hnext

theorem retains_connectionClosed (connection : ConnectionId) :
    (s.connectionClosed connection).Retains
      { s with continuations := s.continuations.mapValues fun _ c => markClosed connection c } := by
  have hframe := unindexAll_eq (s.index.keysWhere fun entry => entry.connection = connection) s
  have hcontinuations := congrArg State.continuations hframe
  have hnext := congrArg State.nextOperation hframe
  unfold connectionClosed
  refine Retains.since (.andThen (.settleAll _ _ _)
    (.forEach (fun s processor => .issue s _ _) _ _)) ?_ hnext
  exact congrArg (mapValues fun _ c => markClosed connection c) hcontinuations

/-- What is noted after a message has been handled of a call that was made before. -/
theorem noted_handle {message : Message} (client : message.fromClient = true)
    {operation : OperationId} (old : operation.val < s.nextOperation) :
    (s.handle message).state.continuations.get? operation = s.continuations.get? operation ∨
      ∃ connection, message = .connectionClosed connection ∧
        (s.handle message).state.continuations.get? operation =
          (s.continuations.get? operation).map (markClosed connection) := by
  cases message with
  | subscribe subscription reply =>
    exact .inl ((s.retains_subscribe subscription reply).kept operation old)
  | unsubscribe key reply => exact .inl ((s.retains_unsubscribe key reply).kept operation old)
  | addPartition partition service =>
    refine .inl ?_
    simp only [handle, addPartition]
    split
    next => rfl
    next => exact (retains_discardBucket _ _ _).kept operation old
  | removePartition partition =>
    exact .inl ((retains_discardBucket _ partition _).kept operation old)
  | connectionClosed connection =>
    refine .inr ⟨connection, rfl, ?_⟩
    exact ((s.retains_connectionClosed connection).kept operation old).trans (get?_mapValues _ _ _)
  | snapshot reply => exact .inl rfl
  | resume | shutdown => cases client

theorem markClosed_of_unpromised {continuation : Continuation} (connection : ConnectionId)
    (unpromised : continuation.promise? = none) :
    markClosed connection continuation = continuation := by
  cases continuation with
  | subscribe => cases unpromised
  | _ => rfl

end State

/-! ### Calls of a run -/

namespace World

variable {w w' : World} {moment : Moment} {creditCapacity : Nat} {operation : OperationId}
  {continuation : Continuation}

/-- What was noted of anything but an addition stays noted until the call ends. -/
theorem Posted.stays_noted (h : w.Consistent) (posted : w.Posted moment w') (step : Step w w')
    (noted : w.state.continuations.get? operation = some continuation)
    (unpromised : continuation.promise? = none) (going : moment.event.ended? ≠ some operation) :
    w'.state.continuations.get? operation = some continuation := by
  have hold := h.orderly.fresh operation continuation noted
  rw [posted.state]
  cases posted.turns h step with
  | told message client =>
    rcases w.state.noted_handle client hold with hsame | ⟨connection, -, hmarked⟩
    · exact hsame.trans noted
    · rw [hmarked, noted, Option.map_some, State.markClosed_of_unpromised connection unpromised]
  | ended operation' continuation' call held noted' fits result =>
    have hother : operation ≠ operation' := fun heq => going (congrArg some heq.symm)
    refine ((w.state.retains_resume noted' (call.outcome result)).kept operation hold).trans ?_
    rw [get?_erase, if_neg hother, noted]
  | worked event credits untold unended => exact noted

theorem noted_of_steps (h : Reachable creditCapacity w)
    (steps : Relation.ReflTransGen Step w w')
    (noted : w.state.continuations.get? operation = some continuation)
    (unpromised : continuation.promise? = none) :
    w'.state.continuations.get? operation = some continuation ∨ operation ∈ w'.endings := by
  induction steps with
  | refl => exact .inl noted
  | tail earlier step ih =>
    have hconsistent := consistent_of_reachable (reachable_of_steps h earlier)
    obtain ⟨moment, hposted⟩ := posted_of_step hconsistent step
    rw [hposted.endings, List.mem_append, Option.mem_toList]
    rcases ih with hnoted | hended
    · by_cases hends : moment.event.ended? = some operation
      · exact .inr (.inr hends)
      · exact .inl (hposted.stays_noted hconsistent step hnoted unpromised hends)
    · exact .inr (.inl hended)

/-- The future of a call that goes on is waited on. -/
theorem unsettled_of_noted (h : Reachable creditCapacity w) (own : w.requests.Nodup)
    (noted : w.state.continuations.get? operation = some continuation) {reply : Ticket}
    (owed : (Holding.ongoing continuation).reply? = some reply) : reply ∉ w.settlements := by
  have hheld : Holding.ongoing continuation ∈ (w.state.ledger 0).holdings :=
    State.ongoing_mem_ledger.2 (.inl ⟨operation, noted⟩)
  have hpos : 0 < (w.state.ledger 0).count Holding.reply? reply := Ledger.count_pos hheld owed
  have hle := count_settlements_le h own reply
  exact List.count_eq_zero.1 (by omega)

end World

end JobBroker.Manager
