import JobBroker.Proofs.Closings
import JobBroker.Proofs.Waiting

/-!
# What waits for a unit

A queue for a unit begins with a subscription that finds no processor. It grows with every further
one, loses those of a connection that closes, and is gone when the build ends. The unit is asked for
when the queue begins, or, where the unit before it is still stopping, when that has stopped.
-/

namespace JobBroker.Manager

open Table

/-! ### Asking for units -/

/-- Tells whether a call asks for the unit of a key. -/
def Call.asks (key : UnitKey) : Call → Bool
  | .build unit => unit.key = key
  | _ => false

/-- The calls of a turn that ask for the unit of a key. -/
def Turn.asks (turn : Turn) (key : UnitKey) : List (OperationId × Call) :=
  (callsOf turn.effects).filter fun call => call.2.asks key

theorem Turn.asks_andThen (turn : Turn) (next : State → Turn) (key : UnitKey) :
    (turn.andThen next).asks key = turn.asks key ++ (next turn.state).asks key := by
  simp only [asks, effects_andThen, callsOf_append, List.filter_append]

/-- The call that asks for the unit of a key, if its partition is registered. -/
def State.asking (s : State) (key : UnitKey) : List (OperationId × Call) :=
  (s.buckets.get? key.partition).toList.map fun bucket =>
    (⟨s.nextOperation⟩, .build (bucket.unit key.jobType))

/-! ### Turns that are about something else -/

/-- A turn that leaves alone what waits for a unit, and does not ask for the unit. -/
structure Turn.Passes (key : UnitKey) (s : State) (turn : Turn) : Prop where
  pending : turn.state.pending.get? key = s.pending.get? key
  asks : turn.asks key = []

namespace Turn.Passes

variable {key : UnitKey} {s : State} {turn : Turn}

theorem since {s' : State} (h : turn.Passes key s')
    (pending : s'.pending.get? key = s.pending.get? key) : turn.Passes key s :=
  ⟨h.pending.trans pending, h.asks⟩

theorem rest (key : UnitKey) (s : State) : s.rest.Passes key s := ⟨rfl, rfl⟩

theorem settle (key : UnitKey) (s : State) (reply : Ticket) (result : Result) :
    (s.settle reply result).Passes key s := ⟨rfl, rfl⟩

theorem settle? (key : UnitKey) (s : State) (reply : Option Ticket) (result : Result) :
    (s.settle? reply result).Passes key s := by
  cases reply with
  | none => exact rest key s
  | some reply => exact settle key s reply result

theorem settleAll (key : UnitKey) (s : State) (replies : List Ticket) (result : Result) :
    (s.settleAll replies result).Passes key s := by
  refine ⟨rfl, ?_⟩
  rw [Turn.asks, State.settleAll, callsOf_settle]
  rfl

theorem issue (s : State) (continuation : Continuation) {call : Call}
    (other : call.asks key = false) : (s.issue continuation call).Passes key s :=
  ⟨rfl, List.filter_cons_of_neg (by simp [other])⟩

theorem andThen {next : State → Turn} (h : turn.Passes key s)
    (h' : (next turn.state).Passes key turn.state) : (turn.andThen next).Passes key s where
  pending := h'.pending.trans h.pending
  asks := by rw [asks_andThen, h.asks, h'.asks, List.nil_append]

theorem forEach {α : Type} {act : State → α → Turn} (each : ∀ s item, (act s item).Passes key s)
    (items : List α) (s : State) : (s.forEach items act).Passes key s := by
  induction items generalizing s with
  | nil => exact rest key s
  | cons item items ih => exact andThen (each s item) (ih _)

end Turn.Passes

namespace State

open Turn

variable {key unit : UnitKey} {s : State}

/-! ### Processors -/

theorem passes_forward (s : State) (processor : Processor) (waiting : Waiting) :
    (s.forward processor waiting).Passes key s :=
  (Passes.issue (s.acquire processor.id) _ rfl).since rfl

theorem passes_teardown (s : State) (processor : Processor) (reply : Option Ticket) :
    (s.teardown processor reply).Passes key s := ⟨rfl, rfl⟩

theorem passes_retire (s : State) (processor : Processor) (reply : Option Ticket) :
    (s.retire processor reply).Passes key s := by
  unfold retire
  split
  next => exact (passes_teardown _ processor reply).since rfl
  next => exact .settle? key s reply _

theorem passes_dropReference {id : ProcessorId} {turn : Turn}
    (h : turn.Passes key (s.dropReference id)) : turn.Passes key s := by
  have hframe := dropReference_eq s id
  have hpending := congrArg State.pending hframe
  exact h.since (congrArg (get? · key) hpending)

theorem passes_release (s : State) (processor : Processor) :
    (s.release processor).Passes key s := by
  apply passes_dropReference
  unfold release
  dsimp only
  split
  next => exact passes_retire _ processor none
  next => exact .rest key _

theorem passes_discardBucket (s : State) (partition : PartitionId) (bucket : Option Bucket) :
    (s.discardBucket partition bucket).Passes key s := by
  have hframe := unindexAll_eq (s.index.keysWhere fun entry =>
    entry.processor.partition = partition) s
  have hpending := congrArg State.pending hframe
  have hbegin : ∀ {turn : Turn}, turn.Passes key (s.purge fun entry =>
      entry.processor.partition = partition) → turn.Passes key s :=
    fun h => h.since (congrArg (get? · key) hpending)
  cases bucket with
  | none => exact hbegin (.rest key _)
  | some bucket =>
    exact hbegin (.forEach (fun s processor => passes_teardown s processor none) _ _)

/-! ### Units -/

theorem pending_failPending (s : State) (unit : UnitKey) (error : SubscriptionError) :
    (s.failPending unit error).state.pending = s.pending.erase unit := rfl

theorem passes_failPending (s : State) (other : key ≠ unit) (error : SubscriptionError) :
    (s.failPending unit error).Passes key s := by
  refine (Passes.settleAll key { s with pending := s.pending.erase unit } _ _).since ?_
  rw [get?_erase, if_neg other]

theorem asks_failPending (s : State) (unit : UnitKey) (error : SubscriptionError) :
    (s.failPending unit error).asks key = [] := (Passes.settleAll key _ _ _).asks

section

variable (placed : ∀ partition bucket,
  s.buckets.get? partition = some bucket → bucket.partition.id = partition)
include placed

theorem key_unit {bucket : Bucket} (found : s.buckets.get? unit.partition = some bucket) :
    (bucket.unit unit.jobType).key = unit := by
  show UnitKey.mk bucket.partition.id unit.jobType = unit
  rw [placed _ _ found]

theorem passes_startBuild (other : key ≠ unit) : (s.startBuild unit).Passes key s := by
  unfold startBuild
  split
  next => exact passes_failPending s other _
  next bucket hbucket =>
    refine .issue s _ ?_
    rw [Call.asks, key_unit placed hbucket]
    exact decide_eq_false (Ne.symm other)

theorem passes_startDeferred (other : key ≠ unit) : (s.startDeferred unit).Passes key s := by
  unfold startDeferred
  split
  next => exact .rest key s
  next =>
    refine (Passes.rest key _).since ?_
    rw [get?_erase, if_neg other]
  next => exact passes_startBuild placed other

theorem asks_startBuild : (s.startBuild key).asks key = s.asking key := by
  unfold startBuild
  rw [asking]
  cases hbucket : s.buckets.get? key.partition with
  | none => exact asks_failPending s key _
  | some bucket =>
    refine List.filter_cons_of_pos ?_
    exact decide_eq_true (key_unit placed hbucket)

theorem asks_startDeferred : (s.startDeferred key).asks key =
    if (s.pending.get? key).getD [] = [] then [] else s.asking key := by
  unfold startDeferred
  split
  next hnone => rw [hnone]; rfl
  next hempty => rw [hempty]; rfl
  next waiting queue hqueue =>
    rw [asks_startBuild placed, hqueue]
    rfl

end

/-- A unit is asked for if its partition is registered; else what waits for it waits no longer. -/
theorem pending_startBuild (s : State) (key : UnitKey) :
    (s.startBuild key).state.pending.get? key =
      (s.pending.get? key).filter fun _ => s.buckets.contains key.partition := by
  unfold startBuild
  rw [Table.contains]
  cases s.buckets.get? key.partition with
  | none =>
    rw [pending_failPending, get?_erase_self]
    cases s.pending.get? key <;> rfl
  | some bucket =>
    show s.pending.get? key = _
    cases s.pending.get? key <;> rfl

/-- Where a teardown has ended a queue goes on if something is in it. -/
theorem pending_startDeferred (s : State) (key : UnitKey) :
    (s.startDeferred key).state.pending.get? key = (s.pending.get? key).filter fun queue =>
      queue ≠ [] ∧ s.buckets.contains key.partition := by
  unfold startDeferred
  split
  next hnone => rw [hnone]; exact hnone
  next hempty =>
    rw [hempty]
    exact get?_erase_self _ _
  next waiting queue hqueue =>
    rw [pending_startBuild, hqueue]
    simp [Option.filter]

/-! ### Ended calls -/

theorem passes_onBuilt (s : State) (unit : ActivationUnit) (result : Except String Runner) :
    (s.onBuilt unit result).Passes key { s with pending := s.pending.erase unit.key } := by
  unfold onBuilt
  split
  next => exact .settleAll key _ _ _
  next =>
    dsimp only
    split
    next => exact (passes_teardown _ _ none).since rfl
    next =>
      split
      next => exact Passes.since (.andThen (.settleAll key _ _ _) (passes_teardown _ _ none)) rfl
      next => exact (Passes.forEach (fun s waiting => passes_forward s _ waiting) _ _).since rfl

theorem passes_onAdded (s : State) (subscriber : SubscriberKey) (connection : ConnectionId)
    (processor : Processor) (reply : Ticket) (closed : Bool) (result : Except String Unit) :
    (s.onAdded subscriber connection processor reply closed result).Passes key s := by
  unfold onAdded
  split
  next => exact .andThen (passes_release s processor) (.settle key _ reply _)
  next =>
    split
    next => exact .andThen (.settle key s reply _) (passes_dropReference (.issue _ _ rfl))
    next =>
      split
      next => exact (Passes.settle key _ reply _).since rfl
      next => exact .andThen (passes_release s processor) (.settle key _ reply _)

theorem passes_onRemoved (s : State) (processor : Processor) (reply : Ticket)
    (result : Except String Bool) : (s.onRemoved processor reply result).Passes key s := by
  unfold onRemoved
  split
  next => exact .settle key s reply _
  next =>
    split
    next => exact passes_retire s processor _
    next => exact .settle key s reply _

theorem passes_onSwept (s : State) (processor : Processor) (result : Except String Bool) :
    (s.onSwept processor result).Passes key s := by
  unfold onSwept
  split
  next => exact .rest key s
  next =>
    split
    next => exact passes_retire s processor _
    next => exact .rest key s

section

variable (placed : ∀ partition bucket,
  s.buckets.get? partition = some bucket → bucket.partition.id = partition)
include placed

theorem passes_onTornDown {processor : Processor} (other : key ≠ processor.key)
    (reply : Option Ticket) (result : Except String Unit) :
    (s.onTornDown processor reply result).Passes key s := by
  unfold onTornDown
  refine .andThen (.settle? key s reply _) ?_
  rw [state_settle?]
  split
  next => exact passes_startDeferred placed other
  next =>
    split
    next => exact (Passes.rest key _).since rfl
    next =>
      exact (passes_startDeferred (s := { s with retiring := s.retiring.erase processor.key })
        placed other).since rfl

/-- The last teardown of a unit goes on with what waits for the next one. -/
theorem queue_onTornDown {processor : Processor}
    (last : ∀ count, s.retiring.get? processor.key = some count → count = 1)
    (reply : Option Ticket) (result : Except String Unit) :
    (s.onTornDown processor reply result).state.pending.get? processor.key =
        ((s.pending.get? processor.key).filter fun queue =>
          queue ≠ [] ∧ s.buckets.contains processor.key.partition) ∧
      (s.onTornDown processor reply result).asks processor.key =
        if (s.pending.get? processor.key).getD [] = [] then []
        else s.asking processor.key := by
  unfold onTornDown
  rw [asks_andThen, (Passes.settle? processor.key s reply _).asks, List.nil_append, state_andThen,
    state_settle?]
  split
  next => exact ⟨pending_startDeferred s _, asks_startDeferred placed⟩
  next count hcount =>
    rw [if_neg (by rw [last count hcount]; decide)]
    exact ⟨pending_startDeferred { s with retiring := s.retiring.erase processor.key } _,
      asks_startDeferred (s := { s with retiring := s.retiring.erase processor.key }) placed⟩

/-! ### Messages -/

theorem passes_subscribe {subscription : JobSubscription} (other : key ≠ subscription.unitKey)
    (reply : Ticket) : (s.subscribe subscription reply).Passes key s := by
  have hinsert : ∀ queue, (s.pending.insert subscription.unitKey queue).get? key =
      s.pending.get? key := fun queue => by rw [get?_insert, if_neg other]
  unfold subscribe
  split
  next => exact .settle key s reply _
  next =>
    dsimp only
    split
    next => exact (passes_forward _ _ _).since rfl
    next =>
      split
      next => exact (Passes.rest key _).since (hinsert _)
      next =>
        split
        next => exact (Passes.rest key _).since (hinsert _)
        next => exact Passes.since (passes_startBuild (by exact placed) other) (hinsert _)

/-- A subscription waits in the queue for its unit, which is asked for with the first one. -/
theorem queue_subscribe {subscription : JobSubscription} {bucket : Bucket}
    (found : s.buckets.get? subscription.partition = some bucket)
    (vacant : s.processor? subscription.unitKey = none) (reply : Ticket) :
    (s.subscribe subscription reply).state.pending.get? subscription.unitKey =
        some ((s.pending.get? subscription.unitKey).getD [] ++
          [s.newcomer subscription reply]) ∧
      (s.subscribe subscription reply).asks subscription.unitKey =
        if s.pending.contains subscription.unitKey ∨ s.retiring.contains subscription.unitKey then
          []
        else s.asking subscription.unitKey := by
  have hnone : bucket.byJobType? subscription.jobType = none := by
    rw [processor?, show subscription.unitKey.partition = subscription.partition from rfl, found,
      Option.bind_some] at vacant
    exact vacant
  have hpending : ∀ queue, (s.pending.insert subscription.unitKey queue).get?
      subscription.unitKey = some queue := fun queue => get?_insert_self _ _ _
  unfold subscribe
  rw [found]
  dsimp only
  rw [hnone]
  dsimp only
  split
  next queue hqueue =>
    have hqueue : s.pending.get? subscription.unitKey = some queue := hqueue
    rw [if_pos (.inl (by rw [Table.contains, hqueue]; rfl)), hqueue]
    exact ⟨hpending _, rfl⟩
  next hqueue =>
    have hqueue : s.pending.get? subscription.unitKey = none := hqueue
    rw [hqueue]
    split
    next hretiring => exact ⟨hpending _, (if_pos (.inr hretiring)).symm⟩
    next hrested =>
      have hnew : ¬(s.pending.contains subscription.unitKey = true ∨
          s.retiring.contains subscription.unitKey = true) := by
        rw [Table.contains, hqueue]
        exact not_or.2 ⟨Bool.false_ne_true, hrested⟩
      rw [if_neg hnew]
      refine ⟨?_, asks_startBuild (by exact placed)⟩
      refine (pending_startBuild _ subscription.unitKey).trans ?_
      show ((s.pending.insert subscription.unitKey [s.newcomer subscription reply]).get?
        subscription.unitKey).filter (fun _ => s.buckets.contains subscription.partition) = _
      rw [hpending, Table.contains, found]
      rfl

end

/-- A subscription that finds its processor does not wait. -/
theorem passes_subscribe_served {subscription : JobSubscription} {processor : Processor}
    (serves : s.processor? subscription.unitKey = some processor) (reply : Ticket) :
    (s.subscribe subscription reply).Passes key s := by
  obtain ⟨bucket, hbucket, hprocessor⟩ := Option.bind_eq_some_iff.1 serves
  have hfound : s.buckets.get? subscription.partition = some bucket := hbucket
  have hserves : bucket.byJobType? subscription.jobType = some processor := hprocessor
  unfold subscribe
  rw [hfound]
  dsimp only
  rw [hserves]
  exact (passes_forward _ _ _).since rfl

theorem passes_unsubscribe (s : State) (subscriber : SubscriberKey) (reply : Ticket) :
    (s.unsubscribe subscriber reply).Passes key s := by
  unfold unsubscribe
  split
  next => exact .settle key s reply _
  next =>
    have hframe := unindex_eq s subscriber
    have hpending := congrArg State.pending hframe
    exact (Passes.issue (s.unindex subscriber) _ rfl).since (congrArg (get? · key) hpending)

theorem passes_addPartition (s : State) (partition : Partition) (service : String) :
    (s.addPartition partition service).Passes key s := by
  unfold addPartition
  dsimp only
  split
  next => exact (Passes.rest key _).since rfl
  next => exact (passes_discardBucket _ _ _).since rfl

theorem passes_removePartition (s : State) (partition : PartitionId) :
    (s.removePartition partition).Passes key s := (passes_discardBucket _ partition _).since rfl

/-- What a connection that closes leaves in the queues. -/
theorem queue_connectionClosed (s : State) (connection : ConnectionId) :
    (s.connectionClosed connection).state.pending.get? key =
        ((s.pending.get? key).map fun queue =>
          queue.filter fun waiting => waiting.subscription.connection ≠ connection) ∧
      (s.connectionClosed connection).asks key = [] := by
  refine ⟨s.pending_connectionClosed connection key, ?_⟩
  rw [connectionClosed_eq]
  exact (Passes.andThen (.settleAll key _ _ _) (.forEach (fun s _ => .issue s _ rfl) _ _)).asks

end State

/-! ### Moments -/

namespace Moment

/-- The subscription for a unit that a moment takes up. -/
def arrival? (moment : Moment) (key : UnitKey) : Option Waiting :=
  match moment.event with
  | .told (.subscribe subscription reply) =>
    if subscription.unitKey = key ∧ moment.before.buckets.contains key.partition then
      some (moment.before.newcomer subscription reply)
    else none
  | _ => none

/-- The connection that closes in a moment. -/
def closed? (moment : Moment) : Option ConnectionId :=
  match moment.event with
  | .told (.connectionClosed connection) => some connection
  | _ => none

/-- The queue for a unit after a moment. -/
def queued (moment : Moment) (key : UnitKey) : Option (List Waiting) :=
  let queue? := moment.before.pending.get? key
  match moment.event with
  | .told (.subscribe _ _) =>
    match moment.before.processor? key, moment.arrival? key with
    | none, some waiting => some (queue?.getD [] ++ [waiting])
    | _, _ => queue?
  | .told (.connectionClosed connection) => queue?.map fun queue =>
    queue.filter fun waiting => waiting.subscription.connection ≠ connection
  | .ended _ (.build unit) _ => if unit.key = key then none else queue?
  | .ended _ (.teardown processor) _ =>
    if processor.key = key then
      queue?.filter fun queue => queue ≠ [] ∧ moment.before.buckets.contains key.partition
    else queue?
  | _ => queue?

/-- The calls of a moment that ask for the unit of a key. -/
def asks (moment : Moment) (key : UnitKey) : List (OperationId × Call) :=
  let queue? := moment.before.pending.get? key
  match moment.event with
  | .told (.subscribe subscription _) =>
    if subscription.unitKey = key ∧ moment.before.processor? key = none ∧ queue? = none ∧
        moment.before.retiring.contains key = false then
      moment.before.asking key
    else []
  | .ended _ (.teardown processor) _ =>
    if processor.key = key ∧ queue?.getD [] ≠ [] then moment.before.asking key else []
  | _ => []

theorem arrival?_eq_some {moment : Moment} {key : UnitKey} {waiting : Waiting} :
    moment.arrival? key = some waiting ↔ ∃ subscription reply,
      moment.event = .told (.subscribe subscription reply) ∧ subscription.unitKey = key ∧
      moment.before.buckets.contains key.partition = true ∧
      moment.before.newcomer subscription reply = waiting := by
  unfold arrival?
  constructor
  · intro harrival
    split at harrival
    next subscription reply hevent =>
      split at harrival
      next hhere => exact ⟨_, _, hevent, hhere.1, hhere.2, Option.some.inj harrival⟩
      next => cases harrival
    next => cases harrival
  · rintro ⟨subscription, reply, hevent, hkey, hhere, rfl⟩
    rw [hevent]
    exact if_pos ⟨hkey, hhere⟩

theorem closed?_eq_some {moment : Moment} {connection : ConnectionId} :
    moment.closed? = some connection ↔ moment.event = .told (.connectionClosed connection) := by
  unfold closed?
  constructor
  · intro hclosed
    split at hclosed
    next hevent => rw [hevent, Option.some.inj hclosed]
    next => cases hclosed
  · intro hevent
    rw [hevent]

/-- A queue begins with a subscription that finds no processor. -/
theorem begins_of_queued {moment : Moment} {key : UnitKey}
    (free : moment.before.pending.get? key = none) (begins : moment.queued key ≠ none) :
    moment.before.processor? key = none ∧
      ∃ waiting, moment.arrival? key = some waiting ∧ moment.queued key = some [waiting] := by
  unfold queued at begins ⊢
  rw [free] at begins ⊢
  split at begins
  next =>
    split at begins
    next waiting hvacant harrival => exact ⟨hvacant, waiting, harrival, rfl⟩
    next => exact absurd rfl begins
  next => exact absurd rfl begins
  next => split at begins <;> exact absurd rfl begins
  next => split at begins <;> exact absurd rfl begins
  next => exact absurd rfl begins

/-- Where there is no queue, and nothing comes in, the unit is not asked for. -/
theorem asks_of_free {moment : Moment} {key : UnitKey}
    (free : moment.before.pending.get? key = none) (absent : moment.arrival? key = none) :
    moment.asks key = [] := by
  unfold asks
  rw [free]
  split
  next subscription reply hevent =>
    dsimp only
    split
    next hnew =>
      have hgone : ¬moment.before.buckets.contains key.partition = true := by
        intro hregistered
        have harrival := arrival?_eq_some.2
          ⟨subscription, reply, hevent, hnew.1, hregistered, rfl⟩
        rw [absent] at harrival
        cases harrival
      rw [Table.contains, Option.not_isSome_iff_eq_none] at hgone
      rw [State.asking, hgone]
      rfl
    next => rfl
  next => exact if_neg fun hstopped => hstopped.2 rfl
  next => rfl

/-- A queue that a moment does not end loses those whose connection closes, and grows at its
end. -/
theorem queued_of_waits {moment : Moment} {key : UnitKey} {queue : List Waiting}
    (waiting : moment.before.pending.get? key = some queue)
    (vacant : moment.before.processor? key = none) (waits : moment.queued key ≠ none) :
    moment.queued key = some
      ((queue.filter fun waiting => moment.closed? ≠ some waiting.subscription.connection) ++
        (moment.arrival? key).toList) := by
  obtain ⟨before, event, turn⟩ := moment
  dsimp only at waiting vacant
  cases event with
  | told message =>
    cases message with
    | subscribe subscription reply =>
      cases harrival : arrival? ⟨before, .told (.subscribe subscription reply), turn⟩ key <;>
        simp [queued, closed?, vacant, waiting, harrival]
    | connectionClosed connection =>
      simp [queued, arrival?, closed?, waiting, eq_comm]
    | _ => simp [queued, arrival?, closed?, waiting]
  | ended operation call result =>
    cases call with
    | build unit =>
      by_cases hkey : unit.key = key <;>
        simp_all [queued, arrival?, closed?]
    | teardown processor =>
      by_cases hkey : processor.key = key <;>
        simp_all [queued, arrival?, closed?, Option.filter_some]
    | _ => simp [queued, arrival?, closed?, waiting]
  | _ => simp [queued, arrival?, closed?, waiting]

section

variable {moment : Moment} {key : UnitKey} {queue : List Waiting}
  (waiting : moment.before.pending.get? key = some queue)
include waiting

/-- While there is a queue its unit is asked for only where another one has stopped. -/
theorem asks_of_waiting (other : ∀ operation processor result,
    moment.event = .ended operation (.teardown processor) result → processor.key ≠ key) :
    moment.asks key = [] := by
  unfold asks
  rw [waiting]
  split
  next => exact if_neg fun hnew => nomatch hnew.2.2.1
  next operation processor result hevent =>
    exact if_neg fun hsame => other operation processor result hevent hsame.1
  next => rfl

/-- Where a unit has stopped, the next one is asked for if something in a queue waits for it and the
partition is registered; else the queue is gone. -/
theorem asks_of_stopped {operation : OperationId} {processor : Processor}
    {result : Except String Unit}
    (event : moment.event = .ended operation (.teardown processor) result)
    (same : processor.key = key) :
    (queue ≠ [] → ∀ bucket, moment.before.buckets.get? key.partition = some bucket →
      moment.asks key =
        [(⟨moment.before.nextOperation⟩, .build (bucket.unit key.jobType))] ∧
      moment.queued key = some queue) ∧
    (queue = [] ∨ moment.before.buckets.get? key.partition = none →
      moment.asks key = [] ∧ moment.queued key = none) := by
  unfold asks queued State.asking Table.contains
  rw [event, waiting]
  refine ⟨fun nonempty bucket found => ?_, fun gone => ?_⟩
  · simp [same, nonempty, found, Option.filter_some]
  · rcases gone with hempty | hgone
    · simp [same, hempty, Option.filter_some]
    · simp [same, hgone, Option.filter_some]

/-- Where a queue ends its unit is not asked for. -/
theorem asks_of_ends (ends : moment.queued key = none) : moment.asks key = [] := by
  by_cases hstopped : ∃ operation processor result,
    moment.event = .ended operation (.teardown processor) result ∧ processor.key = key
  case neg =>
    exact asks_of_waiting waiting fun operation processor result hevent hsame =>
      hstopped ⟨operation, processor, result, hevent, hsame⟩
  obtain ⟨operation, processor, result, hevent, hsame⟩ := hstopped
  obtain ⟨hasked, hdropped⟩ := asks_of_stopped waiting hevent hsame
  by_cases hempty : queue = []
  · exact (hdropped (.inl hempty)).1
  cases hbucket : moment.before.buckets.get? key.partition with
  | none => exact (hdropped (.inr hbucket)).1
  | some bucket =>
    have hqueued := (hasked hempty bucket hbucket).2
    rw [ends] at hqueued
    cases hqueued

end

end Moment

namespace World

variable {w w' : World} {moment : Moment} {creditCapacity : Nat} {key : UnitKey}

/-- What a turn does with the queue for a unit is what its moment says. -/
structure Queues (key : UnitKey) (moment : Moment) : Prop where
  pending : moment.turn.state.pending.get? key = moment.queued key
  asks : moment.turn.asks key = moment.asks key

theorem queues_of_passes (h : moment.turn.Passes key moment.before)
    (queued : moment.queued key = moment.before.pending.get? key)
    (asks : moment.asks key = []) : Queues key moment :=
  ⟨h.pending.trans queued.symm, h.asks.trans asks.symm⟩

theorem queues_subscribe {s : State} (placed : ∀ partition bucket,
    s.buckets.get? partition = some bucket → bucket.partition.id = partition)
    (subscription : JobSubscription) (reply : Ticket) (key : UnitKey) :
    Queues key ⟨s, .told (.subscribe subscription reply), s.subscribe subscription reply⟩ := by
  by_cases hkey : subscription.unitKey = key
  case neg =>
    refine queues_of_passes (State.passes_subscribe placed (Ne.symm hkey) reply) ?_ ?_
    · simp [Moment.queued, Moment.arrival?, hkey]
    · simp [Moment.asks, hkey]
  subst hkey
  cases hprocessor : s.processor? subscription.unitKey with
  | some processor =>
    refine queues_of_passes (State.passes_subscribe_served hprocessor reply) ?_ ?_
    · simp [Moment.queued, hprocessor]
    · simp [Moment.asks, hprocessor]
  | none =>
    cases hbucket : s.buckets.get? subscription.unitKey.partition with
    | none =>
      have hturn : s.subscribe subscription reply =
          s.settle reply (.error (.partitionNotFound subscription.partition)) := by
        have hnone : s.buckets.get? subscription.partition = none := hbucket
        rw [State.subscribe, hnone]
      rw [hturn]
      refine queues_of_passes (.settle _ s reply _) ?_ ?_
      · simp [Moment.queued, Moment.arrival?, Table.contains, hbucket, hprocessor]
      · simp [Moment.asks, State.asking, hbucket]
    | some bucket =>
      obtain ⟨hpending, hasks⟩ := State.queue_subscribe placed hbucket hprocessor reply
      refine ⟨hpending.trans ?_, hasks.trans ?_⟩
      · simp [Moment.queued, Moment.arrival?, Table.contains, hbucket, hprocessor]
      · cases hqueue : s.pending.get? subscription.unitKey <;>
          cases hretiring : s.retiring.get? subscription.unitKey <;>
            simp [Moment.asks, Table.contains, hprocessor, hqueue, hretiring]

theorem queues_told {s : State} (placed : ∀ partition bucket,
    s.buckets.get? partition = some bucket → bucket.partition.id = partition)
    {message : Message} (client : message.fromClient = true) (key : UnitKey) :
    Queues key ⟨s, .told message, s.handle message⟩ := by
  cases message with
  | subscribe subscription reply => exact queues_subscribe placed subscription reply key
  | unsubscribe subscriber reply =>
    exact queues_of_passes (s.passes_unsubscribe subscriber reply) rfl rfl
  | addPartition partition service =>
    exact queues_of_passes (s.passes_addPartition partition service) rfl rfl
  | removePartition partition => exact queues_of_passes (s.passes_removePartition partition) rfl rfl
  | connectionClosed connection =>
    exact ⟨(s.queue_connectionClosed connection).1, (s.queue_connectionClosed connection).2⟩
  | snapshot reply => exact queues_of_passes (.settle key s reply _) rfl rfl
  | resume | shutdown => cases client

theorem queues_ended (h : Reachable creditCapacity w) {operation : OperationId}
    {continuation : Continuation} {call : Call}
    (noted : w.state.continuations.get? operation = some continuation)
    (fits : continuation.Fits call) (result : Except String call.Success) (key : UnitKey) :
    Queues key ⟨w.state, .ended operation call result,
      w.state.handle (.resume operation (call.outcome result))⟩ := by
  let base : State := { w.state with continuations := w.state.continuations.erase operation }
  have hbase : ∀ {turn : Turn}, turn.Passes key base → turn.Passes key w.state :=
    fun hturn => hturn.since rfl
  have hplaced : ∀ partition bucket, base.buckets.get? partition = some bucket →
      bucket.partition.id = partition := (consistent_of_reachable h).orderly.placed
  rw [State.handle, State.resume, noted]
  cases continuation with
  | build unit =>
    cases call with
    | build other =>
      cases fits
      have hpasses : (base.onBuilt unit result).Passes key
          { base with pending := base.pending.erase unit.key } := base.passes_onBuilt unit result
      refine ⟨hpasses.pending.trans ?_, hpasses.asks⟩
      rw [Moment.queued, get?_erase]
      simp only [eq_comm]
      rfl
    | _ => cases fits
  | subscribe subscriber connection processor reply closed =>
    cases call with
    | add other subscription =>
      exact queues_of_passes (hbase (base.passes_onAdded _ _ _ _ _ result)) rfl rfl
    | _ => cases fits
  | unsubscribe processor reply =>
    cases call with
    | remove other subscriber =>
      exact queues_of_passes (hbase (base.passes_onRemoved _ _ result)) rfl rfl
    | _ => cases fits
  | teardown processor reply =>
    cases call with
    | teardown other =>
      cases fits
      by_cases hkey : processor.key = key
      · subst hkey
        have hlast : ∀ count, base.retiring.get? processor.key = some count → count = 1 :=
          fun count hcount => retiring_eq_one h hcount
        obtain ⟨hpending, hasks⟩ := base.queue_onTornDown hplaced hlast reply result
        refine ⟨hpending.trans ?_, hasks.trans ?_⟩
        · simp [Moment.queued, base]
        · simp only [Moment.asks, true_and, ne_eq, ite_not]
          rfl
      · have hpasses := State.passes_onTornDown hplaced (Ne.symm hkey) reply result
        refine queues_of_passes (hbase hpasses) ?_ ?_
        · simp [Moment.queued, hkey]
        · simp [Moment.asks, hkey]
    | _ => cases fits
  | sweep processor connection =>
    cases call with
    | remove other subscriber =>
      exact queues_of_passes (hbase (base.passes_onSwept _ result)) rfl rfl
    | sweep other connection' =>
      exact queues_of_passes (hbase (base.passes_onSwept _ result)) rfl rfl
    | _ => cases fits

theorem Posted.queues (h : Reachable creditCapacity w) (posted : w.Posted moment w')
    (step : Step w w') (key : UnitKey) : Queues key moment := by
  have hconsistent := consistent_of_reachable h
  cases posted.turns hconsistent step with
  | told message client => exact queues_told hconsistent.orderly.placed client key
  | ended operation continuation call held noted fits result =>
    exact queues_ended h noted fits result key
  | worked event credits untold unended =>
    cases event with
    | told message => exact absurd rfl (untold message)
    | ended => cases unended
    | _ => exact ⟨rfl, rfl⟩

/-! ### Runs -/

/-- What has happened in a later world that had not happened before. -/
def since (w v : World) : List Moment := v.history.drop w.history.length

theorem since_self (w : World) : w.since w = [] := List.drop_length ..

theorem Posted.since {v v' : World} (posted : v.Posted moment v')
    (steps : Relation.ReflTransGen Step w v) : w.since v' = w.since v ++ [moment] := by
  rw [World.since, posted.history, List.drop_append_of_le_length (history_of_steps steps).length_le]
  rfl

theorem contains_retiring (h : Reachable creditCapacity w) (key : UnitKey) :
    w.state.retiring.contains key = true ↔ w.state.teardowns key ≠ [] := by
  have hretiring := retiring_eq_length h key
  rw [← List.length_pos_iff, ← hretiring, Table.contains]
  cases hcount : w.state.retiring.get? key with
  | none => simp
  | some count =>
    have hpos := (consistent_of_reachable h).orderly.retired key count hcount
    simpa using hpos

section

variable {operation : OperationId} {unit : ActivationUnit} (h : Reachable creditCapacity w)
  (held : (operation, .build unit) ∈ w.outstanding)
include h held

theorem noted_of_building : w.state.continuations.get? operation = some (.build unit) := by
  obtain ⟨continuation, hnoted, hfits⟩ := (consistent_of_reachable h).awaits _ held
  cases continuation with
  | build other =>
    cases hfits
    exact hnoted
  | _ => cases hfits

theorem waiting_of_building : ∃ queue, w.state.pending.get? unit.key = some queue := by
  rw [← Option.isSome_iff_exists]
  by_contra hfree
  have hzero := awaited_of_reachable h unit.key
  rw [Table.contains, if_neg hfree] at hzero
  have hpos := builds_of_outstanding h held
  omega

end

/-- While something waits for a unit no processor is registered for it. -/
theorem vacant_of_waits (h : Reachable creditCapacity w)
    (waits : w.state.pending.contains key = true) : w.state.processor? key = none := by
  have hone := awaited_of_reachable h key
  rw [if_pos waits] at hone
  have hexclusive := units_le_one h key
  exact processor?_eq_none (by omega)

section

variable (h : Reachable creditCapacity w) (posted : w.Posted moment w') (step : Step w w')
include h posted step

theorem Posted.queue_begins (free : w.state.pending.get? key = none)
    (waits : w'.state.pending.contains key = true) :
    w.state.processor? key = none ∧ ∃ waiting, moment.arrival? key = some waiting ∧
      w'.state.pending.get? key = some [waiting] := by
  have hpending := (posted.queues h step key).pending
  rw [← posted.state] at hpending
  rw [Table.contains, hpending, Option.isSome_iff_ne_none] at waits
  rw [← posted.before] at free ⊢
  rw [hpending]
  exact Moment.begins_of_queued free waits

/-- A queue that goes on loses those whose connection closes, and grows at its end. -/
theorem Posted.queue_goes_on {queue : List Waiting}
    (waiting : w.state.pending.get? key = some queue)
    (waits : w'.state.pending.contains key = true) : w'.state.pending.get? key = some
      ((queue.filter fun waiting => moment.closed? ≠ some waiting.subscription.connection) ++
        (moment.arrival? key).toList) := by
  have hvacant := vacant_of_waits h (by rw [Table.contains, waiting]; rfl)
  have hpending := (posted.queues h step key).pending
  rw [← posted.state] at hpending
  rw [← posted.before] at waiting hvacant
  rw [hpending]
  refine Moment.queued_of_waits waiting hvacant fun hnone => ?_
  rw [Table.contains, hpending, hnone] at waits
  cases waits

end

end World

/-! ### One run -/

namespace Sample

open World

/-- Two subscriptions wait for one unit. -/
def crowded : World := building.tell (.subscribe subscription ⟨1⟩)

def shared : World := crowded.finish ⟨0⟩ (.build unit) (.ok ⟨7⟩)

theorem reachable_crowded : Reachable 2 crowded := reachable_building.next (.tell _ rfl)

theorem reachable_shared : Reachable 2 shared :=
  reachable_crowded.next (.finish _ _ (by decide +kernel) _)

end Sample

end JobBroker.Manager
