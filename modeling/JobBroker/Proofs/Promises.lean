import JobBroker.Proofs.Worlds

/-!
# Promised keys

With its key a subscription is promised that its future will tell it, once it is active. As long as
it waits or is on its way that promise is owed. Whatever a turn does, what is owed stays owed or the
future is told an error; only where a processor has accepted the subscription it is told the key,
and there the index takes it in.
-/

namespace JobBroker.Manager

open Table

/-- A key, and the future that is to tell it. -/
abbrev Promise := SubscriberKey × Ticket

def Waiting.promise (w : Waiting) : Promise := (w.key, w.reply)

def Continuation.promise? : Continuation → Option Promise
  | .subscribe key _ _ reply _ => some (key, reply)
  | _ => none

namespace State

def Owes (s : State) (promise : Promise) : Prop :=
  (∃ unit queue, s.pending.get? unit = some queue ∧ promise ∈ queue.map Waiting.promise) ∨
    ∃ operation continuation, s.continuations.get? operation = some continuation ∧
      continuation.promise? = some promise

def Fresh (s : State) : Prop :=
  ∀ operation continuation,
    s.continuations.get? operation = some continuation → operation.val < s.nextOperation

end State

/-- What a turn does with promises, those that it has in its hands when it begins and when it ends
among them. -/
structure Turn.Answers (s : State) (hand : List Promise) (turn : Turn) (hand' : List Promise) :
    Prop where
  fresh : turn.state.Fresh
  answered : ∀ promise, promise ∈ hand ∨ s.Owes promise →
    (promise ∈ hand' ∨ turn.state.Owes promise) ∨
      ∃ error, (promise.2, .error error) ∈ settledOf turn.effects
  index : ∀ key, turn.state.index.contains key = true → s.index.contains key = true
  keyless : ∀ reply key, (reply, .ok (.key key)) ∉ settledOf turn.effects

namespace Turn.Answers

variable {s : State} {turn : Turn} {hand hand' hand'' : List Promise}

theorem rest (h : s.Fresh) (hand : List Promise) : s.rest.Answers s hand hand :=
  ⟨h, fun _ held => .inl held, fun _ held => held, fun _ _ => List.not_mem_nil⟩

theorem settle (h : s.Fresh) (reply : Ticket) {result : Result}
    (other : ∀ key, result ≠ .ok (.key key)) (hand : List Promise) :
    (s.settle reply result).Answers s hand hand :=
  ⟨h, fun _ held => .inl held, fun _ held => held, fun _ key told =>
    other key (congrArg Prod.snd (List.mem_singleton.1 told)).symm⟩

theorem settle? (h : s.Fresh) (reply : Option Ticket) {result : Result}
    (other : ∀ key, result ≠ .ok (.key key)) (hand : List Promise) :
    (s.settle? reply result).Answers s hand hand := by
  cases reply with
  | none => exact rest h hand
  | some reply => exact settle h reply other hand

theorem settledOf_settleAll (s : State) (replies : List Ticket) (result : Result) :
    settledOf (s.settleAll replies result).effects = replies.map fun reply => (reply, result) := by
  simp only [State.settleAll, settledOf, List.filterMap_map, Function.comp_def,
    List.filterMap_eq_map']

/-- Everyone in a queue is told an error. -/
theorem settleAll (h : s.Fresh) (queue : List Waiting) (error : SubscriptionError)
    (hand : List Promise) :
    (s.settleAll (queue.map Waiting.reply) (.error error)).Answers s
      (queue.map Waiting.promise ++ hand) hand := by
  refine ⟨h, ?_, fun _ held => held, ?_⟩
  · rintro promise (held | owed)
    · rcases List.mem_append.1 held with held | held
      · obtain ⟨w, hw, rfl⟩ := List.mem_map.1 held
        refine .inr ⟨error, ?_⟩
        rw [settledOf_settleAll]
        exact List.mem_map_of_mem (List.mem_map_of_mem hw)
      · exact .inl (.inl held)
    · exact .inl (.inr owed)
  · intro reply key told
    rw [settledOf_settleAll] at told
    obtain ⟨_, -, htold⟩ := List.mem_map.1 told
    cases htold

theorem fail (h : s.Fresh) (key : SubscriberKey) (reply : Ticket) (error : SubscriptionError)
    (hand : List Promise) :
    (s.settle reply (.error error)).Answers s ((key, reply) :: hand) hand := by
  refine ⟨h, ?_, fun _ held => held, fun _ _ told => by cases List.mem_singleton.1 told⟩
  rintro promise (held | owed)
  · rcases List.mem_cons.1 held with rfl | held
    · exact .inr ⟨error, List.mem_singleton_self _⟩
    · exact .inl (.inl held)
  · exact .inl (.inr owed)

theorem issue (h : s.Fresh) (continuation : Continuation) (call : Call) (hand : List Promise) :
    (s.issue continuation call).Answers s (continuation.promise?.toList ++ hand) hand := by
  refine ⟨?_, ?_, fun _ held => held, fun _ _ => List.not_mem_nil⟩
  · intro operation old hget
    simp only [State.issue, get?_insert] at hget ⊢
    split at hget
    next heq => rw [heq]; exact Nat.lt_succ_self _
    next => exact Nat.lt_succ_of_lt (h operation old hget)
  · rintro promise (held | hqueue | ⟨operation, old, hget, hpromise⟩)
    · rcases List.mem_append.1 held with held | held
      · refine .inl (.inr (.inr ⟨⟨s.nextOperation⟩, continuation, ?_, Option.mem_toList.1 held⟩))
        exact get?_insert_self _ _ _
      · exact .inl (.inl held)
    · exact .inl (.inr (.inl hqueue))
    · refine .inl (.inr (.inr ⟨operation, old, ?_, hpromise⟩))
      have hold : operation ≠ ⟨s.nextOperation⟩ := by
        rintro rfl
        exact absurd (h _ old hget) (Nat.lt_irrefl _)
      simp only [State.issue, get?_insert, if_neg hold]
      exact hget

theorem issue_other (h : s.Fresh) {continuation : Continuation} (call : Call) (hand : List Promise)
    (other : continuation.promise? = none) :
    (s.issue continuation call).Answers s hand hand := by
  have hissue := issue h continuation call hand
  rwa [other] at hissue

theorem andThen {next : State → Turn} (h : turn.Answers s hand hand')
    (h' : (next turn.state).Answers turn.state hand' hand'') :
    (turn.andThen next).Answers s hand hand'' := by
  refine ⟨h'.fresh, ?_, fun key held => h.index key (h'.index key held), ?_⟩
  · intro promise held
    simp only [effects_andThen, settledOf, List.filterMap_append, List.mem_append]
    rcases h.answered promise held with held | ⟨error, htold⟩
    · rcases h'.answered promise held with held | ⟨error, htold⟩
      · exact .inl held
      · exact .inr ⟨error, .inr htold⟩
    · exact .inr ⟨error, .inl htold⟩
  · intro reply key
    rw [effects_andThen, settledOf_append, List.mem_append, not_or]
    exact ⟨h.keyless reply key, h'.keyless reply key⟩

/-- A turn may as well begin before a change that keeps what is owed, or takes it in hand. -/
theorem since {s' : State} (h : turn.Answers s' hand' hand'')
    (owed : ∀ promise, promise ∈ hand ∨ s.Owes promise → promise ∈ hand' ∨ s'.Owes promise)
    (index : ∀ key, s'.index.contains key = true → s.index.contains key = true) :
    turn.Answers s hand hand'' :=
  ⟨h.fresh, fun promise held => h.answered promise (owed promise held),
    fun key held => index key (h.index key held), h.keyless⟩

theorem forEach {α : Type} {act : State → α → Turn}
    (each : ∀ s, s.Fresh → ∀ item, (act s item).Answers s hand hand) (h : s.Fresh)
    (items : List α) : (s.forEach items act).Answers s hand hand := by
  induction items generalizing s with
  | nil => exact rest h hand
  | cons item items ih =>
    have hfirst := each s h item
    exact hfirst.andThen (ih hfirst.fresh)

end Turn.Answers

namespace State

open Turn

variable {s : State}

/-- What is owed is read off the queues and the continuations. -/
theorem owes_congr {s' : State} (pending : s'.pending = s.pending)
    (continuations : s'.continuations = s.continuations) (promise : Promise) :
    s'.Owes promise ↔ s.Owes promise := by rw [Owes, Owes, pending, continuations]

theorem contains_purge {test : IndexEntry → Bool} {key : SubscriberKey}
    (h : (s.purge test).index.contains key = true) : s.index.contains key = true := by
  obtain ⟨entry, hentry⟩ := Option.isSome_iff_exists.1 h
  rw [Table.contains, (index_purge hentry).1, Option.isSome_some]

/-! ### The life of a processor -/

theorem answers_forward (h : s.Fresh) (processor : Processor) (w : Waiting) (hand : List Promise) :
    (s.forward processor w).Answers s (w.promise :: hand) hand :=
  (Answers.issue (s := s.acquire processor.id) h _ _ hand).since (fun _ held => held)
    fun _ held => held

theorem owes_erase_pending (s : State) (key : UnitKey) {hand : List Promise} {promise : Promise}
    (held : promise ∈ hand ∨ s.Owes promise) :
    promise ∈ ((s.pending.get? key).getD []).map Waiting.promise ++ hand ∨
      { s with pending := s.pending.erase key }.Owes promise := by
  rcases held with held | ⟨unit, queue, hget, hmem⟩ | hongoing
  · exact .inl (List.mem_append_right _ held)
  · by_cases heq : unit = key
    · subst heq
      refine .inl (List.mem_append_left _ ?_)
      rwa [hget, Option.getD_some]
    · refine .inr (.inl ⟨unit, queue, ?_, hmem⟩)
      rw [get?_erase, if_neg heq, hget]
  · exact .inr (.inr hongoing)

theorem answers_failPending (h : s.Fresh) (key : UnitKey) (error : SubscriptionError)
    (hand : List Promise) : (s.failPending key error).Answers s hand hand :=
  (Answers.settleAll (s := { s with pending := s.pending.erase key }) h _ error hand).since
    (fun _ held => owes_erase_pending s key held) fun _ held => held

theorem answers_startBuild (h : s.Fresh) (key : UnitKey) (hand : List Promise) :
    (s.startBuild key).Answers s hand hand := by
  unfold startBuild
  split
  next => exact answers_failPending h key _ hand
  next => exact .issue_other h _ hand rfl

theorem answers_startDeferred (h : s.Fresh) (key : UnitKey) (hand : List Promise) :
    (s.startDeferred key).Answers s hand hand := by
  unfold startDeferred
  split
  next => exact .rest h hand
  next hempty =>
    refine Answers.since (.rest (s := { s with pending := s.pending.erase key }) h hand)
      (fun promise held => ?_) fun _ held => held
    have hrest := owes_erase_pending s key held
    rwa [hempty] at hrest
  next => exact answers_startBuild h key hand

theorem answers_teardown (h : s.Fresh) (processor : Processor) (reply : Option Ticket)
    (hand : List Promise) : (s.teardown processor reply).Answers s hand hand := by
  let count := (s.retiring.get? processor.key).getD 0
  have hfresh : { s with retiring := s.retiring.insert processor.key (count + 1) }.Fresh := h
  exact (Answers.issue_other hfresh _ hand rfl).since (fun _ held => held) fun _ held => held

theorem answers_retire (h : s.Fresh) (processor : Processor) (reply : Option Ticket)
    (hand : List Promise) : (s.retire processor reply).Answers s hand hand := by
  unfold retire
  split
  next bucket _ =>
    have hfresh : { s with buckets := s.buckets.insert processor.partition bucket }.Fresh := h
    exact (answers_teardown hfresh processor reply hand).since (fun _ held => held)
      fun _ held => held
  next => exact .settle? h reply (fun _ h => by cases h) hand

theorem fresh_dropReference (h : s.Fresh) (id : ProcessorId) : (s.dropReference id).Fresh := by
  rw [dropReference_eq]
  exact h

/-- A turn may as well begin before references are dropped. -/
theorem answers_dropReference (id : ProcessorId) {turn : Turn} {hand hand' : List Promise}
    (h : turn.Answers (s.dropReference id) hand hand') : turn.Answers s hand hand' := by
  rw [dropReference_eq] at h
  exact h.since (fun _ held => held) fun _ held => held

theorem answers_release (h : s.Fresh) (processor : Processor) (hand : List Promise) :
    (s.release processor).Answers s hand hand := by
  have hdrop := fresh_dropReference h processor.id
  unfold release
  dsimp only
  split
  next => exact answers_dropReference processor.id (answers_retire hdrop processor none hand)
  next => exact answers_dropReference processor.id (.rest hdrop hand)

/-- A turn may as well begin before entries are taken out of the index. -/
theorem answers_purge {turn : Turn} {test : IndexEntry → Bool} {hand hand' : List Promise}
    (h : turn.Answers (s.purge test) hand hand') : turn.Answers s hand hand' := by
  have hframe := unindexAll_eq (s.index.keysWhere test) s
  have hsame := owes_congr (congrArg State.pending hframe) (congrArg State.continuations hframe)
  refine h.since ?_ fun key held => contains_purge held
  intro promise held
  exact held.imp id (hsame promise).2

theorem fresh_purge (h : s.Fresh) (test : IndexEntry → Bool) : (s.purge test).Fresh := by
  rw [purge, unindexAll_eq]
  exact h

theorem answers_tearDown (h : s.Fresh) (processors : List Processor) (hand : List Promise) :
    (s.forEach processors fun s processor => s.teardown processor none).Answers s hand hand :=
  .forEach (fun _ h processor => answers_teardown h processor none hand) h processors

theorem answers_discardBucket (h : s.Fresh) (partition : PartitionId) (bucket : Option Bucket)
    (hand : List Promise) : (s.discardBucket partition bucket).Answers s hand hand := by
  have hpurge := fresh_purge h fun entry => entry.processor.partition = partition
  cases bucket with
  | none => exact answers_purge (.rest hpurge hand)
  | some bucket => exact answers_purge (answers_tearDown hpurge bucket.processors hand)

/-! ### Ended calls -/

theorem answers_unqueue (key : UnitKey) {turn : Turn} {hand hand' : List Promise}
    (h : turn.Answers (s.unqueue key)
      (((s.pending.get? key).getD []).map Waiting.promise ++ hand) hand') :
    turn.Answers s hand hand' :=
  h.since (fun _ held => owes_erase_pending s key held) fun _ held => held

theorem answers_forwardAll (h : s.Fresh) (processor : Processor) (queue : List Waiting)
    (hand : List Promise) :
    (s.forEach queue fun s w => s.forward processor w).Answers s
      (queue.map Waiting.promise ++ hand) hand := by
  induction queue generalizing s with
  | nil => exact .rest h hand
  | cons w queue ih =>
    have hfirst := answers_forward h processor w (queue.map Waiting.promise ++ hand)
    exact hfirst.andThen (ih hfirst.fresh)

theorem answers_onBuilt (h : s.Fresh) (unit : ActivationUnit) (result : Except String Runner)
    (hand : List Promise) : (s.onBuilt unit result).Answers s hand hand := by
  have hunqueue : (s.unqueue unit.key).Fresh := h
  cases result with
  | error reason => exact answers_failPending h unit.key _ hand
  | ok runner =>
    let processor : Processor := ⟨⟨s.nextProcessor⟩, unit, runner⟩
    unfold onBuilt
    dsimp only
    split
    next hempty =>
      refine answers_unqueue unit.key ?_
      rw [List.isEmpty_iff.1 hempty]
      exact answers_teardown hunqueue processor none hand
    next =>
      split
      next =>
        have hsettle := Answers.settleAll hunqueue ((s.pending.get? unit.key).getD [])
          (.partitionNotFound processor.partition) hand
        exact answers_unqueue unit.key
          (hsettle.andThen (answers_teardown hunqueue processor none hand))
      next bucket _ =>
        have henlist : (s.enlist processor bucket).Fresh := h
        refine answers_unqueue unit.key ?_
        exact (answers_forwardAll henlist processor _ hand).since (fun _ held => held)
          fun _ held => held

section

variable (key : SubscriberKey) (connection : ConnectionId) (processor : Processor)
  (reply : Ticket) (hand : List Promise)

theorem answers_giveUp (h : s.Fresh) (error : SubscriptionError) :
    ((s.release processor).andThen fun s => s.settle reply (.error error)).Answers s
      ((key, reply) :: hand) hand := by
  have hrelease := answers_release h processor ((key, reply) :: hand)
  exact hrelease.andThen (.fail hrelease.fresh key reply error hand)

theorem answers_takeBack (h : s.Fresh) (error : SubscriptionError) :
    ((s.settle reply (.error error)).andThen fun s => s.takeBack processor key connection).Answers s
      ((key, reply) :: hand) hand := by
  refine Answers.andThen (.fail h key reply error hand) (answers_dropReference processor.id ?_)
  exact .issue_other (fresh_dropReference h processor.id) _ hand rfl

/-- An addition that does not make the subscription active. -/
theorem answers_onAdded (h : s.Fresh) {closed : Bool} {result : Except String Unit}
    (refused : closed = true ∨ result ≠ .ok () ∨ s.isRegistered processor = false) :
    (s.onAdded key connection processor reply closed result).Answers s
      ((key, reply) :: hand) hand := by
  unfold onAdded
  split
  next reason => exact answers_giveUp key processor reply hand h _
  next =>
    split
    next => exact answers_takeBack key connection processor reply hand h _
    next hopen =>
      split
      next hregistered =>
        rcases refused with hclosed | hrefused | hunregistered
        · exact absurd hclosed hopen
        · exact absurd rfl hrefused
        · rw [hregistered] at hunregistered
          cases hunregistered
      next => exact answers_giveUp key processor reply hand h _

end

theorem answers_onRemoved (h : s.Fresh) (processor : Processor) (reply : Ticket)
    (result : Except String Bool) (hand : List Promise) :
    (s.onRemoved processor reply result).Answers s hand hand := by
  unfold onRemoved
  split
  next => exact .settle h reply (fun _ h => by cases h) hand
  next =>
    split
    next => exact answers_retire h processor (some reply) hand
    next => exact .settle h reply (fun _ h => by cases h) hand

theorem answers_onSwept (h : s.Fresh) (processor : Processor) (result : Except String Bool)
    (hand : List Promise) : (s.onSwept processor result).Answers s hand hand := by
  unfold onSwept
  split
  next => exact .rest h hand
  next =>
    split
    next => exact answers_retire h processor none hand
    next => exact .rest h hand

theorem answers_onTornDown (h : s.Fresh) (processor : Processor) (reply : Option Ticket)
    (result : Except String Unit) (hand : List Promise) :
    (s.onTornDown processor reply result).Answers s hand hand := by
  unfold onTornDown
  refine Answers.andThen (.settle? h reply ?_ hand) ?_
  · cases result <;> exact fun _ h => by cases h
  rw [state_settle?]
  split
  next => exact answers_startDeferred h processor.key hand
  next count _ =>
    split
    next =>
      have hfresh : { s with
        retiring := s.retiring.insert processor.key (count - 1) }.Fresh := h
      exact (Answers.rest hfresh hand).since (fun _ held => held) fun _ held => held
    next =>
      have hfresh : { s with retiring := s.retiring.erase processor.key }.Fresh := h
      exact (answers_startDeferred hfresh processor.key hand).since (fun _ held => held)
        fun _ held => held

/-! ### Messages -/

theorem owes_enqueue {unit : UnitKey} {w : Waiting} {queue : List Waiting}
    (found : (s.pending.get? unit).getD [] = queue) {hand : List Promise} {promise : Promise}
    (held : promise ∈ w.promise :: hand ∨ s.Owes promise) :
    promise ∈ hand ∨ (s.enqueue unit (queue ++ [w])).Owes promise := by
  have hnew : ∀ promise ∈ (queue ++ [w]).map Waiting.promise,
      (s.enqueue unit (queue ++ [w])).Owes promise := fun promise hmem =>
    .inl ⟨unit, queue ++ [w], get?_insert_self _ _ _, hmem⟩
  rcases held with held | ⟨other, old, hget, hmem⟩ | hongoing
  · rcases List.mem_cons.1 held with rfl | held
    · refine .inr (hnew _ (List.mem_map_of_mem ?_))
      exact List.mem_append_right _ (List.mem_singleton_self _)
    · exact .inl held
  · by_cases heq : other = unit
    · subst heq
      rw [hget, Option.getD_some] at found
      subst found
      refine .inr (hnew promise ?_)
      rw [List.map_append]
      exact List.mem_append_left _ hmem
    · refine .inr (.inl ⟨other, old, ?_, hmem⟩)
      rw [enqueue, get?_insert, if_neg heq, hget]
  · exact .inr (.inr hongoing)

/-- With its key a subscription that is taken up brings in the promise of it. -/
theorem answers_subscribe (h : s.Fresh) {subscription : JobSubscription} {reply : Ticket}
    {bucket : Bucket} (found : s.buckets.get? subscription.partition = some bucket) :
    (s.subscribe subscription reply).Answers s [(⟨s.nextKey⟩, reply)] [] := by
  let w := s.newcomer subscription reply
  have htake : s.takeKey.Fresh := h
  unfold subscribe
  rw [found]
  dsimp only
  split
  next processor _ =>
    exact (answers_forward htake processor w []).since (fun _ held => held) fun _ held => held
  next =>
    split
    next queue hqueue =>
      have henqueue : (s.takeKey.enqueue subscription.unitKey (queue ++ [w])).Fresh := h
      have hfound : (s.takeKey.pending.get? subscription.unitKey).getD [] = queue := by
        rw [show s.takeKey.pending.get? subscription.unitKey = some queue from hqueue,
          Option.getD_some]
      exact (Answers.rest henqueue []).since (fun _ held => owes_enqueue hfound held)
        fun _ held => held
    next hnone =>
      have henqueue : (s.takeKey.enqueue subscription.unitKey ([] ++ [w])).Fresh := h
      have hfound : (s.takeKey.pending.get? subscription.unitKey).getD [] = [] := by
        rw [show s.takeKey.pending.get? subscription.unitKey = none from hnone, Option.getD_none]
      split
      next =>
        exact (Answers.rest henqueue []).since (fun _ held => owes_enqueue hfound held)
          fun _ held => held
      next =>
        exact (answers_startBuild henqueue subscription.unitKey []).since
          (fun _ held => owes_enqueue hfound held) fun _ held => held

theorem answers_unsubscribe (h : s.Fresh) (key : SubscriberKey) (reply : Ticket)
    (hand : List Promise) : (s.unsubscribe key reply).Answers s hand hand := by
  unfold unsubscribe
  split
  next => exact .settle h reply (fun _ h => by cases h) hand
  next entry _ =>
    have hframe := unindex_eq s key
    have hfresh : (s.unindex key).Fresh := by
      rw [hframe]
      exact h
    have hsame := owes_congr (congrArg State.pending hframe) (congrArg State.continuations hframe)
    refine (Answers.issue_other hfresh _ hand rfl).since ?_ ?_
    · intro promise held
      exact held.imp id (hsame promise).2
    · intro other held
      rw [Table.contains, index_unindex] at held
      split at held
      next => cases held
      next => exact held

theorem answers_addPartition (h : s.Fresh) (partition : Partition) (service : String)
    (hand : List Promise) : (s.addPartition partition service).Answers s hand hand := by
  have hfresh : { s with
    buckets := s.buckets.insert partition.id { partition, service } }.Fresh := h
  unfold addPartition
  dsimp only
  split
  next => exact (Answers.rest hfresh hand).since (fun _ held => held) fun _ held => held
  next bucket _ =>
    exact (answers_discardBucket hfresh partition.id (some bucket) hand).since
      (fun _ held => held) fun _ held => held

theorem answers_removePartition (h : s.Fresh) (partition : PartitionId) (hand : List Promise) :
    (s.removePartition partition).Answers s hand hand := by
  have hfresh : { s with buckets := s.buckets.erase partition }.Fresh := h
  exact (answers_discardBucket hfresh partition (s.buckets.get? partition) hand).since
    (fun _ held => held) fun _ held => held

/-- The subscriptions of a connection that wait. -/
def waitingOf (s : State) (connection : ConnectionId) : List Waiting :=
  s.pending.values.flatMap fun queue =>
    queue.filter fun w => w.subscription.connection = connection

theorem abandoned_eq (s : State) (connection : ConnectionId) :
    s.abandoned connection = (s.waitingOf connection).map Waiting.reply := by
  rw [abandoned, waitingOf, List.map_flatMap]

theorem promise?_markClosed (connection : ConnectionId) (continuation : Continuation) :
    (markClosed connection continuation).promise? = continuation.promise? := by
  cases continuation <;> rfl

theorem owes_disconnect (s : State) (connection : ConnectionId) {hand : List Promise}
    {promise : Promise} (held : promise ∈ hand ∨ s.Owes promise) :
    promise ∈ (s.waitingOf connection).map Waiting.promise ++ hand ∨
      (s.disconnect connection).Owes promise := by
  rcases held with held | ⟨unit, queue, hget, hmem⟩ | ⟨operation, continuation, hget, hpromise⟩
  · exact .inl (List.mem_append_right _ held)
  · obtain ⟨w, hw, rfl⟩ := List.mem_map.1 hmem
    by_cases hconnection : w.subscription.connection = connection
    · refine .inl (List.mem_append_left _ (List.mem_map_of_mem ?_))
      refine List.mem_flatMap.2 ⟨queue, ?_, List.mem_filter.2 ⟨hw, by simpa using hconnection⟩⟩
      exact List.mem_map.2 ⟨_, get?_eq_some_iff.1 hget, rfl⟩
    · have hstays : w ∈ queue.filter fun w => w.subscription.connection ≠ connection :=
        List.mem_filter.2 ⟨hw, by simpa using hconnection⟩
      refine .inr (.inl ⟨unit, _, ?_, List.mem_map_of_mem hstays⟩)
      simp only [disconnect, get?_mapValues, hget, Option.map_some]
  · refine .inr (.inr ⟨operation, markClosed connection continuation, ?_, ?_⟩)
    · simp only [disconnect, get?_mapValues, hget, Option.map_some]
    · rw [promise?_markClosed, hpromise]

theorem answers_sweepAll (h : s.Fresh) (processors : List Processor) (connection : ConnectionId)
    (hand : List Promise) :
    (s.forEach processors fun s processor =>
      s.issue (.sweep processor connection) (.sweep processor connection)).Answers s hand hand :=
  .forEach (fun _ h _ => .issue_other h _ hand rfl) h processors

theorem answers_connectionClosed (h : s.Fresh) (connection : ConnectionId) (hand : List Promise) :
    (s.connectionClosed connection).Answers s hand hand := by
  let purged := s.purge fun entry => entry.connection = connection
  have hpurged : purged.Fresh := fresh_purge h _
  have hfresh : (purged.disconnect connection).Fresh := by
    intro operation continuation hget
    simp only [disconnect, get?_mapValues, Option.map_eq_some_iff] at hget
    obtain ⟨old, hold, -⟩ := hget
    exact hpurged operation old hold
  have hsettle := Answers.settleAll hfresh (purged.waitingOf connection)
    (.connectionClosed connection) hand
  rw [← abandoned_eq] at hsettle
  have hturn : (((purged.disconnect connection).settleAll (purged.abandoned connection)
      (.error (.connectionClosed connection))).andThen fun s =>
        s.forEach s.processors fun s processor =>
          s.issue (.sweep processor connection) (.sweep processor connection)).Answers
      (purged.disconnect connection)
      ((purged.waitingOf connection).map Waiting.promise ++ hand) hand :=
    hsettle.andThen (answers_sweepAll hfresh _ connection hand)
  exact answers_purge (hturn.since (fun _ held => owes_disconnect purged connection held)
    fun _ held => held)

end State

/-! ### Moments -/

/-- A turn in which a subscription becomes active: its future is told the key, and the index takes
it in. -/
structure Turn.Activates (s : State) (turn : Turn) (promise : Promise) : Prop where
  owed : s.Owes promise
  told : settledOf turn.effects = [(promise.2, .ok (.key promise.1))]
  index : ∀ key, turn.state.index.contains key = true ↔
    key = promise.1 ∨ s.index.contains key = true
  others : ∀ other, s.Owes other → other = promise ∨ turn.state.Owes other

/-- The key that a subscription is given, with the future that waits for it. -/
def Moment.promised? (moment : Moment) : Option Promise :=
  match moment.event with
  | .told (.subscribe subscription reply) =>
    if moment.before.buckets.contains subscription.partition then
      some (⟨moment.before.nextKey⟩, reply)
    else none
  | _ => none

/-- What a moment does with promises. -/
def Moment.Keeps (moment : Moment) : Prop :=
  (moment.promised? = none ∧ ∃ promise, moment.turn.Activates moment.before promise) ∨
    moment.turn.Answers moment.before moment.promised?.toList []

namespace State

open Turn

variable {s : State}

theorem keeps_told (h : s.Fresh) {message : Message} (client : message.fromClient = true) :
    Moment.Keeps ⟨s, .told message, s.handle message⟩ := by
  refine .inr ?_
  cases message with
  | subscribe subscription reply =>
    simp only [Moment.promised?, handle]
    by_cases hcontains : s.buckets.contains subscription.partition = true
    · obtain ⟨bucket, hget⟩ := Option.isSome_iff_exists.1 hcontains
      rw [if_pos hcontains]
      exact answers_subscribe h hget
    · have hget := Option.not_isSome_iff_eq_none.1 hcontains
      rw [if_neg hcontains, subscribe, hget]
      exact .settle h reply (fun _ h => by cases h) []
  | unsubscribe key reply => exact answers_unsubscribe h key reply []
  | addPartition partition service => exact answers_addPartition h partition service []
  | removePartition partition => exact answers_removePartition h partition []
  | connectionClosed connection => exact answers_connectionClosed h connection []
  | snapshot reply => exact .settle h reply (fun _ h => by cases h) []
  | resume | shutdown => cases client

theorem owes_erase_continuation {operation : OperationId} {continuation : Continuation}
    (noted : s.continuations.get? operation = some continuation) {promise : Promise}
    (owed : s.Owes promise) :
    promise ∈ continuation.promise?.toList ∨
      { s with continuations := s.continuations.erase operation }.Owes promise := by
  rcases owed with hqueue | ⟨other, old, hget, hpromise⟩
  · exact .inr (.inl hqueue)
  · by_cases heq : other = operation
    · subst heq
      rw [noted] at hget
      cases hget
      exact .inl (Option.mem_toList.2 hpromise)
    · refine .inr (.inr ⟨other, old, ?_, hpromise⟩)
      rw [get?_erase, if_neg heq, hget]

/-- An addition that makes the subscription active. -/
theorem activates_onAdded {operation : OperationId} {key : SubscriberKey}
    {connection : ConnectionId} {processor : Processor} {reply : Ticket} {closed : Bool}
    (noted : s.continuations.get? operation =
      some (.subscribe key connection processor reply closed))
    (opened : closed = false) (registered : s.isRegistered processor = true) :
    ({ s with continuations := s.continuations.erase operation }.onAdded key connection processor
      reply closed (.ok ())).Activates s (key, reply) := by
  have hturn : { s with continuations := s.continuations.erase operation }.onAdded key connection
      processor reply closed (.ok ()) = State.settle { s with
        continuations := s.continuations.erase operation
        index := s.index.insert key ⟨processor, connection⟩ } reply (.ok (.key key)) := by
    subst opened
    have hregistered : { s with
      continuations := s.continuations.erase operation }.isRegistered processor = true := registered
    simp only [onAdded, hregistered, Bool.false_eq_true, if_false, if_true]
  rw [hturn]
  refine ⟨.inr ⟨operation, _, noted, rfl⟩, rfl, ?_, ?_⟩
  · intro other
    show (s.index.insert key ⟨processor, connection⟩).contains other = true ↔ _
    rw [contains_insert]
    split
    next heq => simp [heq]
    next hne => simp [hne]
  · intro other owed
    rcases owes_erase_continuation noted owed with hpromise | howes
    · exact .inl (Option.some.inj (Option.mem_toList.1 hpromise)).symm
    · exact .inr howes

theorem keeps_ended (h : s.Fresh) {operation : OperationId} {continuation : Continuation}
    {call : Call} (noted : s.continuations.get? operation = some continuation)
    (fits : continuation.Fits call) (result : Except String call.Success) :
    Moment.Keeps ⟨s, .ended operation call result,
      s.handle (.resume operation (call.outcome result))⟩ := by
  have herase : { s with continuations := s.continuations.erase operation }.Fresh := by
    intro other old hget
    simp only [get?_erase] at hget
    split at hget
    next => cases hget
    next => exact h other old hget
  -- the turn goes on with what was promised in its hands
  have hbegin : ∀ {turn : Turn}, turn.Answers
      { s with continuations := s.continuations.erase operation } continuation.promise?.toList [] →
      turn.Answers s [] [] := by
    intro turn hturn
    refine hturn.since ?_ fun _ held => held
    intro promise held
    exact owes_erase_continuation noted (held.resolve_left List.not_mem_nil)
  simp only [Moment.Keeps, Moment.promised?, handle, resume, noted]
  cases continuation with
  | build unit =>
    cases call with
    | build other => exact .inr (hbegin (answers_onBuilt herase unit result []))
    | _ => cases fits
  | subscribe key connection processor reply closed =>
    cases call with
    | add other subscription =>
      by_cases hrefused : closed = true ∨ result ≠ .ok () ∨ s.isRegistered processor = false
      · exact .inr (hbegin (answers_onAdded key connection processor reply [] herase hrefused))
      · simp only [not_or, Bool.not_eq_true, ne_eq, Decidable.not_not, Bool.not_eq_false]
          at hrefused
        obtain ⟨hopen, hok, hregistered⟩ := hrefused
        subst hok
        exact .inl ⟨trivial, _, activates_onAdded noted hopen hregistered⟩
    | _ => cases fits
  | unsubscribe processor reply =>
    cases call with
    | remove other key => exact .inr (hbegin (answers_onRemoved herase processor reply result []))
    | _ => cases fits
  | teardown processor reply =>
    cases call with
    | teardown other => exact .inr (hbegin (answers_onTornDown herase processor reply result []))
    | _ => cases fits
  | sweep processor connection =>
    cases call with
    | remove other key => exact .inr (hbegin (answers_onSwept herase processor result []))
    | sweep other connection' => exact .inr (hbegin (answers_onSwept herase processor result []))
    | _ => cases fits

end State

namespace World

variable {w w' : World} {moment : Moment}

theorem Posted.eq_of_history (posted : w.Posted moment w') {other : Moment}
    (history : w'.history = w.history ++ [other]) : other = moment := by
  rw [posted.history] at history
  exact (List.singleton_inj.1 (List.append_cancel_left history)).symm

/-- What a moment can be: a message is handled, a call ends of which something was noted, or
credits are worked on. -/
inductive Turns (w : World) : Moment → Prop where
  | told (message : Message) (client : message.fromClient = true) :
      Turns w ⟨w.state, .told message, w.state.handle message⟩
  | ended (operation : OperationId) (continuation : Continuation) (call : Call)
      (held : (operation, call) ∈ w.outstanding)
      (noted : w.state.continuations.get? operation = some continuation)
      (fits : continuation.Fits call) (result : Except String call.Success) :
      Turns w ⟨w.state, .ended operation call result,
        w.state.handle (.resume operation (call.outcome result))⟩
  | worked (event : Event) (credits : Credit.Pipeline)
      (untold : ∀ message, event ≠ .told message) (unended : event.ended? = none) :
      Turns w ⟨w.state, event, { w.state with credits := credits }.rest⟩

theorem Posted.turns (h : w.Consistent) (posted : w.Posted moment w') (step : Step w w') :
    w.Turns moment := by
  cases step with
  | tell message client =>
    rw [← posted.eq_of_history rfl]
    exact .told message client
  | finish operation call held result =>
    rw [← posted.eq_of_history rfl]
    obtain ⟨continuation, hnoted, hfits⟩ := h.awaits _ held
    exact .ended operation continuation call held hnoted hfits result
  | write request =>
    rw [← posted.eq_of_history rfl]
    exact .worked _ _ (fun _ h => Event.noConfusion h) rfl
  | retry ask answerer =>
    rw [← posted.eq_of_history rfl]
    exact .worked _ _ (fun _ h => Event.noConfusion h) rfl
  | cycle ask answerer =>
    rw [← posted.eq_of_history rfl]
    exact .worked _ _ (fun _ h => Event.noConfusion h) rfl

theorem Posted.keeps (h : w.Consistent) (posted : w.Posted moment w') (step : Step w w') :
    moment.Keeps := by
  have hfresh : w.state.Fresh := h.orderly.fresh
  cases posted.turns h step with
  | told message client => exact State.keeps_told hfresh client
  | ended operation continuation call held noted fits result =>
    exact State.keeps_ended hfresh noted fits result
  | worked event credits untold unended =>
    refine .inr ?_
    have hpromised : Moment.promised?
        ⟨w.state, event, { w.state with credits := credits }.rest⟩ = none := by
      cases event with
      | told message => exact absurd rfl (untold message)
      | _ => rfl
    have hworked : { w.state with credits := credits }.Fresh := hfresh
    rw [hpromised]
    exact (Turn.Answers.rest hworked []).since (fun _ held => held) fun _ held => held

end World

end JobBroker.Manager
