import JobBroker.Proofs.Promises
import JobBroker.Proofs.Standing

/-!
# Withdrawals

A processor is told to drop subscriptions on three occasions only: an active subscription is given
up, an addition has ended whose connection had closed, and a connection closes. No other turn makes
such a call, and no key is ever withdrawn that is not gone with it.
-/

namespace JobBroker.Manager

open Table

/-- Tells whether a call has a processor drop subscriptions. -/
def Call.isWithdrawal : Call → Bool
  | .remove _ _ => true
  | .sweep _ _ => true
  | _ => false

/-- Tells whether a call hands the subscription under a key to a processor. -/
def Call.adds (key : SubscriberKey) : Call → Bool
  | .add _ subscription => subscription.key = some key
  | _ => false

namespace Turn

def withdrawals (turn : Turn) : List Call :=
  ((callsOf turn.effects).map Prod.snd).filter Call.isWithdrawal

theorem mem_withdrawals {turn : Turn} {call : Call} :
    call ∈ turn.withdrawals ↔
      call.isWithdrawal = true ∧ ∃ operation, (operation, call) ∈ callsOf turn.effects := by
  rw [withdrawals, List.mem_filter, List.mem_map, and_comm]
  refine and_congr_right fun _ => ⟨?_, ?_⟩
  · rintro ⟨⟨operation, _⟩, hmem, rfl⟩
    exact ⟨operation, hmem⟩
  · rintro ⟨operation, hmem⟩
    exact ⟨(operation, call), hmem, rfl⟩

@[simp] theorem withdrawals_andThen (turn : Turn) (next : State → Turn) :
    (turn.andThen next).withdrawals = turn.withdrawals ++ (next turn.state).withdrawals := by
  simp only [withdrawals, effects_andThen, callsOf_append, List.map_append, List.filter_append]

end Turn

namespace State

variable (s : State)

/-! ### Turns -/

@[simp] theorem withdrawals_rest : s.rest.withdrawals = [] := rfl

@[simp] theorem withdrawals_settle (reply : Ticket) (result : Result) :
    (s.settle reply result).withdrawals = [] := rfl

@[simp] theorem withdrawals_settle? (reply : Option Ticket) (result : Result) :
    (s.settle? reply result).withdrawals = [] := by cases reply <;> rfl

@[simp] theorem withdrawals_settleAll (replies : List Ticket) (result : Result) :
    (s.settleAll replies result).withdrawals = [] := by
  rw [Turn.withdrawals, settleAll, callsOf_settle]
  rfl

theorem withdrawals_issue (continuation : Continuation) (call : Call) :
    (s.issue continuation call).withdrawals = [call].filter Call.isWithdrawal := rfl

theorem withdrawals_forEach {α : Type} {act : State → α → Turn} {calls : α → List Call}
    (each : ∀ s item, (act s item).withdrawals = calls item) (items : List α) :
    (s.forEach items act).withdrawals = items.flatMap calls := by
  induction items generalizing s with
  | nil => rfl
  | cons item items ih =>
    rw [forEach, Turn.withdrawals_andThen, each, ih, List.flatMap_cons]

theorem withdrawals_forEach_nil {α : Type} {act : State → α → Turn}
    (each : ∀ s item, (act s item).withdrawals = []) (items : List α) :
    (s.forEach items act).withdrawals = [] := by
  rw [withdrawals_forEach s each, List.flatMap_eq_nil_iff.2 fun _ _ => rfl]

@[simp] theorem withdrawals_failPending (key : UnitKey) (error : SubscriptionError) :
    (s.failPending key error).withdrawals = [] := withdrawals_settleAll _ _ _

@[simp] theorem withdrawals_startBuild (key : UnitKey) : (s.startBuild key).withdrawals = [] := by
  unfold startBuild
  split
  next => exact s.withdrawals_failPending key _
  next => rfl

@[simp] theorem withdrawals_startDeferred (key : UnitKey) :
    (s.startDeferred key).withdrawals = [] := by
  unfold startDeferred
  split
  next => rfl
  next => rfl
  next => exact s.withdrawals_startBuild key

@[simp] theorem withdrawals_forward (processor : Processor) (waiting : Waiting) :
    (s.forward processor waiting).withdrawals = [] := rfl

@[simp] theorem withdrawals_teardown (processor : Processor) (reply : Option Ticket) :
    (s.teardown processor reply).withdrawals = [] := rfl

@[simp] theorem withdrawals_retire (processor : Processor) (reply : Option Ticket) :
    (s.retire processor reply).withdrawals = [] := by
  unfold retire
  split
  next => rfl
  next => exact s.withdrawals_settle? reply _

@[simp] theorem withdrawals_release (processor : Processor) :
    (s.release processor).withdrawals = [] := by
  unfold release
  dsimp only
  split
  next => exact withdrawals_retire _ processor none
  next => rfl

@[simp] theorem withdrawals_discardBucket (partition : PartitionId) (bucket : Option Bucket) :
    (s.discardBucket partition bucket).withdrawals = [] := by
  cases bucket with
  | none => rfl
  | some bucket => exact withdrawals_forEach_nil _ (fun _ _ => rfl) bucket.processors

theorem withdrawals_onBuilt (unit : ActivationUnit) (result : Except String Runner) :
    (s.onBuilt unit result).withdrawals = [] := by
  unfold onBuilt
  split
  next => exact s.withdrawals_failPending _ _
  next =>
    dsimp only
    split
    next => rfl
    next =>
      split
      next => simp
      next => exact withdrawals_forEach_nil _ (fun _ _ => rfl) _

/-- An addition that has ended well is taken back when its connection has closed. -/
theorem withdrawals_onAdded (key : SubscriberKey) (connection : ConnectionId)
    (processor : Processor) (reply : Ticket) (closed : Bool) (result : Except String Unit) :
    (s.onAdded key connection processor reply closed result).withdrawals =
      if closed = true ∧ result = .ok () then [.remove processor key] else [] := by
  unfold onAdded
  cases result with
  | error reason => simp
  | ok =>
    cases closed with
    | true => simp [takeBack, withdrawals_issue, Call.isWithdrawal]
    | false =>
      simp only [Bool.false_eq_true, if_false, false_and]
      split <;> simp

theorem withdrawals_onRemoved (processor : Processor) (reply : Ticket)
    (result : Except String Bool) : (s.onRemoved processor reply result).withdrawals = [] := by
  unfold onRemoved
  split
  next => rfl
  next => split <;> simp

theorem withdrawals_onSwept (processor : Processor) (result : Except String Bool) :
    (s.onSwept processor result).withdrawals = [] := by
  unfold onSwept
  split
  next => rfl
  next => split <;> simp

theorem withdrawals_onTornDown (processor : Processor) (reply : Option Ticket)
    (result : Except String Unit) :
    (s.onTornDown processor reply result).withdrawals = [] := by
  unfold onTornDown
  rw [Turn.withdrawals_andThen, withdrawals_settle?, List.nil_append]
  split
  next => exact withdrawals_startDeferred _ _
  next => split <;> simp

theorem withdrawals_subscribe (subscription : JobSubscription) (reply : Ticket) :
    (s.subscribe subscription reply).withdrawals = [] := by
  unfold subscribe
  split
  next => rfl
  next =>
    dsimp only
    split
    next => rfl
    next =>
      split
      next => rfl
      next =>
        split
        next => rfl
        next => exact withdrawals_startBuild _ _

theorem processors_disconnect (connection : ConnectionId) :
    ((s.purge fun entry => entry.connection = connection).disconnect connection).processors =
      s.processors := by
  unfold processors disconnect
  rw [purge, unindexAll_eq]

/-- When a connection closes every registered processor is told. -/
theorem withdrawals_connectionClosed (connection : ConnectionId) :
    (s.connectionClosed connection).withdrawals =
      s.processors.map fun processor => .sweep processor connection := by
  have hturn : s.connectionClosed connection =
      (((s.purge fun entry => entry.connection = connection).disconnect connection).settleAll
        ((s.purge fun entry => entry.connection = connection).abandoned connection)
        (.error (.connectionClosed connection))).andThen fun s =>
          s.forEach s.processors fun s processor =>
            s.issue (.sweep processor connection) (.sweep processor connection) := rfl
  rw [hturn, Turn.withdrawals_andThen, withdrawals_settleAll, List.nil_append]
  have heach : ∀ (s : State) (processor : Processor),
      (s.issue (.sweep processor connection) (.sweep processor connection)).withdrawals =
        [.sweep processor connection] := fun _ _ => rfl
  rw [withdrawals_forEach _ heach, settleAll, processors_disconnect, ← List.map_eq_flatMap]

end State

/-! ### Moments -/

/-- The withdrawals that a moment calls for. -/
def Moment.withdrawals (moment : Moment) : List Call :=
  match moment.event with
  | .told (.unsubscribe key _) =>
    (moment.before.index.get? key).toList.map fun entry => .remove entry.processor key
  | .told (.connectionClosed connection) =>
    moment.before.processors.map fun processor => .sweep processor connection
  | .ended operation (.add _ _) (.ok ()) =>
    match moment.before.continuations.get? operation with
    | some (.subscribe key _ processor _ true) => [.remove processor key]
    | _ => []
  | _ => []

namespace State

variable {s : State}

theorem withdrawals_unsubscribe (s : State) (key : SubscriberKey) (reply : Ticket) :
    (s.unsubscribe key reply).withdrawals =
      (s.index.get? key).toList.map fun entry => .remove entry.processor key := by
  unfold unsubscribe
  cases s.index.get? key <;> rfl

theorem withdrawals_told {message : Message} (client : message.fromClient = true) :
    (s.handle message).withdrawals =
      Moment.withdrawals ⟨s, .told message, s.handle message⟩ := by
  cases message with
  | subscribe subscription reply => exact s.withdrawals_subscribe subscription reply
  | unsubscribe key reply => exact s.withdrawals_unsubscribe key reply
  | addPartition partition service =>
    simp only [handle, addPartition, Moment.withdrawals]
    split
    next => rfl
    next => exact withdrawals_discardBucket _ _ _
  | removePartition partition => exact withdrawals_discardBucket _ _ _
  | connectionClosed connection => exact s.withdrawals_connectionClosed connection
  | snapshot reply => rfl
  | resume | shutdown => cases client

theorem withdrawals_ended {operation : OperationId} {continuation : Continuation} {call : Call}
    (noted : s.continuations.get? operation = some continuation) (fits : continuation.Fits call)
    (result : Except String call.Success) :
    (s.handle (.resume operation (call.outcome result))).withdrawals =
      Moment.withdrawals ⟨s, .ended operation call result,
        s.handle (.resume operation (call.outcome result))⟩ := by
  rw [handle, resume, noted]
  cases continuation with
  | build unit =>
    cases call with
    | build other => exact withdrawals_onBuilt _ unit result
    | _ => cases fits
  | subscribe key connection processor reply closed =>
    cases call with
    | add other subscription =>
      refine (withdrawals_onAdded _ key connection processor reply closed result).trans ?_
      cases result with
      | error reason => simp [Moment.withdrawals]
      | ok => cases closed <;> simp [Moment.withdrawals, noted]
    | _ => cases fits
  | unsubscribe processor reply =>
    cases call with
    | remove other key => exact withdrawals_onRemoved _ processor reply result
    | _ => cases fits
  | teardown processor reply =>
    cases call with
    | teardown other => exact withdrawals_onTornDown _ processor reply result
    | _ => cases fits
  | sweep processor connection =>
    cases call with
    | remove other key => exact withdrawals_onSwept _ processor result
    | sweep other connection' => exact withdrawals_onSwept _ processor result
    | _ => cases fits

end State

namespace World

/-- The calls that had processors drop subscriptions. -/
def withdrawals (w : World) : List Call := (w.calls.map Prod.snd).filter Call.isWithdrawal

variable {w w' : World} {moment : Moment} {creditCapacity : Nat} {key : SubscriberKey}
  {processor : Processor} {connection : ConnectionId} {operation : OperationId} {reply : Ticket}
  {closed : Bool}

theorem Posted.turn_withdrawals (h : w.Consistent) (posted : w.Posted moment w')
    (step : Step w w') : moment.turn.withdrawals = moment.withdrawals := by
  cases posted.turns h step with
  | told message client => exact State.withdrawals_told client
  | ended operation continuation call held noted fits result =>
    exact State.withdrawals_ended noted fits result
  | worked event credits untold unended =>
    cases event with
    | told message => exact absurd rfl (untold message)
    | ended => cases unended
    | _ => rfl

theorem Posted.withdrawals (h : w.Consistent) (posted : w.Posted moment w') (step : Step w w') :
    w'.withdrawals = w.withdrawals ++ moment.withdrawals := by
  rw [World.withdrawals, posted.calls, List.map_append, List.filter_append,
    ← posted.turn_withdrawals h step]
  rfl

/-- A removal follows on a subscription that is given up, or on an addition that is taken back. -/
theorem removed_cases (h : .remove processor key ∈ moment.withdrawals) :
    (∃ reply entry, moment.event = .told (.unsubscribe key reply) ∧
      moment.before.index.get? key = some entry ∧ entry.processor = processor) ∨
    ∃ operation other subscription connection reply,
      moment.event = .ended operation (.add other subscription) (.ok ()) ∧
      moment.before.continuations.get? operation =
        some (.subscribe key connection processor reply true) := by
  unfold Moment.withdrawals at h
  split at h
  next named reply hevent =>
    obtain ⟨entry, hentry, heq⟩ := List.mem_map.1 h
    cases heq
    exact .inl ⟨reply, entry, hevent, Option.mem_toList.1 hentry, rfl⟩
  next =>
    obtain ⟨other, -, heq⟩ := List.mem_map.1 h
    cases heq
  next operation other subscription hevent =>
    split at h
    next hnoted =>
      cases List.mem_singleton.1 h
      exact .inr ⟨operation, other, subscription, _, _, hevent, hnoted⟩
    next => cases h
  next => cases h

/-- A processor is told to drop what belongs to a connection when that closes. -/
theorem swept_cases (h : .sweep processor connection ∈ moment.withdrawals) :
    moment.event = .told (.connectionClosed connection) ∧
      processor ∈ moment.before.processors := by
  unfold Moment.withdrawals at h
  split at h
  next =>
    obtain ⟨entry, -, heq⟩ := List.mem_map.1 h
    cases heq
  next closed hevent =>
    obtain ⟨other, hother, heq⟩ := List.mem_map.1 h
    cases heq
    exact ⟨hevent, hother⟩
  next =>
    split at h
    next => cases List.mem_singleton.1 h
    next => cases h
  next => cases h

/-! ### Keys that are withdrawn -/

theorem additions_unique (h : Reachable creditCapacity w) {operation' : OperationId}
    (found : operation ∈ w.state.additions key) (found' : operation' ∈ w.state.additions key) :
    operation' = operation := by
  have hlength := (standing_spec h key).2.1
  split at hlength
  next =>
    obtain ⟨only, honly⟩ := List.length_eq_one_iff.1 hlength
    rw [honly, List.mem_singleton] at found found'
    rw [found, found']
  next =>
    rw [List.length_eq_zero_iff.1 hlength] at found
    cases found

theorem mem_additions_of_noted (noted : w.state.continuations.get? operation =
      some (.subscribe key connection processor reply closed)) :
    operation ∈ w.state.additions key :=
  State.mem_additions.2 ⟨connection, processor, reply, closed, noted⟩

theorem standing_of_noted (h : Reachable creditCapacity w)
    (noted : w.state.continuations.get? operation =
      some (.subscribe key connection processor reply closed)) :
    w.state.standing key = .adding :=
  State.standing_of_held (consistent_of_reachable h).sound
    (State.ongoing_mem_ledger.2 (.inl ⟨operation, noted⟩)) rfl

theorem standing_of_indexed (h : Reachable creditCapacity w) {entry : IndexEntry}
    (found : w.state.index.get? key = some entry) : w.state.standing key = .active :=
  (standing_spec h key).2.2.1.1 (by rw [Table.contains, found, Option.isSome_some])

theorem countP_hands (calls : List (OperationId × Call)) (key : SubscriberKey) :
    (calls.flatMap fun call => call.2.signs).countP (Sign.hands key) =
      calls.countP fun call => call.2.adds key := by
  induction calls with
  | nil => rfl
  | cons call calls ih =>
    rw [List.flatMap_cons, List.countP_append, ih, List.countP_cons, Nat.add_comm]
    congr 1
    obtain ⟨operation, call⟩ := call
    cases call with
    | add processor subscription => simp [Call.signs, Call.adds, Sign.hands]
    | _ => rfl

theorem countP_adds_le (w : World) (key : SubscriberKey) :
    (w.calls.countP fun call => call.2.adds key) ≤ w.signs.countP (Sign.hands key) := by
  rw [calls, signs]
  induction w.history with
  | nil => exact Nat.le_refl _
  | cons moment history ih =>
    rw [List.flatMap_cons, List.flatMap_cons, List.countP_append, List.countP_append,
      Moment.signs, List.countP_append, countP_hands]
    omega

/-- A key is handed to a processor by one call. -/
theorem countP_adds_le_one (h : Reachable creditCapacity w) (key : SubscriberKey) :
    (w.calls.countP fun call => call.2.adds key) ≤ 1 := by
  have hhands := hands_of_reachable h key
  have hadds := countP_adds_le w key
  split at hhands <;> omega

theorem adds_unique (h : Reachable creditCapacity w) {call call' : OperationId × Call}
    (made : call ∈ w.calls) (adds : call.2.adds key = true) (made' : call' ∈ w.calls)
    (adds' : call'.2.adds key = true) : call' = call :=
  eq_of_countP_le_one (countP_adds_le_one h key) made' adds' made adds

/-- An addition that is noted after a step was noted before, or its call was made in the step. -/
theorem Posted.additions_back (h : Reachable creditCapacity w) (posted : w.Posted moment w')
    (found : operation ∈ w'.state.additions key) :
    (operation ∈ w.state.additions key ∧ moment.event.ended? ≠ some operation) ∨
      ∃ processor subscription, subscription.key = some key ∧
        (operation, .add processor subscription) ∈ callsOf moment.turn.effects := by
  have hconsistent := consistent_of_reachable h
  obtain ⟨connection, processor, reply, closed, hget⟩ := State.mem_additions.1 found
  obtain ⟨call, hcall, hfits⟩ := (posted.consistent hconsistent).outstanding hget
  cases call with
  | add other subscription =>
    obtain ⟨rfl, hkey, -⟩ := hfits
    have hmade := (mem_outstanding.1 hcall).1
    have hopen := (mem_outstanding.1 hcall).2
    rw [posted.calls, List.mem_append] at hmade
    rw [posted.endings, List.mem_append, not_or, Option.mem_toList] at hopen
    rcases hmade with hmade | hmade
    · refine .inl ⟨?_, hopen.2⟩
      obtain ⟨old, hold, hfits⟩ := hconsistent.awaits _ (mem_outstanding.2 ⟨hmade, hopen.1⟩)
      cases old with
      | subscribe key' connection' processor' reply' closed' =>
        obtain ⟨-, hkey', -⟩ := hfits
        cases hkey.symm.trans hkey'
        exact mem_additions_of_noted hold
      | _ => cases hfits
    · exact .inr ⟨other, subscription, hkey, hmade⟩
  | _ => cases hfits

/-- The key of an addition that has ended is active or gone. -/
theorem Posted.addition_ended (h : Reachable creditCapacity w) (posted : w.Posted moment w')
    (step : Step w w') (found : operation ∈ w.state.additions key)
    (ended : moment.event.ended? = some operation) :
    w'.state.standing key = .active ∨ w'.state.standing key = .gone := by
  have hstanding : w.state.standing key = .adding := by
    obtain ⟨connection, processor, reply, closed, hget⟩ := State.mem_additions.1 found
    exact standing_of_noted h hget
  have hrank := rank_le_of_steps h (.single step) key
  have hfree : w'.state.standing key ≠ .adding := by
    intro hadding
    have hlength := (standing_spec (h.next step) key).2.1
    rw [if_pos hadding] at hlength
    obtain ⟨later, hlater⟩ := List.length_eq_one_iff.1 hlength
    rcases posted.additions_back h (hlater ▸ List.mem_singleton_self later) with
      ⟨hold, hgoing⟩ | ⟨processor, subscription, hkey, hmade⟩
    · exact hgoing (additions_unique h found hold ▸ ended)
    · -- the key would have been handed over twice
      obtain ⟨connection, processor', reply, closed, hget⟩ := State.mem_additions.1 found
      obtain ⟨call, hcall, hfits⟩ := (consistent_of_reachable h).outstanding hget
      cases call with
      | add other subscription' =>
        have hold := (mem_outstanding.1 hcall).1
        have hnumber := (posted.notes.numbers _ hmade).1
        rw [Moment.nextOperation_start, posted.before] at hnumber
        have hsame : (later, Call.add processor subscription) =
            (operation, .add other subscription') := by
          apply adds_unique (h.next step)
          · rw [posted.calls]
            exact List.mem_append_left _ hold
          · exact decide_eq_true hfits.2.1
          · rw [posted.calls]
            exact List.mem_append_right _ hmade
          · exact decide_eq_true hkey
        cases hsame
        exact absurd ((consistent_of_reachable h).numbers _ hold) (Nat.not_lt.2 hnumber)
      | _ => cases hfits
  rw [hstanding] at hrank
  cases hstanding' : w'.state.standing key <;> simp_all [Standing.rank]

theorem gone_of_gone (h : Reachable creditCapacity w) (steps : Relation.ReflTransGen Step w w')
    (gone : w.state.standing key = .gone) : w'.state.standing key = .gone := by
  have hrank := rank_le_of_steps h steps key
  rw [gone] at hrank
  cases hstanding : w'.state.standing key <;> simp_all [Standing.rank]

theorem inactive_of_gone (h : Reachable creditCapacity w) (gone : w.state.standing key = .gone) :
    w.state.index.get? key = none := by
  refine Option.eq_none_iff_forall_ne_some.2 fun entry hentry => ?_
  rw [standing_of_indexed h hentry] at gone
  cases gone

/-- Where an addition has ended the turn is that of the addition. -/
theorem Posted.turn_of_added (h : w.Consistent) (posted : w.Posted moment w') (step : Step w w')
    {other : Processor} {subscription : JobSubscription} {result : Except String Unit}
    (event : moment.event = .ended operation (.add other subscription) result)
    (noted : w.state.continuations.get? operation =
      some (.subscribe key connection processor reply closed)) :
    moment.turn = { w.state with
      continuations := w.state.continuations.erase operation }.onAdded key connection processor
        reply closed result := by
  cases posted.turns h step with
  | told message => cases event
  | ended operation' continuation call held noted' fits result' =>
    cases event
    simp only [State.handle, State.resume, noted, Call.outcome]
  | worked event' credits untold unended =>
    cases event
    cases unended

theorem index_takeBack (s : State) (processor : Processor) (key : SubscriberKey)
    (connection : ConnectionId) : (s.takeBack processor key connection).state.index = s.index := by
  unfold State.takeBack
  rw [State.dropReference_eq]
  rfl

/-- What a processor has just accepted was on its way to it. -/
theorem Posted.noted_of_accepted (h : w.Consistent) (posted : w.Posted moment w')
    (accepted : moment.accepted? = some (key, processor)) :
    ∃ operation subscription connection reply closed,
      moment.event = .ended operation (.add processor subscription) (.ok ()) ∧
      w.state.continuations.get? operation =
        some (.subscribe key connection processor reply closed) := by
  unfold Moment.accepted? at accepted
  split at accepted
  next operation other subscription hevent =>
    obtain ⟨named, hnamed, heq⟩ := Option.map_eq_some_iff.1 accepted
    cases heq
    obtain ⟨continuation, hget, hfits⟩ := h.awaits _ (posted.ended operation _ _ hevent)
    cases continuation with
    | subscribe key' connection processor' reply closed =>
      obtain ⟨rfl, hkey, -⟩ := hfits
      cases hnamed.symm.trans hkey
      exact ⟨operation, subscription, connection, reply, closed, hevent, hget⟩
    | _ => cases hfits
  next => cases accepted

theorem standing_of_accepted (h : Reachable creditCapacity w)
    (accepted : (key, processor) ∈ w.accepted) :
    w.state.standing key = .active ∨ w.state.standing key = .gone := by
  induction h with
  | start => cases accepted
  | @next w w' reached step ih =>
    obtain ⟨moment, hposted⟩ := posted_of_step (consistent_of_reachable reached) step
    rw [hposted.accepted, List.mem_append, Option.mem_toList] at accepted
    rcases accepted with hold | hnew
    · have hrank := rank_le_of_steps reached (.single step) key
      rcases ih hold with hstanding | hstanding <;> rw [hstanding] at hrank <;>
        cases hstanding' : w'.state.standing key <;> simp_all [Standing.rank]
    · obtain ⟨operation, subscription, connection, reply, closed, hevent, hnoted⟩ :=
        hposted.noted_of_accepted (consistent_of_reachable reached) hnew
      refine hposted.addition_ended reached step (mem_additions_of_noted hnoted) ?_
      rw [hevent]
      rfl

/-- Where an addition ends, it is its processor that tells how. -/
theorem Posted.added_of_ended (h : w.Consistent) (posted : w.Posted moment w') (step : Step w w')
    (noted : w.state.continuations.get? operation =
      some (.subscribe key connection processor reply closed))
    (ends : moment.event.ended? = some operation) :
    ∃ subscription result, subscription.key = some key ∧
      moment.event = .ended operation (.add processor subscription) result := by
  cases posted.turns h step with
  | told message => cases ends
  | ended operation' continuation call held noted' fits result =>
    cases ends
    rw [noted] at noted'
    cases noted'
    cases call with
    | add other subscription =>
      obtain ⟨rfl, hkey, -⟩ := fits
      exact ⟨subscription, result, hkey, rfl⟩
    | _ => cases fits
  | worked event credits untold unended =>
    rw [unended] at ends
    cases ends

/-- A key that a processor was told to drop is gone. -/
theorem gone_of_removed (h : Reachable creditCapacity w)
    (removed : .remove processor key ∈ w.withdrawals) : w.state.standing key = .gone := by
  induction h with
  | start => cases removed
  | @next w w' reached step ih =>
    have hconsistent := consistent_of_reachable reached
    obtain ⟨moment, hposted⟩ := posted_of_step hconsistent step
    rw [hposted.withdrawals hconsistent step, List.mem_append] at removed
    have hactive' := (standing_spec (reached.next step) key).2.2.1
    rw [hposted.state] at hactive'
    rcases removed with hold | hnew
    · exact gone_of_gone reached (.single step) (ih hold)
    · rcases removed_cases hnew with
        ⟨reply, entry, hevent, hentry, -⟩ | ⟨operation, other, subscription, connection, reply,
          hevent, hnoted⟩
      · rw [hposted.before] at hentry
        have hrank := rank_le_of_steps reached (.single step) key
        have habsent : moment.turn.state.index.contains key = false := by
          rw [hposted.told _ hevent, State.handle, State.unsubscribe, hentry]
          show (w.state.unindex key).index.contains key = false
          rw [Table.contains, State.index_unindex, if_pos rfl, Option.isSome_none]
        rw [standing_of_indexed reached hentry, hposted.state] at hrank
        rw [habsent] at hactive'
        rw [hposted.state]
        cases hstanding : moment.turn.state.standing key <;> simp_all [Standing.rank]
      · rw [hposted.before] at hnoted
        have hended : moment.event.ended? = some operation := by
          rw [hevent]
          rfl
        refine (hposted.addition_ended reached step (mem_additions_of_noted hnoted)
          hended).resolve_left ?_
        intro hactive
        rw [hposted.state] at hactive
        have hindexed := hactive'.2 hactive
        rw [hposted.turn_of_added hconsistent step hevent hnoted] at hindexed
        have hbefore : w.state.index.contains key = true := by
          rw [← index_takeBack { w.state with
            continuations := w.state.continuations.erase operation } processor key connection]
          exact hindexed
        have hstanding := standing_of_noted reached hnoted
        rw [(standing_spec reached key).2.2.1.1 hbefore] at hstanding
        cases hstanding

end World

end JobBroker.Manager
