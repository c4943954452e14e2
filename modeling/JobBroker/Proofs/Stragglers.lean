import JobBroker.Proofs.Registrations

/-!
# Processors that were given back are left alone

Whoever makes a call on a processor has found it in a bucket or in the index, and there it is no
more once its teardown was asked for. There is one exception: when an addition ends well whose
connection has closed, the processor is told to drop the subscription whether it is still
registered or not.
-/

namespace JobBroker.Manager

open Holding Table

def Call.on? : Call → Option Processor
  | .add processor _ => some processor
  | .remove processor _ => some processor
  | .sweep processor _ => some processor
  | .build _ => none
  | .teardown _ => none

/-- A processor has accepted the subscription under a key, and its connection has closed. -/
def Moment.TakesBack (moment : Moment) (processor : Processor) (key : SubscriberKey) : Prop :=
  ∃ operation subscription connection reply,
    moment.event = .ended operation (.add processor subscription) (.ok ()) ∧
    subscription.key = some key ∧
    moment.before.continuations.get? operation =
      some (.subscribe key connection processor reply true)

/-! ### Nothing is handed to a processor that is gone -/

section

open Ledger

variable {k : Knowledge} {b b' : Ledger} {signs : List Sign} {settled : List Ticket}
  {processor : Processor}

theorem Move.unhanded (h : Move k b signs settled b') (gone : b.Gone processor)
    (key : Option SubscriberKey) : .handed key processor ∉ signs := by
  intro sign
  cases h
  case hand b unit w other registered jobType =>
    simp only [List.mem_cons, Sign.handed.injEq, List.not_mem_nil, or_false] at sign
    obtain ⟨-, rfl⟩ := sign
    exact gone.2 unit.partition (mem_plus.2 (.inl registered))
  all_goals simp at sign

theorem Moves.unhanded (h : Moves k b signs settled b') (gone : b.Gone processor)
    (key : Option SubscriberKey) : .handed key processor ∉ signs := by
  induction h with
  | rest => exact List.not_mem_nil
  | next moves move ih =>
    rw [List.mem_append, not_or]
    exact ⟨ih, move.unhanded (moves.gone gone) key⟩

/-- Within a turn no processor is handed anything behind its teardown. -/
theorem Moves.handed_first (h : Moves k b signs settled b') (sound : b.Sound k) :
    signs.Pairwise fun sign later =>
      ∀ processor key, sign = .discarded processor → later ≠ .handed key processor := by
  induction h with
  | rest => exact .nil
  | next moves move ih =>
    refine List.pairwise_append.2 ⟨ih, ?_, ?_⟩
    · cases move <;> simp
    · rintro sign hsign later hlater processor key rfl rfl
      exact move.unhanded (moves.discarded sound hsign) key hlater

end

/-! ### Turns that withdraw subscriptions do nothing else -/

namespace State

variable {s : State}

theorem calls_forEach {α : Type} {P : OperationId × Call → Prop} {act : State → α → Turn}
    (each : ∀ s item, ∀ call ∈ callsOf (act s item).effects, P call) (s : State)
    (items : List α) : ∀ call ∈ callsOf (s.forEach items act).effects, P call := by
  induction items generalizing s with
  | nil => exact List.forall_mem_nil _
  | cons item items ih =>
    intro call hcall
    rw [forEach, Turn.effects_andThen, callsOf_append, List.mem_append] at hcall
    exact hcall.elim (each s item call) (ih _ call)

theorem calls_unsubscribe (s : State) (key : SubscriberKey) (reply : Ticket) :
    ∀ call ∈ callsOf (s.unsubscribe key reply).effects, call.2.isWithdrawal = true := by
  unfold unsubscribe
  split
  next => exact List.forall_mem_nil _
  next =>
    intro call hcall
    rw [List.mem_singleton.1 hcall]
    rfl

theorem calls_connectionClosed (s : State) (connection : ConnectionId) :
    ∀ call ∈ callsOf (s.connectionClosed connection).effects, call.2.isWithdrawal = true := by
  rw [connectionClosed_eq, Turn.effects_andThen, callsOf_append, settleAll, callsOf_settle,
    List.nil_append]
  refine calls_forEach (fun s processor call hcall => ?_) _ _
  rw [List.mem_singleton.1 hcall]
  rfl

theorem calls_takenBack {operation : OperationId} {key : SubscriberKey}
    {connection : ConnectionId} {processor : Processor} {reply : Ticket}
    (noted : s.continuations.get? operation =
      some (.subscribe key connection processor reply true)) :
    ∀ call ∈ callsOf (s.handle (.resume operation (.settled (.ok ())))).effects,
      call.2.isWithdrawal = true := by
  rw [handle, resume, noted]
  intro call hcall
  rw [List.mem_singleton.1 hcall]
  rfl

end State

namespace World

section

variable {w w' : World} {moment : Moment} {creditCapacity : Nat} {processor : Processor}

theorem Posted.calls_of_withdrawal (h : w.Consistent) (posted : w.Posted moment w')
    (step : Step w w') {call : Call} (mem : call ∈ moment.withdrawals) :
    ∀ made ∈ callsOf moment.turn.effects, made.2.isWithdrawal = true := by
  cases posted.turns h step with
  | told message client =>
    cases message with
    | unsubscribe key reply => exact w.state.calls_unsubscribe key reply
    | connectionClosed connection => exact w.state.calls_connectionClosed connection
    | _ => cases mem
  | ended operation continuation made held noted fits result =>
    unfold Moment.withdrawals at mem
    dsimp only at mem
    split at mem
    next hevent => cases hevent
    next hevent => cases hevent
    next hevent =>
      cases hevent
      split at mem
      next hmarked => exact State.calls_takenBack hmarked
      next => cases mem
    next => cases mem
  | worked event credits untold unended => exact List.forall_mem_nil _

/-- In the moment of a teardown, no call on the processor comes behind it. -/
theorem Posted.last_call (h : Reachable creditCapacity w) (posted : w.Posted moment w')
    (step : Step w w') :
    (callsOf moment.turn.effects).Pairwise fun call later =>
      ∀ processor, call.2 = .teardown processor → later.2.on? ≠ some processor := by
  have hconsistent := consistent_of_reachable h
  have hsigns := posted.moves.handed_first (posted.sound_before hconsistent)
  rw [Moment.signs, List.pairwise_append, List.pairwise_flatMap] at hsigns
  refine hsigns.2.1.2.imp_of_mem ?_
  rintro ⟨operation, call⟩ ⟨operation', later⟩ hcall hlater hfirst processor rfl hon
  have hdiscarded : Sign.discarded processor ∈ (Call.teardown processor).signs :=
    List.mem_singleton_self _
  cases later with
  | add other subscription =>
    cases hon
    exact hfirst _ hdiscarded _ (List.mem_singleton_self _) processor subscription.key rfl rfl
  | remove other key | sweep other connection =>
    have hmem : _ ∈ moment.turn.withdrawals :=
      Turn.mem_withdrawals.2 ⟨rfl, operation', hlater⟩
    rw [posted.turn_withdrawals hconsistent step] at hmem
    exact absurd (posted.calls_of_withdrawal hconsistent step hmem _ hcall) Bool.false_ne_true
  | _ => cases hon

/-- What still happens to a processor whose teardown was asked for: nothing, but that what it has
accepted for a closed connection is taken back. -/
theorem Posted.left_alone (h : Reachable creditCapacity w) (posted : w.Posted moment w')
    (step : Step w w') (sign : .discarded processor ∈ w.signs) :
    (∀ attempt ∈ moment.event.attempts, attempt.asked ≠ some processor) ∧
      ∀ call ∈ callsOf moment.turn.effects, call.2.on? = some processor →
        ∃ key, call.2 = .remove processor key ∧ moment.TakesBack processor key := by
  have hconsistent := consistent_of_reachable h
  have hindex : ∀ {key entry}, w.state.index.get? key = some entry →
      entry.processor ≠ processor := by
    rintro key entry hentry rfl
    exact not_discarded_of_index h hentry sign
  refine ⟨?_, ?_⟩
  · intro attempt hattempt hasked
    obtain ⟨event, turn, rfl, hroutes⟩ := step.routes
    rw [← posted.eq_of_history rfl] at hattempt
    rw [hroutes attempt hattempt, Option.map_eq_some_iff] at hasked
    obtain ⟨entry, hentry, heq⟩ := hasked
    exact hindex hentry heq
  · rintro ⟨operation, call⟩ hcall hon
    have hwithdrawn : call.isWithdrawal = true → call ∈ moment.withdrawals := by
      intro hwithdrawal
      rw [← posted.turn_withdrawals hconsistent step]
      exact Turn.mem_withdrawals.2 ⟨hwithdrawal, operation, hcall⟩
    cases call with
    | add other subscription =>
      cases hon
      refine absurd ?_ (posted.moves.unhanded (State.gone_owed (gone_of_discarded h sign) _)
        subscription.key)
      exact List.mem_append_right _
        (List.mem_flatMap.2 ⟨_, hcall, List.mem_singleton_self _⟩)
    | remove other key =>
      cases hon
      rcases removed_cases (hwithdrawn rfl) with
        ⟨reply, entry, -, hentry, heq⟩ |
        ⟨ended, other, subscription, connection, reply, hevent, hnoted⟩
      · rw [posted.before] at hentry
        exact absurd heq (hindex hentry)
      · -- the call that has ended is the one that the addition was noted of
        obtain ⟨noted, hget, hfits⟩ := hconsistent.awaits _ (posted.ended ended _ _ hevent)
        rw [← posted.before, hnoted] at hget
        cases hget
        obtain ⟨rfl, hkey, -⟩ := hfits
        exact ⟨key, rfl, ended, subscription, connection, reply, hevent, hkey, hnoted⟩
    | sweep other connection =>
      cases hon
      have hmember := (swept_cases (hwithdrawn rfl)).2
      rw [posted.before] at hmember
      exact absurd hmember (World.not_member_of_discarded h sign)
    | _ => cases hon

/-- Once the builder was asked to tear a processor down, no credits reach the processor, and no
call is made on it in the same moment. Later on there is one occasion for a call: an addition that
was still under way ends well, although its connection has closed, and the processor is told to
drop what it has accepted. -/
theorem torn_down_left_alone (h : Reachable creditCapacity w) {early late : List Moment}
    (history : w.history = early ++ moment :: late) {operation : OperationId}
    (asked : (operation, .teardown processor) ∈ callsOf moment.turn.effects) :
    ((callsOf moment.turn.effects).Pairwise fun call later =>
        call.2 = .teardown processor → later.2.on? ≠ some processor) ∧
      ∀ later ∈ late,
        (∀ attempt ∈ later.event.attempts, attempt.asked ≠ some processor) ∧
        ∀ call ∈ callsOf later.turn.effects, call.2.on? = some processor →
          ∃ key, call.2 = .remove processor key ∧ later.TakesBack processor key := by
  refine ⟨?_, ?_⟩
  · obtain ⟨v, v', hreached, -, hstep, hposted, -⟩ := steps_of_history h history
    exact (hposted.last_call hreached hstep).imp fun hlast => hlast processor
  · intro later hlater
    obtain ⟨middle, last, rfl⟩ := List.append_of_mem hlater
    rw [← List.cons_append, ← List.append_assoc] at history
    obtain ⟨v, v', hreached, hearly, hstep, hposted, -⟩ := steps_of_history h history
    have hcall : (operation, .teardown processor) ∈ v.calls :=
      List.mem_flatMap.2 ⟨moment, by rw [hearly]; simp, asked⟩
    exact hposted.left_alone hreached hstep
      (mem_signs_of_calls hcall (List.mem_singleton_self _))

end

end World

namespace Sample

open World

/-- The partition is removed while an addition is under way whose connection has closed. -/
def stopping : World := severing.tell (.removePartition ⟨1⟩)

def recalled : World :=
  stopping.finish ⟨1⟩ (.add processor { subscription with key := some ⟨0⟩ }) (.ok ())

theorem reachable_recalled : Reachable 2 recalled :=
  ((reachable_adding.next (.tell _ rfl)).next (.tell _ rfl)).next
    (.finish _ _ (by decide +kernel) _)

end Sample

namespace World

open Sample in
theorem torn_down_left_alone_sample :
    ∃ moment ∈ recalled.history, moment.TakesBack processor ⟨0⟩ ∧
      ∀ attempt ∈ moment.event.attempts, attempt.asked ≠ some processor := by
  have hhistory : recalled.history = severing.history ++
      ⟨severing.state, .told (.removePartition ⟨1⟩),
        severing.state.handle (.removePartition ⟨1⟩)⟩ ::
      [⟨stopping.state, .ended ⟨1⟩ (.add processor { subscription with key := some ⟨0⟩ }) (.ok ()),
        stopping.state.handle (.resume ⟨1⟩ (.settled (.ok ())))⟩] := rfl
  have hasked : (⟨3⟩, .teardown processor) ∈
      callsOf (severing.state.handle (.removePartition ⟨1⟩)).effects := by decide +kernel
  have hlater := (torn_down_left_alone reachable_recalled hhistory hasked).2 _
    (List.mem_singleton_self _)
  obtain ⟨key, hcall, htaken⟩ := hlater.2 (⟨4⟩, .remove processor ⟨0⟩) (by decide +kernel) rfl
  cases hcall
  exact ⟨_, List.mem_append_right _ (List.mem_singleton_self _), htaken, hlater.1⟩

open Sample in
/-- A processor is told to drop a subscription when its unit was torn down already. -/
theorem torn_down_called :
    ¬∀ (creditCapacity : Nat) (w : World), Reachable creditCapacity w →
      ∀ (early : List Moment) (moment : Moment) (late : List Moment),
        w.history = early ++ moment :: late →
        ∀ (operation : OperationId) (processor : Processor),
          (operation, .teardown processor) ∈ callsOf moment.turn.effects →
          ∀ later ∈ late, ∀ call ∈ callsOf later.turn.effects, call.2.on? ≠ some processor := by
  intro silent
  exact silent 2 recalled reachable_recalled severing.history _
    [⟨stopping.state, .ended ⟨1⟩ (.add processor { subscription with key := some ⟨0⟩ }) (.ok ()),
      _⟩] rfl ⟨3⟩ processor (by decide +kernel) _ (List.mem_singleton_self _)
    (⟨4⟩, .remove processor ⟨0⟩) (by decide +kernel) rfl

end World

end JobBroker.Manager
