import JobBroker.Proofs.Advance
import JobBroker.Proofs.Withdrawals

/-!
# Closed connections

A connection that closes takes its subscriptions with it, wherever they are. Those that wait are
told at once, and those that are active leave the index. One that is on its way to a processor is
marked: when the processor has accepted it, it is taken back.
-/

namespace JobBroker.Manager

open Holding Table

namespace State

variable {s : State}

/-! ### The turn that closes a connection -/

/-- The state once a connection has closed, before the processors are told. -/
def severed (s : State) (connection : ConnectionId) : State :=
  (s.purge fun entry => entry.connection = connection).disconnect connection

theorem connectionClosed_eq (s : State) (connection : ConnectionId) :
    s.connectionClosed connection =
      ((s.severed connection).settleAll ((s.waitingOf connection).map Waiting.reply)
        (.error (.connectionClosed connection))).andThen fun s =>
          s.forEach s.processors fun s processor =>
            s.issue (.sweep processor connection) (.sweep processor connection) := by
  have hwaiting : (s.purge fun entry => entry.connection = connection).waitingOf connection =
      s.waitingOf connection := by
    unfold waitingOf
    rw [purge, unindexAll_eq]
  rw [← hwaiting, ← abandoned_eq]
  rfl

section

variable (s) (connection : ConnectionId)

theorem sweepAll_eq (processors : List Processor) :
    (s.forEach processors fun s processor =>
      s.issue (.sweep processor connection) (.sweep processor connection)).state =
      { s with
        continuations := (s.forEach processors fun s processor =>
          s.issue (.sweep processor connection) (.sweep processor connection)).state.continuations
        nextOperation := (s.forEach processors fun s processor =>
          s.issue (.sweep processor connection)
            (.sweep processor connection)).state.nextOperation } := by
  induction processors generalizing s with
  | nil => rfl
  | cons processor processors ih =>
    rw [forEach, Turn.state_andThen, ih]
    rfl

theorem settledOf_sweepAll (processors : List Processor) :
    settledOf (s.forEach processors fun s processor =>
      s.issue (.sweep processor connection) (.sweep processor connection)).effects = [] := by
  induction processors generalizing s with
  | nil => rfl
  | cons processor processors ih => exact ih _

/-- Telling processors leaves the additions alone that are on their way. -/
theorem noted_sweepAll (fresh : s.Fresh) (processors : List Processor) {operation : OperationId}
    {continuation : Continuation} (adding : continuation.promise? ≠ none) :
    (s.forEach processors fun s processor =>
      s.issue (.sweep processor connection)
        (.sweep processor connection)).state.continuations.get? operation = some continuation ↔
      s.continuations.get? operation = some continuation := by
  induction processors generalizing s with
  | nil => exact Iff.rfl
  | cons processor processors ih =>
    have hissue := Turn.Answers.issue_other fresh (.sweep processor connection) []
      (show (Continuation.sweep processor connection).promise? = none from rfl)
    rw [forEach, Turn.state_andThen, ih _ hissue.fresh]
    show (s.continuations.insert ⟨s.nextOperation⟩ _).get? operation = _ ↔ _
    rw [get?_insert]
    split
    next heq =>
      constructor
      · rintro hsweep
        cases hsweep
        exact absurd rfl adding
      · intro hget
        have hlt := fresh operation continuation hget
        rw [heq] at hlt
        exact absurd hlt (Nat.lt_irrefl _)
    next => exact Iff.rfl

/-- Whoever waits for a connection is told that it has closed, and nobody else is told anything. -/
theorem settledOf_connectionClosed :
    settledOf (s.connectionClosed connection).effects =
      (s.waitingOf connection).map fun w => (w.reply, .error (.connectionClosed connection)) := by
  rw [connectionClosed_eq, Turn.effects_andThen, settledOf_append, settledOf_sweepAll,
    List.append_nil, Turn.Answers.settledOf_settleAll, List.map_map]
  rfl

/-- Of those who wait for one unit the ones who wait longer are told first. -/
theorem sublist_settledOf_connectionClosed {unit : UnitKey} {queue : List Waiting}
    (waits : s.pending.get? unit = some queue) :
    ((queue.filter fun w => w.subscription.connection = connection).map fun w =>
      (w.reply, .error (.connectionClosed connection))).Sublist
      (settledOf (s.connectionClosed connection).effects) := by
  rw [settledOf_connectionClosed, waitingOf, List.flatMap_def]
  refine (List.sublist_flatten_of_mem (List.mem_map.2 ⟨queue, ?_, rfl⟩)).map _
  exact List.mem_map_of_mem (get?_eq_some_iff.1 waits)

theorem pending_connectionClosed (unit : UnitKey) :
    (s.connectionClosed connection).state.pending.get? unit =
      (s.pending.get? unit).map fun queue =>
        queue.filter fun w => w.subscription.connection ≠ connection := by
  have hpending : (s.purge fun entry => entry.connection = connection).pending = s.pending := by
    rw [purge, unindexAll_eq]
  rw [connectionClosed_eq, Turn.state_andThen, sweepAll_eq]
  show (severed s connection).pending.get? unit = _
  rw [severed, disconnect, get?_mapValues, hpending]

theorem index_connectionClosed (key : SubscriberKey) :
    (s.connectionClosed connection).state.index.get? key =
      (s.index.get? key).filter fun entry => entry.connection ≠ connection := by
  rw [connectionClosed_eq, Turn.state_andThen, sweepAll_eq]
  show (s.purge fun entry => entry.connection = connection).index.get? key = _
  rw [purge, index_unindexAll]
  split
  next hmem =>
    obtain ⟨entry, hget, htest⟩ := mem_keysWhere.1 hmem
    rw [hget, Option.filter_some, if_neg (by simpa using htest)]
  next hnot =>
    cases hget : s.index.get? key with
    | none => rfl
    | some entry =>
      have htest : entry.connection ≠ connection := fun heq =>
        hnot (mem_keysWhere.2 ⟨entry, hget, by simpa using heq⟩)
      rw [Option.filter_some, if_pos (by simpa using htest)]

theorem adding_connectionClosed (fresh : s.Fresh) {operation : OperationId}
    {continuation : Continuation} (adding : continuation.promise? ≠ none) :
    (s.connectionClosed connection).state.continuations.get? operation = some continuation ↔
      ∃ old, s.continuations.get? operation = some old ∧
        markClosed connection old = continuation := by
  have hcontinuations : (severed s connection).continuations =
      s.continuations.mapValues fun _ c => markClosed connection c := by
    rw [severed, disconnect, purge, unindexAll_eq]
  have hfresh : (severed s connection).Fresh := by
    intro other old hget
    have hnext : (severed s connection).nextOperation = s.nextOperation := by
      rw [severed, disconnect, purge, unindexAll_eq]
    rw [hcontinuations, get?_mapValues, Option.map_eq_some_iff] at hget
    obtain ⟨before, hbefore, -⟩ := hget
    rw [hnext]
    exact fresh other before hbefore
  rw [connectionClosed_eq, Turn.state_andThen]
  refine (noted_sweepAll (severed s connection) connection hfresh _ adding).trans ?_
  rw [hcontinuations, get?_mapValues, Option.map_eq_some_iff]

end

theorem settledOf_release (s : State) (processor : Processor) :
    settledOf (s.release processor).effects = [] := by
  unfold release
  dsimp only
  split
  next =>
    unfold retire
    split <;> rfl
  next => rfl

/-- What the future of a subscription is told whose connection closed while it was on its way. -/
def closingError (connection : ConnectionId) : Except String Unit → SubscriptionError
  | .ok () => .connectionClosed connection
  | .error reason => .dispatch reason

theorem settledOf_onAdded_closed (s : State) (key : SubscriberKey) (connection : ConnectionId)
    (processor : Processor) (reply : Ticket) (result : Except String Unit) :
    settledOf (s.onAdded key connection processor reply true result).effects =
      [(reply, .error (closingError connection result))] := by
  cases result with
  | ok => rfl
  | error reason =>
    show settledOf ((s.release processor).effects ++ _) = _
    rw [settledOf_append, settledOf_release]
    rfl

end State

/-! ### After a connection has closed -/

namespace World

variable {w w' w'' : World} {moment : Moment} {creditCapacity : Nat} {connection : ConnectionId}
  {key : SubscriberKey} {subscription : JobSubscription}

theorem moments_of_steps (h : Reachable creditCapacity w)
    (steps : Relation.ReflTransGen Step w w') :
    ∀ moment ∈ w'.history, moment ∈ w.history ∨
      ∃ v v', Relation.ReflTransGen Step w v ∧ Step v v' ∧ v.Posted moment v' ∧
        Relation.ReflTransGen Step v' w' := by
  induction steps with
  | refl => exact fun moment hmem => .inl hmem
  | @tail v v' earlier step ih =>
    obtain ⟨posting, hposted⟩ :=
      posted_of_step (consistent_of_reachable (reachable_of_steps h earlier)) step
    intro moment hmem
    rw [hposted.history, List.mem_append, List.mem_singleton] at hmem
    rcases hmem with hold | rfl
    · refine (ih moment hold).imp id ?_
      rintro ⟨u, u', hsteps, hstep, hpost, hlater⟩
      exact ⟨u, u', hsteps, hstep, hpost, hlater.tail step⟩
    · exact .inr ⟨v, v', earlier, step, hposted, .refl⟩

theorem history_of_steps (steps : Relation.ReflTransGen Step w w') : w.history <+: w'.history := by
  induction steps with
  | refl => exact List.prefix_refl _
  | tail _ step ih => cases step <;> exact ih.trans (List.prefix_append _ _)

theorem calls_of_steps (steps : Relation.ReflTransGen Step w w') : w.calls.Sublist w'.calls :=
  (history_of_steps steps).sublist.flatMap _

theorem requests_of_steps (steps : Relation.ReflTransGen Step w w') :
    w.requests.Sublist w'.requests := (history_of_steps steps).sublist.filterMap _

theorem assigned_of_steps (steps : Relation.ReflTransGen Step w w') :
    w.assigned.Sublist w'.assigned := (history_of_steps steps).sublist.filterMap _

theorem promised_of_steps (steps : Relation.ReflTransGen Step w w') :
    w.promised.Sublist w'.promised := (history_of_steps steps).sublist.filterMap _

/-- Whoever has subscribed was told something, or is promised a key. -/
theorem promised_of_subscribed (h : Reachable creditCapacity w) (mem : moment ∈ w.history)
    {reply : Ticket} (told : moment.event = .told (.subscribe subscription reply)) :
    reply ∈ w.settlements ∨
      ∃ key, (key, reply) ∈ w.promised ∧ (key, subscription) ∈ w.assigned := by
  induction h with
  | start => cases mem
  | @next w w' reached step ih =>
    obtain ⟨posting, hposted⟩ := posted_of_step (consistent_of_reachable reached) step
    rw [hposted.history, List.mem_append, List.mem_singleton] at mem
    rw [hposted.settlements]
    rcases mem with hold | rfl
    · refine (ih hold).imp (List.mem_append_left _) ?_
      rintro ⟨key, hpromised, hassigned⟩
      refine ⟨key, hposted.promised_later hpromised, ?_⟩
      rw [hposted.assigned]
      exact List.mem_append_left _ hassigned
    · have hgreets := hposted.greets reached step told
      cases hfound : w.state.buckets.contains subscription.partition with
      | false =>
        refine .inl (List.mem_append_right _ ?_)
        rw [Turn.settled, (hgreets.refused hfound).1]
        exact List.mem_singleton_self _
      | true =>
        obtain ⟨-, hassigned, hpromised, -⟩ := hgreets.taken hfound
        refine .inr ⟨⟨w.state.nextKey⟩, ?_, ?_⟩
        · rw [hpromised]
          exact List.mem_append_right _ (List.mem_singleton_self _)
        · rw [hassigned]
          exact List.mem_append_right _ (List.mem_singleton_self _)

section

variable (h : Reachable creditCapacity w)
include h

/-- What is held under a key is of the connection whose subscription was given the key. -/
theorem assigned_of_held {thing : Holding} (held : thing ∈ (w.state.ledger 0).holdings)
    (named : thing.key? = some key) (owned : thing.client? = some connection) :
    ∃ subscription, (key, subscription) ∈ w.assigned ∧ subscription.connection = connection := by
  have hproper := (consistent_of_reachable h).sound.proper thing held
  have hasked : ∀ unit, w.knowledge.Asked key unit connection →
      ∃ subscription, (key, subscription) ∈ w.assigned ∧
        subscription.connection = connection := by
    rintro unit ⟨subscription, hassigned, -, hconnection⟩
    exact ⟨subscription, hassigned, hconnection⟩
  cases thing with
  | waiting unit waiting =>
    cases named
    cases owned
    exact hasked _ hproper
  | indexed other entry =>
    cases named
    cases owned
    exact hasked _ hproper.1
  | ongoing continuation =>
    cases continuation with
    | subscribe other asking processor reply marked =>
      cases named
      cases owned
      exact hasked _ hproper.1
    | _ => cases named
  | _ => cases named

/-- Of the subscriptions of a connection that has closed only additions are left, and these are
marked. -/
theorem marked_of_closed (assigned : (key, subscription) ∈ w.assigned)
    (owner : subscription.connection = connection) {thing : Holding}
    (held : thing ∈ ((w.tell (.connectionClosed connection)).state.ledger 0).holdings)
    (named : thing.key? = some key) :
    ∃ processor reply, thing = ongoing (.subscribe key connection processor reply true) := by
  let closed := w.tell (.connectionClosed connection)
  have hclosed : Reachable creditCapacity closed := h.next (.tell _ rfl)
  have hconsistent := consistent_of_reachable hclosed
  have hassigned : (key, subscription) ∈ closed.assigned :=
    (assigned_of_steps (.single (.tell _ rfl))).subset assigned
  -- whoever asks under the key asks from the connection
  have howner : ∀ asking, thing.client? = some asking → asking = connection := by
    intro asking hasking
    obtain ⟨other, hother, hsame⟩ := assigned_of_held hclosed held named hasking
    rw [← hsame, (Prod.mk.inj (hconsistent.unique _ hother _ hassigned rfl)).2, owner]
  cases thing with
  | waiting unit waiting =>
    cases named
    obtain ⟨queue, hqueue, hmem⟩ :=
      (State.waiting_mem_ledger.1 held).resolve_right (Multiset.notMem_zero _)
    change (w.state.connectionClosed connection).state.pending.get? unit = _ at hqueue
    rw [State.pending_connectionClosed, Option.map_eq_some_iff] at hqueue
    obtain ⟨old, -, rfl⟩ := hqueue
    exact absurd (howner _ rfl) (by simpa using (List.mem_filter.1 hmem).2)
  | indexed other entry =>
    cases named
    have hget := (State.indexed_mem_ledger.1 held).resolve_right (Multiset.notMem_zero _)
    change (w.state.connectionClosed connection).state.index.get? _ = _ at hget
    rw [State.index_connectionClosed, Option.filter_eq_some_iff] at hget
    exact absurd (howner _ rfl) (by simpa using hget.2)
  | ongoing continuation =>
    cases continuation with
    | subscribe other asking processor reply marked =>
      cases named
      have hasking := howner _ rfl
      obtain ⟨operation, hget⟩ :=
        (State.ongoing_mem_ledger.1 held).resolve_right (Multiset.notMem_zero _)
      have hadding : (Continuation.subscribe key asking processor reply marked).promise? ≠ none :=
        Option.some_ne_none _
      obtain ⟨old, -, hold⟩ := (State.adding_connectionClosed w.state connection
        (consistent_of_reachable h).orderly.fresh hadding).1 hget
      cases old with
      | subscribe =>
        cases hold
        refine ⟨processor, reply, ?_⟩
        simp only [hasking, decide_true, Bool.or_true]
      | _ => cases hold
    | _ => cases named
  | _ => cases named

theorem marked_of_steps (steps : Relation.ReflTransGen Step
      (w.tell (.connectionClosed connection)) w')
    (assigned : (key, subscription) ∈ w.assigned) (owner : subscription.connection = connection)
    {thing : Holding} (held : thing ∈ (w'.state.ledger 0).holdings)
    (named : thing.key? = some key) :
    ∃ processor reply, thing = ongoing (.subscribe key connection processor reply true) ∧
      thing ∈ ((w.tell (.connectionClosed connection)).state.ledger 0).holdings := by
  have hold : key.val < (w.tell (.connectionClosed connection)).state.nextKey :=
    Nat.lt_of_lt_of_le ((consistent_of_reachable h).assigned _ assigned)
      (nextKey_le_of_steps h (.single (.tell _ rfl)))
  obtain ⟨first, hfirst, hleads⟩ :=
    leads_of_steps (h.next (.tell _ rfl)) steps held named hold
  obtain ⟨processor, reply, rfl⟩ :=
    marked_of_closed h assigned owner hfirst (hleads.key?.symm.trans named)
  -- what is marked becomes nothing else
  cases hleads
  exact ⟨processor, reply, rfl, hfirst⟩

/-- No subscription is active any more that a closed connection had. -/
theorem inactive_of_closed (steps : Relation.ReflTransGen Step
      (w.tell (.connectionClosed connection)) w')
    (assigned : (key, subscription) ∈ w.assigned)
    (owner : subscription.connection = connection) : w'.state.index.contains key = false := by
  rw [← Bool.not_eq_true]
  intro hcontains
  obtain ⟨entry, hentry⟩ := Option.isSome_iff_exists.1 hcontains
  have hheld : indexed key entry ∈ (w'.state.ledger 0).holdings :=
    State.indexed_mem_ledger.2 (.inl hentry)
  obtain ⟨processor, reply, heq, -⟩ := marked_of_steps h steps assigned owner hheld rfl
  cases heq

theorem refused_of_closed (steps : Relation.ReflTransGen Step
      (w.tell (.connectionClosed connection)) w') (own : w'.requests.Nodup)
    (mem : moment ∈ w.history) {reply : Ticket}
    (told : moment.event = .told (.subscribe subscription reply))
    (owner : subscription.connection = connection) (waits : reply ∉ w.settlements)
    {later : Moment} (after : later ∈ w'.history) (answer : Answer) :
    (reply, .ok answer) ∉ settledOf later.turn.effects := by
  intro hok
  obtain ⟨key, hpromised, hassigned⟩ := (promised_of_subscribed h mem told).resolve_left waits
  have hclosed : Reachable creditCapacity (w.tell (.connectionClosed connection)) :=
    h.next (.tell _ rfl)
  rcases moments_of_steps hclosed steps later after with
    hbefore | ⟨v, v', hsteps, hstep, hposted, hrest⟩
  · rcases List.mem_append.1 hbefore with hearly | hclosing
    · exact waits (List.mem_flatMap.2 ⟨later, hearly, List.mem_map.2 ⟨_, hok, rfl⟩⟩)
    · -- in the moment of the close futures are told errors only
      rw [List.mem_singleton.1 hclosing] at hok
      change _ ∈ settledOf (w.state.connectionClosed connection).effects at hok
      rw [State.settledOf_connectionClosed] at hok
      obtain ⟨waiting, -, heq⟩ := List.mem_map.1 hok
      cases heq
  · have hreached := reachable_of_steps hclosed hsteps
    have hown : v'.requests.Nodup := own.sublist (requests_of_steps hrest)
    have hlater : (key, reply) ∈ v'.promised :=
      (promised_of_steps ((Relation.ReflTransGen.single (.tell _ rfl)).trans
        (hsteps.tail hstep))).subset hpromised
    have hactive := (((hposted.tells hreached hstep hown hlater).activated answer).1 hok).2.2
    have hindexed := (standing_spec (hreached.next hstep) key).2.2.1.2 hactive
    rw [inactive_of_closed h (hsteps.tail hstep) hassigned owner] at hindexed
    cases hindexed

end

/-! ### Additions that are taken back -/

end World

/-- Tells whether a call has a processor drop the subscription under a key. -/
def Call.removes (key : SubscriberKey) : Call → Bool
  | .remove _ other => other = key
  | _ => false

namespace World

/-- The calls that had a processor drop the subscription under a key. -/
def removals (w : World) (key : SubscriberKey) : List Call :=
  w.withdrawals.filter (Call.removes key)

variable {w w' w'' : World} {moment : Moment} {creditCapacity : Nat} {connection : ConnectionId}
  {key : SubscriberKey} {processor : Processor} {operation : OperationId} {reply : Ticket}
  {closed : Bool}

theorem Posted.removals (h : w.Consistent) (posted : w.Posted moment w') (step : Step w w')
    (key : SubscriberKey) :
    w'.removals key = w.removals key ++ moment.withdrawals.filter (Call.removes key) := by
  rw [World.removals, posted.withdrawals h step, List.filter_append]
  rfl

theorem removes_iff {call : Call} :
    call.removes key = true ↔ ∃ processor, call = .remove processor key := by
  cases call with
  | remove processor other => simp [Call.removes]
  | _ => simp [Call.removes]

theorem removals_eq_nil (h : Reachable creditCapacity w) (here : w.state.standing key ≠ .gone) :
    w.removals key = [] := by
  rw [removals, List.filter_eq_nil_iff]
  intro call hmem hremoves
  obtain ⟨processor, rfl⟩ := removes_iff.1 hremoves
  exact here (gone_of_removed h hmem)

/-- Nothing is removed that is gone already. -/
theorem removals_of_gone (h : Reachable creditCapacity w) (posted : w.Posted moment w')
    (gone : w.state.standing key = .gone) :
    moment.withdrawals.filter (Call.removes key) = [] := by
  rw [List.filter_eq_nil_iff]
  intro call hmem hremoves
  obtain ⟨processor, rfl⟩ := removes_iff.1 hremoves
  rcases removed_cases hmem with ⟨_, entry, -, hentry, -⟩ | ⟨operation, _, _, _, _, -, hnoted⟩
  · rw [posted.before] at hentry
    rw [standing_of_indexed h hentry] at gone
    cases gone
  · rw [posted.before] at hnoted
    rw [standing_of_noted h hnoted] at gone
    cases gone

/-- An addition whose connection has closed is under way; or it has ended, and its key was
withdrawn if the processor had accepted it. -/
def Recalls (w : World) (operation : OperationId) (key : SubscriberKey) (connection : ConnectionId)
    (processor : Processor) (reply : Ticket) : Prop :=
  w.state.continuations.get? operation =
      some (.subscribe key connection processor reply true) ∨
    operation ∈ w.endings ∧ w.state.standing key = .gone ∧
      w.removals key = if (key, processor) ∈ w.accepted then [.remove processor key] else []

/-- An addition goes on as it is until it ends, but that it may be marked. -/
theorem Posted.goes_on (h : w.Consistent) (posted : w.Posted moment w')
    (noted : w.state.continuations.get? operation =
      some (.subscribe key connection processor reply closed))
    (going : moment.event.ended? ≠ some operation) :
    w'.state.continuations.get? operation =
        some (.subscribe key connection processor reply closed) ∨
      w'.state.continuations.get? operation =
        some (.subscribe key connection processor reply true) := by
  obtain ⟨call, hcall, hfits⟩ := h.outstanding noted
  obtain ⟨later, hlater, hfits'⟩ := posted.awaits h _ (posted.stays hcall going)
  cases call with
  | add other subscription =>
    obtain ⟨-, hkey, -⟩ := hfits
    cases later with
    | subscribe key' connection' processor' reply' closed' =>
      obtain ⟨-, hkey', -⟩ := hfits'
      cases hkey.symm.trans hkey'
      have hheld : ongoing (.subscribe key connection processor reply closed) ∈
          (w.state.ledger 0).holdings := State.ongoing_mem_ledger.2 (.inl ⟨operation, noted⟩)
      have hheld' : ongoing (.subscribe key connection' processor' reply' closed') ∈
          (w'.state.ledger 0).holdings := State.ongoing_mem_ledger.2 (.inl ⟨operation, hlater⟩)
      cases posted.leads_to h hheld rfl hheld' rfl with
      | stay => exact .inl hlater
      | mark => exact .inr hlater
    | _ => cases hfits'
  | _ => cases hfits

theorem Recalls.next (h : Reachable creditCapacity w) (step : Step w w')
    (inactive : w'.state.index.contains key = false)
    (before : w.Recalls operation key connection processor reply) :
    w'.Recalls operation key connection processor reply := by
  have hconsistent := consistent_of_reachable h
  obtain ⟨moment, hposted⟩ := posted_of_step hconsistent step
  rw [Recalls, hposted.endings, List.mem_append, Option.mem_toList,
    hposted.removals hconsistent step, hposted.accepted]
  rcases before with hnoted | ⟨hended, hgone, hremovals⟩
  · by_cases hends : moment.event.ended? = some operation
    · right
      obtain ⟨subscription, result, hkey, hevent⟩ :=
        hposted.added_of_ended hconsistent step hnoted hends
      have hadding := standing_of_noted h hnoted
      have hended := hposted.addition_ended h step (mem_additions_of_noted hnoted) hends
      have hgone : w'.state.standing key = .gone := by
        refine hended.resolve_left fun hactive => ?_
        rw [(standing_spec (h.next step) key).2.2.1.2 hactive] at inactive
        cases inactive
      have hunaccepted : (key, processor) ∉ w.accepted := by
        intro haccepted
        rcases standing_of_accepted h haccepted with heq | heq <;> simp [hadding] at heq
      rw [removals_eq_nil h (by simp [hadding])]
      refine ⟨.inr hends, hgone, ?_⟩
      rw [← hposted.before] at hnoted
      cases result with
      | ok =>
        have haccepted : moment.accepted? = some (key, processor) := by
          simp [Moment.accepted?, hevent, hkey]
        simp [Moment.withdrawals, hevent, hnoted, haccepted, Call.removes]
      | error reason =>
        have haccepted : moment.accepted? = none := by simp [Moment.accepted?, hevent]
        simp [Moment.withdrawals, hevent, haccepted, hunaccepted]
    · exact .inl ((hposted.goes_on hconsistent hnoted hends).elim id id)
  · right
    have hnone : ∀ processor, moment.accepted? ≠ some (key, processor) := by
      intro other haccepted
      obtain ⟨_, _, _, _, _, -, hnoted⟩ := hposted.noted_of_accepted hconsistent haccepted
      rw [standing_of_noted h hnoted] at hgone
      cases hgone
    refine ⟨.inl hended, gone_of_gone h (.single step) hgone, ?_⟩
    rw [removals_of_gone h hposted hgone, List.append_nil, hremovals]
    simp only [List.mem_append, Option.mem_toList, hnone, or_false]

section

variable (h : Reachable creditCapacity w) (noted : w.state.continuations.get? operation =
  some (.subscribe key connection processor reply closed))
include h noted

theorem recalls_of_closed :
    (w.tell (.connectionClosed connection)).Recalls operation key connection processor reply := by
  have hadding : (Continuation.subscribe key connection processor reply true).promise? ≠ none :=
    Option.some_ne_none _
  refine .inl ((State.adding_connectionClosed w.state connection
    (consistent_of_reachable h).orderly.fresh hadding).2 ⟨_, noted, ?_⟩)
  simp only [State.markClosed, decide_true, Bool.or_true]

theorem recalls_of_steps (steps : Relation.ReflTransGen Step
      (w.tell (.connectionClosed connection)) w') :
    w'.Recalls operation key connection processor reply := by
  have hheld : ongoing (.subscribe key connection processor reply closed) ∈
      (w.state.ledger 0).holdings := State.ongoing_mem_ledger.2 (.inl ⟨operation, noted⟩)
  obtain ⟨subscription, hassigned, howner⟩ := assigned_of_held h hheld rfl rfl
  have hclosed : Reachable creditCapacity (w.tell (.connectionClosed connection)) :=
    h.next (.tell _ rfl)
  induction steps with
  | refl => exact recalls_of_closed h noted
  | tail earlier step ih =>
    exact ih.next (reachable_of_steps hclosed earlier) step
      (inactive_of_closed h (earlier.tail step) hassigned howner)

theorem settled_of_closed (steps : Relation.ReflTransGen Step
      (w.tell (.connectionClosed connection)) w') (own : w'.requests.Nodup) :
    reply ∈ w'.settlements ↔ operation ∈ w'.endings := by
  have hclosed : Reachable creditCapacity (w.tell (.connectionClosed connection)) :=
    h.next (.tell _ rfl)
  have hreached := reachable_of_steps hclosed steps
  rcases recalls_of_steps h noted steps with hgoing | ⟨hended, hgone, -⟩
  · obtain ⟨call, hcall, -⟩ := (consistent_of_reachable hreached).outstanding hgoing
    have howes : w'.state.Owes (key, reply) := .inr ⟨operation, _, hgoing, rfl⟩
    exact iff_of_false (not_settled_of_owes hreached own howes) (mem_outstanding.1 hcall).2
  · refine iff_of_true ?_ hended
    have hpromised : (key, reply) ∈ w.promised :=
      promised_of_owes h (.inr ⟨operation, _, noted, rfl⟩)
    have hlater := (promised_of_steps ((Relation.ReflTransGen.single (.tell _ rfl)).trans
      steps)).subset hpromised
    refine (owed_of_promised hreached hlater).resolve_right fun howes => ?_
    rcases State.standing_of_owes (consistent_of_reachable hreached).sound howes with heq | heq <;>
      simp [hgone] at heq

/-- Where the addition ends its future is told that the connection has closed, or why the processor
has refused; what the processor has accepted it is told to drop. -/
theorem told_of_closed (steps : Relation.ReflTransGen Step
      (w.tell (.connectionClosed connection)) w') (step : Step w' w'')
    (posted : w'.Posted moment w'') {other : Processor} {subscription : JobSubscription}
    {result : Except String Unit}
    (event : moment.event = .ended operation (.add other subscription) result) :
    settledOf moment.turn.effects = [(reply, .error (State.closingError connection result))] ∧
      moment.turn.withdrawals = if result = .ok () then [.remove processor key] else [] := by
  have hclosed : Reachable creditCapacity (w.tell (.connectionClosed connection)) :=
    h.next (.tell _ rfl)
  have hconsistent := consistent_of_reachable (reachable_of_steps hclosed steps)
  rcases recalls_of_steps h noted steps with hgoing | ⟨hended, -⟩
  · rw [posted.turn_of_added hconsistent step event hgoing]
    refine ⟨State.settledOf_onAdded_closed _ _ _ _ _ _, ?_⟩
    rw [State.withdrawals_onAdded]
    simp only [true_and]
  · -- a call ends once
    exact absurd hended (mem_outstanding.1 (posted.ended _ _ _ event)).2

end

/-! ### The close of a connection -/

/-- What the close of a connection does at once. Those who wait for it are told in the order in
which they wait for their unit; between units there is no order. -/
structure Severs (w : World) (connection : ConnectionId) (w' : World) : Prop where
  settled : (settledOf (w.state.handle (.connectionClosed connection)).effects).Perm
    ((w.state.waitingOf connection).map fun waiting =>
      (waiting.reply, .error (.connectionClosed connection)))
  inOrder : ∀ unit queue, w.state.pending.get? unit = some queue →
    ((queue.filter fun waiting => waiting.subscription.connection = connection).map fun waiting =>
      (waiting.reply, .error (.connectionClosed connection))).Sublist
      (settledOf (w.state.handle (.connectionClosed connection)).effects)
  waiting : ∀ unit, w'.state.pending.get? unit = (w.state.pending.get? unit).map fun queue =>
    queue.filter fun waiting => waiting.subscription.connection ≠ connection
  adding : ∀ operation key owner processor reply closed, owner ≠ connection →
    (w'.state.continuations.get? operation =
        some (.subscribe key owner processor reply closed) ↔
      w.state.continuations.get? operation = some (.subscribe key owner processor reply closed))
  active : ∀ key, w'.state.index.get? key =
    (w.state.index.get? key).filter fun entry => entry.connection ≠ connection

/-- What is so ever after a connection had closed. -/
structure Severed (w : World) (connection : ConnectionId) (w' : World) : Prop where
  inactive : ∀ key subscription, (key, subscription) ∈ w.assigned →
    subscription.connection = connection → w'.state.index.contains key = false
  refused : w'.requests.Nodup → ∀ moment ∈ w.history, ∀ subscription reply,
    moment.event = .told (.subscribe subscription reply) →
    subscription.connection = connection → reply ∉ w.settlements →
    ∀ later ∈ w'.history, ∀ answer, (reply, .ok answer) ∉ settledOf later.turn.effects
  recalled : ∀ operation key processor reply closed, w.state.continuations.get? operation =
      some (.subscribe key connection processor reply closed) →
    w'.removals key = (if (key, processor) ∈ w'.accepted then [.remove processor key] else []) ∧
    (w'.requests.Nodup → (reply ∈ w'.settlements ↔ operation ∈ w'.endings)) ∧
    ∀ w'' moment subscription result, Step w' w'' → w''.history = w'.history ++ [moment] →
      moment.event = .ended operation (.add processor subscription) result →
      settledOf moment.turn.effects = [(reply, .error (State.closingError connection result))] ∧
        moment.turn.withdrawals = if result = .ok () then [.remove processor key] else []

theorem severs_tell (h : Reachable creditCapacity w) (connection : ConnectionId) :
    w.Severs connection (w.tell (.connectionClosed connection)) where
  settled := .of_eq (w.state.settledOf_connectionClosed connection)
  inOrder _ _ := w.state.sublist_settledOf_connectionClosed connection
  waiting := w.state.pending_connectionClosed connection
  adding operation key owner processor reply closed other := by
    have hadding : (Continuation.subscribe key owner processor reply closed).promise? ≠ none :=
      Option.some_ne_none _
    refine (State.adding_connectionClosed w.state connection
      (consistent_of_reachable h).orderly.fresh hadding).trans ⟨?_, ?_⟩
    · rintro ⟨old, hget, hmarked⟩
      cases old with
      | subscribe =>
        simp only [State.markClosed, Continuation.subscribe.injEq] at hmarked
        obtain ⟨rfl, rfl, rfl, rfl, hclosed⟩ := hmarked
        rw [decide_eq_false other, Bool.or_false] at hclosed
        rw [← hclosed, hget]
      | _ => cases hmarked
    · intro hget
      refine ⟨_, hget, ?_⟩
      rw [State.markClosed, decide_eq_false other, Bool.or_false]
  active := w.state.index_connectionClosed connection

/-- When a connection closes whoever waits for it is told so in the same step, and what others have
is left as it was. From then on none of its subscriptions is active, and no future of one that was
not told yet is told its key. One that is on its way is told once its addition has ended, and if the
processor has accepted it this one is told, once, to drop it. -/
theorem connection_close_final (h : Reachable creditCapacity w) (connection : ConnectionId) :
    w.Severs connection (w.tell (.connectionClosed connection)) ∧
      ∀ w', Relation.ReflTransGen Step (w.tell (.connectionClosed connection)) w' →
        w.Severed connection w' := by
  refine ⟨severs_tell h connection, ?_⟩
  intro w' steps
  have hclosed : Reachable creditCapacity (w.tell (.connectionClosed connection)) :=
    h.next (.tell _ rfl)
  have hreached := reachable_of_steps hclosed steps
  refine ⟨fun key subscription => inactive_of_closed h steps, ?_, ?_⟩
  · intro own moment hmem subscription reply told owner waits later after answer
    exact refused_of_closed h steps own hmem told owner waits after answer
  · intro operation key processor reply closed noted
    refine ⟨?_, settled_of_closed h noted steps, ?_⟩
    · rcases recalls_of_steps h noted steps with hgoing | ⟨-, -, hremovals⟩
      · have hadding := standing_of_noted hreached hgoing
        rw [removals_eq_nil hreached (by simp [hadding]), if_neg]
        intro haccepted
        rcases standing_of_accepted hreached haccepted with heq | heq <;> simp [hadding] at heq
      · exact hremovals
    · intro w'' moment subscription result step history event
      obtain ⟨posting, hposted⟩ := posted_of_step (consistent_of_reachable hreached) step
      rw [hposted.eq_of_history history] at event ⊢
      exact told_of_closed h noted steps step hposted event

open Sample in
def severing : World := adding.tell (.connectionClosed ⟨5⟩)

open Sample in
def recalling : World :=
  severing.finish ⟨1⟩ (.add Sample.processor { subscription with key := some ⟨0⟩ }) (.ok ())

open Sample in
theorem connection_close_final_sample :
    severing.removals ⟨0⟩ = [] ∧ recalling.removals ⟨0⟩ = [.remove Sample.processor ⟨0⟩] ∧
      (⟨0⟩ : Ticket) ∉ severing.settlements ∧ (⟨0⟩ : Ticket) ∈ recalling.settlements ∧
      recalling.state.index.contains ⟨0⟩ = false ∧
      settledOf (severing.state.handle (.resume ⟨1⟩ (.settled (.ok ())))).effects =
        [(⟨0⟩, .error (.connectionClosed ⟨5⟩))] := by
  have hnoted : adding.state.continuations.get? ⟨1⟩ =
      some (.subscribe ⟨0⟩ ⟨5⟩ Sample.processor ⟨0⟩ false) := by decide +kernel
  obtain ⟨-, hsevered⟩ := connection_close_final reachable_adding ⟨5⟩
  have hstep : Step severing recalling := .finish _ _ (by decide +kernel) _
  have hrecalled := hsevered recalling (.single hstep)
  obtain ⟨hbefore, hwaits, htold⟩ := (hsevered severing .refl).recalled ⟨1⟩ ⟨0⟩ _ ⟨0⟩ false hnoted
  obtain ⟨hafter, hends, -⟩ := hrecalled.recalled ⟨1⟩ ⟨0⟩ _ ⟨0⟩ false hnoted
  rw [if_neg (by decide +kernel)] at hbefore
  rw [if_pos (by decide +kernel)] at hafter
  refine ⟨hbefore, hafter, ?_, ?_, ?_, (htold _ _ _ _ hstep rfl rfl).1⟩
  · exact (hwaits (by decide +kernel)).not.2 (by decide +kernel)
  · exact (hends (by decide +kernel)).2 (by decide +kernel)
  · exact hrecalled.inactive ⟨0⟩ subscription (by decide +kernel) rfl

end World

end JobBroker.Manager
