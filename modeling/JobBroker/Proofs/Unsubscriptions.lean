import JobBroker.Proofs.Retirements

/-!
# Giving a subscription up

A subscription that is given up is out of the index at once and for good, and its processor is told
once to drop it. What follows is decided where that removal ends: its failure is told; a processor
that something still refers to, or that has left its bucket, stays as it is; else it is retired, and
the future is told how the teardown of the unit has ended.
-/

namespace JobBroker.Manager

open Holding

/-- What the end of a teardown tells the future that waits for it. -/
def State.stoppingResult (processor : Processor) : Except String Unit → Result
  | .ok () => .ok .done
  | .error reason => .error (.unitTeardown processor.unit.name reason)

namespace World

variable {w w' : World} {creditCapacity : Nat} {key : SubscriberKey} {entry : IndexEntry}
  {processor : Processor} {reply : Ticket} {operation : OperationId}

/-- What an unsubscription does at once with an active subscription. -/
structure Withdraws (w : World) (key : SubscriberKey) (entry : IndexEntry) (reply : Ticket) :
    Prop where
  index : ∀ other, (w.tell (.unsubscribe key reply)).state.index.get? other =
    if other = key then none else w.state.index.get? other
  calls : callsOf (w.state.handle (.unsubscribe key reply)).effects =
    [(⟨w.state.nextOperation⟩, .remove entry.processor key)]
  settled : settledOf (w.state.handle (.unsubscribe key reply)).effects = []

/-- Nothing refers to a processor that is in its bucket. -/
def Idle (w : World) (processor : Processor) : Prop :=
  w.state.isRegistered processor = true ∧ w.state.indexedOn processor.id = [] ∧
    w.state.addingOn processor.id = []

/-- A future waits for the teardown that a call asks for, and is told how that ends. -/
structure AwaitsStop (w : World) (operation : OperationId) (processor : Processor)
    (reply : Ticket) : Prop where
  held : (operation, .teardown processor) ∈ w.outstanding
  unsettled : w.requests.Nodup → reply ∉ w.settlements
  told : ∀ result : Except String Unit, ∃ others,
    settledOf (w.state.handle (.resume operation (.settled result))).effects =
      (reply, State.stoppingResult processor result) :: others

/-- What the end of a removal does, by its result. -/
structure Concludes (w : World) (operation : OperationId) (processor : Processor)
    (key : SubscriberKey) (reply : Ticket) : Prop where
  failed : ∀ reason, (w.state.handle (.resume operation (.remaining (.error reason)))).Reports
    w.state [(reply, .error (.dispatch reason))]
  spared : ∀ remaining, remaining = true ∨ ¬w.Idle processor →
    (w.state.handle (.resume operation (.remaining (.ok remaining)))).Reports w.state
      [(reply, .ok .done)]
  retired : w.Idle processor →
    (w.state.handle (.resume operation (.remaining (.ok false)))).Retires w.state processor ∧
    settledOf (w.state.handle (.resume operation (.remaining (.ok false)))).effects = []
  stopped : w.Idle processor → ∀ w',
    Relation.ReflTransGen Step (w.finish operation (.remove processor key) (.ok false)) w' →
    ⟨w.state.nextOperation⟩ ∉ w'.endings →
    w'.AwaitsStop ⟨w.state.nextOperation⟩ processor reply

/-- What is so ever after a subscription was given up. -/
structure Withdrawn (w : World) (key : SubscriberKey) (entry : IndexEntry) (reply : Ticket)
    (w' : World) : Prop where
  inactive : w'.state.index.get? key = none
  removed : w'.removals key = [.remove entry.processor key]
  repeated : ∀ again, w'.state.handle (.unsubscribe key again) = w'.state.settle again (.ok .done)
  going : ⟨w.state.nextOperation⟩ ∉ w'.endings →
    (⟨w.state.nextOperation⟩, .remove entry.processor key) ∈ w'.outstanding ∧
      (w'.requests.Nodup → reply ∉ w'.settlements) ∧
      w'.Concludes ⟨w.state.nextOperation⟩ entry.processor key reply

/-! ### Giving up -/

theorem handle_unsubscribe_absent (absent : w.state.index.get? key = none) (reply : Ticket) :
    w.state.handle (.unsubscribe key reply) = w.state.settle reply (.ok .done) := by
  rw [State.handle, State.unsubscribe, absent]

theorem handle_unsubscribe (found : w.state.index.get? key = some entry) (reply : Ticket) :
    w.state.handle (.unsubscribe key reply) = (w.state.unindex key).issue
      (.unsubscribe entry.processor reply) (.remove entry.processor key) := by
  rw [State.handle, State.unsubscribe, found]

theorem withdraws_tell (found : w.state.index.get? key = some entry) (reply : Ticket) :
    w.Withdraws key entry reply := by
  have hnext := congrArg State.nextOperation (State.unindex_eq w.state key)
  refine ⟨fun other => ?_, ?_, ?_⟩
  · show (w.state.handle (.unsubscribe key reply)).state.index.get? other = _
    rw [handle_unsubscribe found]
    exact State.index_unindex w.state key other
  · rw [handle_unsubscribe found]
    show [(OperationId.mk (w.state.unindex key).nextOperation, _)] = _
    rw [hnext]
  · rw [handle_unsubscribe found]
    rfl

theorem noted_unsubscribe (found : w.state.index.get? key = some entry) (reply : Ticket) :
    (w.tell (.unsubscribe key reply)).state.continuations.get? ⟨w.state.nextOperation⟩ =
      some (.unsubscribe entry.processor reply) := by
  have hnext := congrArg State.nextOperation (State.unindex_eq w.state key)
  show (w.state.handle (.unsubscribe key reply)).state.continuations.get? _ = _
  rw [handle_unsubscribe found, show w.state.nextOperation = _ from hnext.symm]
  exact Table.get?_insert_self _ _ _

/-- No more calls to drop a subscription are made once it is gone. -/
theorem removals_of_steps (h : Reachable creditCapacity w) (gone : w.state.standing key = .gone)
    (steps : Relation.ReflTransGen Step w w') : w'.removals key = w.removals key := by
  induction steps with
  | refl => rfl
  | tail earlier step ih =>
    have hreached := reachable_of_steps h earlier
    have hconsistent := consistent_of_reachable hreached
    obtain ⟨moment, hposted⟩ := posted_of_step hconsistent step
    rw [hposted.removals hconsistent step, removals_of_gone hreached hposted
      (gone_of_gone h earlier gone), List.append_nil, ih]

section

variable (h : Reachable creditCapacity w) (found : w.state.index.get? key = some entry)
include h found

theorem removals_unsubscribe :
    (w.tell (.unsubscribe key reply)).removals key = [.remove entry.processor key] := by
  have hconsistent := consistent_of_reachable h
  have hstep : Step w (w.tell (.unsubscribe key reply)) := .tell _ rfl
  obtain ⟨moment, hposted⟩ := posted_of_step hconsistent hstep
  have hstanding := standing_of_indexed h found
  rw [hposted.removals hconsistent hstep, removals_eq_nil h (by simp [hstanding]),
    ← hposted.eq_of_history rfl]
  simp [Moment.withdrawals, found, Call.removes]

theorem gone_unsubscribe :
    (w.tell (.unsubscribe key reply)).state.standing key = .gone := by
  have hmem : Call.remove entry.processor key ∈
      (w.tell (.unsubscribe key reply)).removals key := by
    rw [removals_unsubscribe h found]
    exact List.mem_singleton_self _
  exact gone_of_removed (h.next (.tell _ rfl)) (List.mem_filter.1 hmem).1

end

/-! ### Where the teardown ends -/

theorem settledOf_onTornDown (s : State) (processor : Processor) (reply : Ticket)
    (result : Except String Unit) : ∃ others,
      settledOf (s.onTornDown processor (some reply) result).effects =
        (reply, State.stoppingResult processor result) :: others := by
  cases result <;> exact ⟨_, settledOf_append [_] _⟩

theorem awaitsStop_of_noted (h : Reachable creditCapacity w)
    (noted : w.state.continuations.get? operation = some (.teardown processor (some reply))) :
    w.AwaitsStop operation processor reply := by
  refine ⟨?_, fun own => unsettled_of_noted h own noted rfl, fun result => ?_⟩
  · obtain ⟨call, hcall, hfits⟩ := (consistent_of_reachable h).outstanding noted
    cases call with
    | teardown other =>
      cases hfits
      exact hcall
    | _ => cases hfits
  · have hturn : w.state.handle (.resume operation (.settled result)) =
        { w.state with continuations := w.state.continuations.erase operation }.onTornDown
          processor (some reply) result := by
      simp only [State.handle, State.resume, noted]
    rw [hturn]
    exact settledOf_onTornDown _ processor reply result

/-! ### Where the removal ends -/

section

variable (h : Reachable creditCapacity w)
  (noted : w.state.continuations.get? operation = some (.unsubscribe processor reply))
include h noted

/-- The end of a removal of which nothing remains retires an idle processor, with the future in
the hands of the teardown. -/
theorem retires_of_noted (idle : w.Idle processor) :
    (w.state.handle (.resume operation (.remaining (.ok false)))).Retires w.state processor ∧
      settledOf (w.state.handle (.resume operation (.remaining (.ok false)))).effects = [] ∧
      (w.state.handle (.resume operation (.remaining (.ok false)))).state.continuations.get?
          ⟨w.state.nextOperation⟩ = some (.teardown processor (some reply)) := by
  let base : State := { w.state with continuations := w.state.continuations.erase operation }
  obtain ⟨bucket, hbucket, hdetached⟩ :=
    bucket_of_registered h (built_of_noted h noted rfl) idle.1
  have hunreferenced : base.isUnreferenced processor.id = true :=
    (unreferenced_iff h processor.id).2 idle.2
  have hturn : w.state.handle (.resume operation (.remaining (.ok false))) =
      base.retire processor (some reply) := by
    simp only [State.handle, State.resume, noted]
    rw [State.onRemoved]
    exact if_pos hunreferenced
  have hfound : base.buckets.get? processor.partition = some bucket := hbucket
  obtain ⟨hretires, hsettled, hnoted⟩ := State.retires_retire hfound hdetached (some reply)
  rw [hturn]
  exact ⟨hretires.since rfl rfl rfl, hsettled, hnoted⟩

/-- The end of a removal leaves a processor alone that keeps others, or is not idle. -/
theorem reports_of_noted {remaining : Bool} (spared : remaining = true ∨ ¬w.Idle processor) :
    (w.state.handle (.resume operation (.remaining (.ok remaining)))).Reports w.state
      [(reply, .ok .done)] := by
  let base : State := { w.state with continuations := w.state.continuations.erase operation }
  have hturn : w.state.handle (.resume operation (.remaining (.ok remaining))) =
      base.settle reply (.ok .done) := by
    simp only [State.handle, State.resume, noted]
    show base.onRemoved processor reply (.ok remaining) = _
    rw [State.onRemoved]
    split
    next hretired =>
      obtain ⟨hremaining, hunreferenced⟩ := Bool.and_eq_true_iff.1 hretired
      have hnone : w.state.indexedOn processor.id = [] ∧ w.state.addingOn processor.id = [] :=
        (unreferenced_iff h processor.id).1 hunreferenced
      have hgone : base.isRegistered processor = false := by
        rcases spared with hsome | hbusy
        · rw [hsome] at hremaining
          cases hremaining
        · exact Bool.eq_false_iff.2 fun hregistered => hbusy ⟨hregistered, hnone⟩
      rw [State.retire_of_gone hgone]
      rfl
    next => rfl
  rw [hturn]
  exact ⟨rfl, rfl, rfl, rfl⟩

theorem concludes_of_noted (held : (operation, .remove processor key) ∈ w.outstanding) :
    w.Concludes operation processor key reply where
  failed reason := by
    have hturn : w.state.handle (.resume operation (.remaining (.error reason))) =
        State.settle { w.state with continuations := w.state.continuations.erase operation } reply
          (.error (.dispatch reason)) := by
      simp only [State.handle, State.resume, noted]
      rfl
    rw [hturn]
    exact ⟨rfl, rfl, rfl, rfl⟩
  spared remaining spared := reports_of_noted h noted spared
  retired idle := ⟨(retires_of_noted h noted idle).1, (retires_of_noted h noted idle).2.1⟩
  stopped idle w' steps going := by
    have hfinished : Reachable creditCapacity
        (w.finish operation (.remove processor key) (.ok false)) := h.next (.finish _ _ held _)
    have hnoted := (retires_of_noted h noted idle).2.2
    exact awaitsStop_of_noted (reachable_of_steps hfinished steps)
      ((noted_of_steps hfinished steps hnoted rfl).resolve_right going)

end

/-- An unsubscription of a key that is not active is told at once that it is done, and changes
nothing. An active subscription leaves the index for good, and its processor is told once to drop
it. Where that ends it is decided, by what refers to the processor then, whether it is retired; in
that case the future is told how its teardown ends, and else at once. -/
theorem unsubscribed_once (h : Reachable creditCapacity w) (key : SubscriberKey) (reply : Ticket) :
    (w.state.index.get? key = none →
      w.state.handle (.unsubscribe key reply) = w.state.settle reply (.ok .done)) ∧
    ∀ entry, w.state.index.get? key = some entry →
      w.Withdraws key entry reply ∧
      ∀ w', Relation.ReflTransGen Step (w.tell (.unsubscribe key reply)) w' →
        w.Withdrawn key entry reply w' := by
  refine ⟨fun absent => handle_unsubscribe_absent absent reply, fun entry found => ?_⟩
  refine ⟨withdraws_tell found reply, fun w' steps => ?_⟩
  have htold : Reachable creditCapacity (w.tell (.unsubscribe key reply)) := h.next (.tell _ rfl)
  have hreached := reachable_of_steps htold steps
  have hgone := gone_of_gone htold steps (gone_unsubscribe h found)
  have hinactive := inactive_of_gone hreached hgone
  refine ⟨hinactive, ?_, fun again => handle_unsubscribe_absent hinactive again, fun going => ?_⟩
  · rw [removals_of_steps htold (gone_unsubscribe h found) steps, removals_unsubscribe h found]
  · have hnoted := (noted_of_steps htold steps (noted_unsubscribe found reply) rfl).resolve_right
      going
    have hmade : (⟨w.state.nextOperation⟩, .remove entry.processor key) ∈ w'.calls := by
      refine (calls_of_steps steps).subset ?_
      rw [tell, calls_happen, (withdraws_tell found reply).calls]
      exact List.mem_append_right _ (List.mem_singleton_self _)
    have hheld := mem_outstanding.2 ⟨hmade, going⟩
    exact ⟨hheld, fun own => unsettled_of_noted hreached own hnoted rfl,
      concludes_of_noted hreached hnoted hheld⟩

open Sample in
theorem unsubscribed_once_sample :
    rested.state.handle (.unsubscribe ⟨0⟩ ⟨3⟩) = rested.state.settle ⟨3⟩ (.ok .done) ∧
      active.Withdraws ⟨0⟩ ⟨Sample.processor, ⟨5⟩⟩ ⟨1⟩ ∧
      removing.removals ⟨0⟩ = [.remove Sample.processor ⟨0⟩] ∧
      (removing.state.handle (.resume ⟨2⟩ (.remaining (.error "lost")))).Reports removing.state
        [(⟨1⟩, .error (.dispatch "lost"))] ∧
      (removing.state.handle (.resume ⟨2⟩ (.remaining (.ok true)))).Reports removing.state
        [(⟨1⟩, .ok .done)] ∧
      (removing.state.handle (.resume ⟨2⟩ (.remaining (.ok false)))).Retires removing.state
        Sample.processor ∧
      (⟨1⟩ : Ticket) ∉ deferred.settlements ∧
      ∃ others,
        settledOf (deferred.state.handle (.resume ⟨3⟩ (.settled (.error "stuck")))).effects =
          (⟨1⟩, .error (.unitTeardown Sample.unit.name "stuck")) :: others := by
  have hfound : active.state.index.get? ⟨0⟩ = some ⟨Sample.processor, ⟨5⟩⟩ := by decide +kernel
  have hidle : removing.Idle Sample.processor :=
    ⟨by decide +kernel, by decide +kernel, by decide +kernel⟩
  have habsent := (unsubscribed_once reachable_rested ⟨0⟩ ⟨3⟩).1 (by decide +kernel)
  obtain ⟨hwithdraws, hafter⟩ := (unsubscribed_once reachable_active ⟨0⟩ ⟨1⟩).2 _ hfound
  have hwithdrawn := hafter removing .refl
  obtain ⟨-, -, hconcludes⟩ := hwithdrawn.going (by decide +kernel)
  have hstops := hconcludes.stopped hidle deferred (.single (.tell _ rfl)) (by decide +kernel)
  exact ⟨habsent, hwithdraws, hwithdrawn.removed, hconcludes.failed "lost",
    hconcludes.spared true (.inl rfl), (hconcludes.retired hidle).1,
    hstops.unsettled (by decide +kernel), hstops.told (.error "stuck")⟩

end World

end JobBroker.Manager
