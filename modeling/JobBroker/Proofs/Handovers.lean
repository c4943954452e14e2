import JobBroker.Proofs.Queues
import JobBroker.Proofs.Retirements

/-!
# Handing subscriptions over

A processor is handed what has waited for it, one call for each in the order of the queue, and from
then on every subscription for its unit when it comes in. Whoever has left the queue otherwise is
never handed over.
-/

namespace JobBroker.Manager

open Holding Table

/-- The calls that hand a queue to a processor, numbered from the next number on. -/
def handovers (next : Nat) (processor : Processor) (queue : List Waiting) :
    List (OperationId × Call) :=
  queue.mapIdx fun index waiting => (⟨next + index⟩, .add processor waiting.subscription)

theorem handovers_cons (next : Nat) (processor : Processor) (waiting : Waiting)
    (queue : List Waiting) : handovers next processor (waiting :: queue) =
      (⟨next⟩, .add processor waiting.subscription) :: handovers (next + 1) processor queue := by
  simp [handovers, List.mapIdx_cons, Nat.add_assoc, Nat.add_comm 1]

namespace State

variable {s : State} {processor : Processor}

theorem callsOf_forwardAll (s : State) (processor : Processor) (queue : List Waiting) :
    callsOf (s.forEach queue fun s waiting => s.forward processor waiting).effects =
      handovers s.nextOperation processor queue := by
  induction queue generalizing s with
  | nil => rfl
  | cons waiting queue ih =>
    rw [forEach, Turn.effects_andThen, callsOf_append, ih, handovers_cons]
    rfl

theorem buckets_forwardAll (s : State) (processor : Processor) (queue : List Waiting) :
    (s.forEach queue fun s waiting => s.forward processor waiting).state.buckets = s.buckets := by
  induction queue generalizing s with
  | nil => rfl
  | cons waiting queue ih => exact ih _

section

variable {unit : ActivationUnit} {queue : List Waiting} {bucket : Bucket} (runner : Runner)
  (waiting : s.pending.get? unit.key = some queue) (nonempty : queue ≠ [])
  (found : s.buckets.get? unit.partition.id = some bucket)
include waiting nonempty found

theorem onBuilt_eq : s.onBuilt unit (.ok runner) =
    State.forEach { s with
        pending := s.pending.erase unit.key
        nextProcessor := s.nextProcessor + 1
        buckets := s.buckets.insert unit.partition.id
          (bucket.register ⟨⟨s.nextProcessor⟩, unit, runner⟩) }
      queue fun later waiting => later.forward ⟨⟨s.nextProcessor⟩, unit, runner⟩ waiting := by
  have hpartition : Processor.partition ⟨⟨s.nextProcessor⟩, unit, runner⟩ =
      unit.partition.id := rfl
  simp only [onBuilt, waiting, Option.getD_some, List.isEmpty_iff, if_neg nonempty, hpartition,
    found]

/-- A unit that was built is given everything that has waited for it. -/
theorem calls_onBuilt : callsOf (s.onBuilt unit (.ok runner)).effects =
    handovers s.nextOperation ⟨⟨s.nextProcessor⟩, unit, runner⟩ queue := by
  rw [onBuilt_eq runner waiting nonempty found]
  exact callsOf_forwardAll _ _ queue

theorem isRegistered_onBuilt : (s.onBuilt unit (.ok runner)).state.isRegistered
    ⟨⟨s.nextProcessor⟩, unit, runner⟩ = true := by
  have hfound : (s.onBuilt unit (.ok runner)).state.buckets.get? unit.partition.id =
      some (bucket.register ⟨⟨s.nextProcessor⟩, unit, runner⟩) := by
    rw [onBuilt_eq runner waiting nonempty found, buckets_forwardAll]
    exact get?_insert_self _ _ _
  exact isRegistered_of_mem hfound (Bucket.mem_register.2 (.inr rfl))

end

/-- A subscription that finds its processor is handed to it at once. -/
theorem calls_subscribe_served {subscription : JobSubscription}
    (serves : s.processor? subscription.unitKey = some processor) (reply : Ticket) :
    callsOf (s.subscribe subscription reply).effects =
      [(⟨s.nextOperation⟩, .add processor (s.newcomer subscription reply).subscription)] := by
  obtain ⟨bucket, hbucket, hprocessor⟩ := Option.bind_eq_some_iff.1 serves
  have hfound : s.buckets.get? subscription.partition = some bucket := hbucket
  have hserves : bucket.byJobType? subscription.jobType = some processor := hprocessor
  simp only [subscribe, hfound, hserves]
  rfl

/-- Nothing is handed over when a connection closes. -/
theorem swept_connectionClosed {connection : ConnectionId} {call : OperationId × Call}
    (made : call ∈ callsOf (s.connectionClosed connection).effects) :
    ∃ processor, call.2 = .sweep processor connection := by
  have heach : ∀ (processors : List Processor) (s : State), call ∈ callsOf (s.forEach processors
      fun s processor => s.issue (.sweep processor connection)
        (.sweep processor connection)).effects →
      ∃ processor, call.2 = .sweep processor connection := by
    intro processors
    induction processors with
    | nil => exact nofun
    | cons processor processors ih =>
      intro s hcall
      rw [forEach, Turn.effects_andThen, callsOf_append, List.mem_append] at hcall
      rcases hcall with hfirst | hrest
      · exact ⟨processor, congrArg Prod.snd (List.mem_singleton.1 hfirst)⟩
      · exact ih _ hrest
  rw [connectionClosed_eq, Turn.effects_andThen, callsOf_append, settleAll, callsOf_settle,
    List.nil_append] at made
  exact heach _ _ made

end State

namespace World

variable {w w' : World} {moment : Moment} {creditCapacity : Nat} {key : SubscriberKey}
  {processor : Processor}

/-! ### Registered processors -/

/-- A registered processor is the one that serves its unit. -/
theorem processor?_of_registered (h : Reachable creditCapacity w) (built : processor ∈ w.built)
    (registered : w.state.isRegistered processor = true) :
    w.state.processor? processor.key = some processor := by
  have hconsistent := consistent_of_reachable h
  have hheld := State.registered_of_isRegistered (k := w.knowledge) hconsistent.distinct
    hconsistent.sound built registered
  obtain ⟨bucket, hbucket, hmember⟩ :=
    (State.registered_mem_ledger.1 hheld).resolve_right (Multiset.notMem_zero _)
  have hfound : w.state.buckets.get? processor.key.partition = some bucket := hbucket
  have hserving : w.state.serving processor.key =
      bucket.processors.filter fun member => member.jobType = processor.key.jobType := by
    rw [State.serving, hfound]
  have hserves : processor ∈ w.state.serving processor.key := by
    rw [hserving]
    exact List.mem_filter.2 ⟨hmember, decide_eq_true rfl⟩
  have hone : (w.state.serving processor.key).length = 1 := by
    have hexclusive := units_le_one h processor.key
    have hpos := List.length_pos_of_mem hserves
    omega
  obtain ⟨only, honly⟩ := List.length_eq_one_iff.1 hone
  rw [honly, List.mem_singleton] at hserves
  rw [State.processor?, hfound, Option.bind_some, Bucket.byJobType?, ← List.head?_filter,
    ← hserving, honly, hserves]
  rfl

/-- While a processor is registered every subscription for its unit is handed to it at once. -/
theorem calls_of_registered (h : Reachable creditCapacity w) (built : processor ∈ w.built)
    (registered : w.state.isRegistered processor = true) {subscription : JobSubscription}
    (same : subscription.unitKey = processor.key) (reply : Ticket) :
    callsOf (w.state.handle (.subscribe subscription reply)).effects =
      [(⟨w.state.nextOperation⟩,
        .add processor (w.state.newcomer subscription reply).subscription)] := by
  have hserves := processor?_of_registered h built registered
  rw [← same] at hserves
  exact State.calls_subscribe_served hserves reply

/-! ### Keys that are handed over -/

/-- A key that was assigned, and neither was handed over nor waits to be. -/
structure Forgone (w : World) (key : SubscriberKey) : Prop where
  assigned : key.val < w.state.nextKey
  unhanded : w.signs.countP (Sign.hands key) = 0
  unqueued : (w.state.ledger 0).count queued? key = 0

theorem Posted.forgone (posted : w.Posted moment w') (forgone : w.Forgone key) :
    w'.Forgone key := by
  obtain ⟨hassigned, hunhanded, hunqueued⟩ := forgone
  have hle := posted.nextKey_le
  have hmoves := posted.moves.hands key
  rw [State.count_owed_none fun _ => rfl, hunqueued] at hmoves
  change _ + _ + (if key.val < w.state.nextKey then 1 else 0) ≤
    0 + if key.val < w'.state.nextKey then 1 else 0 at hmoves
  rw [if_pos hassigned, if_pos (Nat.lt_of_lt_of_le hassigned hle)] at hmoves
  refine ⟨Nat.lt_of_lt_of_le hassigned hle, ?_, by omega⟩
  rw [posted.signs, List.countP_append, hunhanded]
  omega

theorem forgone_of_steps (h : Reachable creditCapacity w) (forgone : w.Forgone key)
    (steps : Relation.ReflTransGen Step w w') : w'.Forgone key := by
  induction steps with
  | refl => exact forgone
  | tail earlier step ih =>
    obtain ⟨moment, hposted⟩ :=
      posted_of_step (consistent_of_reachable (reachable_of_steps h earlier)) step
    exact hposted.forgone ih

theorem countP_adds_of_forgone (forgone : w.Forgone key) :
    (w.calls.countP fun call => call.2.adds key) = 0 := by
  have hle := countP_adds_le w key
  have hnone := forgone.unhanded
  omega

section

variable {unit : UnitKey} {queue : List Waiting} {waiting : Waiting}
  (h : Reachable creditCapacity w) (found : w.state.pending.get? unit = some queue)
  (member : waiting ∈ queue)
include h found member

theorem unhanded_of_queued :
    waiting.key.val < w.state.nextKey ∧ w.signs.countP (Sign.hands waiting.key) = 0 := by
  have hheld : Holding.waiting unit waiting ∈ (w.state.ledger 0).holdings :=
    State.waiting_mem_ledger.2 (.inl ⟨queue, found, member⟩)
  have hpos : 0 < (w.state.ledger 0).count queued? waiting.key := Ledger.count_pos hheld rfl
  have hhands := hands_of_reachable h waiting.key
  split at hhands
  next hassigned => exact ⟨hassigned, by omega⟩
  next => omega

/-- Whoever waits when its connection closes is never handed over. -/
theorem forgone_of_closed :
    (w.tell (.connectionClosed waiting.subscription.connection)).Forgone waiting.key := by
  let connection := waiting.subscription.connection
  obtain ⟨hassigned, hunhanded⟩ := unhanded_of_queued h found member
  have hstep : Step w (w.tell (.connectionClosed connection)) := .tell _ rfl
  refine ⟨Nat.lt_of_lt_of_le hassigned (nextKey_le_of_steps h (.single hstep)), ?_, ?_⟩
  · have hnone : (callsOf (w.state.connectionClosed connection).effects).countP
        (fun call => call.2.adds waiting.key) = 0 := by
      refine List.countP_eq_zero.2 fun call made => ?_
      obtain ⟨processor, hsweep⟩ := State.swept_connectionClosed made
      rw [hsweep]
      exact Bool.false_ne_true
    rw [tell, signs_happen, List.countP_append, hunhanded, Nat.zero_add, Moment.signs,
      List.countP_append, countP_hands]
    exact (Nat.zero_add _).trans hnone
  · have hheld : Holding.waiting unit waiting ∈ (w.state.ledger 0).holdings :=
      State.waiting_mem_ledger.2 (.inl ⟨queue, found, member⟩)
    obtain ⟨subscription, hassigned, howner⟩ := assigned_of_held h hheld rfl rfl
    rw [Ledger.count_eq_zero]
    intro thing held stands
    cases thing with
    | waiting other another =>
      obtain ⟨processor, reply, heq⟩ := marked_of_closed h hassigned howner held stands
      cases heq
    | _ => cases stands

end

/-! ### Units that are there -/

section

variable {operation : OperationId} {unit : ActivationUnit} {queue : List Waiting}
  {bucket : Bucket} (runner : Runner) (h : Reachable creditCapacity w)
  (held : (operation, .build unit) ∈ w.outstanding)
  (found : w.state.pending.get? unit.key = some queue) (nonempty : queue ≠ [])
  (registered : w.state.buckets.get? unit.key.partition = some bucket)
include h held found nonempty registered

theorem calls_of_built :
    callsOf (w.state.handle (.resume operation (.built (.ok runner)))).effects =
      handovers w.state.nextOperation ⟨⟨w.state.nextProcessor⟩, unit, runner⟩ queue := by
  let base : State := { w.state with continuations := w.state.continuations.erase operation }
  have hcalls := State.calls_onBuilt (s := base) runner found nonempty registered
  simp only [State.handle, State.resume, noted_of_building h held]
  exact hcalls

theorem isRegistered_of_built :
    (w.finish operation (.build unit) (.ok runner)).state.isRegistered
      ⟨⟨w.state.nextProcessor⟩, unit, runner⟩ = true := by
  let base : State := { w.state with continuations := w.state.continuations.erase operation }
  have hregistered := State.isRegistered_onBuilt (s := base) runner found nonempty registered
  show (w.state.handle (.resume operation (.built (.ok runner)))).state.isRegistered _ = true
  simp only [State.handle, State.resume, noted_of_building h held]
  exact hregistered

/-- Whoever waits when the unit is there is handed over by one call, then and for ever after. -/
theorem adds_of_built {waiting : Waiting} (member : waiting ∈ queue)
    (steps : Relation.ReflTransGen Step (w.finish operation (.build unit) (.ok runner)) w') :
    (w'.calls.countP fun call => call.2.adds waiting.key) = 1 := by
  have hfinished : Reachable creditCapacity (w.finish operation (.build unit) (.ok runner)) :=
    h.next (.finish _ _ held _)
  have hle := countP_adds_le_one (reachable_of_steps hfinished steps) waiting.key
  have hkeyed := (consistent_of_reachable h).orderly.keyed _ queue found waiting member
  obtain ⟨index, hindex, hwaiting⟩ := List.getElem_of_mem member
  have hcall : (OperationId.mk (w.state.nextOperation + index),
      Call.add ⟨⟨w.state.nextProcessor⟩, unit, runner⟩ waiting.subscription) ∈ w'.calls := by
    refine (calls_of_steps steps).subset ?_
    rw [finish, calls_happen]
    refine List.mem_append_right _ ?_
    show _ ∈ callsOf (w.state.handle (.resume operation (.built (.ok runner)))).effects
    rw [calls_of_built runner h held found nonempty registered, handovers, List.mem_mapIdx]
    exact ⟨index, hindex, by rw [hwaiting]⟩
  have hpos : 0 < w'.calls.countP fun call => call.2.adds waiting.key :=
    List.countP_pos_iff.2 ⟨_, hcall, decide_eq_true hkeyed⟩
  omega

end

end World

end JobBroker.Manager
