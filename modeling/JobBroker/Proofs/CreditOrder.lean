import JobBroker.Proofs.Attempts
import JobBroker.Proofs.Worlds

/-!
# The order of credits

The requests that the channel has taken are handed out in the order in which it took them. Between
the channel and the processors a request can be parked, and parked requests are tried the newest
first; but nothing is read from the channel while one is parked, so that there never are two.
-/

namespace JobBroker

namespace Credit

/-- A store that holds one request at most. -/
theorem Overflow.requests_of_size_le_one {store : Overflow} (h : store.size ≤ 1) :
    store.requests = [] ∨ ∃ request, store.requests = [request] := by
  obtain ⟨requests⟩ := store
  match requests, h with
  | [], _ => exact .inl rfl
  | [request], _ => exact .inr ⟨request, rfl⟩

end Credit

namespace Manager

/-! ### Handling messages leaves credits alone -/

namespace State

@[simp] theorem credits_acquire (s : State) (id : ProcessorId) :
    (s.acquire id).credits = s.credits := rfl

@[simp] theorem credits_dropReference (s : State) (id : ProcessorId) :
    (s.dropReference id).credits = s.credits := by
  unfold dropReference
  split
  next => rfl
  next => split <;> rfl

@[simp] theorem credits_unindex (s : State) (key : SubscriberKey) :
    (s.unindex key).credits = s.credits := by
  unfold unindex
  split
  next => rfl
  next => rw [credits_dropReference]

@[simp] theorem credits_purge (s : State) (test : IndexEntry → Bool) :
    (s.purge test).credits = s.credits := by
  unfold purge
  induction s.index.keysWhere test generalizing s with
  | nil => rfl
  | cons key keys ih => rw [List.foldl_cons, ih, credits_unindex]

@[simp] theorem credits_rest (s : State) : s.rest.state.credits = s.credits := rfl

@[simp] theorem credits_settle (s : State) (reply : Ticket) (result : Result) :
    (s.settle reply result).state.credits = s.credits := rfl

@[simp] theorem credits_settle? (s : State) (reply : Option Ticket) (result : Result) :
    (s.settle? reply result).state.credits = s.credits := by cases reply <;> rfl

@[simp] theorem credits_settleAll (s : State) (replies : List Ticket) (result : Result) :
    (s.settleAll replies result).state.credits = s.credits := rfl

@[simp] theorem credits_issue (s : State) (continuation : Continuation) (call : Call) :
    (s.issue continuation call).state.credits = s.credits := rfl

theorem credits_forEach {α : Type} {act : State → α → Turn}
    (each : ∀ s item, (act s item).state.credits = s.credits) (items : List α) (s : State) :
    (s.forEach items act).state.credits = s.credits := by
  induction items generalizing s with
  | nil => rfl
  | cons item items ih =>
    rw [forEach, Turn.state_andThen, ih, each]

@[simp] theorem credits_failPending (s : State) (key : UnitKey) (error : SubscriptionError) :
    (s.failPending key error).state.credits = s.credits := rfl

@[simp] theorem credits_startBuild (s : State) (key : UnitKey) :
    (s.startBuild key).state.credits = s.credits := by
  unfold startBuild
  split <;> simp

@[simp] theorem credits_startDeferred (s : State) (key : UnitKey) :
    (s.startDeferred key).state.credits = s.credits := by
  unfold startDeferred
  split <;> simp

@[simp] theorem credits_forward (s : State) (processor : Processor) (waiting : Waiting) :
    (s.forward processor waiting).state.credits = s.credits := rfl

@[simp] theorem credits_teardown (s : State) (processor : Processor) (reply : Option Ticket) :
    (s.teardown processor reply).state.credits = s.credits := rfl

@[simp] theorem credits_retire (s : State) (processor : Processor) (reply : Option Ticket) :
    (s.retire processor reply).state.credits = s.credits := by
  unfold retire
  split <;> simp

@[simp] theorem credits_release (s : State) (processor : Processor) :
    (s.release processor).state.credits = s.credits := by
  unfold release
  dsimp only
  split <;> simp

@[simp] theorem credits_discardBucket (s : State) (partition : PartitionId)
    (bucket : Option Bucket) : (s.discardBucket partition bucket).state.credits = s.credits := by
  unfold discardBucket
  cases bucket with
  | none => simp
  | some bucket =>
    dsimp only
    rw [credits_forEach (fun s processor => credits_teardown s processor none), credits_purge]

/-! The ends of calls. -/

@[simp] theorem credits_onBuilt (s : State) (unit : ActivationUnit)
    (result : Except String Runner) : (s.onBuilt unit result).state.credits = s.credits := by
  unfold onBuilt
  split
  next => rfl
  next =>
    dsimp only
    split
    next => simp
    next =>
      split
      next => simp
      next => rw [credits_forEach fun s waiting => credits_forward s _ waiting]

@[simp] theorem credits_onAdded (s : State) (key : SubscriberKey) (connection : ConnectionId)
    (processor : Processor) (reply : Ticket) (closed : Bool) (result : Except String Unit) :
    (s.onAdded key connection processor reply closed result).state.credits = s.credits := by
  unfold onAdded takeBack
  split
  next => simp
  next =>
    split
    next => simp
    next => split <;> simp

@[simp] theorem credits_onRemoved (s : State) (processor : Processor) (reply : Ticket)
    (result : Except String Bool) :
    (s.onRemoved processor reply result).state.credits = s.credits := by
  unfold onRemoved
  split
  next => rfl
  next => split <;> simp

@[simp] theorem credits_onSwept (s : State) (processor : Processor)
    (result : Except String Bool) : (s.onSwept processor result).state.credits = s.credits := by
  unfold onSwept
  split
  next => rfl
  next => split <;> simp

@[simp] theorem credits_onTornDown (s : State) (processor : Processor) (reply : Option Ticket)
    (result : Except String Unit) :
    (s.onTornDown processor reply result).state.credits = s.credits := by
  unfold onTornDown
  rw [Turn.state_andThen]
  split
  next => simp
  next => split <;> simp

theorem credits_resume (s : State) (operation : OperationId) (outcome : Outcome) :
    (s.resume operation outcome).state.credits = s.credits := by
  unfold resume
  split
  next => rfl
  next =>
    dsimp only
    split <;> simp

theorem credits_subscribe (s : State) (subscription : JobSubscription) (reply : Ticket) :
    (s.subscribe subscription reply).state.credits = s.credits := by
  unfold subscribe
  split
  next => rfl
  next =>
    dsimp only
    split
    next => simp
    next =>
      split
      next => rfl
      next => split <;> simp

/-- Credits are no business of messages. -/
theorem credits_handle (s : State) (message : Message) :
    (s.handle message).state.credits = s.credits := by
  cases message with
  | subscribe subscription reply => exact credits_subscribe s subscription reply
  | unsubscribe key reply =>
    simp only [handle, unsubscribe]
    split <;> simp
  | addPartition partition service =>
    simp only [handle, addPartition]
    split <;> simp
  | removePartition partition => exact credits_discardBucket _ partition _
  | connectionClosed connection =>
    simp only [handle, connectionClosed, Turn.state_andThen]
    rw [credits_forEach fun s processor => credits_issue s _ _]
    simp
  | snapshot reply => rfl
  | resume operation outcome => exact credits_resume s operation outcome
  | shutdown => rfl

end State

/-! ### One round of work -/

/-- The requests of the attempts that were done with, in their order. -/
def doneWith (attempts : List Attempt) : List CreditRequest :=
  (attempts.filter Attempt.done).map Attempt.request

theorem doneWith_append (front back : List Attempt) :
    doneWith (front ++ back) = doneWith front ++ doneWith back := by
  rw [doneWith, List.filter_append, List.map_append]
  rfl

section

variable {σ : Type} (s : State) (ask : σ → Processor → CreditRequest → Bool × σ)

/-- A request that is tried is done with or stays over. -/
theorem State.doneWith_attempt (held : σ × List Attempt) (request : CreditRequest) :
    doneWith (s.attempt ask held request).2.2 ++
        (if (s.attempt ask held request).1 then [] else [request]) =
      doneWith held.2 ++ [request] := by
  have hattempt : (s.attempt ask held request).2.2 = held.2 ++
      [⟨request, (s.dispatch (noteAsked ask) (held.1, none) request).2.2,
        (s.attempt ask held request).1⟩] := rfl
  rw [hattempt, doneWith_append, List.append_assoc]
  cases (s.attempt ask held request).1 <;> rfl

theorem State.retry_single {parked : Credit.Overflow} (single : parked.size ≤ 1)
    (held : σ × List Attempt) :
    doneWith (Credit.retry (s.attempt ask) parked held).answerer.2 ++
        (Credit.retry (s.attempt ask) parked held).parked.requests =
      doneWith held.2 ++ parked.requests ∧
    (Credit.retry (s.attempt ask) parked held).parked.size ≤ 1 := by
  obtain ⟨requests⟩ := parked
  rcases Credit.Overflow.requests_of_size_le_one single with hnone | ⟨request, hone⟩
  · subst hnone
    have hempty : ¬0 < (⟨[]⟩ : Credit.Overflow).size := Nat.lt_irrefl 0
    rw [Credit.retry_empty hempty]
    exact ⟨rfl, Nat.zero_le 1⟩
  · subst hone
    have hnonempty : 0 < (⟨[request]⟩ : Credit.Overflow).size := Nat.one_pos
    have hnewest := Credit.Overflow.newest_lt_size hnonempty
    have hdone := s.doneWith_attempt ask held request
    cases hanswer : s.attempt ask held request with
    | mk done held' =>
      rw [hanswer] at hdone
      cases done with
      | true =>
        have hempty : ¬0 < ((⟨[request]⟩ : Credit.Overflow).removeAt _ hnewest).size :=
          Nat.lt_irrefl 0
        rw [Credit.retry_done hnonempty hnewest hanswer, Credit.retry_empty hempty]
        exact ⟨hdone, Nat.zero_le 1⟩
      | false =>
        rw [Credit.retry_refused hnonempty hnewest hanswer]
        exact ⟨hdone, Nat.le_refl 1⟩

theorem State.consume_unparked {pipeline : Credit.Pipeline} (unparked : pipeline.parked.isEmpty)
    (held : σ × List Attempt) :
    doneWith (Credit.consume (s.attempt ask) pipeline held).2.2 ++
        (Credit.consume (s.attempt ask) pipeline held).1.parked.requests ++
        (Credit.consume (s.attempt ask) pipeline held).1.channel.queue =
      doneWith held.2 ++ pipeline.channel.queue ∧
    (Credit.consume (s.attempt ask) pipeline held).1.parked.size ≤ 1 := by
  obtain ⟨⟨capacity, queue⟩, ⟨parked⟩⟩ := pipeline
  have hnone : parked = [] := List.isEmpty_iff.1 unparked
  subst hnone
  cases queue with
  | nil =>
    refine ⟨?_, Nat.zero_le 1⟩
    show doneWith held.2 ++ [] ++ [] = doneWith held.2 ++ []
    rw [List.append_nil]
  | cons request queue =>
    have hdone := s.doneWith_attempt ask held request
    simp only [Credit.consume, Credit.Channel.drain, Credit.Channel.drainQueue, Credit.park]
    cases hanswer : s.attempt ask held request with
    | mk done held' =>
      rw [hanswer] at hdone
      rw [List.append_cons, ← hdone]
      cases done with
      | true => exact ⟨rfl, Nat.zero_le 1⟩
      | false => exact ⟨rfl, Nat.le_refl 1⟩

theorem State.cycle_single {pipeline : Credit.Pipeline} (single : pipeline.parked.size ≤ 1)
    (held : σ × List Attempt) :
    doneWith (Credit.cycle (s.attempt ask) pipeline held).2.2 ++
        (Credit.cycle (s.attempt ask) pipeline held).1.parked.requests ++
        (Credit.cycle (s.attempt ask) pipeline held).1.channel.queue =
      doneWith held.2 ++ pipeline.parked.requests ++ pipeline.channel.queue ∧
    (Credit.cycle (s.attempt ask) pipeline held).1.parked.size ≤ 1 := by
  obtain ⟨hretried, hsingle⟩ := s.retry_single ask single held
  unfold Credit.cycle
  dsimp only
  generalize Credit.retry (s.attempt ask) pipeline.parked held = retried at hretried hsingle ⊢
  split
  next hdrained =>
    have hnone : retried.parked.requests = [] := List.isEmpty_iff.1 hdrained
    have hunparked : (Credit.Pipeline.mk pipeline.channel retried.parked).parked.isEmpty := hdrained
    have hconsumed := s.consume_unparked ask hunparked retried.answerer
    rw [hnone, List.append_nil] at hretried
    rw [hretried] at hconsumed
    exact hconsumed
  next => exact ⟨by rw [hretried], hsingle⟩

theorem capacity_cycle {τ : Type} (dispatch : τ → CreditRequest → Bool × τ)
    (pipeline : Credit.Pipeline) (t : τ) :
    (Credit.cycle dispatch pipeline t).1.channel.capacity = pipeline.channel.capacity := by
  unfold Credit.cycle
  dsimp only
  split
  next => rfl
  next => rfl

end

/-! ### The credits of a run -/

def Event.taken? : Event → Option CreditRequest
  | .wrote request true => some request
  | _ => none

namespace World

/-- The requests that the channel has taken, in the order in which they were written. -/
def taken (w : World) : List CreditRequest := w.history.filterMap fun m => m.event.taken?

/-- The requests that are done with: a processor has accepted them, or their subscription was not
active when they were tried. -/
def handled (w : World) : List CreditRequest :=
  w.history.flatMap fun m => doneWith m.event.attempts

variable {w w' : World} {creditCapacity : Nat}

theorem taken_happen (w : World) (event : Event) (turn : Turn) :
    (w.happen event turn).taken = w.taken ++ event.taken?.toList := by
  simp only [taken, happen, List.filterMap_append, List.filterMap_cons, List.filterMap_nil]
  cases event.taken? <;> rfl

theorem handled_happen (w : World) (event : Event) (turn : Turn) :
    (w.happen event turn).handled = w.handled ++ doneWith event.attempts := by
  simp only [handled, happen, List.flatMap_append, List.flatMap_singleton]

/-- What has been taken has been handled, or is parked, or waits in the channel behind that. -/
structure InOrder (creditCapacity : Nat) (w : World) : Prop where
  conserved : w.taken =
    w.handled ++ w.state.credits.parked.requests ++ w.state.credits.channel.queue
  single : w.state.credits.parked.size ≤ 1
  capacity : w.state.credits.channel.capacity = creditCapacity
  bounded : w.state.credits.channel.size ≤ creditCapacity

theorem InOrder.quiet (h : w.InOrder creditCapacity) {event : Event} {turn : Turn}
    (untaken : event.taken? = none) (untried : event.attempts = [])
    (same : turn.state.credits = w.state.credits) :
    (w.happen event turn).InOrder creditCapacity := by
  have hstate : (w.happen event turn).state.credits = w.state.credits := same
  refine ⟨?_, ?_, ?_, ?_⟩
  · rw [taken_happen, handled_happen, untaken, untried, hstate, h.conserved]
    simp [doneWith]
  all_goals rw [hstate]
  · exact h.single
  · exact h.capacity
  · exact h.bounded

theorem InOrder.write (h : w.InOrder creditCapacity) (request : CreditRequest) :
    (w.write request).InOrder creditCapacity := by
  have hqueue := w.state.credits.channel.queue_write request
  have hcapacity := w.state.credits.channel.capacity_write request
  have hbounded : w.state.credits.channel.size ≤ w.state.credits.channel.capacity := by
    rw [h.capacity]
    exact h.bounded
  refine ⟨?_, h.single, hcapacity.trans h.capacity, ?_⟩
  · rw [World.write, taken_happen, handled_happen, h.conserved]
    have hparked : (w.write request).state.credits.parked = w.state.credits.parked := rfl
    have hwritten : (w.write request).state.credits.channel.queue = _ := hqueue
    rw [World.write] at hparked hwritten
    rw [hparked, hwritten, State.writeCredits]
    cases (w.state.credits.channel.write request).2 <;>
      simp [Event.taken?, Event.attempts, doneWith]
  · have hsize := Credit.Channel.size_write_le request hbounded
    rw [h.capacity] at hsize
    exact hsize

/-- Work on credits that hands on what was parked before what was in the channel. -/
theorem InOrder.work (h : w.InOrder creditCapacity) {attempts : List Attempt}
    {credits : Credit.Pipeline} (single : credits.parked.size ≤ 1)
    (capacity : credits.channel.capacity = w.state.credits.channel.capacity)
    (conserved : doneWith attempts ++ credits.parked.requests ++ credits.channel.queue =
      w.state.credits.parked.requests ++ w.state.credits.channel.queue)
    (size : credits.channel.size ≤ w.state.credits.channel.size) :
    (w.happen (.dispatched attempts) { w.state with credits := credits }.rest).InOrder
      creditCapacity where
  conserved := by
    rw [taken_happen, handled_happen, h.conserved]
    show _ ++ [] =
      w.handled ++ doneWith attempts ++ credits.parked.requests ++ credits.channel.queue
    rw [List.append_nil, List.append_assoc, ← conserved]
    simp only [List.append_assoc]
  single := single
  capacity := capacity.trans h.capacity
  bounded := Nat.le_trans size h.bounded

theorem size_cycle_le {τ : Type} (dispatch : τ → CreditRequest → Bool × τ)
    (pipeline : Credit.Pipeline) (t : τ) :
    (Credit.cycle dispatch pipeline t).1.channel.size ≤ pipeline.channel.size := by
  unfold Credit.cycle
  dsimp only
  split
  next =>
    rw [Credit.Channel.size, Credit.queue_consume, List.length_tail]
    exact Nat.sub_le _ _
  next => exact Nat.le_refl _

theorem InOrder.retry {σ : Type} (h : w.InOrder creditCapacity)
    (ask : σ → Processor → CreditRequest → Bool × σ) (answerer : σ) :
    (w.retry ask answerer).InOrder creditCapacity := by
  obtain ⟨hretried, hsingle⟩ := w.state.retry_single ask h.single (answerer, [])
  exact h.work hsingle rfl (congrArg (· ++ w.state.credits.channel.queue) hretried) (Nat.le_refl _)

theorem InOrder.cycle {σ : Type} (h : w.InOrder creditCapacity)
    (ask : σ → Processor → CreditRequest → Bool × σ) (answerer : σ) :
    (w.cycle ask answerer).InOrder creditCapacity := by
  obtain ⟨hcycled, hsingle⟩ := w.state.cycle_single ask h.single (answerer, [])
  exact h.work hsingle (capacity_cycle _ _ _) hcycled (size_cycle_le _ _ _)

theorem InOrder.step (h : w.InOrder creditCapacity) (step : Step w w') :
    w'.InOrder creditCapacity := by
  cases step with
  | tell message => exact h.quiet rfl rfl (w.state.credits_handle message)
  | finish operation call held result => exact h.quiet rfl rfl (w.state.credits_handle _)
  | write request => exact h.write request
  | retry ask answerer => exact h.retry ask answerer
  | cycle ask answerer => exact h.cycle ask answerer

theorem inOrder_of_reachable (h : Reachable creditCapacity w) : w.InOrder creditCapacity := by
  induction h with
  | start => exact ⟨rfl, Nat.zero_le 1, rfl, Nat.zero_le _⟩
  | next _ step ih => exact ih.step step

end World

/-! ### What became of a request -/

namespace World

variable {w w' : World} {creditCapacity : Nat}

def refuseAll (_ : Unit) (_ : Processor) (_ : CreditRequest) : Bool × Unit := (false, ())

end World

end Manager

end JobBroker
