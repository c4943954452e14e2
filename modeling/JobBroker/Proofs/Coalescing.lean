import JobBroker.Proofs.Handovers

/-!
# Subscriptions that wait together

Subscriptions for a unit that is not there yet wait together for one build. It is asked for when the
first of them comes in, or, if the unit before it is still stopping then, when that has stopped.
Those whose connection has not closed by the time the unit is there are handed to it, in the order
in which they came in.
-/

namespace JobBroker.Manager

open Holding Table

/-- The subscriptions for a unit that moments bring, in their order, without those whose connection
a later one of the moments closes. -/
def lasting (key : UnitKey) : List Moment → List Waiting
  | [] => []
  | moment :: later =>
    ((moment.arrival? key).filter fun waiting =>
      ∀ other ∈ later, other.closed? ≠ some waiting.subscription.connection).toList ++
        lasting key later

/-- One more moment ends the stay of those whose connection it closes, and may bring one more. -/
theorem lasting_snoc (key : UnitKey) (moments : List Moment) (moment : Moment) :
    lasting key (moments ++ [moment]) =
      ((lasting key moments).filter fun waiting =>
        moment.closed? ≠ some waiting.subscription.connection) ++
          (moment.arrival? key).toList := by
  induction moments with
  | nil => cases harrival : moment.arrival? key <;> simp [lasting, harrival]
  | cons first moments ih =>
    rw [List.cons_append, lasting, lasting, ih, List.filter_append, List.append_assoc]
    congr 1
    cases first.arrival? key with
    | none => rfl
    | some waiting =>
      simp only [List.forall_mem_append, List.forall_mem_singleton, Option.filter_some,
        decide_eq_true_eq]
      by_cases hstays : ∀ other ∈ moments,
        other.closed? ≠ some waiting.subscription.connection
      case neg =>
        rw [if_neg hstays, if_neg fun hboth => hstays hboth.1]
        rfl
      by_cases hcloses : moment.closed? = some waiting.subscription.connection
      · rw [if_pos hstays, if_neg fun hboth => hboth.2 hcloses]
        simp [hcloses]
      · rw [if_pos hstays, if_pos ⟨hstays, hcloses⟩]
        simp [hcloses]

namespace World

/-- Subscriptions have begun to wait for a unit in the step after a world, and have been waiting
since. -/
inductive Coalesces (key : UnitKey) (w : World) : World → Prop where
  | enter {v : World} (step : Step w v) (free : w.state.pending.contains key = false)
      (waits : v.state.pending.contains key = true) : Coalesces key w v
  | stay {v v' : World} (earlier : Coalesces key w v) (step : Step v v')
      (waits : v'.state.pending.contains key = true) : Coalesces key w v'

/-- A unit is asked for by one call in a moment, for the partition as it is registered then. -/
def AskedIn (key : UnitKey) (moment : Moment) : Prop :=
  ∃ bucket, moment.before.buckets.get? key.partition = some bucket ∧
    moment.turn.asks key =
      [(⟨moment.before.nextOperation⟩, .build (bucket.unit key.jobType))]

/-- A unit is not asked for in any of several moments. -/
def Unasked (key : UnitKey) (moments : List Moment) : Prop :=
  ∀ moment ∈ moments, moment.turn.asks key = []

/-- When the unit is asked for that subscriptions wait for together. -/
inductive Asked (key : UnitKey) (w v : World) : Prop where
  /-- At once, if nothing is stopping. -/
  | prompt (rested : w.state.teardowns key = []) (entering : Moment) (later : List Moment)
      (since : w.since v = entering :: later) (asked : AskedIn key entering)
      (others : Unasked key later) (building : v.state.builds key ≠ [])
  /-- Not before the unit before it has stopped. -/
  | deferred (operation : OperationId) (stopping : w.state.teardowns key = [operation])
      (going : operation ∉ v.endings) (unasked : Unasked key (w.since v))
  /-- Where that has stopped. -/
  | resumed (operation : OperationId) (stopping : w.state.teardowns key = [operation])
      (early : List Moment) (ending : Moment) (later : List Moment)
      (since : w.since v = early ++ ending :: later)
      (ended : ending.event.ended? = some operation) (asked : AskedIn key ending)
      (others : Unasked key (early ++ later)) (building : v.state.builds key ≠ [])

/-- What is so while subscriptions wait for a unit together. -/
structure Gathers (key : UnitKey) (w v : World) : Prop where
  queue : v.state.pending.get? key = some (lasting key (w.since v))
  asked : Asked key w v
  /-- In the step in which they cease to wait the unit is not asked for. -/
  leaving : ∀ v', Step v v' → v'.state.pending.contains key = false → Unasked key (v.since v')
  /-- Whoever is not among them any more is never handed over. -/
  dropped : ∀ moment ∈ w.since v, ∀ waiting, moment.arrival? key = some waiting →
    waiting ∉ lasting key (w.since v) → ∀ v', Relation.ReflTransGen Step v v' →
    (v'.calls.countP fun call => call.2.adds waiting.key) = 0

/-- What the end of the teardown does that a build was put off for, whatever its result. -/
structure GoesOn (key : UnitKey) (v : World) (operation : OperationId) (processor : Processor)
    (result : Except String Unit) (queue : List Waiting) : Prop where
  asked : queue ≠ [] → ∀ bucket, v.state.buckets.get? key.partition = some bucket →
    (v.state.handle (.resume operation (.settled result))).asks key =
      [(⟨v.state.nextOperation⟩, .build (bucket.unit key.jobType))] ∧
    (v.finish operation (.teardown processor) result).state.pending.get? key = some queue
  dropped : queue = [] ∨ v.state.buckets.get? key.partition = none →
    (v.state.handle (.resume operation (.settled result))).asks key = [] ∧
    (v.finish operation (.teardown processor) result).state.pending.get? key = none

/-- What a build that has gone well does with those who wait for it. -/
structure HandsOver (key : UnitKey) (v : World) (operation : OperationId) (unit : ActivationUnit)
    (runner : Runner) (queue : List Waiting) : Prop where
  calls : callsOf (v.state.handle (.resume operation (.built (.ok runner)))).effects =
    handovers v.state.nextOperation ⟨⟨v.state.nextProcessor⟩, unit, runner⟩ queue
  ended : (v.finish operation (.build unit) (.ok runner)).state.pending.get? key = none
  registered : (v.finish operation (.build unit) (.ok runner)).state.isRegistered
    ⟨⟨v.state.nextProcessor⟩, unit, runner⟩ = true
  once : ∀ v', Relation.ReflTransGen Step (v.finish operation (.build unit) (.ok runner)) v' →
    ∀ waiting ∈ queue, (v'.calls.countP fun call => call.2.adds waiting.key) = 1
  served : ∀ v', Relation.ReflTransGen Step (v.finish operation (.build unit) (.ok runner)) v' →
    v'.state.isRegistered ⟨⟨v.state.nextProcessor⟩, unit, runner⟩ = true →
    ∀ subscription reply, subscription.unitKey = key →
      callsOf (v'.state.handle (.subscribe subscription reply)).effects =
        [(⟨v'.state.nextOperation⟩, .add ⟨⟨v.state.nextProcessor⟩, unit, runner⟩
          (v'.state.newcomer subscription reply).subscription)]

variable {w v v' : World} {moment : Moment} {creditCapacity : Nat} {key : UnitKey}
  {operation : OperationId}

/-! ### Waiting together -/

theorem Coalesces.steps (together : Coalesces key w v) : Relation.ReflTransGen Step w v := by
  induction together with
  | enter step free waits => exact .single step
  | stay earlier step waits ih => exact ih.tail step

theorem Coalesces.waits (together : Coalesces key w v) :
    v.state.pending.contains key = true := by
  cases together with
  | enter step free waits => exact waits
  | stay earlier step waits => exact waits

theorem Coalesces.free (together : Coalesces key w v) : w.state.pending.get? key = none := by
  induction together with
  | enter step free waits =>
    rw [Table.contains, Option.isSome_eq_false_iff, Option.isNone_iff_eq_none] at free
    exact free
  | stay earlier step waits ih => exact ih

/-- The queue holds those that came in and whose connection has not closed, in their order. -/
theorem Coalesces.queue (h : Reachable creditCapacity w) (together : Coalesces key w v) :
    v.state.pending.get? key = some (lasting key (w.since v)) := by
  induction together with
  | enter step free waits =>
    obtain ⟨moment, hposted⟩ := posted_of_step (consistent_of_reachable h) step
    have hfree := (Coalesces.enter step free waits).free
    obtain ⟨-, waiting, harrival, hqueue⟩ := hposted.queue_begins h step hfree waits
    rw [hqueue, hposted.since .refl, since_self, lasting_snoc, harrival]
    rfl
  | stay earlier step waits ih =>
    have hreached := reachable_of_steps h earlier.steps
    obtain ⟨moment, hposted⟩ := posted_of_step (consistent_of_reachable hreached) step
    rw [hposted.queue_goes_on hreached step ih waits, hposted.since earlier.steps, lasting_snoc]

/-! ### Asking for the unit -/

theorem noted_of_teardowns (found : operation ∈ w.state.teardowns key) :
    ∃ processor reply, processor.key = key ∧
      w.state.continuations.get? operation = some (.teardown processor reply) := by
  obtain ⟨continuation, hnoted, htest⟩ := mem_keysWhere.1 found
  cases continuation with
  | teardown processor reply => exact ⟨processor, reply, of_decide_eq_true htest, hnoted⟩
  | _ => cases htest

/-- Of the units for a key no more than one is stopping. -/
theorem teardowns_eq (h : Reachable creditCapacity w)
    (found : operation ∈ w.state.teardowns key) : w.state.teardowns key = [operation] := by
  have hexclusive := units_le_one h key
  have hpos := List.length_pos_of_mem found
  obtain ⟨only, honly⟩ := List.length_eq_one_iff.1
    (show (w.state.teardowns key).length = 1 by omega)
  rw [honly, List.mem_singleton] at found
  rw [honly, found]

theorem Posted.ended_of_held (h : Reachable creditCapacity w) (posted : w.Posted moment v)
    {call : Call} (held : (operation, call) ∈ w.outstanding)
    (ends : moment.event.ended? = some operation) :
    ∃ result, moment.event = .ended operation call result := by
  cases hevent : moment.event with
  | ended other called result =>
    rw [hevent] at ends
    cases ends
    cases call_unique h held (posted.ended _ _ _ hevent)
    exact ⟨result, rfl⟩
  | _ =>
    rw [hevent] at ends
    cases ends

section

variable (h : Reachable creditCapacity w) (posted : w.Posted moment v) (step : Step w v)
include h posted step

theorem Posted.building_of_asked (asked : AskedIn key moment) : v.state.builds key ≠ [] := by
  obtain ⟨bucket, -, hasks⟩ := asked
  have hmem : (_, .build (bucket.unit key.jobType)) ∈ moment.turn.asks key :=
    hasks ▸ List.mem_singleton_self _
  obtain ⟨hmade, hsame⟩ := List.mem_filter.1 hmem
  have hheld := (posted.issued (consistent_of_reachable h) hmade).1
  have hpos := builds_of_outstanding (h.next step) hheld
  rw [of_decide_eq_true hsame] at hpos
  exact List.length_pos_iff.1 hpos

/-- While a build is under way that something waits for, the unit is not asked for again. -/
theorem Posted.keeps_building (building : w.state.builds key ≠ [])
    (waits : w.state.pending.contains key = true) (waits' : v.state.pending.contains key = true) :
    moment.turn.asks key = [] ∧ v.state.builds key ≠ [] := by
  have hconsistent := consistent_of_reachable h
  have hqueues := posted.queues h step key
  have hone := awaited_of_reachable h key
  rw [if_pos waits] at hone
  have hnone : w.state.teardowns key = [] := by
    have hpos := List.length_pos_iff.2 building
    exact List.length_eq_zero_iff.1 (by omega)
  refine ⟨?_, ?_⟩
  · obtain ⟨queue, hqueue⟩ := Option.isSome_iff_exists.1 waits
    rw [hqueues.asks]
    rw [← posted.before] at hqueue
    refine Moment.asks_of_waiting hqueue fun operation processor result hevent hsame => ?_
    have hmem := mem_teardowns_of_held hconsistent (posted.ended _ _ _ hevent)
    rw [hsame, hnone] at hmem
    cases hmem
  · obtain ⟨operation, hfound⟩ := List.exists_mem_of_ne_nil _ building
    obtain ⟨unit, rfl, hheld⟩ := outstanding_of_builds hconsistent hfound
    have hgoing : moment.event.ended? ≠ some operation := by
      intro hends
      obtain ⟨result, hevent⟩ := posted.ended_of_held h hheld hends
      have hpending := hqueues.pending
      rw [← posted.state, Moment.queued, hevent] at hpending
      rw [Table.contains, hpending] at waits'
      simp at waits'
    have hstays := builds_of_outstanding (h.next step) (posted.stays hheld hgoing)
    exact List.length_pos_iff.1 hstays

section

variable (stopping : w.state.teardowns key = [operation])
  (waits : w.state.pending.contains key = true)
include stopping waits

/-- While the unit before it is still stopping, a unit is not asked for. -/
theorem Posted.unasked_of_stopping (going : moment.event.ended? ≠ some operation) :
    moment.turn.asks key = [] := by
  have hconsistent := consistent_of_reachable h
  obtain ⟨queue, hqueue⟩ := Option.isSome_iff_exists.1 waits
  rw [(posted.queues h step key).asks]
  rw [← posted.before] at hqueue
  refine Moment.asks_of_waiting hqueue fun other processor result hevent hsame => ?_
  have hmem := mem_teardowns_of_held hconsistent (posted.ended _ _ _ hevent)
  rw [hsame, stopping, List.mem_singleton] at hmem
  refine going ?_
  rw [hevent, hmem]
  rfl

/-- Where the unit before it has stopped, a unit is asked for that is still waited for. -/
theorem Posted.askedIn_of_stopped (waits' : v.state.pending.contains key = true)
    (ends : moment.event.ended? = some operation) : AskedIn key moment := by
  obtain ⟨processor, hsame, hheld⟩ := outstanding_of_teardowns (consistent_of_reachable h)
    (stopping ▸ List.mem_singleton_self operation)
  obtain ⟨result, hevent⟩ := posted.ended_of_held h hheld ends
  have hqueues := posted.queues h step key
  obtain ⟨queue, hqueue⟩ := Option.isSome_iff_exists.1 waits
  rw [← posted.before] at hqueue
  obtain ⟨hasked, hdropped⟩ := Moment.asks_of_stopped hqueue hevent hsame
  have hgoes : moment.queued key ≠ none := by
    rw [← hqueues.pending, ← posted.state]
    exact Option.isSome_iff_ne_none.1 waits'
  have hnonempty : queue ≠ [] := fun hempty => hgoes (hdropped (.inl hempty)).2
  cases hbucket : moment.before.buckets.get? key.partition with
  | none => exact absurd (hdropped (.inr hbucket)).2 hgoes
  | some bucket => exact ⟨bucket, hbucket, hqueues.asks.trans (hasked hnonempty bucket hbucket).1⟩

end

end

/-- A unit that is stopping goes on stopping until its teardown has ended. -/
theorem stopping_of_steps (h : Reachable creditCapacity w)
    (steps : Relation.ReflTransGen Step w v) (stopping : w.state.teardowns key = [operation])
    (going : operation ∉ v.endings) : v.state.teardowns key = [operation] := by
  obtain ⟨processor, reply, hkey, hnoted⟩ :=
    noted_of_teardowns (stopping ▸ List.mem_singleton_self operation)
  have hlater := (noted_of_steps h steps hnoted rfl).resolve_right going
  refine teardowns_eq (reachable_of_steps h steps) (mem_keysWhere.2 ⟨_, hlater, ?_⟩)
  exact decide_eq_true hkey

theorem Coalesces.asked (h : Reachable creditCapacity w) (together : Coalesces key w v) :
    Asked key w v := by
  induction together with
  | @enter v step free waits =>
    obtain ⟨moment, hposted⟩ := posted_of_step (consistent_of_reachable h) step
    have hfree := (Coalesces.enter step free waits).free
    obtain ⟨hvacant, waiting, harrival, -⟩ := hposted.queue_begins h step hfree waits
    obtain ⟨subscription, reply, hevent, hkey, hregistered, -⟩ := Moment.arrival?_eq_some.1 harrival
    have hsince : w.since v = [moment] := by rw [hposted.since .refl, since_self]; rfl
    have hasks := (hposted.queues h step key).asks
    rw [Moment.asks, hevent, hposted.before] at hasks
    rw [hposted.before] at hregistered
    cases hteardowns : w.state.teardowns key with
    | nil =>
      have hrested : w.state.retiring.contains key = false := by
        rw [← Bool.not_eq_true, contains_retiring h, hteardowns]
        exact not_not_intro rfl
      obtain ⟨bucket, hbucket⟩ := Option.isSome_iff_exists.1 hregistered
      have hasked : AskedIn key moment := by
        refine ⟨bucket, hposted.before ▸ hbucket, hasks.trans ?_⟩
        rw [hposted.before]
        simp [hkey, hvacant, hfree, hrested, State.asking, hbucket]
      exact .prompt hteardowns moment [] hsince hasked (List.forall_mem_nil _)
        (hposted.building_of_asked h step hasked)
    | cons operation others =>
      have hstopping := teardowns_eq h (hteardowns ▸ List.mem_cons_self ..)
      have hretiring : w.state.retiring.contains key = true :=
        (contains_retiring h key).2 (by rw [hteardowns]; exact List.cons_ne_nil _ _)
      have hgoing : operation ∉ v.endings := by
        obtain ⟨processor, -, hheld⟩ := outstanding_of_teardowns (consistent_of_reachable h)
          (hstopping ▸ List.mem_singleton_self operation)
        rw [hposted.endings, hevent]
        simpa [Event.ended?] using (mem_outstanding.1 hheld).2
      refine .deferred operation hstopping hgoing ?_
      rw [hsince, Unasked, List.forall_mem_singleton, hasks]
      simp [hretiring]
  | @stay v v' earlier step waits ih =>
    have hreached := reachable_of_steps h earlier.steps
    obtain ⟨moment, hposted⟩ := posted_of_step (consistent_of_reachable hreached) step
    have hsince := hposted.since earlier.steps
    cases ih with
    | prompt rested entering later since asked others building =>
      obtain ⟨hasks, hbuilding⟩ := hposted.keeps_building hreached step building earlier.waits waits
      refine .prompt rested entering (later ++ [moment]) (by rw [hsince, since]; rfl) asked ?_
        hbuilding
      exact List.forall_mem_append.2 ⟨others, List.forall_mem_singleton.2 hasks⟩
    | deferred operation stopping going unasked =>
      have hstopping := stopping_of_steps h earlier.steps stopping going
      by_cases hends : moment.event.ended? = some operation
      · have hasked := hposted.askedIn_of_stopped hreached step hstopping earlier.waits waits hends
        refine .resumed operation stopping (w.since v) moment [] hsince hends hasked ?_
          (hposted.building_of_asked hreached step hasked)
        rw [List.append_nil]
        exact unasked
      · have hasks := hposted.unasked_of_stopping hreached step hstopping earlier.waits hends
        refine .deferred operation stopping ?_ ?_
        · rw [hposted.endings, List.mem_append, not_or, Option.mem_toList]
          exact ⟨going, hends⟩
        · rw [hsince]
          exact List.forall_mem_append.2 ⟨unasked, List.forall_mem_singleton.2 hasks⟩
    | resumed operation stopping early ending later since ended asked others building =>
      obtain ⟨hasks, hbuilding⟩ := hposted.keeps_building hreached step building earlier.waits waits
      refine .resumed operation stopping early ending (later ++ [moment])
        (by rw [hsince, since, List.append_assoc]; rfl) ended asked ?_ hbuilding
      rw [← List.append_assoc]
      exact List.forall_mem_append.2 ⟨others, List.forall_mem_singleton.2 hasks⟩

/-! ### Leaving -/

theorem Coalesces.leaving (h : Reachable creditCapacity w) (together : Coalesces key w v)
    (step : Step v v') (gone : v'.state.pending.contains key = false) :
    Unasked key (v.since v') := by
  have hreached := reachable_of_steps h together.steps
  obtain ⟨moment, hposted⟩ := posted_of_step (consistent_of_reachable hreached) step
  have hqueues := hposted.queues hreached step key
  have hqueue := together.queue h
  rw [← hposted.before] at hqueue
  rw [Table.contains, Option.isSome_eq_false_iff, Option.isNone_iff_eq_none, hposted.state,
    hqueues.pending] at gone
  rw [hposted.since .refl, since_self, List.nil_append, Unasked, List.forall_mem_singleton,
    hqueues.asks]
  exact Moment.asks_of_ends hqueue gone

/-- Of those that came in each waits still, or is never handed over. -/
theorem Coalesces.forgone (h : Reachable creditCapacity w) (together : Coalesces key w v) :
    ∀ moment ∈ w.since v, ∀ waiting, moment.arrival? key = some waiting →
      waiting ∈ lasting key (w.since v) ∨ v.Forgone waiting.key := by
  induction together with
  | enter step free waits =>
    obtain ⟨moment, hposted⟩ := posted_of_step (consistent_of_reachable h) step
    rw [hposted.since .refl, since_self, lasting_snoc]
    intro other hmem waiting harrival
    cases List.mem_singleton.1 hmem
    exact .inl (by simp [harrival])
  | @stay v v' earlier step waits ih =>
    have hreached := reachable_of_steps h earlier.steps
    obtain ⟨moment, hposted⟩ := posted_of_step (consistent_of_reachable hreached) step
    rw [hposted.since earlier.steps, lasting_snoc]
    intro other hmem waiting harrival
    rw [List.mem_append, List.mem_singleton] at hmem
    rcases hmem with hold | rfl
    case inr => exact .inl (by simp [harrival])
    rcases ih other hold waiting harrival with hlasts | hforgone
    case inr => exact .inr (hposted.forgone hforgone)
    by_cases hcloses : moment.closed? = some waiting.subscription.connection
    · -- it leaves the queue as its connection closes
      refine .inr ?_
      have hevent := Moment.closed?_eq_some.1 hcloses
      have htold : v' = v.tell (.connectionClosed waiting.subscription.connection) := by
        rw [hposted.after, tell, hevent, hposted.told _ hevent]
      rw [htold]
      exact forgone_of_closed hreached (earlier.queue h) hlasts
    · exact .inl (List.mem_append_left _ (List.mem_filter.2 ⟨hlasts, by simpa using hcloses⟩))

/-! ### What ends the waiting -/

theorem queues_finish (h : Reachable creditCapacity w) {call : Call}
    (held : (operation, call) ∈ w.outstanding) (result : Except String call.Success)
    (key : UnitKey) : Queues key ⟨w.state, .ended operation call result,
      w.state.handle (.resume operation (call.outcome result))⟩ := by
  have hstep : Step w (w.finish operation call result) := .finish _ _ held _
  obtain ⟨moment, hposted⟩ := posted_of_step (consistent_of_reachable h) hstep
  have hqueues := hposted.queues h hstep key
  rw [← hposted.eq_of_history rfl] at hqueues
  exact hqueues

theorem goesOn_of_held (h : Reachable creditCapacity w) {processor : Processor}
    {queue : List Waiting} (held : (operation, .teardown processor) ∈ w.outstanding)
    (same : processor.key = key) (waiting : w.state.pending.get? key = some queue)
    (result : Except String Unit) : GoesOn key w operation processor result queue := by
  have hqueues := queues_finish h held result key
  have hwaiting : (Moment.mk w.state (.ended operation (.teardown processor) result)
      (w.state.handle (.resume operation (.settled result)))).before.pending.get? key =
        some queue := waiting
  obtain ⟨hasked, hdropped⟩ := Moment.asks_of_stopped hwaiting rfl same
  refine ⟨fun nonempty bucket found => ?_, fun gone => ?_⟩
  · obtain ⟨hasks, hqueued⟩ := hasked nonempty bucket found
    exact ⟨hqueues.asks.trans hasks, hqueues.pending.trans hqueued⟩
  · obtain ⟨hasks, hqueued⟩ := hdropped gone
    exact ⟨hqueues.asks.trans hasks, hqueues.pending.trans hqueued⟩

theorem handsOver_of_held (h : Reachable creditCapacity w) {unit : ActivationUnit}
    {queue : List Waiting} (held : (operation, .build unit) ∈ w.outstanding)
    (waiting : w.state.pending.get? unit.key = some queue) (nonempty : queue ≠ [])
    (registered : w.state.buckets.contains unit.key.partition = true) (runner : Runner) :
    HandsOver unit.key w operation unit runner queue := by
  have hfinished : Reachable creditCapacity (w.finish operation (.build unit) (.ok runner)) :=
    h.next (.finish _ _ held _)
  obtain ⟨bucket, hbucket⟩ := Option.isSome_iff_exists.1 registered
  refine ⟨calls_of_built runner h held waiting nonempty hbucket, ?_,
    isRegistered_of_built runner h held waiting nonempty hbucket, ?_, ?_⟩
  · have hqueues := queues_finish h held (.ok runner) unit.key
    refine hqueues.pending.trans ?_
    simp [Moment.queued]
  · intro v steps waits member
    exact adds_of_built runner h held waiting nonempty hbucket member steps
  · intro v steps hregistered subscription reply hkey
    have hbuilt : (⟨⟨w.state.nextProcessor⟩, unit, runner⟩ : Processor) ∈ v.built := by
      refine (built_of_steps steps).subset ?_
      rw [finish, built_happen]
      exact List.mem_append_right _ (List.mem_singleton_self _)
    exact calls_of_registered (reachable_of_steps hfinished steps) hbuilt hregistered hkey reply

/-- Subscriptions that wait for a unit together wait in the order in which they came in, until their
connection closes. The unit is asked for once: when the first of them comes in, or when the unit
before it has stopped, if any of them is left then and the partition is registered. When it was
built it is handed each of them that is left, in their order, by one call for each; and while it is
registered every further subscription for it is handed to it at once. -/
theorem coalesced_once (h : Reachable creditCapacity w) (together : Coalesces key w v) :
    Gathers key w v ∧
    (∀ operation processor, (operation, .teardown processor) ∈ v.outstanding →
      processor.key = key →
      ∀ result, GoesOn key v operation processor result (lasting key (w.since v))) ∧
    ∀ operation unit, (operation, .build unit) ∈ v.outstanding → unit.key = key →
      lasting key (w.since v) ≠ [] → v.state.buckets.contains key.partition = true →
      ∀ runner, HandsOver key v operation unit runner (lasting key (w.since v)) := by
  have hreached := reachable_of_steps h together.steps
  have hqueue := together.queue h
  refine ⟨⟨hqueue, together.asked h, fun v' step gone => together.leaving h step gone, ?_⟩, ?_, ?_⟩
  · intro moment mem waiting arrival leaves v' steps
    have hforgone := (together.forgone h moment mem waiting arrival).resolve_left leaves
    exact countP_adds_of_forgone (forgone_of_steps hreached hforgone steps)
  · intro operation processor held same result
    exact goesOn_of_held hreached held same hqueue result
  · rintro operation unit held rfl nonempty registered runner
    exact handsOver_of_held hreached held hqueue nonempty registered runner

end World

/-! ### Two runs -/

namespace Sample

open World

def opened : World := (initial 2).tell (.addPartition unit.partition unit.service)

/-- A subscription of another connection joins the first one, whose connection closes then. -/
def thinned : World :=
  (building.tell (.subscribe { subscription with connection := ⟨6⟩ } ⟨1⟩)).tell
    (.connectionClosed ⟨5⟩)

theorem coalesces_thinned : Coalesces unit.key opened thinned :=
  .stay (.stay (.enter (.tell _ rfl) (by decide +kernel) (by decide +kernel)) (.tell _ rfl)
    (by decide +kernel)) (.tell _ rfl) (by decide +kernel)

theorem coalesces_deferred : Coalesces unit.key retired deferred :=
  .enter (.tell _ rfl) (by decide +kernel) (by decide +kernel)

end Sample

namespace World

open Sample in
theorem coalesced_once_sample :
    Gathers Sample.unit.key opened thinned ∧
      HandsOver Sample.unit.key thinned ⟨0⟩ Sample.unit ⟨7⟩
        [⟨⟨1⟩, { subscription with connection := ⟨6⟩, key := some ⟨1⟩ }, ⟨1⟩⟩] ∧
      GoesOn Sample.unit.key deferred ⟨3⟩ Sample.processor (.error "stuck")
        [⟨⟨1⟩, { subscription with key := some ⟨1⟩ }, ⟨2⟩⟩] := by
  have hopened : Reachable 2 opened := Reachable.start.next (.tell _ rfl)
  have hretired : Reachable 2 retired := reachable_removing.next step_retired
  have hthinned : lasting Sample.unit.key (opened.since thinned) =
      [⟨⟨1⟩, { subscription with connection := ⟨6⟩, key := some ⟨1⟩ }, ⟨1⟩⟩] := by decide +kernel
  have hdeferred : lasting Sample.unit.key (retired.since deferred) =
      [⟨⟨1⟩, { subscription with key := some ⟨1⟩ }, ⟨2⟩⟩] := by decide +kernel
  obtain ⟨hgathers, -, hhands⟩ := coalesced_once hopened coalesces_thinned
  obtain ⟨-, hgoes, -⟩ := coalesced_once hretired coalesces_deferred
  rw [hthinned] at hhands
  rw [hdeferred] at hgoes
  exact ⟨hgathers,
    hhands ⟨0⟩ Sample.unit (by decide +kernel) rfl (List.cons_ne_nil _ _) (by decide +kernel) ⟨7⟩,
    hgoes ⟨3⟩ Sample.processor (by decide +kernel) rfl (.error "stuck")⟩

end World

end JobBroker.Manager
