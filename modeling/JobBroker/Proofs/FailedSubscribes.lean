import JobBroker.Manager.Completion
import JobBroker.Proofs.Queues
import JobBroker.Proofs.Retirements

/-!
# Subscriptions that fail

A subscription can fail at three places: where it comes in and its partition is not registered,
where the unit that it waits for could not be built, and where the processor did not take it. What
was done for it until then is taken back, be it a queue or a reference, and nothing else is touched;
a processor that was kept for it alone is retired.
-/

namespace JobBroker.Manager

open Holding

namespace State

variable {s : State} {processor : Processor}

/-- A reference that is dropped was the last one if there were no more than one. -/
theorem unreferenced_dropReference (s : State) (id : ProcessorId) :
    (s.dropReference id).isUnreferenced id = true ↔ (s.references.get? id).getD 0 ≤ 1 := by
  unfold dropReference isUnreferenced Table.contains
  cases hcount : s.references.get? id with
  | none => simp [hcount]
  | some count =>
    by_cases hlast : count - 1 = 0
    · simp [hlast]
      omega
    · simp [hlast]
      omega

/-- The last addition to a registered processor that fails retires it. -/
theorem retires_release {bucket : Bucket}
    (found : s.buckets.get? processor.partition = some bucket)
    (detached : bucket.detach? processor.id = some { bucket with
      processors := bucket.processors.filter fun other => other ≠ processor })
    (last : (s.references.get? processor.id).getD 0 ≤ 1) :
    (s.release processor).Retires s processor := by
  have hrelease : s.release processor = (s.dropReference processor.id).retire processor none :=
    if_pos ((unreferenced_dropReference s processor.id).2 last)
  have hframe := dropReference_eq s processor.id
  have hbuckets := congrArg State.buckets hframe
  have hindex := congrArg State.index hframe
  have hnext := congrArg State.nextOperation hframe
  rw [hrelease]
  exact (retires_retire ((congrArg (Table.get? · _) hbuckets).trans found)
    detached none).1.since hbuckets hindex hnext

/-- Any other one leaves it where it is. -/
theorem reports_release (spared : ¬(s.isRegistered processor = true ∧
      (s.references.get? processor.id).getD 0 ≤ 1)) : (s.release processor).Reports s [] := by
  have hframe := dropReference_eq s processor.id
  have hbuckets := congrArg State.buckets hframe
  have hindex := congrArg State.index hframe
  unfold release
  dsimp only
  split
  next hunreferenced =>
    have hgone : (s.dropReference processor.id).isRegistered processor = false := by
      rw [unreferenced_dropReference] at hunreferenced
      rw [hframe]
      exact Bool.eq_false_iff.2 fun hregistered => spared ⟨hregistered, hunreferenced⟩
    rw [retire_of_gone hgone]
    exact ⟨rfl, rfl, hbuckets, hindex⟩
  next => exact ⟨rfl, rfl, hbuckets, hindex⟩

end State

namespace World

variable {w w' : World} {moment : Moment} {creditCapacity : Nat} {operation : OperationId}
  {unit : ActivationUnit} {key : UnitKey} {processor : Processor} {subscriber : SubscriberKey}
  {connection : ConnectionId} {reply : Ticket} {closed : Bool} {reason : String}

/-- What a failed build does: everyone who waits for the unit is told, in order, and their queue is
gone. Nothing is left that would keep the next subscription from asking for the unit. -/
structure BuildFails (w : World) (operation : OperationId) (unit : ActivationUnit)
    (reason : String) (queue : List Waiting) : Prop where
  waiting : w.state.pending.get? unit.key = some queue
  turn : w.state.handle (.resume operation (.built (.error reason))) =
    { state := { w.state with
        pending := w.state.pending.erase unit.key
        continuations := w.state.continuations.erase operation }
      effects := queue.map fun waiting =>
        .settle waiting.reply (.error (.unitBuild unit.jobType reason)) }
  anew : ∀ v, Relation.ReflTransGen Step (w.finish operation (.build unit) (.error reason)) v →
    (∀ moment ∈ (w.finish operation (.build unit) (.error reason)).since v,
      moment.arrival? unit.key = none) →
    ∀ bucket subscription reply, v.state.buckets.get? unit.key.partition = some bucket →
      subscription.unitKey = unit.key →
      callsOf (v.state.handle (.subscribe subscription reply)).effects =
        [(⟨v.state.nextOperation⟩, .build (bucket.unit unit.jobType))]

/-- An addition is all that refers to a registered processor. -/
def LastOn (w : World) (operation : OperationId) (processor : Processor) : Prop :=
  w.state.isRegistered processor = true ∧ w.state.indexedOn processor.id = [] ∧
    w.state.addingOn processor.id = [operation]

/-- What a failed addition does. -/
structure AdditionFails (w : World) (operation : OperationId) (processor : Processor)
    (subscription : JobSubscription) (reason : String) (key : SubscriberKey) (reply : Ticket) :
    Prop where
  settled : settledOf (w.state.handle (.resume operation (.settled (.error reason)))).effects =
    [(reply, .error (.dispatch reason))]
  inactive : ∀ v, Relation.ReflTransGen Step
    (w.finish operation (.add processor subscription) (.error reason)) v →
    v.state.index.get? key = none
  retired : w.LastOn operation processor →
    (w.state.handle (.resume operation (.settled (.error reason)))).Retires w.state processor ∧
    ∀ v, Relation.ReflTransGen Step
      (w.finish operation (.add processor subscription) (.error reason)) v →
      v.discarded processor.id = [processor]
  spared : ¬w.LastOn operation processor →
    (w.state.handle (.resume operation (.settled (.error reason)))).Reports w.state
      [(reply, .error (.dispatch reason))]

/-! ### Where no unit is -/

theorem Posted.life_eq (posted : w.Posted moment w') (key : UnitKey) :
    w'.life key = (w.life key).bind fun phase => phase.after key moment.signs := by
  rw [life, posted.signs, Phase.after_append]
  rfl

theorem asks_of_asked {unit : ActivationUnit} (shown : .asked unit ∈ moment.signs)
    (concerns : (Sign.asked unit).concerns key = true) :
    ∃ call ∈ callsOf moment.turn.effects, call.2.asks key = true := by
  rcases List.mem_append.1 shown with hevent | hcalls
  · unfold Event.signs at hevent
    split at hevent <;> simp at hevent
  · obtain ⟨⟨operation, call⟩, hcall, hsign⟩ := List.mem_flatMap.1 hcalls
    cases call with
    | build other =>
      cases List.mem_singleton.1 hsign
      exact ⟨_, hcall, concerns⟩
    | add | teardown => cases List.mem_singleton.1 hsign
    | remove | sweep => cases hsign

/-- A unit comes into being only by being asked for. -/
theorem Posted.stays_absent (h : Reachable creditCapacity w) (posted : w.Posted moment w')
    (step : Step w w') (absent : w.life key = some .absent) (unasked : moment.turn.asks key = []) :
    w'.life key = some .absent := by
  obtain ⟨phase, hlife, -⟩ := at_of_reachable (h.next step) key
  have hafter := posted.life_eq key
  rw [absent, Option.bind_some, Phase.after] at hafter
  cases hsigns : moment.signs.filter (Sign.concerns key) with
  | nil =>
    rw [hsigns] at hafter
    exact hafter
  | cons sign signs =>
    exfalso
    have hmem : sign ∈ moment.signs.filter (Sign.concerns key) :=
      hsigns ▸ List.mem_cons_self ..
    obtain ⟨hsign, hconcerns⟩ := List.mem_filter.1 hmem
    rw [hsigns, hlife, List.foldlM_cons] at hafter
    -- no other sign can be the first one
    cases sign with
    | asked unit =>
      obtain ⟨call, hcall, hkey⟩ := asks_of_asked hsign hconcerns
      rw [Turn.asks, List.filter_eq_nil_iff] at unasked
      exact unasked call hcall hkey
    | _ => cases hafter

/-- Nothing is left of the units for a key, and nothing waits for one. -/
structure Unused (w : World) (key : UnitKey) : Prop where
  absent : w.life key = some .absent
  free : w.state.pending.get? key = none

theorem Posted.stays_unused (h : Reachable creditCapacity w) (posted : w.Posted moment w')
    (step : Step w w') (unused : w.Unused key) (absent : moment.arrival? key = none) :
    w'.Unused key where
  absent := by
    refine posted.stays_absent h step unused.absent ?_
    rw [(posted.queues h step key).asks]
    exact Moment.asks_of_free (posted.before ▸ unused.free) absent
  free := by
    by_contra hsome
    have hwaits : w'.state.pending.contains key = true := Option.isSome_iff_ne_none.2 hsome
    obtain ⟨-, waiting, harrival, -⟩ := posted.queue_begins h step unused.free hwaits
    rw [absent] at harrival
    cases harrival

theorem unused_of_steps (h : Reachable creditCapacity w) (unused : w.Unused key)
    (steps : Relation.ReflTransGen Step w w')
    (absent : ∀ moment ∈ w.since w', moment.arrival? key = none) : w'.Unused key := by
  induction steps with
  | refl => exact unused
  | tail earlier step ih =>
    have hreached := reachable_of_steps h earlier
    obtain ⟨moment, hposted⟩ := posted_of_step (consistent_of_reachable hreached) step
    rw [hposted.since earlier, List.forall_mem_append, List.forall_mem_singleton] at absent
    exact hposted.stays_unused hreached step (ih absent.1) absent.2

/-- Where nothing is left of a unit a subscription asks for it. -/
theorem calls_of_unused (h : Reachable creditCapacity w) {subscription : JobSubscription}
    (unused : w.Unused subscription.unitKey) {bucket : Bucket}
    (found : w.state.buckets.get? subscription.partition = some bucket) (reply : Ticket) :
    callsOf (w.state.handle (.subscribe subscription reply)).effects =
      [(⟨w.state.nextOperation⟩, .build (bucket.unit subscription.jobType))] := by
  obtain ⟨habsent, hfree⟩ := unused
  obtain ⟨phase, hlife, -, hserving, hteardowns⟩ := units_of_reachable h subscription.unitKey
  cases Option.some.inj (habsent.symm.trans hlife)
  have hvacant : w.state.processor? subscription.unitKey = none := processor?_eq_none hserving
  have hrested : ¬w.state.retiring.contains subscription.unitKey = true := by
    rw [contains_retiring h, not_not]
    exact List.length_eq_zero_iff.1 hteardowns
  have hnone : bucket.byJobType? subscription.jobType = none := by
    rw [State.processor?] at hvacant
    rw [show w.state.buckets.get? subscription.unitKey.partition = some bucket from found]
      at hvacant
    exact hvacant
  have hqueue : w.state.pending.get? ⟨subscription.partition, subscription.jobType⟩ = none := hfree
  have hdone : ¬w.state.retiring.contains ⟨subscription.partition, subscription.jobType⟩ = true :=
    hrested
  rw [State.handle, State.subscribe]
  simp only [found, hnone, hqueue]
  rw [if_neg hdone, State.startBuild]
  simp only [found]
  rfl

/-! ### Builds that fail -/

section

variable (h : Reachable creditCapacity w) (held : (operation, .build unit) ∈ w.outstanding)
include h held

theorem life_of_building : w.life unit.key = some .building := by
  obtain ⟨phase, hlife, hbuilds, -⟩ := units_of_reachable h unit.key
  have hpos := builds_of_outstanding h held
  rw [hlife]
  rw [hbuilds] at hpos
  split at hpos
  next hphase => rw [hphase]
  next => exact absurd hpos (Nat.lt_irrefl 0)

theorem turn_of_failed {queue : List Waiting}
    (waiting : w.state.pending.get? unit.key = some queue) (reason : String) :
    w.state.handle (.resume operation (.built (.error reason))) =
      { state := { w.state with
          pending := w.state.pending.erase unit.key
          continuations := w.state.continuations.erase operation }
        effects := queue.map fun waiting =>
          .settle waiting.reply (.error (.unitBuild unit.jobType reason)) } := by
  simp only [State.handle, State.resume, noted_of_building h held, State.onBuilt,
    State.failPending, waiting, Option.getD_some, State.settleAll, List.map_map]
  rfl

theorem unused_of_failed (reason : String) :
    (w.finish operation (.build unit) (.error reason)).Unused unit.key := by
  obtain ⟨queue, hqueue⟩ := waiting_of_building h held
  have hturn := turn_of_failed h held hqueue reason
  refine ⟨?_, ?_⟩
  · have hcalls : callsOf (w.state.handle (.resume operation (.built (.error reason)))).effects =
        [] := by
      rw [hturn, ← callsOf_settle (queue.map Waiting.reply)
        (.error (.unitBuild unit.jobType reason)), List.map_map]
      rfl
    rw [life, finish, signs_happen, Phase.after_append,
      show Phase.absent.after unit.key w.signs = _ from life_of_building h held, Moment.signs,
      show callsOf (Moment.turn _).effects = [] from hcalls]
    simp [Event.signs, Phase.after, Sign.concerns, Phase.next]
  · show (w.state.handle (.resume operation (.built (.error reason)))).state.pending.get? _ = none
    rw [hturn]
    exact Table.get?_erase_self _ _

theorem buildFails_of_held (reason : String) :
    ∃ queue, w.BuildFails operation unit reason queue := by
  obtain ⟨queue, hqueue⟩ := waiting_of_building h held
  refine ⟨queue, hqueue, turn_of_failed h held hqueue reason, ?_⟩
  intro v steps absent bucket subscription reply found hkey
  have hfinished : Reachable creditCapacity (w.finish operation (.build unit) (.error reason)) :=
    h.next (.finish _ _ held _)
  have hunused := unused_of_steps hfinished (unused_of_failed h held reason) steps absent
  rw [← hkey] at hunused found
  have hcalls := calls_of_unused (reachable_of_steps hfinished steps) hunused found reply
  rw [hcalls, show subscription.jobType = unit.jobType from congrArg UnitKey.jobType hkey]

end

/-! ### Additions that fail -/

theorem noted_of_adding (h : Reachable creditCapacity w) {subscription : JobSubscription}
    (held : (operation, .add processor subscription) ∈ w.outstanding) :
    ∃ key connection reply closed, w.state.continuations.get? operation =
        some (.subscribe key connection processor reply closed) ∧
      subscription.key = some key := by
  obtain ⟨continuation, hnoted, hfits⟩ := (consistent_of_reachable h).awaits _ held
  cases continuation with
  | subscribe key connection other reply closed =>
    obtain ⟨rfl, hkey, -⟩ := hfits
    exact ⟨key, connection, reply, closed, hnoted, hkey⟩
  | _ => cases hfits

section

variable (h : Reachable creditCapacity w)
  (noted : w.state.continuations.get? operation =
    some (.subscribe subscriber connection processor reply closed))
include noted

theorem turn_of_refused (reason : String) :
    w.state.handle (.resume operation (.settled (.error reason))) =
      (State.release { w.state with continuations := w.state.continuations.erase operation }
        processor).andThen fun s => s.settle reply (.error (.dispatch reason)) := by
  simp only [State.handle, State.resume, noted, State.onAdded]

theorem mem_addingOn_of_noted : operation ∈ w.state.addingOn processor.id :=
  Table.mem_keysWhere.2 ⟨_, noted, by simp⟩

include h

theorem lastOn_iff : w.LastOn operation processor ↔ w.state.isRegistered processor = true ∧
    (w.state.references.get? processor.id).getD 0 ≤ 1 := by
  have hmem := mem_addingOn_of_noted noted
  rw [LastOn, references_eq h]
  refine and_congr_right fun _ => ⟨?_, fun hle => ?_⟩
  · rintro ⟨hindexed, hadding⟩
    rw [hindexed, hadding]
    exact Nat.le_refl 1
  · have hpos := List.length_pos_of_mem hmem
    obtain ⟨only, honly⟩ := List.length_eq_one_iff.1
      (show (w.state.addingOn processor.id).length = 1 by omega)
    rw [honly, List.mem_singleton] at hmem
    exact ⟨List.length_eq_zero_iff.1 (by omega), hmem ▸ honly⟩

theorem retires_of_refused (last : w.LastOn operation processor) (reason : String) :
    (w.state.handle (.resume operation (.settled (.error reason)))).Retires w.state processor := by
  obtain ⟨hregistered, hcount⟩ := (lastOn_iff h noted).1 last
  obtain ⟨bucket, hbucket, hdetached⟩ :=
    bucket_of_registered h (built_of_noted h noted rfl) hregistered
  have hretires := State.retires_release
    (s := { w.state with continuations := w.state.continuations.erase operation })
    hbucket hdetached hcount
  rw [turn_of_refused noted]
  refine ⟨?_, hretires.bucket, hretires.others, hretires.index⟩
  rw [Turn.effects_andThen, callsOf_append, hretires.calls]
  rfl

theorem reports_of_refused (spared : ¬w.LastOn operation processor) (reason : String) :
    (w.state.handle (.resume operation (.settled (.error reason)))).Reports w.state
      [(reply, .error (.dispatch reason))] := by
  rw [lastOn_iff h noted] at spared
  have hreports := State.reports_release
    (s := { w.state with continuations := w.state.continuations.erase operation }) spared
  rw [turn_of_refused noted]
  refine ⟨?_, ?_, hreports.buckets, hreports.index⟩
  · rw [Turn.effects_andThen, callsOf_append, hreports.calls]
    rfl
  · rw [Turn.effects_andThen, settledOf_append, hreports.settled]
    rfl

theorem gone_of_refused {subscription : JobSubscription}
    (held : (operation, .add processor subscription) ∈ w.outstanding) (reason : String) :
    (w.finish operation (.add processor subscription) (.error reason)).state.standing subscriber =
      .gone := by
  have hstep : Step w (w.finish operation (.add processor subscription) (.error reason)) :=
    .finish _ _ held _
  obtain ⟨moment, hposted⟩ := posted_of_step (consistent_of_reachable h) hstep
  have hended : moment.event.ended? = some operation := by
    rw [← hposted.eq_of_history rfl]
    rfl
  refine (hposted.addition_ended h hstep (mem_additions_of_noted noted) hended).resolve_left ?_
  intro hactive
  obtain ⟨entry, hentry⟩ := Option.isSome_iff_exists.1
    ((standing_spec (h.next hstep) subscriber).2.2.1.2 hactive)
  -- the index is as before, when the key was still being added
  have hindex : (w.finish operation (.add processor subscription) (.error reason)).state.index =
      w.state.index := by
    by_cases hlast : w.LastOn operation processor
    · exact (retires_of_refused h noted hlast reason).index
    · exact (reports_of_refused h noted hlast reason).index
  rw [hindex] at hentry
  have hadding := standing_of_noted h noted
  rw [standing_of_indexed h hentry] at hadding
  cases hadding

theorem additionFails_of_noted {subscription : JobSubscription}
    (held : (operation, .add processor subscription) ∈ w.outstanding) (reason : String) :
    w.AdditionFails operation processor subscription reason subscriber reply := by
  have hfinished : Reachable creditCapacity
      (w.finish operation (.add processor subscription) (.error reason)) :=
    h.next (.finish _ _ held _)
  refine ⟨?_, ?_, ?_, fun spared => reports_of_refused h noted spared reason⟩
  · rw [turn_of_refused noted, Turn.effects_andThen, settledOf_append, State.settledOf_release]
    rfl
  · intro v steps
    have hgone := gone_of_gone hfinished steps (gone_of_refused h noted held reason)
    exact inactive_of_gone (reachable_of_steps hfinished steps) hgone
  · intro last
    have hretires := retires_of_refused h noted last reason
    refine ⟨hretires, fun v steps => ?_⟩
    have hasked : processor ∈
        (w.finish operation (.add processor subscription) (.error reason)).discarded
          processor.id := by
      refine mem_discarded.2 ⟨⟨⟨w.state.nextOperation⟩, ?_⟩, rfl⟩
      rw [finish, calls_happen]
      refine List.mem_append_right _ ?_
      exact hretires.calls ▸ List.mem_singleton_self _
    have hmem := (discarded_of_steps steps processor.id).subset hasked
    have hbuilt : processor ∈ v.built := by
      refine (built_of_steps steps).subset ?_
      rw [finish, built_happen]
      exact List.mem_append_left _ (built_of_noted h noted rfl)
    rcases registered_or_discarded (reachable_of_steps hfinished steps) hbuilt with
      ⟨-, hnone⟩ | ⟨-, honce⟩
    · rw [hnone] at hmem
      cases hmem
    · exact honce

end

/-- A subscription whose partition is not registered is told so, and nothing changes, not even the
next key. A build that fails is told to everyone who waits for the unit, and leaves nothing behind
but the rest of the state as it was, so that the next subscription asks for the unit at once. An
addition that fails is told to its own future, its key is never active, and a processor that was
registered for it alone is retired, once; else the buckets stay as they are. -/
theorem failed_subscriptions_undone (h : Reachable creditCapacity w) :
    (∀ subscription reply, w.state.buckets.get? subscription.partition = none →
      w.state.handle (.subscribe subscription reply) =
        w.state.settle reply (.error (.partitionNotFound subscription.partition))) ∧
    (∀ operation unit, (operation, .build unit) ∈ w.outstanding →
      ∀ reason, ∃ queue, w.BuildFails operation unit reason queue) ∧
    ∀ operation processor subscription,
      (operation, .add processor subscription) ∈ w.outstanding →
      ∃ key connection reply closed, w.state.continuations.get? operation =
          some (.subscribe key connection processor reply closed) ∧
        subscription.key = some key ∧
        ∀ reason, w.AdditionFails operation processor subscription reason key reply := by
  refine ⟨fun subscription reply absent => ?_, fun operation unit held reason => ?_, ?_⟩
  · rw [State.handle, State.subscribe, absent]
  · exact buildFails_of_held h held reason
  · intro operation processor subscription held
    obtain ⟨key, connection, reply, closed, hnoted, hkey⟩ := noted_of_adding h held
    exact ⟨key, connection, reply, closed, hnoted, hkey, fun reason =>
      additionFails_of_noted h hnoted held reason⟩

open Sample in
theorem failed_subscriptions_undone_sample :
    (initial 2).state.handle (.subscribe subscription ⟨0⟩) =
        (initial 2).state.settle ⟨0⟩ (.error (.partitionNotFound ⟨1⟩)) ∧
      (∃ queue, building.BuildFails ⟨0⟩ Sample.unit Completion.discardedReason queue) ∧
      callsOf (rested.state.handle (.subscribe subscription ⟨3⟩)).effects =
        [(⟨5⟩, .build Sample.unit)] ∧
      (adding.state.handle (.resume ⟨1⟩ (.settled (.error "full")))).Retires adding.state
        Sample.processor ∧
      (shared.state.handle (.resume ⟨1⟩ (.settled (.error "full")))).Reports shared.state
        [(⟨0⟩, .error (.dispatch "full"))] := by
  have hbuilding := (failed_subscriptions_undone reachable_building).2.1 ⟨0⟩ Sample.unit
    (by decide +kernel) Completion.discardedReason
  obtain ⟨queue, hrested⟩ := (failed_subscriptions_undone reachable_restarted).2.1 ⟨4⟩ Sample.unit
    (by decide +kernel) "no such job"
  obtain ⟨_, _, _, _, -, -, hfails⟩ :=
    (failed_subscriptions_undone reachable_adding).2.2 ⟨1⟩ Sample.processor
      { subscription with key := some ⟨0⟩ } (by decide +kernel)
  obtain ⟨_, _, future, _, hshared, -, hshares⟩ :=
    (failed_subscriptions_undone reachable_shared).2.2 ⟨1⟩ Sample.processor
      { subscription with key := some ⟨0⟩ } (by decide +kernel)
  have hreply : future = ⟨0⟩ := by
    have hsame : shared.state.continuations.get? ⟨1⟩ =
        some (.subscribe ⟨0⟩ ⟨5⟩ Sample.processor ⟨0⟩ false) := by decide +kernel
    rw [hsame] at hshared
    cases hshared
    rfl
  refine ⟨(failed_subscriptions_undone Reachable.start).1 subscription ⟨0⟩ rfl, hbuilding, ?_, ?_,
    ?_⟩
  · have hsince : (restarted.finish ⟨4⟩ (.build Sample.unit) (.error "no such job")).since rested =
        [] := since_self rested
    exact hrested.anew rested .refl (by rw [hsince]; nofun)
      ⟨Sample.unit.partition, Sample.unit.service, []⟩ subscription ⟨3⟩ (by decide +kernel) rfl
  · exact ((hfails "full").retired ⟨by decide +kernel, by decide +kernel, by decide +kernel⟩).1
  · rw [← hreply]
    exact (hshares "full").spared fun last => absurd last.2.2 (by decide +kernel)

end World

end JobBroker.Manager
