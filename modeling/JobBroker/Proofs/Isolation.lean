import JobBroker.Proofs.Confined
import JobBroker.Proofs.CreditOrder

/-!
# Units that fail for themselves

When a call has ended, whatever it has ended with, the manager changes what belongs to the unit of
that call, and nothing of another one. A call to a processor that is no longer registered changes
even less: it costs no processor its place, be it one that was built for the same unit since.
-/

namespace JobBroker.Manager

open Holding Table

/-! ### Calls to processors that are gone -/

/-- A turn that leaves every processor in its place, the index as it is, and the references of all
processors but one. -/
structure Turn.Spares (id : ProcessorId) (s : State) (turn : Turn) : Prop where
  buckets : turn.state.buckets = s.buckets
  index : turn.state.index = s.index
  references : ∀ other, other ≠ id →
    turn.state.references.get? other = s.references.get? other
  calls : ∀ operation processor, (operation, .teardown processor) ∉ callsOf turn.effects

namespace Turn.Spares

open State

variable {id : ProcessorId} {s : State} {turn : Turn}

theorem rest (id : ProcessorId) (s : State) : s.rest.Spares id s :=
  ⟨rfl, rfl, fun _ _ => rfl, nofun⟩

theorem settle (id : ProcessorId) (s : State) (reply : Ticket) (result : Result) :
    (s.settle reply result).Spares id s := ⟨rfl, rfl, fun _ _ => rfl, nofun⟩

theorem settle? (id : ProcessorId) (s : State) (reply : Option Ticket) (result : Result) :
    (s.settle? reply result).Spares id s := by
  cases reply with
  | none => exact rest id s
  | some reply => exact settle id s reply result

theorem settleAll (id : ProcessorId) (s : State) (replies : List Ticket) (result : Result) :
    (s.settleAll replies result).Spares id s := by
  refine ⟨rfl, rfl, fun _ _ => rfl, fun operation processor asked => ?_⟩
  rw [State.settleAll, callsOf_settle] at asked
  cases asked

theorem issue (id : ProcessorId) (s : State) (continuation : Continuation) {call : Call}
    (other : ∀ processor, call ≠ .teardown processor) :
    (s.issue continuation call).Spares id s := by
  refine ⟨rfl, rfl, fun _ _ => rfl, fun operation processor asked => ?_⟩
  have hsame := List.mem_singleton.1 asked
  exact other processor (congrArg Prod.snd hsame).symm

theorem andThen {next : State → Turn} (h : turn.Spares id s)
    (h' : (next turn.state).Spares id turn.state) : (turn.andThen next).Spares id s where
  buckets := h'.buckets.trans h.buckets
  index := h'.index.trans h.index
  references other ne := (h'.references other ne).trans (h.references other ne)
  calls operation processor asked := by
    rw [effects_andThen, callsOf_append, List.mem_append] at asked
    exact asked.elim (h.calls operation processor) (h'.calls operation processor)

theorem since {s' : State} (h : turn.Spares id s') (buckets : s'.buckets = s.buckets)
    (index : s'.index = s.index)
    (references : ∀ other, other ≠ id → s'.references.get? other = s.references.get? other) :
    turn.Spares id s where
  buckets := h.buckets.trans buckets
  index := h.index.trans index
  references other ne := (h.references other ne).trans (references other ne)
  calls := h.calls

end Turn.Spares

namespace State

open Turn

variable {s : State} {id : ProcessorId} {processor : Processor}

theorem retire_of_gone (gone : s.isRegistered processor = false) (reply : Option Ticket) :
    s.retire processor reply = s.settle? reply (.ok .done) := by
  unfold isRegistered at gone
  unfold retire
  cases hbucket : s.buckets.get? processor.partition with
  | none => rfl
  | some bucket =>
    rw [hbucket] at gone
    have hnot : bucket.contains processor.id = false := gone
    rw [Option.bind_some, Bucket.detach?, hnot]
    rfl

theorem spares_retire (gone : s.isRegistered processor = false) (reply : Option Ticket) :
    (s.retire processor reply).Spares id s := by
  rw [retire_of_gone gone]
  exact .settle? id s reply _

/-- A turn may as well begin before references of the processor are dropped. -/
theorem spares_dropReference {turn : Turn} (h : turn.Spares id (s.dropReference id)) :
    turn.Spares id s := by
  have hframe := dropReference_eq s id
  have hbuckets := congrArg State.buckets hframe
  have hindex := congrArg State.index hframe
  exact h.since hbuckets hindex fun other ne => references_dropReference ne

theorem spares_release (gone : s.isRegistered processor = false) :
    (s.release processor).Spares processor.id s := by
  have hgone : (s.dropReference processor.id).isRegistered processor = false := by
    rw [dropReference_eq]
    exact gone
  unfold release
  dsimp only
  split
  next => exact spares_dropReference (spares_retire hgone none)
  next => exact spares_dropReference (.rest _ _)

theorem spares_startBuild (s : State) (key : UnitKey) : (s.startBuild key).Spares id s := by
  unfold startBuild
  split
  next =>
    exact (Spares.settleAll id { s with pending := s.pending.erase key } _ _).since rfl rfl
      fun _ _ => rfl
  next => exact .issue id s _ nofun

theorem spares_startDeferred (s : State) (key : UnitKey) : (s.startDeferred key).Spares id s := by
  unfold startDeferred
  split
  next => exact .rest id s
  next =>
    exact Spares.since (.rest id { s with pending := s.pending.erase key }) rfl rfl
      fun _ _ => rfl
  next => exact spares_startBuild s key

theorem spares_onAdded (gone : s.isRegistered processor = false) (key : SubscriberKey)
    (connection : ConnectionId) (reply : Ticket) (closed : Bool) (result : Except String Unit) :
    (s.onAdded key connection processor reply closed result).Spares processor.id s := by
  have hgiveUp : ∀ result, ((s.release processor).andThen fun s =>
      s.settle reply result).Spares processor.id s := by
    intro result
    exact Spares.andThen (spares_release gone) (.settle processor.id _ reply result)
  unfold onAdded
  split
  next => exact hgiveUp _
  next =>
    split
    next =>
      refine Spares.andThen (.settle processor.id s reply _) (spares_dropReference ?_)
      exact .issue processor.id _ _ nofun
    next =>
      rw [gone]
      exact hgiveUp _

theorem spares_onRemoved (gone : s.isRegistered processor = false) (reply : Ticket)
    (result : Except String Bool) : (s.onRemoved processor reply result).Spares id s := by
  unfold onRemoved
  split
  next => exact .settle id s reply _
  next =>
    split
    next => exact spares_retire gone (some reply)
    next => exact .settle id s reply _

theorem spares_onSwept (gone : s.isRegistered processor = false) (result : Except String Bool) :
    (s.onSwept processor result).Spares id s := by
  unfold onSwept
  split
  next => exact .rest id s
  next =>
    split
    next => exact spares_retire gone none
    next => exact .rest id s

theorem spares_onTornDown (s : State) (processor : Processor) (reply : Option Ticket)
    (result : Except String Unit) : (s.onTornDown processor reply result).Spares id s := by
  unfold onTornDown
  refine .andThen (.settle? id s reply _) ?_
  rw [state_settle?]
  split
  next => exact spares_startDeferred s processor.key
  next =>
    split
    next => exact (Spares.rest id _).since rfl rfl fun _ _ => rfl
    next => exact (spares_startDeferred _ processor.key).since rfl rfl fun _ _ => rfl

theorem spares_resume {operation : OperationId} {continuation : Continuation}
    (noted : s.continuations.get? operation = some continuation)
    (called : continuation.processor? = some processor) (gone : s.isRegistered processor = false)
    (outcome : Outcome) : (s.resume operation outcome).Spares processor.id s := by
  have hgone : { s with continuations := s.continuations.erase operation }.isRegistered
      processor = false := gone
  have hbegin : ∀ {turn : Turn}, turn.Spares processor.id
      { s with continuations := s.continuations.erase operation } → turn.Spares processor.id s :=
    fun hturn => hturn.since rfl rfl fun _ _ => rfl
  unfold resume
  rw [noted]
  refine hbegin ?_
  dsimp only
  split
  next => cases called
  next =>
    cases called
    exact spares_onAdded hgone _ _ _ _ _
  next =>
    cases called
    exact spares_onRemoved hgone _ _
  next =>
    cases called
    exact spares_onTornDown _ _ _ _
  next =>
    cases called
    exact spares_onSwept hgone _
  next => exact .rest _ _

end State

/-! ### Ended calls in a run -/

theorem Holding.built_of_proper {k : Knowledge} {count : Nat} {continuation : Continuation}
    (proper : (ongoing continuation).Proper k count) {processor : Processor}
    (called : continuation.processor? = some processor) : k.built processor := by
  cases continuation with
  | build unit => cases called
  | subscribe key connection other reply closed =>
    cases called
    exact proper.2.1
  | unsubscribe | teardown | sweep =>
    cases called
    exact proper.1

theorem State.count_reply_of_holds {s : State} {key : UnitKey} {reply : Ticket}
    (holds : s.Holds key reply) : 0 < (s.ledger 0).count reply? reply := by
  rcases holds with ⟨queue, w, hqueue, hw, hreply⟩ | ⟨operation, continuation, hget, -, hreply⟩
  · have hmem : waiting key w ∈ (s.ledger 0).holdings :=
      waiting_mem_ledger.2 (.inl ⟨queue, hqueue, hw⟩)
    exact Ledger.count_pos hmem (congrArg some hreply)
  · exact Ledger.count_pos (ongoing_mem_ledger.2 (.inl ⟨operation, hget⟩)) hreply

namespace World

section

variable {w : World} {creditCapacity : Nat}

/-- Two worlds agree in everything that belongs to a unit. -/
structure Untouched (w w' : World) (key : UnitKey) : Prop where
  processor : w'.state.processor? key = w.state.processor? key
  index : ∀ subscriber entry, entry.processor.key = key →
    (w'.state.index.get? subscriber = some entry ↔ w.state.index.get? subscriber = some entry)
  references : ∀ processor ∈ w.built, processor.key = key →
    w'.state.references.get? processor.id = w.state.references.get? processor.id
  pending : w'.state.pending.get? key = w.state.pending.get? key
  retiring : w'.state.retiring.get? key = w.state.retiring.get? key
  continuations : ∀ operation continuation, continuation.unitKey = key →
    (w'.state.continuations.get? operation = some continuation ↔
      w.state.continuations.get? operation = some continuation)
  replies : ∀ reply, w'.state.Holds key reply ↔ w.state.Holds key reply
  unsettled : w.requests.Nodup → ∀ reply, w.state.Holds key reply → reply ∉ w'.settlements

/-- Nothing was taken out of its place for the sake of a processor. -/
structure Spared (w w' : World) (processor : Processor) : Prop where
  buckets : w'.state.buckets = w.state.buckets
  index : w'.state.index = w.state.index
  references : ∀ id, id ≠ processor.id →
    w'.state.references.get? id = w.state.references.get? id
  calls : ∀ operation other, (operation, .teardown other) ∈ w'.calls →
    (operation, .teardown other) ∈ w.calls

/-- A processor of another unit is not the one whose references may change. -/
theorem id_ne_touched (h : Reachable creditCapacity w) {operation : OperationId}
    {continuation : Continuation}
    (noted : w.state.continuations.get? operation = some continuation) {processor : Processor}
    (built : processor ∈ w.built) (other : processor.key ≠ continuation.unitKey) :
    processor.id ≠ w.state.touched continuation := by
  have hconsistent := consistent_of_reachable h
  unfold State.touched
  cases hcalled : continuation.processor? with
  | none =>
    intro heq
    have hlt := hconsistent.built processor built
    rw [heq] at hlt
    exact Nat.lt_irrefl _ hlt
  | some owner =>
    intro hid
    have hmem : ongoing continuation ∈ (w.state.ledger 0).holdings :=
      State.ongoing_mem_ledger.2 (.inl ⟨operation, noted⟩)
    have howner : owner ∈ w.built :=
      Holding.built_of_proper (hconsistent.sound.proper _ hmem) hcalled
    rw [hconsistent.distinct processor owner built howner hid] at other
    exact other (Continuation.unitKey_of_processor hcalled).symm

theorem untouched_finish (h : Reachable creditCapacity w) {operation : OperationId} {call : Call}
    (held : (operation, call) ∈ w.outstanding) (result : Except String call.Success)
    {key : UnitKey} (other : key ≠ call.unitKey) :
    w.Untouched (w.finish operation call result) key := by
  have hconsistent := consistent_of_reachable h
  obtain ⟨continuation, hnoted, hfits⟩ := hconsistent.awaits _ held
  rw [← hfits.unitKey] at other
  have hapart : w.state.Apart continuation.unitKey (w.state.touched continuation)
      (w.finish operation call result).state :=
    (State.confined_resume (k := w.knowledge) hconsistent.orderly hconsistent.distinct
      hconsistent.sound hnoted (call.outcome result)).apart
  have hreached : Reachable creditCapacity (w.finish operation call result) :=
    h.next (.finish operation call held result)
  refine ⟨hapart.processor? other, ?_, ?_, hapart.pending key other, hapart.retiring key other, ?_,
    hapart.holds other, ?_⟩
  · rintro subscriber entry rfl
    exact hapart.index subscriber entry other
  · rintro processor built rfl
    exact hapart.references _ (id_ne_touched h hnoted built other)
  · rintro noted continuation rfl
    exact hapart.continuations noted continuation other
  · intro own reply holds settled
    have hrequests : (w.finish operation call result).requests = w.requests := by
      rw [finish, requests_happen]
      exact List.append_nil _
    have hle := count_settlements_le hreached (hrequests ▸ own) reply
    have hheld := State.count_reply_of_holds ((hapart.holds other reply).2 holds)
    have hsettled := List.count_pos_iff.2 settled
    omega

theorem spared_finish (h : Reachable creditCapacity w) {operation : OperationId} {call : Call}
    (held : (operation, call) ∈ w.outstanding) (result : Except String call.Success)
    {processor : Processor} (called : call.processor? = some processor)
    (gone : w.state.isRegistered processor = false) :
    w.Spared (w.finish operation call result) processor := by
  obtain ⟨continuation, hnoted, hfits⟩ := (consistent_of_reachable h).awaits _ held
  rw [← hfits.processor?] at called
  have hspares := State.spares_resume hnoted called gone (call.outcome result)
  refine ⟨hspares.buckets, hspares.index, hspares.references, fun asked other made => ?_⟩
  rw [finish, calls_happen, List.mem_append] at made
  exact made.resolve_right (hspares.calls asked other)

/-- A call that ends, however it ends, concerns its own unit alone: of every other one the
processor, its index entries and references, what waits, the teardowns, the calls under way and the
futures stay as they are, and so do the credits. When the call was one to a processor that is no
longer registered, no processor loses its place or is torn down, and the index stays as it is with
the references of all other processors, also of one that serves the same unit now. -/
theorem endings_isolated (h : Reachable creditCapacity w) {operation : OperationId} {call : Call}
    (held : (operation, call) ∈ w.outstanding) (result : Except String call.Success) :
    (∀ key, key ≠ call.unitKey → w.Untouched (w.finish operation call result) key) ∧
      (w.finish operation call result).state.credits = w.state.credits ∧
      ∀ processor, call.processor? = some processor → w.state.isRegistered processor = false →
        w.Spared (w.finish operation call result) processor :=
  ⟨fun _ => untouched_finish h held result, State.credits_handle _ _,
    fun _ => spared_finish h held result⟩

end

end World

namespace Sample

open World

def otherSubscription : JobSubscription := { subscription with jobType := ⟨[107]⟩ }

/-- The first processor that the unit had is gone, with an addition to it still under way. The unit
has a second one; a unit for other jobs is being built. -/
def succeeded : World :=
  ((((vacated.tell (.addPartition unit.partition unit.service)).tell
    (.subscribe otherSubscription ⟨1⟩)).tell
      (.subscribe subscription ⟨2⟩)).finish ⟨2⟩ (.teardown processor) (.ok ())).finish ⟨4⟩
        (.build unit) (.ok ⟨8⟩)

theorem reachable_succeeded : Reachable 2 succeeded := by
  have hvacated : Reachable 2 vacated := reachable_adding.next (.tell _ rfl)
  have hwaiting := ((hvacated.next (.tell (.addPartition unit.partition unit.service) rfl)).next
    (.tell (.subscribe otherSubscription ⟨1⟩) rfl)).next
      (.tell (.subscribe subscription ⟨2⟩) rfl)
  have hstopped := hwaiting.next (.finish ⟨2⟩ (.teardown processor) (by decide +kernel) (.ok ()))
  exact hstopped.next (.finish ⟨4⟩ (.build unit) (by decide +kernel) (.ok ⟨8⟩))

/-- The addition to the first processor fails. -/
def undisturbed : World :=
  succeeded.finish ⟨1⟩ (.add processor { subscription with key := some ⟨0⟩ }) (.error "gone")

end Sample

namespace World

open Sample in
theorem endings_isolated_sample :
    succeeded.state.isRegistered processor = false ∧
      undisturbed.state.processor? unit.key = some ⟨⟨1⟩, unit, ⟨8⟩⟩ ∧
      undisturbed.state.references.get? ⟨1⟩ = some 1 ∧
      undisturbed.state.Holds otherSubscription.unitKey ⟨1⟩ ∧ ⟨1⟩ ∉ undisturbed.settlements ∧
      undisturbed.state.credits = succeeded.state.credits := by
  have hheld : (⟨1⟩, .add processor { subscription with key := some ⟨0⟩ }) ∈
      succeeded.outstanding := by decide +kernel
  have hgone : succeeded.state.isRegistered processor = false := by decide +kernel
  obtain ⟨huntouched, hcredits, hspared⟩ :=
    endings_isolated reachable_succeeded hheld (.error "gone")
  have hother : succeeded.Untouched undisturbed otherSubscription.unitKey :=
    huntouched _ (by decide)
  have hsame : succeeded.Spared undisturbed processor := hspared processor rfl hgone
  have hholds : succeeded.state.Holds otherSubscription.unitKey ⟨1⟩ :=
    .inl ⟨[⟨⟨1⟩, { otherSubscription with key := some ⟨1⟩ }, ⟨1⟩⟩], _, by decide +kernel,
      List.mem_singleton_self _, rfl⟩
  refine ⟨hgone, ?_, ?_, (hother.replies ⟨1⟩).2 hholds,
    hother.unsettled (by decide +kernel) ⟨1⟩ hholds, hcredits⟩
  · rw [State.processor?, hsame.buckets]
    decide +kernel
  · rw [hsame.references ⟨1⟩ (by decide)]
    decide +kernel

end World

end JobBroker.Manager
