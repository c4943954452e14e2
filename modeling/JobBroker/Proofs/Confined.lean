import JobBroker.Proofs.Clearings

/-!
# Turns of one unit

All units of a manager share its tables. What belongs to a unit is found in them under its key,
under the ids of its processors, and by the processor that an entry leads to. A turn is confined to
a unit when it changes nothing but what belongs to that one, and every turn that begins with the end
of a call is confined to the unit of the call.
-/

namespace JobBroker

/-- A processor that leaves its bucket is missed only among those for its job type. -/
theorem Bucket.filter_detach {bucket rest : Bucket} {id : ProcessorId}
    (detached : bucket.detach? id = some rest) {jobType : JobType}
    (others : ∀ member ∈ bucket.processors, member.id = id → member.jobType ≠ jobType) :
    rest.processors.filter (fun processor => processor.jobType = jobType) =
      bucket.processors.filter fun processor => processor.jobType = jobType := by
  unfold detach? at detached
  split at detached
  next hcontains =>
    obtain ⟨member, hmember, hid⟩ := Bucket.contains_iff.1 hcontains
    obtain ⟨found, front, back, -, hfound, hsplit, herase⟩ :=
      List.exists_of_eraseP (p := fun p => p.id = id) hmember (by simpa using hid)
    have hother : found.jobType ≠ jobType :=
      others found (by rw [hsplit]; simp) (of_decide_eq_true hfound)
    have hrest : rest.processors = front ++ back := by rw [← Option.some.inj detached, ← herase]
    rw [hrest, hsplit, List.filter_append, List.filter_append, List.filter_cons,
      if_neg (by simpa using hother)]
  next => cases detached

namespace Manager

open Holding Table

/-! ### What belongs to a unit -/

def Continuation.unitKey : Continuation → UnitKey
  | .build unit => unit.key
  | .subscribe _ _ processor _ _ => processor.key
  | .unsubscribe processor _ => processor.key
  | .teardown processor _ => processor.key
  | .sweep processor _ => processor.key

def Call.unitKey : Call → UnitKey
  | .build unit => unit.key
  | .add processor _ => processor.key
  | .remove processor _ => processor.key
  | .sweep processor _ => processor.key
  | .teardown processor => processor.key

/-- The processor that is called; a unit that is to be built has none yet. -/
def Call.processor? : Call → Option Processor
  | .build _ => none
  | .add processor _ => some processor
  | .remove processor _ => some processor
  | .sweep processor _ => some processor
  | .teardown processor => some processor

def Continuation.processor? : Continuation → Option Processor
  | .build _ => none
  | .subscribe _ _ processor _ _ => some processor
  | .unsubscribe processor _ => some processor
  | .teardown processor _ => some processor
  | .sweep processor _ => some processor

theorem Continuation.Fits.unitKey {continuation : Continuation} {call : Call}
    (fits : continuation.Fits call) : continuation.unitKey = call.unitKey := by
  cases continuation <;> cases call <;> simp_all [Fits, Continuation.unitKey, Call.unitKey]

theorem Continuation.Fits.processor? {continuation : Continuation} {call : Call}
    (fits : continuation.Fits call) : continuation.processor? = call.processor? := by
  cases continuation <;> cases call <;> simp_all [Fits, Continuation.processor?, Call.processor?]

theorem Continuation.unitKey_of_processor {continuation : Continuation} {processor : Processor}
    (called : continuation.processor? = some processor) :
    continuation.unitKey = processor.key := by
  cases continuation <;> cases called <;> rfl

namespace State

/-- A future is held for a unit, by a subscription that waits for it or by a call that is under way
for it. -/
def Holds (s : State) (key : UnitKey) (reply : Ticket) : Prop :=
  (∃ queue waiting, s.pending.get? key = some queue ∧ waiting ∈ queue ∧ waiting.reply = reply) ∨
    ∃ operation continuation, s.continuations.get? operation = some continuation ∧
      continuation.unitKey = key ∧ reply? (.ongoing continuation) = some reply

/-- The processor whose references the end of a call may change: the one that was called, or the
one that a build delivers. -/
def touched (s : State) (continuation : Continuation) : ProcessorId :=
  (continuation.processor?.map Processor.id).getD ⟨s.nextProcessor⟩

/-- A state differs from another one at most in what belongs to one unit, and in the references of
one processor. -/
structure Apart (own : UnitKey) (id : ProcessorId) (s s' : State) : Prop where
  serving : ∀ key, key ≠ own → s'.serving key = s.serving key
  index : ∀ key entry, entry.processor.key ≠ own →
    (s'.index.get? key = some entry ↔ s.index.get? key = some entry)
  references : ∀ other, other ≠ id → s'.references.get? other = s.references.get? other
  pending : ∀ key, key ≠ own → s'.pending.get? key = s.pending.get? key
  retiring : ∀ key, key ≠ own → s'.retiring.get? key = s.retiring.get? key
  continuations : ∀ operation continuation, continuation.unitKey ≠ own →
    (s'.continuations.get? operation = some continuation ↔
      s.continuations.get? operation = some continuation)

namespace Apart

variable {own : UnitKey} {id : ProcessorId} {s s' s'' : State}

theorem refl (s : State) : s.Apart own id s :=
  ⟨fun _ _ => rfl, fun _ _ _ => .rfl, fun _ _ => rfl, fun _ _ => rfl, fun _ _ => rfl,
    fun _ _ _ => .rfl⟩

theorem trans (h : s.Apart own id s') (h' : s'.Apart own id s'') : s.Apart own id s'' where
  serving key other := (h'.serving key other).trans (h.serving key other)
  index key entry other := (h'.index key entry other).trans (h.index key entry other)
  references id other := (h'.references id other).trans (h.references id other)
  pending key other := (h'.pending key other).trans (h.pending key other)
  retiring key other := (h'.retiring key other).trans (h.retiring key other)
  continuations operation continuation other :=
    (h'.continuations operation continuation other).trans
      (h.continuations operation continuation other)

theorem processor? (h : s.Apart own id s') {key : UnitKey} (other : key ≠ own) :
    s'.processor? key = s.processor? key := by
  have hhead (s : State) : s.processor? key = (s.serving key).head? := by
    unfold State.processor? State.serving Bucket.byJobType?
    cases s.buckets.get? key.partition with
    | none => rfl
    | some bucket => rw [Option.bind_some, List.head?_filter]
  rw [hhead, hhead, h.serving key other]

theorem holds (h : s.Apart own id s') {key : UnitKey} (other : key ≠ own) (reply : Ticket) :
    s'.Holds key reply ↔ s.Holds key reply := by
  refine or_congr (by rw [h.pending key other]) ?_
  refine exists₂_congr fun operation continuation => ?_
  constructor
  · rintro ⟨hget, rfl, hreply⟩
    exact ⟨(h.continuations operation continuation other).1 hget, rfl, hreply⟩
  · rintro ⟨hget, rfl, hreply⟩
    exact ⟨(h.continuations operation continuation other).2 hget, rfl, hreply⟩

end Apart

/-! ### Single changes -/

section

variable {own : UnitKey} {id : ProcessorId} (s : State)

theorem apart_erase_pending (own : UnitKey) :
    s.Apart own id { s with pending := s.pending.erase own } :=
  { Apart.refl s with
    pending := fun key other => by rw [get?_erase, if_neg other] }

theorem apart_insert_retiring (own : UnitKey) (count : Nat) :
    s.Apart own id { s with retiring := s.retiring.insert own count } :=
  { Apart.refl s with
    retiring := fun key other => by rw [get?_insert, if_neg other] }

theorem apart_erase_retiring (own : UnitKey) :
    s.Apart own id { s with retiring := s.retiring.erase own } :=
  { Apart.refl s with
    retiring := fun key other => by rw [get?_erase, if_neg other] }

theorem apart_acquire (id : ProcessorId) : s.Apart own id (s.acquire id) := by
  have hsame : s.Apart own id s := .refl s
  exact { hsame with references := fun other ne => by rw [acquire, get?_insert, if_neg ne] }

theorem apart_dropReference (id : ProcessorId) : s.Apart own id (s.dropReference id) := by
  have hsame : s.Apart own id s := .refl s
  rw [dropReference_eq]
  exact { hsame with references := fun other ne => references_dropReference ne }

variable {s}

theorem apart_erase_continuation {operation : OperationId} {continuation : Continuation}
    (noted : s.continuations.get? operation = some continuation)
    (belongs : continuation.unitKey = own) :
    s.Apart own id { s with continuations := s.continuations.erase operation } :=
  { Apart.refl s with
    continuations := by
      intro other old ne
      rw [get?_erase]
      split
      next heq =>
        rw [heq, noted]
        refine iff_of_false (Option.some_ne_none old).symm fun hsame => ne ?_
        rw [← Option.some.inj hsame, belongs]
      next => exact .rfl }

theorem apart_insert_index {key : SubscriberKey} {entry : IndexEntry}
    (new : s.index.get? key = none) (belongs : entry.processor.key = own) :
    s.Apart own id { s with index := s.index.insert key entry } :=
  { Apart.refl s with
    index := by
      intro other old ne
      rw [get?_insert]
      split
      next heq =>
        rw [heq, new]
        refine iff_of_false (fun hsame => ne ?_) (Option.some_ne_none old).symm
        rw [← Option.some.inj hsame, belongs]
      next => exact .rfl }

theorem apart_replace_bucket {partition : PartitionId} {bucket new : Bucket}
    (found : s.buckets.get? partition = some bucket)
    (same : ∀ jobType, (⟨partition, jobType⟩ : UnitKey) ≠ own →
      new.processors.filter (fun processor => processor.jobType = jobType) =
        bucket.processors.filter fun processor => processor.jobType = jobType) :
    s.Apart own id { s with buckets := s.buckets.insert partition new } :=
  { Apart.refl s with
    serving := by
      intro key other
      unfold serving
      by_cases heq : key.partition = partition
      · subst heq
        rw [get?_insert_self, found]
        exact same key.jobType other
      · rw [get?_insert, if_neg heq] }

end

/-- Under the id of a processor no other one is registered in its partition. -/
def Names (s : State) (processor : Processor) : Prop :=
  ∀ bucket, s.buckets.get? processor.partition = some bucket →
    ∀ member ∈ bucket.processors, member.id = processor.id → member = processor

theorem names_of_built {k : Knowledge} {s : State} {hand : Multiset Holding}
    (distinct : k.Distinct) (sound : (s.ledger hand).Sound k) {processor : Processor}
    (built : k.built processor) : s.Names processor := by
  intro bucket hbucket member hmember hid
  have hheld : registered processor.partition member ∈ (s.ledger hand).holdings :=
    registered_mem_ledger.2 (.inl ⟨bucket, hbucket, hmember⟩)
  exact distinct member processor (sound.proper _ hheld).2.1 built hid

end State

/-! ### Turns that keep to their unit -/

/-- A turn that changes at most what belongs to one unit, and the references of one processor. -/
structure Turn.Confined (own : UnitKey) (id : ProcessorId) (s : State) (turn : Turn) : Prop where
  fresh : turn.state.Fresh
  apart : s.Apart own id turn.state

namespace Turn.Confined

open State

variable {own : UnitKey} {id : ProcessorId} {s : State} {turn : Turn}

theorem rest (h : s.Fresh) : s.rest.Confined own id s := ⟨h, .refl s⟩

theorem settle (h : s.Fresh) (reply : Ticket) (result : Result) :
    (s.settle reply result).Confined own id s := ⟨h, .refl s⟩

theorem settle? (h : s.Fresh) (reply : Option Ticket) (result : Result) :
    (s.settle? reply result).Confined own id s := by
  cases reply with
  | none => exact rest h
  | some reply => exact settle h reply result

theorem settleAll (h : s.Fresh) (replies : List Ticket) (result : Result) :
    (s.settleAll replies result).Confined own id s := ⟨h, .refl s⟩

theorem issue (h : s.Fresh) {continuation : Continuation} (belongs : continuation.unitKey = own)
    (call : Call) : (s.issue continuation call).Confined own id s := by
  have hsame : s.Apart own id s := .refl s
  refine ⟨(Answers.issue h continuation call []).fresh, { hsame with continuations := ?_ }⟩
  intro operation old ne
  simp only [State.issue, get?_insert]
  split
  next heq =>
    -- the number is new, and what is noted under it belongs to the unit
    refine iff_of_false (fun hsame => ne ?_) fun hold => ?_
    · rw [← Option.some.inj hsame, belongs]
    · rw [heq] at hold
      exact absurd (h _ old hold) (Nat.lt_irrefl _)
  next => exact .rfl

theorem andThen {next : State → Turn} (h : turn.Confined own id s)
    (h' : (next turn.state).Confined own id turn.state) : (turn.andThen next).Confined own id s :=
  ⟨h'.fresh, h.apart.trans h'.apart⟩

/-- A turn may as well begin before a change that keeps to the unit. -/
theorem since {s' : State} (h : turn.Confined own id s') (apart : s.Apart own id s') :
    turn.Confined own id s := ⟨h.fresh, apart.trans h.apart⟩

theorem forEach {α : Type} {act : State → α → Turn}
    (each : ∀ s, s.Fresh → ∀ item, (act s item).Confined own id s) (h : s.Fresh)
    (items : List α) : (s.forEach items act).Confined own id s := by
  induction items generalizing s with
  | nil => exact rest h
  | cons item items ih =>
    have hfirst := each s h item
    exact hfirst.andThen (ih hfirst.fresh)

end Turn.Confined

namespace State

open Turn

variable {s : State} {id : ProcessorId} {processor : Processor}

theorem confined_failPending (h : s.Fresh) (key : UnitKey) (error : SubscriptionError) :
    (s.failPending key error).Confined key id s :=
  (Confined.settleAll (s := { s with pending := s.pending.erase key }) h _ _).since
    (s.apart_erase_pending key)

theorem confined_startBuild (h : s.Fresh) {key : UnitKey}
    (placed : ∀ bucket, s.buckets.get? key.partition = some bucket →
      bucket.partition.id = key.partition) : (s.startBuild key).Confined key id s := by
  unfold startBuild
  split
  next => exact confined_failPending h key _
  next bucket hbucket =>
    refine .issue h ?_ _
    exact congrArg (fun partition => UnitKey.mk partition key.jobType) (placed bucket hbucket)

theorem confined_startDeferred (h : s.Fresh) {key : UnitKey}
    (placed : ∀ bucket, s.buckets.get? key.partition = some bucket →
      bucket.partition.id = key.partition) : (s.startDeferred key).Confined key id s := by
  unfold startDeferred
  split
  next => exact .rest h
  next =>
    exact (Confined.rest (s := { s with pending := s.pending.erase key }) h).since
      (s.apart_erase_pending key)
  next => exact confined_startBuild h placed

theorem confined_teardown (h : s.Fresh) (processor : Processor) (reply : Option Ticket) :
    (s.teardown processor reply).Confined processor.key id s := by
  let count := (s.retiring.get? processor.key).getD 0
  have hfresh : { s with retiring := s.retiring.insert processor.key (count + 1) }.Fresh := h
  refine Confined.since (.issue hfresh ?_ _) (s.apart_insert_retiring processor.key (count + 1))
  rfl

theorem confined_retire (h : s.Fresh) (names : s.Names processor) (reply : Option Ticket) :
    (s.retire processor reply).Confined processor.key processor.id s := by
  unfold retire
  split
  next rest hdetached =>
    obtain ⟨bucket, hbucket, hdetach⟩ := Option.bind_eq_some_iff.1 hdetached
    have hapart : s.Apart processor.key processor.id
        { s with buckets := s.buckets.insert processor.partition rest } := by
      refine apart_replace_bucket hbucket fun jobType other => ?_
      refine Bucket.filter_detach hdetach fun member hmember hid heq => other ?_
      rw [← heq, names bucket hbucket member hmember hid]
      rfl
    have hfresh : { s with buckets := s.buckets.insert processor.partition rest }.Fresh := h
    exact (confined_teardown hfresh processor reply).since hapart
  next => exact .settle? h reply _

theorem confined_release (h : s.Fresh) (names : s.Names processor) :
    (s.release processor).Confined processor.key processor.id s := by
  have hdrop := fresh_dropReference h processor.id
  have hnames : (s.dropReference processor.id).Names processor := by
    rw [dropReference_eq]
    exact names
  unfold release
  dsimp only
  split
  next => exact (confined_retire hdrop hnames none).since (s.apart_dropReference processor.id)
  next => exact (Confined.rest hdrop).since (s.apart_dropReference processor.id)

theorem confined_forward (h : s.Fresh) (processor : Processor) (w : Waiting) :
    (s.forward processor w).Confined processor.key processor.id s := by
  have hacquire : (s.acquire processor.id).Fresh := h
  refine Confined.since (.issue hacquire ?_ _) (s.apart_acquire processor.id)
  rfl

/-! ### Ended calls -/

theorem apart_unqueue (s : State) (key : UnitKey) : s.Apart key id (s.unqueue key) :=
  have herase : s.Apart key id { s with pending := s.pending.erase key } :=
    s.apart_erase_pending key
  { herase with }

theorem apart_enlist {bucket : Bucket}
    (found : s.buckets.get? processor.partition = some bucket) :
    s.Apart processor.key id (s.enlist processor bucket) := by
  have hregister : (s.unqueue processor.key).Apart processor.key id
      (s.enlist processor bucket) := by
    refine apart_replace_bucket (s := s.unqueue processor.key) found fun jobType other => ?_
    have hother : processor.jobType ≠ jobType := fun heq => other (by rw [← heq]; rfl)
    rw [Bucket.register, List.filter_append, List.filter_cons, if_neg (by simpa using hother),
      List.filter_nil, List.append_nil]
  exact (s.apart_unqueue processor.key).trans hregister

theorem confined_onBuilt (h : s.Fresh) (unit : ActivationUnit) (result : Except String Runner) :
    (s.onBuilt unit result).Confined unit.key ⟨s.nextProcessor⟩ s := by
  have hunqueue : (s.unqueue unit.key).Fresh := h
  cases result with
  | error reason => exact confined_failPending h unit.key _
  | ok runner =>
    let processor : Processor := ⟨⟨s.nextProcessor⟩, unit, runner⟩
    unfold onBuilt
    dsimp only
    split
    next => exact (confined_teardown hunqueue processor none).since (s.apart_unqueue unit.key)
    next =>
      split
      next =>
        refine Confined.since ?_ (s.apart_unqueue unit.key)
        exact .andThen (.settleAll hunqueue _ _) (confined_teardown hunqueue processor none)
      next bucket hbucket =>
        have henlist : (s.enlist processor bucket).Fresh := h
        have hapart : s.Apart processor.key processor.id (s.enlist processor bucket) :=
          apart_enlist hbucket
        exact (Confined.forEach (fun s hs w => confined_forward hs processor w) henlist _).since
          hapart

theorem confined_onAdded (h : s.Fresh) (names : s.Names processor) {key : SubscriberKey}
    (new : s.index.get? key = none) (connection : ConnectionId) (reply : Ticket) (closed : Bool)
    (result : Except String Unit) :
    (s.onAdded key connection processor reply closed result).Confined processor.key processor.id
      s := by
  have hgiveUp : ∀ result, ((s.release processor).andThen fun s =>
      s.settle reply result).Confined processor.key processor.id s := by
    intro result
    have hrelease := confined_release h names
    exact hrelease.andThen (.settle hrelease.fresh reply result)
  unfold onAdded
  split
  next => exact hgiveUp _
  next =>
    split
    next =>
      refine Confined.andThen (.settle h reply _) ?_
      have hdrop := fresh_dropReference h processor.id
      refine Confined.since (.issue hdrop ?_ _) (s.apart_dropReference processor.id)
      rfl
    next =>
      split
      next =>
        have hfresh : { s with index := s.index.insert key ⟨processor, connection⟩ }.Fresh := h
        exact (Confined.settle hfresh reply _).since (apart_insert_index new rfl)
      next => exact hgiveUp _

theorem confined_onRemoved (h : s.Fresh) (names : s.Names processor) (reply : Ticket)
    (result : Except String Bool) :
    (s.onRemoved processor reply result).Confined processor.key processor.id s := by
  unfold onRemoved
  split
  next => exact .settle h reply _
  next =>
    split
    next => exact confined_retire h names (some reply)
    next => exact .settle h reply _

theorem confined_onSwept (h : s.Fresh) (names : s.Names processor)
    (result : Except String Bool) :
    (s.onSwept processor result).Confined processor.key processor.id s := by
  unfold onSwept
  split
  next => exact .rest h
  next =>
    split
    next => exact confined_retire h names none
    next => exact .rest h

theorem confined_onTornDown (h : s.Fresh)
    (placed : ∀ bucket, s.buckets.get? processor.partition = some bucket →
      bucket.partition.id = processor.partition) (reply : Option Ticket)
    (result : Except String Unit) :
    (s.onTornDown processor reply result).Confined processor.key id s := by
  unfold onTornDown
  refine .andThen (.settle? h reply _) ?_
  rw [state_settle?]
  split
  next => exact confined_startDeferred h placed
  next count _ =>
    split
    next =>
      have hfresh : { s with retiring := s.retiring.insert processor.key (count - 1) }.Fresh := h
      exact (Confined.rest hfresh).since (s.apart_insert_retiring processor.key (count - 1))
    next =>
      have hfresh : { s with retiring := s.retiring.erase processor.key }.Fresh := h
      exact (confined_startDeferred hfresh placed).since (s.apart_erase_retiring processor.key)

theorem confined_resume {k : Knowledge} (orderly : s.Orderly) (distinct : k.Distinct)
    (sound : (s.ledger 0).Sound k) {operation : OperationId} {continuation : Continuation}
    (noted : s.continuations.get? operation = some continuation) (outcome : Outcome) :
    (s.resume operation outcome).Confined continuation.unitKey (s.touched continuation) s := by
  have herase := orderly_erase_continuation orderly operation
  have hledger := ledger_erase_continuation noted 0
  rw [add_zero] at hledger
  rw [← hledger] at sound
  have hknown := known_of_hand sound
  have hnames : ∀ {processor : Processor}, k.built processor →
      { s with continuations := s.continuations.erase operation }.Names processor :=
    fun built => names_of_built distinct sound built
  unfold resume
  rw [noted]
  -- what was noted of the call is taken away first
  refine Confined.since ?_ (apart_erase_continuation noted rfl)
  dsimp only
  split
  next unit result => exact confined_onBuilt herase.fresh unit result
  next key connection processor reply closed result =>
    exact confined_onAdded herase.fresh (hnames hknown.2.1) (index_of_adding sound) connection reply
      closed result
  next processor reply result =>
    exact confined_onRemoved herase.fresh (hnames hknown.1) reply result
  next processor reply result =>
    exact confined_onTornDown herase.fresh (fun bucket => orderly.placed _ bucket) reply result
  next processor connection result => exact confined_onSwept herase.fresh (hnames hknown.1) result
  next => exact .rest herase.fresh

end State

end Manager

end JobBroker
