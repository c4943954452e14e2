import JobBroker.Proofs.Worlds

/-!
# References

What refers to a processor: the index entries that lead to it, and the additions that are on
their way to it. The manager counts them, and gives none back that it does not have. The latter is
said of a manager that drops references in a way of its own: as long as it agrees with the
manager's way wherever there is a reference to drop, no difference is ever seen.
-/

namespace JobBroker

namespace Table

variable {κ α : Type} [DecidableEq κ] {table : Table κ α} {key : κ} {value : α}

theorem length_keysWhere_erase (h : table.get? key = some value) (test : α → Bool) :
    (table.keysWhere test).length =
      ((table.erase key).keysWhere test).length + if test value then 1 else 0 := by
  have herase := congrArg (Multiset.countP fun value => test value = true)
    (contents_erase (fun _ value => {value}) h)
  rw [Multiset.countP_add, countP_contents, countP_contents, ← Multiset.cons_zero,
    Multiset.countP_cons, Multiset.countP_zero, Nat.zero_add] at herase
  rw [length_keysWhere, length_keysWhere]
  simpa using herase.symm

end Table

namespace Manager

open Table Holding

namespace State

def indexedOn (s : State) (id : ProcessorId) : List SubscriberKey :=
  s.index.keysWhere fun entry => entry.processor.id = id

/-- The additions on their way to a processor. -/
def addingOn (s : State) (id : ProcessorId) : List OperationId :=
  s.continuations.keysWhere fun
    | .subscribe _ _ processor _ _ => processor.id = id
    | _ => false

/-! ### Dropping references in another way -/

/-- A way to drop references is faithful when it is the manager's way wherever there is a
reference to drop. -/
def Faithful (drop : State → ProcessorId → State) : Prop :=
  ∀ s id count, s.references.get? id = some count → 1 ≤ count → drop s id = s.dropReference id

section

variable (drop : State → ProcessorId → State)

def unindexBy (s : State) (key : SubscriberKey) : State :=
  match s.index.get? key with
  | none => s
  | some entry => drop { s with index := s.index.erase key } entry.processor.id

def purgeBy (s : State) (test : IndexEntry → Bool) : State :=
  (s.index.keysWhere test).foldl (unindexBy drop) s

def releaseBy (s : State) (processor : Processor) : Turn :=
  let s := drop s processor.id
  if s.isUnreferenced processor.id then s.retire processor none else s.rest

def discardBucketBy (s : State) (partition : PartitionId) (bucket : Option Bucket) : Turn :=
  let s := s.purgeBy drop fun entry => entry.processor.partition = partition
  match bucket with
  | none => s.rest
  | some bucket => s.forEach bucket.processors fun s processor => s.teardown processor none

def takeBackBy (s : State) (processor : Processor) (key : SubscriberKey)
    (connection : ConnectionId) : Turn :=
  (drop s processor.id).issue (.sweep processor connection) (.remove processor key)

def onAddedBy (s : State) (key : SubscriberKey) (connection : ConnectionId)
    (processor : Processor) (reply : Ticket) (connectionClosed : Bool)
    (result : Except String Unit) : Turn :=
  match result with
  | .error reason =>
    (s.releaseBy drop processor).andThen fun s => s.settle reply (.error (.dispatch reason))
  | .ok () =>
    if connectionClosed then
      (s.settle reply (.error (.connectionClosed connection))).andThen fun s =>
        s.takeBackBy drop processor key connection
    else if s.isRegistered processor then
      { s with index := s.index.insert key ⟨processor, connection⟩ }.settle reply (.ok (.key key))
    else
      (s.releaseBy drop processor).andThen fun s =>
        s.settle reply (.error (.partitionNotFound processor.partition))

def unsubscribeBy (s : State) (key : SubscriberKey) (reply : Ticket) : Turn :=
  match s.index.get? key with
  | none => s.settle reply (.ok .done)
  | some entry =>
    (s.unindexBy drop key).issue (.unsubscribe entry.processor reply)
      (.remove entry.processor key)

def addPartitionBy (s : State) (partition : Partition) (service : String) : Turn :=
  let earlier := s.buckets.get? partition.id
  let s := { s with buckets := s.buckets.insert partition.id { partition, service } }
  match earlier with
  | none => s.rest
  | some bucket => s.discardBucketBy drop partition.id (some bucket)

def removePartitionBy (s : State) (partition : PartitionId) : Turn :=
  { s with buckets := s.buckets.erase partition }.discardBucketBy drop partition
    (s.buckets.get? partition)

def connectionClosedBy (s : State) (connection : ConnectionId) : Turn :=
  let s := s.purgeBy drop fun entry => entry.connection = connection
  ((s.disconnect connection).settleAll (s.abandoned connection)
    (.error (.connectionClosed connection))).andThen fun s =>
      s.forEach s.processors fun s processor =>
        s.issue (.sweep processor connection) (.sweep processor connection)

/-- Handles a message, dropping references in a way of its own. -/
def handleBy (s : State) : Message → Turn
  | .unsubscribe key reply => s.unsubscribeBy drop key reply
  | .addPartition partition service => s.addPartitionBy drop partition service
  | .removePartition partition => s.removePartitionBy drop partition
  | .connectionClosed connection => s.connectionClosedBy drop connection
  | .resume operation outcome =>
    match s.continuations.get? operation, outcome with
    | some (.subscribe key connection processor reply closed), .settled result =>
      { s with continuations := s.continuations.erase operation }.onAddedBy drop key connection
        processor reply closed result
    | _, _ => s.resume operation outcome
  | message => s.handle message

end

/-- With the manager's own way messages are handled as ever. -/
theorem handleBy_dropReference (s : State) (message : Message) :
    s.handleBy dropReference message = s.handle message := by
  cases message with
  | resume operation outcome =>
    simp only [handleBy, handle]
    split
    next key connection processor reply closed result hget =>
      rw [resume, hget]
      rfl
    next => rfl
  | _ => rfl

def Backed (s : State) : Prop :=
  ∀ id, (s.indexedOn id).length ≤ (s.references.get? id).getD 0

variable {drop : State → ProcessorId → State} {s : State}

theorem get?_of_getD_pos {id : ProcessorId} (h : 0 < (s.references.get? id).getD 0) :
    ∃ count, s.references.get? id = some count ∧ 1 ≤ count := by
  cases hget : s.references.get? id with
  | none =>
    rw [hget] at h
    exact absurd h (Nat.lt_irrefl 0)
  | some count =>
    rw [hget] at h
    exact ⟨count, rfl, h⟩

theorem Backed.counted (h : s.Backed) {key : SubscriberKey} {entry : IndexEntry}
    (found : s.index.get? key = some entry) :
    ∃ count, s.references.get? entry.processor.id = some count ∧ 1 ≤ count := by
  have hmem : key ∈ s.indexedOn entry.processor.id := mem_keysWhere.2 ⟨entry, found, by simp⟩
  exact get?_of_getD_pos (Nat.lt_of_lt_of_le (List.length_pos_of_mem hmem) (h _))

theorem getD_dropReference (s : State) (id other : ProcessorId) :
    ((s.dropReference id).references.get? other).getD 0 =
      if other = id then (s.references.get? other).getD 0 - 1
      else (s.references.get? other).getD 0 :=
  congrFun (congrArg Ledger.references (ledger_dropReference s id 0)) other

theorem Backed.unindex (h : s.Backed) (key : SubscriberKey) : (s.unindex key).Backed := by
  unfold State.unindex
  split
  next => exact h
  next entry found =>
    intro id
    have hbefore := h id
    have hlength := length_keysWhere_erase found fun entry => entry.processor.id = id
    have hindex : ({ s with index := s.index.erase key }.dropReference entry.processor.id).index =
        s.index.erase key := by rw [dropReference_eq]
    rw [getD_dropReference]
    simp only [indexedOn, hindex] at hbefore ⊢
    rw [hlength] at hbefore
    simp only [decide_eq_true_eq] at hbefore
    split
    next heq =>
      rw [if_pos heq.symm] at hbefore
      exact Nat.le_sub_one_of_lt hbefore
    next hne =>
      rw [if_neg (Ne.symm hne)] at hbefore
      exact hbefore

/-! ### No difference is seen -/

section

variable (faithful : Faithful drop)
include faithful

theorem unindexBy_eq (h : s.Backed) (key : SubscriberKey) :
    s.unindexBy drop key = s.unindex key := by
  unfold unindexBy unindex
  cases found : s.index.get? key with
  | none => rfl
  | some entry =>
    obtain ⟨count, hget, hpos⟩ := h.counted found
    exact faithful _ _ count hget hpos

theorem purgeBy_eq (h : s.Backed) (test : IndexEntry → Bool) :
    s.purgeBy drop test = s.purge test := by
  unfold purgeBy purge
  generalize s.index.keysWhere test = keys
  induction keys generalizing s with
  | nil => rfl
  | cons key keys ih =>
    rw [List.foldl_cons, List.foldl_cons, unindexBy_eq faithful h, ih (h.unindex key)]

theorem discardBucketBy_eq (h : s.Backed) (partition : PartitionId) (bucket : Option Bucket) :
    s.discardBucketBy drop partition bucket = s.discardBucket partition bucket := by
  have hpurge := purgeBy_eq faithful h fun entry => entry.processor.partition = partition
  unfold discardBucketBy discardBucket
  cases bucket with
  | none => exact congrArg rest hpurge
  | some bucket =>
    exact congrArg (fun s : State => s.forEach bucket.processors fun s processor =>
      s.teardown processor none) hpurge

theorem handleBy_client (h : s.Backed) {message : Message} (client : message.fromClient = true) :
    s.handleBy drop message = s.handle message := by
  cases message with
  | unsubscribe key reply =>
    simp only [handleBy, unsubscribeBy]
    rw [unindexBy_eq faithful h]
    rfl
  | addPartition partition service =>
    simp only [handleBy, handle, addPartitionBy, addPartition]
    cases s.buckets.get? partition.id with
    | none => rfl
    | some bucket =>
      let s' := { s with buckets := s.buckets.insert partition.id { partition, service } }
      exact discardBucketBy_eq faithful (s := s') h partition.id (some bucket)
  | removePartition partition =>
    let s' := { s with buckets := s.buckets.erase partition }
    exact discardBucketBy_eq faithful (s := s') h partition (s.buckets.get? partition)
  | connectionClosed connection =>
    simp only [handleBy, connectionClosedBy]
    rw [purgeBy_eq faithful h]
    rfl
  | resume | shutdown => cases client
  | _ => rfl

theorem releaseBy_eq {processor : Processor} {count : Nat}
    (found : s.references.get? processor.id = some count) (pos : 1 ≤ count) :
    s.releaseBy drop processor = s.release processor := by
  unfold releaseBy release
  rw [faithful s processor.id count found pos]

theorem onAddedBy_eq {processor : Processor} {count : Nat}
    (found : s.references.get? processor.id = some count) (pos : 1 ≤ count) (key : SubscriberKey)
    (connection : ConnectionId) (reply : Ticket) (closed : Bool) (result : Except String Unit) :
    s.onAddedBy drop key connection processor reply closed result =
      s.onAdded key connection processor reply closed result := by
  have hrelease := releaseBy_eq faithful found pos
  have htakeBack : s.takeBackBy drop processor key connection =
      s.takeBack processor key connection := by
    unfold takeBackBy takeBack
    rw [faithful s processor.id count found pos]
  unfold onAddedBy onAdded
  cases result with
  | error reason =>
    exact congrArg (fun turn : Turn => turn.andThen fun s =>
      s.settle reply (.error (.dispatch reason))) hrelease
  | ok =>
    cases closed with
    | true =>
      exact congrArg (fun turn : Turn =>
        (s.settle reply (.error (.connectionClosed connection))).andThen fun _ => turn) htakeBack
    | false =>
      cases s.isRegistered processor with
      | true => rfl
      | false =>
        exact congrArg (fun turn : Turn => turn.andThen fun s =>
          s.settle reply (.error (.partitionNotFound processor.partition))) hrelease

theorem handleBy_resume {operation : OperationId} (outcome : Outcome)
    (counted : ∀ key connection processor reply closed,
      s.continuations.get? operation = some (.subscribe key connection processor reply closed) →
      ∃ count, s.references.get? processor.id = some count ∧ 1 ≤ count) :
    s.handleBy drop (.resume operation outcome) = s.handle (.resume operation outcome) := by
  simp only [handleBy, handle]
  split
  next key connection processor reply closed result hget =>
    obtain ⟨count, hcount, hpos⟩ := counted key connection processor reply closed hget
    rw [resume, hget]
    exact onAddedBy_eq faithful
      (s := { s with continuations := s.continuations.erase operation }) hcount hpos ..
  next => rfl

end

end State

/-! ### The references of a run -/

namespace World

variable {w : World} {creditCapacity : Nat}

theorem references_eq (h : Reachable creditCapacity w) (id : ProcessorId) :
    (w.state.references.get? id).getD 0 =
      (w.state.indexedOn id).length + (w.state.addingOn id).length := by
  have hreferred := (consistent_of_reachable h).sound.referred id
  rw [State.count_ledger, State.countP_buckets (fun _ _ => rfl),
    State.countP_pending (fun _ _ => rfl), Nat.zero_add] at hreferred
  rw [State.indexedOn, State.addingOn, length_keysWhere, length_keysWhere]
  refine hreferred.trans (congrArg₂ (· + ·) ?_ ?_)
  · simp only [reference?, Option.some.injEq]
  · refine List.countP_congr fun entry _ => ?_
    obtain ⟨operation, continuation⟩ := entry
    cases continuation <;> simp [reference?]

theorem backed_of_reachable (h : Reachable creditCapacity w) : w.state.Backed := by
  intro id
  rw [references_eq h id]
  exact Nat.le_add_right ..

theorem counted_of_adding (h : Reachable creditCapacity w) {operation : OperationId}
    {key : SubscriberKey} {connection : ConnectionId} {processor : Processor} {reply : Ticket}
    {closed : Bool} (found : w.state.continuations.get? operation =
      some (.subscribe key connection processor reply closed)) :
    ∃ count, w.state.references.get? processor.id = some count ∧ 1 ≤ count := by
  have hmem : operation ∈ w.state.addingOn processor.id :=
    mem_keysWhere.2 ⟨_, found, by simp⟩
  have hpos := List.length_pos_of_mem hmem
  refine State.get?_of_getD_pos ?_
  rw [references_eq h]
  omega

/-- The count of a processor is the number of its index entries and of the additions on their way
to it, and it is gone once there are none. Whatever is told or ends, a reference is dropped only
where there is one. -/
theorem references_exact (h : Reachable creditCapacity w) :
    (∀ id, (w.state.references.get? id).getD 0 =
      (w.state.indexedOn id).length + (w.state.addingOn id).length) ∧
    (∀ id, w.state.references.get? id ≠ some 0) ∧
    (∀ id, w.state.isUnreferenced id = true ↔
      w.state.indexedOn id = [] ∧ w.state.addingOn id = []) ∧
    ∀ drop, State.Faithful drop →
      (∀ message, message.fromClient = true →
        w.state.handleBy drop message = w.state.handle message) ∧
      ∀ operation call (result : Except String call.Success), (operation, call) ∈ w.outstanding →
        w.state.handleBy drop (.resume operation (call.outcome result)) =
          w.state.handle (.resume operation (call.outcome result)) := by
  have horderly := (consistent_of_reachable h).orderly
  refine ⟨references_eq h, ?_, ?_, ?_⟩
  · intro id hzero
    exact Nat.lt_irrefl 0 (horderly.referred id 0 hzero)
  · intro id
    have hcount : (w.state.ledger 0).references id =
        (w.state.indexedOn id).length + (w.state.addingOn id).length := references_eq h id
    have hunreferenced : w.state.isUnreferenced id = true ↔ (w.state.ledger 0).references id = 0 :=
      State.isUnreferenced_iff horderly
    rw [hunreferenced, hcount, Nat.add_eq_zero_iff, List.length_eq_zero_iff,
      List.length_eq_zero_iff]
  · intro drop faithful
    refine ⟨?_, ?_⟩
    · intro message client
      exact State.handleBy_client faithful (backed_of_reachable h) client
    · intro operation call result held
      apply State.handleBy_resume faithful (call.outcome result)
      intro key connection processor reply closed found
      exact counted_of_adding h found

def dropOrStart (s : State) (id : ProcessorId) : State :=
  if s.references.contains id then s.dropReference id else State.initial 0

theorem faithful_dropOrStart : State.Faithful dropOrStart := by
  intro s id count hget _
  rw [dropOrStart, if_pos (by rw [Table.contains, hget, Option.isSome_some])]

open Sample in
theorem references_exact_sample :
    (adding.state.addingOn ⟨0⟩).length = 1 ∧ adding.state.references.get? ⟨0⟩ ≠ some 0 ∧
      adding.state.isUnreferenced ⟨0⟩ = false ∧
      active.state.handleBy dropOrStart (.unsubscribe ⟨0⟩ ⟨1⟩) =
        active.state.handle (.unsubscribe ⟨0⟩ ⟨1⟩) ∧
      adding.state.handleBy dropOrStart (.resume ⟨1⟩ (.settled (.error "full"))) =
        adding.state.handle (.resume ⟨1⟩ (.settled (.error "full"))) := by
  obtain ⟨hcount, hpos, hunreferenced, hfaithful⟩ := references_exact reachable_adding
  have hactive := (references_exact reachable_active).2.2.2 dropOrStart faithful_dropOrStart
  refine ⟨?_, hpos ⟨0⟩, ?_, hactive.1 _ rfl, ?_⟩
  · have hzero := hcount ⟨0⟩
    rw [show (adding.state.references.get? ⟨0⟩).getD 0 = 1 by decide +kernel,
      show (adding.state.indexedOn ⟨0⟩).length = 0 by decide +kernel] at hzero
    omega
  · rw [← Bool.not_eq_true, hunreferenced]
    decide +kernel
  · exact (hfaithful dropOrStart faithful_dropOrStart).2 ⟨1⟩
      (.add processor { subscription with key := some ⟨0⟩ }) (.error "full") (by decide +kernel)

end World

end Manager

end JobBroker
