import JobBroker.Proofs.Ledger
import Mathlib.Data.List.Nodup

/-!
# Calls and what is noted of them

With every call that it makes a manager notes what to do once the call has ended, and both go by
the same number. A turn keeps what was noted before it, makes its calls under new numbers, and
notes something that fits for each of them and for nothing else.
-/

namespace JobBroker.Manager

open Table

/-- Tells whether a continuation is what has to be noted of a call. -/
def Continuation.Fits : Continuation → Call → Prop
  | .build unit, .build unit' => unit' = unit
  | .subscribe key connection processor _ _, .add processor' subscription =>
    processor' = processor ∧ subscription.key = some key ∧ subscription.connection = connection
  | .unsubscribe processor _, .remove processor' _ => processor' = processor
  | .teardown processor _, .teardown processor' => processor' = processor
  | .sweep processor _, .remove processor' _ => processor' = processor
  | .sweep processor connection, .sweep processor' connection' =>
    processor' = processor ∧ connection' = connection
  | _, _ => False

namespace State

def Awaits (s : State) (operation : OperationId) (call : Call) : Prop :=
  ∃ continuation, s.continuations.get? operation = some continuation ∧ continuation.Fits call

/-- What the tables keep by themselves: calls have numbers below the next one, a bucket is
registered under the id of its partition, no count is zero, and what waits has its key. -/
structure Orderly (s : State) : Prop where
  fresh : ∀ operation continuation,
    s.continuations.get? operation = some continuation → operation.val < s.nextOperation
  placed : ∀ partition bucket,
    s.buckets.get? partition = some bucket → bucket.partition.id = partition
  referred : ∀ id count, s.references.get? id = some count → 0 < count
  retired : ∀ key count, s.retiring.get? key = some count → 0 < count
  keyed : ∀ key queue, s.pending.get? key = some queue →
    ∀ w ∈ queue, w.subscription.key = some w.key

end State

/-- What a turn does with calls. -/
structure Turn.Notes (s : State) (turn : Turn) : Prop where
  orderly : turn.state.Orderly
  later : s.nextOperation ≤ turn.state.nextOperation
  distinct : ((callsOf turn.effects).map Prod.fst).Nodup
  numbered : (callsOf turn.effects).map (fun call => call.1.val) =
    List.range' s.nextOperation (turn.state.nextOperation - s.nextOperation)
  numbers : ∀ call ∈ callsOf turn.effects,
    s.nextOperation ≤ call.1.val ∧ call.1.val < turn.state.nextOperation
  held : ∀ call ∈ callsOf turn.effects, turn.state.Awaits call.1 call.2
  kept : ∀ operation call, s.Awaits operation call → turn.state.Awaits operation call
  noted : ∀ operation continuation, turn.state.continuations.get? operation = some continuation →
    s.continuations.contains operation = true ∨
      operation ∈ (callsOf turn.effects).map Prod.fst

theorem callsOf_append (front back : List Effect) :
    callsOf (front ++ back) = callsOf front ++ callsOf back := List.filterMap_append ..

theorem settledOf_append (front back : List Effect) :
    settledOf (front ++ back) = settledOf front ++ settledOf back := List.filterMap_append ..

theorem callsOf_settle (replies : List Ticket) (result : Result) :
    callsOf (replies.map fun reply => .settle reply result) = [] := by
  induction replies with
  | nil => rfl
  | cons reply rest ih => exact ih

namespace Turn.Notes

variable {s : State} {turn : Turn}

theorem quiet (orderly : turn.state.Orderly) (effects : callsOf turn.effects = [])
    (continuations : turn.state.continuations = s.continuations)
    (next : turn.state.nextOperation = s.nextOperation) : turn.Notes s where
  orderly := orderly
  later := Nat.le_of_eq next.symm
  distinct := by simp [effects]
  numbered := by
    rw [effects, next, Nat.sub_self]
    rfl
  numbers := by simp [effects]
  held := by simp [effects]
  kept := by simp only [State.Awaits, continuations, imp_self, implies_true]
  noted operation continuation h := by
    rw [continuations] at h
    exact .inl (by simp [Table.contains, h])

theorem rest (h : s.Orderly) : s.rest.Notes s := quiet h rfl rfl rfl

theorem settle (h : s.Orderly) (reply : Ticket) (result : Result) :
    (s.settle reply result).Notes s := quiet h rfl rfl rfl

theorem settleAll (h : s.Orderly) (replies : List Ticket) (result : Result) :
    (s.settleAll replies result).Notes s := quiet h (callsOf_settle replies result) rfl rfl

theorem issue (h : s.Orderly) {continuation : Continuation} {call : Call}
    (fits : continuation.Fits call) : (s.issue continuation call).Notes s := by
  have hnew : ∀ operation old, s.continuations.get? operation = some old →
      operation ≠ ⟨s.nextOperation⟩ := by
    intro operation old hold heq
    have hlt := h.fresh operation old hold
    rw [heq] at hlt
    exact absurd hlt (Nat.lt_irrefl _)
  have hnumbered : [s.nextOperation] =
      List.range' s.nextOperation (s.nextOperation + 1 - s.nextOperation) := by
    rw [Nat.add_sub_cancel_left]
    rfl
  refine ⟨⟨?_, h.placed, h.referred, h.retired, h.keyed⟩, Nat.le_succ _, List.nodup_singleton _,
    hnumbered, ?_, ?_, ?_, ?_⟩
  · intro operation old hget
    simp only [State.issue, get?_insert] at hget ⊢
    split at hget
    next heq => rw [heq]; exact Nat.lt_succ_self _
    next => exact Nat.lt_succ_of_lt (h.fresh operation old hget)
  · intro made hmade
    rw [List.mem_singleton.1 hmade]
    exact ⟨Nat.le_refl _, Nat.lt_succ_self _⟩
  · intro made hmade
    rw [List.mem_singleton.1 hmade]
    exact ⟨continuation, get?_insert_self _ _ _, fits⟩
  · rintro operation made ⟨old, hget, hfits⟩
    refine ⟨old, ?_, hfits⟩
    simp only [State.issue, get?_insert, hnew operation old hget, if_false]
    exact hget
  · intro operation old hget
    simp only [State.issue, get?_insert] at hget
    split at hget
    next heq => exact .inr (by rw [heq]; exact List.mem_singleton_self _)
    next => exact .inl (by simp [Table.contains, hget])

theorem andThen (h : turn.Notes s) {next : State → Turn} (h' : (next turn.state).Notes turn.state) :
    (turn.andThen next).Notes s where
  orderly := h'.orderly
  later := Nat.le_trans h.later h'.later
  distinct := by
    simp only [effects_andThen, callsOf_append, List.map_append]
    refine List.nodup_append.2 ⟨h.distinct, h'.distinct, ?_⟩
    intro a ha b hb heq
    obtain ⟨first, hfirst, rfl⟩ := List.mem_map.1 ha
    obtain ⟨second, hsecond, rfl⟩ := List.mem_map.1 hb
    have hlt := (h.numbers first hfirst).2
    have hle := (h'.numbers second hsecond).1
    rw [heq] at hlt
    omega
  numbered := by
    have hearly := h.later
    have hlater := h'.later
    have hnumbered := h'.numbered
    have hbegin : turn.state.nextOperation =
        s.nextOperation + (turn.state.nextOperation - s.nextOperation) := by omega
    rw [effects_andThen, callsOf_append, List.map_append, h.numbered, hnumbered]
    nth_rewrite 2 [hbegin]
    rw [List.range'_append_1, state_andThen]
    congr 1
    omega
  numbers call hcall := by
    have hearly := h.later
    have hlater := h'.later
    simp only [effects_andThen, callsOf_append, List.mem_append] at hcall
    rcases hcall with hcall | hcall
    · have hnumber := h.numbers call hcall
      exact ⟨hnumber.1, Nat.lt_of_lt_of_le hnumber.2 hlater⟩
    · have hnumber := h'.numbers call hcall
      exact ⟨Nat.le_trans hearly hnumber.1, hnumber.2⟩
  held call hcall := by
    simp only [effects_andThen, callsOf_append, List.mem_append] at hcall
    rcases hcall with hcall | hcall
    · exact h'.kept _ _ (h.held call hcall)
    · exact h'.held call hcall
  kept operation call hawaits := h'.kept _ _ (h.kept _ _ hawaits)
  noted operation continuation hget := by
    simp only [effects_andThen, callsOf_append, List.map_append, List.mem_append]
    rcases h'.noted operation continuation hget with hold | hcall
    · obtain ⟨old, hget⟩ := Option.isSome_iff_exists.1 hold
      rcases h.noted operation old hget with hold | hcall
      · exact .inl hold
      · exact .inr (.inl hcall)
    · exact .inr (.inr hcall)

/-- A turn may as well begin before a change of the state that leaves its calls alone. -/
theorem since {s' : State} (h : turn.Notes s') (continuations : s'.continuations = s.continuations)
    (next : s'.nextOperation = s.nextOperation) : turn.Notes s where
  orderly := h.orderly
  later := next ▸ h.later
  distinct := h.distinct
  numbered := next ▸ h.numbered
  numbers := next ▸ h.numbers
  held := h.held
  kept operation call hawaits := h.kept operation call (by
    simpa only [State.Awaits, continuations] using hawaits)
  noted := continuations ▸ h.noted

end Turn.Notes

namespace State

variable {s : State}

/-! ### States that stay orderly -/

theorem orderly_acquire (h : s.Orderly) (id : ProcessorId) : (s.acquire id).Orderly := by
  refine ⟨h.fresh, h.placed, ?_, h.retired, h.keyed⟩
  intro other count hget
  simp only [acquire, get?_insert] at hget
  split at hget
  next => cases hget; exact Nat.succ_pos _
  next => exact h.referred other count hget

theorem orderly_dropReference (h : s.Orderly) (id : ProcessorId) :
    (s.dropReference id).Orderly := by
  unfold dropReference
  split
  next => exact h
  next count hcount =>
    split
    next =>
      refine ⟨h.fresh, h.placed, ?_, h.retired, h.keyed⟩
      intro other rest hget
      simp only [get?_erase] at hget
      split at hget
      next => cases hget
      next => exact h.referred other rest hget
    next hpos =>
      refine ⟨h.fresh, h.placed, ?_, h.retired, h.keyed⟩
      intro other rest hget
      simp only [get?_insert] at hget
      split at hget
      next => cases hget; exact Nat.pos_of_ne_zero hpos
      next => exact h.referred other rest hget

theorem orderly_insert_bucket (h : s.Orderly) {partition : PartitionId} {bucket : Bucket}
    (placed : bucket.partition.id = partition) :
    { s with buckets := s.buckets.insert partition bucket }.Orderly := by
  refine ⟨h.fresh, ?_, h.referred, h.retired, h.keyed⟩
  intro other old hget
  simp only [get?_insert] at hget
  split at hget
  next heq => cases hget; exact placed.trans heq.symm
  next => exact h.placed other old hget

theorem orderly_erase_bucket (h : s.Orderly) (partition : PartitionId) :
    { s with buckets := s.buckets.erase partition }.Orderly := by
  refine ⟨h.fresh, ?_, h.referred, h.retired, h.keyed⟩
  intro other old hget
  simp only [get?_erase] at hget
  split at hget
  next => cases hget
  next => exact h.placed other old hget

theorem orderly_insert_pending (h : s.Orderly) {key : UnitKey} {queue : List Waiting}
    (keyed : ∀ w ∈ queue, w.subscription.key = some w.key) :
    { s with pending := s.pending.insert key queue }.Orderly := by
  refine ⟨h.fresh, h.placed, h.referred, h.retired, ?_⟩
  intro other old hget
  simp only [get?_insert] at hget
  split at hget
  next => cases hget; exact keyed
  next => exact h.keyed other old hget

theorem orderly_erase_pending (h : s.Orderly) (key : UnitKey) :
    { s with pending := s.pending.erase key }.Orderly := by
  refine ⟨h.fresh, h.placed, h.referred, h.retired, ?_⟩
  intro other old hget
  simp only [get?_erase] at hget
  split at hget
  next => cases hget
  next => exact h.keyed other old hget

theorem orderly_insert_retiring (h : s.Orderly) (key : UnitKey) (n : Nat) :
    { s with retiring := s.retiring.insert key (n + 1) }.Orderly := by
  refine ⟨h.fresh, h.placed, h.referred, ?_, h.keyed⟩
  intro other count hget
  simp only [get?_insert] at hget
  split at hget
  next => cases hget; exact Nat.succ_pos _
  next => exact h.retired other count hget

theorem orderly_erase_retiring (h : s.Orderly) (key : UnitKey) :
    { s with retiring := s.retiring.erase key }.Orderly := by
  refine ⟨h.fresh, h.placed, h.referred, ?_, h.keyed⟩
  intro other count hget
  simp only [get?_erase] at hget
  split at hget
  next => cases hget
  next => exact h.retired other count hget

theorem orderly_erase_continuation (h : s.Orderly) (operation : OperationId) :
    { s with continuations := s.continuations.erase operation }.Orderly := by
  refine ⟨?_, h.placed, h.referred, h.retired, h.keyed⟩
  intro other old hget
  simp only [get?_erase] at hget
  split at hget
  next => cases hget
  next => exact h.fresh other old hget

theorem placed_detach (h : s.Orderly) {partition : PartitionId} {id : ProcessorId}
    {rest : Bucket}
    (detached : ((s.buckets.get? partition).bind fun b => b.detach? id) = some rest) :
    ∃ bucket, s.buckets.get? partition = some bucket ∧ bucket.detach? id = some rest ∧
      rest.partition.id = partition := by
  obtain ⟨bucket, hget, hdetach⟩ := Option.bind_eq_some_iff.1 detached
  refine ⟨bucket, hget, hdetach, ?_⟩
  unfold Bucket.detach? at hdetach
  split at hdetach
  next => rw [← Option.some.inj hdetach]; exact h.placed partition bucket hget
  next => cases hdetach

/-! ### What dropping references leaves alone -/

theorem dropReference_eq (s : State) (id : ProcessorId) :
    s.dropReference id = { s with references := (s.dropReference id).references } := by
  unfold dropReference
  split
  next => rfl
  next => split <;> rfl

theorem unindex_eq (s : State) (key : SubscriberKey) :
    s.unindex key =
      { s with index := (s.unindex key).index, references := (s.unindex key).references } := by
  unfold unindex
  split
  next => rfl
  next => rw [dropReference_eq]

theorem unindexAll_eq (keys : List SubscriberKey) (s : State) :
    keys.foldl unindex s =
      { s with index := (keys.foldl unindex s).index
               references := (keys.foldl unindex s).references } := by
  induction keys generalizing s with
  | nil => rfl
  | cons key keys ih =>
    rw [List.foldl_cons, ih (s.unindex key), unindex_eq]

theorem orderly_unindex (h : s.Orderly) (key : SubscriberKey) : (s.unindex key).Orderly := by
  unfold unindex
  split
  next => exact h
  next entry _ =>
    exact orderly_dropReference (s := { s with index := s.index.erase key })
      ⟨h.fresh, h.placed, h.referred, h.retired, h.keyed⟩ entry.processor.id

theorem orderly_unindexAll (keys : List SubscriberKey) (h : s.Orderly) :
    (keys.foldl unindex s).Orderly := by
  induction keys generalizing s with
  | nil => exact h
  | cons key keys ih => exact ih (orderly_unindex h key)

theorem index_unindex (s : State) (key other : SubscriberKey) :
    (s.unindex key).index.get? other = if other = key then none else s.index.get? other := by
  unfold unindex
  split
  next hnone =>
    split
    next heq => rw [heq, hnone]
    next => rfl
  next =>
    rw [dropReference_eq]
    exact get?_erase _ _ _

theorem index_unindexAll (keys : List SubscriberKey) (s : State) (key : SubscriberKey) :
    (keys.foldl unindex s).index.get? key =
      if key ∈ keys then none else s.index.get? key := by
  induction keys generalizing s with
  | nil => simp
  | cons first keys ih =>
    rw [List.foldl_cons, ih, index_unindex]
    by_cases heq : key = first
    · simp [heq]
    · simp [heq]

theorem index_purge {test : IndexEntry → Bool} {key : SubscriberKey} {entry : IndexEntry}
    (h : (s.purge test).index.get? key = some entry) :
    s.index.get? key = some entry ∧ test entry = false := by
  rw [purge, index_unindexAll] at h
  split at h
  next => cases h
  next hnot =>
    refine ⟨h, ?_⟩
    by_contra htest
    exact hnot (mem_keysWhere.2 ⟨entry, h, by simpa using htest⟩)

end State

end JobBroker.Manager
