import JobBroker.Proofs.Attempts
import JobBroker.Proofs.Departures

/-!
# Where credits go

An index entry leads to the processor that has accepted its key: no other processor was ever handed
the key, and the processor is still registered. So credits that a client asks for reach the
processor that holds its subscription, and none whose unit was given back.
-/

namespace JobBroker.Manager

open Holding Table

/-! ### A key is handed over once -/

def Holding.queued? : Holding → Option SubscriberKey
  | waiting _ w => some w.key
  | _ => none

def Sign.hands (key : SubscriberKey) : Sign → Bool
  | .handed named _ => named = some key
  | _ => false

section

open Ledger

variable {k : Knowledge} {b b' : Ledger} {signs : List Sign} {settled : List Ticket}

/-- Whoever waits under a key has been given it, and waits no more once the key is handed over. -/
theorem Move.hands (h : Move k b signs settled b') (key : SubscriberKey) :
    signs.countP (Sign.hands key) + b'.count queued? key +
        (if key.val < b.nextKey then 1 else 0) ≤
      b.count queued? key + if key.val < b'.nextKey then 1 else 0 := by
  cases h <;> simp only [count_acquire, count_release, count_await, count_forget, count_retire,
    count_unretire, count_takeKey, count_takeId, count_plus, queued?, reduceCtorEq, if_false,
    Nat.add_zero, List.countP_nil, Nat.zero_add, List.countP_cons, Sign.hands, decide_eq_true_eq,
    Bool.false_eq_true]
  case enter b w subscription new assigned same =>
    show (_ + if some w.key = some key then 1 else 0) + (if key.val < b.nextKey then 1 else 0) ≤
      _ + if key.val < b.nextKey + 1 then 1 else 0
    rw [new]
    cases key with
    | mk val =>
      simp only [Option.some.injEq, SubscriberKey.mk.injEq]
      split <;> split <;> split <;> omega
  case hand b _ w processor _ _ =>
    show _ + _ + (if key.val < b.nextKey then 1 else 0) ≤ _ + _ +
      if key.val < b.nextKey then 1 else 0
    simp only [Option.some.injEq]
    omega
  case abandon b _ w =>
    show _ + (if key.val < b.nextKey then 1 else 0) ≤ _ + _ + if key.val < b.nextKey then 1 else 0
    omega
  all_goals exact Nat.le_refl _

theorem Moves.hands (h : Moves k b signs settled b') (key : SubscriberKey) :
    signs.countP (Sign.hands key) + b'.count queued? key +
        (if key.val < b.nextKey then 1 else 0) ≤
      b.count queued? key + if key.val < b'.nextKey then 1 else 0 := by
  induction h with
  | rest => exact Nat.le_of_eq (by rw [List.countP_nil, Nat.zero_add])
  | next _ move ih =>
    have hlast := move.hands key
    rw [List.countP_append]
    omega

end

namespace World

variable {w w' : World} {creditCapacity : Nat}

theorem hands_of_reachable (h : Reachable creditCapacity w) (key : SubscriberKey) :
    w.signs.countP (Sign.hands key) + (w.state.ledger 0).count queued? key ≤
      if key.val < w.state.nextKey then 1 else 0 := by
  induction h with
  | start =>
    show 0 + ((State.initial creditCapacity).ledger 0).count queued? key ≤ _
    rw [count_initial]
    exact Nat.zero_le _
  | @next w w' reached step ih =>
    obtain ⟨moment, hposted⟩ := posted_of_step (consistent_of_reachable reached) step
    have hmoves := hposted.moves.hands key
    rw [State.count_owed_none fun _ => rfl] at hmoves
    change _ + _ + (if key.val < w.state.nextKey then 1 else 0) ≤
      _ + if key.val < w'.state.nextKey then 1 else 0 at hmoves
    rw [hposted.signs, List.countP_append]
    omega

theorem eq_of_countP_le_one {α : Type} {p : α → Bool} {items : List α} (h : items.countP p ≤ 1)
    {a b : α} (ha : a ∈ items) (pa : p a = true) (hb : b ∈ items) (pb : p b = true) : a = b := by
  rw [List.countP_eq_length_filter] at h
  have hfa : a ∈ items.filter p := List.mem_filter.2 ⟨ha, pa⟩
  have hfb : b ∈ items.filter p := List.mem_filter.2 ⟨hb, pb⟩
  match hitems : items.filter p, h with
  | [], _ =>
    rw [hitems] at hfa
    cases hfa
  | [only], _ =>
    rw [hitems, List.mem_singleton] at hfa hfb
    rw [hfa, hfb]

theorem mem_signs_of_calls {call : OperationId × Call} (made : call ∈ w.calls) {sign : Sign}
    (shown : sign ∈ call.2.signs) : sign ∈ w.signs := by
  obtain ⟨moment, hmoment, hcall⟩ := List.mem_flatMap.1 made
  refine List.mem_flatMap.2 ⟨moment, hmoment, ?_⟩
  exact List.mem_append_right _ (List.mem_flatMap.2 ⟨call, hcall, shown⟩)

/-- A processor has accepted only what it was handed. -/
theorem handed_of_accepted (h : Reachable creditCapacity w) {key : SubscriberKey}
    {processor : Processor} (accepted : (key, processor) ∈ w.accepted) :
    .handed (some key) processor ∈ w.signs := by
  induction h with
  | start => cases accepted
  | @next w w' reached step ih =>
    obtain ⟨moment, hposted⟩ := posted_of_step (consistent_of_reachable reached) step
    rw [hposted.accepted, List.mem_append, Option.mem_toList] at accepted
    rw [hposted.signs]
    apply List.mem_append_left
    rcases accepted with hold | hnew
    · exact ih hold
    · unfold Moment.accepted? at hnew
      split at hnew
      next operation other subscription hevent =>
        obtain ⟨named, hnamed, heq⟩ := Option.map_eq_some_iff.1 hnew
        cases heq
        have hheld := hposted.ended operation _ _ hevent
        apply mem_signs_of_calls (mem_outstanding.1 hheld).1
        rw [Call.signs, hnamed]
        exact List.mem_singleton_self _
      next => cases hnew

theorem accepted_unique (h : Reachable creditCapacity w) {key : SubscriberKey}
    {processor other : Processor} (first : (key, processor) ∈ w.accepted)
    (second : (key, other) ∈ w.accepted) : other = processor := by
  have hcount := hands_of_reachable h key
  have hone : w.signs.countP (Sign.hands key) ≤ 1 := by
    split at hcount <;> omega
  have heq := eq_of_countP_le_one hone (handed_of_accepted h second) (by simp [Sign.hands])
    (handed_of_accepted h first) (by simp [Sign.hands])
  cases heq
  rfl

/-! ### Index entries -/

/-- What the index says of a key is what has happened with it, and its processor is there. -/
structure Routed (w : World) (key : SubscriberKey) (entry : IndexEntry) : Prop where
  registered : ∃ bucket, w.state.buckets.get? entry.processor.partition = some bucket ∧
    entry.processor ∈ bucket.processors
  built : entry.processor ∈ w.built
  asked : ∃ subscription, (key, subscription) ∈ w.assigned ∧
    (∀ other, (key, other) ∈ w.assigned → other = subscription) ∧
    entry.processor.key = subscription.unitKey ∧ entry.connection = subscription.connection
  accepted : (key, entry.processor) ∈ w.accepted
  only : ∀ other, (key, other) ∈ w.accepted → other = entry.processor

theorem routed_of_index (h : Reachable creditCapacity w) {key : SubscriberKey} {entry : IndexEntry}
    (found : w.state.index.get? key = some entry) : w.Routed key entry := by
  have hconsistent := consistent_of_reachable h
  have hheld : indexed key entry ∈ (w.state.ledger 0).holdings :=
    State.indexed_mem_ledger.2 (.inl found)
  obtain ⟨⟨subscription, hassigned, hunit, hconnection⟩, haccepted, hbuilt, -⟩ :=
    hconsistent.sound.proper _ hheld
  have hregistered := hconsistent.sound.routed key entry hheld
  refine ⟨?_, hbuilt, ⟨subscription, hassigned, ?_, hunit.symm, hconnection.symm⟩, haccepted, ?_⟩
  · exact (State.registered_mem_ledger.1 hregistered).resolve_right (Multiset.notMem_zero _)
  · intro other hother
    exact (Prod.mk.inj (hconsistent.unique _ hother _ hassigned rfl)).2
  · intro other hother
    exact accepted_unique h haccepted hother

/-- The teardown of a processor that the index leads to was not asked for. -/
theorem not_discarded_of_index (h : Reachable creditCapacity w) {key : SubscriberKey}
    {entry : IndexEntry} (found : w.state.index.get? key = some entry) :
    .discarded entry.processor ∉ w.signs := by
  intro sign
  have hheld : indexed key entry ∈ (w.state.ledger 0).holdings :=
    State.indexed_mem_ledger.2 (.inl found)
  exact (gone_of_discarded h sign).2 _ ((consistent_of_reachable h).sound.routed key entry hheld)

end World

end JobBroker.Manager
