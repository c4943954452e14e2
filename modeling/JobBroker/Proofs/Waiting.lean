import JobBroker.Proofs.Units

/-!
# What waits is released

Subscriptions that wait for a unit wait for one call to end: the build of the unit, or the teardown
of the one before it. A reply is owed from the message that asks for it until it is given, so that
a manager of which no call is outstanding owes none.
-/

namespace JobBroker.Manager

open Holding Table

/-! ### Replies -/

section

open Ledger

variable {k : Knowledge} {b b' : Ledger} {signs : List Sign} {settled : List Ticket}

/-- A reply stays where it is, or goes from one holder to the next, or is given. -/
theorem Move.replies (h : Move k b signs settled b') (reply : Ticket) :
    settled.count reply + b'.count reply? reply = b.count reply? reply := by
  cases h <;> simp only [count_acquire, count_release, count_await, count_forget, count_retire,
    count_unretire, count_takeKey, count_takeId, count_plus, reply?, reduceCtorEq, if_false,
    Nat.add_zero, List.count_nil, Nat.zero_add]
  case settle =>
    rw [List.count_singleton, Nat.add_comm]
    simp only [Option.some.injEq, beq_iff_eq]
  all_goals rfl

theorem Moves.replies (h : Moves k b signs settled b') (reply : Ticket) :
    settled.count reply + b'.count reply? reply = b.count reply? reply := by
  induction h with
  | rest => rw [List.count_nil, Nat.zero_add]
  | next _ move ih =>
    rw [List.count_append, Nat.add_assoc, move.replies reply, ih]

end

namespace World

variable {w w' : World} {moment : Moment} {creditCapacity : Nat}

theorem Posted.settlements (posted : w.Posted moment w') :
    w'.settlements = w.settlements ++ moment.turn.settled := by
  rw [posted.after, settlements_happen]

theorem Posted.requests (posted : w.Posted moment w') :
    w'.requests = w.requests ++ moment.event.reply?.toList := by
  rw [posted.after, requests_happen]

theorem count_owed (s : State) (asked : Option Ticket) (reply : Ticket) :
    (s.ledger (owed asked)).count reply? reply =
      (s.ledger 0).count reply? reply + asked.toList.count reply := by
  cases asked with
  | none => rfl
  | some asked =>
    rw [owed, State.ledger_hand, Ledger.count_plus, Option.toList_some, List.count_singleton]
    simp only [reply?, Option.some.injEq, beq_iff_eq]

/-- Every reply that was asked for was given, or something holds it. -/
theorem replies_of_reachable (h : Reachable creditCapacity w) (reply : Ticket) :
    w.settlements.count reply + (w.state.ledger 0).count reply? reply =
      w.requests.count reply := by
  induction h with
  | start =>
    show 0 + ((State.initial creditCapacity).ledger 0).count reply? reply = 0
    rw [count_initial]
  | next reached step ih =>
    obtain ⟨moment, hposted⟩ := posted_of_step (consistent_of_reachable reached) step
    have hmoves := hposted.moves.replies reply
    rw [count_owed] at hmoves
    rw [hposted.settlements, hposted.requests, List.count_append, List.count_append]
    omega

/-! ### Calls that release -/

theorem outstanding_of_builds (h : w.Consistent) {key : UnitKey} {operation : OperationId}
    (found : operation ∈ w.state.builds key) :
    ∃ unit, unit.key = key ∧ (operation, .build unit) ∈ w.outstanding := by
  obtain ⟨continuation, hget, htest⟩ := mem_keysWhere.1 found
  obtain ⟨call, hcall, hfits⟩ := h.outstanding hget
  cases continuation with
  | build unit =>
    cases call with
    | build other =>
      cases hfits
      exact ⟨unit, by simpa using htest, hcall⟩
    | _ => cases hfits
  | _ => cases htest

theorem outstanding_of_teardowns (h : w.Consistent) {key : UnitKey} {operation : OperationId}
    (found : operation ∈ w.state.teardowns key) :
    ∃ processor, processor.key = key ∧ (operation, .teardown processor) ∈ w.outstanding := by
  obtain ⟨continuation, hget, htest⟩ := mem_keysWhere.1 found
  obtain ⟨call, hcall, hfits⟩ := h.outstanding hget
  cases continuation with
  | teardown processor reply =>
    cases call with
    | teardown other =>
      cases hfits
      exact ⟨processor, by simpa using htest, hcall⟩
    | _ => cases hfits
  | _ => cases htest

theorem awaited_of_reachable (h : Reachable creditCapacity w) (key : UnitKey) :
    if w.state.pending.contains key then
      (w.state.builds key).length + (w.state.teardowns key).length = 1
    else (w.state.builds key).length = 0 := by
  rw [State.length_builds, State.length_teardowns]
  exact (consistent_of_reachable h).sound.awaited key

theorem released_by (h : Reachable creditCapacity w) {key : UnitKey}
    (waits : w.state.pending.contains key = true) :
    (∃ operation unit, unit.key = key ∧ (operation, .build unit) ∈ w.outstanding ∧
      w.state.builds key = [operation] ∧ w.state.teardowns key = []) ∨
    ∃ operation processor, processor.key = key ∧
      (operation, .teardown processor) ∈ w.outstanding ∧
      w.state.builds key = [] ∧ w.state.teardowns key = [operation] ∧
      w.state.retiring.contains key = true := by
  have hconsistent := consistent_of_reachable h
  have hone := awaited_of_reachable h key
  rw [if_pos waits] at hone
  rcases Nat.add_eq_one_iff.1 hone with ⟨hbuilds, hteardowns⟩ | ⟨hbuilds, hteardowns⟩
  · obtain ⟨operation, hoperation⟩ := List.length_eq_one_iff.1 hteardowns
    have hmem : operation ∈ w.state.teardowns key := by
      rw [hoperation]
      exact List.mem_singleton_self _
    obtain ⟨processor, hkey, hcall⟩ := outstanding_of_teardowns hconsistent hmem
    refine .inr ⟨operation, processor, hkey, hcall, ?_, hoperation, ?_⟩
    · exact List.length_eq_zero_iff.1 hbuilds
    · have hretiring := retiring_eq_length h key
      rw [hteardowns] at hretiring
      rw [Table.contains]
      cases hget : w.state.retiring.get? key with
      | none =>
        rw [hget] at hretiring
        cases hretiring
      | some count => rfl
  · obtain ⟨operation, hoperation⟩ := List.length_eq_one_iff.1 hbuilds
    have hmem : operation ∈ w.state.builds key := by
      rw [hoperation]
      exact List.mem_singleton_self _
    obtain ⟨unit, hkey, hcall⟩ := outstanding_of_builds hconsistent hmem
    exact .inl ⟨operation, unit, hkey, hcall, hoperation, List.length_eq_zero_iff.1 hteardowns⟩

/-! ### Rest -/

section

variable (h : Reachable creditCapacity w) (rest : w.outstanding = [])
include h rest

theorem continuations_of_rest (operation : OperationId) :
    w.state.continuations.get? operation = none := by
  by_contra hsome
  obtain ⟨continuation, hget⟩ := Option.ne_none_iff_exists'.1 hsome
  obtain ⟨call, hcall⟩ := (consistent_of_reachable h).noted operation continuation hget
  rw [rest] at hcall
  cases hcall

theorem pending_of_rest (key : UnitKey) : w.state.pending.contains key = false := by
  rw [← Bool.not_eq_true]
  intro waits
  rcases released_by h waits with ⟨_, _, -, hcall, -⟩ | ⟨_, _, -, hcall, -⟩
  all_goals
    rw [rest] at hcall
    cases hcall

theorem retiring_of_rest (key : UnitKey) : w.state.retiring.get? key = none := by
  have hteardowns : w.state.teardowns key = [] := by
    rw [List.eq_nil_iff_forall_not_mem]
    intro operation hmem
    obtain ⟨processor, -, hcall⟩ := outstanding_of_teardowns (consistent_of_reachable h) hmem
    rw [rest] at hcall
    cases hcall
  have hretiring := retiring_eq_length h key
  rw [hteardowns] at hretiring
  cases hget : w.state.retiring.get? key with
  | none => rfl
  | some count =>
    have hpos := (consistent_of_reachable h).orderly.retired key count hget
    rw [hget] at hretiring
    exact absurd hretiring (Nat.ne_of_gt hpos)

theorem count_reply_of_rest (reply : Ticket) : (w.state.ledger 0).count reply? reply = 0 := by
  rw [Ledger.count_eq_zero]
  intro thing held stands
  cases thing with
  | registered => cases stands
  | indexed => cases stands
  | waiting unit waiting =>
    obtain ⟨queue, hqueue, -⟩ := (State.waiting_mem_ledger.1 held).resolve_right
      (Multiset.notMem_zero _)
    have hpending := pending_of_rest h rest unit
    rw [Table.contains, hqueue] at hpending
    cases hpending
  | ongoing continuation =>
    obtain ⟨operation, hget⟩ := (State.ongoing_mem_ledger.1 held).resolve_right
      (Multiset.notMem_zero _)
    rw [continuations_of_rest h rest operation] at hget
    cases hget
  | owing reply =>
    -- the tables hold no reply by itself
    simp [State.ledger, State.holdings, mem_contents, bucketHoldings, queueHoldings] at held

end

theorem keys_eq_nil {κ α : Type} [DecidableEq κ] {table : Table κ α}
    (h : ∀ key, table.get? key = none) : table.keys = [] := by
  rw [List.eq_nil_iff_forall_not_mem]
  intro key
  exact get?_eq_none_iff.1 (h key)

/-- What waits for a unit waits for one call, the build of the unit or the teardown of the one
before it, and of a unit that is being built the subscriptions are known. When no call is
outstanding nothing waits and nothing is torn down, and all replies that were asked for have been
given, each as often as it was asked for. -/
theorem subscriptions_released (h : Reachable creditCapacity w) :
    (∀ key, w.state.pending.contains key = true →
      (∃ operation unit, unit.key = key ∧ (operation, .build unit) ∈ w.outstanding ∧
        w.state.builds key = [operation] ∧ w.state.teardowns key = []) ∨
      ∃ operation processor, processor.key = key ∧
        (operation, .teardown processor) ∈ w.outstanding ∧
        w.state.builds key = [] ∧ w.state.teardowns key = [operation] ∧
        w.state.retiring.contains key = true) ∧
    (∀ key, w.state.builds key ≠ [] → w.state.pending.contains key = true) ∧
    (w.outstanding = [] → w.state.pending.keys = [] ∧ w.state.retiring.keys = [] ∧
      w.settlements.Perm w.requests) := by
  refine ⟨fun key => released_by h, ?_, ?_⟩
  · intro key hbuilds
    by_contra hfree
    have hzero := awaited_of_reachable h key
    rw [if_neg hfree] at hzero
    exact hbuilds (List.length_eq_zero_iff.1 hzero)
  · intro rest
    refine ⟨keys_eq_nil ?_, keys_eq_nil (retiring_of_rest h rest), ?_⟩
    · intro key
      have hpending := pending_of_rest h rest key
      rw [Table.contains, Option.isSome_eq_false_iff, Option.isNone_iff_eq_none] at hpending
      exact hpending
    · rw [List.perm_iff_count]
      intro reply
      have hreplies := replies_of_reachable h reply
      rw [count_reply_of_rest h rest, Nat.add_zero] at hreplies
      exact hreplies

open Sample in
theorem subscriptions_released_sample :
    (∃ operation, deferred.state.teardowns unit.key = [operation]) ∧
      restarted.state.pending.contains unit.key = true ∧
      rested.state.pending.keys = [] ∧ rested.settlements.Perm [⟨0⟩, ⟨1⟩, ⟨2⟩] := by
  have hdeferred := (subscriptions_released reachable_deferred).1 unit.key (by decide +kernel)
  have hrestarted := (subscriptions_released reachable_restarted).2.1 unit.key (by decide +kernel)
  obtain ⟨hpending, -, hsettled⟩ :=
    (subscriptions_released reachable_rested).2.2 (by decide +kernel)
  refine ⟨?_, hrestarted, hpending, hsettled⟩
  rcases hdeferred with ⟨operation, -, -, -, hbuilds, -⟩ | ⟨operation, -, -, -, -, hteardowns, -⟩
  · have hnone : deferred.state.builds unit.key = [] := by decide +kernel
    rw [hnone] at hbuilds
    cases hbuilds
  · exact ⟨operation, hteardowns⟩

end World

end JobBroker.Manager
