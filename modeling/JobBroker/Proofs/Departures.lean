import JobBroker.Proofs.References

/-!
# Processors that leave

A processor leaves its bucket when a call has ended and nothing refers to it any more, or when
its whole bucket is given up and no index entry leads there. Once its teardown was asked for it is
registered nowhere, and never will be again.
-/

namespace JobBroker.Manager

open Holding Table

namespace Ledger

/-- A processor that is gone has had its id, and is registered nowhere. -/
def Gone (b : Ledger) (processor : Processor) : Prop :=
  processor.id.val < b.nextProcessor ∧
    ∀ partition, registered partition processor ∉ b.holdings

end Ledger

open Ledger

theorem Knowledge.told_of_cleared {k : Knowledge} {partition : PartitionId}
    (h : k.cleared partition) : k.told := by
  obtain ⟨event, hevent, hcleared⟩ := h
  cases event with
  | told message => exact ⟨message, hevent⟩
  | _ => cases hcleared

section

variable {k : Knowledge} {b b' : Ledger} {signs : List Sign} {settled : List Ticket}
  {processor : Processor}

/-! ### What is gone stays gone -/

theorem Move.registered_back (h : Move k b signs settled b') {partition : PartitionId}
    (held : registered partition processor ∈ b'.holdings) :
    registered partition processor ∈ b.holdings ∨ processor.id.val = b.nextProcessor := by
  cases h
  case register b new built id =>
    rcases mem_plus.1 held with held | heq
    · exact .inl (mem_plus.2 (.inl held))
    · cases heq
      exact .inr (congrArg ProcessorId.val id)
  case defer => exact .inl held
  all_goals
    simp only [mem_plus, reduceCtorEq, or_false] at held ⊢
    first
    | exact .inl held
    | exact .inl (.inl held)

theorem Move.gone (h : Move k b signs settled b') (before : b.Gone processor) :
    b'.Gone processor := by
  refine ⟨?_, ?_⟩
  · rw [h.nextProcessor]
    exact Nat.lt_of_lt_of_le before.1 (Nat.le_add_right ..)
  · intro partition held
    rcases h.registered_back held with hold | hnew
    · exact before.2 partition hold
    · exact Nat.ne_of_lt before.1 hnew

theorem Move.discarded (h : Move k b signs settled b') (sound : b.Sound k)
    (sign : .discarded processor ∈ signs) : b'.Gone processor := by
  cases h
  case spare b new built id =>
    simp only [List.mem_cons, reduceCtorEq, Sign.discarded.injEq, List.not_mem_nil, or_false,
      false_or] at sign
    subst sign
    refine ⟨?_, ?_⟩
    · rw [id]
      exact Nat.lt_succ_self _
    · intro partition held
      have hold : registered partition processor ∈
          (b.plus {ongoing (.build processor.unit)}).holdings :=
        mem_plus.2 (.inl ((mem_plus.1 held).resolve_right (by simp)))
      have hlt := (sound.proper _ hold).2.2
      rw [id] at hlt
      exact Nat.lt_irrefl _ hlt
  case retire b old unused =>
    simp only [List.mem_cons, Sign.discarded.injEq, List.not_mem_nil, or_false] at sign
    subst sign
    have hheld : registered processor.partition processor ∈
        (b.plus {registered processor.partition processor}).holdings := mem_plus.2 (.inr rfl)
    refine ⟨(sound.proper _ hheld).2.2, ?_⟩
    intro partition held
    -- it would have been registered twice
    have hold : registered partition processor ∈ b.holdings :=
      (mem_plus.1 held).resolve_right (by simp)
    have hunits := sound.units processor.key
    have hpos : 0 < b.count serving? processor.key := count_pos hold rfl
    have hserving : (b.plus {registered processor.partition processor}).count serving?
        processor.key = b.count serving? processor.key + 1 := by
      rw [count_plus, serving?, if_pos rfl]
    omega
  all_goals simp at sign

theorem Moves.gone (h : Moves k b signs settled b') (before : b.Gone processor) :
    b'.Gone processor := h.keep (fun move => move.gone) before

theorem Moves.discarded (h : Moves k b signs settled b') (sound : b.Sound k)
    (sign : .discarded processor ∈ signs) : b'.Gone processor := by
  induction h with
  | rest => cases sign
  | next moves move ih =>
    rcases List.mem_append.1 sign with hold | hnew
    · exact move.gone (ih hold)
    · exact move.discarded (moves.keep (fun move => move.sound) sound) hnew

/-! ### Why a processor leaves -/

/-- Nothing refers to a processor that is gone, if nothing did when it left. -/
theorem Move.dispensable (h : Move k b signs settled b') (sound : b.Sound k)
    (distinct : k.Distinct) (known : k.built processor) (gone : b.Gone processor)
    (before : b.Dispensable k processor) : b'.Dispensable k processor := by
  rcases before with ⟨huntold, hzero⟩ | ⟨hcleared, hnone⟩
  · refine .inl ⟨huntold, ?_⟩
    cases h
    case hand b key w other registered jobType =>
      have hheld := registered
      have hother : other.id ≠ processor.id := by
        intro heq
        have hbuilt := (sound.proper _ (mem_plus.2 (.inl hheld))).2.1
        rw [distinct other processor hbuilt known heq] at hheld
        exact gone.2 key.partition (mem_plus.2 (.inl hheld))
      show (if processor.id = other.id then _ else b.references processor.id) = 0
      rw [if_neg (Ne.symm hother)]
      exact hzero
    case refuse b key connection other reply closed =>
      show (if processor.id = other.id then b.references processor.id - 1
        else b.references processor.id) = 0
      have hsame : b.references processor.id = 0 := hzero
      rw [hsame]
      split <;> rfl
    case unindex b key entry told => exact absurd told huntold
    all_goals exact hzero
  · refine .inr ⟨hcleared, ?_⟩
    cases h
    case accept untold => exact absurd (Knowledge.told_of_cleared hcleared) untold
    case defer => exact hnone
    all_goals
      intro key entry held
      simp only [mem_plus, reduceCtorEq, or_false] at held hnone
      first
      | exact hnone key entry held
      | exact hnone key entry (.inl held)

theorem Move.leaves (h : Move k b signs settled b') (sound : b.Sound k)
    (here : registered processor.partition processor ∈ b.holdings) :
    registered processor.partition processor ∈ b'.holdings ∨
      b'.Gone processor ∧ b'.Dispensable k processor := by
  cases h
  case retire b other unused =>
    rcases mem_plus.1 here with hstays | heq
    · exact .inl (mem_plus.2 (.inl hstays))
    · obtain ⟨-, rfl⟩ := Holding.registered.inj heq
      have hgone := (Move.retire b processor unused).discarded sound (List.mem_singleton_self _)
      refine .inr ⟨hgone, unused.imp id ?_⟩
      rintro ⟨hcleared, hnone⟩
      refine ⟨hcleared, ?_⟩
      intro key entry held
      rcases mem_plus.1 held with held | heq
      · exact hnone key entry held
      · cases heq
  case defer => exact .inl here
  all_goals
    refine .inl ?_
    simp only [mem_plus, reduceCtorEq, or_false] at here ⊢
    first
    | exact here
    | exact .inl here

/-- In the course of a turn a processor stays registered, or it is gone and was dispensable. -/
theorem Moves.leaves (h : Moves k b signs settled b') (sound : b.Sound k) (distinct : k.Distinct)
    (here : registered processor.partition processor ∈ b.holdings) :
    registered processor.partition processor ∈ b'.holdings ∨
      b'.Gone processor ∧ b'.Dispensable k processor := by
  have hknown : k.built processor := (sound.proper _ here).2.1
  induction h with
  | rest => exact .inl here
  | next moves move ih =>
    have hsound := moves.keep (fun move => move.sound) sound
    rcases ih with hstays | ⟨hgone, hdispensable⟩
    · exact move.leaves hsound hstays
    · exact .inr ⟨move.gone hgone, move.dispensable hsound distinct hknown hgone hdispensable⟩

theorem Move.indexed (h : Move k b signs settled b') (untold : ¬k.told) {key : SubscriberKey}
    {entry : IndexEntry} (held : indexed key entry ∈ b.holdings) :
    indexed key entry ∈ b'.holdings := by
  cases h
  case unindex told => exact absurd told untold
  case defer => exact held
  all_goals
    simp only [mem_plus, reduceCtorEq, or_false] at held ⊢
    first
    | exact held
    | exact .inl held

end

/-! ### Buckets that are given up -/

namespace State

theorem buckets_tearDown (s : State) (processors : List Processor) :
    (s.forEach processors fun s processor => s.teardown processor none).state.buckets =
      s.buckets := by
  induction processors generalizing s with
  | nil => rfl
  | cons processor processors ih =>
    rw [forEach, Turn.state_andThen, ih]
    rfl

theorem buckets_discardBucket (s : State) (partition : PartitionId) (bucket : Option Bucket) :
    (s.discardBucket partition bucket).state.buckets = s.buckets := by
  have hpurge : (s.purge fun entry => entry.processor.partition = partition).buckets =
      s.buckets := by rw [purge, unindexAll_eq]
  cases bucket with
  | none => exact hpurge
  | some bucket => exact (buckets_tearDown _ bucket.processors).trans hpurge

/-- A partition that is cleared is not registered, or registered anew without processors. -/
theorem processors_of_cleared {s : State} {message : Message} {partition : PartitionId}
    (cleared : message.cleared? = some partition) {bucket : Bucket}
    (found : (s.handle message).state.buckets.get? partition = some bucket) :
    bucket.processors = [] := by
  cases message with
  | addPartition new service =>
    cases cleared
    have hbuckets : (s.addPartition new service).state.buckets =
        s.buckets.insert new.id { partition := new, service } := by
      unfold addPartition
      dsimp only
      split
      next => rfl
      next bucket _ => exact buckets_discardBucket _ new.id (some bucket)
    rw [handle, hbuckets, get?_insert_self] at found
    rw [← Option.some.inj found]
  | removePartition old =>
    cases cleared
    rw [handle, removePartition, buckets_discardBucket, get?_erase_self] at found
    cases found
  | _ => cases cleared

theorem gone_owed {s : State} {processor : Processor} (gone : (s.ledger 0).Gone processor)
    (asked : Option Ticket) : (s.ledger (owed asked)).Gone processor := by
  refine ⟨gone.1, fun partition held => gone.2 partition ?_⟩
  exact registered_mem_ledger.2 (.inl (registered_mem_owed.1 held))

end State

/-! ### Departures in a run -/

namespace World

variable {w w' : World} {moment : Moment} {processor : Processor} {creditCapacity : Nat}

theorem gone_of_discarded (h : Reachable creditCapacity w)
    (sign : .discarded processor ∈ w.signs) : (w.state.ledger 0).Gone processor := by
  induction h with
  | start => cases sign
  | next reached step ih =>
    have hconsistent := consistent_of_reachable reached
    obtain ⟨moment, hposted⟩ := posted_of_step hconsistent step
    rw [hposted.signs, List.mem_append] at sign
    rcases sign with hold | hnew
    · exact hposted.moves.gone (State.gone_owed (ih hold) _)
    · exact hposted.moves.discarded (hposted.sound_before hconsistent) hnew

theorem registered_of_processors (h : Reachable creditCapacity w)
    (member : processor ∈ w.state.processors) (hand : Multiset Holding) :
    registered processor.partition processor ∈ (w.state.ledger hand).holdings := by
  obtain ⟨partition, bucket, hget, hmember⟩ := State.mem_processors.1 member
  have hpartition := State.partition_of_registered (consistent_of_reachable h).sound.proper hget
    hmember
  rw [hpartition]
  exact State.registered_mem_ledger.2 (.inl ⟨bucket, hget, hmember⟩)

theorem Posted.event? (posted : w.Posted moment w') : w'.knowledge.event? = some moment.event := by
  rw [posted.after, knowledge, happen, List.getLast?_concat]
  rfl

theorem Posted.distinct (h : w.Consistent) (posted : w.Posted moment w') :
    w'.knowledge.Distinct := by
  rw [posted.after]
  exact h.distinct_happen moment.event moment.turn

theorem Posted.adding (h : w.Consistent) (posted : w.Posted moment w') {id : ProcessorId}
    {operation : OperationId} (found : operation ∈ w.state.addingOn id)
    (going : moment.event.ended? ≠ some operation) : operation ∈ w'.state.addingOn id := by
  obtain ⟨continuation, hget, htest⟩ := mem_keysWhere.1 found
  obtain ⟨call, hcall, hfits⟩ := h.outstanding hget
  obtain ⟨later, hlater, hfits'⟩ := posted.awaits h _ (posted.stays hcall going)
  refine mem_keysWhere.2 ⟨later, hlater, ?_⟩
  cases continuation with
  | subscribe key connection processor reply closed =>
    cases call with
    | add other subscription =>
      obtain ⟨rfl, -⟩ := hfits
      cases later with
      | subscribe key' connection' processor' reply' closed' =>
        obtain ⟨rfl, -⟩ := hfits'
        exact htest
      | _ => cases hfits'
    | _ => cases hfits
  | _ => cases htest

theorem Posted.index_of_untold (posted : w.Posted moment w') (untold : ¬w'.knowledge.told)
    {key : SubscriberKey} {entry : IndexEntry} (found : w.state.index.get? key = some entry) :
    w'.state.index.get? key = some entry := by
  have hheld : Holding.indexed key entry ∈ (w.state.ledger (owed moment.event.reply?)).holdings :=
    State.indexed_mem_ledger.2 (.inl found)
  have hlater := posted.moves.keep (P := fun b => Holding.indexed key entry ∈ b.holdings)
    (fun move => move.indexed untold) hheld
  exact (State.indexed_mem_ledger.1 hlater).resolve_right (Multiset.notMem_zero _)

theorem Posted.indexed (posted : w.Posted moment w') (untold : ¬w'.knowledge.told)
    {id : ProcessorId} {key : SubscriberKey} (found : key ∈ w.state.indexedOn id) :
    key ∈ w'.state.indexedOn id := by
  obtain ⟨entry, hget, htest⟩ := mem_keysWhere.1 found
  exact mem_keysWhere.2 ⟨entry, posted.index_of_untold untold hget, htest⟩

/-- Where a call has ended and nothing refers to a processor any more, nothing did before but
perhaps an addition that has just ended. -/
theorem Posted.unreferenced (h : w.Consistent) (posted : w.Posted moment w')
    (untold : ¬w'.knowledge.told) {id : ProcessorId} (indexed : w'.state.indexedOn id = [])
    (adding : w'.state.addingOn id = []) :
    w.state.indexedOn id = [] ∧
      ∀ operation ∈ w.state.addingOn id, moment.event.ended? = some operation := by
  refine ⟨?_, ?_⟩
  · rw [List.eq_nil_iff_forall_not_mem] at indexed ⊢
    intro key found
    exact indexed key (posted.indexed untold found)
  · intro operation found
    by_contra going
    have hlater := posted.adding h found going
    rw [adding] at hlater
    cases hlater

theorem Posted.emptied (posted : w.Posted moment w') {partition : PartitionId}
    (cleared : moment.event.cleared? = some partition) {bucket : Bucket}
    (found : w'.state.buckets.get? partition = some bucket) : bucket.processors = [] := by
  cases hevent : moment.event with
  | told message =>
    rw [posted.state, posted.told message hevent] at found
    rw [hevent] at cleared
    exact State.processors_of_cleared cleared found
  | _ =>
    rw [hevent] at cleared
    cases cleared

end World

end JobBroker.Manager
