import JobBroker.Proofs.Closings

/-!
# Processors that are given back

Every processor that was built is registered once, or its teardown was asked for once. Both are
counted together: a build that has ended puts one processor on either side, a processor that
leaves its bucket changes sides, and nothing else moves the balance. So it does not matter how
many reasons there are to give a processor up, nor in which order they come.
-/

namespace JobBroker.Manager

open Holding Table

def Holding.member? : Holding → Option ProcessorId
  | registered _ processor => some processor.id
  | _ => none

def Sign.discards (id : ProcessorId) : Sign → Bool
  | .discarded processor => processor.id = id
  | _ => false

def Call.discarded? (id : ProcessorId) : Call → Option Processor
  | .teardown processor => if processor.id = id then some processor else none
  | _ => none

/-- The places where a processor is registered: the partitions of the buckets, and what is found
there under its id. -/
def State.registrations (s : State) (id : ProcessorId) : List (PartitionId × Processor) :=
  s.buckets.entries.flatMap fun entry =>
    (entry.2.processors.filter fun processor => processor.id = id).map (Prod.mk entry.1)

/-- What the builder was asked to tear down under an id. -/
def World.discarded (w : World) (id : ProcessorId) : List Processor :=
  w.calls.filterMap fun call => call.2.discarded? id

/-! ### The balance of a move -/

section

open Ledger

variable {k : Knowledge} {b b' : Ledger} {signs : List Sign} {settled : List Ticket}
  {processor : Processor}

/-- An id that has been taken stands for a registration or for a teardown. -/
theorem Move.discards (h : Move k b signs settled b') (id : ProcessorId) :
    signs.countP (Sign.discards id) + b'.count member? id +
        (if id.val < b.nextProcessor then 1 else 0) =
      b.count member? id + if id.val < b'.nextProcessor then 1 else 0 := by
  cases h <;> simp only [count_acquire, count_release, count_await, count_forget, count_retire,
    count_unretire, count_takeKey, count_takeId, count_plus, member?, reduceCtorEq, if_false,
    Nat.add_zero, List.countP_nil, Nat.zero_add, List.countP_cons, Sign.discards,
    decide_eq_true_eq, Bool.false_eq_true, Option.some.injEq]
  case register b processor _ new | spare b processor _ new =>
    -- the id that is taken goes to a registration or to a teardown
    have hid : processor.id = id ↔ id.val = b.nextProcessor := by
      rw [new]
      cases id
      simp only [ProcessorId.mk.injEq, eq_comm]
    have htaken : (if id.val < b.nextProcessor + 1 then 1 else 0) =
        (if id.val = b.nextProcessor then 1 else 0) + if id.val < b.nextProcessor then 1 else 0 := by
      split <;> split <;> split <;> omega
    simp only [hid]
    change _ + (if id.val < b.nextProcessor then 1 else 0) =
      _ + if id.val < b.nextProcessor + 1 then 1 else 0
    omega
  case retire b processor _ =>
    show _ + _ + (if id.val < b.nextProcessor then 1 else 0) =
      _ + _ + if id.val < b.nextProcessor then 1 else 0
    omega
  all_goals rfl

theorem Moves.discards (h : Moves k b signs settled b') (id : ProcessorId) :
    signs.countP (Sign.discards id) + b'.count member? id +
        (if id.val < b.nextProcessor then 1 else 0) =
      b.count member? id + if id.val < b'.nextProcessor then 1 else 0 := by
  induction h with
  | rest => rw [List.countP_nil, Nat.zero_add]
  | next _ move ih =>
    have hlast := move.discards id
    rw [List.countP_append]
    omega

theorem Move.built_of_discarded (h : Move k b signs settled b') (sound : b.Sound k)
    (sign : .discarded processor ∈ signs) : k.built processor := by
  cases h
  case spare b new built id =>
    simp only [List.mem_cons, reduceCtorEq, Sign.discarded.injEq, List.not_mem_nil, or_false,
      false_or] at sign
    rw [sign]
    exact built
  case retire b old unused =>
    simp only [List.mem_cons, Sign.discarded.injEq, List.not_mem_nil, or_false] at sign
    rw [sign]
    exact (sound.proper _ (mem_plus.2 (.inr rfl))).2.1
  all_goals simp at sign

theorem Moves.built_of_discarded (h : Moves k b signs settled b') (sound : b.Sound k)
    (sign : .discarded processor ∈ signs) : k.built processor := by
  induction h with
  | rest => cases sign
  | next moves move ih =>
    rcases List.mem_append.1 sign with hold | hnew
    · exact ih hold
    · exact move.built_of_discarded (moves.keep (fun move => move.sound) sound) hnew

end

/-! ### Registrations of a state -/

namespace State

variable {s : State} {id : ProcessorId} {partition : PartitionId} {processor : Processor}

theorem mem_registrations :
    (partition, processor) ∈ s.registrations id ↔
      (∃ bucket, s.buckets.get? partition = some bucket ∧ processor ∈ bucket.processors) ∧
        processor.id = id := by
  simp only [registrations, List.mem_flatMap, List.mem_map, List.mem_filter, decide_eq_true_eq]
  constructor
  · rintro ⟨⟨other, bucket⟩, hentry, member, ⟨hmember, hid⟩, heq⟩
    cases heq
    exact ⟨⟨bucket, get?_eq_some_iff.2 hentry, hmember⟩, hid⟩
  · rintro ⟨⟨bucket, hget, hmember⟩, hid⟩
    exact ⟨(partition, bucket), get?_eq_some_iff.1 hget, processor, ⟨hmember, hid⟩, rfl⟩

theorem length_registrations (s : State) (id : ProcessorId) :
    (s.registrations id).length = (s.ledger 0).count member? id := by
  have hentries : ∀ entries : List (PartitionId × Bucket),
      (entries.map fun entry => bucketHoldings entry.1 entry.2).sum.countP
          (fun thing => member? thing = some id) =
        (entries.flatMap fun entry => (entry.2.processors.filter fun processor =>
          processor.id = id).map (Prod.mk entry.1)).length := by
    intro entries
    induction entries with
    | nil => rfl
    | cons entry rest ih =>
      rw [List.map_cons, List.sum_cons, Multiset.countP_add, ih, List.flatMap_cons,
        List.length_append, bucketHoldings, Multiset.coe_countP, List.countP_map, List.length_map,
        ← List.countP_eq_length_filter]
      simp only [Function.comp_def, member?, Option.some.injEq]
  rw [count_ledger, countP_pending (fun _ _ => rfl), Table.contents, hentries]
  simp [member?, registrations]

end State

/-! ### The balance of a run -/

namespace World

section

variable {w w' : World} {processor : Processor} {creditCapacity : Nat}

theorem discards_of_reachable (h : Reachable creditCapacity w) (id : ProcessorId) :
    w.signs.countP (Sign.discards id) + (w.state.ledger 0).count member? id =
      if id.val < w.state.nextProcessor then 1 else 0 := by
  induction h with
  | start =>
    show 0 + ((State.initial creditCapacity).ledger 0).count member? id = _
    rw [count_initial]
    rfl
  | @next w w' reached step ih =>
    obtain ⟨moment, hposted⟩ := posted_of_step (consistent_of_reachable reached) step
    have hmoves := hposted.moves.discards id
    rw [State.count_owed_none fun _ => rfl] at hmoves
    change _ + _ + (if id.val < w.state.nextProcessor then 1 else 0) =
      _ + if id.val < w'.state.nextProcessor then 1 else 0 at hmoves
    rw [hposted.signs, List.countP_append]
    omega

theorem built_of_discarded (h : Reachable creditCapacity w)
    (sign : .discarded processor ∈ w.signs) : processor ∈ w.built := by
  induction h with
  | start => cases sign
  | @next w w' reached step ih =>
    have hconsistent := consistent_of_reachable reached
    obtain ⟨moment, hposted⟩ := posted_of_step hconsistent step
    rw [hposted.signs, List.mem_append] at sign
    rcases sign with hold | hnew
    · rw [hposted.built]
      exact List.mem_append_left _ (ih hold)
    · exact hposted.moves.built_of_discarded (hposted.sound_before hconsistent) hnew

theorem mem_discarded {id : ProcessorId} :
    processor ∈ w.discarded id ↔
      (∃ operation, (operation, .teardown processor) ∈ w.calls) ∧ processor.id = id := by
  rw [discarded, List.mem_filterMap]
  constructor
  · rintro ⟨⟨operation, call⟩, hcall, hsome⟩
    cases call with
    | teardown other =>
      obtain ⟨hid, heq⟩ := Option.ite_none_right_eq_some.1 hsome
      cases heq
      exact ⟨⟨operation, hcall⟩, hid⟩
    | _ => cases hsome
  · rintro ⟨⟨operation, hcall⟩, hid⟩
    exact ⟨_, hcall, if_pos hid⟩

theorem countP_discards (calls : List (OperationId × Call)) (id : ProcessorId) :
    (calls.flatMap fun call => call.2.signs).countP (Sign.discards id) =
      (calls.filterMap fun call => call.2.discarded? id).length := by
  induction calls with
  | nil => rfl
  | cons call calls ih =>
    rw [List.flatMap_cons, List.countP_append, ih, List.length_filterMap_eq_countP,
      List.length_filterMap_eq_countP, List.countP_cons, Nat.add_comm]
    congr 1
    obtain ⟨operation, call⟩ := call
    cases call <;> simp [Call.signs, Call.discarded?, Sign.discards]

theorem countP_discards_event (event : Event) (id : ProcessorId) :
    event.signs.countP (Sign.discards id) = 0 := by
  unfold Event.signs
  split <;> rfl

theorem length_discarded (w : World) (id : ProcessorId) :
    (w.discarded id).length = w.signs.countP (Sign.discards id) := by
  rw [discarded, World.calls, signs]
  induction w.history with
  | nil => rfl
  | cons moment moments ih =>
    rw [List.flatMap_cons, List.filterMap_append, List.length_append, ih, List.flatMap_cons,
      List.countP_append, Moment.signs, List.countP_append, countP_discards_event, Nat.zero_add,
      countP_discards]

theorem eq_of_registrations (h : Reachable creditCapacity w) (built : processor ∈ w.built)
    {registration : PartitionId × Processor}
    (mem : registration ∈ w.state.registrations processor.id) :
    registration = (processor.partition, processor) := by
  obtain ⟨partition, other⟩ := registration
  obtain ⟨⟨bucket, hget, hmember⟩, hid⟩ := State.mem_registrations.1 mem
  have hconsistent := consistent_of_reachable h
  have hpartition := State.partition_of_registered hconsistent.sound.proper hget hmember
  have hother : other ∈ w.built :=
    (hconsistent.sound.proper _ (State.registered_mem_ledger.2 (.inl ⟨bucket, hget, hmember⟩))).2.1
  rw [← hpartition, hconsistent.distinct other processor hother built hid]

theorem eq_of_discarded (h : Reachable creditCapacity w) (built : processor ∈ w.built)
    {other : Processor} (mem : other ∈ w.discarded processor.id) : other = processor := by
  obtain ⟨⟨operation, hcall⟩, hid⟩ := mem_discarded.1 mem
  have hsign := mem_signs_of_calls hcall (List.mem_singleton_self _)
  exact (consistent_of_reachable h).distinct other processor (built_of_discarded h hsign) built hid

/-- A processor that was built is registered in the bucket of its partition, once, and was never
to be torn down; or it is registered nowhere, and the builder was asked once to tear it down. -/
theorem registered_or_discarded (h : Reachable creditCapacity w) (built : processor ∈ w.built) :
    (w.state.registrations processor.id = [(processor.partition, processor)] ∧
        w.discarded processor.id = []) ∨
      w.state.registrations processor.id = [] ∧ w.discarded processor.id = [processor] := by
  have hbalance := discards_of_reachable h processor.id
  rw [if_pos ((consistent_of_reachable h).built processor built), ← length_discarded,
    ← State.length_registrations] at hbalance
  rcases Nat.add_eq_one_iff.1 hbalance with ⟨hdiscarded, hregistered⟩ | ⟨hdiscarded, hregistered⟩
  · refine .inl ⟨List.eq_replicate_iff.2 ⟨hregistered, ?_⟩, List.length_eq_zero_iff.1 hdiscarded⟩
    exact fun _ => eq_of_registrations h built
  · refine .inr ⟨List.length_eq_zero_iff.1 hregistered, List.eq_replicate_iff.2 ⟨hdiscarded, ?_⟩⟩
    exact fun _ => eq_of_discarded h built

theorem built_of_steps (steps : Relation.ReflTransGen Step w w') :
    w.built.Sublist w'.built := (history_of_steps steps).sublist.filterMap _

theorem discarded_of_steps (steps : Relation.ReflTransGen Step w w') (id : ProcessorId) :
    (w.discarded id).Sublist (w'.discarded id) :=
  ((history_of_steps steps).sublist.flatMap _).filterMap _

/-- From the moment that its build has ended on, a processor is registered in the bucket of its
partition, once, and no teardown was asked for; or it is registered nowhere, and the builder was
asked once to tear it down, with the unit it was built for. Once it has left it does not come
back. -/
theorem torn_down_once (h : Reachable creditCapacity w) (built : processor ∈ w.built)
    (steps : Relation.ReflTransGen Step w w') :
    ((w'.state.registrations processor.id = [(processor.partition, processor)] ∧
        w'.discarded processor.id = []) ∨
      w'.state.registrations processor.id = [] ∧ w'.discarded processor.id = [processor]) ∧
    (w.state.registrations processor.id = [] → w'.state.registrations processor.id = []) := by
  have hlater := registered_or_discarded (reachable_of_steps h steps)
    ((built_of_steps steps).subset built)
  refine ⟨hlater, ?_⟩
  intro hleft
  -- the teardown that was asked for stays asked for
  have hasked : w.discarded processor.id = [processor] := by
    rcases registered_or_discarded h built with ⟨hregistered, -⟩ | ⟨-, hdiscarded⟩
    · rw [hleft] at hregistered
      cases hregistered
    · exact hdiscarded
  have hmem : processor ∈ w'.discarded processor.id :=
    (discarded_of_steps steps processor.id).subset (hasked ▸ List.mem_singleton_self _)
  rcases hlater with ⟨-, hnone⟩ | ⟨hgone, -⟩
  · rw [hnone] at hmem
    cases hmem
  · exact hgone

end

open Sample in
theorem torn_down_once_sample :
    (active.state.registrations ⟨0⟩ = [(⟨1⟩, processor)] ∧ active.discarded ⟨0⟩ = []) ∧
      (retired.state.registrations ⟨0⟩ = [] ∧ retired.discarded ⟨0⟩ = [processor]) ∧
      restarted.state.registrations ⟨0⟩ = [] := by
  have hbuilt : processor ∈ active.built := by decide +kernel
  have hsteps : Relation.ReflTransGen Step active retired :=
    (Relation.ReflTransGen.single (.tell _ rfl)).tail step_retired
  have hon : Relation.ReflTransGen Step retired restarted :=
    (Relation.ReflTransGen.single (.tell _ rfl)).tail (.finish _ _ (by decide +kernel) _)
  have hretired : Reachable 2 retired := reachable_removing.next step_retired
  have hlater : processor ∈ retired.built := (built_of_steps hsteps).subset hbuilt
  refine ⟨?_, ?_, (torn_down_once hretired hlater hon).2 (by decide +kernel)⟩
  · exact (torn_down_once reachable_active hbuilt .refl).1.resolve_right (by decide +kernel)
  · exact (torn_down_once reachable_active hbuilt hsteps).1.resolve_left (by decide +kernel)

end World

end JobBroker.Manager
