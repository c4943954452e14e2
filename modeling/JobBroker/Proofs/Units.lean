import JobBroker.Proofs.Worlds

/-!
# One unit at a time

For a partition and a job type there is at most one unit: it is being built, or its processor is
registered, or it is being torn down. What the builder and the units see of it is a life that
passes through these phases one by one, and begins again only after it has ended.
-/

namespace JobBroker.Manager

open Holding Table

/-! ### The life of a unit -/

inductive Phase where
  | absent
  | building
  | running
  | stopping
  deriving DecidableEq

/-- Where a sign leads. A sign that is out of place leads nowhere. -/
def Phase.next : Phase → Sign → Option Phase
  | .absent, .asked _ => some .building
  | .building, .built _ => some .running
  | .building, .failed _ => some .absent
  | .running, .discarded _ => some .stopping
  | .stopping, .stopped _ => some .absent
  | _, _ => none

def Sign.concerns (key : UnitKey) : Sign → Bool
  | .asked unit => unit.key = key
  | .built unit => unit.key = key
  | .failed unit => unit.key = key
  | .handed _ _ => false
  | .discarded processor => processor.key = key
  | .stopped processor => processor.key = key

def Phase.after (key : UnitKey) (phase : Phase) (signs : List Sign) : Option Phase :=
  (signs.filter (Sign.concerns key)).foldlM Phase.next phase

/-- The phase that the units for a key have come to, if every sign was in its place. -/
def World.life (w : World) (key : UnitKey) : Option Phase := Phase.absent.after key w.signs

theorem Phase.after_append (key : UnitKey) (phase : Phase) (signs signs' : List Sign) :
    phase.after key (signs ++ signs') =
      (phase.after key signs).bind fun phase => phase.after key signs' := by
  rw [Phase.after, List.filter_append, List.foldlM_append]
  rfl

/-- The unit that a thing belongs to, and the phase that it shows. -/
def Holding.stage? : Holding → Option (UnitKey × Phase)
  | ongoing (.build unit) => some (unit.key, .building)
  | registered _ processor => some (processor.key, .running)
  | ongoing (.teardown processor _) => some (processor.key, .stopping)
  | _ => none

namespace Ledger

variable {b : Ledger} {key : UnitKey} {phase : Phase}

/-- Of the things in a ledger those that belong to the unit for a key show one phase. -/
def At (b : Ledger) (key : UnitKey) (phase : Phase) : Prop :=
  ∀ shown, shown ≠ .absent → b.count stage? (key, shown) = if phase = shown then 1 else 0

theorem count_building (b : Ledger) (key : UnitKey) :
    b.count stage? (key, .building) = b.count building? key := by
  refine Multiset.countP_congr rfl fun thing _ => ?_
  rcases thing with _ | _ | _ | continuation | _
  case ongoing => cases continuation <;> simp [stage?, building?]
  all_goals simp [stage?, building?]

theorem count_running (b : Ledger) (key : UnitKey) :
    b.count stage? (key, .running) = b.count serving? key := by
  refine Multiset.countP_congr rfl fun thing _ => ?_
  rcases thing with _ | _ | _ | continuation | _
  case ongoing => cases continuation <;> simp [stage?, serving?]
  all_goals simp [stage?, serving?]

theorem count_stopping (b : Ledger) (key : UnitKey) :
    b.count stage? (key, .stopping) = b.count stopping? key := by
  refine Multiset.countP_congr rfl fun thing _ => ?_
  rcases thing with _ | _ | _ | continuation | _
  case ongoing => cases continuation <;> simp [stage?, stopping?]
  all_goals simp [stage?, stopping?]

theorem at_plus_none {thing : Holding} (h : thing.stage? = none) :
    (b.plus {thing}).At key phase ↔ b.At key phase := by
  simp only [At, count_plus_none h]

/-- A thing shows its phase where there is nothing else of its unit, and for other units it does
not count. -/
theorem at_plus {thing : Holding} {unit : UnitKey} {shown : Phase} (present : shown ≠ .absent)
    (h : thing.stage? = some (unit, shown)) :
    (b.plus {thing}).At key phase ↔
      unit = key ∧ phase = shown ∧ b.At key .absent ∨ unit ≠ key ∧ b.At key phase := by
  simp only [At, count_plus, h, Option.some.injEq, Prod.mk.injEq]
  by_cases hkey : unit = key
  · simp only [hkey, true_and, ne_eq, not_true_eq_false, false_and, or_false]
    constructor
    · intro hcount
      have hshown := hcount shown present
      rw [if_pos rfl] at hshown
      have hphase : phase = shown := by
        by_contra hne
        rw [if_neg hne] at hshown
        omega
      refine ⟨hphase, fun other hother => ?_⟩
      have hle := hcount other hother
      rw [hphase] at hle
      rw [if_neg (Ne.symm hother)]
      split at hle <;> omega
    · rintro ⟨rfl, hnone⟩ other hother
      rw [hnone other hother, if_neg (Ne.symm hother), Nat.zero_add]
  · simp only [hkey, false_and, if_false, Nat.add_zero, ne_eq, not_false_eq_true, true_and,
      false_or]

theorem at_build {unit : ActivationUnit} :
    (b.plus {ongoing (.build unit)}).At key phase ↔
      unit.key = key ∧ phase = .building ∧ b.At key .absent ∨ unit.key ≠ key ∧ b.At key phase :=
  at_plus (by decide) rfl

theorem at_registered {partition : PartitionId} {processor : Processor} :
    (b.plus {registered partition processor}).At key phase ↔
      processor.key = key ∧ phase = .running ∧ b.At key .absent ∨
        processor.key ≠ key ∧ b.At key phase := at_plus (by decide) rfl

theorem at_teardown {processor : Processor} {reply : Option Ticket} :
    (b.plus {ongoing (.teardown processor reply)}).At key phase ↔
      processor.key = key ∧ phase = .stopping ∧ b.At key .absent ∨
        processor.key ≠ key ∧ b.At key phase := at_plus (by decide) rfl

theorem Sound.at_absent {k : Knowledge} (h : b.Sound k) {unit : UnitKey}
    (new : b.awaited unit = false) (rested : b.retiring unit = 0)
    (absent : ∀ processor, registered unit.partition processor ∈ b.holdings →
      processor.jobType ≠ unit.jobType) : b.At unit .absent := by
  have hawaited := h.awaited unit
  rw [new] at hawaited
  have hretired := (h.retired unit).symm.trans rested
  intro shown hshown
  rw [if_neg (Ne.symm hshown)]
  cases shown with
  | absent => exact absurd rfl hshown
  | building =>
    rw [count_building]
    exact hawaited
  | running =>
    rw [count_running]
    exact h.serving_eq_zero absent
  | stopping =>
    rw [count_stopping]
    exact hretired

theorem At.eq_absent (h : b.At key phase) (absent : b.At key .absent) : phase = .absent := by
  by_contra hne
  have hone := h phase hne
  rw [absent phase hne, if_pos rfl, if_neg (Ne.symm hne)] at hone
  cases hone

end Ledger

open Ledger in
/-- A move takes the units for a key on by what it shows of them, or leaves them alone. -/
theorem Move.life {k : Knowledge} {b b' : Ledger} {signs : List Sign} {settled : List Ticket}
    (h : Move k b signs settled b') (sound : b.Sound k) {key : UnitKey} {phase : Phase}
    (before : b.At key phase) :
    ∃ phase', phase.after key signs = some phase' ∧ b'.At key phase' := by
  cases h
  case ask unit new rested absent =>
    by_cases hkey : unit.key = key
    · subst hkey
      have habsent := sound.at_absent new rested absent
      have hphase := before.eq_absent habsent
      subst hphase
      refine ⟨.building, ?_, at_build.2 (.inl ⟨rfl, rfl, habsent⟩)⟩
      simp [Phase.after, Sign.concerns, Phase.next]
    · refine ⟨phase, ?_, at_build.2 (.inr ⟨hkey, before⟩)⟩
      simp [Phase.after, Sign.concerns, hkey]
  case fail b unit =>
    rcases at_build.1 before with ⟨hkey, rfl, habsent⟩ | ⟨hkey, hrest⟩
    · refine ⟨.absent, ?_, habsent⟩
      simp [Phase.after, Sign.concerns, Phase.next, hkey]
    · refine ⟨phase, ?_, hrest⟩
      simp [Phase.after, Sign.concerns, hkey]
  case register b processor _ _ =>
    have hunit : processor.unit.key = processor.key := rfl
    rcases at_build.1 before with ⟨hkey, rfl, habsent⟩ | ⟨hkey, hrest⟩
    · refine ⟨.running, ?_, at_registered.2 (.inl ⟨hkey, rfl, habsent⟩)⟩
      simp [Phase.after, Sign.concerns, Phase.next, hkey]
    · refine ⟨phase, ?_, at_registered.2 (.inr ⟨hkey, hrest⟩)⟩
      simp [Phase.after, Sign.concerns, hkey]
  case spare b processor _ _ =>
    have hunit : processor.unit.key = processor.key := rfl
    rcases at_build.1 before with ⟨hkey, rfl, habsent⟩ | ⟨hkey, hrest⟩
    · refine ⟨.stopping, ?_, at_teardown.2 (.inl ⟨hkey, rfl, habsent⟩)⟩
      simp [Phase.after, Sign.concerns, Phase.next, hkey, ← hunit]
    · refine ⟨phase, ?_, at_teardown.2 (.inr ⟨hkey, hrest⟩)⟩
      simp [Phase.after, Sign.concerns, hkey, ← hunit]
  case retire b processor _ =>
    rcases at_registered.1 before with ⟨hkey, rfl, habsent⟩ | ⟨hkey, hrest⟩
    · refine ⟨.stopping, ?_, at_teardown.2 (.inl ⟨hkey, rfl, habsent⟩)⟩
      simp [Phase.after, Sign.concerns, Phase.next, hkey]
    · refine ⟨phase, ?_, at_teardown.2 (.inr ⟨hkey, hrest⟩)⟩
      simp [Phase.after, Sign.concerns, hkey]
  case stop b processor _ | stopForgotten b processor =>
    rcases at_teardown.1 before with ⟨hkey, rfl, habsent⟩ | ⟨hkey, hrest⟩
    · refine ⟨.absent, ?_, habsent⟩
      simp [Phase.after, Sign.concerns, Phase.next, hkey]
    · refine ⟨phase, ?_, hrest⟩
      simp [Phase.after, Sign.concerns, hkey]
  case restart b processor unit same _ =>
    rcases at_teardown.1 before with ⟨hkey, rfl, habsent⟩ | ⟨hkey, hrest⟩
    · refine ⟨.building, ?_, at_build.2 (.inl ⟨same.trans hkey, rfl, habsent⟩)⟩
      simp [Phase.after, Sign.concerns, Phase.next, hkey, same]
    · refine ⟨phase, ?_, at_build.2 (.inr ⟨same ▸ hkey, hrest⟩)⟩
      simp [Phase.after, Sign.concerns, hkey, same]
  case entrust =>
    rw [at_plus_none rfl, at_teardown] at before
    exact ⟨phase, rfl, at_teardown.2 before⟩
  case answer =>
    rw [at_teardown] at before
    exact ⟨phase, rfl, (at_plus_none rfl).2 (at_teardown.2 before)⟩
  case settle | unindex | swept => exact ⟨phase, rfl, (at_plus_none rfl).1 before⟩
  case defer => exact ⟨phase, rfl, before⟩
  case sweep => exact ⟨phase, rfl, (at_plus_none rfl).2 before⟩
  case accept =>
    have hrest := (at_plus_none rfl).1 before
    exact ⟨phase, rfl, (at_plus_none rfl).2 ((at_plus_none rfl).2 hrest)⟩
  all_goals exact ⟨phase, rfl, (at_plus_none rfl).2 ((at_plus_none rfl).1 before)⟩

theorem Moves.life {k : Knowledge} {b b' : Ledger} {signs : List Sign} {settled : List Ticket}
    (h : Moves k b signs settled b') (sound : b.Sound k) {key : UnitKey} {phase : Phase}
    (before : b.At key phase) :
    ∃ phase', phase.after key signs = some phase' ∧ b'.At key phase' := by
  induction h with
  | rest => exact ⟨phase, rfl, before⟩
  | next moves move ih =>
    obtain ⟨middle, hmiddle, hat⟩ := ih
    obtain ⟨last, hlast, hend⟩ := move.life (moves.keep (fun move => move.sound) sound) hat
    refine ⟨last, ?_, hend⟩
    rw [Phase.after_append, hmiddle]
    exact hlast

/-! ### The units of a state -/

namespace State

def builds (s : State) (key : UnitKey) : List OperationId :=
  s.continuations.keysWhere fun
    | .build unit => unit.key = key
    | _ => false

def teardowns (s : State) (key : UnitKey) : List OperationId :=
  s.continuations.keysWhere fun
    | .teardown processor _ => processor.key = key
    | _ => false

def serving (s : State) (key : UnitKey) : List Processor :=
  match s.buckets.get? key.partition with
  | none => []
  | some bucket => bucket.processors.filter fun processor => processor.jobType = key.jobType

variable {s : State}

theorem length_builds (s : State) (key : UnitKey) :
    (s.builds key).length = (s.ledger 0).count building? key := by
  refine (count_calls (fun _ _ => rfl) (fun _ _ => rfl) (fun _ _ => rfl) ?_).symm
  intro continuation
  cases continuation <;> simp [building?]

theorem length_teardowns (s : State) (key : UnitKey) :
    (s.teardowns key).length = (s.ledger 0).count stopping? key := by
  refine (count_calls (fun _ _ => rfl) (fun _ _ => rfl) (fun _ _ => rfl) ?_).symm
  intro continuation
  cases continuation <;> simp [stopping?]

theorem countP_elsewhere {k : Knowledge} (proper : (s.ledger 0).Proper k) (key : UnitKey) :
    ((s.buckets.erase key.partition).contents bucketHoldings).countP
      (fun thing => serving? thing = some key) = 0 := by
  rw [Multiset.countP_eq_zero]
  intro thing hmem stands
  obtain ⟨partition, bucket, hget, hthing⟩ := mem_contents.1 hmem
  obtain ⟨processor, hmember, rfl⟩ := List.mem_map.1 (Multiset.mem_coe.1 hthing)
  have hkey : processor.key = key := Option.some.inj stands
  rw [get?_erase] at hget
  split at hget
  next => cases hget
  next hne =>
    have hpartition := partition_of_registered proper hget hmember
    exact hne (hpartition.symm.trans (congrArg UnitKey.partition hkey))

theorem length_serving {k : Knowledge} (proper : (s.ledger 0).Proper k) (key : UnitKey) :
    (s.serving key).length = (s.ledger 0).count serving? key := by
  have hcount : (s.ledger 0).count serving? key =
      (s.buckets.contents bucketHoldings).countP fun thing => serving? thing = some key := by
    rw [count_ledger, countP_pending (fun _ _ => rfl)]
    simp [serving?]
  have helsewhere := countP_elsewhere proper key
  rw [hcount]
  unfold serving
  split
  next hnone =>
    rw [erase_of_get?_eq_none hnone] at helsewhere
    exact helsewhere.symm
  next bucket hbucket =>
    rw [← contents_erase bucketHoldings hbucket, Multiset.countP_add, helsewhere, Nat.zero_add,
      bucketHoldings, Multiset.coe_countP, List.countP_map, List.countP_eq_length_filter]
    congr 1
    refine List.filter_congr fun processor hmember => ?_
    have hpartition : processor.partition = key.partition :=
      partition_of_registered proper hbucket hmember
    have hkey : processor.key = key ↔ processor.jobType = key.jobType := by
      constructor
      · exact congrArg UnitKey.jobType
      · intro hjobType
        rw [show key = ⟨key.partition, key.jobType⟩ from rfl, ← hpartition, ← hjobType]
        rfl
    simp [serving?, hkey]

end State

/-! ### The units of a run -/

namespace World

variable {w : World} {creditCapacity : Nat}

theorem at_initial (creditCapacity : Nat) (key : UnitKey) :
    ((State.initial creditCapacity).ledger 0).At key .absent := by
  intro shown hshown
  rw [count_initial, if_neg (Ne.symm hshown)]

theorem at_of_reachable (h : Reachable creditCapacity w) (key : UnitKey) :
    ∃ phase, w.life key = some phase ∧ (w.state.ledger 0).At key phase := by
  induction h with
  | start => exact ⟨.absent, rfl, at_initial creditCapacity key⟩
  | @next w w' reached step ih =>
    obtain ⟨phase, hlife, hat⟩ := ih
    have hconsistent := consistent_of_reachable reached
    obtain ⟨moment, hposted⟩ := posted_of_step hconsistent step
    have howed : (w.state.ledger (owed moment.event.reply?)).At key phase := by
      cases moment.event.reply? with
      | none => exact hat
      | some reply =>
        rw [owed, State.ledger_hand]
        exact (Ledger.at_plus_none rfl).2 hat
    obtain ⟨phase', hlife', hat'⟩ := hposted.moves.life (hposted.sound_before hconsistent) howed
    refine ⟨phase', ?_, hat'⟩
    rw [life, hposted.signs, Phase.after_append, show Phase.absent.after key w.signs = _ from hlife]
    exact hlife'

theorem units_of_reachable (h : Reachable creditCapacity w) (key : UnitKey) :
    ∃ phase, w.life key = some phase ∧
      (w.state.builds key).length = (if phase = .building then 1 else 0) ∧
      (w.state.serving key).length = (if phase = .running then 1 else 0) ∧
      (w.state.teardowns key).length = if phase = .stopping then 1 else 0 := by
  obtain ⟨phase, hlife, hat⟩ := at_of_reachable h key
  have hproper := (consistent_of_reachable h).sound.proper
  refine ⟨phase, hlife, ?_, ?_, ?_⟩
  · rw [State.length_builds, ← Ledger.count_building, hat .building (by decide)]
  · rw [State.length_serving hproper, ← Ledger.count_running, hat .running (by decide)]
  · rw [State.length_teardowns, ← Ledger.count_stopping, hat .stopping (by decide)]

theorem retiring_eq_length (h : Reachable creditCapacity w) (key : UnitKey) :
    (w.state.retiring.get? key).getD 0 = (w.state.teardowns key).length := by
  rw [State.length_teardowns]
  exact (consistent_of_reachable h).sound.retired key

theorem mem_builds_of_held (h : w.Consistent) {operation : OperationId} {unit : ActivationUnit}
    (held : (operation, .build unit) ∈ w.outstanding) : operation ∈ w.state.builds unit.key := by
  obtain ⟨continuation, hnoted, hfits⟩ := h.awaits _ held
  refine mem_keysWhere.2 ⟨continuation, hnoted, ?_⟩
  cases continuation with
  | build other =>
    cases hfits
    exact decide_eq_true rfl
  | _ => cases hfits

theorem mem_teardowns_of_held (h : w.Consistent) {operation : OperationId} {processor : Processor}
    (held : (operation, .teardown processor) ∈ w.outstanding) :
    operation ∈ w.state.teardowns processor.key := by
  obtain ⟨continuation, hnoted, hfits⟩ := h.awaits _ held
  refine mem_keysWhere.2 ⟨continuation, hnoted, ?_⟩
  cases continuation with
  | teardown other reply =>
    cases hfits
    exact decide_eq_true rfl
  | _ => cases hfits

theorem builds_of_outstanding (h : Reachable creditCapacity w) {operation : OperationId}
    {unit : ActivationUnit} (held : (operation, .build unit) ∈ w.outstanding) :
    0 < (w.state.builds unit.key).length :=
  List.length_pos_of_mem (mem_builds_of_held (consistent_of_reachable h) held)

theorem processor?_eq_none {s : State} {key : UnitKey} (h : (s.serving key).length = 0) :
    s.processor? key = none := by
  unfold State.serving at h
  unfold State.processor? Bucket.byJobType?
  split at h
  next hnone => rw [hnone, Option.bind_none]
  next bucket hbucket =>
    rw [hbucket, Option.bind_some, List.find?_eq_none]
    intro processor hmember hjobType
    have hmem : processor ∈ bucket.processors.filter fun p => p.jobType = key.jobType :=
      List.mem_filter.2 ⟨hmember, hjobType⟩
    rw [List.length_eq_zero_iff.1 h] at hmem
    cases hmem

theorem units_le_one (h : Reachable creditCapacity w) (key : UnitKey) :
    (w.state.builds key).length + (w.state.serving key).length +
      (w.state.teardowns key).length ≤ 1 := by
  obtain ⟨phase, -, hbuilds, hserving, hteardowns⟩ := units_of_reachable h key
  rw [hbuilds, hserving, hteardowns]
  cases phase <;> decide

theorem retiring_eq_one (h : Reachable creditCapacity w) {key : UnitKey} {count : Nat}
    (found : w.state.retiring.get? key = some count) : count = 1 := by
  have hretiring := retiring_eq_length h key
  have hpos := (consistent_of_reachable h).orderly.retired key count found
  have hle := units_le_one h key
  rw [found, Option.getD_some] at hretiring
  omega

/-- For a partition and a job type there is at most one unit: it is being built, its processor is
registered, or it is being torn down. What the builder and the units are asked for takes each unit
through its phases in their order, and where a build ends no processor for it is registered. -/
theorem units_exclusive (h : Reachable creditCapacity w) (key : UnitKey) :
    (w.state.builds key).length + (w.state.serving key).length +
        (w.state.teardowns key).length ≤ 1 ∧
      (∀ count, w.state.retiring.get? key = some count →
        count = 1 ∧ (w.state.teardowns key).length = 1) ∧
      (∃ phase, w.life key = some phase ∧
        (w.state.builds key).length = (if phase = .building then 1 else 0) ∧
        (w.state.serving key).length = (if phase = .running then 1 else 0) ∧
        (w.state.teardowns key).length = if phase = .stopping then 1 else 0) ∧
      ∀ operation unit, (operation, .build unit) ∈ w.outstanding →
        w.state.processor? unit.key = none := by
  obtain ⟨phase, hlife, hbuilds, hserving, hteardowns⟩ := units_of_reachable h key
  refine ⟨?_, ?_, ⟨phase, hlife, hbuilds, hserving, hteardowns⟩, ?_⟩
  · rw [hbuilds, hserving, hteardowns]
    cases phase <;> decide
  · intro count hcount
    have hretiring := retiring_eq_length h key
    have hpos := (consistent_of_reachable h).orderly.retired key count hcount
    have hle : (w.state.teardowns key).length ≤ 1 := by
      rw [hteardowns]
      split <;> decide
    rw [hcount, Option.getD_some] at hretiring
    omega
  · intro operation unit held
    have hpos := builds_of_outstanding h held
    obtain ⟨other, -, hbuild, hserve, -⟩ := units_of_reachable h unit.key
    refine processor?_eq_none ?_
    rw [hbuild] at hpos
    split at hpos
    next hother => rw [hserve, hother, if_neg (by decide)]
    next => exact absurd hpos (Nat.lt_irrefl _)

open Sample in
theorem units_exclusive_restarted :
    (deferred.state.teardowns unit.key).length = 1 ∧
      (restarted.state.builds unit.key).length + (restarted.state.serving unit.key).length +
        (restarted.state.teardowns unit.key).length ≤ 1 ∧
      restarted.life unit.key = some .building ∧ restarted.state.processor? unit.key = none := by
  obtain ⟨-, hretiring, -, -⟩ := units_exclusive reachable_deferred unit.key
  obtain ⟨hcount, -, -, hfree⟩ := units_exclusive reachable_restarted unit.key
  refine ⟨(hretiring 1 (by decide +kernel)).2, hcount, by decide +kernel, ?_⟩
  exact hfree ⟨4⟩ unit (by decide +kernel)

end World

end JobBroker.Manager
