import JobBroker.Proofs.Discards
import JobBroker.Proofs.Registrations
import JobBroker.Proofs.Spelling
import JobBroker.Proofs.Units

/-!
# Names of units

The manager knows a unit by its partition and the bytes of its job type, a builder sees its name.
Of the units of a partition that are live at one time no two are for the same job type. Their names
are as different as the texts of their job types, and a text tells a job type from every other
unless something in it was replaced.
-/

namespace JobBroker

open Utf8

namespace JobType

theorem text_ofText (text : String) : (ofText text).text = text := repair_encode text

theorem ofText_text {jobType : JobType} (readable : replacement ∉ jobType.text.toList) :
    ofText jobType.text = jobType := congrArg JobType.mk (encode_repair readable)

end JobType

namespace ActivationUnit

theorem name_inj {unit unit' : ActivationUnit} :
    unit.name = unit'.name ↔ unit.jobType.text = unit'.jobType.text := by
  rw [name, name, ← String.toList_inj, String.toList_append, String.toList_append,
    List.append_cancel_left_eq, String.toList_inj]

theorem replacement_mem_name {unit : ActivationUnit} :
    replacement ∈ unit.name.toList ↔ replacement ∈ unit.jobType.text.toList := by
  have hprefix : replacement ∉ "job-activate.".toList := by decide
  rw [name, String.toList_append, List.mem_append]
  exact or_iff_right hprefix

/-- Two names are the same for different job types only where something in them was replaced, and
not both job types spell a text. -/
theorem replaced_of_name_eq {unit unit' : ActivationUnit} (different : unit.jobType ≠ unit'.jobType)
    (same : unit.name = unit'.name) :
    replacement ∈ unit.name.toList ∧
      ¬∃ text text', unit.jobType = .ofText text ∧ unit'.jobType = .ofText text' := by
  have htext := name_inj.1 same
  constructor
  · by_contra hreadable
    rw [replacement_mem_name] at hreadable
    have hreadable' : replacement ∉ unit'.jobType.text.toList := htext ▸ hreadable
    apply different
    rw [← JobType.ofText_text hreadable, htext, JobType.ofText_text hreadable']
  · rintro ⟨text, text', hunit, hunit'⟩
    rw [hunit, hunit', JobType.text_ofText, JobType.text_ofText] at htext
    exact different (by rw [hunit, hunit', htext])

end ActivationUnit

namespace Manager.World

/-- The processor that a build has ended with. -/
def Delivered (w : World) (operation : OperationId) (processor : Processor) : Prop :=
  ∃ moment ∈ w.history,
    moment.event.ended? = some operation ∧ moment.built? = some processor

/-- A unit is live from when its build is asked for until the build has failed, or the teardown of
the processor it has delivered has ended. -/
structure Live (w : World) (operation : OperationId) (unit : ActivationUnit) : Prop where
  asked : (operation, .build unit) ∈ w.calls
  unfailed : ∀ moment ∈ w.history, ∀ reason,
    moment.event ≠ .ended operation (.build unit) (.error reason)
  unstopped : ∀ processor, w.Delivered operation processor → .stopped processor ∉ w.signs

section

variable {w : World} {creditCapacity : Nat} {operation operation' : OperationId}
  {unit unit' : ActivationUnit} {processor : Processor}

theorem live_of_outstanding (held : (operation, .build unit) ∈ w.outstanding) :
    w.Live operation unit := by
  obtain ⟨hasked, hopen⟩ := mem_outstanding.1 held
  refine ⟨hasked, ?_, ?_⟩
  · intro moment hmoment reason hevent
    exact hopen (List.mem_filterMap.2 ⟨moment, hmoment, by rw [hevent]; rfl⟩)
  · rintro processor ⟨moment, hmoment, hended, -⟩
    exact absurd (List.mem_filterMap.2 ⟨moment, hmoment, hended⟩) hopen

/-! ### Builds and what they deliver -/

/-- A processor is delivered by one build, since each delivery takes an id of its own. -/
theorem delivered_once (h : Reachable creditCapacity w) (delivered : w.Delivered operation processor)
    (delivered' : w.Delivered operation' processor) : operation = operation' := by
  induction h with
  | start =>
    obtain ⟨_, hmem, -⟩ := delivered
    cases hmem
  | @next w w' reached step ih =>
    have hconsistent := consistent_of_reachable reached
    obtain ⟨last, hposted⟩ := posted_of_step hconsistent step
    -- whoever was there before has an earlier id
    have hnew : ∀ moment ∈ w.history, moment.built? = some processor →
        last.built? ≠ some processor := by
      intro moment hmem hold hlast
      have hlt := hconsistent.built processor (List.mem_filterMap.2 ⟨moment, hmem, hold⟩)
      rw [built?_id hlast, hposted.before] at hlt
      exact Nat.lt_irrefl _ hlt
    obtain ⟨moment, hmem, hended, hbuilt⟩ := delivered
    obtain ⟨moment', hmem', hended', hbuilt'⟩ := delivered'
    rw [hposted.history, List.mem_append, List.mem_singleton] at hmem hmem'
    rcases hmem with hold | rfl <;> rcases hmem' with hold' | rfl
    · exact ih ⟨moment, hold, hended, hbuilt⟩ ⟨moment', hold', hended', hbuilt'⟩
    · exact absurd hbuilt' (hnew moment hold hbuilt)
    · exact absurd hbuilt (hnew moment' hold' hbuilt')
    · exact Option.some.inj (hended.symm.trans hended')

theorem made_of_ended (h : Reachable creditCapacity w) {moment : Moment}
    (mem : moment ∈ w.history) {call : Call} {result : Except String call.Success}
    (event : moment.event = .ended operation call result) : (operation, call) ∈ w.calls := by
  obtain ⟨early, late, hhistory⟩ := List.append_of_mem mem
  obtain ⟨v, v', -, -, hstep, hposted, hsteps⟩ := steps_of_history h hhistory
  have hmade := (mem_outstanding.1 (hposted.ended operation call result event)).1
  exact (calls_of_steps (Relation.ReflTransGen.head hstep hsteps)).subset hmade

/-- A call that has been made and whose operation has ended has ended itself. -/
theorem ended_of_made (h : Reachable creditCapacity w) {call : Call}
    (made : (operation, call) ∈ w.calls) (ended : operation ∈ w.endings) :
    ∃ moment ∈ w.history, ∃ result, moment.event = .ended operation call result := by
  obtain ⟨moment, hmoment, hended⟩ := List.mem_filterMap.1 ended
  have hevent : ∃ call' result', moment.event = .ended operation call' result' := by
    unfold Event.ended? at hended
    split at hended
    next ended call' result' hevent =>
      cases hended
      exact ⟨call', result', hevent⟩
    next => cases hended
  obtain ⟨call', result', hevent⟩ := hevent
  have hmade := made_of_ended h hmoment hevent
  obtain rfl : call' = call :=
    congrArg Prod.snd (List.inj_on_of_nodup_map (calls_nodup h) hmade made rfl)
  exact ⟨moment, hmoment, result', hevent⟩

/-! ### What the manager has of a live unit -/

/-- A live unit is being built, its processor is registered, or its teardown is under way. -/
inductive Stands (w : World) (operation : OperationId) (unit : ActivationUnit) : Prop where
  | building (member : operation ∈ w.state.builds unit.key)
  | running (processor : Processor) (delivered : w.Delivered operation processor)
      (member : processor ∈ w.state.serving unit.key)
  | stopping (processor : Processor) (delivered : w.Delivered operation processor)
      (teardown : OperationId) (held : (teardown, .teardown processor) ∈ w.outstanding)
      (member : teardown ∈ w.state.teardowns unit.key)

/-- A processor that was delivered is registered, or was given back, and then its teardown is under
way until it has stopped. -/
theorem Delivered.stands (h : Reachable creditCapacity w)
    (delivered : w.Delivered operation processor) (unstopped : .stopped processor ∉ w.signs) :
    w.Stands operation processor.unit := by
  have hbuilt : processor ∈ w.built := by
    obtain ⟨moment, hmoment, -, hprocessor⟩ := delivered
    exact List.mem_filterMap.2 ⟨moment, hmoment, hprocessor⟩
  rcases registered_or_discarded h hbuilt with ⟨hregistered, -⟩ | ⟨-, hdiscarded⟩
  · have hmem := hregistered ▸ List.mem_singleton_self (processor.partition, processor)
    obtain ⟨⟨bucket, hget, hmember⟩, -⟩ := State.mem_registrations.1 hmem
    have hbucket : w.state.buckets.get? processor.unit.key.partition = some bucket := hget
    refine .running processor delivered ?_
    rw [State.serving, hbucket]
    exact List.mem_filter.2 ⟨hmember, decide_eq_true rfl⟩
  · have hmem := hdiscarded ▸ List.mem_singleton_self processor
    obtain ⟨⟨teardown, hmade⟩, -⟩ := mem_discarded.1 hmem
    have hopen : teardown ∉ w.endings := by
      intro hended
      obtain ⟨last, hlast, result, hstopped⟩ := ended_of_made h hmade hended
      refine unstopped (List.mem_flatMap.2 ⟨last, hlast, ?_⟩)
      rw [Moment.signs, hstopped]
      exact List.mem_append_left _ (List.mem_singleton_self _)
    have hheld := mem_outstanding.2 ⟨hmade, hopen⟩
    exact .stopping processor delivered teardown hheld
      (mem_teardowns_of_held (consistent_of_reachable h) hheld)

theorem Live.stands (h : Reachable creditCapacity w) (live : w.Live operation unit) :
    w.Stands operation unit := by
  by_cases hended : operation ∈ w.endings
  · obtain ⟨moment, hmoment, result, hevent⟩ := ended_of_made h live.asked hended
    cases result with
    | error reason => exact absurd hevent (live.unfailed moment hmoment reason)
    | ok runner =>
      have hdelivered : w.Delivered operation ⟨⟨moment.before.nextProcessor⟩, unit, runner⟩ := by
        refine ⟨moment, hmoment, ?_, ?_⟩
        · rw [hevent, Event.ended?]
        · rw [Moment.built?, hevent]
      exact hdelivered.stands h (live.unstopped _ hdelivered)
  · have hheld := mem_outstanding.2 ⟨live.asked, hended⟩
    exact .building (mem_builds_of_held (consistent_of_reachable h) hheld)

theorem eq_of_length_le_one {α : Type} {items : List α} (few : items.length ≤ 1) {a b : α}
    (ha : a ∈ items) (hb : b ∈ items) : a = b :=
  eq_of_countP_le_one (p := fun _ => true) (Nat.le_trans List.countP_le_length few) ha rfl hb rfl

/-- Of the units for a partition and a job type one is live at a time. -/
theorem Stands.operation_eq (h : Reachable creditCapacity w) (stands : w.Stands operation unit)
    (stands' : w.Stands operation' unit') (same : unit.key = unit'.key) :
    operation = operation' := by
  have hfew := units_le_one h unit'.key
  cases stands with rw [same] at member
  | building member =>
    have hpos := List.length_pos_of_mem member
    cases stands' with have hpos' := List.length_pos_of_mem member'
    | building member' => exact eq_of_length_le_one (by omega) member member'
    | running processor delivered member' => omega
    | stopping processor delivered teardown held member' => omega
  | running processor delivered member =>
    have hpos := List.length_pos_of_mem member
    cases stands' with have hpos' := List.length_pos_of_mem member'
    | building member' => omega
    | running processor' delivered' member' =>
      obtain rfl := eq_of_length_le_one (by omega) member member'
      exact delivered_once h delivered delivered'
    | stopping processor' delivered' teardown held member' => omega
  | stopping processor delivered teardown held member =>
    have hpos := List.length_pos_of_mem member
    cases stands' with have hpos' := List.length_pos_of_mem member'
    | building member' => omega
    | running processor' delivered' member' => omega
    | stopping processor' delivered' teardown' held' member' =>
      obtain rfl := eq_of_length_le_one (by omega) member member'
      cases call_unique h held held'
      exact delivered_once h delivered delivered'

/-- Live units of one partition are for different job types. Their names are different too, unless
bytes that spell no text were replaced in them: where both job types spell a text, or where nothing
in a name is a replacement, no other live unit of the partition has that name. -/
theorem live_units_named (h : Reachable creditCapacity w) (live : w.Live operation unit)
    (live' : w.Live operation' unit') (together : unit.partition.id = unit'.partition.id)
    (different : operation ≠ operation') :
    unit.jobType ≠ unit'.jobType ∧
      (unit.name = unit'.name → replacement ∈ unit.name.toList ∧
        ¬∃ text text', unit.jobType = .ofText text ∧ unit'.jobType = .ofText text') := by
  have hdifferent : unit.jobType ≠ unit'.jobType := by
    intro hsame
    have hkey : unit.key = unit'.key := by
      rw [ActivationUnit.key, ActivationUnit.key, together, hsame]
    exact different ((live.stands h).operation_eq h (live'.stands h) hkey)
  exact ⟨hdifferent, ActivationUnit.replaced_of_name_eq hdifferent⟩

end

end Manager.World

namespace Manager.Sample

open World

/-- A unit for a job type of one byte. -/
def brief (b : UInt8) : ActivationUnit := { unit with jobType := ⟨[b]⟩ }

/-- Beside the unit that is being built two are asked for whose job types spell no text. -/
def namesakes : World :=
  (building.tell (.subscribe { subscription with jobType := ⟨[0xFF]⟩ } ⟨1⟩)).tell
    (.subscribe { subscription with jobType := ⟨[0xFE]⟩ } ⟨2⟩)

theorem reachable_namesakes : Reachable 2 namesakes :=
  (reachable_building.next (.tell _ rfl)).next (.tell _ rfl)

end Manager.Sample

namespace Manager.World

open Sample in
theorem live_units_named_readable :
    (brief 106).jobType ≠ (brief 0xFF).jobType ∧ (brief 106).name ≠ (brief 0xFF).name := by
  have hlive : namesakes.Live ⟨0⟩ (brief 106) := live_of_outstanding (by decide +kernel)
  have hlive' : namesakes.Live ⟨1⟩ (brief 0xFF) := live_of_outstanding (by decide +kernel)
  obtain ⟨hdifferent, hnames⟩ :=
    live_units_named reachable_namesakes hlive hlive' rfl (by decide)
  exact ⟨hdifferent, fun hsame => absurd (hnames hsame).1 (by decide +kernel)⟩

open Sample in
/-- Two live units of one partition for different job types that share a name. -/
theorem live_units_namesakes :
    ¬∀ (creditCapacity : Nat) (w : World), Reachable creditCapacity w →
      ∀ operation operation' unit unit', w.Live operation unit → w.Live operation' unit' →
        unit.partition.id = unit'.partition.id → (operation, unit) ≠ (operation', unit') →
          unit.name ≠ unit'.name := by
  intro named
  refine named 2 namesakes reachable_namesakes ⟨1⟩ ⟨2⟩ (brief 0xFF) (brief 0xFE) ?_ ?_ rfl ?_ ?_
  · exact live_of_outstanding (by decide +kernel)
  · exact live_of_outstanding (by decide +kernel)
  · decide +kernel
  · decide +kernel

end Manager.World

end JobBroker
