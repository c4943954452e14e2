import JobBroker.Proofs.Writing
import Mathlib.Data.List.DropRight

/-!
# Drafts that are used again

One draft serves for many frames. What is left of its uses is what was set since it was cleared for
the last time, of each field the last setting alone: a draft that has been used in any way goes on
as a fresh one does to which just these settings are made. So nothing of an earlier frame gets into
a later one.
-/

namespace JobBroker.Frame

/-! ### Settings -/

section

variable {Fields Setting Field : Type}

/-- The last settings of a list, one for each field that it sets. -/
def lastOfEach [DecidableEq Field] (field : Setting → Field) : List Setting → List Setting
  | [] => []
  | setting :: later =>
    if later.any fun other => field other = field setting then lastOfEach field later
    else setting :: lastOfEach field later

def Layout.applyAll (layout : Layout Fields Setting) (settings : List Setting) (fields : Fields) :
    Fields :=
  settings.foldl (fun fields setting => layout.apply setting fields) fields

/-- What a field holds behind some settings: the last one of this field, or what it held before. -/
def lastOf [DecidableEq Field] (field : Setting → Field) (all : List Setting) (held : Setting) :
    Setting :=
  (all.filter fun setting => field setting = field held).getLast?.getD held

/-- The fields of a layout are seen as the settings that make them, one for each field. A setting
takes the place of the one of its field and leaves the others alone. -/
structure Layout.Fielded [DecidableEq Field] (layout : Layout Fields Setting)
    (field : Setting → Field) (settings : Fields → List Setting) : Prop where
  shows : ∀ setting fields, settings (layout.apply setting fields) =
    (settings fields).map fun held => if field held = field setting then setting else held
  complete : ∀ fields former, layout.applyAll (settings fields) former = fields

namespace Layout

variable [DecidableEq Field] {layout : Layout Fields Setting} {field : Setting → Field}
  {settings : Fields → List Setting}

theorem Fielded.settings_injective (h : layout.Fielded field settings) :
    Function.Injective settings := by
  intro fields other same
  rw [← h.complete fields fields, same, h.complete]

theorem Fielded.overwrites (h : layout.Fielded field settings) {earlier later : Setting}
    (same : field earlier = field later) (fields : Fields) :
    layout.apply later (layout.apply earlier fields) = layout.apply later fields := by
  apply h.settings_injective
  rw [h.shows, h.shows, h.shows, List.map_map]
  refine List.map_congr_left fun held _ => ?_
  by_cases hheld : field held = field later
  · simp [same, hheld]
  · simp [same, hheld]

theorem Fielded.commutes (h : layout.Fielded field settings) {earlier later : Setting}
    (other : field earlier ≠ field later) (fields : Fields) :
    layout.apply later (layout.apply earlier fields) =
      layout.apply earlier (layout.apply later fields) := by
  apply h.settings_injective
  rw [h.shows, h.shows, h.shows, h.shows, List.map_map, List.map_map]
  refine List.map_congr_left fun held _ => ?_
  by_cases hheld : field held = field earlier
  · simp [hheld, other]
  · by_cases hlater : field held = field later
    · simp [hlater, other.symm]
    · simp [hheld, hlater]

/-- Behind some settings every field holds what was set last. -/
theorem Fielded.settings_applyAll (h : layout.Fielded field settings) (all : List Setting)
    (fields : Fields) :
    settings (layout.applyAll all fields) = (settings fields).map (lastOf field all) := by
  induction all generalizing fields with
  | nil => exact (List.map_id _).symm
  | cons setting later ih =>
    show settings (layout.applyAll later (layout.apply setting fields)) = _
    rw [ih, h.shows, List.map_map]
    refine List.map_congr_left fun held _ => ?_
    by_cases hheld : field held = field setting
    · simp [lastOf, hheld, List.getLast?_cons]
    · simp [lastOf, hheld, Ne.symm hheld]

/-- A setting does not show behind a later one of the same field. -/
theorem Fielded.applyAll_overwritten (h : layout.Fielded field settings) {earlier : Setting}
    {later : List Setting} (mem : ∃ setting ∈ later, field setting = field earlier)
    (fields : Fields) :
    layout.applyAll later (layout.apply earlier fields) = layout.applyAll later fields := by
  induction later generalizing fields with
  | nil =>
    obtain ⟨_, hmem, -⟩ := mem
    cases hmem
  | cons next later ih =>
    show layout.applyAll later (layout.apply next (layout.apply earlier fields)) =
      layout.applyAll later (layout.apply next fields)
    by_cases hsame : field earlier = field next
    · rw [h.overwrites hsame]
    · rw [h.commutes hsame]
      refine ih ?_ _
      obtain ⟨setting, hmem, hfield⟩ := mem
      rcases List.mem_cons.1 hmem with rfl | hlater
      · exact absurd hfield.symm hsame
      · exact ⟨setting, hlater, hfield⟩

theorem Fielded.applyAll_lastOfEach (h : layout.Fielded field settings)
    (all : List Setting) (fields : Fields) :
    layout.applyAll (lastOfEach field all) fields = layout.applyAll all fields := by
  induction all generalizing fields with
  | nil => rfl
  | cons setting later ih =>
    rw [lastOfEach]
    split
    next hagain =>
      rw [ih]
      have hmem : ∃ other ∈ later, field other = field setting := by simpa using hagain
      exact (h.applyAll_overwritten hmem fields).symm
    next => exact ih (layout.apply setting fields)

end Layout

end

namespace CommandResponse

inductive Field where
  | recordType | partition | position | sourceRecordPosition | valueType | intent | key | timestamp
  deriving DecidableEq

def Setting.field : Setting → Field
  | .recordType _ => .recordType
  | .partition _ => .partition
  | .position _ => .position
  | .sourceRecordPosition _ => .sourceRecordPosition
  | .valueType _ => .valueType
  | .intent _ => .intent
  | .key _ => .key
  | .timestamp _ => .timestamp

def settings (response : CommandResponse) : List Setting :=
  [.recordType response.recordType, .partition response.partition, .position response.position,
    .sourceRecordPosition response.sourceRecordPosition, .valueType response.valueType,
    .intent response.intent, .key response.key, .timestamp response.timestamp]

theorem fielded : layout.Fielded Setting.field settings where
  shows := by rintro ⟨⟩ ⟨⟩ <;> rfl
  complete := by rintro ⟨⟩ ⟨⟩; rfl

end CommandResponse

namespace SubscribedEvent

inductive Field where
  | partition | position | key | subscriberKey | subscriptionType | eventType
  deriving DecidableEq

def Setting.field : Setting → Field
  | .partition _ => .partition
  | .position _ => .position
  | .key _ => .key
  | .subscriberKey _ => .subscriberKey
  | .subscriptionType _ => .subscriptionType
  | .eventType _ => .eventType

def settings (event : SubscribedEvent) : List Setting :=
  [.partition event.partition, .position event.position, .key event.key,
    .subscriberKey event.subscriberKey, .subscriptionType event.subscriptionType,
    .eventType event.eventType]

theorem fielded : layout.Fielded Setting.field settings where
  shows := by rintro ⟨⟩ ⟨⟩ <;> rfl
  complete := by rintro ⟨⟩ ⟨⟩; rfl

end SubscribedEvent

/-! ### The history of a draft -/

variable {Fields Setting Field : Type}

/-- Whether a use that was answered so has cleared the draft. -/
def Use.clears : Use Fields Setting → Answer → Bool
  | .reset, _ => true
  | .preset _, _ => true
  | .send _, .offered _ _ => true
  | _, _ => false

def Use.setting? : Use Fields Setting → Option Setting
  | .set setting => some setting
  | _ => none

def Use.payload? : Use Fields Setting → Option Bytes
  | .supply payload => some payload
  | _ => none

/-- The settings that clearing a draft makes anew. -/
def Use.own (settings : Fields → List Setting) : Use Fields Setting → List Setting
  | .preset fields => settings fields
  | _ => []

namespace Draft

def after (layout : Layout Fields Setting) (draft : Draft Fields)
    (uses : List (Use Fields Setting)) : Draft Fields :=
  uses.foldl (fun draft use => (draft.perform layout use).1) draft

/-- Uses with what each was answered. -/
def history (layout : Layout Fields Setting) :
    Draft Fields → List (Use Fields Setting) → List (Use Fields Setting × Answer)
  | _, [] => []
  | draft, use :: uses =>
    (use, (draft.perform layout use).2) :: history layout (draft.perform layout use).1 uses

section

variable (history : List (Use Fields Setting × Answer))

/-- What was done to a draft since it was cleared for the last time. -/
def sinceCleared : List (Use Fields Setting × Answer) :=
  history.rtakeWhile fun entry => !entry.1.clears entry.2

def lastClearing? : Option (Use Fields Setting × Answer) :=
  (history.filter fun entry => entry.1.clears entry.2).getLast?

/-- The settings that count: those that came with the last clearing, and those made since. -/
def standing (settings : Fields → List Setting) : List Setting :=
  ((lastClearing? history).elim [] fun entry => entry.1.own settings) ++
    (sinceCleared history).filterMap fun entry => entry.1.setting?

def supplied? : Option Bytes :=
  ((sinceCleared history).filterMap fun entry => entry.1.payload?).getLast?

/-- All that is left of a history: of each field the last setting that counts, and the last payload
that was supplied since the draft was cleared. -/
def kept [DecidableEq Field] (field : Setting → Field) (settings : Fields → List Setting) :
    List (Use Fields Setting) :=
  (lastOfEach field (standing history settings)).map .set ++
    (supplied? history).toList.map .supply

variable {history} {entry : Use Fields Setting × Answer}

theorem standing_cleared (clears : entry.1.clears entry.2 = true)
    (settings : Fields → List Setting) :
    standing (history ++ [entry]) settings = entry.1.own settings := by
  simp [standing, lastClearing?, sinceCleared, clears]

theorem supplied?_cleared (clears : entry.1.clears entry.2 = true) :
    supplied? (history ++ [entry]) = none := by
  simp [supplied?, sinceCleared, clears]

theorem standing_concat (remains : entry.1.clears entry.2 = false)
    (settings : Fields → List Setting) :
    standing (history ++ [entry]) settings =
      standing history settings ++ entry.1.setting?.toList := by
  have hmade : [entry].filterMap (fun entry => entry.1.setting?) = entry.1.setting?.toList := by
    cases hsetting : entry.1.setting? <;> simp [hsetting]
  simp [standing, lastClearing?, sinceCleared, remains, hmade]

theorem supplied?_concat (remains : entry.1.clears entry.2 = false) :
    supplied? (history ++ [entry]) = entry.1.payload?.or (supplied? history) := by
  simp [supplied?, sinceCleared, remains]

end

variable [DecidableEq Field] {layout : Layout Fields Setting} {field : Setting → Field}
  {settings : Fields → List Setting}

theorem history_append (draft : Draft Fields) (uses later : List (Use Fields Setting)) :
    draft.history layout (uses ++ later) =
      draft.history layout uses ++ (draft.after layout uses).history layout later := by
  induction uses generalizing draft with
  | nil => rfl
  | cons use uses ih =>
    rw [List.cons_append, history, ih, history, List.cons_append]
    rfl

/-- The draft that has some settings and perhaps a payload. -/
def made (layout : Layout Fields Setting) (settings : List Setting) (payload : Option Bytes) :
    Draft Fields :=
  ⟨layout.applyAll settings layout.unset, payload⟩

/-- What one use makes of a draft, told by whether it has cleared it. -/
theorem perform_made (h : layout.Fielded field settings) (before : List Setting)
    (payload : Option Bytes) (use : Use Fields Setting) :
    ((made layout before payload).perform layout use).1 =
      if use.clears ((made layout before payload).perform layout use).2 then
        made layout (use.own settings) none
      else made layout (before ++ use.setting?.toList) (use.payload?.or payload) := by
  cases use with
  | set setting =>
    simp [perform, Use.clears, Use.setting?, Use.payload?, made, Layout.applyAll]
  | preset fields =>
    simp [perform, Use.clears, Use.own, made, h.complete fields, fresh]
  | send transport =>
    cases hframe : (made layout before payload).encode layout with
    | error misuse => simp [perform, send, hframe, Use.clears, Use.setting?, Use.payload?]
    | ok frame =>
      simp only [perform, send, hframe, Use.clears, if_true]
      rfl
  | reset => rfl
  | supply | measure | encode | write =>
    simp [perform, Use.clears, Use.setting?, Use.payload?, made]

/-- The invariant of a history: a draft is what its standing settings make of a fresh one. -/
theorem after_eq_made (h : layout.Fielded field settings) (uses : List (Use Fields Setting)) :
    (fresh layout).after layout uses =
      made layout (standing ((fresh layout).history layout uses) settings)
        (supplied? ((fresh layout).history layout uses)) := by
  induction uses using List.reverseRecOn with
  | nil => rfl
  | append_singleton uses use ih =>
    have hafter : (fresh layout).after layout (uses ++ [use]) =
        (((fresh layout).after layout uses).perform layout use).1 := List.foldl_concat ..
    rw [hafter, history_append, ih, perform_made h]
    simp only [history]
    split
    next hclears => rw [standing_cleared hclears, supplied?_cleared hclears]
    next hremains =>
      rw [Bool.not_eq_true] at hremains
      rw [standing_concat hremains, supplied?_concat hremains]

theorem after_sets (draft : Draft Fields) (all : List Setting) :
    draft.after layout (all.map .set) = ⟨layout.applyAll all draft.fields, draft.payload⟩ := by
  induction all generalizing draft with
  | nil => rfl
  | cons setting all ih => exact ih _

theorem after_kept (h : layout.Fielded field settings)
    (history : List (Use Fields Setting × Answer)) :
    (fresh layout).after layout (kept history field settings) =
      made layout (standing history settings) (supplied? history) := by
  rw [kept, after, List.foldl_append]
  show after layout (after layout (fresh layout) _) _ = _
  rw [after_sets, made, h.applyAll_lastOfEach]
  cases supplied? history <;> rfl

end Draft

/-- A draft of a layout goes on, after any uses, as a fresh one does to which just the settings that
count are made. Each of its fields holds what the last of them has set it to, or else what stands
for "not set", and its payload is the last one that was supplied; a preset leaves its own fields and
no payload. A send that is misused asks no transport and changes nothing; every other one offers
the frame, once, and leaves the draft fresh whatever the transport answers. -/
structure Layout.Reusable [DecidableEq Field] (layout : Layout Fields Setting)
    (field : Setting → Field) (settings : Fields → List Setting) : Prop where
  forgets : ∀ uses later : List (Use Fields Setting),
    (Draft.fresh layout).history layout (uses ++ later) =
      (Draft.fresh layout).history layout uses ++
        ((Draft.fresh layout).after layout
          (Draft.kept ((Draft.fresh layout).history layout uses) field settings)).history layout
            later
  fields : ∀ uses : List (Use Fields Setting),
    settings ((Draft.fresh layout).after layout uses).fields =
      (settings layout.unset).map
        (lastOf field (Draft.standing ((Draft.fresh layout).history layout uses) settings))
  payload : ∀ uses : List (Use Fields Setting),
    ((Draft.fresh layout).after layout uses).payload =
      Draft.supplied? ((Draft.fresh layout).history layout uses)
  preset : ∀ (draft : Draft Fields) (fields : Fields),
    draft.perform layout (.preset fields) = (⟨fields, none⟩, .done)
  misused : ∀ draft : Draft Fields,
    (draft.payload = none ∨ ∃ payload, draft.payload = some payload ∧ 65535 < payload.length) →
      ∃ misuse, ∀ transport, draft.perform layout (.send transport) = (draft, .misused misuse)
  offered : ∀ (draft : Draft Fields) (payload : Bytes),
    draft.payload = some payload → payload.length ≤ 65535 →
      ∃ frame, draft.perform layout .encode = (draft, .frame frame) ∧ ∀ transport,
        draft.perform layout (.send transport) =
          (.fresh layout, .offered frame (transport frame))

theorem Layout.reusable [DecidableEq Field] {layout : Layout Fields Setting}
    {field : Setting → Field} {settings : Fields → List Setting}
    (h : layout.Fielded field settings) : layout.Reusable field settings where
  forgets := by
    intro uses later
    rw [Draft.history_append, Draft.after_kept h, Draft.after_eq_made h]
  fields uses := by
    rw [Draft.after_eq_made h]
    exact h.settings_applyAll _ _
  payload uses := by
    rw [Draft.after_eq_made h]
    rfl
  preset _ _ := rfl
  misused := by
    intro draft misused
    obtain ⟨misuse, hmisuse⟩ := draft.carried_of_misused misused
    refine ⟨misuse, fun transport => ?_⟩
    simp only [Draft.perform, Draft.send, Draft.encode, hmisuse, Except.map]
  offered := by
    intro draft payload carries short
    have hcarried := draft.carried_of_short carries short
    refine ⟨layout.encode draft.fields payload, ?_, fun transport => ?_⟩
    · simp only [Draft.perform, Draft.encode, hcarried, Except.map, Draft.answered]
    · simp only [Draft.perform, Draft.send, Draft.encode, hcarried, Except.map]

/-- Drafts of both kinds of frames forget what they were used for: after any uses one holds what was
set last of each field and the payload that was supplied last, both since it was cleared, and goes
on as a fresh draft does with just these settings. Those that the preset of a terminated
subscription makes are the ones of all six fields; it leaves no payload. -/
theorem drafts_reused :
    CommandResponse.layout.Reusable CommandResponse.Setting.field CommandResponse.settings ∧
      SubscribedEvent.layout.Reusable SubscribedEvent.Setting.field SubscribedEvent.settings ∧
      ∀ partition subscriberKey,
        SubscribedEvent.settings (SubscribedEvent.termination partition subscriberKey) =
          [.partition partition, .position 0, .key 0, .subscriberKey subscriberKey,
            .subscriptionType .topic, .eventType .unset] :=
  ⟨Layout.reusable CommandResponse.fielded, Layout.reusable SubscribedEvent.fielded,
    fun _ _ => rfl⟩

end JobBroker.Frame
