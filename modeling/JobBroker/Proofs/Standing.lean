import JobBroker.Proofs.Routing
import Mathlib.Logic.Relation

/-!
# Where a subscription stands

A subscription waits for a unit, is on its way to a processor, is active, or is gone. What the
ledger holds under its key tells which. Whatever happens, the thing that is held under a key comes
from the one that was held before, so that a subscription only ever goes forward.
-/

namespace JobBroker.Manager

open Holding Table

inductive Standing where
  | unassigned
  | waiting
  | adding
  | active
  | gone
  deriving DecidableEq, Repr

def Standing.rank : Standing → Nat
  | unassigned => 0
  | waiting => 1
  | adding => 2
  | active => 3
  | gone => 4

namespace Holding

/-- Where the subscription stands whose key a thing stands for. -/
def standing : Holding → Standing
  | waiting _ _ => .waiting
  | ongoing (.subscribe _ _ _ _ _) => .adding
  | indexed _ _ => .active
  | _ => .gone

def adding? : Holding → Option SubscriberKey
  | ongoing (.subscribe key _ _ _ _) => some key
  | _ => none

def active? : Holding → Option SubscriberKey
  | indexed key _ => some key
  | _ => none

/-- The connection that a subscription came from. -/
def client? : Holding → Option ConnectionId
  | waiting _ w => some w.subscription.connection
  | ongoing (.subscribe _ connection _ _ _) => some connection
  | indexed _ entry => some entry.connection
  | _ => none

theorem standing_ne_gone {thing : Holding} {key : SubscriberKey} (named : thing.key? = some key) :
    thing.standing ≠ .gone := by
  cases thing with
  | waiting | indexed => exact Standing.noConfusion
  | ongoing continuation =>
    cases continuation with
    | subscribe => exact Standing.noConfusion
    | _ => cases named
  | _ => cases named

/-- What can become of a thing that is held under a key. -/
inductive Leads : Holding → Holding → Prop
  | stay (thing : Holding) : Leads thing thing
  | hand (unit : UnitKey) (w : Waiting) (processor : Processor) (closed : Bool) :
      Leads (waiting unit w)
        (ongoing (.subscribe w.key w.subscription.connection processor w.reply closed))
  | mark (key : SubscriberKey) (connection : ConnectionId) (processor : Processor)
      (reply : Ticket) :
      Leads (ongoing (.subscribe key connection processor reply false))
        (ongoing (.subscribe key connection processor reply true))
  | accept (key : SubscriberKey) (connection : ConnectionId) (processor : Processor)
      (reply : Ticket) :
      Leads (ongoing (.subscribe key connection processor reply false))
        (indexed key ⟨processor, connection⟩)
  | arrive (unit : UnitKey) (w : Waiting) (processor : Processor) :
      Leads (waiting unit w) (indexed w.key ⟨processor, w.subscription.connection⟩)

namespace Leads

variable {thing thing' thing'' : Holding}

theorem trans (h : Leads thing thing') (h' : Leads thing' thing'') : Leads thing thing'' := by
  cases h with
  | stay => exact h'
  | hand unit w processor closed =>
    cases h' with
    | stay => exact .hand unit w processor closed
    | mark => exact .hand unit w processor true
    | accept => exact .arrive unit w processor
  | mark key connection processor reply =>
    cases h' with
    | stay => exact .mark key connection processor reply
  | accept key connection processor reply =>
    cases h' with
    | stay => exact .accept key connection processor reply
  | arrive unit w processor =>
    cases h' with
    | stay => exact .arrive unit w processor

theorem key? (h : Leads thing thing') : thing'.key? = thing.key? := by cases h <;> rfl

theorem rank_le (h : Leads thing thing') : thing.standing.rank ≤ thing'.standing.rank := by
  cases h with
  | stay => exact Nat.le_refl _
  | _ => simp [standing, Standing.rank]

end Leads

end Holding

/-! ### Forward -/

section

open Ledger

variable {k : Knowledge} {b b' : Ledger} {signs : List Sign} {settled : List Ticket}

/-- What is held under a key that is not new has come from what was held under it. -/
theorem Move.leads (h : Move k b signs settled b') {thing' : Holding} {key : SubscriberKey}
    (held : thing' ∈ b'.holdings) (named : thing'.key? = some key) (old : key.val < b.nextKey) :
    ∃ thing ∈ b.holdings, thing.Leads thing' := by
  cases h
  case enter b w subscription new assigned same =>
    rcases mem_plus.1 held with held | rfl
    · exact ⟨thing', mem_plus.2 (.inl held), .stay _⟩
    · rw [← Option.some.inj named, new] at old
      exact absurd old (Nat.lt_irrefl _)
  case hand b unit w processor registered jobType =>
    rcases mem_plus.1 held with held | rfl
    · exact ⟨thing', mem_plus.2 (.inl held), .stay _⟩
    · exact ⟨_, mem_plus.2 (.inr rfl), .hand unit w processor false⟩
  case accept b key' connection processor reply accepted registered untold =>
    rcases mem_plus.1 ((mem_plus.1 held).resolve_right (by rintro rfl; cases named))
      with held | rfl
    · exact ⟨thing', mem_plus.2 (.inl held), .stay _⟩
    · exact ⟨_, mem_plus.2 (.inr rfl), .accept key' connection processor reply⟩
  case mark b key' connection processor reply closed =>
    rcases mem_plus.1 held with held | rfl
    · exact ⟨thing', mem_plus.2 (.inl held), .stay _⟩
    · refine ⟨_, mem_plus.2 (.inr rfl), ?_⟩
      cases closed with
      | false => exact .mark key' connection processor reply
      | true => exact .stay _
  case defer => exact ⟨thing', held, .stay _⟩
  -- no other move brings in anything that stands for a key
  case entrust b processor reply =>
    have hheld := (mem_plus.1 held).resolve_right (by rintro rfl; cases named)
    exact ⟨thing', mem_plus.2 (.inl (mem_plus.2 (.inl hheld))), .stay _⟩
  case answer b processor reply =>
    have hfirst := (mem_plus.1 held).resolve_right (by rintro rfl; cases named)
    have hheld := (mem_plus.1 hfirst).resolve_right (by rintro rfl; cases named)
    exact ⟨thing', mem_plus.2 (.inl hheld), .stay _⟩
  case ask | sweep =>
    exact ⟨thing', (mem_plus.1 held).resolve_right (by rintro rfl; cases named), .stay _⟩
  case settle | fail | unindex | stop | stopForgotten | swept =>
    exact ⟨thing', mem_plus.2 (.inl held), .stay _⟩
  all_goals
    have hheld := (mem_plus.1 held).resolve_right (by rintro rfl; cases named)
    exact ⟨thing', mem_plus.2 (.inl hheld), .stay _⟩

theorem Moves.leads (h : Moves k b signs settled b') {thing' : Holding} {key : SubscriberKey}
    (held : thing' ∈ b'.holdings) (named : thing'.key? = some key) (old : key.val < b.nextKey) :
    ∃ thing ∈ b.holdings, thing.Leads thing' := by
  induction h generalizing thing' with
  | rest => exact ⟨thing', held, .stay _⟩
  | next moves move ih =>
    obtain ⟨middle, hmiddle, hlast⟩ := move.leads held named
      (Nat.lt_of_lt_of_le old moves.nextKey_le)
    obtain ⟨first, hfirst, hleads⟩ := ih hmiddle (hlast.key?.symm.trans named)
    exact ⟨first, hfirst, hleads.trans hlast⟩

theorem eq_of_countP_le_one {p : Holding → Prop} [DecidablePred p] {things : Multiset Holding}
    (h : things.countP p ≤ 1) {thing other : Holding} (ht : thing ∈ things) (pt : p thing)
    (ho : other ∈ things) (po : p other) : other = thing := by
  induction things using Quotient.inductionOn with
  | h items =>
    rw [Multiset.quot_mk_to_coe, Multiset.coe_countP] at h
    exact World.eq_of_countP_le_one h (Multiset.mem_coe.1 ho) (decide_eq_true po)
      (Multiset.mem_coe.1 ht) (decide_eq_true pt)

theorem Ledger.Sound.key_unique (h : b.Sound k) {key : SubscriberKey} {thing other : Holding}
    (held : thing ∈ b.holdings) (named : thing.key? = some key) (held' : other ∈ b.holdings)
    (named' : other.key? = some key) : other = thing := by
  have hcount : b.count Holding.key? key ≤ 1 := by
    have hkey := h.keys key
    split at hkey <;> omega
  exact eq_of_countP_le_one hcount held named held' named'

theorem Ledger.Sound.key_lt (h : b.Sound k) {key : SubscriberKey} {thing : Holding}
    (held : thing ∈ b.holdings) (named : thing.key? = some key) : key.val < b.nextKey := by
  have hkey := h.keys key
  have hpos : 0 < b.count Holding.key? key := count_pos held named
  split at hkey
  next hlt => exact hlt
  next => omega

end

/-! ### The standing of a key in a state -/

namespace State

/-- The units in whose queues a key waits, as often as it does. -/
def waitingUnder (s : State) (key : SubscriberKey) : List UnitKey :=
  s.pending.entries.flatMap fun entry => (entry.2.filter fun w => w.key = key).map fun _ => entry.1

def additions (s : State) (key : SubscriberKey) : List OperationId :=
  s.continuations.keysWhere fun
    | .subscribe other _ _ _ _ => other = key
    | _ => false

def standing (s : State) (key : SubscriberKey) : Standing :=
  if s.nextKey ≤ key.val then .unassigned
  else if s.waitingUnder key ≠ [] then .waiting
  else if s.additions key ≠ [] then .adding
  else if s.index.contains key then .active
  else .gone

variable {s : State} {key : SubscriberKey} {k : Knowledge}

theorem mem_waitingUnder {unit : UnitKey} :
    unit ∈ s.waitingUnder key ↔ ∃ w, waiting unit w ∈ (s.ledger 0).holdings ∧ w.key = key := by
  simp only [waitingUnder, List.mem_flatMap, List.mem_map, List.mem_filter, decide_eq_true_eq,
    waiting_mem_ledger, Multiset.notMem_zero, or_false]
  constructor
  · rintro ⟨⟨unit', queue⟩, hentry, w, ⟨hmem, hkey⟩, rfl⟩
    exact ⟨w, ⟨queue, get?_eq_some_iff.2 hentry, hmem⟩, hkey⟩
  · rintro ⟨w, ⟨queue, hget, hmem⟩, hkey⟩
    exact ⟨(unit, queue), get?_eq_some_iff.1 hget, w, ⟨hmem, hkey⟩, rfl⟩

theorem mem_additions {operation : OperationId} :
    operation ∈ s.additions key ↔ ∃ connection processor reply closed,
      s.continuations.get? operation =
        some (.subscribe key connection processor reply closed) := by
  rw [additions, mem_keysWhere]
  constructor
  · rintro ⟨continuation, hget, htest⟩
    cases continuation with
    | subscribe other connection processor reply closed =>
      simp only [decide_eq_true_eq] at htest
      subst htest
      exact ⟨connection, processor, reply, closed, hget⟩
    | _ => cases htest
  · rintro ⟨connection, processor, reply, closed, hget⟩
    exact ⟨_, hget, by simp⟩

theorem length_waitingUnder (s : State) (key : SubscriberKey) :
    (s.waitingUnder key).length = (s.ledger 0).count queued? key := by
  have hcount : (s.ledger 0).count queued? key =
      (s.pending.contents queueHoldings).countP fun thing => queued? thing = some key := by
    rw [count_ledger, countP_buckets fun _ _ => rfl]
    simp [queued?]
  rw [hcount, waitingUnder, contents]
  induction s.pending.entries with
  | nil => rfl
  | cons entry entries ih =>
    rw [List.flatMap_cons, List.length_append, List.map_cons, List.sum_cons, Multiset.countP_add,
      ih, queueHoldings, Multiset.coe_countP, List.countP_map, List.length_map,
      List.countP_eq_length_filter]
    congr 2
    refine List.filter_congr fun w _ => ?_
    simp [queued?]

theorem length_additions (s : State) (key : SubscriberKey) :
    (s.additions key).length = (s.ledger 0).count adding? key := by
  refine (count_calls (fun _ _ => rfl) (fun _ _ => rfl) (fun _ _ => rfl) ?_).symm
  intro continuation
  cases continuation <;> simp [adding?]

theorem count_key (b : Ledger) (key : SubscriberKey) :
    b.count key? key = b.count queued? key + b.count adding? key + b.count active? key := by
  simp only [Ledger.count]
  induction b.holdings using Multiset.induction_on with
  | empty => simp
  | cons thing things ih =>
    simp only [Multiset.countP_cons, ih]
    rcases thing with _ | _ | _ | continuation | _
    case ongoing => cases continuation <;> simp [key?, queued?, adding?, active?]; omega
    all_goals simp [key?, queued?, adding?, active?]
    all_goals omega

/-- A key stands for one thing at most, and for none before it was assigned. -/
theorem places_le (sound : (s.ledger 0).Sound k) (key : SubscriberKey) :
    (s.waitingUnder key).length + (s.additions key).length +
        (if s.index.contains key then 1 else 0) ≤ if key.val < s.nextKey then 1 else 0 := by
  have hkeys := sound.keys key
  have hactive : (if s.index.contains key then 1 else 0) ≤ (s.ledger 0).count active? key := by
    split
    next hcontains =>
      obtain ⟨entry, hentry⟩ := Option.isSome_iff_exists.1 hcontains
      have hheld : indexed key entry ∈ (s.ledger 0).holdings := indexed_mem_ledger.2 (.inl hentry)
      exact Ledger.count_pos hheld rfl
    next => exact Nat.zero_le _
  rw [count_key] at hkeys
  rw [length_waitingUnder, length_additions]
  exact Nat.le_trans (Nat.add_le_add_left hactive _) hkeys

/-- Where a key stands is where it is found, once, and nowhere else. -/
theorem standing_spec (sound : (s.ledger 0).Sound k) (key : SubscriberKey) :
    (s.waitingUnder key).length = (if s.standing key = .waiting then 1 else 0) ∧
    (s.additions key).length = (if s.standing key = .adding then 1 else 0) ∧
    (s.index.contains key = true ↔ s.standing key = .active) ∧
    (s.standing key = .unassigned ↔ s.nextKey ≤ key.val) := by
  have hplaces := places_le sound key
  have hwaiting : s.waitingUnder key ≠ [] ↔ 0 < (s.waitingUnder key).length :=
    List.length_pos_iff.symm
  have hadding : s.additions key ≠ [] ↔ 0 < (s.additions key).length := List.length_pos_iff.symm
  simp only [standing, hwaiting, hadding]
  grind

theorem of_eq_ite {p : Prop} [Decidable p] {n : Nat} (h : n = if p then 1 else 0) (pos : 0 < n) :
    p := by
  by_contra hnot
  rw [if_neg hnot] at h
  omega

theorem standing_of_held (sound : (s.ledger 0).Sound k) {thing : Holding}
    (held : thing ∈ (s.ledger 0).holdings) (named : thing.key? = some key) :
    s.standing key = thing.standing := by
  obtain ⟨hwaiting, hadding, hactive, -⟩ := standing_spec sound key
  cases thing with
  | waiting unit w =>
    have hmem : unit ∈ s.waitingUnder key := mem_waitingUnder.2 ⟨w, held, Option.some.inj named⟩
    exact of_eq_ite hwaiting (List.length_pos_of_mem hmem)
  | indexed other entry =>
    cases named
    have hget := (indexed_mem_ledger.1 held).resolve_right (Multiset.notMem_zero _)
    exact hactive.1 (by rw [Table.contains, hget, Option.isSome_some])
  | ongoing continuation =>
    cases continuation with
    | subscribe other connection processor reply closed =>
      cases named
      obtain ⟨operation, hget⟩ :=
        (ongoing_mem_ledger.1 held).resolve_right (Multiset.notMem_zero _)
      have hmem : operation ∈ s.additions key :=
        mem_additions.2 ⟨connection, processor, reply, closed, hget⟩
      exact of_eq_ite hadding (List.length_pos_of_mem hmem)
    | _ => cases named
  | _ => cases named

/-- Of a key that stands somewhere something is held. -/
theorem held_of_standing (sound : (s.ledger 0).Sound k) (some : s.standing key ≠ .unassigned)
    (here : s.standing key ≠ .gone) :
    ∃ thing ∈ (s.ledger 0).holdings, thing.key? = .some key := by
  obtain ⟨hwaiting, hadding, hactive, -⟩ := standing_spec sound key
  cases hstanding : s.standing key with
  | unassigned => exact absurd hstanding some
  | gone => exact absurd hstanding here
  | waiting =>
    rw [hstanding, if_pos rfl] at hwaiting
    obtain ⟨unit, hunit⟩ := List.exists_mem_of_length_pos (hwaiting.symm ▸ Nat.one_pos)
    obtain ⟨w, hheld, rfl⟩ := mem_waitingUnder.1 hunit
    exact ⟨_, hheld, rfl⟩
  | adding =>
    rw [hstanding, if_pos rfl] at hadding
    obtain ⟨operation, hoperation⟩ := List.exists_mem_of_length_pos (hadding.symm ▸ Nat.one_pos)
    obtain ⟨connection, processor, reply, closed, hget⟩ := mem_additions.1 hoperation
    exact ⟨_, ongoing_mem_ledger.2 (.inl ⟨operation, hget⟩), rfl⟩
  | active =>
    obtain ⟨entry, hentry⟩ := Option.isSome_iff_exists.1 (hactive.2 hstanding)
    exact ⟨_, indexed_mem_ledger.2 (.inl hentry), rfl⟩

end State

/-! ### Standings in a run -/

namespace World

variable {w w' : World} {moment : Moment} {creditCapacity : Nat} {key : SubscriberKey}

theorem reachable_of_steps (h : Reachable creditCapacity w)
    (steps : Relation.ReflTransGen Step w w') : Reachable creditCapacity w' := by
  induction steps with
  | refl => exact h
  | tail _ step ih => exact ih.next step

theorem nextKey_le_of_steps (h : Reachable creditCapacity w)
    (steps : Relation.ReflTransGen Step w w') : w.state.nextKey ≤ w'.state.nextKey := by
  induction steps with
  | refl => exact Nat.le_refl _
  | tail earlier step ih =>
    obtain ⟨moment, hposted⟩ :=
      posted_of_step (consistent_of_reachable (reachable_of_steps h earlier)) step
    exact Nat.le_trans ih hposted.nextKey_le

theorem Posted.leads (posted : w.Posted moment w') {thing' : Holding}
    (held : thing' ∈ (w'.state.ledger 0).holdings) (named : thing'.key? = some key)
    (old : key.val < w.state.nextKey) :
    ∃ thing ∈ (w.state.ledger 0).holdings, thing.Leads thing' := by
  obtain ⟨thing, hthing, hleads⟩ := posted.moves.leads held named old
  rw [State.ledger_hand] at hthing
  rcases Multiset.mem_add.1 hthing with hthing | howed
  · exact ⟨thing, hthing, hleads⟩
  · -- a reply that is owed stands for no key
    cases hreply : moment.event.reply? with
    | none =>
      rw [hreply, owed] at howed
      exact absurd howed (Multiset.notMem_zero _)
    | some reply =>
      rw [hreply, owed, Multiset.mem_singleton] at howed
      subst howed
      cases hleads.key?.symm.trans named

/-- What is held under a key comes from what was held under it. -/
theorem Posted.leads_to (h : w.Consistent) (posted : w.Posted moment w') {thing thing' : Holding}
    (held : thing ∈ (w.state.ledger 0).holdings) (named : thing.key? = some key)
    (held' : thing' ∈ (w'.state.ledger 0).holdings) (named' : thing'.key? = some key) :
    thing.Leads thing' := by
  obtain ⟨first, hfirst, hleads⟩ := posted.leads held' named' (h.sound.key_lt held named)
  rw [h.sound.key_unique held named hfirst (hleads.key?.symm.trans named')] at hleads
  exact hleads

/-- In a run, too, what is held under a key that is not new has come from what was held under it. -/
theorem leads_of_steps (h : Reachable creditCapacity w) (steps : Relation.ReflTransGen Step w w')
    {thing' : Holding} (held : thing' ∈ (w'.state.ledger 0).holdings)
    (named : thing'.key? = some key) (old : key.val < w.state.nextKey) :
    ∃ thing ∈ (w.state.ledger 0).holdings, thing.Leads thing' := by
  induction steps generalizing thing' with
  | refl => exact ⟨thing', held, .stay _⟩
  | tail earlier step ih =>
    obtain ⟨moment, hposted⟩ :=
      posted_of_step (consistent_of_reachable (reachable_of_steps h earlier)) step
    obtain ⟨middle, hmiddle, hlast⟩ := hposted.leads held named
      (Nat.lt_of_lt_of_le old (nextKey_le_of_steps h earlier))
    obtain ⟨first, hfirst, hleads⟩ := ih hmiddle (hlast.key?.symm.trans named)
    exact ⟨first, hfirst, hleads.trans hlast⟩

theorem standing_spec (h : Reachable creditCapacity w) (key : SubscriberKey) :
    (w.state.waitingUnder key).length = (if w.state.standing key = .waiting then 1 else 0) ∧
    (w.state.additions key).length = (if w.state.standing key = .adding then 1 else 0) ∧
    (w.state.index.contains key = true ↔ w.state.standing key = .active) ∧
    (w.state.standing key = .unassigned ↔ w.state.nextKey ≤ key.val) :=
  State.standing_spec (consistent_of_reachable h).sound key

/-- A subscription goes forward only. -/
theorem rank_le_of_steps (h : Reachable creditCapacity w)
    (steps : Relation.ReflTransGen Step w w') (key : SubscriberKey) :
    (w.state.standing key).rank ≤ (w'.state.standing key).rank := by
  have h' := reachable_of_steps h steps
  by_cases hassigned : w.state.standing key = .unassigned
  · rw [hassigned]
    exact Nat.zero_le _
  by_cases hgone : w'.state.standing key = .gone
  · rw [hgone]
    cases w.state.standing key <;> decide
  have hold : key.val < w.state.nextKey :=
    Nat.lt_of_not_le fun hnew => hassigned ((standing_spec h key).2.2.2.2 hnew)
  have hassigned' : w'.state.standing key ≠ .unassigned := by
    intro hnew
    have hle := (standing_spec h' key).2.2.2.1 hnew
    have hlater := nextKey_le_of_steps h steps
    omega
  have hsound := (consistent_of_reachable h).sound
  have hsound' := (consistent_of_reachable h').sound
  obtain ⟨thing', hheld', hnamed'⟩ := State.held_of_standing hsound' hassigned' hgone
  obtain ⟨thing, hheld, hleads⟩ := leads_of_steps h steps hheld' hnamed' hold
  rw [State.standing_of_held hsound hheld (hleads.key?.symm.trans hnamed'),
    State.standing_of_held hsound' hheld' hnamed']
  exact hleads.rank_le

end World

end JobBroker.Manager
