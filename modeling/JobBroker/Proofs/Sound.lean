import JobBroker.Proofs.Ledger

/-!
# What moves keep

A thing in a ledger can stand for a key, a reply, a reference, or one of the three stages of a
unit. How many things stand for the same is bounded, and agrees with the counts that are kept
beside the bag; every move keeps it so. This one invariant is what everything else about a
manager is read off.
-/

namespace JobBroker.Manager

/-! ### What a thing stands for -/

namespace Holding

def key? : Holding → Option SubscriberKey
  | waiting _ w => some w.key
  | indexed key _ => some key
  | ongoing (.subscribe key _ _ _ _) => some key
  | _ => none

def reply? : Holding → Option Ticket
  | waiting _ w => some w.reply
  | ongoing (.subscribe _ _ _ reply _) => some reply
  | ongoing (.unsubscribe _ reply) => some reply
  | ongoing (.teardown _ reply) => reply
  | owing reply => some reply
  | _ => none

def reference? : Holding → Option ProcessorId
  | indexed _ entry => some entry.processor.id
  | ongoing (.subscribe _ _ processor _ _) => some processor.id
  | _ => none

def building? : Holding → Option UnitKey
  | ongoing (.build unit) => some unit.key
  | _ => none

def serving? : Holding → Option UnitKey
  | registered _ processor => some processor.key
  | _ => none

def stopping? : Holding → Option UnitKey
  | ongoing (.teardown processor _) => some processor.key
  | _ => none

end Holding

/-- A key was given to a subscription for a unit and from a connection. -/
def Knowledge.Asked (k : Knowledge) (key : SubscriberKey) (unit : UnitKey)
    (connection : ConnectionId) : Prop :=
  ∃ subscription, k.assigned key subscription ∧ subscription.unitKey = unit ∧
    subscription.connection = connection

/-- A thing says nothing that the history does not bear out. -/
def Holding.Proper (k : Knowledge) (count : Nat) : Holding → Prop
  | registered partition processor => processor.partition = partition ∧ k.Knows count processor
  | waiting unit w => k.Asked w.key unit w.subscription.connection
  | indexed key entry =>
    k.Asked key entry.processor.key entry.connection ∧ k.accepted key entry.processor ∧
      k.Knows count entry.processor
  | ongoing (.subscribe key connection processor _ _) =>
    k.Asked key processor.key connection ∧ k.Knows count processor
  | ongoing (.unsubscribe processor _) => k.Knows count processor
  | ongoing (.teardown processor _) => k.Knows count processor
  | ongoing (.sweep processor _) => k.Knows count processor
  | _ => True

theorem Knowledge.Knows.later {k : Knowledge} {count n : Nat} {processor : Processor}
    (h : k.Knows count processor) (le : count ≤ n) : k.Knows n processor :=
  ⟨h.1, Nat.lt_of_lt_of_le h.2 le⟩

theorem Holding.Proper.later {k : Knowledge} {count n : Nat} {thing : Holding}
    (h : thing.Proper k count) (le : count ≤ n) : thing.Proper k n := by
  rcases thing with ⟨partition, processor⟩ | ⟨unit, w⟩ | ⟨key, entry⟩ | continuation | reply
  · exact ⟨h.1, h.2.later le⟩
  · exact h
  · exact ⟨h.1, h.2.1, h.2.2.later le⟩
  · cases continuation with
    | build => trivial
    | subscribe => exact ⟨h.1, h.2.later le⟩
    | unsubscribe => exact Knowledge.Knows.later h le
    | teardown => exact Knowledge.Knows.later h le
    | sweep => exact Knowledge.Knows.later h le
  · trivial

/-- No two processors were built under one id. -/
def Knowledge.Distinct (k : Knowledge) : Prop :=
  ∀ processor other, k.built processor → k.built other → processor.id = other.id →
    processor = other

namespace Ledger

variable {α : Type} [DecidableEq α]

def count (b : Ledger) (role : Holding → Option α) (a : α) : Nat :=
  b.holdings.countP fun thing => role thing = some a

theorem count_plus (b : Ledger) (role : Holding → Option α) (a : α) (thing : Holding) :
    (b.plus {thing}).count role a = b.count role a + if role thing = some a then 1 else 0 := by
  rw [plus, count, count, Multiset.countP_add, ← Multiset.cons_zero, Multiset.countP_cons,
    Multiset.countP_zero, Nat.zero_add]

theorem count_plus_none {b : Ledger} {role : Holding → Option α} {thing : Holding}
    (h : role thing = none) (a : α) : (b.plus {thing}).count role a = b.count role a := by
  rw [count_plus, h, if_neg (Option.some_ne_none a).symm, Nat.add_zero]

theorem count_pos {b : Ledger} {role : Holding → Option α} {a : α} {thing : Holding}
    (held : thing ∈ b.holdings) (stands : role thing = some a) : 0 < b.count role a :=
  Multiset.countP_pos.2 ⟨thing, held, stands⟩

theorem count_eq_zero {b : Ledger} {role : Holding → Option α} {a : α} :
    b.count role a = 0 ↔ ∀ thing ∈ b.holdings, role thing ≠ some a := Multiset.countP_eq_zero

@[simp] theorem count_acquire (b : Ledger) (id : ProcessorId) (role : Holding → Option α) (a : α) :
    (b.acquire id).count role a = b.count role a := rfl

@[simp] theorem count_release (b : Ledger) (id : ProcessorId) (role : Holding → Option α) (a : α) :
    (b.release id).count role a = b.count role a := rfl

@[simp] theorem count_await (b : Ledger) (key : UnitKey) (role : Holding → Option α) (a : α) :
    (b.await key).count role a = b.count role a := rfl

@[simp] theorem count_forget (b : Ledger) (key : UnitKey) (role : Holding → Option α) (a : α) :
    (b.forget key).count role a = b.count role a := rfl

@[simp] theorem count_retire (b : Ledger) (key : UnitKey) (role : Holding → Option α) (a : α) :
    (b.retire key).count role a = b.count role a := rfl

@[simp] theorem count_unretire (b : Ledger) (key : UnitKey) (role : Holding → Option α) (a : α) :
    (b.unretire key).count role a = b.count role a := rfl

@[simp] theorem count_takeKey (b : Ledger) (role : Holding → Option α) (a : α) :
    b.takeKey.count role a = b.count role a := rfl

@[simp] theorem count_takeId (b : Ledger) (role : Holding → Option α) (a : α) :
    b.takeId.count role a = b.count role a := rfl

theorem mem_plus {b : Ledger} {thing new : Holding} :
    thing ∈ (b.plus {new}).holdings ↔ thing ∈ b.holdings ∨ thing = new := by
  rw [plus, Multiset.mem_add, Multiset.mem_singleton]

def Proper (k : Knowledge) (b : Ledger) : Prop :=
  ∀ thing ∈ b.holdings, thing.Proper k b.nextProcessor

theorem proper_plus {k : Knowledge} {b : Ledger} {new : Holding} :
    (b.plus {new}).Proper k ↔ b.Proper k ∧ new.Proper k b.nextProcessor := by
  simp only [Proper, mem_plus, or_imp, forall_and, forall_eq]
  rfl

theorem Proper.takeId {k : Knowledge} {b : Ledger} (h : b.Proper k) : b.takeId.Proper k :=
  fun thing held => (h thing held).later (Nat.le_succ _)

def Routed (b : Ledger) : Prop :=
  ∀ key entry, Holding.indexed key entry ∈ b.holdings →
    Holding.registered entry.processor.partition entry.processor ∈ b.holdings

structure Sound (k : Knowledge) (b : Ledger) : Prop where
  proper : b.Proper k
  keys : ∀ key, b.count Holding.key? key ≤ if key.val < b.nextKey then 1 else 0
  units : ∀ key, b.count Holding.building? key + b.count Holding.serving? key +
    b.count Holding.stopping? key ≤ 1
  retired : ∀ key, b.retiring key = b.count Holding.stopping? key
  awaited : ∀ key, if b.awaited key then
      b.count Holding.building? key + b.count Holding.stopping? key = 1
    else b.count Holding.building? key = 0
  referred : ∀ id, b.references id = b.count Holding.reference? id
  routed : b.Routed

theorem Sound.owe {k : Knowledge} {b : Ledger} (h : b.Sound k) (reply : Ticket) :
    (b.plus {Holding.owing reply}).Sound k where
  proper := proper_plus.2 ⟨h.proper, trivial⟩
  keys key := by
    rw [count_plus_none rfl]
    exact h.keys key
  units key := by
    rw [count_plus_none rfl, count_plus_none rfl, count_plus_none rfl]
    exact h.units key
  retired key := by
    rw [count_plus_none rfl]
    exact h.retired key
  awaited key := by
    rw [count_plus_none rfl, count_plus_none rfl]
    exact h.awaited key
  referred id := by
    rw [count_plus_none rfl]
    exact h.referred id
  routed := by
    intro key entry held
    rcases mem_plus.1 held with held | held
    · exact mem_plus.2 (.inl (h.routed key entry held))
    · cases held

theorem Sound.mono {k k' : Knowledge} {b : Ledger} (h : b.Sound k)
    (built : ∀ processor, k.built processor → k'.built processor)
    (assigned : ∀ key subscription, k.assigned key subscription → k'.assigned key subscription)
    (accepted : ∀ key processor, k.accepted key processor → k'.accepted key processor) :
    b.Sound k' := by
  have hasked : ∀ key unit connection, k.Asked key unit connection →
      k'.Asked key unit connection := by
    rintro key unit connection ⟨subscription, hassigned, hunit⟩
    exact ⟨subscription, assigned key subscription hassigned, hunit⟩
  have hknows : ∀ count processor, k.Knows count processor → k'.Knows count processor := by
    rintro count processor ⟨hbuilt, hlt⟩
    exact ⟨built processor hbuilt, hlt⟩
  refine ⟨?_, h.keys, h.units, h.retired, h.awaited, h.referred, h.routed⟩
  intro thing held
  have hproper := h.proper thing held
  rcases thing with ⟨partition, processor⟩ | ⟨unit, w⟩ | ⟨key, entry⟩ | continuation | reply
  · exact ⟨hproper.1, hknows _ _ hproper.2⟩
  · exact hasked _ _ _ hproper
  · exact ⟨hasked _ _ _ hproper.1, accepted _ _ hproper.2.1, hknows _ _ hproper.2.2⟩
  · cases continuation with
    | build => trivial
    | subscribe => exact ⟨hasked _ _ _ hproper.1, hknows _ _ hproper.2⟩
    | unsubscribe => exact hknows _ _ hproper
    | teardown => exact hknows _ _ hproper
    | sweep => exact hknows _ _ hproper
  · trivial

theorem Sound.serving_eq_zero {k : Knowledge} {b : Ledger} (h : b.Sound k) {unit : UnitKey}
    (absent : ∀ processor, Holding.registered unit.partition processor ∈ b.holdings →
      processor.jobType ≠ unit.jobType) : b.count Holding.serving? unit = 0 := by
  rw [count_eq_zero]
  intro thing held stands
  cases thing with
  | registered partition processor =>
    have hkey : processor.key = unit := Option.some.inj stands
    have hpartition : processor.partition = partition := (h.proper _ held).1
    rw [← hpartition] at held
    refine absent processor ?_ (congrArg UnitKey.jobType hkey)
    rw [← hkey]
    exact held
  | _ => cases stands

end Ledger

namespace Move

open Ledger Holding

variable {k : Knowledge} {b b' : Ledger} {signs : List Sign} {settled : List Ticket}

theorem proper (h : Move k b signs settled b') (before : b.Proper k) : b'.Proper k := by
  cases h with
  | settle => exact (proper_plus.1 before).1
  | enter b w subscription key assigned same =>
    have hconnection : w.subscription.connection = subscription.connection := by rw [same]
    refine proper_plus.2 ⟨(proper_plus.1 before).1, ?_⟩
    exact ⟨subscription, assigned, rfl, hconnection.symm⟩
  | hand b key w processor registered jobType =>
    obtain ⟨hrest, hasked⟩ := proper_plus.1 before
    obtain ⟨hpartition, hknown⟩ := hrest _ registered
    have hkey : processor.key = key := by
      rw [show key = ⟨key.partition, key.jobType⟩ from rfl, ← hpartition, ← jobType]
      rfl
    exact proper_plus.2 ⟨hrest, hkey ▸ hasked, hknown⟩
  | abandon => exact proper_plus.2 ⟨(proper_plus.1 before).1, trivial⟩
  | ask => exact proper_plus.2 ⟨before, trivial⟩
  | defer => exact before
  | fail => exact (proper_plus.1 before).1
  | register b processor built id =>
    have hrest := Proper.takeId (proper_plus.1 before).1
    refine proper_plus.2 ⟨hrest, rfl, built, ?_⟩
    rw [id]
    exact Nat.lt_succ_self _
  | spare b processor built id =>
    have hrest := Proper.takeId (proper_plus.1 before).1
    refine proper_plus.2 ⟨hrest, built, ?_⟩
    rw [id]
    exact Nat.lt_succ_self _
  | accept b key connection processor reply accepted =>
    obtain ⟨hrest, hasked, hknown⟩ := proper_plus.1 before
    exact proper_plus.2 ⟨proper_plus.2 ⟨hrest, hasked, accepted, hknown⟩, trivial⟩
  | refuse => exact proper_plus.2 ⟨(proper_plus.1 before).1, trivial⟩
  | unindex => exact (proper_plus.1 before).1
  | retire b processor =>
    obtain ⟨hrest, -, hknown⟩ := proper_plus.1 before
    exact proper_plus.2 ⟨hrest, hknown⟩
  | entrust =>
    obtain ⟨hrest, hknown⟩ := proper_plus.1 (proper_plus.1 before).1
    exact proper_plus.2 ⟨hrest, hknown⟩
  | answer =>
    obtain ⟨hrest, hknown⟩ := proper_plus.1 before
    exact proper_plus.2 ⟨proper_plus.2 ⟨hrest, hknown⟩, trivial⟩
  | stop => exact (proper_plus.1 before).1
  | stopForgotten => exact (proper_plus.1 before).1
  | restart => exact proper_plus.2 ⟨(proper_plus.1 before).1, trivial⟩
  | unsubscribe b processor reply known =>
    exact proper_plus.2 ⟨(proper_plus.1 before).1, known⟩
  | unsubscribed => exact proper_plus.2 ⟨(proper_plus.1 before).1, trivial⟩
  | sweep b processor connection known => exact proper_plus.2 ⟨before, known⟩
  | swept => exact (proper_plus.1 before).1
  | mark =>
    obtain ⟨hrest, hasked⟩ := proper_plus.1 before
    exact proper_plus.2 ⟨hrest, hasked⟩

theorem keys (h : Move k b signs settled b') (sound : b.Sound k) (key : SubscriberKey) :
    b'.count key? key ≤ if key.val < b'.nextKey then 1 else 0 := by
  have hkey := sound.keys key
  cases h <;> simp only [count_acquire, count_release, count_await, count_forget,
    count_retire, count_unretire, count_takeKey, count_takeId, count_plus, key?, reduceCtorEq,
    if_false, Nat.add_zero] at hkey ⊢
  case enter b w subscription new assigned same =>
    change b.count _ _ ≤ if key.val < b.nextKey then 1 else 0 at hkey
    show b.count _ _ + _ ≤ if key.val < b.nextKey + 1 then 1 else 0
    cases key with
    | mk val =>
      simp only [new, Option.some.injEq, SubscriberKey.mk.injEq] at hkey ⊢
      split at hkey <;> split <;> split <;> omega
  case abandon | refuse | unindex => exact Nat.le_trans (Nat.le_add_right ..) hkey
  all_goals exact hkey

theorem units (h : Move k b signs settled b') (sound : b.Sound k) (key : UnitKey) :
    b'.count building? key + b'.count serving? key + b'.count stopping? key ≤ 1 := by
  have hunits := sound.units key
  cases h <;> simp only [count_acquire, count_release, count_await, count_forget,
    count_retire, count_unretire, count_takeKey, count_takeId, count_plus, building?, serving?,
    stopping?, reduceCtorEq, if_false, Nat.add_zero, Option.some.injEq] at hunits ⊢
  case ask unit new rested absent =>
    have hawaited := sound.awaited unit.key
    rw [new] at hawaited
    have hbuilding : _ = 0 := hawaited
    have hserving : b.count serving? unit.key = 0 := sound.serving_eq_zero absent
    have hstopping := (sound.retired unit.key).symm.trans rested
    split
    next heq => subst heq; omega
    next => omega
  case restart b processor unit same awaited =>
    rw [same]
    omega
  case register | spare =>
    change _ + (if Processor.key _ = key then 1 else 0) + _ + _ ≤ 1 at hunits
    omega
  all_goals omega

theorem retired (h : Move k b signs settled b') (sound : b.Sound k) (key : UnitKey) :
    b'.retiring key = b'.count stopping? key := by
  have hretired := sound.retired key
  cases h <;> simp only [count_acquire, count_release, count_await, count_forget,
    count_retire, count_unretire, count_takeKey, count_takeId, count_plus, stopping?,
    reduceCtorEq, if_false, Nat.add_zero, Option.some.injEq] at hretired ⊢
  case spare b processor _ _ | retire b processor _ =>
    change b.retiring key = _ at hretired
    show (if key = processor.key then b.retiring key + 1 else b.retiring key) = _
    rw [hretired]
    grind
  case stop b processor _ | stopForgotten b processor | restart b processor _ _ _ =>
    change b.retiring key = _ at hretired
    show (if key = processor.key then b.retiring key - 1 else b.retiring key) = _
    rw [hretired]
    grind
  all_goals exact hretired

/-- For what waits a unit is being built or one is stopping, and nothing else is built. -/
theorem awaited (h : Move k b signs settled b') (sound : b.Sound k) (key : UnitKey) :
    if b'.awaited key then b'.count building? key + b'.count stopping? key = 1
    else b'.count building? key = 0 := by
  have hawaited := sound.awaited key
  have hunits := sound.units key
  have hretired := sound.retired key
  cases h <;> simp only [count_acquire, count_release, count_await, count_forget,
    count_retire, count_unretire, count_takeKey, count_takeId, count_plus, building?, serving?,
    stopping?, reduceCtorEq, if_false, Nat.add_zero, Option.some.injEq]
    at hawaited hunits hretired ⊢
  case ask unit new rested _ =>
    show if (if key = unit.key then true else b.awaited key) then _ else _
    grind
  case defer unit new retiring =>
    show if (if key = unit then true else b.awaited key) then _ else _
    grind
  case fail b unit =>
    change if b.awaited key then _ else _ at hawaited
    show if (if key = unit.key then false else b.awaited key) then _ else _
    grind
  case register b processor _ _ | spare b processor _ _ =>
    change if b.awaited key then _ + (if processor.key = key then 1 else 0) + _ = 1
      else _ + (if processor.key = key then 1 else 0) = 0 at hawaited
    change (_ + if processor.key = key then 1 else 0) + _ + _ ≤ 1 at hunits
    show if (if key = processor.key then false else b.awaited key) then _ else _
    grind
  case retire b processor _ =>
    change if b.awaited key then _ else _ at hawaited
    show if b.awaited key then _ else _
    grind
  case stop b processor free =>
    change if b.awaited key then _ else _ at hawaited
    show if b.awaited key then _ else _
    grind
  case stopForgotten b processor =>
    change if b.awaited key then _ else _ at hawaited
    show if (if key = processor.key then false else b.awaited key) then _ else _
    grind
  case restart b processor unit same _ =>
    change if b.awaited key then _ else _ at hawaited
    show if b.awaited key then _ else _
    rw [same]
    grind
  all_goals exact hawaited

theorem referred (h : Move k b signs settled b') (sound : b.Sound k) (id : ProcessorId) :
    b'.references id = b'.count reference? id := by
  have hreferred := sound.referred id
  cases h <;> simp only [count_acquire, count_release, count_await, count_forget,
    count_retire, count_unretire, count_takeKey, count_takeId, count_plus, reference?,
    reduceCtorEq, if_false, Nat.add_zero, Option.some.injEq] at hreferred ⊢
  case hand b key w processor _ _ =>
    change b.references id = _ at hreferred
    show (if id = processor.id then b.references id + 1 else b.references id) = _
    grind
  case refuse b key connection processor reply closed =>
    change b.references id = _ at hreferred
    show (if id = processor.id then b.references id - 1 else b.references id) = _
    grind
  case unindex b key entry _ =>
    change b.references id = _ at hreferred
    show (if id = entry.processor.id then b.references id - 1 else b.references id) = _
    grind
  all_goals exact hreferred

theorem routed (h : Move k b signs settled b') (sound : b.Sound k) : b'.Routed := by
  have hrouted := sound.routed
  cases h <;> simp only [Routed, mem_plus, reduceCtorEq, or_false,
    indexed.injEq, registered.injEq] at hrouted ⊢
  case register =>
    intro key entry held
    exact .inl (hrouted key entry held)
  case accept key' connection processor reply accepted registered _ =>
    rintro key entry (held | ⟨rfl, rfl⟩)
    · exact hrouted key entry held
    · exact registered
  case unindex =>
    intro key entry held
    exact hrouted key entry (.inl held)
  case retire b processor unused =>
    intro key entry held
    rcases hrouted key entry held with hregistered | ⟨hpartition, rfl⟩
    · exact hregistered
    · -- an entry for the processor itself would be a reference to it
      rcases unused with ⟨-, hzero⟩ | ⟨-, hpurged⟩
      · have hreferred := sound.referred entry.processor.id
        have hpos : 0 < b.count reference? entry.processor.id := count_pos held rfl
        simp only [count_plus, reference?, reduceCtorEq, if_false, Nat.add_zero] at hreferred
        exact absurd (hreferred.symm.trans hzero) (Nat.ne_of_gt hpos)
      · exact absurd rfl (hpurged key entry held)
  all_goals exact hrouted

theorem sound (h : Move k b signs settled b') (before : b.Sound k) : b'.Sound k where
  proper := h.proper before.proper
  keys := h.keys before
  units := h.units before
  retired := h.retired before
  awaited := h.awaited before
  referred := h.referred before
  routed := h.routed before

end Move

end JobBroker.Manager
