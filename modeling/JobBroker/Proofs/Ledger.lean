import JobBroker.Proofs.Run
import JobBroker.Proofs.Contents

/-!
# The ledger of a manager

What a manager holds, as a bag: processors that are registered, subscriptions that wait, index
entries, calls that are under way, and replies that are owed. A ledger is such a bag with the
counts that a manager keeps beside it. Between the beginning and the end of a turn some of the
bag is not in any table but in the hands of the turn; the ledger does not tell the difference, so
that whatever happens in a turn is a sequence of moves, each of which takes a few things out of
the ledger and puts a few others in.
-/

namespace JobBroker

def JobSubscription.unitKey (subscription : JobSubscription) : UnitKey :=
  ⟨subscription.partition, subscription.jobType⟩

namespace Manager

inductive Holding where
  | registered (partition : PartitionId) (processor : Processor)
  | waiting (unit : UnitKey) (waiting : Waiting)
  | indexed (key : SubscriberKey) (entry : IndexEntry)
  | ongoing (continuation : Continuation)
  | owing (reply : Ticket)

/-- The reply that a call under way has taken over, if it has. -/
def Holding.owed : Option Ticket → Multiset Holding
  | none => 0
  | some reply => {owing reply}

@[ext] structure Ledger where
  holdings : Multiset Holding
  references : ProcessorId → Nat
  retiring : UnitKey → Nat
  awaited : UnitKey → Bool
  nextKey : Nat
  nextProcessor : Nat

namespace Ledger

def plus (b : Ledger) (things : Multiset Holding) : Ledger :=
  { b with holdings := b.holdings + things }

def acquire (b : Ledger) (id : ProcessorId) : Ledger :=
  { b with references := fun i => if i = id then b.references i + 1 else b.references i }

def release (b : Ledger) (id : ProcessorId) : Ledger :=
  { b with references := fun i => if i = id then b.references i - 1 else b.references i }

def await (b : Ledger) (key : UnitKey) : Ledger :=
  { b with awaited := fun k => if k = key then true else b.awaited k }

def forget (b : Ledger) (key : UnitKey) : Ledger :=
  { b with awaited := fun k => if k = key then false else b.awaited k }

def retire (b : Ledger) (key : UnitKey) : Ledger :=
  { b with retiring := fun k => if k = key then b.retiring k + 1 else b.retiring k }

def unretire (b : Ledger) (key : UnitKey) : Ledger :=
  { b with retiring := fun k => if k = key then b.retiring k - 1 else b.retiring k }

def takeKey (b : Ledger) : Ledger := { b with nextKey := b.nextKey + 1 }

def takeId (b : Ledger) : Ledger := { b with nextProcessor := b.nextProcessor + 1 }

theorem plus_plus (b : Ledger) (things others : Multiset Holding) :
    (b.plus things).plus others = b.plus (things + others) := by
  simp only [plus, add_assoc]

theorem plus_zero (b : Ledger) : b.plus 0 = b := by simp only [plus, add_zero]

theorem plus_comm (b : Ledger) (things others : Multiset Holding) :
    (b.plus things).plus others = (b.plus others).plus things := by
  rw [plus_plus, plus_plus, add_comm]

end Ledger

/-- What is known from the history: the processors that were built, the subscriptions that were
given keys, the keys that processors have accepted, and the event that was the last. -/
structure Knowledge where
  built : Processor → Prop
  assigned : SubscriberKey → JobSubscription → Prop
  accepted : SubscriberKey → Processor → Prop
  event? : Option Event

def Knowledge.told (k : Knowledge) : Prop := ∃ message, k.event? = some (.told message)

/-- The last event has ended the registration of a partition. -/
def Knowledge.cleared (k : Knowledge) (partition : PartitionId) : Prop :=
  ∃ event, k.event? = some event ∧ event.cleared? = some partition

/-- A processor that was built, under one of the first ids. -/
def Knowledge.Knows (k : Knowledge) (count : Nat) (processor : Processor) : Prop :=
  k.built processor ∧ processor.id.val < count

/-- A processor can be done without: a call has ended and nothing refers to the processor, or its
partition has been cleared and nothing in the index leads there. -/
def Ledger.Dispensable (k : Knowledge) (b : Ledger) (processor : Processor) : Prop :=
  ¬k.told ∧ b.references processor.id = 0 ∨ k.cleared processor.partition ∧
    ∀ key entry, Holding.indexed key entry ∈ b.holdings →
      entry.processor.partition ≠ processor.partition

/-! ### Moves -/

open Holding Continuation in
/-- What can happen to a ledger in one go, with the signs that the outside sees of it and the
futures that it settles. -/
inductive Move (k : Knowledge) : Ledger → List Sign → List Ticket → Ledger → Prop where
  | settle (b : Ledger) (reply : Ticket) :
      Move k (b.plus {owing reply}) [] [reply] b
  | enter (b : Ledger) (w : Waiting) (subscription : JobSubscription)
      (key : w.key = ⟨b.nextKey⟩) (assigned : k.assigned w.key subscription)
      (same : w.subscription = { subscription with key := some w.key }) :
      Move k (b.plus {owing w.reply}) [] []
        (b.takeKey.plus {waiting subscription.unitKey w})
  | hand (b : Ledger) (key : UnitKey) (w : Waiting) (processor : Processor)
      (registered : registered key.partition processor ∈ b.holdings)
      (jobType : processor.jobType = key.jobType) :
      Move k (b.plus {waiting key w}) [.handed (some w.key) processor] []
        ((b.acquire processor.id).plus
          {ongoing (subscribe w.key w.subscription.connection processor w.reply false)})
  | abandon (b : Ledger) (key : UnitKey) (w : Waiting) :
      Move k (b.plus {waiting key w}) [] [] (b.plus {owing w.reply})
  | ask (b : Ledger) (unit : ActivationUnit) (new : b.awaited unit.key = false)
      (rested : b.retiring unit.key = 0)
      (absent : ∀ processor, registered unit.partition.id processor ∈ b.holdings →
        processor.jobType ≠ unit.jobType) :
      Move k b [.asked unit] [] ((b.await unit.key).plus {ongoing (build unit)})
  | defer (b : Ledger) (key : UnitKey) (new : b.awaited key = false)
      (retiring : b.retiring key ≠ 0) : Move k b [] [] (b.await key)
  | fail (b : Ledger) (unit : ActivationUnit) :
      Move k (b.plus {ongoing (build unit)}) [.failed unit] [] (b.forget unit.key)
  | register (b : Ledger) (processor : Processor) (built : k.built processor)
      (id : processor.id = ⟨b.nextProcessor⟩) :
      Move k (b.plus {ongoing (build processor.unit)}) [.built processor.unit] []
        ((b.forget processor.key).takeId.plus {registered processor.partition processor})
  | spare (b : Ledger) (processor : Processor) (built : k.built processor)
      (id : processor.id = ⟨b.nextProcessor⟩) :
      Move k (b.plus {ongoing (build processor.unit)})
        [.built processor.unit, .discarded processor] []
        (((b.forget processor.key).takeId.retire processor.key).plus
          {ongoing (teardown processor none)})
  | accept (b : Ledger) (key : SubscriberKey) (connection : ConnectionId)
      (processor : Processor) (reply : Ticket) (accepted : k.accepted key processor)
      (registered : registered processor.partition processor ∈ b.holdings) (untold : ¬k.told) :
      Move k (b.plus {ongoing (subscribe key connection processor reply false)}) [] []
        ((b.plus {indexed key ⟨processor, connection⟩}).plus {owing reply})
  | refuse (b : Ledger) (key : SubscriberKey) (connection : ConnectionId) (processor : Processor)
      (reply : Ticket) (closed : Bool) :
      Move k (b.plus {ongoing (subscribe key connection processor reply closed)}) [] []
        ((b.release processor.id).plus {owing reply})
  | unindex (b : Ledger) (key : SubscriberKey) (entry : IndexEntry) (told : k.told) :
      Move k (b.plus {indexed key entry}) [] [] (b.release entry.processor.id)
  | retire (b : Ledger) (processor : Processor) (unused : b.Dispensable k processor) :
      Move k (b.plus {registered processor.partition processor}) [.discarded processor] []
        ((b.retire processor.key).plus {ongoing (teardown processor none)})
  | entrust (b : Ledger) (processor : Processor) (reply : Ticket) :
      Move k ((b.plus {ongoing (teardown processor none)}).plus {owing reply}) [] []
        (b.plus {ongoing (teardown processor (some reply))})
  | answer (b : Ledger) (processor : Processor) (reply : Ticket) :
      Move k (b.plus {ongoing (teardown processor (some reply))}) [] []
        ((b.plus {ongoing (teardown processor none)}).plus {owing reply})
  | stop (b : Ledger) (processor : Processor) (free : b.awaited processor.key = false) :
      Move k (b.plus {ongoing (teardown processor none)}) [.stopped processor] []
        (b.unretire processor.key)
  | stopForgotten (b : Ledger) (processor : Processor) :
      Move k (b.plus {ongoing (teardown processor none)}) [.stopped processor] []
        ((b.unretire processor.key).forget processor.key)
  | restart (b : Ledger) (processor : Processor) (unit : ActivationUnit)
      (same : unit.key = processor.key) (awaited : b.awaited processor.key = true) :
      Move k (b.plus {ongoing (teardown processor none)}) [.stopped processor, .asked unit] []
        ((b.unretire processor.key).plus {ongoing (build unit)})
  | unsubscribe (b : Ledger) (processor : Processor) (reply : Ticket)
      (known : k.Knows b.nextProcessor processor) :
      Move k (b.plus {owing reply}) [] [] (b.plus {ongoing (unsubscribe processor reply)})
  | unsubscribed (b : Ledger) (processor : Processor) (reply : Ticket) :
      Move k (b.plus {ongoing (unsubscribe processor reply)}) [] [] (b.plus {owing reply})
  | sweep (b : Ledger) (processor : Processor) (connection : ConnectionId)
      (known : k.Knows b.nextProcessor processor) :
      Move k b [] [] (b.plus {ongoing (sweep processor connection)})
  | swept (b : Ledger) (processor : Processor) (connection : ConnectionId) :
      Move k (b.plus {ongoing (sweep processor connection)}) [] [] b
  | mark (b : Ledger) (key : SubscriberKey) (connection : ConnectionId) (processor : Processor)
      (reply : Ticket) (closed : Bool) :
      Move k (b.plus {ongoing (subscribe key connection processor reply closed)}) [] []
        (b.plus {ongoing (subscribe key connection processor reply true)})

inductive Moves (k : Knowledge) : Ledger → List Sign → List Ticket → Ledger → Prop where
  | rest (b : Ledger) : Moves k b [] [] b
  | next {b b' b'' : Ledger} {signs signs' : List Sign} {settled settled' : List Ticket} :
      Moves k b signs settled b' → Move k b' signs' settled' b'' →
      Moves k b (signs ++ signs') (settled ++ settled') b''

namespace Moves

variable {k : Knowledge} {b b' b'' : Ledger} {signs signs' : List Sign}
  {settled settled' : List Ticket}

theorem single (h : Move k b signs settled b') : Moves k b signs settled b' :=
  (rest b).next h

theorem trans (h : Moves k b signs settled b') (h' : Moves k b' signs' settled' b'') :
    Moves k b (signs ++ signs') (settled ++ settled') b'' := by
  induction h' with
  | rest => simpa only [List.append_nil] using h
  | next _ move ih =>
    rw [← List.append_assoc, ← List.append_assoc]
    exact ih.next move

theorem keep {P : Ledger → Prop}
    (step : ∀ {b b' : Ledger} {signs settled}, Move k b signs settled b' → P b → P b')
    (h : Moves k b signs settled b') (before : P b) : P b' := by
  induction h with
  | rest => exact before
  | next _ move ih => exact step move ih

end Moves

def Sign.isBuilt : Sign → Bool
  | .built _ => true
  | _ => false

section

variable {k : Knowledge} {b b' : Ledger} {signs : List Sign} {settled : List Ticket}

/-- Every processor that is there has taken an id. -/
theorem Move.nextProcessor (h : Move k b signs settled b') :
    b'.nextProcessor = b.nextProcessor + signs.countP Sign.isBuilt := by cases h <;> rfl

theorem Moves.nextProcessor (h : Moves k b signs settled b') :
    b'.nextProcessor = b.nextProcessor + signs.countP Sign.isBuilt := by
  induction h with
  | rest => rfl
  | next _ move ih =>
    rw [move.nextProcessor, ih, List.countP_append]
    omega

theorem Move.nextKey_le (h : Move k b signs settled b') : b.nextKey ≤ b'.nextKey := by
  cases h
  case enter => exact Nat.le_succ _
  all_goals exact Nat.le_refl _

theorem Moves.nextKey_le (h : Moves k b signs settled b') : b.nextKey ≤ b'.nextKey := by
  induction h with
  | rest => exact Nat.le_refl _
  | next _ move ih => exact Nat.le_trans ih move.nextKey_le

end

end Manager

end JobBroker
