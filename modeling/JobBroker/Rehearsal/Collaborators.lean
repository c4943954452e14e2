import JobBroker.Credit.Request
import JobBroker.Manager.Completion
import JobBroker.Table

/-!
# Rehearsed collaborators

Stand-ins for the builder and the processors of a manager. They hold every call until they are
told how it ends. A processor keeps a roster of the subscriptions it was given, which changes only
when a call ends well: an addition puts a subscription on it, a removal takes it off, and a sweep
takes off everything of a connection. Credits pass a gate at the processor.
-/

namespace JobBroker.Rehearsal

open Manager

/-- A call that has not ended. Calls are numbered in the order in which they are made. -/
structure HeldCall where
  number : Nat
  completion : Completion

def HeldCall.call (held : HeldCall) : Call := held.completion.call

inductive Ending where
  | succeed (remaining : Option Bool)
  | fail (reason : String)
  | drop

abbrev Roster := List (SubscriberKey × ConnectionId)

abbrev Rosters := Table Runner Roster

def Rosters.roster (rosters : Rosters) (runner : Runner) : Roster :=
  (rosters.get? runner).getD []

/-- What a call that ends well leaves of the roster of its processor. A build and a teardown leave
it as it is. -/
def Rosters.after (rosters : Rosters) (call : Call) : Rosters :=
  match call with
  | .build _ => rosters
  | .teardown _ => rosters
  | .add processor subscription =>
    match subscription.key with
    | none => rosters
    | some key =>
      rosters.insert processor.runner
        (rosters.roster processor.runner ++ [(key, subscription.connection)])
  | .remove processor key =>
    rosters.insert processor.runner
      ((rosters.roster processor.runner).filter fun entry => entry.1 ≠ key)
  | .sweep processor connection =>
    rosters.insert processor.runner
      ((rosters.roster processor.runner).filter fun entry => entry.2 ≠ connection)

/-- What the call with a number tells when it ends well, given the rosters after it. A processor is
known by the number of the call that built it. -/
def success (number : Nat) (rosters : Rosters) (remaining : Option Bool) :
    (call : Call) → call.Success
  | .build _ => (⟨number⟩ : Runner)
  | .add _ _ => ()
  | .teardown _ => ()
  | .remove processor _ => remaining.getD !(rosters.roster processor.runner).isEmpty
  | .sweep processor _ => remaining.getD !(rosters.roster processor.runner).isEmpty

/-- Ends a held call: what the manager is told, and the rosters after it. -/
def HeldCall.finish (held : HeldCall) (rosters : Rosters) : Ending → List Message × Rosters
  | .succeed remaining =>
    let rosters := rosters.after held.call
    (held.completion.complete (success held.number rosters remaining held.completion.call),
      rosters)
  | .fail reason => (held.completion.fail reason, rosters)
  | .drop => (held.completion.discard, rosters)

/-- The gates of the processors, and the credits that passed. A processor without a gate takes
every request; one with a gate takes as many more as the gate says. -/
structure Gates where
  left : Table Runner Nat := {}
  passed : List (Runner × CreditRequest) := []

namespace Gates

def set (gates : Gates) (runner : Runner) (accepts : Option Nat) : Gates :=
  { gates with left := match accepts with
      | some n => gates.left.insert runner n
      | none => gates.left.erase runner }

def ask (gates : Gates) (processor : Processor) (request : CreditRequest) : Bool × Gates :=
  let passed := gates.passed ++ [(processor.runner, request)]
  match gates.left.get? processor.runner with
  | none => (true, { gates with passed })
  | some 0 => (false, gates)
  | some (n + 1) => (true, { left := gates.left.insert processor.runner n, passed })

end Gates

end JobBroker.Rehearsal
