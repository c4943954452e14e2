import JobBroker.Manager.Message

/-!
# Completions

With every call a collaborator is given a completion, by which it tells the manager how the call
ended. A completion tells the manager once: what is said after that goes nowhere
(`messages_finish`), and a completion that is thrown away untold says that the call failed
(`messages_discard`).
-/

namespace JobBroker.Manager

structure Completion where
  operation : OperationId
  call : Call
  told : Bool := false

namespace Completion

/-- The reason that a completion gives which was thrown away untold. -/
def discardedReason : String := "completion dropped without a result"

/-- Tells the manager a result, if it was not told one before: the completion afterwards, and the
messages sent. -/
def tell (completion : Completion) (result : Except String completion.call.Success) :
    Completion × List Message :=
  if completion.told then (completion, [])
  else
    ({ completion with told := true },
      [.resume completion.operation (completion.call.outcome result)])

def discard (completion : Completion) : List Message :=
  (completion.tell (.error discardedReason)).2

/-- Ends the call with a result. The completion is used up by it, and so thrown away. -/
def finish (completion : Completion) (result : Except String completion.call.Success) :
    List Message :=
  let (after, messages) := completion.tell result
  messages ++ after.discard

def complete (completion : Completion) (value : completion.call.Success) : List Message :=
  completion.finish (.ok value)

def fail (completion : Completion) (reason : String) : List Message :=
  completion.finish (.error reason)

/-- A call that is ended sends one message, with its result. -/
theorem messages_finish {completion : Completion} (fresh : completion.told = false)
    (result : Except String completion.call.Success) :
    completion.finish result = [.resume completion.operation (completion.call.outcome result)] := by
  simp [finish, discard, tell, fresh]

/-- A completion that is thrown away untold sends one message, of a failure. -/
theorem messages_discard {completion : Completion} (fresh : completion.told = false) :
    completion.discard =
      [.resume completion.operation (completion.call.outcome (.error discardedReason))] := by
  simp [discard, tell, fresh]

end Completion

end JobBroker.Manager
