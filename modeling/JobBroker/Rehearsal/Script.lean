import JobBroker.Rehearsal.Collaborators

/-!
# Scripts

What can be done in one step of a rehearsal, and what is reported of it.
-/

namespace JobBroker.Rehearsal

open Manager

inductive Step where
  | addPartition (partition : Partition) (service : String)
  | removePartition (partition : PartitionId)
  /-- The builder may close the manager in the middle of the build that this starts. -/
  | subscribe (subscription : JobSubscription) (closeInBuild : Bool)
  | unsubscribe (key : SubscriberKey)
  | connectionOpened (connection : ConnectionId)
  | connectionClosed (connection : ConnectionId)
  | credits (request : CreditRequest)
  | gate (processor : Runner) (accepts : Option Nat)
  | complete (call : Nat) (ending : Ending)
  /-- From now on, calls end well by themselves after each step, or no longer do. -/
  | auto (on : Bool)
  | poll (future : Nat)
  | wait (future : Nat)
  | forget (future : Nat)
  | count (partition : PartitionId) (jobType : JobType)
  | snapshot
  | held
  | info
  | close

inductive Answer where
  | nothing
  | future (number : Nat)
  | accepted (accepted : Bool)
  | noCall
  | noFuture
  | pending
  | result (result : Result)
  | count (processors : Nat)
  | held (calls : List Nat) (rosters : List (Runner × Roster))
  | info (name : String) (closed : Bool)

structure Report where
  answer : Answer
  calls : List (Nat × Call)
  credits : List (Runner × CreditRequest)
  settled : List (Nat × Result)
  state : Option Snapshot

end JobBroker.Rehearsal
