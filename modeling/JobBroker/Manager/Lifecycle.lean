import JobBroker.Manager.Turn

/-!
# The life of a processor

Subscriptions are handed to the processor for their job type and partition. When there is none, a
unit is built for them; a processor that nothing refers to any more is taken out of its bucket and
its unit is torn down. No unit is built while the one before it is still being torn down.
-/

namespace JobBroker.Manager.State

/-- Hands a subscription to a processor, which counts as a reference until the call has ended. -/
def forward (s : State) (processor : Processor) (waiting : Waiting) : Turn :=
  (s.acquire processor.id).issue
    (.subscribe waiting.key waiting.subscription.connection processor waiting.reply false)
    (.add processor waiting.subscription)

def failPending (s : State) (key : UnitKey) (error : SubscriptionError) : Turn :=
  let waiting := (s.pending.get? key).getD []
  { s with pending := s.pending.erase key }.settleAll (waiting.map Waiting.reply) (.error error)

/-- Has the unit built that waiting subscriptions need, if its partition is still registered. -/
def startBuild (s : State) (key : UnitKey) : Turn :=
  match s.buckets.get? key.partition with
  | none => s.failPending key (.partitionNotFound key.partition)
  | some bucket =>
    s.issue (.build (bucket.unit key.jobType)) (.build (bucket.unit key.jobType))

def teardown (s : State) (processor : Processor) (reply : Option Ticket) : Turn :=
  let count := (s.retiring.get? processor.key).getD 0
  { s with retiring := s.retiring.insert processor.key (count + 1) }.issue
    (.teardown processor reply) (.teardown processor)

/-- Takes a processor out of its bucket and has its unit torn down. A processor that is not
registered was retired before, and there is nothing left to do. -/
def retire (s : State) (processor : Processor) (reply : Option Ticket) : Turn :=
  match (s.buckets.get? processor.partition).bind fun b => b.detach? processor.id with
  | some bucket =>
    { s with buckets := s.buckets.insert processor.partition bucket }.teardown processor reply
  | none => s.settle? reply (.ok .done)

/-- Drops a reference to a processor, and retires it when that was the last one. -/
def release (s : State) (processor : Processor) : Turn :=
  let s := s.dropReference processor.id
  if s.isUnreferenced processor.id then s.retire processor none else s.rest

/-- Drops the index entries of a partition and has the units of its bucket torn down. -/
def discardBucket (s : State) (partition : PartitionId) (bucket : Option Bucket) : Turn :=
  let s := s.purge fun entry => entry.processor.partition = partition
  match bucket with
  | none => s.rest
  | some bucket => s.forEach bucket.processors fun s processor => s.teardown processor none

/-! ### Ended calls -/

/-- A build has ended. The new processor is registered and given everything that waited for it;
if nothing did, or the partition is gone, its unit is torn down at once. -/
def onBuilt (s : State) (unit : ActivationUnit) (result : Except String Runner) : Turn :=
  match result with
  | .error reason => s.failPending unit.key (.unitBuild unit.jobType reason)
  | .ok runner =>
    let waiting := (s.pending.get? unit.key).getD []
    let processor : Processor := ⟨⟨s.nextProcessor⟩, unit, runner⟩
    let s := { s with
      pending := s.pending.erase unit.key
      nextProcessor := s.nextProcessor + 1 }
    if waiting.isEmpty then s.teardown processor none
    else match s.buckets.get? processor.partition with
      | none =>
        (s.settleAll (waiting.map Waiting.reply)
          (.error (.partitionNotFound processor.partition))).andThen fun s =>
            s.teardown processor none
      | some bucket =>
        let s := { s with
          buckets := s.buckets.insert processor.partition (bucket.register processor) }
        s.forEach waiting fun s waiting => s.forward processor waiting

/-- Takes back a subscription that a processor accepted although its connection had closed. The
processor is retired only once it has reported that nothing remains. -/
def takeBack (s : State) (processor : Processor) (key : SubscriberKey)
    (connection : ConnectionId) : Turn :=
  (s.dropReference processor.id).issue (.sweep processor connection) (.remove processor key)

/-- An addition has ended. The subscription becomes active, unless it was refused, or its
connection or the processor is gone. -/
def onAdded (s : State) (key : SubscriberKey) (connection : ConnectionId) (processor : Processor)
    (reply : Ticket) (connectionClosed : Bool) (result : Except String Unit) : Turn :=
  match result with
  | .error reason =>
    (s.release processor).andThen fun s => s.settle reply (.error (.dispatch reason))
  | .ok () =>
    if connectionClosed then
      (s.settle reply (.error (.connectionClosed connection))).andThen fun s =>
        s.takeBack processor key connection
    else if s.isRegistered processor then
      { s with index := s.index.insert key ⟨processor, connection⟩ }.settle reply (.ok (.key key))
    else
      (s.release processor).andThen fun s =>
        s.settle reply (.error (.partitionNotFound processor.partition))

/-- A removal that was asked for has ended. When nothing remains, and nothing is on its way to
the processor, the future waits on for the teardown. -/
def onRemoved (s : State) (processor : Processor) (reply : Ticket)
    (result : Except String Bool) : Turn :=
  match result with
  | .error reason => s.settle reply (.error (.dispatch reason))
  | .ok remaining =>
    if !remaining && s.isUnreferenced processor.id then s.retire processor (some reply)
    else s.settle reply (.ok .done)

/-- A processor has dropped what belonged to a closed connection. -/
def onSwept (s : State) (processor : Processor) (result : Except String Bool) : Turn :=
  match result with
  | .error _ => s.rest
  | .ok remaining =>
    if !remaining && s.isUnreferenced processor.id then s.retire processor none else s.rest

/-- Starts the build that was put off until a teardown had ended, if something still waits. -/
def startDeferred (s : State) (key : UnitKey) : Turn :=
  match s.pending.get? key with
  | none => s.rest
  | some [] => { s with pending := s.pending.erase key }.rest
  | some (_ :: _) => s.startBuild key

def onTornDown (s : State) (processor : Processor) (reply : Option Ticket)
    (result : Except String Unit) : Turn :=
  let told : Result := match result with
    | .ok () => .ok .done
    | .error reason => .error (.unitTeardown processor.unit.name reason)
  (s.settle? reply told).andThen fun s =>
    match s.retiring.get? processor.key with
    | none => s.startDeferred processor.key
    | some count =>
      if 0 < count - 1 then
        { s with retiring := s.retiring.insert processor.key (count - 1) }.rest
      else
        { s with retiring := s.retiring.erase processor.key }.startDeferred processor.key

end JobBroker.Manager.State
