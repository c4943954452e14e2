import JobBroker.Manager.Lifecycle

/-!
# Handling messages

What a manager does with each message it is told, from the state it is in.
-/

namespace JobBroker.Manager.State

/-- Takes up a subscription. It gets the next key, and goes to the processor for its job type or
waits until there is one. -/
def subscribe (s : State) (subscription : JobSubscription) (reply : Ticket) : Turn :=
  match s.buckets.get? subscription.partition with
  | none => s.settle reply (.error (.partitionNotFound subscription.partition))
  | some bucket =>
    let key : SubscriberKey := ⟨s.nextKey⟩
    let s := { s with nextKey := s.nextKey + 1 }
    let waiting : Waiting := ⟨key, { subscription with key := some key }, reply⟩
    let unit : UnitKey := ⟨subscription.partition, subscription.jobType⟩
    match bucket.byJobType? subscription.jobType with
    | some processor => s.forward processor waiting
    | none =>
      match s.pending.get? unit with
      | some queue => { s with pending := s.pending.insert unit (queue ++ [waiting]) }.rest
      | none =>
        let s := { s with pending := s.pending.insert unit [waiting] }
        if s.retiring.contains unit then s.rest else s.startBuild unit

/-- Gives a subscription up. One that is not active is no longer there to be removed. -/
def unsubscribe (s : State) (key : SubscriberKey) (reply : Ticket) : Turn :=
  match s.index.get? key with
  | none => s.settle reply (.ok .done)
  | some entry =>
    (s.unindex key).issue (.unsubscribe entry.processor reply) (.remove entry.processor key)

/-- Registers a partition; an earlier registration of it is discarded. -/
def addPartition (s : State) (partition : Partition) (service : String) : Turn :=
  let earlier := s.buckets.get? partition.id
  let s := { s with buckets := s.buckets.insert partition.id { partition, service } }
  match earlier with
  | none => s.rest
  | some bucket => s.discardBucket partition.id (some bucket)

def removePartition (s : State) (partition : PartitionId) : Turn :=
  { s with buckets := s.buckets.erase partition }.discardBucket partition
    (s.buckets.get? partition)

/-- Notes at the additions that are on their way for a connection that it has closed. -/
def markClosed (connection : ConnectionId) : Continuation → Continuation
  | .subscribe key owner processor reply closed =>
    .subscribe key owner processor reply (closed || owner = connection)
  | continuation => continuation

/-- Drops everything that belongs to a connection: active subscriptions, waiting ones, those on
their way, and what the processors hold. -/
def connectionClosed (s : State) (connection : ConnectionId) : Turn :=
  let s := s.purge fun entry => entry.connection = connection
  let abandoned := s.pending.values.flatMap fun queue =>
    (queue.filter fun w => w.subscription.connection = connection).map Waiting.reply
  let s := { s with
    pending := s.pending.mapValues fun _ (queue : List Waiting) =>
      queue.filter fun w => w.subscription.connection ≠ connection
    continuations := s.continuations.mapValues fun _ c => markClosed connection c }
  (s.settleAll abandoned (.error (.connectionClosed connection))).andThen fun s =>
    s.forEach s.processors fun s processor =>
      s.issue (.sweep processor connection) (.sweep processor connection)

/-- Goes on where a call has ended. The outcome of a call that is not outstanding, or of another
kind than the call, is passed over. -/
def resume (s : State) (operation : OperationId) (outcome : Outcome) : Turn :=
  match s.continuations.get? operation with
  | none => s.rest
  | some continuation =>
    let s := { s with continuations := s.continuations.erase operation }
    match continuation, outcome with
    | .build unit, .built result => s.onBuilt unit result
    | .subscribe key connection processor reply closed, .settled result =>
      s.onAdded key connection processor reply closed result
    | .unsubscribe processor reply, .remaining result => s.onRemoved processor reply result
    | .teardown processor reply, .settled result => s.onTornDown processor reply result
    | .sweep processor _, .remaining result => s.onSwept processor result
    | _, _ => s.rest

def handle (s : State) : Message → Turn
  | .subscribe subscription reply => s.subscribe subscription reply
  | .unsubscribe key reply => s.unsubscribe key reply
  | .addPartition partition service => s.addPartition partition service
  | .removePartition partition => s.removePartition partition
  | .connectionClosed connection => s.connectionClosed connection
  | .snapshot reply => s.settle reply (.ok (.snapshot s.snapshot))
  | .resume operation outcome => s.resume operation outcome
  | .shutdown => s.rest

/-! ### Credits -/

/-- Dispatches a credit request: it goes to the processor of its subscription, whose answer
counts; a request for a subscription that is not active is done with. -/
def dispatch {σ : Type} (s : State) (ask : σ → Processor → CreditRequest → Bool × σ)
    (answerer : σ) (request : CreditRequest) : Bool × σ :=
  match s.index.get? request.subscriber with
  | none => (true, answerer)
  | some entry => ask answerer entry.processor request

def settleCredits {σ : Type} (s : State) (ask : σ → Processor → CreditRequest → Bool × σ)
    (answerer : σ) : State × σ :=
  let settled := Credit.settle (s.dispatch ask) s.credits answerer
  ({ s with credits := settled.1 }, settled.2)

/-- Offers a credit request to the channel, and tells whether it was taken. -/
def writeCredits (s : State) (request : CreditRequest) : State × Bool :=
  let written := s.credits.channel.write request
  ({ s with credits := { s.credits with channel := written.1 } }, written.2)

end JobBroker.Manager.State
