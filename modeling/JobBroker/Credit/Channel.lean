import JobBroker.Credit.Request

/-!
# The credit channel

A queue of credit requests with a fixed capacity, first in first out. Writing never waits: a full
channel refuses the request. Draining hands requests from the front to a handler until a limit is
reached, the handler refuses one, or none is left; a request that was handed over has left the
channel whatever the handler says.
-/

namespace JobBroker.Credit

structure Channel where
  capacity : Nat
  queue : List CreditRequest := []
  deriving DecidableEq

structure Drained (σ : Type) where
  taken : List CreditRequest
  left : List CreditRequest
  handler : σ

namespace Channel

def size (channel : Channel) : Nat := channel.queue.length

def isEmpty (channel : Channel) : Bool := channel.queue.isEmpty

def write (channel : Channel) (request : CreditRequest) : Channel × Bool :=
  if channel.size < channel.capacity then
    ({ channel with queue := channel.queue ++ [request] }, true)
  else
    (channel, false)

/-- Writes through a sender, which outlives the channel. -/
def send (channel : Option Channel) (request : CreditRequest) : Option Channel × Bool :=
  match channel with
  | none => (none, false)
  | some channel =>
    let (channel, accepted) := channel.write request
    (some channel, accepted)

def drainQueue {σ : Type} (handle : σ → CreditRequest → Bool × σ) :
    Nat → List CreditRequest → σ → Drained σ
  | 0, queue, s => ⟨[], queue, s⟩
  | _ + 1, [], s => ⟨[], [], s⟩
  | limit + 1, request :: queue, s =>
    match handle s request with
    | (true, s) =>
      let rest := drainQueue handle limit queue s
      { rest with taken := request :: rest.taken }
    | (false, s) => ⟨[request], queue, s⟩

def drain {σ : Type} (channel : Channel) (limit : Nat) (handle : σ → CreditRequest → Bool × σ)
    (s : σ) : Channel × List CreditRequest × σ :=
  let drained := drainQueue handle limit channel.queue s
  ({ channel with queue := drained.left }, drained.taken, drained.handler)

theorem queue_write (channel : Channel) (request : CreditRequest) :
    (channel.write request).1.queue =
      channel.queue ++ if (channel.write request).2 then [request] else [] := by
  unfold write
  split <;> simp

theorem capacity_write (channel : Channel) (request : CreditRequest) :
    (channel.write request).1.capacity = channel.capacity := by
  unfold write
  split <;> rfl

theorem size_write_le {channel : Channel} (request : CreditRequest)
    (h : channel.size ≤ channel.capacity) :
    (channel.write request).1.size ≤ channel.capacity := by
  unfold write
  split
  next hroom =>
    simp only [size, List.length_append, List.length_singleton] at hroom ⊢
    omega
  next => exact h

theorem taken_append_left {σ : Type} (handle : σ → CreditRequest → Bool × σ) (limit : Nat)
    (queue : List CreditRequest) (s : σ) :
    (drainQueue handle limit queue s).taken ++ (drainQueue handle limit queue s).left = queue := by
  induction limit generalizing queue s with
  | zero => rfl
  | succ limit ih =>
    cases queue with
    | nil => rfl
    | cons request queue =>
      simp only [drainQueue]
      split
      · simp only [List.cons_append, ih]
      · rfl

end Channel

end JobBroker.Credit
