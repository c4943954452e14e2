import JobBroker.Credit.Channel
import JobBroker.Credit.Overflow

/-!
# Handing out credits

A request is dispatched by asking for it: the answer is whether it is done with. What cannot be
dispatched is parked. Parked requests are tried again, the newest first, until one is refused; the
channel is read only while nothing is parked, one request at a time. Both loops are written over
the state `σ` of whoever answers.
-/

namespace JobBroker.Credit

variable {σ : Type}

/-- Where a retry stands: what is still parked, and the state of whoever answers. -/
structure Retried (σ : Type) where
  parked : Overflow
  answerer : σ

/-- Tries the parked requests from the newest on, taking out each that is done with, and stops at
the first refusal. -/
def retry (dispatch : σ → CreditRequest → Bool × σ) (parked : Overflow) (s : σ) : Retried σ :=
  if nonempty : 0 < parked.size then
    have newest := Overflow.newest_lt_size nonempty
    match dispatch s (parked.elementAt (parked.size - 1) newest) with
    | (true, s) => retry dispatch (parked.removeAt (parked.size - 1) newest) s
    | (false, s) => ⟨parked, s⟩
  else
    ⟨parked, s⟩
termination_by parked.size
decreasing_by
  rw [Overflow.size_removeAt]
  omega

section

variable {dispatch : σ → CreditRequest → Bool × σ} {parked : Overflow} {s s' : σ}

theorem retry_done (nonempty : 0 < parked.size) (newest : parked.size - 1 < parked.size)
    (h : dispatch s (parked.elementAt (parked.size - 1) newest) = (true, s')) :
    retry dispatch parked s =
      retry dispatch (parked.removeAt (parked.size - 1) newest) s' := by
  rw [retry, dif_pos nonempty]
  dsimp only
  rw [h]

theorem retry_refused (nonempty : 0 < parked.size) (newest : parked.size - 1 < parked.size)
    (h : dispatch s (parked.elementAt (parked.size - 1) newest) = (false, s')) :
    retry dispatch parked s = ⟨parked, s'⟩ := by
  rw [retry, dif_pos nonempty]
  dsimp only
  rw [h]

theorem retry_empty (empty : ¬0 < parked.size) : retry dispatch parked s = ⟨parked, s⟩ := by
  rw [retry, dif_neg empty]

end

/-- Whether a retry left nothing parked, which is when the channel may be read. -/
def Retried.drained (retried : Retried σ) : Bool := retried.parked.isEmpty

/-- Both stores of credits: those that wait to be read, and those that were refused. -/
structure Pipeline where
  channel : Channel
  parked : Overflow := {}
  deriving DecidableEq

/-- How the handler of a drain deals with one request: what is refused is parked, and the drain
may go on. -/
def park (dispatch : σ → CreditRequest → Bool × σ) (held : Overflow × σ)
    (request : CreditRequest) : Bool × Overflow × σ :=
  match dispatch held.2 request with
  | (true, s) => (true, held.1, s)
  | (false, s) => (true, held.1.append request, s)

def consume (dispatch : σ → CreditRequest → Bool × σ) (pipeline : Pipeline) (s : σ) :
    Pipeline × σ :=
  let (channel, _, parked, s) := pipeline.channel.drain 1 (park dispatch) (pipeline.parked, s)
  (⟨channel, parked⟩, s)

theorem queue_consume (dispatch : σ → CreditRequest → Bool × σ) (pipeline : Pipeline) (s : σ) :
    (consume dispatch pipeline s).1.channel.queue = pipeline.channel.queue.tail := by
  obtain ⟨⟨capacity, queue⟩, parked⟩ := pipeline
  cases queue with
  | nil => rfl
  | cons request queue =>
    simp only [consume, Channel.drain, Channel.drainQueue, park]
    cases dispatch s request with
    | mk done s => cases done <;> rfl

/-- One round of work on credits: the parked requests are tried again, and if none is left the
channel is read once. -/
def cycle (dispatch : σ → CreditRequest → Bool × σ) (pipeline : Pipeline) (s : σ) :
    Pipeline × σ :=
  let retried := retry dispatch pipeline.parked s
  let rested : Pipeline := ⟨pipeline.channel, retried.parked⟩
  if retried.drained then consume dispatch rested retried.answerer
  else (rested, retried.answerer)

/-- Works on credits until they rest, which is when a round no longer takes anything from the
channel. -/
def settle (dispatch : σ → CreditRequest → Bool × σ) (pipeline : Pipeline) (s : σ) :
    Pipeline × σ :=
  let next := cycle dispatch pipeline s
  if next.1.channel.size < pipeline.channel.size then settle dispatch next.1 next.2 else next
termination_by pipeline.channel.size

end JobBroker.Credit
