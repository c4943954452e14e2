import JobBroker.Manager.State

/-!
# Turns

One turn of a manager: the state it leads to, and the effects on the way there. Turns are put
together one behind the other; the effects of the later one follow those of the earlier.
-/

namespace JobBroker.Manager

structure Turn where
  state : State
  effects : List Effect := []

namespace Turn

def andThen (turn : Turn) (next : State → Turn) : Turn :=
  { state := (next turn.state).state, effects := turn.effects ++ (next turn.state).effects }

@[simp] theorem state_andThen (turn : Turn) (next : State → Turn) :
    (turn.andThen next).state = (next turn.state).state := rfl

@[simp] theorem effects_andThen (turn : Turn) (next : State → Turn) :
    (turn.andThen next).effects = turn.effects ++ (next turn.state).effects := rfl

end Turn

namespace State

def rest (s : State) : Turn := { state := s }

def settle (s : State) (reply : Ticket) (result : Result) : Turn :=
  { state := s, effects := [.settle reply result] }

def settle? (s : State) (reply : Option Ticket) (result : Result) : Turn :=
  match reply with
  | some reply => s.settle reply result
  | none => s.rest

def settleAll (s : State) (replies : List Ticket) (result : Result) : Turn :=
  { state := s, effects := replies.map fun reply => .settle reply result }

/-- Asks a collaborator for something, and notes what to do with the outcome. -/
def issue (s : State) (continuation : Continuation) (call : Call) : Turn :=
  let operation : OperationId := ⟨s.nextOperation⟩
  { state := { s with
      continuations := s.continuations.insert operation continuation
      nextOperation := s.nextOperation + 1 }
    effects := [.call operation call] }

/-- Does the same for every element of a list, in order. -/
def forEach {α : Type} (s : State) (items : List α) (act : State → α → Turn) : Turn :=
  match items with
  | [] => s.rest
  | item :: rest => (act s item).andThen fun s => s.forEach rest act

end State

end JobBroker.Manager
