import JobBroker.Manager.Completion
import JobBroker.Manager.Service
import JobBroker.Proofs.Run
import Mathlib.Logic.Relation

/-!
# Sessions

A manager at work among clients and collaborators. It handles one message after the other, and what
a message makes it do happens one effect at a time. At any point in between, also in the middle of a
message and after the end, others put messages into the inbox, look at futures, end the calls that
they hold, write credits and close the manager. A session is a manager with what is still to happen
of the message at hand, and with what has happened and was seen so far. The state of the manager is
its own, so that it does not matter when within a message it changes.
-/

namespace JobBroker.Manager

open Relation (ReflTransGen)

structure Session where
  service : Service
  /-- What is still to happen of the message at hand. -/
  todo : List Effect := []
  done : List Effect := []
  /-- The calls that were made and have not been ended. -/
  held : List (OperationId × Call) := []
  /-- What looks at futures have found. -/
  found : List (Ticket × Result) := []
  attempts : List Attempt := []

namespace Session

/-! ### What the manager does -/

/-- Takes up a message, which leads to the state after it at once and to its effects one by one. -/
def handle (s : Session) (message : Message) (later : List Message) : Session :=
  let turn := s.service.state.handle message
  { s with service := { s.service with state := turn.state, inbox := later }, todo := turn.effects }

def perform (s : Session) (effect : Effect) (rest : List Effect) : Session :=
  let s := { s with todo := rest, done := s.done ++ [effect] }
  match effect with
  | .call operation call => { s with held := s.held ++ [(operation, call)] }
  | .settle reply result =>
    { s with service := { s.service with
        futures := s.service.futures.modify reply.val (Future.settle result) } }

def stop (s : Session) : Session := { s with service := s.service.stop }

def work (s : Session) (credits : Credit.Pipeline) (attempts : List Attempt) : Session :=
  { s with
    service := { s.service with state := { s.service.state with credits } }
    attempts := s.attempts ++ attempts }

def retry {σ : Type} (s : Session) (ask : σ → Processor → CreditRequest → Bool × σ)
    (answerer : σ) : Session :=
  let retried :=
    Credit.retry (s.service.state.attempt ask) s.service.state.credits.parked (answerer, [])
  s.work { s.service.state.credits with parked := retried.parked } retried.answerer.2

def cycle {σ : Type} (s : Session) (ask : σ → Processor → CreditRequest → Bool × σ)
    (answerer : σ) : Session :=
  let cycled := Credit.cycle (s.service.state.attempt ask) s.service.state.credits (answerer, [])
  s.work cycled.1 cycled.2.2

/-- What the manager can do next. It takes up a message, or works on credits, only when nothing of
the message before is left. -/
inductive Act (s : Session) : Session → Prop where
  | handle {message : Message} {later : List Message} (rested : s.todo = [])
      (going : s.service.running = true) (next : s.service.inbox = message :: later)
      (further : message ≠ .shutdown) : Act s (s.handle message later)
  | perform {effect : Effect} {rest : List Effect} (next : s.todo = effect :: rest) :
      Act s (s.perform effect rest)
  | stop {later : List Message} (rested : s.todo = []) (going : s.service.running = true)
      (next : s.service.inbox = .shutdown :: later) : Act s s.stop
  | retry {σ : Type} (rested : s.todo = []) (going : s.service.running = true)
      (ask : σ → Processor → CreditRequest → Bool × σ) (answerer : σ) : Act s (s.retry ask answerer)
  | cycle {σ : Type} (rested : s.todo = []) (going : s.service.running = true)
      (ask : σ → Processor → CreditRequest → Bool × σ) (answerer : σ) : Act s (s.cycle ask answerer)

/-! ### What others do -/

def request (s : Session) (message : Ticket → Message) : Session :=
  { s with service := (s.service.request message).1 }

def post (s : Session) (message : Message) : Session :=
  { s with service := s.service.post message }

def close (s : Session) : Session := { s with service := s.service.close }

def look (s : Session) (ticket : Ticket) : Session :=
  let (service, result) := s.service.take ticket
  { s with service, found := s.found ++ (result.map fun result => (ticket, result)).toList }

def write (s : Session) (request : CreditRequest) : Session :=
  { s with service := (s.service.writeCredits request).1 }

/-- A call that was held ends, and its completion sends messages. -/
def finish (s : Session) (call : OperationId × Call) (messages : List Message) : Session :=
  { s with service := messages.foldl Service.post s.service, held := s.held.erase call }

/-- What can happen next. Others may do what they do at any time, whatever the manager is at. -/
inductive Step (s : Session) : Session → Prop where
  | act {s' : Session} (act : Act s s') : Step s s'
  | request (message : Ticket → Message)
      (asks : ∀ ticket, (message ticket).reply? = some ticket) : Step s (s.request message)
  | post (message : Message) (client : message.fromClient = true)
      (asksNothing : message.reply? = none) : Step s (s.post message)
  | close : Step s s.close
  | look (ticket : Ticket) : Step s (s.look ticket)
  | write (request : CreditRequest) : Step s (s.write request)
  | finish {operation : OperationId} {call : Call} (held : (operation, call) ∈ s.held)
      (result : Except String call.Success) :
      Step s (s.finish (operation, call) (Completion.finish ⟨operation, call, false⟩ result))
  | discard {operation : OperationId} {call : Call} (held : (operation, call) ∈ s.held) :
      Step s (s.finish (operation, call) (Completion.discard ⟨operation, call, false⟩))

/-- The sessions that a manager with a configuration can get into. -/
inductive Reachable (config : Config) : Session → Prop where
  | start {service : Service} (started : Service.start config = .ok service) :
      Reachable config { service }
  | next {s s' : Session} : Reachable config s → Step s s' → Reachable config s'

/-! ### What is read off a session -/

def resultsFor (ticket : Ticket) (all : List (Ticket × Result)) : List Result :=
  all.filterMap fun one => if one.1 = ticket then some one.2 else none

/-- The futures that were given out. -/
def tickets (s : Session) : List Ticket := (List.range s.service.futures.length).map Ticket.mk

/-- The futures that were settled, with their results. -/
def told (s : Session) : List (Ticket × Result) := settledOf s.done

def toldTo (s : Session) (ticket : Ticket) : List Result := resultsFor ticket s.told

def foundOn (s : Session) (ticket : Ticket) : List Result := resultsFor ticket s.found

/-- What the next look at a future would find. -/
def sight (s : Session) (ticket : Ticket) : Option Result := (s.service.take ticket).2

end Session

/-! ### Messages on their way -/

def Message.resumed? : Message → Option OperationId
  | .resume operation _ => some operation
  | _ => none

theorem Message.fromClient_of_reply? {message : Message} {reply : Ticket}
    (h : message.reply? = some reply) : message.fromClient = true := by
  cases message with
  | resume => cases h
  | shutdown => cases h
  | _ => rfl

theorem Message.ne_shutdown_of_fromClient {message : Message} (h : message.fromClient = true) :
    message ≠ .shutdown := by
  rintro rfl
  cases h

theorem Message.resumed?_of_fromClient {message : Message} (h : message.fromClient = true) :
    message.resumed? = none := by
  cases message with
  | resume => cases h
  | _ => rfl

namespace Service

theorem eq_of_start {config : Config} {service : Service} (started : start config = .ok service) :
    service = { name := config.name, state := .initial config.creditCapacity } := by
  unfold start at started
  split at started
  next => cases started
  next => exact (Except.ok.inj started).symm

variable (service : Service) (message : Message)

@[simp] theorem state_post : (service.post message).state = service.state := by
  unfold post
  split <;> rfl

@[simp] theorem futures_post : (service.post message).futures = service.futures := by
  unfold post
  split <;> rfl

@[simp] theorem running_post : (service.post message).running = service.running := by
  unfold post
  split <;> rfl

@[simp] theorem closed_post : (service.post message).closed = service.closed := by
  unfold post
  split <;> rfl

variable {service}

theorem inbox_post (going : service.running = true) :
    (service.post message).inbox = service.inbox ++ [message] := by
  rw [post, if_pos going]

theorem post_of_stopped (stopped : service.running = false) : service.post message = service := by
  rw [post, if_neg (ne_true_of_eq_false stopped)]

theorem inbox_post_of_stopped (stopped : service.running = false) :
    (service.post message).inbox = service.inbox := by rw [post_of_stopped message stopped]

theorem shutdown_mem_post (further : message ≠ .shutdown) :
    .shutdown ∈ (service.post message).inbox ↔ .shutdown ∈ service.inbox := by
  cases going : service.running with
  | false => rw [post_of_stopped message going]
  | true =>
    rw [inbox_post message going, List.mem_append, List.mem_singleton]
    exact or_iff_left (Ne.symm further)

theorem writeCredits_keeps (service : Service) (request : CreditRequest) :
    (service.writeCredits request).1.running = service.running ∧
      (service.writeCredits request).1.closed = service.closed ∧
      (service.writeCredits request).1.inbox = service.inbox ∧
      (service.writeCredits request).1.futures = service.futures := by
  unfold writeCredits
  split <;> exact ⟨rfl, rfl, rfl, rfl⟩

theorem writeCredits_of_stopped (stopped : service.running = false) (request : CreditRequest) :
    service.writeCredits request = (service, false) := by
  rw [writeCredits, if_neg (ne_true_of_eq_false stopped)]

theorem handleNext_of_ne {later : List Message} (next : service.inbox = message :: later)
    (further : message ≠ .shutdown) :
    service.handleNext =
      ({ service with
          state := (service.state.handle message).state
          inbox := later
          futures := settleFutures service.futures (service.state.handle message).effects },
        callsOf (service.state.handle message).effects) := by
  unfold handleNext
  rw [next]
  cases message with
  | shutdown => exact absurd rfl further
  | _ => rfl

end Service

namespace Session

variable {s s' : Session}

/-- The session in which all that was left of the message at hand has happened. -/
def rest (s : Session) : Session where
  service := { s.service with futures := Service.settleFutures s.service.futures s.todo }
  done := s.done ++ s.todo
  held := s.held ++ callsOf s.todo
  found := s.found
  attempts := s.attempts

theorem acts_rest (s : Session) : ReflTransGen Act s s.rest := by
  obtain ⟨service, todo, done, held, found, attempts⟩ := s
  induction todo generalizing service done held with
  | nil =>
    simp only [rest, callsOf, List.filterMap_nil, List.append_nil]
    exact .refl
  | cons effect rest ih =>
    cases effect with
    | call operation call =>
      have hrest := ih service (done ++ [.call operation call]) (held ++ [(operation, call)])
      simp only [Session.rest, List.append_assoc] at hrest
      exact .head (.perform rfl) hrest
    | settle reply result =>
      have hrest := ih { service with
        futures := service.futures.modify reply.val (Future.settle result) }
        (done ++ [.settle reply result]) held
      simp only [Session.rest, List.append_assoc] at hrest
      exact .head (.perform rfl) hrest

/-- A manager that handles its oldest message acts, and makes the calls that it then makes. -/
theorem acts_handleNext (rested : s.todo = []) (going : s.service.running = true) :
    ∃ s', ReflTransGen Act s s' ∧ s'.todo = [] ∧ s'.service = s.service.handleNext.1 ∧
      s'.held = s.held ++ s.service.handleNext.2 := by
  cases next : s.service.inbox with
  | nil =>
    refine ⟨s, .refl, rested, ?_, ?_⟩
    · rw [Service.handleNext, next]
    · rw [Service.handleNext, next, List.append_nil]
  | cons message later =>
    by_cases further : message = .shutdown
    · subst further
      refine ⟨s.stop, .single (.stop rested going next), rested, ?_, ?_⟩
      · rw [Service.handleNext, next]
        rfl
      · rw [Service.handleNext, next, List.append_nil]
        rfl
    · rw [Service.handleNext_of_ne message next further]
      exact ⟨_, .head (.handle rested going next further) (acts_rest _), rfl, rfl, rfl⟩

/-! ### Closing -/

/-- A manager is stopped by a message, which is in its inbox from when it is closed. -/
structure WindsDown (s : Session) : Prop where
  going : s.service.running = true → (.shutdown ∈ s.service.inbox ↔ s.service.closed = true)
  stopped : s.service.running = false →
    s.service.closed = true ∧ s.service.inbox = [] ∧ s.todo = []

namespace WindsDown

theorem start {config : Config} {service : Service}
    (started : Service.start config = .ok service) : WindsDown { service } := by
  rw [Service.eq_of_start started]
  constructor
  · intro _
    simp only [List.not_mem_nil, Bool.false_eq_true]
  · intro stopped
    cases stopped

theorem posts (h : s.WindsDown) {message : Message} (further : message ≠ .shutdown)
    (service : s'.service = s.service.post message) (todo : s'.todo = s.todo) : s'.WindsDown where
  going := by
    intro going
    rw [service, Service.running_post] at going
    rw [service, Service.closed_post, Service.shutdown_mem_post message further]
    exact h.going going
  stopped := by
    intro stopped
    rw [service, Service.running_post] at stopped
    rw [service, todo, Service.post_of_stopped message stopped]
    exact h.stopped stopped

/-- Work on anything but messages changes nothing about closing. -/
theorem quiet (h : s.WindsDown) (running : s'.service.running = s.service.running)
    (closed : s'.service.closed = s.service.closed) (inbox : s'.service.inbox = s.service.inbox)
    (todo : s.service.running = false → s'.todo = s.todo) : s'.WindsDown where
  going := by
    rw [running, closed, inbox]
    exact h.going
  stopped := by
    rw [running, closed, inbox]
    intro stopped
    rw [todo stopped]
    exact h.stopped stopped

theorem close (h : s.WindsDown) : s.close.WindsDown := by
  cases closed : s.service.closed with
  | true =>
    have hsame : s.close = s := by rw [Session.close, Service.close, if_pos closed]
    rw [hsame]
    exact h
  | false =>
    have hservice : s.close.service = { s.service.post .shutdown with closed := true } := by
      rw [Session.close, Service.close, if_neg (ne_true_of_eq_false closed)]
    -- only a manager that was closed has stopped
    have hgoing : s.service.running = true := by
      refine eq_true_of_ne_false fun stopped => ?_
      rw [(h.stopped stopped).1] at closed
      cases closed
    constructor
    · intro _
      rw [hservice]
      dsimp only
      rw [Service.inbox_post .shutdown hgoing]
      exact iff_of_true (List.mem_append_right _ (List.mem_singleton_self _)) rfl
    · intro stopped
      rw [hservice] at stopped
      dsimp only at stopped
      rw [Service.running_post, hgoing] at stopped
      cases stopped

theorem act (h : s.WindsDown) (act : Act s s') : s'.WindsDown := by
  cases act with
  | handle rested going next further =>
    constructor
    · intro _
      refine Iff.trans ?_ (h.going going)
      rw [next, List.mem_cons, or_iff_right (Ne.symm further)]
      rfl
    · intro stopped
      exact absurd going (ne_true_of_eq_false stopped)
  | perform next =>
    rename_i effect rest
    refine h.quiet ?_ ?_ ?_ ?_
    · cases effect <;> rfl
    · cases effect <;> rfl
    · cases effect <;> rfl
    · intro stopped
      rw [(h.stopped stopped).2.2] at next
      cases next
  | stop rested going next =>
    constructor
    · intro going'
      cases going'
    · intro _
      have hasked : .shutdown ∈ s.service.inbox := next ▸ List.mem_cons_self ..
      exact ⟨(h.going going).1 hasked, rfl, rested⟩
  | retry => exact h.quiet rfl rfl rfl fun _ => rfl
  | cycle => exact h.quiet rfl rfl rfl fun _ => rfl

theorem step (h : s.WindsDown) (step : Step s s') : s'.WindsDown := by
  cases step with
  | act act => exact h.act act
  | request message asks =>
    have hfurther := Message.ne_shutdown_of_fromClient
      (Message.fromClient_of_reply? (asks ⟨s.service.futures.length⟩))
    let future : Future := if s.service.running then .waiting else .closed
    have hgrown : WindsDown
        { s with service := { s.service with futures := s.service.futures ++ [future] } } :=
      h.quiet rfl rfl rfl fun _ => rfl
    exact hgrown.posts hfurther rfl rfl
  | post message client => exact h.posts (Message.ne_shutdown_of_fromClient client) rfl rfl
  | close => exact h.close
  | look ticket => exact h.quiet rfl rfl rfl fun _ => rfl
  | write request =>
    have hkept := s.service.writeCredits_keeps request
    exact h.quiet hkept.1 hkept.2.1 hkept.2.2.1 fun _ => rfl
  | finish held result =>
    rw [Completion.messages_finish rfl]
    exact h.posts Message.noConfusion rfl rfl
  | discard held =>
    rw [Completion.messages_discard rfl]
    exact h.posts Message.noConfusion rfl rfl

end WindsDown

theorem windsDown_of_reachable {config : Config} (h : Reachable config s) : s.WindsDown := by
  induction h with
  | start started => exact .start started
  | next _ step ih => exact ih.step step

/-! ### Later sessions -/

/-- What has happened and what is to happen of the message at hand is not lost. -/
theorem effects_of_step (step : Step s s') : s.done ++ s.todo <+: s'.done ++ s'.todo := by
  cases step with
  | act act =>
    cases act with
    | handle rested =>
      rw [rested, List.append_nil]
      exact List.prefix_append _ _
    | perform next =>
      rename_i effect rest
      have hsame : (s.perform effect rest).done ++ (s.perform effect rest).todo =
          s.done ++ s.todo := by
        rw [next]
        cases effect <;> simp only [perform, List.append_assoc, List.singleton_append]
      exact ⟨[], (List.append_nil _).trans hsame.symm⟩
    | stop => exact List.prefix_refl _
    | retry => exact List.prefix_refl _
    | cycle => exact List.prefix_refl _
  | _ => exact List.prefix_refl _

/-- What is the same in a session and in later ones when the manager has stopped. -/
structure Ended (s s' : Session) : Prop where
  running : s'.service.running = false
  state : s'.service.state = s.service.state
  /-- No call is made and no future is settled. -/
  done : s'.done = s.done
  attempts : s'.attempts = s.attempts

theorem Ended.keeps {s'' : Session} (h : Ended s s')
    (running : s''.service.running = s'.service.running)
    (state : s''.service.state = s'.service.state) (done : s''.done = s'.done)
    (attempts : s''.attempts = s'.attempts) : Ended s s'' :=
  ⟨running.trans h.running, state.trans h.state, done.trans h.done, attempts.trans h.attempts⟩

theorem Ended.step {s'' : Session} (h : Ended s s') (winds : s'.WindsDown)
    (step : Step s' s'') : Ended s s'' := by
  have hstopped := ne_true_of_eq_false h.running
  obtain ⟨hclosed, -, htodo⟩ := winds.stopped h.running
  cases step with
  | act act =>
    -- a manager that has stopped does nothing
    cases act with
    | handle _ going => exact absurd going hstopped
    | perform next =>
      rw [htodo] at next
      cases next
    | stop _ going => exact absurd going hstopped
    | retry _ going => exact absurd going hstopped
    | cycle _ going => exact absurd going hstopped
  | request message => exact h.keeps (Service.running_post _ _) (Service.state_post _ _) rfl rfl
  | post message => exact h.keeps (Service.running_post _ _) (Service.state_post _ _) rfl rfl
  | close =>
    have hsame : s'.close = s' := by rw [close, Service.close, if_pos hclosed]
    rw [hsame]
    exact h
  | look ticket => exact h.keeps rfl rfl rfl rfl
  | write request =>
    have hsame : (s'.write request).service = s'.service := by
      rw [write, Service.writeCredits_of_stopped h.running]
    exact h.keeps (congrArg Service.running hsame) (congrArg Service.state hsame) rfl rfl
  | finish held result =>
    rw [Completion.messages_finish rfl]
    exact h.keeps (Service.running_post _ _) (Service.state_post _ _) rfl rfl
  | discard held =>
    rw [Completion.messages_discard rfl]
    exact h.keeps (Service.running_post _ _) (Service.state_post _ _) rfl rfl

section

variable {config : Config}

theorem reachable_of_steps (h : Reachable config s) (steps : ReflTransGen Step s s') :
    Reachable config s' := by
  induction steps with
  | refl => exact h
  | tail _ step ih => exact ih.next step

theorem steps_of_acts (acts : ReflTransGen Act s s') : ReflTransGen Step s s' := by
  induction acts with
  | refl => exact .refl
  | tail _ act ih => exact ih.tail (.act act)

theorem effects_of_steps (steps : ReflTransGen Step s s') :
    s.done ++ s.todo <+: s'.done ++ s'.todo := by
  induction steps with
  | refl => exact List.prefix_refl _
  | tail _ step ih => exact ih.trans (effects_of_step step)

theorem ended_of_steps (h : Reachable config s) (stopped : s.service.running = false)
    (steps : ReflTransGen Step s s') : Ended s s' := by
  induction steps with
  | refl => exact ⟨stopped, rfl, rfl, rfl⟩
  | tail steps step ih => exact ih.step (windsDown_of_reachable (reachable_of_steps h steps)) step

end

theorem stops_of_rested {inbox : List Message} (next : s.service.inbox = inbox)
    (rested : s.todo = []) (going : s.service.running = true) (asked : .shutdown ∈ inbox) :
    ∃ s', ReflTransGen Act s s' ∧ s'.service.running = false := by
  induction inbox generalizing s with
  | nil => cases asked
  | cons message later ih =>
    by_cases further : message = .shutdown
    · subst further
      exact ⟨s.stop, .single (.stop rested going next), rfl⟩
    · obtain ⟨s', hacts, hrested, hservice, -⟩ := acts_handleNext rested going
      rw [Service.handleNext_of_ne message next further] at hservice
      have hasked : .shutdown ∈ later := (List.mem_cons.1 asked).resolve_left (Ne.symm further)
      obtain ⟨s'', hlater, hstopped⟩ := ih (congrArg Service.inbox hservice) hrested
        ((congrArg Service.running hservice).trans going) hasked
      exact ⟨s'', hacts.trans hlater, hstopped⟩

theorem WindsDown.stops (h : s.WindsDown) (closed : s.service.closed = true) :
    ∃ s', ReflTransGen Act s s' ∧ s'.service.running = false := by
  cases going : s.service.running with
  | false => exact ⟨s, .refl, going⟩
  | true =>
    have hasked : .shutdown ∈ s.rest.service.inbox := (h.going going).2 closed
    obtain ⟨s', hlater, hstopped⟩ := stops_of_rested (s := s.rest) rfl rfl going hasked
    exact ⟨s', (acts_rest s).trans hlater, hstopped⟩

end Session

end JobBroker.Manager
