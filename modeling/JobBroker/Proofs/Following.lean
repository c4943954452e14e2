import JobBroker.Proofs.Session
import JobBroker.Proofs.Waiting

/-!
# Sessions follow worlds

Every session is the outside of a world: the messages that were taken up are those of its history,
in order, and the effects of that history are those that have happened and those that are still to
happen. What is known of worlds is so known of sessions, whatever others do between two effects.
-/

namespace JobBroker.Manager

namespace World

variable {w w' : World} {creditCapacity : Nat}

def effects (w : World) : List Effect := w.history.flatMap fun moment => moment.turn.effects

theorem effects_happen (w : World) (event : Event) (turn : Turn) :
    (w.happen event turn).effects = w.effects ++ turn.effects := by
  simp only [effects, happen, List.flatMap_append, List.flatMap_singleton]

theorem settlements_eq (w : World) : w.settlements = (settledOf w.effects).map Prod.fst := by
  simp only [settlements, effects, settledOf, List.filterMap_flatMap, List.map_flatMap]

theorem filterMap_first {α β : Type} (f : α → Option β) (item : α) (items : List α) :
    (item :: items).filterMap f = (f item).toList ++ items.filterMap f := by
  rw [List.filterMap_cons]
  cases f item <;> rfl

theorem happen_inj {event event' : Event} {turn turn' : Turn}
    (h : w.happen event turn = w.happen event' turn') : event = event' ∧ turn = turn' := by
  have hhistory := congrArg World.history h
  have hmoment := List.head_eq_of_cons_eq (List.append_cancel_left hhistory)
  exact ⟨congrArg Moment.event hmoment, congrArg Moment.turn hmoment⟩

theorem posted_happen {event : Event} {turn : Turn} (h : w.Consistent)
    (step : Step w (w.happen event turn)) :
    w.Posted ⟨w.state, event, turn⟩ (w.happen event turn) := by
  obtain ⟨moment, hposted⟩ := posted_of_step h step
  obtain ⟨hevent, hturn⟩ := happen_inj hposted.after
  have hmoment := hposted.moment_eq
  rw [← hevent, ← hturn] at hmoment
  rw [hmoment]
  exact hposted

theorem outstanding_happen {event : Event} {turn : Turn} (calls : callsOf turn.effects = [])
    (ended : event.ended? = none) : (w.happen event turn).outstanding = w.outstanding := by
  rw [outstanding, calls_happen, endings_happen, calls, ended, Option.toList_none,
    List.append_nil, List.append_nil, outstanding]

/-- Any message but the one that stops the manager makes a world go on, if the call that it ends is
outstanding. -/
theorem takes {message : Message} (further : message ≠ .shutdown)
    (ends : ∀ operation outcome, message = .resume operation outcome →
      ∃ call result, (operation, call) ∈ w.outstanding ∧ outcome = call.outcome result) :
    ∃ event, Step w (w.happen event (w.state.handle message)) ∧
      event.reply? = message.reply? ∧ event.ended? = message.resumed? := by
  cases client : message.fromClient with
  | true =>
    refine ⟨.told message, .tell message client, rfl, ?_⟩
    exact (Message.resumed?_of_fromClient client).symm
  | false =>
    cases message with
    | resume operation outcome =>
      obtain ⟨call, result, hheld, rfl⟩ := ends operation outcome rfl
      exact ⟨.ended operation call result, .finish operation call hheld result, rfl, rfl⟩
    | shutdown => exact absurd rfl further
    | _ => cases client

end World

namespace Session

variable {s s' : Session} {w : World} {creditCapacity : Nat}

/-- The calls that are under way: held, ended by a message that waits, or still to be made. -/
def operations (s : Session) : List OperationId :=
  s.held.map Prod.fst ++ s.service.inbox.filterMap Message.resumed? ++
    (callsOf s.todo).map Prod.fst

/-- The calls that are under way when a message is next: the one that it ends, if it does, and the
others. -/
theorem operations_perm (rested : s.todo = []) {message : Message} {later : List Message}
    (next : s.service.inbox = message :: later) :
    s.operations.Perm (message.resumed?.toList ++
      (s.held.map Prod.fst ++ later.filterMap Message.resumed?)) := by
  rw [operations, rested, next, World.filterMap_first]
  exact (List.append_nil _).symm ▸ List.perm_append_comm_assoc _ _ _

theorem operations_perform {effect : Effect} {rest : List Effect} (next : s.todo = effect :: rest) :
    s.operations.Perm (s.perform effect rest).operations := by
  cases effect with
  | call operation call =>
    -- the call goes from those to be made to those held
    simp only [operations, next, Session.perform, List.map_append, List.append_assoc]
    refine List.Perm.append_left _ ?_
    exact List.perm_middle
  | settle reply result =>
    rw [operations, next]
    exact List.Perm.refl _

theorem operations_post {message : Message} (endsNothing : message.resumed? = none) :
    (s.post message).operations = s.operations := by
  cases going : s.service.running with
  | false => rw [Session.post, Service.post_of_stopped message going]
  | true =>
    rw [operations, Session.post, Service.inbox_post message going, World.filterMap_snoc,
      endsNothing, Option.toList_none, List.append_nil, operations]

theorem operations_request {message : Ticket → Message}
    (asks : ∀ ticket, (message ticket).reply? = some ticket) :
    (s.request message).operations = s.operations :=
  operations_post (s := { s with service := { s.service with futures := _ } })
    (Message.resumed?_of_fromClient (Message.fromClient_of_reply? (asks _)))

/-- A call that ends goes from those held to those that a message ends. -/
theorem operations_finish (going : s.service.running = true) {operation : OperationId}
    {call : Call} (held : (operation, call) ∈ s.held) (outcome : Outcome) :
    s.operations.Perm (s.finish (operation, call) [.resume operation outcome]).operations := by
  have hinbox : (s.finish (operation, call) [.resume operation outcome]).service.inbox =
      s.service.inbox ++ [.resume operation outcome] := Service.inbox_post _ going
  have hheld := (List.perm_cons_erase held).map Prod.fst
  rw [operations, operations, hinbox, World.filterMap_snoc]
  refine List.Perm.append_right _ ((hheld.append_right _).trans ?_)
  rw [← List.append_assoc]
  exact (List.perm_append_singleton _ _).symm

/-- A session has gone as far as a world. -/
structure Follows (s : Session) (w : World) : Prop where
  state : w.state = s.service.state
  effects : w.effects = s.done ++ s.todo
  asking : s.service.running = true →
    w.requests ++ s.service.inbox.filterMap Message.reply? = s.tickets
  asked : w.requests <+: s.tickets
  outstanding : ∀ call ∈ s.held ++ callsOf s.todo, call ∈ w.outstanding
  ends : ∀ operation outcome, .resume operation outcome ∈ s.service.inbox →
    ∃ call result, (operation, call) ∈ w.outstanding ∧ outcome = call.outcome result
  distinct : s.operations.Nodup
  underway : s.service.running = true → ∀ call ∈ w.outstanding, call.1 ∈ s.operations

namespace Follows

theorem start {config : Config} {service : Service}
    (started : Service.start config = .ok service) :
    Follows { service } (World.initial config.creditCapacity) := by
  rw [Service.eq_of_start started]
  exact ⟨rfl, rfl, fun _ => rfl, List.prefix_refl _, List.forall_mem_nil _,
    fun _ _ h => absurd h List.not_mem_nil, List.nodup_nil, fun _ => List.forall_mem_nil _⟩

/-- Whatever leaves alone what a world knows of is no step of the world. -/
theorem quiet (h : s.Follows w) (state : s'.service.state = s.service.state)
    (running : s'.service.running = s.service.running) (inbox : s'.service.inbox = s.service.inbox)
    (tickets : s'.tickets = s.tickets) (todo : s'.todo = s.todo) (done : s'.done = s.done)
    (held : s'.held = s.held) : s'.Follows w := by
  obtain ⟨hstate, heffects, hasking, hasked, houtstanding, hends, hdistinct, hunderway⟩ := h
  refine ⟨?_, ?_, ?_, ?_, ?_, ?_, ?_, ?_⟩
  · rw [state, hstate]
  · rw [done, todo, heffects]
  · rw [running, inbox, tickets]
    exact hasking
  · rw [tickets]
    exact hasked
  · rw [held, todo]
    exact houtstanding
  · rw [inbox]
    exact hends
  · rw [operations, held, inbox, todo]
    exact hdistinct
  · rw [running, operations, held, inbox, todo]
    exact hunderway

theorem perform (h : s.Follows w) {effect : Effect} {rest : List Effect}
    (next : s.todo = effect :: rest) : (s.perform effect rest).Follows w := by
  obtain ⟨hstate, heffects, hasking, hasked, houtstanding, hends, hdistinct, hunderway⟩ := h
  have hperm := operations_perform next
  rw [next] at heffects houtstanding
  cases effect with
  | call operation call =>
    refine ⟨hstate, ?_, hasking, hasked, ?_, hends, hperm.nodup hdistinct,
      fun going made hmade => hperm.subset (hunderway going made hmade)⟩
    · simpa only [Session.perform, List.append_assoc, List.singleton_append] using heffects
    · rw [Session.perform, List.append_assoc]
      exact houtstanding
  | settle reply result =>
    have htickets : (s.perform (.settle reply result) rest).tickets = s.tickets := by
      simp only [tickets, Session.perform, List.length_modify]
    refine ⟨hstate, ?_, ?_, ?_, houtstanding, hends, hperm.nodup hdistinct,
      fun going made hmade => hperm.subset (hunderway going made hmade)⟩
    · simpa only [Session.perform, List.append_assoc, List.singleton_append] using heffects
    · rw [htickets]
      exact hasking
    · rw [htickets]
      exact hasked

theorem stop (h : s.Follows w) (rested : s.todo = []) : s.stop.Follows w := by
  obtain ⟨hstate, heffects, -, hasked, houtstanding, -, hdistinct, -⟩ := h
  have htickets : s.stop.tickets = s.tickets := by
    simp only [tickets, Session.stop, Service.stop, List.length_map]
  -- what was asked for in messages that are left behind is asked of no world
  refine ⟨hstate, heffects, (fun going => by cases going), ?_, houtstanding, ?_, ?_,
    fun going => by cases going⟩
  · rw [htickets]
    exact hasked
  · intro operation outcome hmem
    cases hmem
  · rw [operations, rested] at hdistinct
    rw [operations, Session.stop, rested]
    exact hdistinct.sublist ((List.Sublist.append_left (List.nil_sublist _) _).append_right _)

theorem post (h : s.Follows w) {message : Message} (asksNothing : message.reply? = none)
    (endsNothing : message.resumed? = none) : (s.post message).Follows w := by
  cases going : s.service.running with
  | false =>
    have hsame : s.post message = s := by rw [Session.post, Service.post_of_stopped message going]
    rw [hsame]
    exact h
  | true =>
    have hinbox := Service.inbox_post message going
    have htickets : (s.post message).tickets = s.tickets := by
      rw [tickets, Session.post, Service.futures_post, tickets]
    refine ⟨h.state.trans (Service.state_post _ _).symm, h.effects, fun _ => ?_, ?_,
      h.outstanding, ?_, (operations_post endsNothing).symm ▸ h.distinct,
      fun _ => (operations_post endsNothing).symm ▸ h.underway going⟩
    · rw [Session.post, hinbox, World.filterMap_snoc, asksNothing, Option.toList_none,
        List.append_nil]
      exact (h.asking going).trans htickets.symm
    · rw [htickets]
      exact h.asked
    · intro operation outcome hmem
      rw [Session.post, hinbox, List.mem_append, List.mem_singleton] at hmem
      rcases hmem with hold | hnew
      · exact h.ends operation outcome hold
      · rw [← hnew] at endsNothing
        cases endsNothing

theorem close (h : s.Follows w) : s.close.Follows w := by
  cases closed : s.service.closed with
  | true =>
    have hsame : s.close = s := by rw [Session.close, Service.close, if_pos closed]
    rw [hsame]
    exact h
  | false =>
    have hservice : s.close.service = { s.service.post .shutdown with closed := true } := by
      rw [Session.close, Service.close, if_neg (ne_true_of_eq_false closed)]
    have hposted : (s.post .shutdown).Follows w := h.post rfl rfl
    refine hposted.quiet ?_ ?_ ?_ ?_ rfl rfl rfl
    · rw [hservice]
      rfl
    · rw [hservice]
      rfl
    · rw [hservice]
      rfl
    · rw [tickets, hservice]
      rfl

theorem look (h : s.Follows w) (ticket : Ticket) : (s.look ticket).Follows w := by
  refine h.quiet rfl rfl rfl ?_ rfl rfl rfl
  simp only [tickets, Session.look, Service.take, List.length_modify]

/-- Asking for something gives a future out, on which the message will be answered. -/
theorem request (h : s.Follows w) {message : Ticket → Message}
    (asks : ∀ ticket, (message ticket).reply? = some ticket) : (s.request message).Follows w := by
  let ticket : Ticket := ⟨s.service.futures.length⟩
  have htickets : (s.request message).tickets = s.tickets ++ [ticket] := by
    simp only [tickets, Session.request, Service.request, Service.futures_post, List.length_append,
      List.length_singleton, List.range_succ, List.map_append, List.map_singleton]
    rfl
  have hendsNothing : (message ticket).resumed? = none :=
    Message.resumed?_of_fromClient (Message.fromClient_of_reply? (asks ticket))
  have hasked : w.requests <+: s.tickets ++ [ticket] := h.asked.trans (List.prefix_append _ _)
  have hkept : (s.request message).service.state = s.service.state := Service.state_post _ _
  have hstate : w.state = (s.request message).service.state := h.state.trans hkept.symm
  have hoperations : (s.request message).operations = s.operations := operations_request asks
  cases going : s.service.running with
  | false =>
    have hinbox : (s.request message).service.inbox = s.service.inbox :=
      Service.inbox_post_of_stopped _ going
    have hstopped : (s.request message).service.running = false :=
      (Service.running_post _ _).trans going
    refine ⟨hstate, h.effects, ?_, htickets ▸ hasked, h.outstanding, ?_,
      hoperations.symm ▸ h.distinct, fun hgoing => absurd hgoing (ne_true_of_eq_false hstopped)⟩
    · exact fun hgoing => absurd hgoing (ne_true_of_eq_false hstopped)
    · rw [hinbox]
      exact h.ends
  | true =>
    have hinbox : (s.request message).service.inbox = s.service.inbox ++ [message ticket] :=
      Service.inbox_post _ going
    refine ⟨hstate, h.effects, fun _ => ?_, htickets ▸ hasked, h.outstanding, ?_,
      hoperations.symm ▸ h.distinct, fun _ => hoperations.symm ▸ h.underway going⟩
    · rw [hinbox, World.filterMap_snoc, asks, Option.toList_some, ← List.append_assoc,
        h.asking going, htickets]
    · intro operation outcome hmem
      rw [hinbox, List.mem_append, List.mem_singleton] at hmem
      rcases hmem with hold | hnew
      · exact h.ends operation outcome hold
      · rw [← hnew] at hendsNothing
        cases hendsNothing

/-- A call that ends is no longer held: the message that tells of it is on its way. -/
theorem finish (h : s.Follows w) {operation : OperationId} {call : Call}
    (held : (operation, call) ∈ s.held) (result : Except String call.Success) :
    (s.finish (operation, call) [.resume operation (call.outcome result)]).Follows w := by
  let message : Message := .resume operation (call.outcome result)
  have hcall := h.outstanding _ (List.mem_append_left _ held)
  have houtstanding : ∀ other ∈ s.held.erase (operation, call) ++ callsOf s.todo,
      other ∈ w.outstanding := by
    intro other hmem
    refine h.outstanding other ?_
    rw [List.mem_append] at hmem ⊢
    exact hmem.imp_left List.mem_of_mem_erase
  have htickets : (s.finish (operation, call) [message]).tickets = s.tickets := by
    rw [tickets, Session.finish, List.foldl_cons, List.foldl_nil, Service.futures_post, tickets]
  cases going : s.service.running with
  | false =>
    have hservice : (s.finish (operation, call) [message]).service = s.service :=
      Service.post_of_stopped message going
    refine ⟨?_, h.effects, ?_, ?_, houtstanding, ?_, ?_, ?_⟩
    · rw [hservice, h.state]
    · rw [hservice, htickets]
      exact h.asking
    · rw [htickets]
      exact h.asked
    · rw [hservice]
      exact h.ends
    · rw [operations, hservice]
      have hsublist : ((s.held.erase (operation, call)).map Prod.fst).Sublist
          (s.held.map Prod.fst) := List.erase_sublist.map Prod.fst
      exact h.distinct.sublist ((hsublist.append_right _).append_right _)
    · rw [hservice]
      exact fun hgoing => absurd hgoing (ne_true_of_eq_false going)
  | true =>
    have hinbox : (s.finish (operation, call) [message]).service.inbox =
        s.service.inbox ++ [message] := Service.inbox_post message going
    have hperm := operations_finish going held (call.outcome result)
    refine ⟨h.state.trans (Service.state_post _ _).symm, h.effects, fun _ => ?_, ?_, houtstanding,
      ?_, hperm.nodup h.distinct,
      fun _ made hmade => hperm.subset (h.underway going made hmade)⟩
    · rw [hinbox, World.filterMap_snoc, htickets]
      exact (congrArg (w.requests ++ ·) (List.append_nil _)).trans (h.asking going)
    · rw [htickets]
      exact h.asked
    · intro other outcome hmem
      rw [hinbox, List.mem_append, List.mem_singleton] at hmem
      rcases hmem with hold | hnew
      · exact h.ends other outcome hold
      · obtain ⟨rfl, rfl⟩ := Message.resume.inj hnew
        exact ⟨call, result, hcall, rfl⟩

/-- What is under way is outstanding. -/
theorem operations_outstanding (h : s.Follows w) :
    ∀ operation ∈ s.operations, ∃ call, (operation, call) ∈ w.outstanding := by
  intro operation hmem
  rw [operations, List.mem_append, List.mem_append] at hmem
  rcases hmem with (hheld | hends) | htodo
  · obtain ⟨call, hmem, rfl⟩ := List.mem_map.1 hheld
    exact ⟨call.2, h.outstanding call (List.mem_append_left _ hmem)⟩
  · obtain ⟨message, hmessage, hresumed⟩ := List.mem_filterMap.1 hends
    cases message with
    | resume ended outcome =>
      cases hresumed
      obtain ⟨call, -, houtstanding, -⟩ := h.ends operation outcome hmessage
      exact ⟨call, houtstanding⟩
    | _ => cases hresumed
  · obtain ⟨call, hmem, rfl⟩ := List.mem_map.1 htodo
    exact ⟨call.2, h.outstanding call (List.mem_append_right _ hmem)⟩

theorem lt_nextOperation (h : s.Follows w) (reached : Manager.Reachable creditCapacity w) :
    ∀ operation ∈ s.operations, operation.val < w.state.nextOperation := by
  intro operation hmem
  obtain ⟨call, hcall⟩ := h.operations_outstanding operation hmem
  exact (World.consistent_of_reachable reached).numbers _ (World.mem_outstanding.1 hcall).1

/-- A message that is taken up is told to the world, and its effects are still to happen. -/
theorem handle (h : s.Follows w) (reached : Manager.Reachable creditCapacity w)
    {message : Message} {later : List Message} (rested : s.todo = [])
    (going : s.service.running = true) (next : s.service.inbox = message :: later)
    (further : message ≠ .shutdown) :
    ∃ w', Manager.Step w w' ∧ (s.handle message later).Follows w' := by
  have hends := h.ends
  rw [next] at hends
  obtain ⟨event, hstep, hreply, hended⟩ := World.takes further
    fun operation outcome hmessage => hends operation outcome (hmessage ▸ List.mem_cons_self ..)
  have hconsistent := World.consistent_of_reachable reached
  rw [h.state] at hstep
  have hposted := World.posted_happen hconsistent hstep
  have hperm := operations_perm rested next
  obtain ⟨-, hothers, hfresh⟩ := List.nodup_append.1 (hperm.nodup h.distinct)
  -- another call than the one that ends is outstanding before and after
  have hstays : ∀ call ∈ w.outstanding,
      call.1 ∈ s.held.map Prod.fst ++ later.filterMap Message.resumed? →
      call ∈ (w.happen event (s.service.state.handle message)).outstanding := by
    intro call hcall hother
    refine hposted.stays hcall fun hends => ?_
    rw [hended] at hends
    exact hfresh call.1 (Option.mem_toList.2 hends) call.1 hother rfl
  have hasking : (w.happen event (s.service.state.handle message)).requests ++
      later.filterMap Message.reply? = s.tickets := by
    rw [World.requests_happen, hreply, List.append_assoc, ← World.filterMap_first, ← next]
    exact h.asking going
  refine ⟨_, hstep, rfl, ?_, fun _ => hasking, ⟨_, hasking⟩, ?_, ?_, ?_, fun _ => ?_⟩
  · rw [World.effects_happen, h.effects, rested, List.append_nil]
    rfl
  · intro call hcall
    rcases List.mem_append.1 hcall with hheld | hnew
    · refine hstays call (h.outstanding call (List.mem_append_left _ hheld)) ?_
      exact List.mem_append_left _ (List.mem_map_of_mem hheld)
    · exact (hposted.issued hconsistent hnew).1
  · intro operation outcome hmem
    obtain ⟨call, result, hcall, houtcome⟩ :=
      hends operation outcome (List.mem_cons_of_mem _ hmem)
    refine ⟨call, result, hstays _ hcall ?_, houtcome⟩
    exact List.mem_append_right _ (List.mem_filterMap.2 ⟨_, hmem, rfl⟩)
  · refine List.nodup_append.2 ⟨hothers, hposted.notes.distinct, ?_⟩
    rintro operation hother other hnew rfl
    obtain ⟨call, hcall, rfl⟩ := List.mem_map.1 hnew
    have hold := h.lt_nextOperation reached call.1
      (hperm.mem_iff.2 (List.mem_append_right _ hother))
    exact absurd hold (Nat.not_lt.2 (hposted.issued hconsistent hcall).2)
  · intro call hcall
    obtain ⟨hmade, hopen⟩ := World.mem_outstanding.1 hcall
    rw [hposted.calls, List.mem_append] at hmade
    rw [hposted.endings, List.mem_append, not_or, Option.mem_toList, hended] at hopen
    rcases hmade with hmade | hnew
    · have hold := h.underway going call (World.mem_outstanding.2 ⟨hmade, hopen.1⟩)
      rw [hperm.mem_iff, List.mem_append, Option.mem_toList] at hold
      exact List.mem_append_left _ (hold.resolve_left hopen.2)
    · exact List.mem_append_right _ (List.mem_map_of_mem hnew)

theorem works (h : s.Follows w) {event : Event} (unasked : event.reply? = none)
    (unended : event.ended? = none) (state : State) (attempts : List Attempt) :
    Follows { s with service := { s.service with state := state }, attempts := attempts }
      (w.happen event state.rest) := by
  have houtstanding : (w.happen event state.rest).outstanding = w.outstanding :=
    World.outstanding_happen rfl unended
  have hrequests : (w.happen event state.rest).requests = w.requests := by
    rw [World.requests_happen, unasked, Option.toList_none, List.append_nil]
  refine ⟨rfl, ?_, ?_, ?_, ?_, ?_, h.distinct, ?_⟩
  · rw [World.effects_happen]
    exact (List.append_nil _).trans h.effects
  · rw [hrequests]
    exact h.asking
  · rw [hrequests]
    exact h.asked
  · rw [houtstanding]
    exact h.outstanding
  · rw [houtstanding]
    exact h.ends
  · rw [houtstanding]
    exact h.underway

theorem retry {σ : Type} (h : s.Follows w) (ask : σ → Processor → CreditRequest → Bool × σ)
    (answerer : σ) : (s.retry ask answerer).Follows (w.retry ask answerer) := by
  rw [World.retry, h.state]
  exact h.works rfl rfl _ _

theorem cycle {σ : Type} (h : s.Follows w) (ask : σ → Processor → CreditRequest → Bool × σ)
    (answerer : σ) : (s.cycle ask answerer).Follows (w.cycle ask answerer) := by
  rw [World.cycle, h.state]
  exact h.works rfl rfl _ _

theorem write (h : s.Follows w) (reached : Manager.Reachable creditCapacity w)
    (request : CreditRequest) :
    ∃ w', Manager.Reachable creditCapacity w' ∧ (s.write request).Follows w' := by
  cases going : s.service.running with
  | false =>
    refine ⟨w, reached, ?_⟩
    rw [Session.write, Service.writeCredits_of_stopped going]
    exact h
  | true =>
    refine ⟨w.write request, reached.next (.write request), ?_⟩
    rw [Session.write, Service.writeCredits, if_pos going, World.write, h.state]
    exact h.works rfl rfl _ _

theorem act (h : s.Follows w) (reached : Manager.Reachable creditCapacity w) (act : Act s s') :
    ∃ w', Manager.Reachable creditCapacity w' ∧ s'.Follows w' := by
  cases act with
  | handle rested going next further =>
    obtain ⟨w', hstep, hfollows⟩ := h.handle reached rested going next further
    exact ⟨w', reached.next hstep, hfollows⟩
  | perform next => exact ⟨w, reached, h.perform next⟩
  | stop rested => exact ⟨w, reached, h.stop rested⟩
  | retry _ _ ask answerer => exact ⟨_, reached.next (.retry ask answerer), h.retry ask answerer⟩
  | cycle _ _ ask answerer => exact ⟨_, reached.next (.cycle ask answerer), h.cycle ask answerer⟩

theorem step (h : s.Follows w) (reached : Manager.Reachable creditCapacity w)
    (step : Step s s') : ∃ w', Manager.Reachable creditCapacity w' ∧ s'.Follows w' := by
  cases step with
  | act act => exact h.act reached act
  | request message asks => exact ⟨w, reached, h.request asks⟩
  | post message client asksNothing =>
    exact ⟨w, reached, h.post asksNothing (Message.resumed?_of_fromClient client)⟩
  | close => exact ⟨w, reached, h.close⟩
  | look ticket => exact ⟨w, reached, h.look ticket⟩
  | write request => exact h.write reached request
  | finish held result =>
    rw [Completion.messages_finish rfl]
    exact ⟨w, reached, h.finish held result⟩
  | discard held =>
    rw [Completion.messages_discard rfl]
    exact ⟨w, reached, h.finish held _⟩

end Follows

theorem follows_of_reachable {config : Config} (h : Reachable config s) :
    ∃ w, Manager.Reachable config.creditCapacity w ∧ s.Follows w := by
  induction h with
  | start started => exact ⟨_, .start, .start started⟩
  | next _ step ih =>
    obtain ⟨w, hreached, hfollows⟩ := ih
    exact hfollows.step hreached step

end Session

end JobBroker.Manager
