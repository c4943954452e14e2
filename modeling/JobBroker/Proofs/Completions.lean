import JobBroker.Proofs.Replies

/-!
# Completions and what they resume

With every call the manager notes how to go on, and the completion that goes with the call tells it
once how the call has ended, whether it is used or thrown away. When that message is taken up, what
was noted of the call is still there, and it goes on from an outcome of that kind. What passes over
an outcome is there for no message that is ever sent.
-/

namespace JobBroker.Manager

open Relation (ReflTransGen)

/-! ### Continuations and outcomes -/

/-- Tells whether a continuation goes on from an outcome. -/
def Continuation.Takes : Continuation → Outcome → Prop
  | .build _, .built _ => True
  | .subscribe _ _ _ _ _, .settled _ => True
  | .unsubscribe _ _, .remaining _ => True
  | .teardown _ _, .settled _ => True
  | .sweep _ _, .remaining _ => True
  | _, _ => False

/-- What is noted of a call goes on from every outcome of the call. -/
theorem Continuation.Fits.takes {continuation : Continuation} {call : Call}
    (fits : continuation.Fits call) (result : Except String call.Success) :
    continuation.Takes (call.outcome result) := by
  cases continuation <;> cases call <;> first | exact trivial | exact False.elim fits

namespace State

variable {s : State} {operation : OperationId}

/-- Goes on where a call has ended, and comes to nothing where nothing is noted of the call, or
something that does not go on from the outcome. -/
def resumeChecked (s : State) (operation : OperationId) (outcome : Outcome) : Option Turn :=
  match s.continuations.get? operation with
  | none => none
  | some continuation =>
    let s := { s with continuations := s.continuations.erase operation }
    match continuation, outcome with
    | .build unit, .built result => some (s.onBuilt unit result)
    | .subscribe key connection processor reply closed, .settled result =>
      some (s.onAdded key connection processor reply closed result)
    | .unsubscribe processor reply, .remaining result => some (s.onRemoved processor reply result)
    | .teardown processor reply, .settled result => some (s.onTornDown processor reply result)
    | .sweep processor _, .remaining result => some (s.onSwept processor result)
    | _, _ => none

theorem resumeChecked_of_takes {continuation : Continuation} {outcome : Outcome}
    (found : s.continuations.get? operation = some continuation)
    (takes : continuation.Takes outcome) :
    s.resumeChecked operation outcome = some (s.handle (.resume operation outcome)) := by
  rw [handle, resumeChecked, resume, found]
  cases continuation <;> cases outcome <;> first | exact False.elim takes | rfl

/-- Tells whether a state goes on with what was noted of a call, however the call ends. -/
def GoesOn (s : State) (operation : OperationId) (call : Call) : Prop :=
  ∃ continuation, s.continuations.get? operation = some continuation ∧ continuation.Fits call ∧
    ∀ result, continuation.Takes (call.outcome result) ∧
      s.resumeChecked operation (call.outcome result) =
        some (s.handle (.resume operation (call.outcome result)))

theorem goesOn_of_awaits {call : Call} (h : s.Awaits operation call) : s.GoesOn operation call := by
  obtain ⟨continuation, hget, hfits⟩ := h
  exact ⟨continuation, hget, hfits, fun result =>
    ⟨hfits.takes result, resumeChecked_of_takes hget (hfits.takes result)⟩⟩

end State

/-- A completion that has told the manager sends nothing more. -/
theorem Completion.messages_told {completion : Completion} (told : completion.told = true)
    (result : Except String completion.call.Success) :
    completion.finish result = [] ∧ completion.discard = [] := by
  simp [finish, discard, tell, told]

namespace Session

variable {s s' : Session} {w : World} {creditCapacity : Nat} {config : Config}

/-- The calls that were made, and those that are to be made for the message at hand. -/
def calls (s : Session) : List (OperationId × Call) := callsOf (s.done ++ s.todo)

namespace Follows

theorem calls_eq (h : s.Follows w) : w.calls = s.calls := by
  rw [calls, ← h.effects, World.calls, World.effects, callsOf, List.filterMap_flatMap]
  rfl

theorem numbered (h : s.Follows w) (reached : Manager.Reachable creditCapacity w) :
    s.calls.map (fun call => call.1.val) = List.range s.service.state.nextOperation := by
  rw [← h.calls_eq, World.calls_numbered reached, h.state]

theorem length_calls (h : s.Follows w) (reached : Manager.Reachable creditCapacity w) :
    s.calls.length = s.service.state.nextOperation := by
  have hlength := congrArg List.length (h.numbered reached)
  rwa [List.length_map, List.length_range] at hlength

/-- While the manager runs, what is noted is noted of the calls that are under way. -/
theorem noted (h : s.Follows w) (reached : Manager.Reachable creditCapacity w)
    (going : s.service.running = true) :
    s.service.state.continuations.keys.Perm s.operations := by
  have hnoted := World.noted_perm reached
  rw [h.state] at hnoted
  refine hnoted.trans ((List.perm_ext_iff_of_nodup ?_ h.distinct).2 fun operation => ?_)
  · exact hnoted.nodup s.service.state.continuations.distinct
  · constructor
    · intro hmem
      obtain ⟨call, hcall, rfl⟩ := List.mem_map.1 hmem
      exact h.underway going call hcall
    · intro hmem
      obtain ⟨call, hcall⟩ := h.operations_outstanding operation hmem
      exact List.mem_map_of_mem hcall

theorem goesOn (h : s.Follows w) (reached : Manager.Reachable creditCapacity w)
    {operation : OperationId} {call : Call} (outstanding : (operation, call) ∈ w.outstanding) :
    s.service.state.GoesOn operation call := by
  rw [← h.state]
  exact State.goesOn_of_awaits ((World.consistent_of_reachable reached).awaits _ outstanding)

/-- A call that a message in the inbox ends was made, and not just for the message at hand. -/
theorem made (h : s.Follows w) {operation : OperationId} {outcome : Outcome}
    (waits : .resume operation outcome ∈ s.service.inbox) {call : Call}
    (outstanding : (operation, call) ∈ w.outstanding) : (operation, call) ∈ callsOf s.done := by
  have hmade := (World.mem_outstanding.1 outstanding).1
  rw [h.calls_eq, calls, callsOf_append, List.mem_append] at hmade
  refine hmade.resolve_right fun htodo => ?_
  have hdistinct := h.distinct
  rw [operations, List.nodup_append] at hdistinct
  have hends : operation ∈ s.service.inbox.filterMap Message.resumed? :=
    List.mem_filterMap.2 ⟨_, waits, rfl⟩
  exact hdistinct.2.2 operation (List.mem_append_right _ hends) operation
    (List.mem_map_of_mem htodo) rfl

/-- The calls that a message makes have numbers that no call had before. -/
theorem le_of_new (h : s.Follows w) (reached : Manager.Reachable creditCapacity w)
    {message : Message} {later : List Message} (rested : s.todo = [])
    (going : s.service.running = true) (next : s.service.inbox = message :: later)
    (further : message ≠ .shutdown) {call : OperationId × Call}
    (new : call ∈ callsOf (s.handle message later).todo) :
    s.service.state.nextOperation ≤ call.1.val := by
  obtain ⟨w', hstep, hfollows⟩ := h.handle reached rested going next further
  have hbefore := h.numbered reached
  have hafter := hfollows.numbered (reached.next hstep)
  rw [calls, rested, List.append_nil] at hbefore
  rw [calls, callsOf_append, List.map_append] at hafter
  have hdistinct := hafter ▸ List.nodup_range
  by_contra hlt
  have hold : call.1.val ∈ (callsOf s.done).map fun call => call.1.val := by
    rw [hbefore, List.mem_range]
    exact Nat.not_le.1 hlt
  exact (List.nodup_append.1 hdistinct).2.2 _ hold _ (List.mem_map_of_mem new) rfl

end Follows

theorem operations_finish_subset {operation : OperationId} {call : Call}
    (held : (operation, call) ∈ s.held) (outcome : Outcome) :
    (s.finish (operation, call) [.resume operation outcome]).operations ⊆ s.operations := by
  cases going : s.service.running with
  | true => exact (operations_finish going held outcome).symm.subset
  | false =>
    have hservice : (s.finish (operation, call) [.resume operation outcome]).service = s.service :=
      Service.post_of_stopped _ going
    have hheld : ((s.held.erase (operation, call)).map Prod.fst).Sublist (s.held.map Prod.fst) :=
      List.erase_sublist.map Prod.fst
    rw [operations, hservice]
    exact ((hheld.append_right _).append_right _).subset

/-- What a step adds to what is under way are calls with new numbers. -/
theorem Follows.operations_step (h : s.Follows w) (reached : Manager.Reachable creditCapacity w)
    (step : Step s s') :
    ∀ operation ∈ s'.operations,
      operation ∈ s.operations ∨ s.service.state.nextOperation ≤ operation.val := by
  intro operation hmem
  cases step with
  | act act =>
    cases act with
    | handle rested going next further =>
      rw [operations, List.mem_append] at hmem
      rcases hmem with hold | hnew
      · exact .inl ((operations_perm rested next).mem_iff.2 (List.mem_append_right _ hold))
      · obtain ⟨call, hcall, rfl⟩ := List.mem_map.1 hnew
        exact .inr (h.le_of_new reached rested going next further hcall)
    | perform next => exact .inl ((operations_perform next).mem_iff.2 hmem)
    | stop =>
      have hsublist : ((s.held.map Prod.fst) ++ []).Sublist
          (s.held.map Prod.fst ++ s.service.inbox.filterMap Message.resumed?) :=
        List.Sublist.append_left (List.nil_sublist _) _
      exact .inl ((hsublist.append_right _).subset hmem)
    | retry => exact .inl hmem
    | cycle => exact .inl hmem
  | request message asks => exact .inl (operations_request asks ▸ hmem)
  | post message client =>
    exact .inl (operations_post (Message.resumed?_of_fromClient client) ▸ hmem)
  | close =>
    refine .inl ?_
    rw [Session.close, Service.close] at hmem
    split at hmem
    next => exact hmem
    next =>
      have hposted : (s.post .shutdown).operations = s.operations := operations_post rfl
      exact hposted ▸ hmem
  | look ticket => exact .inl hmem
  | write request =>
    have hinbox := (s.service.writeCredits_keeps request).2.2.1
    rw [operations, Session.write, hinbox] at hmem
    exact .inl hmem
  | finish held result =>
    rw [Completion.messages_finish rfl] at hmem
    exact .inl (operations_finish_subset held _ hmem)
  | discard held =>
    rw [Completion.messages_discard rfl] at hmem
    exact .inl (operations_finish_subset held _ hmem)

/-! ### One session -/

/-- How calls, what is noted of them and the messages that end them go together. -/
structure Resumes (s : Session) : Prop where
  /-- Calls are numbered in the order in which they are made. -/
  numbered : s.calls.map (fun call => call.1.val) = List.range s.calls.length
  distinct : (s.calls.map Prod.fst).Nodup
  /-- The calls that are held, that a message in the inbox ends, or that are about to be made. -/
  once : s.operations.Nodup
  noted : s.service.running = true → s.service.state.continuations.keys.Perm s.operations
  held : ∀ call ∈ s.held ++ callsOf s.todo, s.service.state.GoesOn call.1 call.2
  resumed : ∀ operation outcome, .resume operation outcome ∈ s.service.inbox →
    ∃ call result, (operation, call) ∈ callsOf s.done ∧ outcome = call.outcome result ∧
      s.service.state.GoesOn operation call

theorem resumes_of_reachable (h : Reachable config s) : s.Resumes := by
  obtain ⟨w, hreached, hfollows⟩ := follows_of_reachable h
  constructor
  · rw [hfollows.length_calls hreached]
    exact hfollows.numbered hreached
  · rw [← hfollows.calls_eq]
    exact World.calls_nodup hreached
  · exact hfollows.distinct
  · exact hfollows.noted hreached
  · exact fun call hmem => hfollows.goesOn hreached (hfollows.outstanding call hmem)
  · intro operation outcome hwaits
    obtain ⟨call, result, hcall, houtcome⟩ := hfollows.ends operation outcome hwaits
    exact ⟨call, result, hfollows.made hwaits hcall, houtcome, hfollows.goesOn hreached hcall⟩

/-- What has been resumed is over: a call that was made and is no longer under way never is
again. -/
theorem over_of_steps (h : Reachable config s) {operation : OperationId}
    (made : operation ∈ s.calls.map Prod.fst) (ended : operation ∉ s.operations)
    (steps : ReflTransGen Step s s') : operation ∉ s'.operations := by
  have hlt : ∀ {s'}, ReflTransGen Step s s' → operation.val < s'.service.state.nextOperation := by
    intro s' steps
    obtain ⟨w, hreached, hfollows⟩ := follows_of_reachable (reachable_of_steps h steps)
    have hmade : operation ∈ s'.calls.map Prod.fst := by
      obtain ⟨later, hlater⟩ := effects_of_steps steps
      rw [calls, ← hlater, callsOf_append, List.map_append]
      exact List.mem_append_left _ made
    obtain ⟨call, hcall, rfl⟩ := List.mem_map.1 hmade
    rw [← List.mem_range, ← hfollows.numbered hreached]
    exact List.mem_map_of_mem hcall
  induction steps with
  | refl => exact ended
  | tail steps step ih =>
    obtain ⟨w, hreached, hfollows⟩ := follows_of_reachable (reachable_of_steps h steps)
    intro hmem
    rcases hfollows.operations_step hreached step operation hmem with hold | hnew
    · exact ih hold
    · exact absurd (hlt steps) (Nat.not_lt.2 hnew)

/-- A session in which a call that was held has ended: one message with its outcome is behind the
others, and the call is no longer held. -/
structure EndsOnce (s s' : Session) (operation : OperationId) (outcome : Outcome) : Prop where
  inbox : s'.service.inbox = s.service.inbox ++ [.resume operation outcome]
  state : s'.service.state = s.service.state
  released : operation ∉ s'.held.map Prod.fst

theorem endsOnce_finish (h : Reachable config s) (going : s.service.running = true)
    {operation : OperationId} {call : Call} (held : (operation, call) ∈ s.held)
    (outcome : Outcome) :
    EndsOnce s (s.finish (operation, call) [.resume operation outcome]) operation outcome where
  inbox := Service.inbox_post _ going
  state := Service.state_post _ _
  released := by
    have honce : (s.held.map Prod.fst).Nodup :=
      (resumes_of_reachable h).once.of_append_left.of_append_left
    have hheld := ((List.perm_cons_erase held).map Prod.fst).nodup honce
    exact (List.nodup_cons.1 hheld).1

/-- Every completion finds what was noted of its call. Calls have numbers of their own, and a
counter with room for as many calls has room for their numbers. What is noted while the manager
runs is noted of just the calls that are under way, and goes on from any outcome of its call. A
completion sends one message, used or thrown away, and none after that. So nothing that a message
in the inbox resumes is missing or of another kind, and what it has resumed is not resumed
again. -/
theorem completions_resume (h : Reachable config s) :
    s.Resumes ∧
      (∀ size, s.calls.length ≤ size → ∀ call ∈ s.calls, call.1.val < size) ∧
      (s.service.running = true → ∀ operation call, (operation, call) ∈ s.held →
        (∀ result, EndsOnce s
          (s.finish (operation, call) (Completion.finish ⟨operation, call, false⟩ result))
          operation (call.outcome result)) ∧
        EndsOnce s (s.finish (operation, call) (Completion.discard ⟨operation, call, false⟩))
          operation (call.outcome (.error Completion.discardedReason))) ∧
      (∀ operation call result, Completion.finish ⟨operation, call, true⟩ result = [] ∧
        Completion.discard ⟨operation, call, true⟩ = []) ∧
      (∀ operation outcome, .resume operation outcome ∈ s.service.inbox →
        s.service.state.resumeChecked operation outcome =
          some (s.service.state.handle (.resume operation outcome))) ∧
      (∀ s', ReflTransGen Step s s' → ∀ operation ∈ s.calls.map Prod.fst,
        operation ∉ s.operations → operation ∉ s'.operations) := by
  have hresumes := resumes_of_reachable h
  refine ⟨hresumes, ?_, ?_, ?_, ?_, ?_⟩
  · intro size hsize call hcall
    have hnumber : call.1.val ∈ List.range s.calls.length :=
      hresumes.numbered ▸ List.mem_map_of_mem hcall
    exact Nat.lt_of_lt_of_le (List.mem_range.1 hnumber) hsize
  · intro going operation call held
    refine ⟨fun result => ?_, ?_⟩
    · rw [Completion.messages_finish rfl]
      exact endsOnce_finish h going held _
    · rw [Completion.messages_discard rfl]
      exact endsOnce_finish h going held _
  · exact fun operation call result => Completion.messages_told rfl result
  · intro operation outcome hwaits
    obtain ⟨call, result, -, rfl, continuation, -, -, hgoes⟩ :=
      hresumes.resumed operation outcome hwaits
    exact (hgoes result).2
  · exact fun s' steps operation made ended => over_of_steps h made ended steps

namespace Sample

open Manager.Sample

/-- The builder throws its completion away. -/
def discarded : Session :=
  waiting.finish (⟨0⟩, .build unit) (Completion.discard ⟨⟨0⟩, .build unit, false⟩)

theorem held_waiting : (⟨0⟩, .build unit) ∈ waiting.held := by decide +kernel

theorem reachable_discarded : Reachable Sample.config discarded :=
  reachable_waiting.next (.discard held_waiting)

end Sample

open Session.Sample in
theorem completions_resume_discarded :
    EndsOnce waiting discarded ⟨0⟩ (.built (.error Completion.discardedReason)) ∧
      discarded.service.state.continuations.keys.Perm [⟨0⟩] ∧
      discarded.service.state.resumeChecked ⟨0⟩ (.built (.error Completion.discardedReason)) =
        some (discarded.service.state.handle
          (.resume ⟨0⟩ (.built (.error Completion.discardedReason)))) ∧
      ⟨0⟩ ∉ discarded.advance.operations ∧
      ⟨0⟩ ∉ (discarded.advance.request .snapshot).operations := by
  obtain ⟨-, -, hends, -⟩ := completions_resume reachable_waiting
  obtain ⟨hresumes, -, -, -, hgoes, -⟩ := completions_resume reachable_discarded
  obtain ⟨-, -, -, -, -, hover⟩ := completions_resume (reachable_discarded.advance rfl)
  have hresumed : (⟨0⟩ : OperationId) ∉ discarded.advance.operations := by decide +kernel
  refine ⟨(hends rfl ⟨0⟩ _ held_waiting).2, hresumes.noted rfl,
    hgoes ⟨0⟩ _ (List.mem_singleton_self _), hresumed, ?_⟩
  exact hover _ (.single (.request .snapshot fun _ => rfl)) ⟨0⟩ (by decide +kernel) hresumed

end Session

end JobBroker.Manager
