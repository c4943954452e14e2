import JobBroker.Proofs.Following

/-!
# Replies

A reply that was asked for is in one place until its future is settled: in the message that asks for
it, with a subscription that waits for a unit, with a call that is under way, or in an effect of the
message at hand. What is found on the future is the result that it was settled with, once, however
often and early it is looked at, and that the manager is closed only after that, or when the manager
has stopped before.
-/

namespace JobBroker.Manager

open Holding Table
open Relation (ReflTransGen)

/-! ### Where replies are -/

def Continuation.reply? : Continuation → Option Ticket
  | .subscribe _ _ _ reply _ => some reply
  | .unsubscribe _ reply => some reply
  | .teardown _ reply => reply
  | _ => none

theorem Holding.reply?_ongoing (continuation : Continuation) :
    (ongoing continuation).reply? = continuation.reply? := by
  cases continuation <;> rfl

namespace State

def waitingReplies (s : State) : List Ticket :=
  s.pending.values.flatMap fun queue => queue.map Waiting.reply

def ongoingReplies (s : State) : List Ticket :=
  s.continuations.values.filterMap Continuation.reply?

theorem count_waitingReplies (s : State) (reply : Ticket) :
    (s.pending.contents queueHoldings).countP (fun thing => thing.reply? = some reply) =
      s.waitingReplies.count reply := by
  rw [contents, waitingReplies, values, List.flatMap_map]
  induction s.pending.entries with
  | nil => rfl
  | cons entry entries ih =>
    rw [List.map_cons, List.sum_cons, Multiset.countP_add, ih, List.flatMap_cons, List.count_append,
      queueHoldings, Multiset.coe_countP, List.countP_map, List.count, List.countP_map]
    refine congrArg (· + _) (List.countP_congr fun w _ => ?_)
    simp [Holding.reply?]

theorem count_ongoingReplies (s : State) (reply : Ticket) :
    (s.continuations.entries.countP fun entry => (ongoing entry.2).reply? = some reply) =
      s.ongoingReplies.count reply := by
  rw [ongoingReplies, values, List.filterMap_map, List.count_filterMap]
  refine List.countP_congr fun entry _ => ?_
  rw [reply?_ongoing, decide_eq_true_eq, beq_iff_eq]
  rfl

theorem count_replies (s : State) (reply : Ticket) :
    (s.ledger 0).count Holding.reply? reply =
      s.waitingReplies.count reply + s.ongoingReplies.count reply := by
  rw [count_ledger, countP_buckets fun _ _ => rfl, count_waitingReplies, count_ongoingReplies]
  simp [Holding.reply?]

end State

namespace Session

variable {s s' : Session} {w : World} {creditCapacity : Nat}

/-- The replies that are owed, each where it is. -/
def owed (s : Session) : List Ticket :=
  s.service.inbox.filterMap Message.reply? ++ (settledOf s.todo).map Prod.fst ++
    s.service.state.waitingReplies ++ s.service.state.ongoingReplies

theorem tickets_nodup (s : Session) : s.tickets.Nodup :=
  List.nodup_range.map fun _ _ h => congrArg Ticket.val h

namespace Follows

variable (h : s.Follows w) (reached : Manager.Reachable creditCapacity w)
include h reached

/-- Of what was asked for so far, all was told, or is to be told, or waits in a table. -/
theorem count_told (reply : Ticket) :
    (s.told.map Prod.fst).count reply + ((settledOf s.todo).map Prod.fst).count reply +
      (s.service.state.waitingReplies.count reply + s.service.state.ongoingReplies.count reply) =
        w.requests.count reply := by
  rw [← World.replies_of_reachable reached reply, ← State.count_replies, h.state,
    World.settlements_eq, h.effects, settledOf_append, List.map_append, List.count_append]
  rfl

theorem owed_perm (going : s.service.running = true) :
    (s.owed ++ s.told.map Prod.fst).Perm s.tickets := by
  -- a reply is counted where it is, and the world has counted what was asked for
  rw [List.perm_iff_count]
  intro reply
  have hasked := congrArg (List.count reply) (h.asking going)
  have htold := h.count_told reached reply
  rw [List.count_append] at hasked
  simp only [owed, List.count_append]
  omega

theorem settled_nodup : ((settledOf (s.done ++ s.todo)).map Prod.fst).Nodup := by
  rw [List.nodup_iff_count_le_one]
  intro reply
  have htold := h.count_told reached reply
  have hasked := h.asked.sublist.count_le reply
  have hgiven := List.nodup_iff_count_le_one.1 s.tickets_nodup reply
  rw [settledOf_append, List.map_append, List.count_append]
  change (s.told.map Prod.fst).count reply + _ ≤ 1
  omega

end Follows

/-! ### What is on futures -/

end Session

/-- What can be on a future with a ticket, given the results that it was settled with and those that
looks have found there. -/
def Future.Standing (running : Bool) (told found : List Result) : Option Future → Prop
  | none => told = [] ∧ found = []
  | some .waiting => running = true ∧ told = [] ∧ found = []
  | some (.ready result) => told = [result] ∧ found = []
  | some .closed => (told = [] → running = false) ∧ told.length ≤ 1 ∧
      ∃ looks, found = told ++ List.replicate looks (.error .managerClosed)

namespace Future.Standing

variable {running : Bool} {told found : List Result} {future? : Option Future}

/-- A look finds what it takes away, or that there is nothing more to come. -/
theorem look (h : Standing running told found future?) :
    Standing running told (found ++ (future?.bind observe).toList) (future?.map taken) := by
  cases future? with
  | none => exact ⟨h.1, by rw [h.2]; rfl⟩
  | some future =>
    cases future with
    | waiting => exact ⟨h.1, h.2.1, by rw [h.2.2]; rfl⟩
    | ready result =>
      obtain ⟨rfl, rfl⟩ := h
      exact ⟨fun hnone => absurd hnone (List.cons_ne_nil _ _), Nat.le_refl 1, 0, rfl⟩
    | closed =>
      obtain ⟨hstopped, hone, looks, rfl⟩ := h
      refine ⟨hstopped, hone, looks + 1, ?_⟩
      rw [List.append_assoc, List.replicate_succ']
      rfl

theorem settle (h : Standing true [] found future?) (given : future? ≠ none) (result : Result) :
    Standing true [result] found (future?.map (Future.settle result)) := by
  cases future? with
  | none => exact absurd rfl given
  | some future =>
    cases future with
    | waiting => exact ⟨rfl, h.2.2⟩
    | ready other => cases h.1
    | closed => cases h.1 rfl

theorem stop (h : Standing running told found future?) :
    Standing false told found (future?.map Future.close) := by
  cases future? with
  | none => exact h
  | some future =>
    cases future with
    | waiting =>
      obtain ⟨-, rfl, rfl⟩ := h
      exact ⟨fun _ => rfl, Nat.zero_le 1, 0, rfl⟩
    | ready result => exact h
    | closed => exact ⟨fun _ => rfl, h.2⟩

theorem give (h : Standing running told found none) :
    Standing running told found (some (if running then .waiting else .closed)) := by
  obtain ⟨rfl, rfl⟩ := h
  cases running with
  | true => exact ⟨rfl, rfl, rfl⟩
  | false => exact ⟨fun _ => rfl, Nat.zero_le 1, 0, rfl⟩

theorem unsettled (h : Standing true [] found future?) (given : future? ≠ none) :
    found = [] ∧ future?.bind observe = none := by
  cases future? with
  | none => exact absurd rfl given
  | some future =>
    cases future with
    | waiting => exact ⟨h.2.2, rfl⟩
    | ready result => cases h.1
    | closed => cases h.1 rfl

theorem abandoned (h : Standing false [] found future?) (given : future? ≠ none) :
    (∃ looks, found = List.replicate looks (.error .managerClosed)) ∧
      future?.bind observe = some (.error .managerClosed) := by
  cases future? with
  | none => exact absurd rfl given
  | some future =>
    cases future with
    | waiting => cases h.1
    | ready result => cases h.1
    | closed => exact ⟨h.2.2, rfl⟩

theorem settled (h : Standing running told found future?) {result : Result}
    (settled : result ∈ told) :
    found = [] ∧ future?.bind observe = some result ∨
      ∃ looks, found = result :: List.replicate looks (.error .managerClosed) ∧
        future?.bind observe = some (.error .managerClosed) := by
  cases future? with
  | none =>
    rw [h.1] at settled
    cases settled
  | some future =>
    cases future with
    | waiting =>
      rw [h.2.1] at settled
      cases settled
    | ready other =>
      rw [h.1, List.mem_singleton] at settled
      exact .inl ⟨h.2, congrArg some settled.symm⟩
    | closed =>
      obtain ⟨-, hone, looks, hfound⟩ := h
      have htold : told = [result] := by
        obtain ⟨other, htold⟩ := List.length_eq_one_iff.1
          (Nat.le_antisymm hone (List.length_pos_of_mem settled))
        rw [htold, List.mem_singleton] at settled
        rw [htold, settled]
      rw [htold] at hfound
      exact .inr ⟨looks, hfound, rfl⟩

end Future.Standing

namespace Session

variable {s s' : Session} {w : World} {creditCapacity : Nat}

section

variable {ticket other : Ticket} {result : Result} {all : List (Ticket × Result)}

theorem resultsFor_append (ticket : Ticket) (front back : List (Ticket × Result)) :
    resultsFor ticket (front ++ back) = resultsFor ticket front ++ resultsFor ticket back :=
  List.filterMap_append

theorem resultsFor_singleton (ticket other : Ticket) (result : Result) :
    resultsFor other [(ticket, result)] = if ticket = other then [result] else [] := by
  by_cases h : ticket = other <;> simp [resultsFor, h]

theorem mem_resultsFor : result ∈ resultsFor ticket all ↔ (ticket, result) ∈ all := by
  rw [resultsFor, List.mem_filterMap]
  constructor
  · rintro ⟨one, hmem, hone⟩
    split at hone
    next heq =>
      rw [← heq, ← Option.some.inj hone]
      exact hmem
    next => cases hone
  · exact fun hmem => ⟨_, hmem, if_pos rfl⟩

theorem resultsFor_eq_nil (unsettled : ticket ∉ all.map Prod.fst) : resultsFor ticket all = [] := by
  rw [List.eq_nil_iff_forall_not_mem]
  intro result hmem
  exact unsettled (List.mem_map_of_mem (mem_resultsFor.1 hmem))

theorem mem_tickets : ticket ∈ s.tickets ↔ s.service.futures[ticket.val]? ≠ none := by
  rw [ne_eq, List.getElem?_eq_none_iff, Nat.not_le, tickets, List.mem_map]
  constructor
  · rintro ⟨place, hplace, rfl⟩
    exact List.mem_range.1 hplace
  · exact fun hplace => ⟨ticket.val, List.mem_range.2 hplace, rfl⟩

end

def Stands (s : Session) : Prop :=
  ∀ ticket, Future.Standing s.service.running (s.toldTo ticket) (s.foundOn ticket)
    s.service.futures[ticket.val]?

theorem future_modify (futures : List Future) (change : Future → Future) (ticket other : Ticket) :
    (futures.modify ticket.val change)[other.val]? =
      if ticket = other then futures[other.val]?.map change else futures[other.val]? := by
  rw [List.getElem?_modify]
  by_cases same : ticket = other
  · subst same
    simp only [if_true]
    rfl
  · have hplace : ticket.val ≠ other.val := fun heq => same (congrArg Ticket.mk heq)
    simp only [same, hplace, if_false, id_map']

theorem foundOn_look (s : Session) (ticket other : Ticket) :
    (s.look ticket).foundOn other =
      s.foundOn other ++ if ticket = other then (s.sight ticket).toList else [] := by
  have hlook : (s.look ticket).found =
      s.found ++ ((s.sight ticket).map fun result => (ticket, result)).toList := rfl
  rw [foundOn, hlook, resultsFor_append, foundOn]
  cases s.sight ticket with
  | none => rw [Option.toList_none, ite_self]; rfl
  | some result => exact congrArg (s.foundOn other ++ ·) (resultsFor_singleton ticket other result)

theorem toldTo_settle (s : Session) (ticket other : Ticket) (result : Result)
    (rest : List Effect) : (s.perform (.settle ticket result) rest).toldTo other =
      s.toldTo other ++ if ticket = other then [result] else [] := by
  have htold : (s.perform (.settle ticket result) rest).told = s.told ++ [(ticket, result)] :=
    settledOf_append s.done [.settle ticket result]
  rw [toldTo, htold, resultsFor_append, resultsFor_singleton, toldTo]

namespace Stands

theorem quiet (h : s.Stands) (running : s'.service.running = s.service.running)
    (futures : s'.service.futures = s.service.futures) (told : s'.told = s.told)
    (found : s'.found = s.found) : s'.Stands := by
  intro ticket
  rw [running, futures, toldTo, told, foundOn, found]
  exact h ticket

theorem look (h : s.Stands) (ticket : Ticket) : (s.look ticket).Stands := by
  intro other
  change Future.Standing s.service.running (s.toldTo other) _
    (s.service.futures.modify ticket.val Future.taken)[other.val]?
  rw [foundOn_look, future_modify]
  by_cases same : ticket = other
  · subst same
    rw [if_pos rfl, if_pos rfl]
    exact (h ticket).look
  · rw [if_neg same, if_neg same, List.append_nil]
    exact h other

theorem settle (h : s.Stands) (going : s.service.running = true) {ticket : Ticket}
    (given : ticket ∈ s.tickets) (unsettled : ticket ∉ s.told.map Prod.fst) (result : Result)
    (rest : List Effect) : (s.perform (.settle ticket result) rest).Stands := by
  intro other
  change Future.Standing s.service.running _ (s.foundOn other)
    (s.service.futures.modify ticket.val (Future.settle result))[other.val]?
  rw [toldTo_settle, future_modify]
  by_cases same : ticket = other
  · subst same
    have hnone : s.toldTo ticket = [] := resultsFor_eq_nil unsettled
    have hticket := h ticket
    rw [hnone, going] at hticket
    rw [hnone, going, if_pos rfl, if_pos rfl]
    exact hticket.settle (mem_tickets.1 given) result
  · rw [if_neg same, if_neg same, List.append_nil]
    exact h other

theorem stop (h : s.Stands) : s.stop.Stands := by
  intro ticket
  change Future.Standing false (s.toldTo ticket) (s.foundOn ticket)
    (s.service.futures.map Future.close)[ticket.val]?
  rw [List.getElem?_map]
  exact (h ticket).stop

theorem request (h : s.Stands) (message : Ticket → Message) : (s.request message).Stands := by
  intro ticket
  have hrunning : (s.request message).service.running = s.service.running :=
    Service.running_post _ _
  have hfutures : (s.request message).service.futures =
      s.service.futures ++ [if s.service.running then .waiting else .closed] :=
    Service.futures_post _ _
  rw [hrunning, hfutures]
  change Future.Standing _ (s.toldTo ticket) (s.foundOn ticket) _
  have hticket := h ticket
  rcases Nat.lt_trichotomy ticket.val s.service.futures.length with hold | hnew | hnone
  · rw [List.getElem?_append_left hold]
    exact hticket
  · rw [List.getElem?_eq_none (Nat.le_of_eq hnew.symm)] at hticket
    rw [hnew, List.getElem?_concat_length]
    exact hticket.give
  · rw [List.getElem?_eq_none (Nat.le_of_lt hnone)] at hticket
    rw [List.getElem?_eq_none (by rw [List.length_append]; exact hnone)]
    exact hticket

theorem act (h : s.Stands) (follows : s.Follows w)
    (reached : Manager.Reachable creditCapacity w) (winds : s.WindsDown) (act : Act s s') :
    s'.Stands := by
  cases act with
  | handle => exact h.quiet rfl rfl rfl rfl
  | perform next =>
    rename_i effect rest
    cases effect with
    | call operation call =>
      refine h.quiet rfl rfl ?_ rfl
      exact (settledOf_append s.done [.call operation call]).trans (List.append_nil _)
    | settle reply result =>
      -- a future that is about to be settled was given out, was not settled, and was not closed
      have hgoing : s.service.running = true := by
        refine eq_true_of_ne_false fun stopped => ?_
        rw [(winds.stopped stopped).2.2] at next
        cases next
      have hnodup := follows.settled_nodup reached
      rw [settledOf_append, List.map_append, next] at hnodup
      have hunsettled : reply ∉ s.told.map Prod.fst := fun hmem =>
        (List.nodup_append.1 hnodup).2.2 reply hmem reply (List.mem_cons_self ..) rfl
      have hcount := follows.count_told reached reply
      have hpos : 0 < w.requests.count reply := by
        have htodo : 0 < ((settledOf s.todo).map Prod.fst).count reply := by
          rw [next, List.count_pos_iff]
          exact List.mem_cons_self ..
        omega
      have hgiven := follows.asked.subset (List.count_pos_iff.1 hpos)
      exact h.settle hgoing hgiven hunsettled result rest
  | stop => exact h.stop
  | retry => exact h.quiet rfl rfl rfl rfl
  | cycle => exact h.quiet rfl rfl rfl rfl

theorem step (h : s.Stands) (follows : s.Follows w)
    (reached : Manager.Reachable creditCapacity w) (winds : s.WindsDown) (step : Step s s') :
    s'.Stands := by
  cases step with
  | act act => exact h.act follows reached winds act
  | request message => exact h.request message
  | post message => exact h.quiet (Service.running_post _ _) (Service.futures_post _ _) rfl rfl
  | close =>
    refine h.quiet ?_ ?_ rfl rfl <;> rw [close, Service.close] <;> split
    · rfl
    · exact Service.running_post _ _
    · rfl
    · exact Service.futures_post _ _
  | look ticket => exact h.look ticket
  | write request =>
    have hkept := s.service.writeCredits_keeps request
    exact h.quiet hkept.1 hkept.2.2.2 rfl rfl
  | finish held result =>
    rw [Completion.messages_finish rfl]
    exact h.quiet (Service.running_post _ _) (Service.futures_post _ _) rfl rfl
  | discard held =>
    rw [Completion.messages_discard rfl]
    exact h.quiet (Service.running_post _ _) (Service.futures_post _ _) rfl rfl

end Stands

theorem stands_of_reachable {config : Config} (h : Reachable config s) : s.Stands := by
  induction h with
  | start started =>
    rw [Service.eq_of_start started]
    exact fun _ => ⟨rfl, rfl⟩
  | next reached step ih =>
    obtain ⟨w, hreached, hfollows⟩ := follows_of_reachable reached
    exact ih.step hfollows hreached (windsDown_of_reachable reached) step

/-! ### One session -/

/-- What the manager does next, when it has no credits to work on. -/
def advance (s : Session) : Session :=
  match s.todo with
  | effect :: rest => s.perform effect rest
  | [] =>
    match s.service.inbox with
    | [] => s
    | .shutdown :: _ => s.stop
    | message :: later => s.handle message later

theorem acts_advance (going : s.service.running = true) : ReflTransGen Act s s.advance := by
  unfold advance
  split
  next next => exact .single (.perform next)
  next rested =>
    split
    next => exact .refl
    next next => exact .single (.stop rested going next)
    next further next => exact .single (.handle rested going next fun heq => further heq)

theorem Reachable.advance {config : Config} (h : Reachable config s)
    (going : s.service.running = true) : Reachable config s.advance :=
  reachable_of_steps h (steps_of_acts (acts_advance going))

namespace Sample

open Manager.Sample

def config : Config := { name := "manager", creditCapacity := 2 }

def opened : Session := { service := { name := "manager", state := .initial 2 } }

def answered : Session := (opened.request (.unsubscribe ⟨9⟩)).advance.advance

def leading : Session := (answered.post (.addPartition unit.partition unit.service)).advance

def asking : Session := (leading.request (.subscribe subscription)).advance.advance

def waiting : Session := (asking.request (.subscribe subscription)).advance

/-- The unit is there, and both subscriptions are to be handed to its processor. -/
def handing : Session :=
  (waiting.finish (⟨0⟩, .build unit)
    (Completion.finish ⟨⟨0⟩, .build unit, false⟩ (.ok ⟨7⟩))).advance

/-- The processor closes the manager when it is handed the first of them. -/
def interrupted : Session := handing.advance.close.request .snapshot

def stopped : Session := interrupted.advance.advance

theorem reachable_answered : Reachable config answered :=
  (((Reachable.start rfl).next (.request _ fun _ => rfl)).advance rfl).advance rfl

theorem reachable_asking : Reachable config asking := by
  have hleading : Reachable config leading :=
    (reachable_answered.next (.post (.addPartition unit.partition _) rfl rfl)).advance rfl
  exact ((hleading.next (.request (.subscribe subscription) fun _ => rfl)).advance rfl).advance rfl

theorem reachable_waiting : Reachable config waiting :=
  (reachable_asking.next (.request (.subscribe subscription) fun _ => rfl)).advance rfl

theorem reachable_interrupted : Reachable config interrupted := by
  have hhanding : Reachable config handing :=
    (reachable_waiting.next (.finish (List.mem_singleton_self _) _)).advance rfl
  exact ((hhanding.advance rfl).next .close).next (.request _ fun _ => rfl)

theorem reachable_stopped : Reachable config stopped :=
  (reachable_interrupted.advance rfl).advance rfl

end Sample

/-! ### Delivery -/

/-- What is so of the futures of a session. -/
structure Delivers (s : Session) : Prop where
  /-- While the manager runs, every future was settled or its reply is owed in one place. -/
  owed : s.service.running = true → (s.owed ++ s.told.map Prod.fst).Perm s.tickets
  once : (s.told.map Prod.fst).Nodup
  unsettled : s.service.running = true → ∀ ticket ∈ s.tickets, ticket ∉ s.told.map Prod.fst →
    s.foundOn ticket = [] ∧ s.sight ticket = none
  settled : ∀ ticket result, (ticket, result) ∈ s.told →
    s.foundOn ticket = [] ∧ s.sight ticket = some result ∨
      ∃ looks, s.foundOn ticket = result :: List.replicate looks (.error .managerClosed) ∧
        s.sight ticket = some (.error .managerClosed)
  abandoned : s.service.running = false → ∀ ticket ∈ s.tickets, ticket ∉ s.told.map Prod.fst →
    (∃ looks, s.foundOn ticket = List.replicate looks (.error .managerClosed)) ∧
      s.sight ticket = some (.error .managerClosed)

theorem delivers_of_reachable {config : Config} (h : Reachable config s) : s.Delivers := by
  obtain ⟨w, hreached, hfollows⟩ := follows_of_reachable h
  have hstands := stands_of_reachable h
  have hstanding : ∀ ticket, ticket ∉ s.told.map Prod.fst →
      Future.Standing s.service.running [] (s.foundOn ticket) s.service.futures[ticket.val]? := by
    intro ticket hunsettled
    have hticket := hstands ticket
    rw [toldTo, resultsFor_eq_nil hunsettled] at hticket
    exact hticket
  constructor
  · exact hfollows.owed_perm hreached
  · have hnodup := hfollows.settled_nodup hreached
    rw [settledOf_append, List.map_append] at hnodup
    exact hnodup.of_append_left
  · intro going ticket hgiven hunsettled
    have hticket := hstanding ticket hunsettled
    rw [going] at hticket
    exact hticket.unsettled (mem_tickets.1 hgiven)
  · intro ticket result htold
    exact (hstands ticket).settled (mem_resultsFor.2 htold)
  · intro stopped ticket hgiven hunsettled
    have hticket := hstanding ticket hunsettled
    rw [stopped] at hticket
    exact hticket.abandoned (mem_tickets.1 hgiven)

/-- A session that comes after one in which the manager had stopped. -/
structure Silent (s s' : Session) : Prop extends Ended s s' where
  ends : ∀ operation call, (operation, call) ∈ s'.held → ∀ result,
    (s'.finish (operation, call) (Completion.finish ⟨operation, call, false⟩ result)).service =
        s'.service ∧
      (s'.finish (operation, call) (Completion.discard ⟨operation, call, false⟩)).service =
        s'.service
  credits : ∀ request, s'.service.writeCredits request = (s'.service, false)
  kept : ∀ ticket result, (ticket, result) ∈ s.told → s'.foundOn ticket = [] →
    s'.sight ticket = some result
  closed : ∀ ticket ∈ s'.tickets, ticket ∉ s.told.map Prod.fst →
    s'.sight ticket = some (.error .managerClosed)

theorem Ended.told (h : Ended s s') : s'.told = s.told := congrArg settledOf h.done

theorem Ended.silent {config : Config} (h : Ended s s') (reached : Reachable config s') :
    Silent s s' where
  toEnded := h
  ends operation call held result := by
    rw [Completion.messages_finish rfl, Completion.messages_discard rfl]
    exact ⟨Service.post_of_stopped _ h.running, Service.post_of_stopped _ h.running⟩
  credits := Service.writeCredits_of_stopped h.running
  kept := by
    intro ticket result htold hunseen
    rw [← h.told] at htold
    rcases (delivers_of_reachable reached).settled ticket result htold with
      ⟨-, hsight⟩ | ⟨looks, hfound, -⟩
    · exact hsight
    · rw [hunseen] at hfound
      cases hfound
  closed := by
    intro ticket hgiven hunsettled
    rw [← h.told] at hunsettled
    exact ((delivers_of_reachable reached).abandoned h.running ticket hgiven hunsettled).2

/-- Replies are delivered, each once. While the manager runs, the reply of a future that was not
settled is in one place, and nothing is found on that future. The first look after it was settled
finds the result, whenever that is and however often it was looked at before; later ones find that
nothing more is to come. A manager that was closed, also in the middle of a message, comes to its
end by what it does itself, and only after the rest of that message has happened. Then every future
that was not settled, and every one that is given out later, tells that the manager is closed; calls
that end and credits that are written change nothing, and nothing is asked of anybody. -/
theorem replies_delivered {config : Config} (h : Reachable config s) :
    s.Delivers ∧
      (s.service.closed = true → ∃ s', ReflTransGen Act s s' ∧ s'.service.running = false) ∧
      (∀ s', ReflTransGen Step s s' → s'.service.running = false →
        s'.service.closed = true ∧ s.done ++ s.todo <+: s'.done) ∧
      (s.service.running = false → ∀ s', ReflTransGen Step s s' → Silent s s') := by
  refine ⟨delivers_of_reachable h, (windsDown_of_reachable h).stops, ?_, ?_⟩
  · intro s' steps stopped
    obtain ⟨hclosed, -, htodo⟩ :=
      (windsDown_of_reachable (reachable_of_steps h steps)).stopped stopped
    have heffects := effects_of_steps steps
    rw [htodo, List.append_nil] at heffects
    exact ⟨hclosed, heffects⟩
  · intro stopped s' steps
    exact (ended_of_steps h stopped steps).silent (reachable_of_steps h steps)

open Session.Sample in
theorem replies_delivered_interrupted :
    interrupted.service.running = true ∧ interrupted.todo.length = 1 ∧
      (interrupted.owed ++ interrupted.told.map Prod.fst).Perm [⟨0⟩, ⟨1⟩, ⟨2⟩, ⟨3⟩] ∧
      (∃ s', ReflTransGen Act interrupted s' ∧ s'.service.running = false) ∧
      interrupted.done ++ interrupted.todo <+: stopped.done ∧
      stopped.sight ⟨0⟩ = some (.ok .done) ∧
      ∀ ticket ∈ [⟨1⟩, ⟨2⟩, ⟨3⟩, ⟨4⟩],
        (stopped.request .snapshot).sight ticket = some (.error .managerClosed) := by
  obtain ⟨hdelivers, hstops, hhandled, -⟩ := replies_delivered reachable_interrupted
  obtain ⟨hdelivered, -, -, hsilent⟩ := replies_delivered reachable_stopped
  have hsteps : ReflTransGen Step interrupted stopped :=
    steps_of_acts ((acts_advance rfl).trans (acts_advance rfl))
  refine ⟨rfl, rfl, hdelivers.owed rfl, hstops rfl, (hhandled stopped hsteps rfl).2, ?_, ?_⟩
  · rcases hdelivered.settled ⟨0⟩ (.ok .done) (List.mem_singleton_self _) with
      ⟨-, hsight⟩ | ⟨_, hfound, -⟩
    · exact hsight
    · cases hfound
  · have hlater := hsilent rfl _ (.single (.request .snapshot fun _ => rfl))
    have hgiven : ∀ ticket ∈ [⟨1⟩, ⟨2⟩, ⟨3⟩, ⟨4⟩],
        ticket ∈ (stopped.request .snapshot).tickets := by decide +kernel
    have hunsettled : ∀ ticket ∈ [⟨1⟩, ⟨2⟩, ⟨3⟩, ⟨4⟩], ticket ∉ stopped.told.map Prod.fst := by
      decide +kernel
    exact fun ticket hmem => hlater.closed ticket (hgiven ticket hmem) (hunsettled ticket hmem)

end Session

end JobBroker.Manager
