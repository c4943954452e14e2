import JobBroker.Proofs.Clearings
import JobBroker.Proofs.CreditOrder

/-!
# Credits at rest

Left to themselves, credits come to rest. A round of work takes the next request from the channel,
or it ends with a refusal: then one request is parked, for an active subscription, and nothing is
read until its processor accepts it or its subscription is gone.
-/

namespace JobBroker

namespace Credit

variable {σ : Type} {dispatch : σ → CreditRequest → Bool × σ}

/-- One request is parked, and the last answer was that it is refused. -/
structure Refuses (dispatch : σ → CreditRequest → Bool × σ) (parked : Overflow) (s : σ)
    (request : CreditRequest) : Prop where
  parked : parked.requests = [request]
  last : ∃ before, dispatch before request = (false, s)

theorem retry_none {parked : Overflow} (none : parked.requests = []) (s : σ) :
    retry dispatch parked s = ⟨{}, s⟩ := by
  obtain ⟨requests⟩ := parked
  obtain rfl : requests = [] := none
  have hempty : ¬0 < (⟨[]⟩ : Overflow).size := Nat.lt_irrefl 0
  rw [retry_empty hempty]

theorem retry_one {parked : Overflow} {request : CreditRequest} {done : Bool} {s s' : σ}
    (one : parked.requests = [request]) (answer : dispatch s request = (done, s')) :
    retry dispatch parked s = ⟨if done then {} else parked, s'⟩ := by
  obtain ⟨requests⟩ := parked
  obtain rfl : requests = [request] := one
  have hnonempty : 0 < (⟨[request]⟩ : Overflow).size := Nat.one_pos
  have hnewest := Overflow.newest_lt_size hnonempty
  cases done with
  | true =>
    rw [retry_done hnonempty hnewest answer]
    exact retry_none rfl s'
  | false => exact retry_refused hnonempty hnewest answer

section

variable (dispatch)

theorem retry_ends {parked : Overflow} (single : parked.size ≤ 1) (s : σ) :
    (retry dispatch parked s).parked.requests = [] ∨
      ∃ request, Refuses dispatch (retry dispatch parked s).parked
        (retry dispatch parked s).answerer request := by
  rcases Overflow.requests_of_size_le_one single with hnone | ⟨request, hone⟩
  · rw [retry_none hnone]
    exact .inl rfl
  · cases hanswer : dispatch s request with
    | mk done s' =>
      rw [retry_one hone hanswer]
      cases done with
      | true => exact .inl rfl
      | false => exact .inr ⟨request, hone, s, hanswer⟩

theorem consume_ends {pipeline : Pipeline} (unparked : pipeline.parked.requests = []) (s : σ) :
    (consume dispatch pipeline s).1.parked.requests = [] ∨
      ∃ request, Refuses dispatch (consume dispatch pipeline s).1.parked
        (consume dispatch pipeline s).2 request := by
  obtain ⟨⟨capacity, queue⟩, ⟨parked⟩⟩ := pipeline
  obtain rfl : parked = [] := unparked
  cases queue with
  | nil => exact .inl rfl
  | cons request queue =>
    simp only [consume, Channel.drain, Channel.drainQueue, park]
    cases hanswer : dispatch s request with
    | mk done s' =>
      cases done with
      | true => exact .inl rfl
      | false => exact .inr ⟨request, rfl, s, hanswer⟩

/-- A round of work that does not end with a refusal leaves nothing parked, and has taken the
first request from the channel. -/
theorem cycle_ends {pipeline : Pipeline} (single : pipeline.parked.size ≤ 1) (s : σ) :
    ((cycle dispatch pipeline s).1.parked.requests = [] ∧
      (cycle dispatch pipeline s).1.channel.queue = pipeline.channel.queue.tail) ∨
    ∃ request, Refuses dispatch (cycle dispatch pipeline s).1.parked
      (cycle dispatch pipeline s).2 request := by
  have hretried := retry_ends dispatch single s
  unfold cycle
  dsimp only
  split
  next hdrained =>
    have hunparked : (Pipeline.mk pipeline.channel
        (retry dispatch pipeline.parked s).parked).parked.requests = [] :=
      List.isEmpty_iff.1 hdrained
    refine (consume_ends dispatch hunparked _).imp_left fun hnone => ⟨hnone, ?_⟩
    rw [queue_consume]
  next hdrained =>
    refine hretried.elim (fun hnone => ?_) .inr
    exact absurd (List.isEmpty_iff.2 hnone) hdrained

theorem settle_ends {pipeline : Pipeline} (single : pipeline.parked.size ≤ 1) (s : σ) :
    ((settle dispatch pipeline s).1.parked.requests = [] ∧
      (settle dispatch pipeline s).1.channel.queue = []) ∨
    ∃ request, Refuses dispatch (settle dispatch pipeline s).1.parked
      (settle dispatch pipeline s).2 request := by
  fun_induction settle dispatch pipeline s
  case case1 pipeline s next moved ih =>
    refine ih ?_
    rcases cycle_ends dispatch single s with ⟨hnone, -⟩ | ⟨request, hrefuses⟩
    · exact (congrArg List.length hnone).trans_le (Nat.zero_le 1)
    · exact (congrArg List.length hrefuses.parked).le
  case case2 pipeline s next rests =>
    refine (cycle_ends dispatch single s).imp_left (And.imp_right fun htail => ?_)
    -- a round that took nothing although nothing was parked has found the channel empty
    have hlength : pipeline.channel.queue.length ≤ pipeline.channel.queue.tail.length :=
      Nat.le_of_not_lt (htail ▸ rests)
    rw [htail]
    cases hqueue : pipeline.channel.queue with
    | nil => rfl
    | cons request queue =>
      rw [hqueue] at hlength
      exact absurd hlength (Nat.not_succ_le_self _)

end

theorem cycle_idle {pipeline : Pipeline} (unparked : pipeline.parked.requests = [])
    (empty : pipeline.channel.queue = []) (s : σ) : cycle dispatch pipeline s = (pipeline, s) := by
  obtain ⟨⟨capacity, requests⟩, ⟨parked⟩⟩ := pipeline
  obtain rfl : parked = [] := unparked
  obtain rfl : requests = [] := empty
  unfold cycle
  dsimp only
  rw [retry_none rfl]
  rfl

/-- While nothing is parked, the first request of the channel is taken and done with. -/
theorem cycle_taken {pipeline : Pipeline} {request : CreditRequest} {later : List CreditRequest}
    {s s' : σ} (unparked : pipeline.parked.requests = [])
    (queue : pipeline.channel.queue = request :: later) (done : dispatch s request = (true, s')) :
    cycle dispatch pipeline s = (⟨{ pipeline.channel with queue := later }, {}⟩, s') := by
  obtain ⟨⟨capacity, requests⟩, parked⟩ := pipeline
  obtain rfl : requests = request :: later := queue
  unfold cycle
  dsimp only
  rw [retry_none unparked]
  show consume dispatch ⟨⟨capacity, request :: later⟩, {}⟩ s = _
  simp only [consume, Channel.drain, Channel.drainQueue, park, done]

section

variable {pipeline : Pipeline} {request : CreditRequest} {s s' : σ}
  (parked : pipeline.parked.requests = [request])
include parked

/-- A parked request that is no longer refused makes way for the channel. -/
theorem cycle_done (done : dispatch s request = (true, s')) :
    cycle dispatch pipeline s = consume dispatch ⟨pipeline.channel, {}⟩ s' := by
  unfold cycle
  dsimp only
  rw [retry_one parked done]
  rfl

/-- A parked request that is refused again stays where it is, and nothing else is tried. -/
theorem cycle_refused (refused : dispatch s request = (false, s')) :
    cycle dispatch pipeline s = (pipeline, s') := by
  have hkept : (⟨pipeline.parked, s'⟩ : Retried σ).drained = false := by
    rw [Retried.drained, Overflow.isEmpty, parked]
    rfl
  unfold cycle
  dsimp only
  rw [retry_one parked refused, if_neg Bool.false_ne_true, hkept, if_neg Bool.false_ne_true]

end

end Credit

namespace Manager

section

variable {σ : Type} {s : State} {ask : σ → Processor → CreditRequest → Bool × σ}
  {request : CreditRequest}

/-- Only the processor of an active subscription refuses. -/
theorem State.dispatch_refused {answerer answerer' : σ}
    (refused : s.dispatch ask answerer request = (false, answerer')) :
    ∃ entry, s.index.get? request.subscriber = some entry ∧
      ask answerer entry.processor request = (false, answerer') := by
  unfold dispatch at refused
  split at refused
  next => cases refused
  next entry hentry => exact ⟨entry, hentry, refused⟩

theorem State.attempt_refused {held held' : σ × List Attempt}
    (refused : s.attempt ask held request = (false, held')) :
    ∃ entry, s.index.get? request.subscriber = some entry ∧
      held'.2.getLast? = some ⟨request, some entry.processor, false⟩ := by
  unfold attempt dispatch at refused
  cases hentry : s.index.get? request.subscriber with
  | none =>
    rw [hentry] at refused
    cases congrArg Prod.fst refused
  | some entry =>
    rw [hentry] at refused
    have hanswer : (ask held.1 entry.processor request).1 = false := congrArg Prod.fst refused
    have hnoted : held.2 ++ [⟨request, some entry.processor,
      (ask held.1 entry.processor request).1⟩] = held'.2 :=
        congrArg (fun answered => answered.2.2) refused
    refine ⟨entry, rfl, ?_⟩
    rw [← hnoted, hanswer, List.getLast?_concat]

/-- An attempt is written down behind the earlier ones. -/
theorem State.prefix_attempt (held : σ × List Attempt) (request : CreditRequest) :
    held.2 <+: (s.attempt ask held request).2.2 := List.prefix_append _ _

end

/-- Tells whether a message ends an active subscription: it is given up, its connection closes, or
its partition is removed or registered anew. -/
def Message.Ends (message : Message) (key : SubscriberKey) (entry : IndexEntry) : Prop :=
  (∃ reply, message = .unsubscribe key reply) ∨ message = .connectionClosed entry.connection ∨
    message.cleared? = some entry.processor.partition

namespace World

variable {w w' : World} {creditCapacity : Nat} {request : CreditRequest}

/-! ### Rest -/

/-- A request is parked that is for an active subscription, and its processor has refused it just
now. -/
structure Blocked (w : World) (request : CreditRequest) : Prop where
  parked : w.state.credits.parked.requests = [request]
  refused : ∃ entry moment, w.state.index.get? request.subscriber = some entry ∧
    w.history.getLast? = some moment ∧
    moment.event.attempts.getLast? = some ⟨request, some entry.processor, false⟩

def Rests (w : World) : Prop :=
  (w.state.credits.parked.requests = [] ∧ w.state.credits.channel.queue = []) ∨
    ∃ request, w.Blocked request

/-- The number of requests that are not done with. -/
def backlog (w : World) : Nat := w.state.credits.parked.size + w.state.credits.channel.size

/-- A round of work on credits, among processors that answer as they like. -/
def Works (w w' : World) : Prop :=
  ∃ (σ : Type) (ask : σ → Processor → CreditRequest → Bool × σ) (answerer : σ),
    w' = w.cycle ask answerer

theorem Works.step (works : w.Works w') : Step w w' := by
  obtain ⟨σ, ask, answerer, rfl⟩ := works
  exact .cycle ask answerer

theorem Works.ends (works : w.Works w') (single : w.state.credits.parked.size ≤ 1) :
    (w'.state.credits.parked.requests = [] ∧
      w'.state.credits.channel.queue = w.state.credits.channel.queue.tail) ∨
    ∃ request, w'.Blocked request := by
  obtain ⟨σ, ask, answerer, rfl⟩ := works
  refine (Credit.cycle_ends (w.state.attempt ask) single (answerer, [])).imp_right ?_
  rintro ⟨request, hparked, before, hanswer⟩
  obtain ⟨entry, hentry, hlast⟩ := State.attempt_refused hanswer
  exact ⟨request, hparked, entry, _, hentry, List.getLast?_concat, hlast⟩

/-- The requests that are done with, and those that are not: a round of work keeps them all, in
their order. -/
theorem Works.conserves (h : Reachable creditCapacity w) (works : w.Works w') :
    w'.handled ++ w'.state.credits.parked.requests ++ w'.state.credits.channel.queue =
      w.handled ++ w.state.credits.parked.requests ++ w.state.credits.channel.queue := by
  have htaken : w'.taken = w.taken := by
    obtain ⟨σ, ask, answerer, rfl⟩ := works
    rw [cycle, taken_happen]
    exact List.append_nil _
  rw [← (inOrder_of_reachable h).conserved, ← htaken,
    (inOrder_of_reachable (h.next works.step)).conserved]

theorem backlog_lt (some : 0 < w.backlog)
    (unparked : w'.state.credits.parked.requests = [])
    (read : w'.state.credits.channel.queue = w.state.credits.channel.queue.tail) :
    w'.backlog < w.backlog := by
  have hleft : w'.backlog = w.state.credits.channel.queue.length - 1 := by
    rw [backlog, Credit.Overflow.size, unparked, Credit.Channel.size, read, List.length_tail]
    exact Nat.zero_add _
  have hbefore : w.backlog = w.state.credits.parked.size +
    w.state.credits.channel.queue.length := rfl
  omega

/-- Rounds of work, one after the other, come to rest before there are more of them than requests
that were not done with. -/
theorem rests_of_works (h : Reachable creditCapacity w) {worlds : ℕ → World}
    (start : worlds 0 = w) (works : ∀ n, (worlds n).Works (worlds (n + 1))) :
    ∃ n ≤ w.backlog, (worlds n).Rests := by
  induction hload : w.backlog using Nat.strong_induction_on generalizing w worlds with
  | _ load ih =>
    rcases Nat.eq_zero_or_pos load with hzero | hpos
    · have hnothing : w.state.credits.parked.size + w.state.credits.channel.size = 0 :=
        hload.trans hzero
      refine ⟨0, Nat.zero_le _, .inl ?_⟩
      rw [start]
      obtain ⟨hparked, hqueue⟩ := Nat.add_eq_zero_iff.1 hnothing
      exact ⟨List.eq_nil_of_length_eq_zero hparked, List.eq_nil_of_length_eq_zero hqueue⟩
    · have hfirst : w.Works (worlds 1) := start ▸ works 0
      rcases hfirst.ends (inOrder_of_reachable h).single with ⟨hnone, htail⟩ | hblocked
      · have hless := backlog_lt (hload ▸ hpos) hnone htail
        let later : ℕ → World := fun n => worlds (n + 1)
        have hstart : later 0 = worlds 1 := rfl
        have hworks : ∀ n, (later n).Works (later (n + 1)) := fun n => works (n + 1)
        obtain ⟨n, hn, hrests⟩ := ih _ (hload ▸ hless) (h.next hfirst.step) hstart hworks rfl
        exact ⟨n + 1, by omega, hrests⟩
      · exact ⟨1, hpos, .inr hblocked⟩

theorem handled_of_works (h : Reachable creditCapacity w) {worlds : ℕ → World}
    (start : worlds 0 = w) (works : ∀ n, (worlds n).Works (worlds (n + 1))) (n : ℕ) :
    Reachable creditCapacity (worlds n) ∧
      (worlds n).handled.length + (worlds n).backlog = w.handled.length + w.backlog := by
  induction n with
  | zero =>
    rw [start]
    exact ⟨h, rfl⟩
  | succ n ih =>
    obtain ⟨hreachable, hcount⟩ := ih
    have hconserved := congrArg List.length ((works n).conserves hreachable)
    simp only [List.length_append] at hconserved
    refine ⟨hreachable.next (works n).step, ?_⟩
    simp only [backlog, Credit.Overflow.size, Credit.Channel.size] at hcount ⊢
    omega

/-! ### The way on -/

section

variable {σ : Type} {ask : σ → Processor → CreditRequest → Bool × σ} {answerer : σ}

/-- The next round of work is done with the parked request and reads on in the channel; so is the
next retry, which does not read. -/
structure Resumes (w : World) (request : CreditRequest)
    (ask : σ → Processor → CreditRequest → Bool × σ) (answerer : σ) : Prop where
  handled : w.handled ++ [request] <+: (w.cycle ask answerer).handled
  read : (w.cycle ask answerer).state.credits.channel.queue =
    w.state.credits.channel.queue.tail
  retried : (w.retry ask answerer).handled = w.handled ++ [request]
  unparked : (w.retry ask answerer).state.credits.parked.requests = []

theorem attempt_of_done {request : CreditRequest}
    (done : (w.state.dispatch ask answerer request).1 = true) :
    ∃ held asked, w.state.attempt ask (answerer, []) request = (true, held) ∧
      held.2 = [⟨request, asked, true⟩] := by
  have hdone : (w.state.attempt ask (answerer, []) request).1 = true := by
    rw [← done, w.state.dispatch_attempt ask (answerer, []) request]
  refine ⟨_, (w.state.dispatch (noteAsked ask) (answerer, none) request).2.2,
    Prod.ext hdone rfl, ?_⟩
  rw [← hdone]
  rfl

theorem resumes_of_done (parked : w.state.credits.parked.requests = [request])
    (done : (w.state.dispatch ask answerer request).1 = true) : w.Resumes request ask answerer := by
  obtain ⟨held, asked, hattempt, hnoted⟩ := attempt_of_done done
  have hretried := Credit.retry_one parked hattempt
  have hcycled := Credit.cycle_done parked hattempt
  -- what the channel is read for is written down behind the parked request
  have hprefix : [(⟨request, asked, true⟩ : Attempt)] <+:
      (Credit.cycle (w.state.attempt ask) w.state.credits (answerer, [])).2.2 := by
    rw [hcycled]
    exact Credit.consume_keeps (P := fun held' : σ × List Attempt => _ <+: held'.2)
      (fun held' request before => before.trans (State.prefix_attempt held' request)) _
      (hnoted ▸ List.prefix_refl _)
  obtain ⟨later, hlater⟩ := hprefix
  refine ⟨?_, ?_, ?_, ?_⟩
  · rw [cycle, handled_happen, Event.attempts, ← hlater, doneWith_append, ← List.append_assoc]
    exact List.prefix_append _ _
  · show (Credit.cycle _ _ _).1.channel.queue = _
    rw [hcycled, Credit.queue_consume]
  · rw [retry, handled_happen, Event.attempts, hretried, hnoted]
    rfl
  · show (Credit.retry _ _ _).parked.requests = []
    rw [hretried]
    rfl

theorem dispatch_unknown (unknown : w.state.index.get? request.subscriber = none) :
    (w.state.dispatch ask answerer request).1 = true := by rw [State.dispatch, unknown]

theorem dispatch_accepted {entry : IndexEntry}
    (found : w.state.index.get? request.subscriber = some entry)
    (accepted : (ask answerer entry.processor request).1 = true) :
    (w.state.dispatch ask answerer request).1 = true := by rw [State.dispatch, found, accepted]

theorem cycle_of_unknown {later : List CreditRequest}
    (unparked : w.state.credits.parked.requests = [])
    (queue : w.state.credits.channel.queue = request :: later)
    (unknown : w.state.index.get? request.subscriber = none) :
    (w.cycle ask answerer).handled = w.handled ++ [request] ∧
      (w.cycle ask answerer).state.credits.parked.requests = [] ∧
      (w.cycle ask answerer).state.credits.channel.queue = later := by
  have hdone : (w.state.dispatch ask answerer request).1 = true := dispatch_unknown unknown
  obtain ⟨held, asked, hattempt, hnoted⟩ := attempt_of_done hdone
  have hcycled := Credit.cycle_taken unparked queue hattempt
  refine ⟨?_, ?_, ?_⟩
  · rw [cycle, handled_happen, Event.attempts, hcycled, hnoted]
    rfl
  · show (Credit.cycle _ _ _).1.parked.requests = []
    rw [hcycled]
  · show (Credit.cycle _ _ _).1.channel.queue = later
    rw [hcycled]

/-- A world at rest changes only by being done with the request that holds it up. -/
theorem Rests.works (rests : w.Rests) (works : w.Works w') :
    w'.state = w.state ∨ ∃ request, w.Blocked request ∧ w.handled ++ [request] <+: w'.handled := by
  obtain ⟨σ, ask, answerer, rfl⟩ := works
  rw [state_cycle]
  rcases rests with ⟨hparked, hqueue⟩ | ⟨request, hblocked⟩
  · exact .inl (by rw [Credit.cycle_idle hparked hqueue])
  · cases hdone : (w.state.dispatch ask answerer request).1 with
    | true => exact .inr ⟨request, hblocked, (resumes_of_done hblocked.parked hdone).handled⟩
    | false =>
      have hrefused : w.state.dispatch ask answerer request =
        (false, (w.state.dispatch ask answerer request).2) := Prod.ext hdone rfl
      rw [Credit.cycle_refused hblocked.parked hrefused]
      exact .inl rfl

end

/-! ### What makes way -/

theorem index_of_ends (h : Reachable creditCapacity w) {message : Message} {key : SubscriberKey}
    {entry : IndexEntry} (found : w.state.index.get? key = some entry)
    (ends : message.Ends key entry) : (w.tell message).state.index.get? key = none := by
  rcases ends with ⟨reply, rfl⟩ | rfl | hcleared
  · show (w.state.unsubscribe key reply).state.index.get? key = none
    rw [State.unsubscribe, found]
    show (w.state.unindex key).index.get? key = none
    rw [State.index_unindex, if_pos rfl]
  · show (w.state.connectionClosed entry.connection).state.index.get? key = none
    rw [State.index_connectionClosed, found, Option.filter_some, if_neg (by simp)]
  · have hgone : ∀ {partition new turn}, partition = entry.processor.partition →
        w.Clears partition new turn → turn.state.index.get? key = none := by
      rintro partition new turn rfl hclears
      rw [hclears.index, found, Option.filter_some, if_neg (by simp)]
    cases message with
    | addPartition partition service =>
      have hpartition : partition.id = entry.processor.partition := Option.some.inj hcleared
      refine hgone hpartition (clears_addPartition h partition service ?_)
      obtain ⟨bucket, hbucket, -⟩ := (routed_of_index h found).registered
      rw [Table.contains, hpartition, hbucket]
      rfl
    | removePartition partition =>
      exact hgone (Option.some.inj hcleared) (clears_removePartition h partition)
    | _ => cases hcleared

/-- Work on credits comes to rest, and what holds it up is a processor that refuses a request for
an active subscription. When the subscription ends or the processor no longer refuses, the next
round is done with that request and reads on. -/
theorem credits_come_to_rest (h : Reachable creditCapacity w) :
    (∀ worlds : ℕ → World, worlds 0 = w → (∀ n, (worlds n).Works (worlds (n + 1))) →
      ∃ n ≤ w.backlog, (worlds n).Rests ∧
        (worlds n).handled.length ≤ w.handled.length + w.backlog) ∧
    (∀ {σ : Type} (ask : σ → Processor → CreditRequest → Bool × σ) (answerer : σ),
      ((w.state.settleCredits ask answerer).1.credits.parked.requests = [] ∧
        (w.state.settleCredits ask answerer).1.credits.channel.queue = []) ∨
      ∃ request entry before,
        (w.state.settleCredits ask answerer).1.credits.parked.requests = [request] ∧
        w.state.index.get? request.subscriber = some entry ∧
        ask before entry.processor request = (false, (w.state.settleCredits ask answerer).2)) ∧
    (w.Rests → w.state.credits.channel.queue ≠ [] → ∃ request, w.Blocked request) ∧
    (w.Rests → ∀ w', w.Works w' → w'.state = w.state ∨
      ∃ request, w.Blocked request ∧ w.handled ++ [request] <+: w'.handled) ∧
    (∀ w', w.Works w' → w'.state.credits.parked.requests ≠ [] → ∃ request, w'.Blocked request) ∧
    (∀ request, w.state.credits.parked.requests = [request] →
      ∀ {σ : Type} (ask : σ → Processor → CreditRequest → Bool × σ) (answerer : σ),
        (w.state.index.get? request.subscriber = none → w.Resumes request ask answerer) ∧
        ∀ entry, w.state.index.get? request.subscriber = some entry →
          ((ask answerer entry.processor request).1 = true → w.Resumes request ask answerer) ∧
          ∀ message : Message, message.Ends request.subscriber entry →
            (w.tell message).Resumes request ask answerer) ∧
    (∀ request later, w.state.credits.parked.requests = [] →
      w.state.credits.channel.queue = request :: later →
      w.state.index.get? request.subscriber = none →
      ∀ {σ : Type} (ask : σ → Processor → CreditRequest → Bool × σ) (answerer : σ),
        (w.cycle ask answerer).handled = w.handled ++ [request] ∧
        (w.cycle ask answerer).state.credits.parked.requests = [] ∧
        (w.cycle ask answerer).state.credits.channel.queue = later) := by
  have hsingle := (inOrder_of_reachable h).single
  refine ⟨?_, ?_, ?_, fun rests w' => rests.works, ?_, ?_, ?_⟩
  · intro worlds start works
    obtain ⟨n, hn, hrests⟩ := rests_of_works h start works
    have hcount := (handled_of_works h start works n).2
    exact ⟨n, hn, hrests, by omega⟩
  · intro σ ask answerer
    refine (Credit.settle_ends (w.state.dispatch ask) hsingle answerer).imp_right ?_
    rintro ⟨request, hparked, before, hanswer⟩
    obtain ⟨entry, hentry, hrefused⟩ := State.dispatch_refused hanswer
    exact ⟨request, entry, before, hparked, hentry, hrefused⟩
  · rintro (⟨-, hempty⟩ | hblocked) hqueue
    · exact absurd hempty hqueue
    · exact hblocked
  · intro w' works hparked
    exact (works.ends hsingle).resolve_left fun ⟨hnone, _⟩ => hparked hnone
  · intro request hparked σ ask answerer
    refine ⟨fun unknown => resumes_of_done hparked (dispatch_unknown unknown), ?_⟩
    intro entry hentry
    refine ⟨fun accepted => resumes_of_done hparked (dispatch_accepted hentry accepted), ?_⟩
    intro message ends
    have hcredits : (w.tell message).state.credits = w.state.credits :=
      w.state.credits_handle message
    exact resumes_of_done (hcredits ▸ hparked) (dispatch_unknown (index_of_ends h hentry ends))
  · intro request later hparked hqueue hunknown σ ask answerer
    exact cycle_of_unknown hparked hqueue hunknown

open Sample in
theorem credits_come_to_rest_sample :
    (credited.cycle refuseAll ()).Blocked ⟨0, 3⟩ ∧
      ((credited.cycle refuseAll ()).tell (.unsubscribe ⟨0⟩ ⟨1⟩)).Resumes ⟨0, 3⟩ refuseAll () := by
  have hworks : credited.Works (credited.cycle refuseAll ()) := ⟨Unit, refuseAll, (), rfl⟩
  have hparked : (credited.cycle refuseAll ()).state.credits.parked.requests = [⟨0, 3⟩] := by
    decide +kernel
  have hentry : (credited.cycle refuseAll ()).state.index.get? ⟨0⟩ =
      some ⟨Sample.processor, subscription.connection⟩ := by decide +kernel
  obtain ⟨-, -, -, -, hblocks, -⟩ := credits_come_to_rest reachable_credited
  obtain ⟨-, -, -, -, -, hresumes, -⟩ :=
    credits_come_to_rest (reachable_credited.next (.cycle refuseAll ()))
  obtain ⟨request, hblocked⟩ := hblocks _ hworks (by rw [hparked]; exact List.cons_ne_nil _ _)
  have hrequest : request = ⟨0, 3⟩ :=
    List.head_eq_of_cons_eq (hblocked.parked.symm.trans hparked)
  exact ⟨hrequest ▸ hblocked, ((hresumes _ hparked refuseAll ()).2 _ hentry).2 _ (.inl ⟨⟨1⟩, rfl⟩)⟩

end World

end Manager

end JobBroker
