import JobBroker.Proofs.Run

/-!
# Attempts to hand out credits

Work on credits is a loop around whoever answers. What every answer keeps the whole loop keeps, and
of an answerer who keeps notes the loop sees no more than of one who does not, so that a run in
which attempts are written down is a run of the manager as it is.
-/

namespace JobBroker

namespace Credit

variable {σ τ : Type}

/-! ### What every answer keeps -/

section

variable {dispatch : σ → CreditRequest → Bool × σ} {P : σ → Prop}
  (keeps : ∀ s request, P s → P (dispatch s request).2)
include keeps

theorem retry_keeps (parked : Overflow) {s : σ} (before : P s) :
    P (retry dispatch parked s).answerer := by
  induction parked, s using retry.induct dispatch with
  | case1 parked s nonempty newest s' hanswer ih =>
    have hkept := keeps s (parked.elementAt (parked.size - 1) newest) before
    rw [hanswer] at hkept
    rw [retry_done nonempty newest hanswer]
    exact ih hkept
  | case2 parked s nonempty newest s' hanswer =>
    have hkept := keeps s (parked.elementAt (parked.size - 1) newest) before
    rw [hanswer] at hkept
    rw [retry_refused nonempty newest hanswer]
    exact hkept
  | case3 parked s empty =>
    rw [retry_empty empty]
    exact before

theorem consume_keeps (pipeline : Pipeline) {s : σ} (before : P s) :
    P (consume dispatch pipeline s).2 := by
  obtain ⟨⟨capacity, queue⟩, parked⟩ := pipeline
  cases queue with
  | nil => exact before
  | cons request queue =>
    have hkept := keeps s request before
    simp only [consume, Channel.drain, Channel.drainQueue, park]
    cases hanswer : dispatch s request with
    | mk done s' =>
      rw [hanswer] at hkept
      cases done <;> exact hkept

theorem cycle_keeps (pipeline : Pipeline) {s : σ} (before : P s) :
    P (cycle dispatch pipeline s).2 := by
  have hretried := retry_keeps keeps pipeline.parked before
  unfold cycle
  dsimp only
  split
  next => exact consume_keeps keeps _ hretried
  next => exact hretried

end

/-! ### Answerers who keep notes -/

section

variable {dispatch : σ → CreditRequest → Bool × σ} {noting : τ → CreditRequest → Bool × τ}
  {plain : τ → σ}
  (same : ∀ t request, dispatch (plain t) request =
    ((noting t request).1, plain (noting t request).2))
include same

theorem retry_noting (parked : Overflow) (t : τ) :
    retry dispatch parked (plain t) =
      ⟨(retry noting parked t).parked, plain (retry noting parked t).answerer⟩ := by
  induction parked, t using retry.induct noting with
  | case1 parked t nonempty newest t' hanswer ih =>
    have hplain := same t (parked.elementAt (parked.size - 1) newest)
    rw [hanswer] at hplain
    rw [retry_done nonempty newest hplain, retry_done nonempty newest hanswer]
    exact ih
  | case2 parked t nonempty newest t' hanswer =>
    have hplain := same t (parked.elementAt (parked.size - 1) newest)
    rw [hanswer] at hplain
    rw [retry_refused nonempty newest hplain, retry_refused nonempty newest hanswer]
  | case3 parked t empty => rw [retry_empty empty, retry_empty empty]

theorem consume_noting (pipeline : Pipeline) (t : τ) :
    consume dispatch pipeline (plain t) =
      ((consume noting pipeline t).1, plain (consume noting pipeline t).2) := by
  obtain ⟨⟨capacity, queue⟩, parked⟩ := pipeline
  cases queue with
  | nil => rfl
  | cons request queue =>
    simp only [consume, Channel.drain, Channel.drainQueue, park, same]
    cases noting t request with
    | mk done t' => cases done <;> rfl

theorem cycle_noting (pipeline : Pipeline) (t : τ) :
    cycle dispatch pipeline (plain t) =
      ((cycle noting pipeline t).1, plain (cycle noting pipeline t).2) := by
  unfold cycle
  rw [retry_noting same]
  generalize retry noting pipeline.parked t = retried
  have hdrained : (⟨retried.parked, plain retried.answerer⟩ : Retried σ).drained =
      retried.drained := rfl
  dsimp only
  rw [hdrained]
  split
  next => exact consume_noting same _ _
  next => rfl

end

end Credit

namespace Manager

variable {σ : Type}

theorem State.dispatch_attempt (s : State) (ask : σ → Processor → CreditRequest → Bool × σ)
    (held : σ × List Attempt) (request : CreditRequest) :
    s.dispatch ask held.1 request =
      ((s.attempt ask held request).1, (s.attempt ask held request).2.1) := by
  unfold attempt dispatch
  cases s.index.get? request.subscriber <;> rfl

/-- Every attempt goes to the processor that the index leads to. -/
def State.Routes (s : State) (attempts : List Attempt) : Prop :=
  ∀ attempt ∈ attempts, attempt.asked =
    (s.index.get? attempt.request.subscriber).map IndexEntry.processor

theorem State.routes_attempt (s : State) (ask : σ → Processor → CreditRequest → Bool × σ)
    (held : σ × List Attempt) (request : CreditRequest) (before : s.Routes held.2) :
    s.Routes (s.attempt ask held request).2.2 := by
  intro attempt hmem
  rcases List.mem_append.1 hmem with hold | hnew
  · exact before attempt hold
  · rw [List.mem_singleton.1 hnew]
    unfold dispatch
    cases hget : s.index.get? request.subscriber with
    | none => rfl
    | some entry => rfl

namespace World

variable (w : World) (ask : σ → Processor → CreditRequest → Bool × σ) (answerer : σ)

theorem state_cycle : (w.cycle ask answerer).state =
    { w.state with
      credits := (Credit.cycle (w.state.dispatch ask) w.state.credits answerer).1 } := by
  have hnoting := Credit.cycle_noting (w.state.dispatch_attempt ask) w.state.credits (answerer, [])
  rw [hnoting]
  rfl

end World

theorem State.routes_retry (s : State) (ask : σ → Processor → CreditRequest → Bool × σ)
    (parked : Credit.Overflow) (answerer : σ) :
    s.Routes (Credit.retry (s.attempt ask) parked (answerer, [])).answerer.2 :=
  Credit.retry_keeps (P := fun held : σ × List Attempt => s.Routes held.2) (s.routes_attempt ask)
    parked (List.forall_mem_nil _)

theorem State.routes_cycle (s : State) (ask : σ → Processor → CreditRequest → Bool × σ)
    (pipeline : Credit.Pipeline) (answerer : σ) :
    s.Routes (Credit.cycle (s.attempt ask) pipeline (answerer, [])).2.2 :=
  Credit.cycle_keeps (P := fun held : σ × List Attempt => s.Routes held.2) (s.routes_attempt ask)
    pipeline (List.forall_mem_nil _)

theorem Step.routes {w w' : World} (step : Step w w') :
    ∃ event turn, w' = w.happen event turn ∧ w.state.Routes event.attempts := by
  cases step with
  | tell message => exact ⟨.told message, _, rfl, List.forall_mem_nil _⟩
  | finish operation call held result =>
    exact ⟨.ended operation call result, _, rfl, List.forall_mem_nil _⟩
  | write request => exact ⟨.wrote request _, _, rfl, List.forall_mem_nil _⟩
  | retry ask answerer => exact ⟨_, _, rfl, w.state.routes_retry ask _ answerer⟩
  | cycle ask answerer => exact ⟨_, _, rfl, w.state.routes_cycle ask _ answerer⟩

/-- Work on credits until nothing moves is a run of cycles. -/
theorem reachable_settle {creditCapacity : Nat} (s : State)
    (ask : σ → Processor → CreditRequest → Bool × σ) (pipeline : Credit.Pipeline) (answerer : σ)
    {w : World} (h : Reachable creditCapacity w)
    (state : w.state = { s with credits := pipeline }) :
    ∃ w', Reachable creditCapacity w' ∧
      w'.state = { s with credits := (Credit.settle (s.dispatch ask) pipeline answerer).1 } := by
  -- the next world is the one after a cycle, whatever is done after that
  have hnext : ∀ {w : World} (pipeline : Credit.Pipeline) (answerer : σ),
      w.state = { s with credits := pipeline } → (w.cycle ask answerer).state =
        { s with credits := (Credit.cycle (s.dispatch ask) pipeline answerer).1 } := by
    intro w pipeline answerer state
    rw [World.state_cycle, state]
    rfl
  fun_induction Credit.settle (s.dispatch ask) pipeline answerer generalizing w
  case case1 pipeline answerer next moved ih =>
    exact ih (h.next (.cycle ask answerer)) (hnext pipeline answerer state)
  case case2 pipeline answerer next rests =>
    exact ⟨_, h.next (.cycle ask answerer), hnext pipeline answerer state⟩

theorem reachable_settleCredits {creditCapacity : Nat} {w : World}
    (h : Reachable creditCapacity w) (ask : σ → Processor → CreditRequest → Bool × σ)
    (answerer : σ) :
    ∃ w', Reachable creditCapacity w' ∧ w'.state = (w.state.settleCredits ask answerer).1 :=
  reachable_settle w.state ask w.state.credits answerer h rfl

end Manager

end JobBroker
