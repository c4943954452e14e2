import JobBroker.Proofs.CreditOrder

/-!
# Retries of parked credits

A retry tries the parked requests from the newest on. What is done with is taken out as it goes, and
it ends when nothing is parked any more or at the first request that a processor refuses, which
stays in the store with all that are older.
-/

namespace JobBroker

namespace Credit

/-! ### Only places in the store are asked for -/

namespace Overflow

variable {store : Overflow}

theorem elementAt?_of_lt {place : Nat} (inside : place < store.size) :
    store.elementAt? place = some (store.elementAt place inside) :=
  List.getElem?_eq_getElem _

theorem takeAt?_of_lt {place : Nat} (inside : place < store.size) :
    store.takeAt? place = some (store.elementAt place inside, store.removeAt place inside) :=
  dif_pos inside

theorem size_of_takeAt? {place : Nat} {request : CreditRequest} {rest : Overflow}
    (taken : store.takeAt? place = some (request, rest)) : rest.size < store.size := by
  unfold takeAt? at taken
  split at taken
  next inside =>
    cases taken
    rw [size_removeAt]
    omega
  next => cases taken

/-- A store is what is left of it without its newest request, and that request. -/
theorem requests_newest (newest : store.size - 1 < store.size) :
    store.requests = (store.removeAt (store.size - 1) newest).requests ++
      [store.elementAt (store.size - 1) newest] := by
  have hnonempty : store.requests ≠ [] := List.ne_nil_of_length_pos (Nat.zero_lt_of_lt newest)
  have hlast : store.elementAt (store.size - 1) newest = store.requests.getLast hnonempty :=
    (List.getLast_eq_getElem hnonempty).symm
  have hrest : (store.removeAt (store.size - 1) newest).requests = store.requests.dropLast :=
    List.eraseIdx_length_sub_one
  rw [hlast, hrest, List.dropLast_concat_getLast]

end Overflow

variable {σ : Type}

/-- A retry that looks its places up in the store and takes them out one by one, and comes to
nothing if it ever asks for a place that the store does not have. What it answers goes by how it
ended: `true` when nothing was left to try, `false` at a refusal. -/
def retryChecked (dispatch : σ → CreditRequest → Bool × σ) (parked : Overflow) (s : σ) :
    Option (Bool × Retried σ) :=
  if parked.size = 0 then some (true, ⟨parked, s⟩)
  else
    match parked.elementAt? (parked.size - 1) with
    | none => none
    | some request =>
      match dispatch s request with
      | (false, s) => some (false, ⟨parked, s⟩)
      | (true, s) =>
        match _taken : parked.takeAt? (parked.size - 1) with
        | none => none
        | some (_, rest) => retryChecked dispatch rest s
termination_by parked.size
decreasing_by exact Overflow.size_of_takeAt? _taken

theorem retryChecked_eq (dispatch : σ → CreditRequest → Bool × σ) (parked : Overflow) (s : σ) :
    retryChecked dispatch parked s =
      some ((retry dispatch parked s).drained, retry dispatch parked s) := by
  induction parked, s using retry.induct dispatch with
  | case1 parked s nonempty newest s' hanswer ih =>
    rw [retry_done nonempty newest hanswer, ← ih, retryChecked, if_neg (Nat.ne_of_gt nonempty),
      Overflow.elementAt?_of_lt newest]
    dsimp only
    rw [hanswer]
    dsimp only
    split
    next hnone =>
      rw [Overflow.takeAt?_of_lt newest] at hnone
      cases hnone
    next hsome =>
      rw [Overflow.takeAt?_of_lt newest] at hsome
      cases hsome
      rfl
  | case2 parked s nonempty newest s' hanswer =>
    have hparked : parked.isEmpty = false :=
      List.isEmpty_eq_false_iff.2 (List.ne_nil_of_length_pos nonempty)
    rw [retry_refused nonempty newest hanswer, retryChecked, if_neg (Nat.ne_of_gt nonempty),
      Overflow.elementAt?_of_lt newest]
    dsimp only
    rw [hanswer, Retried.drained, hparked]
  | case3 parked s empty =>
    have hnone : parked.requests = [] := List.length_eq_zero_iff.1 (Nat.eq_zero_of_not_pos empty)
    rw [retry_empty empty, retryChecked, if_pos (Nat.eq_zero_of_not_pos empty), Retried.drained,
      Overflow.isEmpty, hnone, List.isEmpty_nil]

end Credit

namespace Manager

variable {σ : Type} (s : State) (ask : σ → Processor → CreditRequest → Bool × σ)

/-! ### What is tried -/

/-- Attempts one after the other, each answered where the last answer has left the answerer: a
request whose subscription is not active is done with unasked, any other is up to the processor
that the index leads to. -/
inductive State.Answered : σ → List Attempt → σ → Prop where
  | nil (answerer : σ) : Answered answerer [] answerer
  | unknown {answerer last : σ} {request : CreditRequest} {attempts : List Attempt}
      (missing : s.index.get? request.subscriber = none)
      (rest : Answered answerer attempts last) :
      Answered answerer (⟨request, none, true⟩ :: attempts) last
  | asked {answerer next last : σ} {request : CreditRequest} {entry : IndexEntry} {done : Bool}
      {attempts : List Attempt} (found : s.index.get? request.subscriber = some entry)
      (answer : ask answerer entry.processor request = (done, next))
      (rest : Answered next attempts last) :
      Answered answerer (⟨request, some entry.processor, done⟩ :: attempts) last

/-- How a retry ends: everything that was parked is done with, or all that was newer than one
request is, and that one was refused. -/
inductive RetryEnd (parked left : Credit.Overflow) : List Attempt → Prop where
  | emptied {attempts : List Attempt}
      (all : attempts.map Attempt.request = parked.requests.reverse)
      (done : ∀ attempt ∈ attempts, attempt.done = true) (empty : left.requests = []) :
      RetryEnd parked left attempts
  | refused {attempts : List Attempt} {last : Attempt} {older newer : List CreditRequest}
      (parts : parked.requests = older ++ last.request :: newer)
      (tried : attempts.map Attempt.request = newer.reverse)
      (done : ∀ attempt ∈ attempts, attempt.done = true) (undone : last.done = false)
      (stays : left.requests = older ++ [last.request]) :
      RetryEnd parked left (attempts ++ [last])

variable {parked left : Credit.Overflow} {attempts : List Attempt}

/-- One more request that is done with, newer than all the others. -/
theorem RetryEnd.cons {rest : Credit.Overflow} (h : RetryEnd rest left attempts) {first : Attempt}
    (newest : parked.requests = rest.requests ++ [first.request]) (done : first.done = true) :
    RetryEnd parked left (first :: attempts) := by
  cases h with
  | emptied all hdone empty =>
    refine .emptied ?_ (List.forall_mem_cons.2 ⟨done, hdone⟩) empty
    rw [List.map_cons, all, newest, List.reverse_append, List.reverse_singleton,
      List.singleton_append]
  | @refused attempts last older newer parts tried hdone undone stays =>
    refine @RetryEnd.refused parked left (first :: attempts) last older
      (newer ++ [first.request]) ?_ ?_ (List.forall_mem_cons.2 ⟨done, hdone⟩) undone stays
    · rw [newest, parts, List.append_assoc, List.cons_append]
    · rw [List.map_cons, tried, List.reverse_append, List.reverse_singleton,
        List.singleton_append]

theorem RetryEnd.newestFirst (h : RetryEnd parked left attempts) :
    attempts.map Attempt.request <+: parked.requests.reverse := by
  cases h with
  | emptied all => exact all ▸ List.prefix_refl _
  | @refused attempts last older newer parts tried =>
    refine ⟨older.reverse, ?_⟩
    rw [List.map_append, tried, parts, List.reverse_append, List.reverse_cons]
    rfl

theorem doneWith_of_done (done : ∀ attempt ∈ attempts, attempt.done = true) :
    doneWith attempts = attempts.map Attempt.request := by
  rw [doneWith, List.filter_eq_self.2 done]

/-- What a retry leaves is what it has not taken out, all of which was newer. -/
theorem RetryEnd.parts (h : RetryEnd parked left attempts) :
    left.requests ++ (doneWith attempts).reverse = parked.requests := by
  cases h with
  | emptied all done empty =>
    rw [doneWith_of_done done, all, empty, List.reverse_reverse, List.nil_append]
  | @refused attempts last older newer parts tried done undone stays =>
    have hlast : doneWith [last] = [] := by rw [doneWith, List.filter_singleton, undone]; rfl
    rw [doneWith_append, doneWith_of_done done, tried, hlast, stays, parts, List.append_nil,
      List.reverse_reverse, List.append_assoc, List.singleton_append]

/-! ### One retry -/

/-- What one attempt adds to the notes, and to whatever is tried after it. -/
theorem State.attempt_answered {answerer next : σ} {log log' : List Attempt}
    {request : CreditRequest} {done : Bool}
    (answer : s.attempt ask (answerer, log) request = (done, next, log')) :
    ∃ attempt : Attempt, log' = log ++ [attempt] ∧ attempt.request = request ∧
      attempt.done = done ∧
      ∀ {attempts last}, s.Answered ask next attempts last →
        s.Answered ask answerer (attempt :: attempts) last := by
  unfold attempt dispatch at answer
  cases hget : s.index.get? request.subscriber with
  | none =>
    rw [hget] at answer
    cases answer
    exact ⟨_, rfl, rfl, rfl, .unknown hget⟩
  | some entry =>
    rw [hget] at answer
    cases answer
    exact ⟨_, rfl, rfl, rfl, .asked hget rfl⟩

/-- By induction on the store: below its newest request there is a shorter one, and the notes begin
with the attempt at the newest. -/
theorem State.retry_notes (parked : Credit.Overflow) (held : σ × List Attempt) :
    ∃ left attempts last,
      Credit.retry (s.attempt ask) parked held = ⟨left, last, held.2 ++ attempts⟩ ∧
      s.Answered ask held.1 attempts last ∧ RetryEnd parked left attempts := by
  induction parked, held using Credit.retry.induct (s.attempt ask) with
  | case1 parked held nonempty newest held' hanswer ih =>
    obtain ⟨attempt, hlog, hrequest, hdone, hanswered⟩ := s.attempt_answered ask hanswer
    obtain ⟨left, attempts, last, hretry, hrest, hdrained⟩ := ih
    have hnewest := Credit.Overflow.requests_newest newest
    rw [← hrequest] at hnewest
    refine ⟨left, attempt :: attempts, last, ?_, hanswered hrest, hdrained.cons hnewest hdone⟩
    rw [Credit.retry_done nonempty newest hanswer, hretry, hlog, List.append_assoc,
      List.singleton_append]
  | case2 parked held nonempty newest held' hanswer =>
    obtain ⟨attempt, hlog, hrequest, hdone, hanswered⟩ := s.attempt_answered ask hanswer
    have hnewest := Credit.Overflow.requests_newest newest
    rw [← hrequest] at hnewest
    refine ⟨parked, [attempt], held'.1, ?_, hanswered (.nil _), ?_⟩
    · rw [Credit.retry_refused nonempty newest hanswer, ← hlog]
    · exact @RetryEnd.refused parked parked [] attempt _ [] hnewest rfl (List.forall_mem_nil _)
        hdone hnewest
  | case3 parked held empty =>
    have hnone : parked.requests = [] := List.length_eq_zero_iff.1 (Nat.eq_zero_of_not_pos empty)
    refine ⟨parked, [], held.1, ?_, .nil _, .emptied ?_ (List.forall_mem_nil _) hnone⟩
    · rw [Credit.retry_empty empty, List.append_nil]
    · rw [hnone]
      rfl

/-- A retry tries the parked requests from the newest on, each at most once, and takes out those
whose subscription is not active and those that a processor takes, up to the first that is refused:
that one and all that are older stay where they are. It answers whether nothing is left, and asks
for no place outside the store. -/
theorem State.retry_drains (parked : Credit.Overflow) (answerer : σ) :
    ∃ drained left attempts last,
      Credit.retryChecked (s.dispatch ask) parked answerer = some (drained, ⟨left, last⟩) ∧
      Credit.retry (s.dispatch ask) parked answerer = ⟨left, last⟩ ∧
      Credit.retry (s.attempt ask) parked (answerer, []) = ⟨left, last, attempts⟩ ∧
      s.Answered ask answerer attempts last ∧
      RetryEnd parked left attempts ∧
      attempts.map Attempt.request <+: parked.requests.reverse ∧
      left.requests <+: parked.requests ∧
      left.requests ++ (doneWith attempts).reverse = parked.requests ∧
      (drained = true ↔ left.requests = []) := by
  obtain ⟨left, attempts, last, hnoted, hanswered, hdrained⟩ :=
    s.retry_notes ask parked (answerer, [])
  have hretry : Credit.retry (s.dispatch ask) parked answerer = ⟨left, last⟩ := by
    have hplain := Credit.retry_noting (s.dispatch_attempt ask) parked (answerer, [])
    rw [hnoted] at hplain
    exact hplain
  have hchecked := Credit.retryChecked_eq (s.dispatch ask) parked answerer
  rw [hretry] at hchecked
  exact ⟨_, left, attempts, last, hchecked, hretry, hnoted, hanswered, hdrained,
    hdrained.newestFirst, ⟨_, hdrained.parts⟩, hdrained.parts, List.isEmpty_iff⟩

end Manager

end JobBroker
