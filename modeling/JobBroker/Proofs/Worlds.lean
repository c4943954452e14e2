import JobBroker.Proofs.Messages

/-!
# Reachable worlds

Every moment of a run is posted to the ledger, and the ledger stays sound. With that go the calls:
what is noted is outstanding, and what is outstanding is noted.
-/

namespace JobBroker.Manager

open Holding Turn

namespace Moment

/-- The state that the turn of a moment goes on from: where a call has ended, what was noted of it
is in the hands of the turn. -/
def start (moment : Moment) : State :=
  match moment.event with
  | .ended operation _ _ =>
    { moment.before with continuations := moment.before.continuations.erase operation }
  | _ => moment.before

theorem nextOperation_start (moment : Moment) :
    moment.start.nextOperation = moment.before.nextOperation := by
  unfold start
  split <;> rfl

theorem continuations_start (moment : Moment) (operation : OperationId) :
    moment.start.continuations.get? operation =
      if moment.event.ended? = some operation then none
      else moment.before.continuations.get? operation := by
  obtain ⟨before, event, turn⟩ := moment
  cases event with
  | ended ended call result =>
    simp only [start, Event.ended?, Option.some.injEq, Table.get?_erase, eq_comm]
  | _ => rfl

end Moment

namespace World

def knowledge (w : World) : Knowledge where
  built processor := processor ∈ w.built
  assigned key subscription := (key, subscription) ∈ w.assigned
  accepted key processor := (key, processor) ∈ w.accepted
  event? := w.history.getLast?.map Moment.event

/-- What is true of every reachable world. -/
structure Consistent (w : World) : Prop where
  orderly : w.state.Orderly
  awaits : ∀ call ∈ w.outstanding, w.state.Awaits call.1 call.2
  noted : ∀ operation continuation, w.state.continuations.get? operation = some continuation →
    ∃ call, (operation, call) ∈ w.outstanding
  numbers : ∀ call ∈ w.calls, call.1.val < w.state.nextOperation
  ended : ∀ operation ∈ w.endings, operation.val < w.state.nextOperation
  sound : (w.state.ledger 0).Sound w.knowledge
  built : ∀ processor ∈ w.built, processor.id.val < w.state.nextProcessor
  distinct : ∀ processor other, processor ∈ w.built → other ∈ w.built →
    processor.id = other.id → processor = other
  assigned : ∀ entry ∈ w.assigned, entry.1.val < w.state.nextKey
  unique : ∀ entry ∈ w.assigned, ∀ other ∈ w.assigned, entry.1 = other.1 → entry = other

/-- The next world comes about by a moment that is posted to the ledger. -/
structure Posted (w : World) (moment : Moment) (w' : World) : Prop where
  before : moment.before = w.state
  after : w' = w.happen moment.event moment.turn
  told : ∀ message, moment.event = .told message → moment.turn = w.state.handle message
  ended : ∀ operation call result, moment.event = .ended operation call result →
    (operation, call) ∈ w.outstanding
  notes : moment.turn.Notes moment.start
  moves : Moves w'.knowledge (w.state.ledger (owed moment.event.reply?)) moment.signs
    moment.turn.settled (w'.state.ledger 0)

/-! ### What a moment adds -/

theorem filterMap_snoc {α β : Type} (f : α → Option β) (items : List α) (item : α) :
    (items ++ [item]).filterMap f = items.filterMap f ++ (f item).toList := by
  rw [List.filterMap_append, List.filterMap_cons, List.filterMap_nil]
  cases f item <;> rfl

section

variable (w : World) (event : Event) (turn : Turn)

theorem calls_happen : (w.happen event turn).calls = w.calls ++ callsOf turn.effects := by
  simp only [calls, happen, List.flatMap_append, List.flatMap_singleton]

theorem signs_happen :
    (w.happen event turn).signs = w.signs ++ (Moment.mk w.state event turn).signs := by
  simp only [signs, happen, List.flatMap_append, List.flatMap_singleton]

theorem settlements_happen : (w.happen event turn).settlements = w.settlements ++ turn.settled := by
  simp only [settlements, happen, List.flatMap_append, List.flatMap_singleton]
  rfl

theorem endings_happen : (w.happen event turn).endings = w.endings ++ event.ended?.toList := by
  rw [endings, happen, filterMap_snoc]
  rfl

theorem requests_happen : (w.happen event turn).requests = w.requests ++ event.reply?.toList := by
  rw [requests, happen, filterMap_snoc]
  rfl

theorem built_happen :
    (w.happen event turn).built = w.built ++ (Moment.mk w.state event turn).built?.toList := by
  rw [built, happen, filterMap_snoc]
  rfl

theorem assigned_happen :
    (w.happen event turn).assigned =
      w.assigned ++ (Moment.mk w.state event turn).assigned?.toList := by
  rw [assigned, happen, filterMap_snoc]
  rfl

theorem accepted_happen :
    (w.happen event turn).accepted =
      w.accepted ++ (Moment.mk w.state event turn).accepted?.toList := by
  rw [accepted, happen, filterMap_snoc]
  rfl

theorem covers_happen :
    (w.happen event turn).knowledge.Covers ⟨w.state, event, turn⟩ where
  built processor h := by
    show processor ∈ (w.happen event turn).built
    rw [built_happen, h]
    exact List.mem_append_right _ (List.mem_singleton_self _)
  assigned key subscription h := by
    show (key, subscription) ∈ (w.happen event turn).assigned
    rw [assigned_happen, h]
    exact List.mem_append_right _ (List.mem_singleton_self _)
  accepted key processor h := by
    show (key, processor) ∈ (w.happen event turn).accepted
    rw [accepted_happen, h]
    exact List.mem_append_right _ (List.mem_singleton_self _)
  event := by
    rw [knowledge, happen, List.getLast?_concat]
    rfl

end

variable {w w' : World} {moment : Moment}

/-! ### Every step is posted -/

theorem built?_id {processor : Processor} (h : moment.built? = some processor) :
    processor.id = ⟨moment.before.nextProcessor⟩ := by
  unfold Moment.built? at h
  split at h
  next => rw [← Option.some.inj h]
  next => cases h

theorem Consistent.distinct_happen (h : w.Consistent) (event : Event) (turn : Turn) :
    (w.happen event turn).knowledge.Distinct := by
  have hnew : ∀ processor ∈ w.built, ∀ other,
      (Moment.mk w.state event turn).built? = some other → processor.id ≠ other.id := by
    intro processor hold other hother heq
    have hlt := h.built processor hold
    rw [heq, built?_id hother] at hlt
    exact Nat.lt_irrefl _ hlt
  intro processor other hp ho heq
  change processor ∈ (w.happen event turn).built at hp
  change other ∈ (w.happen event turn).built at ho
  rw [built_happen, List.mem_append, Option.mem_toList] at hp ho
  rcases hp with hp | hp <;> rcases ho with ho | ho
  · exact h.distinct processor other hp ho heq
  · exact absurd heq (hnew processor hp other ho)
  · exact absurd heq.symm (hnew other ho processor hp)
  · exact Option.some.inj (hp.symm.trans ho)

theorem Consistent.sound_happen (h : w.Consistent) (event : Event) (turn : Turn) :
    (w.state.ledger 0).Sound (w.happen event turn).knowledge := by
  refine h.sound.mono ?_ ?_ ?_
  · intro processor hold
    show processor ∈ (w.happen event turn).built
    rw [built_happen]
    exact List.mem_append_left _ hold
  · intro key subscription hold
    show (key, subscription) ∈ (w.happen event turn).assigned
    rw [assigned_happen]
    exact List.mem_append_left _ hold
  · intro key processor hold
    show (key, processor) ∈ (w.happen event turn).accepted
    rw [accepted_happen]
    exact List.mem_append_left _ hold

theorem posted_credits (h : w.Consistent) {event : Event} (credits : Credit.Pipeline)
    (untold : ∀ message, event ≠ .told message) (silent : event.signs = [])
    (unasked : event.reply? = none)
    (unended : ∀ operation call result, event ≠ .ended operation call result)
    (start : (Moment.mk w.state event { w.state with credits := credits }.rest).start = w.state) :
    w.Posted ⟨w.state, event, { w.state with credits := credits }.rest⟩
      (w.happen event { w.state with credits := credits }.rest) where
  before := rfl
  after := rfl
  told message hevent := absurd hevent (untold message)
  ended operation call result hevent := absurd hevent (unended operation call result)
  notes := by
    rw [start]
    have horderly := h.orderly
    exact .quiet ⟨horderly.fresh, horderly.placed, horderly.referred, horderly.retired,
      horderly.keyed⟩ rfl rfl rfl
  moves := by
    rw [Moment.signs, silent, unasked]
    exact .rest _

theorem posted_of_step (h : w.Consistent) (step : Step w w') : ∃ moment, w.Posted moment w' := by
  cases step with
  | tell message client =>
    let turn := w.state.handle message
    have hsound := h.sound_happen (.told message) turn
    have howed : (w.state.ledger (owed message.reply?)).Sound
        (w.happen (.told message) turn).knowledge := by
      cases message.reply? with
      | none => exact hsound
      | some reply =>
        rw [owed, State.ledger_hand]
        exact hsound.owe reply
    have hposts := State.posts_handle h.orderly client howed (covers_happen w _ _)
    refine ⟨⟨w.state, .told message, turn⟩, rfl, rfl, ?_, ?_, hposts.notes, hposts.moves⟩
    · intro other hother
      cases hother
      rfl
    · intro operation call result hevent
      cases hevent
  | finish operation call held result =>
    obtain ⟨continuation, hnoted, hfits⟩ := h.awaits _ held
    let event := Event.ended operation call result
    let turn := w.state.handle (.resume operation (call.outcome result))
    have hposts := State.posts_resume h.orderly (h.distinct_happen event turn) hnoted hfits result
      (h.sound_happen event turn) (covers_happen w _ _)
    have hledger := State.ledger_erase_continuation hnoted 0
    rw [add_zero] at hledger
    refine ⟨⟨w.state, event, turn⟩, rfl, rfl, ?_, ?_, hposts.notes, ?_⟩
    · intro message hevent
      cases hevent
    · intro other call' result' hevent
      cases hevent
      exact held
    · have hmoves := hposts.moves
      rw [hledger] at hmoves
      exact hmoves
  | write request =>
    exact ⟨_, posted_credits h _ (fun _ h => Event.noConfusion h) rfl rfl
      (fun _ _ _ h => Event.noConfusion h) rfl⟩
  | retry ask answerer =>
    exact ⟨_, posted_credits h _ (fun _ h => Event.noConfusion h) rfl rfl
      (fun _ _ _ h => Event.noConfusion h) rfl⟩
  | cycle ask answerer =>
    exact ⟨_, posted_credits h _ (fun _ h => Event.noConfusion h) rfl rfl
      (fun _ _ _ h => Event.noConfusion h) rfl⟩

/-! ### What a step keeps -/

theorem nextKey_subscribe {s : State} {subscription : JobSubscription} {reply : Ticket}
    (h : s.buckets.contains subscription.partition = true) :
    (s.subscribe subscription reply).state.nextKey = s.nextKey + 1 := by
  obtain ⟨bucket, hbucket⟩ := Option.isSome_iff_exists.1 h
  unfold State.subscribe
  rw [hbucket]
  dsimp only
  split
  next => rfl
  next =>
    split
    next => rfl
    next =>
      split
      next => rfl
      next =>
        unfold State.startBuild
        split <;> rfl

theorem mem_outstanding {call : OperationId × Call} :
    call ∈ w.outstanding ↔ call ∈ w.calls ∧ call.1 ∉ w.endings := by
  simp only [outstanding, List.mem_filter, decide_eq_true_eq]

theorem Consistent.outstanding (h : w.Consistent) {operation : OperationId}
    {continuation : Continuation}
    (found : w.state.continuations.get? operation = some continuation) :
    ∃ call, (operation, call) ∈ w.outstanding ∧ continuation.Fits call := by
  obtain ⟨call, hcall⟩ := h.noted operation continuation found
  obtain ⟨noted, hnoted, hfits⟩ := h.awaits _ hcall
  rw [found] at hnoted
  cases hnoted
  exact ⟨call, hcall, hfits⟩

namespace Posted

theorem state (posted : w.Posted moment w') : w'.state = moment.turn.state := by
  rw [posted.after]
  rfl

theorem moment_eq (posted : w.Posted moment w') :
    Moment.mk w.state moment.event moment.turn = moment := by rw [← posted.before]

theorem history (posted : w.Posted moment w') : w'.history = w.history ++ [moment] := by
  rw [posted.after, happen, posted.moment_eq]

theorem calls (posted : w.Posted moment w') :
    w'.calls = w.calls ++ callsOf moment.turn.effects := by rw [posted.after, calls_happen]

theorem endings (posted : w.Posted moment w') :
    w'.endings = w.endings ++ moment.event.ended?.toList := by rw [posted.after, endings_happen]

theorem signs (posted : w.Posted moment w') : w'.signs = w.signs ++ moment.signs := by
  rw [posted.after, signs_happen, posted.moment_eq]

theorem built (posted : w.Posted moment w') : w'.built = w.built ++ moment.built?.toList := by
  rw [posted.after, built_happen, posted.moment_eq]

theorem assigned (posted : w.Posted moment w') :
    w'.assigned = w.assigned ++ moment.assigned?.toList := by
  rw [posted.after, assigned_happen, posted.moment_eq]

theorem accepted (posted : w.Posted moment w') :
    w'.accepted = w.accepted ++ moment.accepted?.toList := by
  rw [posted.after, accepted_happen, posted.moment_eq]

theorem nextOperation_le (posted : w.Posted moment w') :
    w.state.nextOperation ≤ w'.state.nextOperation := by
  have hlater := posted.notes.later
  rw [Moment.nextOperation_start, posted.before] at hlater
  rw [posted.state]
  exact hlater

theorem ended_lt (h : w.Consistent) (posted : w.Posted moment w') {operation : OperationId}
    (hended : moment.event.ended? = some operation) : operation.val < w.state.nextOperation := by
  obtain ⟨before, event, turn⟩ := moment
  cases event with
  | ended other call result =>
    cases hended
    exact h.numbers _ (mem_outstanding.1 (posted.ended _ call result rfl)).1
  | _ => cases hended

theorem stays (posted : w.Posted moment w') {call : OperationId × Call}
    (held : call ∈ w.outstanding) (going : moment.event.ended? ≠ some call.1) :
    call ∈ w'.outstanding := by
  obtain ⟨hmade, hopen⟩ := mem_outstanding.1 held
  refine mem_outstanding.2 ⟨?_, ?_⟩
  · rw [posted.calls]
    exact List.mem_append_left _ hmade
  · rw [posted.endings, List.mem_append, not_or, Option.mem_toList]
    exact ⟨hopen, going⟩

theorem awaits (h : w.Consistent) (posted : w.Posted moment w') :
    ∀ call ∈ w'.outstanding, w'.state.Awaits call.1 call.2 := by
  intro call hcall
  obtain ⟨hmade, hopen⟩ := mem_outstanding.1 hcall
  rw [posted.endings, List.mem_append, not_or, Option.mem_toList] at hopen
  rw [posted.calls, List.mem_append] at hmade
  rw [posted.state]
  rcases hmade with hmade | hmade
  · obtain ⟨continuation, hget, hfits⟩ := h.awaits call (mem_outstanding.2 ⟨hmade, hopen.1⟩)
    refine posted.notes.kept call.1 call.2 ⟨continuation, ?_, hfits⟩
    rw [Moment.continuations_start, if_neg hopen.2, posted.before, hget]
  · exact posted.notes.held call hmade

theorem issued (h : w.Consistent) (posted : w.Posted moment w') {call : OperationId × Call}
    (new : call ∈ callsOf moment.turn.effects) :
    call ∈ w'.outstanding ∧ w.state.nextOperation ≤ call.1.val := by
  have hnumber := (posted.notes.numbers call new).1
  rw [Moment.nextOperation_start, posted.before] at hnumber
  refine ⟨mem_outstanding.2 ⟨?_, ?_⟩, hnumber⟩
  · rw [posted.calls]
    exact List.mem_append_right _ new
  · -- the number is new, and only old ones have ended
    rw [posted.endings, List.mem_append, Option.mem_toList]
    rintro (hended | hended)
    · exact absurd (h.ended _ hended) (Nat.not_lt.2 hnumber)
    · exact absurd (posted.ended_lt h hended) (Nat.not_lt.2 hnumber)

theorem noted (h : w.Consistent) (posted : w.Posted moment w') {operation : OperationId}
    {continuation : Continuation}
    (hget : w'.state.continuations.get? operation = some continuation) :
    ∃ call, (operation, call) ∈ w'.outstanding := by
  rw [posted.state] at hget
  rcases posted.notes.noted operation continuation hget with hold | hnew
  · obtain ⟨old, hold⟩ := Option.isSome_iff_exists.1 hold
    rw [Moment.continuations_start] at hold
    split at hold
    next => cases hold
    next hopen =>
      rw [posted.before] at hold
      obtain ⟨call, hcall⟩ := h.noted operation old hold
      exact ⟨call, posted.stays hcall hopen⟩
  · obtain ⟨call, hcall, rfl⟩ := List.mem_map.1 hnew
    exact ⟨call.2, (posted.issued h hcall).1⟩

/-- The ledger that the turn begins with is sound for who knows what the moment makes known. -/
theorem sound_before (h : w.Consistent) (posted : w.Posted moment w') :
    (w.state.ledger (owed moment.event.reply?)).Sound w'.knowledge := by
  have hsound := h.sound_happen moment.event moment.turn
  rw [← posted.after] at hsound
  cases moment.event.reply? with
  | none => exact hsound
  | some reply =>
    rw [owed, State.ledger_hand]
    exact hsound.owe reply

theorem sound (h : w.Consistent) (posted : w.Posted moment w') :
    (w'.state.ledger 0).Sound w'.knowledge :=
  posted.moves.keep (fun move => move.sound) (posted.sound_before h)

theorem nextProcessor_eq (posted : w.Posted moment w') :
    w'.state.nextProcessor = w.state.nextProcessor + moment.signs.countP Sign.isBuilt :=
  posted.moves.nextProcessor

theorem nextKey_le (posted : w.Posted moment w') : w.state.nextKey ≤ w'.state.nextKey :=
  posted.moves.nextKey_le

theorem built_lt (posted : w.Posted moment w') {processor : Processor}
    (new : moment.built? = some processor) :
    processor.id.val < w'.state.nextProcessor := by
  have hsign : 0 < moment.signs.countP Sign.isBuilt := by
    unfold Moment.built? at new
    split at new
    next operation unit runner hevent =>
      rw [Moment.signs, hevent]
      exact List.countP_pos_iff.2 ⟨.built unit, List.mem_cons_self .., rfl⟩
    next => cases new
  rw [built?_id new, posted.before, posted.nextProcessor_eq]
  exact Nat.lt_add_of_pos_right hsign

theorem assigned_lt (posted : w.Posted moment w') {entry : SubscriberKey × JobSubscription}
    (new : moment.assigned? = some entry) :
    entry.1.val = w.state.nextKey ∧ entry.1.val < w'.state.nextKey := by
  unfold Moment.assigned? at new
  split at new
  next subscription reply hevent =>
    split at new
    next hcontains =>
      rw [← Option.some.inj new, posted.state, posted.told _ hevent]
      rw [posted.before] at hcontains ⊢
      refine ⟨rfl, ?_⟩
      rw [State.handle, nextKey_subscribe hcontains]
      exact Nat.lt_succ_self _
    next => cases new
  next => cases new

theorem consistent (h : w.Consistent) (posted : w.Posted moment w') : w'.Consistent where
  orderly := by
    rw [posted.state]
    exact posted.notes.orderly
  awaits := posted.awaits h
  noted _ _ := posted.noted h
  numbers call hcall := by
    rw [posted.calls, List.mem_append] at hcall
    rcases hcall with hcall | hcall
    · exact Nat.lt_of_lt_of_le (h.numbers call hcall) posted.nextOperation_le
    · rw [posted.state]
      exact (posted.notes.numbers call hcall).2
  ended operation hended := by
    have hle := posted.nextOperation_le
    rw [posted.endings, List.mem_append, Option.mem_toList] at hended
    rcases hended with hended | hended
    · exact Nat.lt_of_lt_of_le (h.ended operation hended) hle
    · exact Nat.lt_of_lt_of_le (posted.ended_lt h hended) hle
  sound := posted.sound h
  built processor hmem := by
    rw [posted.built, List.mem_append, Option.mem_toList] at hmem
    rcases hmem with hmem | hmem
    · rw [posted.nextProcessor_eq]
      exact Nat.lt_of_lt_of_le (h.built processor hmem) (Nat.le_add_right ..)
    · exact posted.built_lt hmem
  distinct := by
    have hdistinct := h.distinct_happen moment.event moment.turn
    rw [← posted.after] at hdistinct
    exact hdistinct
  assigned entry hmem := by
    rw [posted.assigned, List.mem_append, Option.mem_toList] at hmem
    rcases hmem with hmem | hmem
    · exact Nat.lt_of_lt_of_le (h.assigned entry hmem) posted.nextKey_le
    · exact (posted.assigned_lt hmem).2
  unique entry hentry other hother heq := by
    have hnew : ∀ old ∈ w.assigned, ∀ new, moment.assigned? = some new → old.1 ≠ new.1 := by
      intro old hold new hnew hsame
      have hlt := h.assigned old hold
      rw [hsame, (posted.assigned_lt hnew).1] at hlt
      exact Nat.lt_irrefl _ hlt
    rw [posted.assigned, List.mem_append, Option.mem_toList] at hentry hother
    rcases hentry with hentry | hentry <;> rcases hother with hother | hother
    · exact h.unique entry hentry other hother heq
    · exact absurd heq (hnew entry hentry other hother)
    · exact absurd heq.symm (hnew other hother entry hentry)
    · exact Option.some.inj (hentry.symm.trans hother)

end Posted

theorem holdings_initial (creditCapacity : Nat) :
    ((State.initial creditCapacity).ledger 0).holdings = 0 := rfl

theorem count_initial {α : Type} [DecidableEq α] (creditCapacity : Nat) (role : Holding → Option α)
    (a : α) : ((State.initial creditCapacity).ledger 0).count role a = 0 := by
  rw [Ledger.count, holdings_initial, Multiset.countP_zero]

theorem sound_initial (creditCapacity : Nat) (k : Knowledge) :
    ((State.initial creditCapacity).ledger 0).Sound k where
  proper thing held := absurd held (Multiset.notMem_zero thing)
  keys key := by
    rw [count_initial]
    exact Nat.zero_le _
  units key := by
    rw [count_initial, count_initial, count_initial]
    exact Nat.zero_le _
  retired key := (count_initial creditCapacity stopping? key).symm
  awaited key := count_initial creditCapacity building? key
  referred id := (count_initial creditCapacity reference? id).symm
  routed key entry held := absurd held (Multiset.notMem_zero _)

theorem consistent_initial (creditCapacity : Nat) : (initial creditCapacity).Consistent where
  orderly := by
    constructor <;> intro _ _ hget <;> cases hget
  awaits call hcall := by cases hcall
  noted operation continuation hget := by cases hget
  numbers call hcall := by cases hcall
  ended operation hended := by cases hended
  sound := sound_initial creditCapacity _
  built processor hmem := by cases hmem
  distinct processor other hmem := by cases hmem
  assigned entry hmem := by cases hmem
  unique entry hmem := by cases hmem

theorem consistent_of_reachable {creditCapacity : Nat} (h : Reachable creditCapacity w) :
    w.Consistent := by
  induction h with
  | start => exact consistent_initial creditCapacity
  | next _ step ih =>
    obtain ⟨moment, hposted⟩ := posted_of_step ih step
    exact hposted.consistent ih

/-! ### Calls by their numbers -/

theorem calls_nodup {creditCapacity : Nat} (h : Reachable creditCapacity w) :
    (w.calls.map Prod.fst).Nodup := by
  induction h with
  | start => exact List.nodup_nil
  | @next w w' reached step ih =>
    have hconsistent := consistent_of_reachable reached
    obtain ⟨moment, hposted⟩ := posted_of_step hconsistent step
    rw [hposted.calls, List.map_append]
    refine List.nodup_append.2 ⟨ih, hposted.notes.distinct, ?_⟩
    intro old hold new hnew heq
    obtain ⟨early, hearly, rfl⟩ := List.mem_map.1 hold
    obtain ⟨late, hlate, rfl⟩ := List.mem_map.1 hnew
    have hnumber := (hposted.notes.numbers late hlate).1
    rw [Moment.nextOperation_start, hposted.before, ← heq] at hnumber
    exact absurd (hconsistent.numbers early hearly) (Nat.not_lt.2 hnumber)

/-- Calls are numbered in the order in which they are made. -/
theorem calls_numbered {creditCapacity : Nat} (h : Reachable creditCapacity w) :
    w.calls.map (fun call => call.1.val) = List.range w.state.nextOperation := by
  induction h with
  | start => rfl
  | @next w w' reached step ih =>
    obtain ⟨moment, hposted⟩ := posted_of_step (consistent_of_reachable reached) step
    have hlater := hposted.nextOperation_le
    have hnumbered := hposted.notes.numbered
    rw [Moment.nextOperation_start, hposted.before, ← hposted.state] at hnumbered
    have hjoin : ∀ m n, List.range' 0 m ++ List.range' (0 + m) n = List.range' 0 (m + n) :=
      fun _ _ => List.range'_append_1
    simp only [Nat.zero_add] at hjoin
    rw [hposted.calls, List.map_append, ih, hnumbered, List.range_eq_range', hjoin,
      Nat.add_sub_cancel' hlater, List.range_eq_range']

/-- What is noted is noted of the calls that have not ended. -/
theorem noted_perm {creditCapacity : Nat} (h : Reachable creditCapacity w) :
    w.state.continuations.keys.Perm (w.outstanding.map Prod.fst) := by
  have hconsistent := consistent_of_reachable h
  have hmade : ((w.outstanding).map Prod.fst).Nodup :=
    (calls_nodup h).sublist (List.filter_sublist.map Prod.fst)
  refine (List.perm_ext_iff_of_nodup w.state.continuations.distinct hmade).2 fun operation => ?_
  rw [← Table.keys, ← Table.contains_iff, Table.contains, Option.isSome_iff_exists]
  constructor
  · rintro ⟨continuation, hget⟩
    obtain ⟨call, hcall⟩ := hconsistent.noted operation continuation hget
    exact List.mem_map_of_mem hcall
  · intro hmem
    obtain ⟨call, hcall, rfl⟩ := List.mem_map.1 hmem
    obtain ⟨continuation, hget, -⟩ := hconsistent.awaits call hcall
    exact ⟨continuation, hget⟩

theorem call_unique {creditCapacity : Nat} (h : Reachable creditCapacity w)
    {operation : OperationId} {call call' : Call}
    (made : (operation, call) ∈ w.outstanding) (made' : (operation, call') ∈ w.outstanding) :
    call' = call :=
  congrArg Prod.snd (List.inj_on_of_nodup_map (calls_nodup h) (mem_outstanding.1 made').1
    (mem_outstanding.1 made).1 rfl)

end World

/-! ### One run -/

namespace Sample

open World

def unit : ActivationUnit := ⟨⟨⟨1⟩, "log"⟩, "broker", ⟨[106]⟩⟩

def processor : Processor := ⟨⟨0⟩, unit, ⟨7⟩⟩

def subscription : JobSubscription := { partition := ⟨1⟩, jobType := ⟨[106]⟩, connection := ⟨5⟩ }

def building : World :=
  ((initial 2).tell (.addPartition unit.partition unit.service)).tell
    (.subscribe subscription ⟨0⟩)

def adding : World := building.finish ⟨0⟩ (.build unit) (.ok ⟨7⟩)

def active : World :=
  adding.finish ⟨1⟩ (.add processor { subscription with key := some ⟨0⟩ }) (.ok ())

def credited : World := active.write ⟨0, 3⟩

def removing : World := active.tell (.unsubscribe ⟨0⟩ ⟨1⟩)

def retired : World := removing.finish ⟨2⟩ (.remove processor ⟨0⟩) (.ok false)

/-- Another subscription waits until the unit has stopped. -/
def deferred : World := retired.tell (.subscribe subscription ⟨2⟩)

def restarted : World := deferred.finish ⟨3⟩ (.teardown processor) (.ok ())

def rested : World := restarted.finish ⟨4⟩ (.build unit) (.error "no such job")

theorem reachable_building : Reachable 2 building :=
  (Reachable.start.next (.tell _ rfl)).next (.tell _ rfl)

theorem reachable_adding : Reachable 2 adding :=
  reachable_building.next (.finish _ _ (by decide +kernel) _)

theorem reachable_active : Reachable 2 active :=
  reachable_adding.next (.finish _ _ (by decide +kernel) _)

theorem reachable_credited : Reachable 2 credited := reachable_active.next (.write _)

theorem reachable_removing : Reachable 2 removing := reachable_active.next (.tell _ rfl)

theorem step_retired : Step removing retired := .finish _ _ (by decide +kernel) _

theorem reachable_deferred : Reachable 2 deferred :=
  (reachable_removing.next step_retired).next (.tell _ rfl)

theorem reachable_restarted : Reachable 2 restarted :=
  reachable_deferred.next (.finish _ _ (by decide +kernel) _)

theorem reachable_rested : Reachable 2 rested :=
  reachable_restarted.next (.finish _ _ (by decide +kernel) _)

end Sample

end JobBroker.Manager
