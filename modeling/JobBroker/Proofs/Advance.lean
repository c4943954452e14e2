import JobBroker.Proofs.Promises
import JobBroker.Proofs.Standing
import JobBroker.Proofs.Waiting

/-!
# Subscriptions advance

The keys are given out one after the other, and each is always in one place: it waits, is on its
way, is active, or is gone, and only ever goes on in that order. Its future is told the key when it
becomes active, an error when it is gone before that, and nothing else.
-/

namespace JobBroker.Manager

open Holding Table

namespace Holding

/-- The promise that a thing stands for. -/
def promise? : Holding → Option Promise
  | waiting _ w => some w.promise
  | ongoing continuation => continuation.promise?
  | _ => none

theorem key?_of_promise? {thing : Holding} {promise : Promise}
    (h : thing.promise? = some promise) : thing.key? = some promise.1 := by
  cases thing with
  | waiting unit w =>
    cases h
    rfl
  | ongoing continuation =>
    cases continuation with
    | subscribe =>
      cases h
      rfl
    | _ => cases h
  | _ => cases h

theorem reply?_of_promise? {thing : Holding} {promise : Promise}
    (h : thing.promise? = some promise) : thing.reply? = some promise.2 := by
  cases thing with
  | waiting unit w =>
    cases h
    rfl
  | ongoing continuation =>
    cases continuation with
    | subscribe =>
      cases h
      rfl
    | _ => cases h
  | _ => cases h

theorem Leads.promise? {thing thing' : Holding} (h : thing.Leads thing') {promise : Promise}
    (h' : thing'.promise? = some promise) : thing.promise? = some promise := by
  cases h with
  | stay => exact h'
  | hand => exact h'
  | mark => exact h'
  | accept => cases h'
  | arrive => cases h'

end Holding

namespace State

variable {s : State} {k : Knowledge} {promise : Promise}

theorem owes_iff : s.Owes promise ↔
    ∃ thing ∈ (s.ledger 0).holdings, thing.promise? = some promise := by
  constructor
  · rintro (⟨unit, queue, hget, hmem⟩ | ⟨operation, continuation, hget, hpromise⟩)
    · obtain ⟨w, hw, rfl⟩ := List.mem_map.1 hmem
      exact ⟨waiting unit w, waiting_mem_ledger.2 (.inl ⟨queue, hget, hw⟩), rfl⟩
    · exact ⟨ongoing continuation, ongoing_mem_ledger.2 (.inl ⟨operation, hget⟩), hpromise⟩
  · rintro ⟨thing, held, hpromise⟩
    cases thing with
    | waiting unit w =>
      obtain ⟨queue, hget, hw⟩ :=
        (waiting_mem_ledger.1 held).resolve_right (Multiset.notMem_zero _)
      exact .inl ⟨unit, queue, hget, Option.some.inj hpromise ▸ List.mem_map_of_mem hw⟩
    | ongoing continuation =>
      obtain ⟨operation, hget⟩ :=
        (ongoing_mem_ledger.1 held).resolve_right (Multiset.notMem_zero _)
      exact .inr ⟨operation, continuation, hget, hpromise⟩
    | _ => cases hpromise

/-- A promise is owed as long as its key waits or is on its way. -/
theorem standing_of_owes (sound : (s.ledger 0).Sound k) (owed : s.Owes promise) :
    s.standing promise.1 = .waiting ∨ s.standing promise.1 = .adding := by
  obtain ⟨thing, held, hpromise⟩ := owes_iff.1 owed
  rw [standing_of_held sound held (key?_of_promise? hpromise)]
  cases thing with
  | waiting => exact .inl rfl
  | ongoing continuation =>
    cases continuation with
    | subscribe => exact .inr rfl
    | _ => cases hpromise
  | _ => cases hpromise

theorem owes_of_standing (sound : (s.ledger 0).Sound k) {key : SubscriberKey}
    (here : s.standing key = .waiting ∨ s.standing key = .adding) :
    ∃ reply, s.Owes (key, reply) := by
  have hassigned : s.standing key ≠ .unassigned := by rcases here with h | h <;> simp [h]
  have hstays : s.standing key ≠ .gone := by rcases here with h | h <;> simp [h]
  obtain ⟨thing, held, hnamed⟩ := held_of_standing sound hassigned hstays
  rw [standing_of_held sound held hnamed] at here
  cases thing with
  | waiting unit w =>
    cases hnamed
    exact ⟨w.reply, owes_iff.2 ⟨_, held, rfl⟩⟩
  | ongoing continuation =>
    cases continuation with
    | subscribe other connection processor reply closed =>
      cases hnamed
      exact ⟨reply, owes_iff.2 ⟨_, held, rfl⟩⟩
    | _ => cases hnamed
  | _ => simp [Holding.standing] at here

theorem owes_unique (sound : (s.ledger 0).Sound k) {key : SubscriberKey} {reply reply' : Ticket}
    (owed : s.Owes (key, reply)) (owed' : s.Owes (key, reply')) : reply = reply' := by
  obtain ⟨thing, held, hpromise⟩ := owes_iff.1 owed
  obtain ⟨thing', held', hpromise'⟩ := owes_iff.1 owed'
  have hnamed : thing.key? = some key := key?_of_promise? hpromise
  have hsame := sound.key_unique held hnamed held' (key?_of_promise? hpromise')
  rw [hsame, hpromise] at hpromise'
  exact congrArg Prod.snd (Option.some.inj hpromise')

/-- A subscription that is taken up is told nothing yet. -/
theorem settledOf_subscribe {subscription : JobSubscription} {reply : Ticket} {bucket : Bucket}
    (found : s.buckets.get? subscription.partition = some bucket) :
    settledOf (s.subscribe subscription reply).effects = [] := by
  unfold subscribe
  rw [found]
  dsimp only
  split
  next => rfl
  next =>
    split
    next => rfl
    next =>
      split
      next => rfl
      next =>
        unfold startBuild
        split
        next hnone =>
          -- the partition was just found
          rw [found] at hnone
          cases hnone
        next => rfl

end State

/-! ### The keys that are given out -/

section

open Ledger

variable {k : Knowledge} {b b' : Ledger} {signs : List Sign} {settled : List Ticket}

theorem Move.enters (h : Move k b signs settled b') (new : b.nextKey < b'.nextKey) :
    ∃ subscription, k.assigned ⟨b.nextKey⟩ subscription := by
  cases h
  case enter b w subscription key assigned same => exact ⟨subscription, key ▸ assigned⟩
  all_goals exact absurd new (Nat.lt_irrefl _)

theorem Moves.enters (h : Moves k b signs settled b') (new : b.nextKey < b'.nextKey) :
    ∃ subscription, k.assigned ⟨b.nextKey⟩ subscription := by
  induction h with
  | rest => exact absurd new (Nat.lt_irrefl _)
  | @next middle _ _ _ _ _ moves move ih =>
    by_cases hearly : b.nextKey < middle.nextKey
    · exact ih hearly
    · have hsame : b.nextKey = middle.nextKey :=
        Nat.le_antisymm moves.nextKey_le (Nat.le_of_not_lt hearly)
      rw [hsame] at new ⊢
      exact move.enters new

end

namespace World

/-- The keys that were given out, with the futures that are to tell them. -/
def promised (w : World) : List Promise := w.history.filterMap Moment.promised?

variable {w w' : World} {moment : Moment} {creditCapacity : Nat}

theorem Posted.promised (posted : w.Posted moment w') :
    w'.promised = w.promised ++ moment.promised?.toList := by
  rw [posted.after, World.promised, happen, filterMap_snoc, posted.moment_eq]
  rfl

theorem promised?_eq (moment : Moment) :
    moment.promised?.map Prod.fst = moment.assigned?.map Prod.fst := by
  obtain ⟨before, event, turn⟩ := moment
  cases event with
  | told message =>
    cases message with
    | subscribe subscription reply =>
      simp only [Moment.promised?, Moment.assigned?]
      split <;> rfl
    | _ => rfl
  | _ => rfl

/-- Every key is promised to a future when it is given out. -/
theorem promised_keys (w : World) : w.promised.map Prod.fst = w.assigned.map Prod.fst := by
  rw [promised, assigned, List.map_filterMap, List.map_filterMap]
  exact congrArg (fun f => w.history.filterMap f) (funext promised?_eq)

theorem reply?_of_promised? {promise : Promise} (h : moment.promised? = some promise) :
    moment.event.reply? = some promise.2 := by
  unfold Moment.promised? at h
  split at h
  next subscription reply hevent =>
    split at h
    next =>
      cases h
      rw [hevent]
      rfl
    next => cases h
  next => cases h

theorem sublist_filterMap {α β γ : Type} {f : α → Option β} {g : α → Option γ} {r : β → γ}
    (h : ∀ a b, f a = some b → g a = some (r b)) (items : List α) :
    ((items.filterMap f).map r).Sublist (items.filterMap g) := by
  induction items with
  | nil => exact List.Sublist.refl []
  | cons item items ih =>
    rw [List.filterMap_cons, List.filterMap_cons]
    cases hf : f item with
    | none =>
      cases g item with
      | none => exact ih
      | some other => exact ih.cons other
    | some value =>
      rw [h item value hf]
      exact ih.cons_cons (r value)

theorem promised_replies (w : World) : (w.promised.map Prod.snd).Sublist w.requests :=
  sublist_filterMap (fun _ _ => reply?_of_promised?) w.history

theorem Posted.nextKey_eq (h : w.Consistent) (posted : w.Posted moment w') :
    w'.state.nextKey = w.state.nextKey + moment.assigned?.toList.length := by
  cases hassigned : moment.assigned? with
  | none =>
    by_contra hmore
    have hlt : w.state.nextKey < w'.state.nextKey :=
      Nat.lt_of_le_of_ne posted.nextKey_le (Ne.symm hmore)
    obtain ⟨subscription, hnew⟩ := posted.moves.enters hlt
    change (_, subscription) ∈ w'.assigned at hnew
    rw [posted.assigned, hassigned, Option.toList_none, List.append_nil] at hnew
    exact absurd (h.assigned _ hnew) (Nat.lt_irrefl _)
  | some entry =>
    unfold Moment.assigned? at hassigned
    split at hassigned
    next subscription reply hevent =>
      split at hassigned
      next hcontains =>
        rw [posted.before] at hcontains
        rw [posted.state, posted.told _ hevent]
        exact nextKey_subscribe hcontains
      next => cases hassigned
    next => cases hassigned

/-- The keys are given out in order, and none is left out. -/
theorem assigned_keys (h : Reachable creditCapacity w) :
    (w.assigned.map fun entry => entry.1.val) = List.range w.state.nextKey := by
  induction h with
  | start => rfl
  | @next w w' reached step ih =>
    have hconsistent := consistent_of_reachable reached
    obtain ⟨moment, hposted⟩ := posted_of_step hconsistent step
    rw [hposted.nextKey_eq hconsistent, hposted.assigned, List.map_append, ih]
    cases hassigned : moment.assigned? with
    | none => simp
    | some entry =>
      rw [Option.toList_some, List.map_singleton, (hposted.assigned_lt hassigned).1,
        List.length_singleton, List.range_succ]

theorem promised_key_unique (h : Reachable creditCapacity w) {key : SubscriberKey}
    {reply reply' : Ticket} (first : (key, reply) ∈ w.promised)
    (second : (key, reply') ∈ w.promised) : reply = reply' := by
  have hkeys : ((w.promised.map Prod.fst).map SubscriberKey.val).Nodup := by
    rw [promised_keys, List.map_map]
    exact (assigned_keys h).symm ▸ List.nodup_range
  exact congrArg Prod.snd (List.inj_on_of_nodup_map hkeys.of_map first second rfl)

theorem promised_reply_unique (own : w.requests.Nodup) {key key' : SubscriberKey} {reply : Ticket}
    (first : (key, reply) ∈ w.promised) (second : (key', reply) ∈ w.promised) : key = key' :=
  congrArg Prod.fst (List.inj_on_of_nodup_map (own.sublist (promised_replies w)) first second rfl)

/-! ### What is promised is owed or told -/

theorem owed_of_promised (h : Reachable creditCapacity w) {promise : Promise}
    (promised : promise ∈ w.promised) : promise.2 ∈ w.settlements ∨ w.state.Owes promise := by
  induction h with
  | start => cases promised
  | @next w w' reached step ih =>
    have hconsistent := consistent_of_reachable reached
    obtain ⟨moment, hposted⟩ := posted_of_step hconsistent step
    rw [hposted.promised, List.mem_append] at promised
    rw [hposted.settlements, List.mem_append, hposted.state]
    have htold : ∀ result, (promise.2, result) ∈ settledOf moment.turn.effects →
        promise.2 ∈ moment.turn.settled := fun result hmem => List.mem_map_of_mem hmem
    have howed : promise.2 ∈ w.settlements ∨
        promise ∈ moment.promised?.toList ∨ moment.before.Owes promise := by
      rcases promised with hold | hnew
      · rw [hposted.before]
        exact (ih hold).imp id .inr
      · exact .inr (.inl hnew)
    rcases howed with hsettled | howed
    · exact .inl (.inl hsettled)
    rcases hposted.keeps hconsistent step with ⟨hnone, activated, hactivates⟩ | hanswers
    · rw [hnone] at howed
      rcases hactivates.others promise (howed.resolve_left List.not_mem_nil) with rfl | hstays
      · exact .inl (.inr (htold _ (hactivates.told ▸ List.mem_singleton_self _)))
      · exact .inr hstays
    · rcases hanswers.answered promise howed with hstays | ⟨error, herror⟩
      · exact .inr (hstays.resolve_left List.not_mem_nil)
      · exact .inl (.inr (htold _ herror))

/-- A subscription that was taken up in a moment is promised its key from then on. -/
theorem Posted.owes_new (h : w.Consistent) (posted : w.Posted moment w') (step : Step w w')
    {promise : Promise} (new : moment.promised? = some promise) :
    w'.state.Owes promise ∧ settledOf moment.turn.effects = [] := by
  have hsettled : settledOf moment.turn.effects = [] := by
    unfold Moment.promised? at new
    split at new
    next subscription reply hevent =>
      split at new
      next hcontains =>
        rw [posted.before] at hcontains
        obtain ⟨bucket, hbucket⟩ := Option.isSome_iff_exists.1 hcontains
        rw [posted.told _ hevent]
        exact State.settledOf_subscribe hbucket
      next => cases new
    next => cases new
  refine ⟨?_, hsettled⟩
  rcases posted.keeps h step with ⟨hnone, -⟩ | hanswers
  · rw [new] at hnone
    cases hnone
  · rw [posted.state]
    rcases hanswers.answered promise (.inl (Option.mem_toList.2 new)) with hstays | ⟨error, herror⟩
    · exact hstays.resolve_left List.not_mem_nil
    · rw [hsettled] at herror
      cases herror

theorem promised_of_owes (h : Reachable creditCapacity w) {promise : Promise}
    (owed : w.state.Owes promise) : promise ∈ w.promised := by
  induction h with
  | start =>
    obtain ⟨thing, held, -⟩ := State.owes_iff.1 owed
    exact absurd held (Multiset.notMem_zero _)
  | @next w w' reached step ih =>
    have hconsistent := consistent_of_reachable reached
    obtain ⟨moment, hposted⟩ := posted_of_step hconsistent step
    have hsound' := (hposted.consistent hconsistent).sound
    obtain ⟨thing', held', hpromise'⟩ := State.owes_iff.1 owed
    have hnamed := key?_of_promise? hpromise'
    rw [hposted.promised, List.mem_append]
    by_cases hold : promise.1.val < w.state.nextKey
    · obtain ⟨thing, held, hleads⟩ := hposted.leads held' hnamed hold
      exact .inl (ih (State.owes_iff.2 ⟨thing, held, hleads.promise? hpromise'⟩))
    · -- a key that is new was given to the subscription that was just taken up
      have hlt := hsound'.key_lt held' hnamed
      have hnext := hposted.nextKey_eq hconsistent
      change promise.1.val < w'.state.nextKey at hlt
      have hkeys := promised?_eq moment
      cases hassigned : moment.assigned? with
      | none =>
        rw [hassigned, Option.toList_none, List.length_nil] at hnext
        omega
      | some entry =>
        have hentry := (hposted.assigned_lt hassigned).1
        rw [hassigned, Option.toList_some, List.length_singleton] at hnext
        rw [hassigned] at hkeys
        obtain ⟨new, hnew, hfst⟩ := Option.map_eq_some_iff.1 hkeys
        have hkey : new.1 = promise.1 := by
          have hval : new.1.val = promise.1.val := by
            rw [hfst]
            omega
          rcases new with ⟨⟨_⟩, _⟩
          rcases promise with ⟨⟨_⟩, _⟩
          exact congrArg SubscriberKey.mk hval
        have howes := (hposted.owes_new hconsistent step hnew).1
        have hreply : new.2 = promise.2 := State.owes_unique hsound' (hkey ▸ howes) owed
        rw [hnew, show new = promise from Prod.ext hkey hreply]
        exact .inr (List.mem_singleton_self _)

/-! ### Futures -/

theorem count_settlements_le (h : Reachable creditCapacity w) (own : w.requests.Nodup)
    (reply : Ticket) :
    w.settlements.count reply + (w.state.ledger 0).count reply? reply ≤ 1 := by
  rw [replies_of_reachable h]
  exact List.nodup_iff_count_le_one.1 own reply

theorem not_settled_of_owes (h : Reachable creditCapacity w) (own : w.requests.Nodup)
    {promise : Promise} (owed : w.state.Owes promise) : promise.2 ∉ w.settlements := by
  obtain ⟨thing, held, hpromise⟩ := State.owes_iff.1 owed
  have hpos : 0 < (w.state.ledger 0).count reply? promise.2 :=
    Ledger.count_pos held (reply?_of_promise? hpromise)
  have hle := count_settlements_le h own promise.2
  exact List.count_eq_zero.1 (by omega)

/-- A future is waited on as long as its key waits or is on its way. -/
theorem unsettled_iff (h : Reachable creditCapacity w) (own : w.requests.Nodup)
    {key : SubscriberKey} {reply : Ticket} (promised : (key, reply) ∈ w.promised) :
    reply ∉ w.settlements ↔
      w.state.standing key = .waiting ∨ w.state.standing key = .adding := by
  have hsound := (consistent_of_reachable h).sound
  constructor
  · intro hopen
    exact State.standing_of_owes hsound ((owed_of_promised h promised).resolve_left hopen)
  · intro here
    obtain ⟨reply', howes⟩ := State.owes_of_standing hsound here
    rw [promised_key_unique h promised (promised_of_owes h howes)]
    exact not_settled_of_owes h own howes

/-- What a moment tells the future of a key: the key where it becomes active, and an error where it
is gone before. -/
structure Tells (w : World) (moment : Moment) (w' : World) (key : SubscriberKey) (reply : Ticket) :
    Prop where
  activated : ∀ answer, (reply, .ok answer) ∈ settledOf moment.turn.effects ↔
    answer = .key key ∧ w.state.standing key ≠ .active ∧ w'.state.standing key = .active
  failed : (∃ error, (reply, .error error) ∈ settledOf moment.turn.effects) ↔
    (w.state.standing key = .waiting ∨ w.state.standing key = .adding) ∧
      w'.state.standing key = .gone

section

variable (h : Reachable creditCapacity w) (step : Step w w') (posted : w.Posted moment w')
  {key : SubscriberKey} {reply : Ticket}

theorem Posted.promised_later (posted : w.Posted moment w') {promise : Promise}
    (promised : promise ∈ w.promised) : promise ∈ w'.promised := by
  rw [posted.promised]
  exact List.mem_append_left _ promised

section

variable (promised : (key, reply) ∈ w'.promised)
include h step posted promised

theorem Posted.told_of_active (before : w.state.standing key ≠ .active)
    (after : w'.state.standing key = .active) :
    (reply, .ok (.key key)) ∈ settledOf moment.turn.effects := by
  have hindexed := (standing_spec (h.next step) key).2.2.1.2 after
  have habsent : ¬w.state.index.contains key = true := fun hindex =>
    before ((standing_spec h key).2.2.1.1 hindex)
  rw [← posted.before] at habsent
  rw [posted.state] at hindexed
  rcases posted.keeps (consistent_of_reachable h) step with ⟨-, activated, hactivates⟩ | hanswers
  · have hkey := ((hactivates.index key).1 hindexed).resolve_right habsent
    have hactivated := promised_of_owes h (posted.before ▸ hactivates.owed)
    have hlater : (key, activated.2) ∈ w'.promised := by
      rw [hkey]
      exact posted.promised_later hactivated
    rw [hactivates.told, promised_key_unique (h.next step) promised hlater, hkey]
    exact List.mem_singleton_self _
  · exact absurd (hanswers.index key hindexed) habsent

theorem Posted.told_of_gone
    (before : w.state.standing key = .waiting ∨ w.state.standing key = .adding)
    (after : w'.state.standing key = .gone) :
    ∃ error, (reply, .error error) ∈ settledOf moment.turn.effects := by
  have hconsistent := consistent_of_reachable h
  have hsound' := (consistent_of_reachable (h.next step)).sound
  obtain ⟨reply', howes⟩ := State.owes_of_standing hconsistent.sound before
  have hlater := posted.promised_later (promised_of_owes h howes)
  rw [← promised_key_unique (h.next step) promised hlater, ← posted.before] at howes
  have hgone : ¬moment.turn.state.Owes (key, reply) := by
    rw [← posted.state]
    intro hstays
    rcases State.standing_of_owes hsound' hstays with h | h <;> simp [after] at h
  rcases posted.keeps hconsistent step with ⟨-, activated, hactivates⟩ | hanswers
  · rcases hactivates.others _ howes with rfl | hstays
    · have hindexed := (hactivates.index key).2 (.inl rfl)
      rw [← posted.state, (standing_spec (h.next step) key).2.2.1, after] at hindexed
      cases hindexed
    · exact absurd hstays hgone
  · refine (hanswers.answered _ (.inr howes)).resolve_left fun hstays => ?_
    exact hgone (hstays.resolve_left List.not_mem_nil)

end

include h step posted in
/-- No future is told a key but that of the subscription that becomes active. -/
theorem Posted.active_of_told (told : (reply, .ok (.key key)) ∈ settledOf moment.turn.effects) :
    (key, reply) ∈ w'.promised ∧ w'.state.index.contains key = true := by
  rcases posted.keeps (consistent_of_reachable h) step with ⟨-, activated, hactivates⟩ | hanswers
  · rw [hactivates.told, List.mem_singleton, Prod.mk.injEq] at told
    obtain ⟨rfl, hresult⟩ := told
    cases hresult
    refine ⟨posted.promised_later (promised_of_owes h (posted.before ▸ hactivates.owed)), ?_⟩
    rw [posted.state]
    exact (hactivates.index activated.1).2 (.inl rfl)
  · exact absurd told (hanswers.keyless reply key)

variable (own : w'.requests.Nodup)
include h step posted own

/-- What is told in a moment was not told before, is told once, and is not owed any more. -/
theorem Posted.told_once {result : Result}
    (told : (reply, result) ∈ settledOf moment.turn.effects) :
    reply ∉ w.settlements ∧ moment.turn.settled.count reply = 1 ∧
      (∀ key, ¬w'.state.Owes (key, reply)) ∧ reply ∈ w'.settlements := by
  have hle := count_settlements_le (h.next step) own reply
  have hmem : reply ∈ moment.turn.settled := List.mem_map_of_mem told
  have hpos := List.count_pos_iff.2 hmem
  have hsettled : reply ∈ w'.settlements := by
    rw [posted.settlements]
    exact List.mem_append_right _ hmem
  have hopen : ∀ key, ¬w'.state.Owes (key, reply) := fun key howes =>
    not_settled_of_owes (h.next step) own howes hsettled
  rw [posted.settlements, List.count_append] at hle
  exact ⟨List.count_eq_zero.1 (by omega), by omega, hopen, hsettled⟩

theorem Posted.result_unique {result result' : Result}
    (told : (reply, result) ∈ settledOf moment.turn.effects)
    (told' : (reply, result') ∈ settledOf moment.turn.effects) : result = result' := by
  obtain ⟨-, hcount, -⟩ := posted.told_once h step own told
  have hone : (settledOf moment.turn.effects).countP (fun entry => entry.1 == reply) ≤ 1 := by
    rw [Turn.settled, List.count, List.countP_map] at hcount
    exact Nat.le_of_eq hcount
  exact congrArg Prod.snd (eq_of_countP_le_one hone told (beq_self_eq_true _) told'
    (beq_self_eq_true _))

variable (promised : (key, reply) ∈ w'.promised)
include promised

/-- A future that is told something was owed its key, or is promised it just now. -/
theorem Posted.owed_of_told {result : Result}
    (told : (reply, result) ∈ settledOf moment.turn.effects) : w.state.Owes (key, reply) := by
  have hconsistent := consistent_of_reachable h
  rw [posted.promised, List.mem_append, Option.mem_toList] at promised
  rcases promised with hold | hnew
  · have hopen := (posted.told_once h step own told).1
    exact (owed_of_promised h hold).resolve_left hopen
  · -- what was just taken up is told nothing
    rw [(posted.owes_new hconsistent step hnew).2] at told
    cases told

theorem Posted.activated {answer : Answer}
    (told : (reply, .ok answer) ∈ settledOf moment.turn.effects) :
    answer = .key key ∧ w'.state.standing key = .active := by
  have hconsistent := consistent_of_reachable h
  have howed := posted.owed_of_told h step own promised told
  rcases posted.keeps hconsistent step with ⟨-, activated, hactivates⟩ | hanswers
  · have htold := told
    rw [hactivates.told, List.mem_singleton, Prod.mk.injEq] at htold
    obtain ⟨hreply, hanswer⟩ := htold
    have hactivated := promised_of_owes h (posted.before ▸ hactivates.owed)
    have hlater := posted.promised_later hactivated
    have hkey : key = activated.1 := promised_reply_unique own promised (hreply ▸ hlater)
    rw [hkey]
    refine ⟨Except.ok.inj hanswer, (standing_spec (h.next step) activated.1).2.2.1.1 ?_⟩
    rw [posted.state]
    exact (hactivates.index activated.1).2 (.inl rfl)
  · rw [← posted.before] at howed
    rcases hanswers.answered _ (.inr howed) with hstays | ⟨error, herror⟩
    · have hstays' := hstays.resolve_left List.not_mem_nil
      rw [← posted.state] at hstays'
      exact absurd hstays' ((posted.told_once h step own told).2.2.1 key)
    · cases posted.result_unique h step own told herror

theorem Posted.failed {error : SubscriptionError}
    (told : (reply, .error error) ∈ settledOf moment.turn.effects) :
    w'.state.standing key = .gone := by
  obtain ⟨-, -, hopen, hsettled⟩ := posted.told_once h step own told
  have howed := posted.owed_of_told h step own promised told
  have hsound := (consistent_of_reachable h).sound
  have hhere := State.standing_of_owes hsound howed
  have hrank := rank_le_of_steps h (.single step) key
  have hunsettled := (unsettled_iff (h.next step) own promised).not.1 (not_not_intro hsettled)
  cases hstanding : w'.state.standing key with
  | gone => rfl
  | active =>
    have hbefore : w.state.standing key ≠ .active := by rcases hhere with h | h <;> simp [h]
    have hok := posted.told_of_active h step promised hbefore hstanding
    cases posted.result_unique h step own told hok
  | waiting => exact absurd (.inl hstanding) hunsettled
  | adding => exact absurd (.inr hstanding) hunsettled
  | unassigned =>
    rw [hstanding] at hrank
    rcases hhere with h | h <;> simp [h, Standing.rank] at hrank

theorem Posted.tells : w.Tells moment w' key reply := by
  have hconsistent := consistent_of_reachable h
  refine ⟨?_, ?_⟩
  · intro answer
    constructor
    · intro told
      obtain ⟨hanswer, hactive⟩ := posted.activated h step own promised told
      have howed := posted.owed_of_told h step own promised told
      refine ⟨hanswer, ?_, hactive⟩
      rcases State.standing_of_owes hconsistent.sound howed with h | h <;> simp [h]
    · rintro ⟨rfl, before, after⟩
      exact posted.told_of_active h step promised before after
  · constructor
    · rintro ⟨error, told⟩
      refine ⟨?_, posted.failed h step own promised told⟩
      exact State.standing_of_owes hconsistent.sound (posted.owed_of_told h step own promised told)
    · rintro ⟨before, after⟩
      exact posted.told_of_gone h step promised before after

end

/-! ### The life of a subscription -/

/-- A key that was given to a subscription for a unit is in one place, and there once. -/
structure Placed (w : World) (key : SubscriberKey) (unit : UnitKey) : Prop where
  assigned : w.state.standing key ≠ .unassigned
  waiting : w.state.waitingUnder key = if w.state.standing key = .waiting then [unit] else []
  adding : (w.state.additions key).length = if w.state.standing key = .adding then 1 else 0
  active : w.state.index.contains key = true ↔ w.state.standing key = .active

theorem placed_of_assigned (h : Reachable creditCapacity w) {key : SubscriberKey}
    {subscription : JobSubscription} (assigned : (key, subscription) ∈ w.assigned) :
    w.Placed key subscription.unitKey := by
  have hconsistent := consistent_of_reachable h
  obtain ⟨hwaiting, hadding, hactive, hunassigned⟩ := standing_spec h key
  refine ⟨?_, ?_, hadding, hactive⟩
  · intro hnew
    exact absurd (hunassigned.1 hnew) (Nat.not_le_of_lt (hconsistent.assigned _ assigned))
  · split at hwaiting
    next heq =>
      rw [if_pos heq]
      obtain ⟨unit, hunit⟩ := List.length_eq_one_iff.1 hwaiting
      have hmem : unit ∈ w.state.waitingUnder key := hunit ▸ List.mem_singleton_self unit
      obtain ⟨waiting, held, rfl⟩ := State.mem_waitingUnder.1 hmem
      obtain ⟨other, hother, hkey, -⟩ := hconsistent.sound.proper _ held
      have hsame := hconsistent.unique _ hother _ assigned rfl
      rw [hunit, ← hkey, (Prod.mk.inj hsame).2]
    next hne =>
      rw [if_neg hne]
      exact List.length_eq_zero_iff.1 hwaiting

/-- What a subscription meets: the error that its partition is not there, or the next key. -/
structure Greets (w : World) (moment : Moment) (w' : World) (subscription : JobSubscription)
    (reply : Ticket) : Prop where
  refused : w.state.buckets.contains subscription.partition = false →
    settledOf moment.turn.effects =
        [(reply, .error (.partitionNotFound subscription.partition))] ∧
      w'.state.nextKey = w.state.nextKey ∧ w'.assigned = w.assigned
  taken : w.state.buckets.contains subscription.partition = true →
    settledOf moment.turn.effects = [] ∧
      w'.assigned = w.assigned ++ [(⟨w.state.nextKey⟩, subscription)] ∧
      w'.promised = w.promised ++ [(⟨w.state.nextKey⟩, reply)] ∧
      (w'.state.standing ⟨w.state.nextKey⟩ = .waiting ∨
        w'.state.standing ⟨w.state.nextKey⟩ = .adding)

theorem Posted.greets (h : Reachable creditCapacity w) (step : Step w w')
    (posted : w.Posted moment w') {subscription : JobSubscription} {reply : Ticket}
    (told : moment.event = .told (.subscribe subscription reply)) :
    w.Greets moment w' subscription reply := by
  have hconsistent := consistent_of_reachable h
  have hnextKey := posted.nextKey_eq hconsistent
  have hassigned := posted.assigned
  have hpromised := posted.promised
  constructor
  · intro hmissing
    have hnone : moment.assigned? = none := by
      simp [Moment.assigned?, told, posted.before, hmissing]
    rw [hnone, Option.toList_none] at hnextKey hassigned
    rw [Table.contains, Option.isSome_eq_false_iff, Option.isNone_iff_eq_none] at hmissing
    rw [List.append_nil] at hassigned
    refine ⟨?_, hnextKey, hassigned⟩
    rw [posted.told _ told, State.handle, State.subscribe, hmissing]
    rfl
  · intro hfound
    have hsome : moment.assigned? = some (⟨w.state.nextKey⟩, subscription) := by
      simp [Moment.assigned?, told, posted.before, hfound]
    have hpromise : moment.promised? = some (⟨w.state.nextKey⟩, reply) := by
      simp [Moment.promised?, told, posted.before, hfound]
    rw [hsome, Option.toList_some] at hassigned
    rw [hpromise, Option.toList_some] at hpromised
    obtain ⟨howes, hsettled⟩ := posted.owes_new hconsistent step hpromise
    refine ⟨hsettled, hassigned, hpromised, ?_⟩
    exact State.standing_of_owes (consistent_of_reachable (h.next step)).sound howes

/-- The keys are given out in order, and each stands in one place and goes forward only. A future
is waited on as long as its key waits or is on its way; it is told the key in the step in which the
key becomes active, and an error in the step in which the key is gone without having been active.
The messages that ask for replies are taken to bring futures of their own. -/
theorem subscriptions_advance (h : Reachable creditCapacity w) (own : w.requests.Nodup) :
    (w.assigned.map fun entry => entry.1.val) = List.range w.state.nextKey ∧
    w.promised.map Prod.fst = w.assigned.map Prod.fst ∧
    (∀ key subscription, (key, subscription) ∈ w.assigned →
      w.Placed key subscription.unitKey) ∧
    (∀ w', Relation.ReflTransGen Step w w' → ∀ key,
      (w.state.standing key).rank ≤ (w'.state.standing key).rank) ∧
    (∀ key reply, (key, reply) ∈ w.promised → (reply ∉ w.settlements ↔
      w.state.standing key = .waiting ∨ w.state.standing key = .adding)) ∧
    ∀ w' moment, Step w w' → w'.history = w.history ++ [moment] → w'.requests.Nodup →
      (∀ subscription reply, moment.event = .told (.subscribe subscription reply) →
        w.Greets moment w' subscription reply) ∧
      ∀ key reply, (key, reply) ∈ w'.promised → w.Tells moment w' key reply := by
  refine ⟨assigned_keys h, w.promised_keys, fun key subscription => placed_of_assigned h,
    fun w' steps => rank_le_of_steps h steps, fun key reply => unsettled_iff h own, ?_⟩
  intro w' moment step history own'
  obtain ⟨posting, hposted⟩ := posted_of_step (consistent_of_reachable h) step
  rw [hposted.eq_of_history history]
  exact ⟨fun subscription reply => hposted.greets h step,
    fun key reply => hposted.tells h step own'⟩

open Sample in
def activation : Moment :=
  ⟨adding.state, .ended ⟨1⟩ (.add processor { subscription with key := some ⟨0⟩ }) (.ok ()),
    adding.state.handle (.resume ⟨1⟩ (.settled (.ok ())))⟩

open Sample in
theorem subscriptions_advance_sample :
    adding.state.standing ⟨0⟩ = .adding ∧ (⟨0⟩ : Ticket) ∉ adding.settlements ∧
      (⟨0⟩, .ok (.key ⟨0⟩)) ∈ settledOf activation.turn.effects ∧
      (deferred.state.standing ⟨0⟩).rank ≤ (restarted.state.standing ⟨0⟩).rank := by
  have hown : adding.requests.Nodup := by decide +kernel
  obtain ⟨-, -, -, -, hwaits, hstep⟩ := subscriptions_advance reachable_adding hown
  have hstanding : adding.state.standing ⟨0⟩ = .adding := by decide +kernel
  have hactive : active.state.standing ⟨0⟩ = .active := by decide +kernel
  have htells := (hstep active activation (.finish _ _ (by decide +kernel) _) rfl
    (by decide +kernel)).2 ⟨0⟩ ⟨0⟩ (by decide +kernel)
  have hforward := (subscriptions_advance reachable_deferred (by decide +kernel)).2.2.2.1
    restarted (.single (.finish _ _ (by decide +kernel) _)) ⟨0⟩
  refine ⟨hstanding, (hwaits ⟨0⟩ ⟨0⟩ (by decide +kernel)).2 (.inr hstanding), ?_, hforward⟩
  exact (htells.activated _).2 ⟨rfl, by simp [hstanding], hactive⟩

end World

end JobBroker.Manager
