import JobBroker.Proofs.Posting

/-!
# Ended calls as moves

Every way in which a call can end is posted to the ledger, where the call itself is in the hands
of the turn that begins with its end.
-/

namespace JobBroker.Manager.State

open Table Holding Turn

variable {k : Knowledge} {s : State}

/-! ### Ended teardowns -/

/-- When a teardown has ended it was the only one, and is counted no more. -/
theorem retiring_of_teardown {processor : Processor}
    (before : (s.ledger {ongoing (.teardown processor none)}).Sound k) :
    s.retiring.get? processor.key = some 1 := by
  have hheld : ongoing (.teardown processor none) ∈
      (s.ledger {ongoing (.teardown processor none)}).holdings := by
    simp only [ongoing_mem_ledger, Multiset.mem_singleton, or_true]
  have hretired := before.retired processor.key
  have hunits := before.units processor.key
  have hpos : 0 < (s.ledger {ongoing (.teardown processor none)}).count stopping? processor.key :=
    Ledger.count_pos hheld rfl
  change (s.retiring.get? processor.key).getD 0 = _ at hretired
  cases hget : s.retiring.get? processor.key with
  | none =>
    rw [hget, Option.getD_none] at hretired
    omega
  | some count =>
    rw [hget, Option.getD_some] at hretired
    congr 1
    omega

theorem ledger_unretire {key : UnitKey} (h : s.retiring.get? key = some 1)
    (hand : Multiset Holding) :
    { s with retiring := s.retiring.erase key }.ledger hand = (s.ledger hand).unretire key := by
  ext1 <;> simp only [ledger, Ledger.unretire, holdings]
  funext other
  rw [get?_erase]
  split <;> simp_all

theorem notes_startDeferred (h : s.Orderly) (key : UnitKey) : (s.startDeferred key).Notes s := by
  unfold startDeferred
  split
  next => exact .rest h
  next => exact (Notes.rest (orderly_erase_pending h key)).since rfl rfl
  next =>
    unfold startBuild
    split
    next => exact notes_failPending h key _
    next bucket _ =>
      have hfits : Continuation.Fits (.build (bucket.unit key.jobType))
        (.build (bucket.unit key.jobType)) := rfl
      exact .issue h hfits

theorem moves_startDeferred (h : s.Orderly) {processor : Processor} {b : Ledger}
    (ended : s.ledger 0 = b.unretire processor.key) :
    Moves k (b.plus {ongoing (.teardown processor none)})
      ([.stopped processor] ++ (s.startDeferred processor.key).signs)
      (s.startDeferred processor.key).settled
      ((s.startDeferred processor.key).state.ledger 0) := by
  have hawaited : b.awaited processor.key = s.pending.contains processor.key :=
    (congrArg (fun b => b.awaited processor.key) ended).symm
  unfold startDeferred
  split
  next hnone =>
    rw [Table.contains, hnone] at hawaited
    show Moves k _ _ _ (s.ledger 0)
    rw [ended]
    exact .single (.stop b processor hawaited)
  next hempty =>
    have hforget := ledger_erase_pending s processor.key 0
    rw [hempty, Option.getD_some, ended] at hforget
    show Moves k _ _ _ ({ s with pending := s.pending.erase processor.key }.ledger
      (queueHoldings processor.key [] + 0))
    rw [hforget]
    exact .single (.stopForgotten b processor)
  next w queue hqueue =>
    unfold startBuild
    split
    next =>
      refine posts_failPending h (.single ?_)
      rw [ended]
      exact .stopForgotten b processor
    next bucket hbucket =>
      have hkey : (bucket.unit processor.key.jobType).key = processor.key :=
        congrArg (fun partition => UnitKey.mk partition processor.key.jobType)
          (h.placed _ _ hbucket)
      rw [Table.contains, hqueue] at hawaited
      rw [ledger_issue h.fresh, ended]
      exact .single (.restart b processor _ hkey hawaited)

theorem posts_onTornDown (h : s.Orderly) {processor : Processor} {reply : Option Ticket}
    (before : (s.ledger {ongoing (.teardown processor reply)}).Sound k)
    (result : Except String Unit) :
    (s.onTornDown processor reply result).Posts k s {ongoing (.teardown processor reply)}
      [.stopped processor] 0 := by
  have hanswer : Moves k (s.ledger {ongoing (.teardown processor reply)}) [] []
      (s.ledger (owed reply + {ongoing (.teardown processor none)})) := by
    cases reply with
    | none =>
      rw [owed, zero_add]
      exact .rest _
    | some reply =>
      rw [owed, add_comm, ledger_hand s {_}, ledger_hand s ({_} + {_}), ← Ledger.plus_plus]
      exact .single (.answer _ processor reply)
  have hsettle := fun told =>
    Posts.settle? (k := k) h reply told {ongoing (.teardown processor none)}
  have hstopping := (hsettle (.ok .done)).sound (hanswer.keep (fun move => move.sound) before)
  rw [state_settle?] at hstopping
  have hretiring := retiring_of_teardown hstopping
  unfold onTornDown
  dsimp only
  refine Posts.since hanswer ((hsettle _).andThen_noticed (signs_settle? s reply _) ?_) rfl rfl
  rw [state_settle?, hretiring]
  have herase := orderly_erase_retiring h processor.key
  refine ⟨(notes_startDeferred herase processor.key).since rfl rfl, ?_⟩
  rw [ledger_hand]
  exact moves_startDeferred herase (ledger_unretire hretiring 0)

/-! ### Ended builds -/

/-- The state once a build has ended well: nothing waits for the unit any more, and the processor
has been given its id. -/
def unqueue (s : State) (key : UnitKey) : State :=
  { s with pending := s.pending.erase key, nextProcessor := s.nextProcessor + 1 }

theorem ledger_unqueue (s : State) (key : UnitKey) (hand : Multiset Holding) :
    (s.unqueue key).ledger (queueHoldings key ((s.pending.get? key).getD []) + hand) =
      ((s.ledger hand).forget key).takeId := by
  rw [← ledger_erase_pending]
  rfl

theorem orderly_unqueue (h : s.Orderly) (key : UnitKey) : (s.unqueue key).Orderly := by
  have herase := orderly_erase_pending h key
  exact ⟨herase.fresh, herase.placed, herase.referred, herase.retired, herase.keyed⟩

/-- A processor for which nothing waits, or whose partition is gone, is torn down at once. -/
theorem posts_spare (h : s.Orderly) {processor : Processor} (built : k.built processor)
    (id : processor.id = ⟨s.nextProcessor⟩) (result : Result) :
    (((s.unqueue processor.key).settleAll
      (((s.pending.get? processor.key).getD []).map Waiting.reply) result).andThen fun s =>
        s.teardown processor none).Posts k s {ongoing (.build processor.unit)}
          [.built processor.unit] 0 := by
  have hunqueue := orderly_unqueue h processor.key
  have hsettle := Notes.settleAll hunqueue
    (((s.pending.get? processor.key).getD []).map Waiting.reply) result
  refine ⟨Notes.since (hsettle.andThen ?_) rfl rfl, ?_⟩
  · exact notes_teardown hunqueue processor none
  have hspare : Moves k (s.ledger {ongoing (.build processor.unit)})
      [.built processor.unit, .discarded processor] []
      (((s.unqueue processor.key).teardown processor none).state.ledger
        (queueHoldings processor.key ((s.pending.get? processor.key).getD []) + 0)) := by
    rw [ledger_teardown hunqueue, ledger_unqueue, ledger_hand s {_}]
    exact .single (.spare _ processor built id)
  rw [ledger_add] at hspare
  have hmoves := hspare.trans (moves_settleAll _ _ _)
  rw [settled_andThen, signs_andThen, settled_settleAll, signs_settleAll]
  show Moves k _ [.built processor.unit, .discarded processor] (_ ++ []) _
  rw [List.append_nil]
  exact hmoves

def enlist (s : State) (processor : Processor) (bucket : Bucket) : State :=
  { s.unqueue processor.key with
    buckets := s.buckets.insert processor.partition (bucket.register processor) }

theorem orderly_enlist (h : s.Orderly) {processor : Processor} {bucket : Bucket}
    (found : s.buckets.get? processor.partition = some bucket) :
    (s.enlist processor bucket).Orderly := by
  have hplaced : bucket.partition.id = processor.partition := h.placed _ _ found
  change (bucket.register processor).partition.id = processor.partition at hplaced
  exact orderly_insert_bucket (orderly_unqueue h processor.key) hplaced

theorem move_enlist {processor : Processor} {bucket : Bucket} (built : k.built processor)
    (id : processor.id = ⟨s.nextProcessor⟩)
    (found : s.buckets.get? processor.partition = some bucket) :
    Move k (s.ledger {ongoing (.build processor.unit)}) [.built processor.unit] []
      ((s.enlist processor bucket).ledger
        (queueHoldings processor.key ((s.pending.get? processor.key).getD []) + 0)) := by
  have hfound : (s.unqueue processor.key).buckets.get? processor.partition = some bucket := found
  have hregister := ledger_register hfound processor
    (queueHoldings processor.key ((s.pending.get? processor.key).getD []) + 0)
  rw [ledger_unqueue] at hregister
  change State.ledger (s.enlist processor bucket) _ = _ at hregister
  rw [hregister, ledger_hand]
  exact .register _ processor built id

theorem posts_register (h : s.Orderly) {processor : Processor} {bucket : Bucket}
    (before : (s.ledger {ongoing (.build processor.unit)}).Sound k) (built : k.built processor)
    (id : processor.id = ⟨s.nextProcessor⟩)
    (found : s.buckets.get? processor.partition = some bucket) :
    ((s.enlist processor bucket).forEach ((s.pending.get? processor.key).getD []) fun s w =>
      s.forward processor w).Posts k s {ongoing (.build processor.unit)} [.built processor.unit]
        0 := by
  have hmove := move_enlist built id found
  have hsound := hmove.sound before
  have hsum : queueHoldings processor.key ((s.pending.get? processor.key).getD []) =
      (((s.pending.get? processor.key).getD []).map fun w =>
        ({waiting processor.key w} : Multiset _)).sum := coe_map_eq_sum ..
  -- the processor stays registered while it is handed one after the other
  let Q : Ledger → Prop := fun b => registered processor.key.partition processor ∈ b.holdings
  have hstart : Q ((s.enlist processor bucket).ledger
      (queueHoldings processor.key ((s.pending.get? processor.key).getD []) + 0)) := by
    refine registered_mem_ledger.2 (.inl ⟨bucket.register processor, get?_insert_self _ _ _, ?_⟩)
    exact Bucket.mem_register.2 (.inr rfl)
  rw [hsum] at hmove hsound hstart
  refine Posts.since (.single hmove)
    (Posts.forEach (Q := Q) _ ?_ (orderly_enlist h found) hsound hstart) rfl rfl
  intro s' others w hw hs' _ hQ
  have hnamed : w.subscription.key = some w.key := by
    cases hqueue : s.pending.get? processor.key with
    | none =>
      rw [hqueue] at hw
      cases hw
    | some queue =>
      rw [hqueue] at hw
      exact h.keyed _ _ hqueue w hw
  have hmem : registered processor.key.partition processor ∈ (s'.ledger others).holdings := by
    change _ ∈ (s'.ledger _).holdings at hQ
    rw [ledger_add] at hQ
    rcases Ledger.mem_plus.1 hQ with hQ | hQ
    · exact hQ
    · cases hQ
  refine ⟨posts_forward hs' hnamed hmem rfl, ?_⟩
  rw [forward, ledger_issue (orderly_acquire hs' processor.id).fresh, ledger_acquire]
  exact Ledger.mem_plus.2 (.inl hmem)

theorem posts_onBuilt (h : s.Orderly) {unit : ActivationUnit} {result : Except String Runner}
    (before : (s.ledger {ongoing (.build unit)}).Sound k)
    (built : ∀ runner, result = .ok runner → k.built ⟨⟨s.nextProcessor⟩, unit, runner⟩) :
    (s.onBuilt unit result).Posts k s {ongoing (.build unit)}
      (match result with
        | .ok _ => [.built unit]
        | .error _ => [.failed unit]) 0 := by
  cases result with
  | error reason =>
    refine ⟨notes_failPending h unit.key _, posts_failPending h (.single ?_)⟩
    rw [ledger_hand]
    exact .fail _ unit
  | ok runner =>
    have hbuilt := built runner rfl
    unfold onBuilt
    dsimp only
    split
    next hempty =>
      have hspare := posts_spare h hbuilt rfl (.ok .done)
      change Posts k s _ _ (((s.unqueue unit.key).settleAll
        (((s.pending.get? unit.key).getD []).map Waiting.reply) _).andThen _) _ at hspare
      rw [List.isEmpty_iff.1 hempty] at hspare
      exact hspare
    next hwaiting =>
      split
      next hnone => exact posts_spare h hbuilt rfl _
      next bucket hbucket =>
        exact posts_register h before hbuilt rfl hbucket

/-! ### Ended additions and removals -/

theorem index_of_adding {key : SubscriberKey} {connection : ConnectionId} {processor : Processor}
    {reply : Ticket} {closed : Bool}
    (before : (s.ledger {ongoing (.subscribe key connection processor reply closed)}).Sound k) :
    s.index.get? key = none := by
  have hkey := before.keys key
  rw [ledger_hand, Ledger.count_plus] at hkey
  simp only [key?, if_true] at hkey
  cases hget : s.index.get? key with
  | none => rfl
  | some entry =>
    have hmem : indexed key entry ∈ (s.ledger 0).holdings := indexed_mem_ledger.2 (.inl hget)
    have hpos : 0 < (s.ledger 0).count key? key := Ledger.count_pos hmem rfl
    split at hkey <;> omega

/-- What passes for a registered processor is that very one. -/
theorem registered_of_isRegistered (distinct : k.Distinct) {processor : Processor}
    {hand : Multiset Holding} (before : (s.ledger hand).Sound k) (known : k.built processor)
    (h : s.isRegistered processor = true) :
    registered processor.partition processor ∈ (s.ledger hand).holdings := by
  unfold isRegistered at h
  split at h
  next => cases h
  next bucket hbucket =>
    obtain ⟨member, hmember, hid⟩ := Bucket.contains_iff.1 h
    have hmem : registered processor.partition member ∈ (s.ledger hand).holdings :=
      registered_mem_ledger.2 (.inl ⟨bucket, hbucket, hmember⟩)
    have hsame := distinct member processor (before.proper _ hmem).2.1 known hid
    exact hsame ▸ hmem

theorem known_of_hand {thing : Holding} (before : (s.ledger {thing}).Sound k) :
    thing.Proper k s.nextProcessor := by
  have hmem : thing ∈ (s.ledger {thing}).holdings := by
    rw [ledger_hand]
    exact Ledger.mem_plus.2 (.inr rfl)
  exact before.proper thing hmem

section

variable {key : SubscriberKey} {connection : ConnectionId} {processor : Processor}
  {reply : Ticket} {closed : Bool}

/-- A subscription that a processor accepted for a closed connection is taken back, once its future
has been told. -/
theorem posts_takeBack (h : s.Orderly) (known : k.Knows s.nextProcessor processor)
    (result : Result) :
    ((s.settle reply result).andThen fun s => s.takeBack processor key connection).Posts k s
      {ongoing (.subscribe key connection processor reply closed)} [] 0 := by
  have hdrop := orderly_dropReference h processor.id
  have hframe := dropReference_eq s processor.id
  have hcontinuations := congrArg State.continuations hframe
  have hnext := congrArg State.nextOperation hframe
  have hfits : Continuation.Fits (.sweep processor connection) (.remove processor key) := rfl
  have hnotes : (s.takeBack processor key connection).Notes s :=
    (Notes.issue hdrop hfits).since hcontinuations hnext
  refine ⟨(Notes.settle h reply _).andThen hnotes, ?_⟩
  have hrefuse : Move k ((s.ledger 0).plus
      {ongoing (.subscribe key connection processor reply closed)}) [] []
      (((s.ledger 0).release processor.id).plus {owing reply}) :=
    .refuse _ key connection processor reply closed
  have hsettle : Move k (((s.ledger 0).release processor.id).plus {owing reply}) [] [reply]
      ((s.ledger 0).release processor.id) := .settle _ reply
  have hsweep : Move k ((s.ledger 0).release processor.id) [] []
      (((s.ledger 0).release processor.id).plus {ongoing (.sweep processor connection)}) :=
    .sweep _ processor connection known
  have hmoves := ((Moves.single hrefuse).next hsettle).next hsweep
  rw [← ledger_hand, ← ledger_dropReference, ← ledger_issue hdrop.fresh _
    (.remove processor key)] at hmoves
  exact hmoves

/-- A subscription that a registered processor accepted becomes active. -/
theorem posts_activate (h : s.Orderly) (distinct : k.Distinct) (untold : ¬k.told)
    (before : (s.ledger {ongoing (.subscribe key connection processor reply false)}).Sound k)
    (accepted : k.accepted key processor) (registered : s.isRegistered processor = true)
    (result : Result) :
    ({ s with index := s.index.insert key ⟨processor, connection⟩ }.settle reply result).Posts k s
      {ongoing (.subscribe key connection processor reply false)} [] 0 := by
  have hnew := index_of_adding before
  have hindex : ({ s with index := s.index.insert key ⟨processor, connection⟩ }).Orderly :=
    ⟨h.fresh, h.placed, h.referred, h.retired, h.keyed⟩
  have hknown : k.Knows s.nextProcessor processor := (known_of_hand before).2
  have hmem : Holding.registered processor.partition processor ∈ (s.ledger 0).holdings := by
    have hmem := registered_of_isRegistered distinct before hknown.1 registered
    rw [ledger_hand] at hmem
    rcases Ledger.mem_plus.1 hmem with hmem | hmem
    · exact hmem
    · cases hmem
  have haccept : Move k (s.ledger {ongoing (.subscribe key connection processor reply false)})
      [] [] (({ s with index := s.index.insert key ⟨processor, connection⟩ }).ledger
        ({owing reply} + 0)) := by
    rw [ledger_add, ledger_insert_index hnew, ledger_hand s {_}]
    exact .accept _ key connection processor reply accepted hmem untold
  exact Posts.since (.single haccept) (.settle hindex reply _ 0) rfl rfl

theorem posts_onAdded (h : s.Orderly) (distinct : k.Distinct) (untold : ¬k.told)
    {result : Except String Unit}
    (before : (s.ledger {ongoing (.subscribe key connection processor reply closed)}).Sound k)
    (accepted : result = .ok () → k.accepted key processor) :
    (s.onAdded key connection processor reply closed result).Posts k s
      {ongoing (.subscribe key connection processor reply closed)} [] 0 := by
  have hgiveUp : ∀ error, ((s.release processor).andThen fun s =>
      s.settle reply (.error error)).Posts k s
        {ongoing (.subscribe key connection processor reply closed)} [] 0 := by
    intro error
    have hrelease : (s.release processor).Posts k s
        ({ongoing (.subscribe key connection processor reply closed)} + 0) []
        ({owing reply} + 0) := posts_release h distinct untold before
    exact hrelease.andThen (.settle hrelease.notes.orderly reply _ 0)
  unfold onAdded
  split
  next reason => exact hgiveUp _
  next =>
    split
    next => exact posts_takeBack h (known_of_hand before).2 _
    next hopen =>
      rw [Bool.not_eq_true] at hopen
      subst hopen
      split
      next hregistered =>
        exact posts_activate h distinct untold before (accepted rfl) hregistered _
      next => exact hgiveUp _

end

theorem posts_onRemoved (h : s.Orderly) (distinct : k.Distinct) (untold : ¬k.told)
    {processor : Processor} {reply : Ticket}
    (before : (s.ledger {ongoing (.unsubscribe processor reply)}).Sound k)
    (result : Except String Bool) :
    (s.onRemoved processor reply result).Posts k s {ongoing (.unsubscribe processor reply)} []
      0 := by
  have hknown : k.Knows s.nextProcessor processor := known_of_hand before
  have hend : Move k (s.ledger {ongoing (.unsubscribe processor reply)}) [] []
      (s.ledger ({owing reply} + 0)) := by
    rw [add_zero, ledger_hand s {_}, ledger_hand s {_}]
    exact .unsubscribed _ processor reply
  unfold onRemoved
  split
  next => exact Posts.since (.single hend) (.settle h reply _ 0) rfl rfl
  next =>
    split
    next hleft =>
      have hunused := (Bool.and_eq_true_iff.1 hleft).2
      have hretire := posts_retire h distinct untold (some reply) (hend.sound before) hknown.1
        ((isUnreferenced_iff h).1 hunused)
      exact Posts.since (.single hend) hretire rfl rfl
    next => exact Posts.since (.single hend) (.settle h reply _ 0) rfl rfl

theorem posts_onSwept (h : s.Orderly) (distinct : k.Distinct) (untold : ¬k.told)
    {processor : Processor} {connection : ConnectionId}
    (before : (s.ledger {ongoing (.sweep processor connection)}).Sound k)
    (result : Except String Bool) :
    (s.onSwept processor result).Posts k s {ongoing (.sweep processor connection)} [] 0 := by
  have hknown : k.Knows s.nextProcessor processor := known_of_hand before
  have hend : Move k (s.ledger {ongoing (.sweep processor connection)}) [] [] (s.ledger 0) := by
    rw [ledger_hand s {_}]
    exact .swept _ processor connection
  have hretire : (s.ledger 0).references processor.id = 0 →
      (s.retire processor none).Posts k s 0 [] 0 := by
    intro hunused
    have hnone : (s.ledger (owed none + 0)).Sound k := by
      rw [owed, zero_add]
      exact hend.sound before
    exact posts_retire h distinct untold none hnone hknown.1 hunused
  unfold onSwept
  split
  next => exact Posts.since (.single hend) (.rest h 0) rfl rfl
  next =>
    split
    next hleft =>
      have hunused := (Bool.and_eq_true_iff.1 hleft).2
      exact Posts.since (.single hend) (hretire ((isUnreferenced_iff h).1 hunused)) rfl rfl
    next => exact Posts.since (.single hend) (.rest h 0) rfl rfl

end JobBroker.Manager.State
