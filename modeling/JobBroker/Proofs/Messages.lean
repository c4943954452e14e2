import JobBroker.Proofs.Endings

/-!
# Messages as moves

Every message of a client is posted to the ledger. The reply that a message asks for is in the
hands of the turn from the beginning.
-/

namespace JobBroker.Manager

structure Knowledge.Covers (k : Knowledge) (moment : Moment) : Prop where
  built : ∀ processor, moment.built? = some processor → k.built processor
  assigned : ∀ key subscription, moment.assigned? = some (key, subscription) →
    k.assigned key subscription
  accepted : ∀ key processor, moment.accepted? = some (key, processor) → k.accepted key processor
  event : k.event? = some moment.event

namespace State

open Table Holding Turn

variable {k : Knowledge} {s : State}

/-! ### Subscribing -/

theorem byJobType?_some {bucket : Bucket} {jobType : JobType} {processor : Processor}
    (h : bucket.byJobType? jobType = some processor) :
    processor ∈ bucket.processors ∧ processor.jobType = jobType := by
  refine ⟨List.mem_of_find?_eq_some h, ?_⟩
  simpa using List.find?_some h

def takeKey (s : State) : State := { s with nextKey := s.nextKey + 1 }

/-- What waits once a subscription has been given its key. -/
def newcomer (s : State) (subscription : JobSubscription) (reply : Ticket) : Waiting :=
  ⟨⟨s.nextKey⟩, { subscription with key := some ⟨s.nextKey⟩ }, reply⟩

theorem orderly_takeKey (h : s.Orderly) : s.takeKey.Orderly :=
  ⟨h.fresh, h.placed, h.referred, h.retired, h.keyed⟩

theorem move_enter {subscription : JobSubscription}
    (assigned : k.assigned ⟨s.nextKey⟩ subscription) (reply : Ticket) :
    Move k (s.ledger {owing reply}) [] []
      ((s.takeKey.ledger 0).plus
        {waiting subscription.unitKey (s.newcomer subscription reply)}) := by
  rw [ledger_hand]
  exact .enter _ (s.newcomer subscription reply) subscription rfl assigned rfl

def enqueue (s : State) (unit : UnitKey) (queue : List Waiting) : State :=
  { s with pending := s.pending.insert unit queue }

theorem orderly_enqueue (h : s.Orderly) {unit : UnitKey} {queue : List Waiting} {w : Waiting}
    (keyed : ∀ v ∈ queue, v.subscription.key = some v.key)
    (named : w.subscription.key = some w.key) : (s.enqueue unit (queue ++ [w])).Orderly := by
  apply orderly_insert_pending h
  intro v hv
  rcases List.mem_append.1 hv with hv | hv
  · exact keyed v hv
  · rw [List.mem_singleton.1 hv]
    exact named

section

variable {bucket : Bucket} {unit : UnitKey} {queue : List Waiting} {subscription : JobSubscription}
  {reply : Ticket}

theorem posts_join (h : s.Orderly) (found : s.pending.get? unit = some queue)
    (enter : Move k (s.ledger {owing reply}) [] []
      ((s.takeKey.ledger 0).plus {waiting unit (s.newcomer subscription reply)})) :
    (s.takeKey.enqueue unit (queue ++ [s.newcomer subscription reply])).rest.Posts k s
      {owing reply} [] 0 := by
  have hfound : s.takeKey.pending.get? unit = some queue := found
  have henqueue : (s.takeKey.enqueue unit (queue ++ [s.newcomer subscription reply])).Orderly :=
    orderly_enqueue (orderly_takeKey h) (h.keyed _ _ found) rfl
  rw [← ledger_append_pending hfound] at enter
  exact (Posts.rest henqueue 0).since (.single enter) rfl rfl

theorem orderly_newcomer (h : s.Orderly) :
    (s.takeKey.enqueue unit [s.newcomer subscription reply]).Orderly := by
  have hkeyed : ∀ v ∈ ([] : List Waiting), v.subscription.key = some v.key := by
    intro v hv
    cases hv
  exact orderly_enqueue (orderly_takeKey h) hkeyed rfl

theorem ledger_newcomer (new : s.pending.get? unit = none) :
    (s.takeKey.enqueue unit [s.newcomer subscription reply]).ledger 0 =
      ((s.takeKey.ledger 0).plus {waiting unit (s.newcomer subscription reply)}).await unit := by
  have hnew : s.takeKey.pending.get? unit = none := new
  exact ledger_insert_pending hnew [s.newcomer subscription reply] 0

theorem awaited_eq_false (new : s.pending.get? unit = none) (things : Multiset Holding) :
    ((s.takeKey.ledger 0).plus things).awaited unit = false := by
  show s.pending.contains unit = false
  rw [Table.contains, new, Option.isSome_none]

theorem posts_defer (h : s.Orderly) (new : s.pending.get? unit = none)
    (retiring : s.retiring.contains unit = true)
    (enter : Move k (s.ledger {owing reply}) [] []
      ((s.takeKey.ledger 0).plus {waiting unit (s.newcomer subscription reply)})) :
    (s.takeKey.enqueue unit [s.newcomer subscription reply]).rest.Posts k s {owing reply} [] 0 := by
  have hcount : (s.retiring.get? unit).getD 0 ≠ 0 := by
    obtain ⟨count, hcount⟩ := Option.isSome_iff_exists.1 retiring
    rw [hcount, Option.getD_some]
    exact Nat.ne_of_gt (h.retired _ _ hcount)
  have hdefer := (Moves.single enter).next (.defer _ unit (awaited_eq_false new _) hcount)
  rw [← ledger_newcomer new] at hdefer
  exact (Posts.rest (orderly_newcomer h) 0).since hdefer rfl rfl

theorem posts_start (h : s.Orderly) (found : s.buckets.get? unit.partition = some bucket)
    (absent : bucket.byJobType? unit.jobType = none) (new : s.pending.get? unit = none)
    (rested : s.retiring.contains unit = false)
    (enter : Move k (s.ledger {owing reply}) [] []
      ((s.takeKey.ledger 0).plus {waiting unit (s.newcomer subscription reply)})) :
    ((s.takeKey.enqueue unit [s.newcomer subscription reply]).startBuild unit).Posts k s
      {owing reply} [] 0 := by
  have hnewcomer : (s.takeKey.enqueue unit [s.newcomer subscription reply]).Orderly :=
    orderly_newcomer h
  have hkey : (bucket.unit unit.jobType).key = unit :=
    congrArg (fun partition => UnitKey.mk partition unit.jobType) (h.placed _ _ found)
  have hcount : (s.retiring.get? unit).getD 0 = 0 := by
    cases hget : s.retiring.get? unit with
    | none => rfl
    | some count =>
      rw [Table.contains, hget] at rested
      cases rested
  have hfits : Continuation.Fits (.build (bucket.unit unit.jobType))
    (.build (bucket.unit unit.jobType)) := rfl
  have hbuild : (s.takeKey.enqueue unit [s.newcomer subscription reply]).startBuild unit =
      (s.takeKey.enqueue unit [s.newcomer subscription reply]).issue
        (.build (bucket.unit unit.jobType)) (.build (bucket.unit unit.jobType)) := by
    have hfound : (s.takeKey.enqueue unit [s.newcomer subscription reply]).buckets.get?
      unit.partition = some bucket := found
    rw [startBuild, hfound]
  rw [hbuild]
  refine ⟨(Notes.issue hnewcomer hfits).since rfl rfl, ?_⟩
  rw [ledger_issue hnewcomer.fresh, ledger_newcomer new]
  apply (Moves.single enter).next
  have hask := Move.ask (k := k)
    ((s.takeKey.ledger 0).plus {waiting unit (s.newcomer subscription reply)})
    (bucket.unit unit.jobType)
  rw [hkey] at hask
  apply hask (awaited_eq_false new _) hcount
  intro processor hmem hjobType
  have hpartition : (bucket.unit unit.jobType).partition.id = unit.partition :=
    h.placed _ _ found
  rw [hpartition] at hmem
  rcases Ledger.mem_plus.1 hmem with hmem | hmem
  · rcases registered_mem_ledger.1 hmem with ⟨other, hother, hmember⟩ | hhand
    · have hsame : other = bucket := Option.some.inj (hother.symm.trans found)
      subst hsame
      have hnone := List.find?_eq_none.1 absent processor hmember
      simp only [decide_eq_true_eq] at hnone
      exact hnone hjobType
    · exact absurd hhand (Multiset.notMem_zero _)
  · cases hmem

end

theorem posts_subscribe (h : s.Orderly) {subscription : JobSubscription} {reply : Ticket}
    (assigned : s.buckets.contains subscription.partition = true →
      k.assigned ⟨s.nextKey⟩ subscription) :
    (s.subscribe subscription reply).Posts k s {owing reply} [] 0 := by
  have htake := orderly_takeKey h
  let w := s.newcomer subscription reply
  unfold subscribe
  split
  next => exact .settle h reply _ 0
  next bucket hbucket =>
    have henter : Move k (s.ledger {owing reply}) [] []
        ((s.takeKey.ledger 0).plus {waiting subscription.unitKey w}) := by
      refine move_enter (assigned ?_) reply
      rw [Table.contains, hbucket, Option.isSome_some]
    dsimp only
    split
    next processor hprocessor =>
      obtain ⟨hmember, hjobType⟩ := byJobType?_some hprocessor
      have hfound : registered subscription.unitKey.partition processor ∈
          (s.takeKey.ledger 0).holdings := registered_mem_ledger.2 (.inl ⟨bucket, hbucket, hmember⟩)
      have hforward : (s.takeKey.forward processor w).Posts k s.takeKey
          ({waiting subscription.unitKey w} + 0) [] 0 := posts_forward htake rfl hfound hjobType
      rw [← ledger_add] at henter
      exact hforward.since (.single henter) rfl rfl
    next hnone =>
      split
      next queue hqueue => exact posts_join h hqueue henter
      next hqueue =>
        split
        next hretiring => exact posts_defer h hqueue hretiring henter
        next hrested =>
          exact posts_start h hbucket hnone hqueue (Bool.eq_false_iff.2 hrested) henter

/-! ### Giving up -/

theorem posts_unsubscribe (h : s.Orderly) (told : k.told) {key : SubscriberKey} {reply : Ticket}
    (before : (s.ledger {owing reply}).Sound k) :
    (s.unsubscribe key reply).Posts k s {owing reply} [] 0 := by
  unfold unsubscribe
  split
  next => exact .settle h reply _ 0
  next entry hentry =>
    have hframe := unindex_eq s key
    have hcontinuations := congrArg State.continuations hframe
    have hnext := congrArg State.nextOperation hframe
    have hprocessors := congrArg State.nextProcessor hframe
    have hunindex := orderly_unindex h key
    have hmem : indexed key entry ∈ (s.ledger {owing reply}).holdings :=
      indexed_mem_ledger.2 (.inl hentry)
    have hknown : k.Knows (s.unindex key).nextProcessor entry.processor := by
      rw [hprocessors]
      exact (before.proper _ hmem).2.2
    have hfits : Continuation.Fits (.unsubscribe entry.processor reply)
      (.remove entry.processor key) := rfl
    refine ⟨(Notes.issue hunindex hfits).since hcontinuations hnext, ?_⟩
    have hfirst : Move k (s.ledger {owing reply}) [] [] ((s.unindex key).ledger {owing reply}) :=
      move_unindex told hentry
    rw [ledger_hand (s.unindex key)] at hfirst
    rw [ledger_issue hunindex.fresh]
    exact (Moves.single hfirst).next (.unsubscribe _ entry.processor reply hknown)

theorem posts_purge (h : s.Orderly) (told : k.told) {hand : Multiset Holding}
    (test : IndexEntry → Bool) :
    (s.purge test).rest.Posts k s hand [] hand := by
  have hframe := unindexAll_eq (s.index.keysWhere test) s
  have hcontinuations := congrArg State.continuations hframe
  have hnext := congrArg State.nextOperation hframe
  have hpurge := orderly_unindexAll (s.index.keysWhere test) h
  exact (Posts.rest hpurge hand).since (moves_unindexAll told _ s) hcontinuations hnext

theorem posts_addPartition (h : s.Orderly) {partition : Partition} {service : String}
    (before : (s.ledger 0).Sound k) (told : k.told) (cleared : k.cleared partition.id) :
    (s.addPartition partition service).Posts k s 0 [] 0 := by
  have hplaced : ({ partition, service } : Bucket).partition.id = partition.id := rfl
  have hinsert := orderly_insert_bucket h hplaced
  unfold addPartition
  dsimp only
  split
  next hnone =>
    have hledger := ledger_insert_bucket hnone { partition, service } 0
    refine (Posts.rest hinsert 0).since_same ?_ rfl rfl
    rw [hledger]
    exact (Ledger.plus_zero _).symm
  next bucket hbucket =>
    have hledger : s.ledger 0 = ({ s with
        buckets := s.buckets.insert partition.id { partition, service } }).ledger
          (bucketHoldings partition.id bucket) := by
      have hreplace := ledger_replace_bucket hbucket { partition, service } 0
      rw [← ledger_hand] at hreplace
      rw [hreplace]
      exact (Ledger.plus_zero _).symm
    rw [hledger] at before
    exact (posts_discardBucket hinsert bucket before told cleared).since_same hledger rfl rfl

theorem posts_removePartition (h : s.Orderly) {partition : PartitionId}
    (before : (s.ledger 0).Sound k) (told : k.told) (cleared : k.cleared partition) :
    (s.removePartition partition).Posts k s 0 [] 0 := by
  have herase := orderly_erase_bucket h partition
  unfold removePartition
  cases hbucket : s.buckets.get? partition with
  | none =>
    have hledger : s.ledger 0 = { s with buckets := s.buckets.erase partition }.ledger 0 := by
      rw [erase_of_get?_eq_none hbucket]
    exact (posts_purge herase told _).since_same hledger rfl rfl
  | some bucket =>
    have hledger := ledger_erase_bucket hbucket 0
    rw [add_zero] at hledger
    rw [← hledger] at before
    exact (posts_discardBucket herase bucket before told cleared).since_same hledger.symm rfl rfl

/-! ### Closed connections -/

theorem moves_mark_one (connection : ConnectionId) (b : Ledger) (continuation : Continuation) :
    Moves k (b.plus {ongoing continuation}) [] []
      (b.plus {ongoing (markClosed connection continuation)}) := by
  cases continuation with
  | subscribe key owner processor reply closed =>
    rw [markClosed]
    by_cases hclosed : (closed || owner = connection) = true
    · rw [hclosed]
      exact .single (.mark b key owner processor reply closed)
    · have hopen := Bool.or_eq_false_iff.1 (Bool.eq_false_iff.2 hclosed)
      rw [Bool.eq_false_iff.2 hclosed, hopen.1]
      exact .rest _
  | _ => exact .rest _

theorem moves_mark (connection : ConnectionId) (b : Ledger)
    (entries : List (OperationId × Continuation)) :
    Moves k (b.plus (entries.map fun entry => {ongoing entry.2}).sum) [] []
      (b.plus (entries.map fun entry => {ongoing (markClosed connection entry.2)}).sum) := by
  induction entries generalizing b with
  | nil => exact .rest _
  | cons entry entries ih =>
    have hrest := ih (b.plus {ongoing entry.2})
    have hfirst := moves_mark_one (k := k) connection
      (b.plus (entries.map fun entry => {ongoing (markClosed connection entry.2)}).sum) entry.2
    rw [Ledger.plus_comm b _ {ongoing entry.2},
      Ledger.plus_comm b _ {ongoing (markClosed connection entry.2)}] at hfirst
    simp only [List.map_cons, List.sum_cons, ← Ledger.plus_plus]
    exact hrest.trans hfirst

theorem moves_abandon (test : Waiting → Bool) (b : Ledger)
    (entries : List (UnitKey × List Waiting)) :
    Moves k (b.plus (entries.map fun entry => queueHoldings entry.1 (entry.2.filter test)).sum) []
      (entries.flatMap fun entry => (entry.2.filter test).map Waiting.reply) b := by
  induction entries with
  | nil =>
    rw [List.map_nil, List.sum_nil, Ledger.plus_zero]
    exact .rest b
  | cons entry entries ih =>
    rw [List.map_cons, List.sum_cons, List.flatMap_cons, add_comm, ← Ledger.plus_plus]
    exact (moves_settleAll _ entry.1 (entry.2.filter test)).trans ih

theorem contents_filter (pending : Table UnitKey (List Waiting)) (test : Waiting → Bool) :
    pending.contents queueHoldings =
      (pending.mapValues fun _ (queue : List Waiting) => queue.filter fun w => !test w).contents
          queueHoldings +
        (pending.entries.map fun entry => queueHoldings entry.1 (entry.2.filter test)).sum := by
  have hqueue : ∀ (key : UnitKey) (queue : List Waiting), queueHoldings key queue =
      queueHoldings key (queue.filter fun w => !test w) +
        queueHoldings key (queue.filter test) := by
    intro key queue
    simp only [queueHoldings, Multiset.coe_add, Multiset.coe_eq_coe, ← List.map_append]
    exact (List.perm_append_comm.trans (List.filter_append_perm test queue)).symm.map _
  rw [contents_mapValues]
  unfold contents
  induction pending.entries with
  | nil => rfl
  | cons entry entries ih =>
    simp only [List.map_cons, List.sum_cons]
    rw [ih, hqueue entry.1 entry.2]
    abel

/-- The state once nothing waits for a connection any more, and the additions that are on their
way for it are marked. -/
def disconnect (s : State) (connection : ConnectionId) : State :=
  { s with
    pending := s.pending.mapValues fun _ (queue : List Waiting) =>
      queue.filter fun w => w.subscription.connection ≠ connection
    continuations := s.continuations.mapValues fun _ c => markClosed connection c }

def abandoned (s : State) (connection : ConnectionId) : List Ticket :=
  s.pending.values.flatMap fun queue =>
    (queue.filter fun w => w.subscription.connection = connection).map Waiting.reply

theorem orderly_disconnect (h : s.Orderly) (connection : ConnectionId) :
    (s.disconnect connection).Orderly := by
  refine ⟨?_, h.placed, h.referred, h.retired, ?_⟩
  · intro operation continuation hget
    simp only [disconnect, get?_mapValues, Option.map_eq_some_iff] at hget
    obtain ⟨old, hold, -⟩ := hget
    exact h.fresh operation old hold
  · intro key queue hget w hw
    simp only [disconnect, get?_mapValues, Option.map_eq_some_iff] at hget
    obtain ⟨old, hold, rfl⟩ := hget
    exact h.keyed key old hold w (List.mem_of_mem_filter hw)

theorem ledger_filter_pending (s : State) (test : Waiting → Bool) :
    s.ledger 0 =
      ({ s with
        pending := s.pending.mapValues fun _ (queue : List Waiting) =>
          queue.filter fun w => !test w }.ledger 0).plus
        (s.pending.entries.map fun (entry : UnitKey × List Waiting) =>
          queueHoldings entry.1 (entry.2.filter test)).sum := by
  ext1 <;> simp only [ledger, Ledger.plus, holdings]
  · rw [contents_filter s.pending test]
    abel
  · funext key
    rw [Table.contains, Table.contains, get?_mapValues, Option.isSome_map]

theorem ledger_continuations (s : State) :
    s.ledger 0 = ({ s with continuations := {} }.ledger 0).plus
      (s.continuations.contents fun _ continuation => {ongoing continuation}) := by
  ext1 <;> simp only [ledger, Ledger.plus, holdings]
  rw [contents_empty]
  abel

theorem moves_disconnect (s : State) (connection : ConnectionId) :
    Moves k (s.ledger 0) [] (s.abandoned connection) ((s.disconnect connection).ledger 0) := by
  let test : Waiting → Bool := fun w => w.subscription.connection = connection
  let left : State := { s with
    pending := s.pending.mapValues fun _ (queue : List Waiting) => queue.filter fun w => !test w }
  have habandoned : s.abandoned connection = s.pending.entries.flatMap fun entry =>
      (entry.2.filter test).map Waiting.reply := by
    rw [abandoned, values, List.flatMap_map]
  have hleft : Moves k (s.ledger 0) [] (s.abandoned connection) (left.ledger 0) := by
    rw [ledger_filter_pending s test, habandoned]
    exact moves_abandon test _ _
  have hmark : Moves k (left.ledger 0) [] [] ((s.disconnect connection).ledger 0) := by
    have hbase : { s.disconnect connection with continuations := {} } =
        { left with continuations := {} } := by
      simp only [disconnect, left, test, ne_eq, decide_not]
    have hbefore := ledger_continuations left
    have hafter : (s.disconnect connection).ledger 0 =
        ({ s.disconnect connection with continuations := {} }.ledger 0).plus
          ((s.continuations.mapValues fun _ c => markClosed connection c).contents
            fun _ continuation => {ongoing continuation}) := ledger_continuations _
    rw [hbase, contents_mapValues] at hafter
    rw [hbefore, hafter]
    exact moves_mark connection _ s.continuations.entries
  simpa only [List.append_nil] using hleft.trans hmark

theorem fits_markClosed {connection : ConnectionId} {continuation : Continuation} {call : Call}
    (h : continuation.Fits call) : (markClosed connection continuation).Fits call := by
  cases continuation with
  | subscribe key owner processor reply closed =>
    cases call with
    | add => exact h
    | _ => exact h.elim
  | _ => exact h

theorem notes_disconnect {turn : Turn} {connection : ConnectionId}
    (h : turn.Notes (s.disconnect connection)) : turn.Notes s where
  orderly := h.orderly
  later := h.later
  distinct := h.distinct
  numbered := h.numbered
  numbers := h.numbers
  held := h.held
  kept operation call hawaits := by
    obtain ⟨continuation, hget, hfits⟩ := hawaits
    refine h.kept operation call ⟨markClosed connection continuation, ?_, fits_markClosed hfits⟩
    simp only [disconnect, get?_mapValues, hget, Option.map_some]
  noted operation continuation hget := by
    rcases h.noted operation continuation hget with hold | hcall
    · simp only [disconnect, Table.contains, get?_mapValues, Option.isSome_map] at hold
      exact .inl hold
    · exact .inr hcall

theorem posts_sweepAll (h : s.Orderly) (connection : ConnectionId)
    (before : (s.ledger 0).Sound k) :
    (s.forEach s.processors fun s processor =>
      s.issue (.sweep processor connection) (.sweep processor connection)).Posts k s 0 [] 0 := by
  have hsum : (s.processors.map fun _ => (0 : Multiset Holding)).sum + 0 = 0 := by simp
  have hknown : ∀ processor ∈ s.processors, k.Knows (s.ledger 0).nextProcessor processor := by
    intro processor hmem
    obtain ⟨partition, bucket, hget, hmember⟩ := mem_processors.1 hmem
    have hheld : registered partition processor ∈ (s.ledger 0).holdings :=
      registered_mem_ledger.2 (.inl ⟨bucket, hget, hmember⟩)
    exact (before.proper _ hheld).2
  let Q : Ledger → Prop := fun b => ∀ processor ∈ s.processors, k.Knows b.nextProcessor processor
  have hstart : Q (s.ledger 0) := hknown
  rw [← hsum] at before hstart
  suffices hposts : (s.forEach s.processors fun s processor =>
      s.issue (.sweep processor connection) (.sweep processor connection)).Posts k s
        ((s.processors.map fun _ => (0 : Multiset Holding)).sum + 0) [] 0 by
    rwa [hsum] at hposts
  refine Posts.forEach (Q := Q) s.processors ?_ h before hstart
  intro s' others processor hmem hs' _ hQ
  have hfits : Continuation.Fits (.sweep processor connection) (.sweep processor connection) :=
    ⟨rfl, rfl⟩
  refine ⟨⟨.issue hs' hfits, ?_⟩, hQ⟩
  rw [ledger_issue hs'.fresh, zero_add]
  exact .single (.sweep _ processor connection (hQ processor hmem))

theorem posts_connectionClosed (h : s.Orderly) (told : k.told) (connection : ConnectionId)
    (before : (s.ledger 0).Sound k) :
    (s.connectionClosed connection).Posts k s 0 [] 0 := by
  let purged := s.purge fun entry => entry.connection = connection
  have hframe : purged = { s with index := purged.index, references := purged.references } :=
    unindexAll_eq _ s
  have hcontinuations := congrArg State.continuations hframe
  have hnext := congrArg State.nextOperation hframe
  have hpurge : purged.rest.Posts k s 0 [] 0 := posts_purge h told _
  have horderly := orderly_disconnect hpurge.notes.orderly connection
  have hdisconnect : Moves k (purged.ledger 0) [] (purged.abandoned connection)
      ((purged.disconnect connection).ledger 0) := moves_disconnect purged connection
  have hsound := hdisconnect.keep (fun move => move.sound) (hpurge.sound before)
  have hsweep := posts_sweepAll horderly connection hsound
  have hsettle := Notes.settleAll horderly (purged.abandoned connection)
    (.error (.connectionClosed connection))
  have hturn : s.connectionClosed connection =
      ((purged.disconnect connection).settleAll (purged.abandoned connection)
        (.error (.connectionClosed connection))).andThen fun s =>
          s.forEach s.processors fun s processor =>
            s.issue (.sweep processor connection) (.sweep processor connection) := rfl
  have hmoves := (hpurge.moves.trans hdisconnect).trans hsweep.moves
  rw [hturn]
  refine ⟨(notes_disconnect (hsettle.andThen ?_)).since hcontinuations hnext, ?_⟩
  · exact hsweep.notes
  · rw [signs_andThen, settled_andThen, signs_settleAll, settled_settleAll]
    exact hmoves

/-! ### Any message -/

theorem posts_handle (h : s.Orderly) {message : Message} (client : message.fromClient = true)
    (before : (s.ledger (owed message.reply?)).Sound k)
    (covers : k.Covers ⟨s, .told message, s.handle message⟩) :
    (s.handle message).Posts k s (owed message.reply?) [] 0 := by
  have htold : k.told := ⟨message, covers.event⟩
  cases message with
  | subscribe subscription reply =>
    refine posts_subscribe h fun hcontains => covers.assigned _ _ ?_
    rw [Moment.assigned?]
    exact if_pos hcontains
  | unsubscribe key reply => exact posts_unsubscribe h htold before
  | addPartition partition service =>
    exact posts_addPartition h before htold ⟨_, covers.event, rfl⟩
  | removePartition partition => exact posts_removePartition h before htold ⟨_, covers.event, rfl⟩
  | connectionClosed connection => exact posts_connectionClosed h htold connection before
  | snapshot reply => exact .settle h reply _ 0
  | resume => cases client
  | shutdown => cases client

/-- A call ends whose continuation was noted: the turn goes on with that in its hands. -/
theorem posts_resume (h : s.Orderly) (distinct : k.Distinct) {operation : OperationId}
    {continuation : Continuation} {call : Call}
    (noted : s.continuations.get? operation = some continuation) (fits : continuation.Fits call)
    (result : Except String call.Success) (before : (s.ledger 0).Sound k)
    (covers : k.Covers ⟨s, .ended operation call result,
      s.handle (.resume operation (call.outcome result))⟩) :
    (s.handle (.resume operation (call.outcome result))).Posts k
      { s with continuations := s.continuations.erase operation } {ongoing continuation}
      (Event.ended operation call result).signs 0 := by
  have huntold : ¬k.told := by
    rintro ⟨message, htold⟩
    cases covers.event.symm.trans htold
  have herase := orderly_erase_continuation h operation
  have hledger := ledger_erase_continuation noted 0
  rw [add_zero] at hledger
  rw [← hledger] at before
  rw [handle, resume, noted]
  cases continuation with
  | build unit =>
    cases call with
    | build other =>
      cases fits
      have hbuilt : ∀ runner, result = .ok runner → k.built ⟨⟨s.nextProcessor⟩, unit, runner⟩ := by
        intro runner hok
        apply covers.built
        subst hok
        rfl
      have hposts := posts_onBuilt herase before hbuilt
      cases result with
      | ok runner => exact hposts
      | error reason => exact hposts
    | _ => cases fits
  | subscribe key connection processor reply closed =>
    cases call with
    | add other subscription =>
      obtain ⟨rfl, hkey, -⟩ := fits
      refine posts_onAdded herase distinct huntold before fun hok => covers.accepted _ _ ?_
      subst hok
      rw [Moment.accepted?]
      simp only [hkey, Option.map_some]
    | _ => cases fits
  | unsubscribe processor reply =>
    cases call with
    | remove other key => exact posts_onRemoved herase distinct huntold before result
    | _ => cases fits
  | teardown processor reply =>
    cases call with
    | teardown other =>
      cases fits
      exact posts_onTornDown herase before result
    | _ => cases fits
  | sweep processor connection =>
    cases call with
    | remove other key => exact posts_onSwept herase distinct huntold before result
    | sweep other connection' => exact posts_onSwept herase distinct huntold before result
    | _ => cases fits

end State

end JobBroker.Manager
