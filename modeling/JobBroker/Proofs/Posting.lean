import JobBroker.Proofs.Books
import JobBroker.Proofs.Calls
import JobBroker.Proofs.Sound

/-!
# Turns as moves

A turn posts what it does to the ledger: from the ledger of the state that it began in, moves
lead to the ledger of the state that it ends in, they show the signs of the calls that were made,
and settle the futures that were settled. Here the turns of a processor's life are posted, those
out of which messages and ended calls are handled.
-/

namespace JobBroker.Manager

open Table Holding

namespace Turn

def signs (turn : Turn) : List Sign := (callsOf turn.effects).flatMap fun call => call.2.signs

def settled (turn : Turn) : List Ticket := (settledOf turn.effects).map Prod.fst

theorem signs_andThen (turn : Turn) (next : State → Turn) :
    (turn.andThen next).signs = turn.signs ++ (next turn.state).signs := by
  simp only [signs, effects_andThen, callsOf_append, List.flatMap_append]

theorem settled_andThen (turn : Turn) (next : State → Turn) :
    (turn.andThen next).settled = turn.settled ++ (next turn.state).settled := by
  simp only [settled, effects_andThen, settledOf, List.filterMap_append, List.map_append]

/-- A turn posts what it does: `noticed` is shown by what the turn comes after, `hand` and `hand'`
are in its hands before and after. -/
structure Posts (k : Knowledge) (s : State) (hand : Multiset Holding) (noticed : List Sign)
    (turn : Turn) (hand' : Multiset Holding) : Prop where
  notes : turn.Notes s
  moves : Moves k (s.ledger hand) (noticed ++ turn.signs) turn.settled (turn.state.ledger hand')

namespace Posts

variable {k : Knowledge} {s : State} {turn : Turn} {next : State → Turn}
  {hand hand' hand'' : Multiset Holding} {noticed noticed' : List Sign}

theorem sound (h : turn.Posts k s hand noticed hand') (before : (s.ledger hand).Sound k) :
    (turn.state.ledger hand').Sound k := h.moves.keep (fun move => move.sound) before

theorem andThen (h : turn.Posts k s hand noticed hand')
    (h' : (next turn.state).Posts k turn.state hand' [] hand'') :
    (turn.andThen next).Posts k s hand noticed hand'' where
  notes := h.notes.andThen h'.notes
  moves := by
    rw [signs_andThen, settled_andThen, ← List.append_assoc]
    exact h.moves.trans h'.moves

theorem andThen_noticed (h : turn.Posts k s hand [] hand') (silent : turn.signs = [])
    (h' : (next turn.state).Posts k turn.state hand' noticed hand'') :
    (turn.andThen next).Posts k s hand noticed hand'' where
  notes := h.notes.andThen h'.notes
  moves := by
    have hmoves := h.moves.trans h'.moves
    rw [silent] at hmoves
    rw [signs_andThen, settled_andThen, silent]
    exact hmoves

/-- A turn may as well begin before a change of the state that is posted. -/
theorem since {s' : State} (early : Moves k (s.ledger hand) noticed [] (s'.ledger hand'))
    (h : turn.Posts k s' hand' noticed' hand'')
    (continuations : s'.continuations = s.continuations)
    (next : s'.nextOperation = s.nextOperation) :
    turn.Posts k s hand (noticed ++ noticed') hand'' where
  notes := h.notes.since continuations next
  moves := by
    rw [List.append_assoc]
    exact early.trans h.moves

/-- A turn may as well begin before a change that the ledger does not tell. -/
theorem since_same {s' : State} (early : s.ledger hand = s'.ledger hand')
    (h : turn.Posts k s' hand' noticed hand'')
    (continuations : s'.continuations = s.continuations)
    (next : s'.nextOperation = s.nextOperation) : turn.Posts k s hand noticed hand'' where
  notes := h.notes.since continuations next
  moves := by
    rw [early]
    exact h.moves

theorem rest (h : s.Orderly) (hand : Multiset Holding) : s.rest.Posts k s hand [] hand :=
  ⟨.rest h, .rest _⟩

theorem settle (h : s.Orderly) (reply : Ticket) (result : Result) (hand : Multiset Holding) :
    (s.settle reply result).Posts k s ({owing reply} + hand) [] hand := by
  refine ⟨.settle h reply result, ?_⟩
  rw [State.ledger_add]
  exact .single (.settle _ reply)

theorem settle? (h : s.Orderly) (reply : Option Ticket) (result : Result)
    (hand : Multiset Holding) :
    (s.settle? reply result).Posts k s (owed reply + hand) [] hand := by
  cases reply with
  | none =>
    rw [owed, zero_add]
    exact rest h hand
  | some reply => exact settle h reply result hand

/-- A turn that does the same for every element of a list posts it element by element. The
condition `Q` is one that each step leaves true for the next. -/
theorem forEach {α : Type} {act : State → α → Turn} {hold : α → Multiset Holding}
    {Q : Ledger → Prop} {rest : Multiset Holding} (items : List α)
    (each : ∀ (s : State) (others : Multiset Holding), ∀ item ∈ items, s.Orderly →
      (s.ledger (hold item + others)).Sound k → Q (s.ledger (hold item + others)) →
      (act s item).Posts k s (hold item + others) [] others ∧ Q ((act s item).state.ledger others))
    (h : s.Orderly) (before : (s.ledger ((items.map hold).sum + rest)).Sound k)
    (start : Q (s.ledger ((items.map hold).sum + rest))) :
    (s.forEach items act).Posts k s ((items.map hold).sum + rest) [] rest := by
  induction items generalizing s with
  | nil =>
    rw [List.map_nil, List.sum_nil, zero_add]
    exact Posts.rest h rest
  | cons item items ih =>
    rw [List.map_cons, List.sum_cons, add_assoc] at before start ⊢
    obtain ⟨hfirst, hgoes⟩ := each s _ item (List.mem_cons_self ..) h before start
    refine hfirst.andThen (ih ?_ hfirst.notes.orderly (hfirst.sound before) hgoes)
    intro s others item hmem
    exact each s others item (List.mem_cons_of_mem _ hmem)

end Posts

end Turn

namespace State

open Turn

variable {k : Knowledge} {s : State} {hand : Multiset Holding}

theorem isUnreferenced_iff {id : ProcessorId} (h : s.Orderly) :
    s.isUnreferenced id = true ↔ (s.ledger hand).references id = 0 := by
  simp only [isUnreferenced, Table.contains, ledger]
  cases hget : s.references.get? id with
  | none => simp
  | some count =>
    have hpos := h.referred id count hget
    simp only [Option.isSome_some, Bool.not_true, Bool.false_eq_true, Option.getD_some, false_iff]
    omega

theorem state_settle? (s : State) (reply : Option Ticket) (result : Result) :
    (s.settle? reply result).state = s := by cases reply <;> rfl

theorem signs_settle? (s : State) (reply : Option Ticket) (result : Result) :
    (s.settle? reply result).signs = [] := by cases reply <;> rfl

theorem coe_map_eq_sum {α : Type} (hold : α → Holding) (items : List α) :
    (items.map hold : Multiset Holding) = (items.map fun item => {hold item}).sum := by
  induction items with
  | nil => rfl
  | cons item items ih =>
    rw [List.map_cons, List.map_cons, List.sum_cons, ← ih]
    rfl

/-! ### Handing over -/

theorem posts_forward (h : s.Orderly) {processor : Processor} {key : UnitKey} {w : Waiting}
    (named : w.subscription.key = some w.key)
    (found : registered key.partition processor ∈ (s.ledger hand).holdings)
    (jobType : processor.jobType = key.jobType) :
    (s.forward processor w).Posts k s ({waiting key w} + hand) [] hand := by
  have hacquire := orderly_acquire h processor.id
  have hfits : Continuation.Fits
      (.subscribe w.key w.subscription.connection processor w.reply false)
      (.add processor w.subscription) := ⟨rfl, named, rfl⟩
  refine ⟨(Notes.issue hacquire hfits).since rfl rfl, ?_⟩
  have hsigns : (s.forward processor w).signs = [.handed (some w.key) processor] := by
    rw [← named]
    rfl
  rw [hsigns, ledger_add, forward, ledger_issue hacquire.fresh, ledger_acquire]
  exact .single (.hand _ key w processor found jobType)

theorem moves_settleAll (b : Ledger) (key : UnitKey) (queue : List Waiting) :
    Moves k (b.plus (queueHoldings key queue)) [] (queue.map Waiting.reply) b := by
  induction queue with
  | nil =>
    rw [queueHoldings, List.map_nil, Multiset.coe_nil, Ledger.plus_zero]
    exact .rest b
  | cons w queue ih =>
    have hcons : queueHoldings key (w :: queue) = queueHoldings key queue + {waiting key w} := by
      rw [queueHoldings, List.map_cons, ← Multiset.cons_coe, ← Multiset.singleton_add, add_comm]
      rfl
    rw [hcons, ← Ledger.plus_plus]
    exact (Moves.single (.abandon _ key w)).trans ((Moves.single (.settle _ w.reply)).trans ih)

theorem settled_settleAll (s : State) (replies : List Ticket) (result : Result) :
    (s.settleAll replies result).settled = replies := by
  simp only [settled, settleAll]
  induction replies with
  | nil => rfl
  | cons reply rest ih => exact congrArg (reply :: ·) ih

theorem signs_settleAll (s : State) (replies : List Ticket) (result : Result) :
    (s.settleAll replies result).signs = [] := by
  rw [Turn.signs, settleAll, callsOf_settle, List.flatMap_nil]

theorem posts_settleAll (h : s.Orderly) (key : UnitKey) (queue : List Waiting) (result : Result) :
    (s.settleAll (queue.map Waiting.reply) result).Posts k s (queueHoldings key queue + hand) []
      hand := by
  refine ⟨.settleAll h _ result, ?_⟩
  rw [settled_settleAll, signs_settleAll, ledger_add]
  exact moves_settleAll (s.ledger hand) key queue

/-- Giving up on what waits for a unit, once the unit is no longer awaited. -/
theorem posts_failPending (h : s.Orderly) {key : UnitKey} {error : SubscriptionError}
    {early : Ledger} {noticed : List Sign}
    (first : Moves k early noticed [] ((s.ledger hand).forget key)) :
    Moves k early (noticed ++ (s.failPending key error).signs) (s.failPending key error).settled
      ((s.failPending key error).state.ledger hand) := by
  have hpost : ((({ s with pending := s.pending.erase key } : State).settleAll
      (((s.pending.get? key).getD []).map Waiting.reply) (.error error))).Posts k _
        (queueHoldings key ((s.pending.get? key).getD []) + hand) [] hand :=
    posts_settleAll (orderly_erase_pending h key) key _ (.error error)
  rw [← ledger_erase_pending] at first
  exact first.trans hpost.moves

theorem notes_failPending (h : s.Orderly) (key : UnitKey) (error : SubscriptionError) :
    (s.failPending key error).Notes s :=
  (Notes.settleAll (orderly_erase_pending h key) _ _).since rfl rfl

/-! ### Tearing down -/

theorem ledger_teardown (h : s.Orderly) (processor : Processor) (reply : Option Ticket) :
    (s.teardown processor reply).state.ledger hand =
      ((s.ledger hand).retire processor.key).plus {ongoing (.teardown processor reply)} := by
  have hretiring := orderly_insert_retiring h processor.key
    ((s.retiring.get? processor.key).getD 0)
  rw [teardown, ledger_issue hretiring.fresh]
  congr 1
  ext1 <;> simp only [ledger, Ledger.retire, holdings]
  funext key
  rw [get?_insert]
  split <;> simp_all

theorem notes_teardown (h : s.Orderly) (processor : Processor) (reply : Option Ticket) :
    (s.teardown processor reply).Notes s := by
  have hretiring := orderly_insert_retiring h processor.key
    ((s.retiring.get? processor.key).getD 0)
  have hfits : Continuation.Fits (.teardown processor reply) (.teardown processor) := rfl
  exact (Notes.issue hretiring hfits).since rfl rfl

/-- A processor that was registered is torn down, when nothing refers to it or its partition is
cleared. -/
theorem posts_teardown (h : s.Orderly) {processor : Processor} {reply : Option Ticket}
    (unused : (s.ledger hand).Dispensable k processor)
    (idle : reply = none ∨ ¬k.told ∧ (s.ledger hand).references processor.id = 0) :
    (s.teardown processor reply).Posts k s
      ({registered processor.partition processor} + (owed reply + hand)) [] hand := by
  refine ⟨notes_teardown h processor reply, ?_⟩
  rw [ledger_add, ledger_add, ledger_teardown h]
  cases reply with
  | none =>
    rw [owed, Ledger.plus_zero]
    exact .single (.retire _ processor unused)
  | some reply =>
    have hzero := idle.resolve_left (Option.some_ne_none reply)
    have hretire : Moves k (((s.ledger hand).plus {owing reply}).plus
        {registered processor.partition processor}) [.discarded processor] []
        ((((s.ledger hand).retire processor.key).plus {ongoing (.teardown processor none)}).plus
          {owing reply}) := by
      rw [Ledger.plus_comm _ {ongoing _}]
      exact .single (.retire _ processor (.inl hzero))
    exact hretire.trans (.single (.entrust _ processor reply))

/-- A processor of which nothing is left is retired, with the reply that waits for that. -/
theorem posts_retire (h : s.Orderly) (distinct : k.Distinct) (untold : ¬k.told)
    {processor : Processor} (reply : Option Ticket)
    (before : (s.ledger (owed reply + hand)).Sound k)
    (known : k.built processor) (unused : (s.ledger hand).references processor.id = 0) :
    (s.retire processor reply).Posts k s (owed reply + hand) [] hand := by
  unfold retire
  split
  next rest hdetached =>
    obtain ⟨bucket, hget, hdetach, hplaced⟩ := placed_detach h hdetached
    have hrest := orderly_insert_bucket h hplaced
    obtain ⟨found, hid, hledger⟩ := ledger_detach hget hdetach (owed reply + hand)
    have hfound : found = processor := by
      have hmem : registered processor.partition found ∈
          (s.ledger (owed reply + hand)).holdings := by
        rw [hledger]
        exact Ledger.mem_plus.2 (.inr rfl)
      exact distinct found processor (before.proper _ hmem).2.1 known hid
    subst hfound
    rw [← ledger_add] at hledger
    exact (posts_teardown hrest (.inl ⟨untold, unused⟩) (.inr ⟨untold, unused⟩)).since_same
      hledger rfl rfl
  next => exact .settle? h reply _ hand

/-! ### References that are given back -/

/-- An addition that has failed gives its reference back, and its reply is owed. -/
theorem posts_release (h : s.Orderly) (distinct : k.Distinct) (untold : ¬k.told)
    {key : SubscriberKey} {connection : ConnectionId} {processor : Processor} {reply : Ticket}
    {closed : Bool}
    (before : (s.ledger
      ({ongoing (.subscribe key connection processor reply closed)} + hand)).Sound k) :
    (s.release processor).Posts k s
      ({ongoing (.subscribe key connection processor reply closed)} + hand) []
      ({owing reply} + hand) := by
  have hdrop := orderly_dropReference h processor.id
  have hframe := dropReference_eq s processor.id
  have hrefuse : Move k (s.ledger
      ({ongoing (.subscribe key connection processor reply closed)} + hand)) [] []
      ((s.dropReference processor.id).ledger ({owing reply} + hand)) := by
    rw [ledger_add, ledger_add, ledger_dropReference]
    exact .refuse _ key connection processor reply closed
  have hknown : k.built processor := by
    rw [ledger_add] at before
    exact (before.proper _ (Ledger.mem_plus.2 (.inr rfl))).2.1
  have hcontinuations := congrArg State.continuations hframe
  have hnext := congrArg State.nextOperation hframe
  unfold release
  dsimp only
  split
  next hunused =>
    have hsound : ((s.dropReference processor.id).ledger
        (owed none + ({owing reply} + hand))).Sound k := by
      rw [owed, zero_add]
      exact hrefuse.sound before
    have hretire := posts_retire hdrop distinct untold none hsound hknown
      ((isUnreferenced_iff hdrop).1 hunused)
    rw [owed, zero_add] at hretire
    exact hretire.since (.single hrefuse) hcontinuations hnext
  next => exact (Posts.rest hdrop _).since (.single hrefuse) hcontinuations hnext

theorem move_unindex (told : k.told) {key : SubscriberKey} {entry : IndexEntry}
    (h : s.index.get? key = some entry) :
    Move k (s.ledger hand) [] [] ((s.unindex key).ledger hand) := by
  unfold unindex
  rw [h]
  dsimp only
  rw [← ledger_erase_index h, ledger_dropReference]
  exact .unindex _ key entry told

theorem moves_unindexAll (told : k.told) (keys : List SubscriberKey) (s : State) :
    Moves k (s.ledger hand) [] [] ((keys.foldl unindex s).ledger hand) := by
  induction keys generalizing s with
  | nil => exact .rest _
  | cons key keys ih =>
    have hfirst : Moves k (s.ledger hand) [] [] ((s.unindex key).ledger hand) := by
      cases hget : s.index.get? key with
      | none =>
        rw [unindex, hget]
        exact .rest _
      | some entry => exact .single (move_unindex told hget)
    exact hfirst.trans (ih (s.unindex key))

theorem posts_discardBucket (h : s.Orderly) {partition : PartitionId} (bucket : Bucket)
    (before : (s.ledger (bucketHoldings partition bucket)).Sound k) (told : k.told)
    (cleared : k.cleared partition) :
    (s.discardBucket partition (some bucket)).Posts k s (bucketHoldings partition bucket) [] 0 := by
  let purged := s.purge fun entry => entry.processor.partition = partition
  have hframe : purged = { s with index := purged.index, references := purged.references } :=
    unindexAll_eq _ s
  have hmoves : Moves k (s.ledger (bucketHoldings partition bucket)) [] []
      (purged.ledger (bucketHoldings partition bucket)) := moves_unindexAll told _ s
  have hcontinuations := congrArg State.continuations hframe
  have hnext := congrArg State.nextOperation hframe
  have horderly : purged.Orderly := orderly_unindexAll _ h
  -- from here on no index entry leads to the partition
  let Q : Ledger → Prop := fun b => ∀ key entry, indexed key entry ∈ b.holdings →
    entry.processor.partition ≠ partition
  have hsum : bucketHoldings partition bucket =
      (bucket.processors.map fun processor => ({registered partition processor} : Multiset _)).sum
        + 0 := by rw [add_zero, bucketHoldings, coe_map_eq_sum]
  have hstart : Q (purged.ledger (bucketHoldings partition bucket)) := by
    intro key entry hmem
    rcases indexed_mem_ledger.1 hmem with hindex | hhand
    · simpa using (index_purge hindex).2
    · simp [bucketHoldings] at hhand
  have hsound := hmoves.keep (fun move => move.sound) before
  rw [hsum] at hstart hsound hmoves ⊢
  suffices hposts : (purged.forEach bucket.processors fun s processor =>
      s.teardown processor none).Posts k purged _ [] 0 from
    hposts.since hmoves hcontinuations hnext
  refine Posts.forEach (Q := Q) bucket.processors ?_ horderly hsound hstart
  intro s others processor _ hs hsound hQ
  have hpartition : processor.partition = partition := by
    rw [ledger_add] at hsound
    exact (hsound.proper _ (Ledger.mem_plus.2 (.inr rfl))).1
  have hother : Q (s.ledger others) := by
    intro key entry hmem
    rw [ledger_add] at hQ
    exact hQ key entry (Ledger.mem_plus.2 (.inl hmem))
  subst hpartition
  have hteardown : (s.teardown processor none).Posts k s
      ({registered processor.partition processor} + (owed none + others)) [] others :=
    posts_teardown hs (.inr ⟨cleared, hother⟩) (.inl rfl)
  rw [owed, zero_add] at hteardown
  refine ⟨hteardown, ?_⟩
  intro key entry hmem
  rw [ledger_teardown hs] at hmem
  rcases Ledger.mem_plus.1 hmem with hmem | hmem
  · exact hother key entry hmem
  · cases hmem

end State

end JobBroker.Manager
