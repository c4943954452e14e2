import JobBroker.Proofs.Ensemble

/-!
# The lists at rest

Once every call has been heard of, the lists of the registered processors agree with the index, and
no processor is kept for nothing. Nothing is missing from the lists either, if no connection comes
back that has closed: a processor drops what belongs to a closed connection at some later time, and
would drop what has come in between with it.
-/

namespace JobBroker.Manager

open Holding Table

namespace World

variable {w w' : World} {creditCapacity : Nat} {key : SubscriberKey}
  {connection : ConnectionId} {processor : Processor}

/-! ### Connections that do not come back -/

/-- No subscription of a connection is handled once the close of the connection was. -/
def Parted (w : World) : Prop :=
  w.history.Pairwise fun earlier later => ∀ connection subscription reply,
    earlier.event = .told (.connectionClosed connection) →
    later.event = .told (.subscribe subscription reply) → subscription.connection ≠ connection

theorem Parted.back (h : w'.Parted) (step : Step w w') : w.Parted :=
  h.sublist (history_of_steps (.single step)).sublist

theorem steps_of_reachable (h : Reachable creditCapacity w) :
    Relation.ReflTransGen Step (initial creditCapacity) w := by
  induction h with
  | start => exact .refl
  | next _ step ih => exact ih.tail step

theorem closed_of_swept (h : Reachable creditCapacity w)
    (swept : .sweep processor connection ∈ w.withdrawals) :
    ∃ moment ∈ w.history, moment.event = .told (.connectionClosed connection) := by
  induction h with
  | start => cases swept
  | @next w w' reached step ih =>
    have hconsistent := consistent_of_reachable reached
    obtain ⟨moment, hposted⟩ := posted_of_step hconsistent step
    rw [hposted.withdrawals hconsistent step, List.mem_append] at swept
    rw [hposted.history]
    rcases swept with hold | hnew
    · obtain ⟨closing, hclosing, hevent⟩ := ih hold
      exact ⟨closing, List.mem_append_left _ hclosing, hevent⟩
    · exact ⟨moment, List.mem_append_right _ (List.mem_singleton_self _), (swept_cases hnew).1⟩

/-- What a processor was told to drop with its connection is on its way and marked, or gone. -/
theorem marked_of_swept (h : Reachable creditCapacity w) (parted : w.Parted)
    (swept : .sweep processor connection ∈ w.withdrawals) {thing : Holding}
    (held : thing ∈ (w.state.ledger 0).holdings) (named : thing.key? = some key)
    (owned : thing.client? = some connection) :
    ∃ owner reply, thing = ongoing (.subscribe key connection owner reply true) := by
  obtain ⟨closing, hclosing, hevent⟩ := closed_of_swept h swept
  obtain ⟨subscription, hassigned, howner⟩ := assigned_of_held h held named owned
  rcases moments_of_steps .start (steps_of_reachable h) closing hclosing with
    hnone | ⟨v, v', hsteps, hstep, hposted, hlater⟩
  · cases hnone
  have hreached := reachable_of_steps .start hsteps
  have hclosed : v' = v.tell (.connectionClosed connection) := by
    rw [hposted.after, hposted.told _ hevent, hevent]
    rfl
  obtain ⟨rest, hrest⟩ := history_of_steps hlater
  rw [hposted.history] at hrest
  obtain ⟨asking, hasking, hgiven⟩ := List.mem_filterMap.1 hassigned
  rw [← hrest, List.append_assoc, List.mem_append, List.mem_append, List.mem_singleton] at hasking
  rcases hasking with hearly | rfl | hlate
  · have hbefore : (key, subscription) ∈ v.assigned := List.mem_filterMap.2 ⟨_, hearly, hgiven⟩
    rw [hclosed] at hlater
    obtain ⟨owner, reply, heq, -⟩ := marked_of_steps hreached hlater hbefore howner held named
    exact ⟨owner, reply, heq⟩
  · rw [Moment.assigned?, hevent] at hgiven
    cases hgiven
  · -- nothing was given a key for the connection later
    rw [Parted, ← hrest, List.append_assoc, List.pairwise_append] at parted
    have hnever := (List.pairwise_cons.1 parted.2.1).1 asking hlate
    unfold Moment.assigned? at hgiven
    split at hgiven
    next other reply htold =>
      split at hgiven
      next =>
        cases hgiven
        exact absurd howner (hnever connection _ reply hevent htold)
      next => cases hgiven
    next => cases hgiven

end World

namespace Ensemble

open World

variable {e e' : Ensemble} {moment : Moment} {creditCapacity : Nat} {processor : Processor}
  {held : SubscriberKey × ConnectionId} {report : Report} {rosters : Processor → Roster}

/-! ### Nothing is missing -/

/-- What is active is on the list of its processor, and so is what the processor has accepted while
its connection was open. -/
structure Listed (e : Ensemble) : Prop where
  active : ∀ key entry, e.world.state.index.get? key = some entry →
    (key, entry.connection) ∈ e.rosters entry.processor
  accepted : ∀ report ∈ e.reports, ∀ processor held reply, report.Accepts processor held →
    e.world.state.continuations.get? report.operation =
      some (.subscribe held.1 held.2 processor reply false) → held ∈ e.rosters processor

theorem Proceeds.listed (h : Manager.Reachable creditCapacity e.world) (orderly : e.Orderly)
    (before : e.Listed) (proceeds : e.Proceeds moment e') : e'.Listed where
  active key entry found := by
    rw [proceeds.rosters]
    by_cases hold : e.world.state.index.get? key = some entry
    · exact before.active key entry hold
    · obtain ⟨operation, subscription, reply, hevent, hnoted⟩ :=
        proceeds.posted.index_new h proceeds.step found hold
      have hreport := proceeds.heard _ _ _ hevent
      have hmade := orderly.made _ hreport
      obtain ⟨continuation, hnoted', hfits⟩ := (consistent_of_reachable h).awaits _ hmade
      rw [hnoted] at hnoted'
      cases hnoted'
      exact before.accepted _ hreport entry.processor (key, entry.connection) reply
        ⟨operation, subscription, rfl, hfits.2⟩ hnoted
  accepted report hreport processor held reply accepts noted := by
    rw [proceeds.rosters]
    obtain ⟨hold, hgoing⟩ := (proceeds.unheard report).1 hreport
    obtain ⟨reply', closed, hnoted⟩ := noted_of_accepts h (orderly.made _ hold) accepts
    -- what is not marked now was not marked before
    rcases proceeds.posted.goes_on (consistent_of_reachable h) hnoted hgoing with hgoes | hmarked
    · cases noted.symm.trans hgoes
      exact before.accepted report hold processor held reply accepts hnoted
    · cases noted.symm.trans hmarked

/-- No call is there to drop what is held and not marked. -/
theorem not_drops_of_held (h : Manager.Reachable creditCapacity e.world) (parted : e.world.Parted)
    (made : (report.operation, report.call) ∈ e.world.outstanding) {thing : Holding}
    (there : thing ∈ (e.world.state.ledger 0).holdings) (named : thing.key? = some held.1)
    (owned : thing.client? = some held.2)
    (unmarked : ∀ owner reply, thing ≠ ongoing (.subscribe held.1 held.2 owner reply true)) :
    ¬report.call.Drops processor held := by
  have hmade : report.call ∈ e.world.calls.map Prod.snd :=
    List.mem_map.2 ⟨_, (mem_outstanding.1 made).1, rfl⟩
  rintro (heq | heq) <;> rw [heq] at hmade
  · have hgone := gone_of_removed h (List.mem_filter.2 ⟨hmade, rfl⟩)
    rw [State.standing_of_held (consistent_of_reachable h).sound there named] at hgone
    exact standing_ne_gone named hgone
  · obtain ⟨owner, reply, hmarked⟩ :=
      marked_of_swept h parted (List.mem_filter.2 ⟨hmade, rfl⟩) there named owned
    exact unmarked owner reply hmarked

theorem listed_served (h : Manager.Reachable creditCapacity e.world) (parted : e.world.Parted)
    (before : e.Listed)
    (waits : (report.operation, report.call) ∈ e.unserved)
    (serves : Serves e.rosters report rosters) : (e.served report rosters).Listed where
  active key entry found := by
    have hheld : indexed key entry ∈ (e.world.state.ledger 0).holdings :=
      State.indexed_mem_ledger.2 (.inl found)
    refine serves.stays (before.active key entry found) ?_
    exact not_drops_of_held h parted (mem_unserved.1 waits).1 hheld rfl rfl
      fun _ _ => Holding.noConfusion
  accepted other hother processor held reply accepts noted := by
    rcases List.mem_append.1 hother with hold | hnew
    · have hheld : ongoing (.subscribe held.1 held.2 processor reply false) ∈
          (e.world.state.ledger 0).holdings := State.ongoing_mem_ledger.2 (.inl ⟨_, noted⟩)
      refine serves.stays (before.accepted other hold processor held reply accepts noted) ?_
      refine not_drops_of_held h parted (mem_unserved.1 waits).1 hheld rfl rfl ?_
      intro owner reply' heq
      cases heq
    · rw [List.mem_singleton.1 hnew] at accepts
      exact serves.accepted accepts

theorem listed_of_reachable (h : Reachable creditCapacity e) (parted : e.world.Parted) :
    e.Listed := by
  induction h with
  | start =>
    exact ⟨fun key entry found => (by cases found), fun report hreport => (by cases hreport)⟩
  | next reached step ih =>
    obtain ⟨hreached, haccounts⟩ := accounts_of_reachable reached
    rcases step.proceeds_or_serves hreached haccounts.toOrderly with
      ⟨moment, hproceeds⟩ | ⟨report, rosters, hwaits, hserves, rfl⟩
    · exact hproceeds.listed hreached haccounts.toOrderly (ih (parted.back hproceeds.step))
    · exact listed_served hreached parted (ih parted) hwaits hserves

/-! ### Rest -/

section

variable (h : Reachable creditCapacity e) (rest : e.world.outstanding = [])
include h rest

/-- At rest what is on the list of a registered processor is active there. -/
theorem active_of_rest (here : processor ∈ e.world.state.processors)
    (listed : held ∈ e.rosters processor) :
    e.world.state.index.get? held.1 = some ⟨processor, held.2⟩ := by
  obtain ⟨-, haccounts⟩ := accounts_of_reachable h
  rcases haccounts.covered processor here held listed with
    hactive | ⟨report, hreport, -⟩ | ⟨call, hcall, -⟩
  · exact hactive
  · have hmade := haccounts.made report hreport
    rw [rest] at hmade
    cases hmade
  · have hout := (mem_unserved.1 hcall).1
    rw [rest] at hout
    cases hout

/-- At rest an index entry leads to every registered processor. -/
theorem indexed_of_rest (here : processor ∈ e.world.state.processors) :
    ∃ key entry, e.world.state.index.get? key = some entry ∧ entry.processor = processor := by
  obtain ⟨hreached, haccounts⟩ := accounts_of_reachable h
  have hreferenced : e.world.state.isUnreferenced processor.id = false := by
    rw [← Bool.not_eq_true]
    intro hunreferenced
    rcases haccounts.watched processor here hunreferenced with
      ⟨call, hcall, -⟩ | ⟨report, hreport, -⟩
    · have hout := (mem_unserved.1 hcall).1
      rw [rest] at hout
      cases hout
    · have hmade := haccounts.made report hreport
      rw [rest] at hmade
      cases hmade
  refine (referenced_cases hreached here hreferenced).resolve_right ?_
  rintro ⟨operation, key, connection, reply, closed, hnoted⟩
  rw [continuations_of_rest hreached rest operation] at hnoted
  cases hnoted

end

/-- When processors are truthful and every call has been heard of, exactly those processors are
registered that an index entry leads to, and what is on their lists is in the index and leads to
them. If moreover no connection subscribes after it has closed, the list of a registered processor
has exactly the keys that the index has for it. -/
theorem rosters_exact (h : Reachable creditCapacity e) (rest : e.world.outstanding = []) :
    (∀ processor, processor ∈ e.world.state.processors ↔
      ∃ key entry, e.world.state.index.get? key = some entry ∧ entry.processor = processor) ∧
    (∀ processor ∈ e.world.state.processors, ∀ held ∈ e.rosters processor,
      e.world.state.index.get? held.1 = some ⟨processor, held.2⟩) ∧
    (e.world.Parted → ∀ processor ∈ e.world.state.processors,
      ((e.rosters processor).map Prod.fst).Perm
        (e.world.state.index.keysWhere fun entry => entry.processor = processor)) := by
  obtain ⟨hreached, haccounts⟩ := accounts_of_reachable h
  refine ⟨?_, fun processor here held listed => active_of_rest h rest here listed, ?_⟩
  · intro processor
    refine ⟨indexed_of_rest h rest, ?_⟩
    rintro ⟨key, entry, hentry, rfl⟩
    exact member_of_index hreached hentry
  · intro parted processor here
    have hlisted := listed_of_reachable h parted
    refine (List.perm_ext_iff_of_nodup (haccounts.distinct processor) ?_).2 fun key => ?_
    · exact e.world.state.index.distinct.sublist (List.filter_sublist.map Prod.fst)
    · rw [List.mem_map, mem_keysWhere]
      constructor
      · rintro ⟨held, hmem, rfl⟩
        exact ⟨_, active_of_rest h rest here hmem, decide_eq_true rfl⟩
      · rintro ⟨entry, hentry, heq⟩
        cases of_decide_eq_true heq
        exact ⟨_, hlisted.active key entry hentry, rfl⟩

/-! ### One run -/

/-- The manager may hear of a call as soon as it was served. -/
theorem Reachable.answered {world : World} {rosters' : Processor → Roster}
    (h : Reachable creditCapacity ⟨world, rosters, []⟩)
    (waits : (report.operation, report.call) ∈ world.outstanding)
    (serves : Serves rosters report rosters') :
    Reachable creditCapacity
      ⟨world.finish report.operation report.call report.result, rosters', []⟩ := by
  have hunserved : (report.operation, report.call) ∈ unserved ⟨world, rosters, []⟩ :=
    mem_unserved.2 ⟨waits, fun _ hnone => absurd hnone List.not_mem_nil⟩
  have hheard := (h.next (.serve hunserved serves)).next (.hear report (List.mem_singleton_self _))
  simpa using hheard

open Sample in
def overlapping : World := removing.tell (.subscribe subscription ⟨2⟩)

open Sample in
/-- The processor was found empty while another subscription was on its way to it. -/
def emptied : World := overlapping.finish ⟨2⟩ (.remove Sample.processor ⟨0⟩) (.ok false)

open Sample in
def refilled : World :=
  emptied.finish ⟨3⟩ (.add Sample.processor { subscription with key := some ⟨1⟩ }) (.ok ())

open Sample in
def oneListed (key : SubscriberKey) : Processor → Roster :=
  Function.update (fun _ => []) Sample.processor [(key, subscription.connection)]

open Sample in
theorem reachable_refilled : Reachable 2 ⟨refilled, oneListed ⟨1⟩, []⟩ := by
  have hbuilding : Reachable 2 ⟨building, fun _ => [], []⟩ :=
    (Reachable.start.next (.work (.tell _ rfl) rfl)).next (.work (.tell _ rfl) rfl)
  have hadding : Reachable 2 ⟨adding, fun _ => [], []⟩ :=
    hbuilding.answered (by decide +kernel) (.build ⟨0⟩ unit (.ok ⟨7⟩))
  have hactive : Reachable 2 ⟨active, oneListed ⟨0⟩, []⟩ :=
    hadding.answered (by decide +kernel)
      (.accept ⟨1⟩ Sample.processor { subscription with key := some ⟨0⟩ })
  have hoverlapping : Reachable 2 ⟨overlapping, oneListed ⟨0⟩, []⟩ :=
    (hactive.next (.work (.tell _ rfl) rfl)).next (.work (.tell _ rfl) rfl)
  have hdropped : [] = (oneListed ⟨0⟩ Sample.processor).filter fun held => held.1 ≠ ⟨0⟩ := by
    simp [oneListed]
  have hnone : Function.update (oneListed ⟨0⟩) Sample.processor [] = fun _ => [] := by
    simp [oneListed]
  have hemptied := hoverlapping.answered (by decide +kernel)
    (.remove ⟨2⟩ Sample.processor ⟨0⟩ [] hdropped)
  rw [hnone] at hemptied
  exact hemptied.answered (by decide +kernel)
    (.accept ⟨3⟩ Sample.processor { subscription with key := some ⟨1⟩ })

open Sample in
theorem rosters_exact_sample :
    (∃ key entry, refilled.state.index.get? key = some entry ∧
        entry.processor = Sample.processor) ∧
      refilled.state.index.get? ⟨1⟩ = some ⟨Sample.processor, ⟨5⟩⟩ ∧
      ((oneListed ⟨1⟩ Sample.processor).map Prod.fst).Perm
        (refilled.state.index.keysWhere fun entry => entry.processor = Sample.processor) := by
  have hparted : refilled.Parted := by
    refine .cons ?_ (.cons ?_ (.cons ?_ (.cons ?_ (.cons ?_ (.cons ?_ (.cons ?_ (.cons ?_ .nil)))))))
    all_goals
      intro later hlater connection subscription reply closing
      cases closing
  have hhere : Sample.processor ∈ refilled.state.processors := by decide +kernel
  have hlisted : oneListed ⟨1⟩ Sample.processor = [(⟨1⟩, ⟨5⟩)] := by
    simp [oneListed, subscription]
  obtain ⟨hunits, hindexed, hexact⟩ := rosters_exact reachable_refilled (by decide +kernel)
  refine ⟨(hunits _).1 hhere, hindexed _ hhere (⟨1⟩, ⟨5⟩) ?_, hexact hparted _ hhere⟩
  show _ ∈ oneListed ⟨1⟩ Sample.processor
  rw [hlisted]
  exact List.mem_singleton_self _

end Ensemble

end JobBroker.Manager
