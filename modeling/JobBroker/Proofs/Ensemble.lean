import JobBroker.Proofs.Vacancies
import Mathlib.Logic.Function.Basic

/-!
# A manager among its processors

A truthful processor keeps a list of the subscriptions that it has accepted, and drops from it what
it is told to. It serves a call at one time, and the manager hears of it at another: what has been
reported in between may no longer be so. What is on a list is active all the same, or the manager
will hear of it, or the processor will be told to drop it; and of a processor without references
the manager will hear that it holds nothing.
-/

namespace JobBroker.Manager

open Holding Table

/-! ### Truthful processors -/

/-- What a processor has on its list, with the connections that the subscriptions came from. -/
abbrev Roster := List (SubscriberKey × ConnectionId)

def Roster.of (subscription : JobSubscription) : Roster :=
  subscription.key.toList.map fun key => (key, subscription.connection)

/-- A call that was served, with what its collaborator has reported. -/
structure Report where
  operation : OperationId
  call : Call
  result : Except String call.Success

/-- A processor has reported that it has put something on its list. -/
def Report.Accepts (report : Report) (processor : Processor)
    (held : SubscriberKey × ConnectionId) : Prop :=
  ∃ operation subscription, report = ⟨operation, .add processor subscription, .ok ()⟩ ∧
    subscription.key = some held.1 ∧ subscription.connection = held.2

/-- A call tells a processor to take something off its list. -/
def Call.Drops (call : Call) (processor : Processor) (held : SubscriberKey × ConnectionId) : Prop :=
  call = .remove processor held.1 ∨ call = .sweep processor held.2

theorem Call.Drops.drained {call : Call} {processor : Processor}
    {held : SubscriberKey × ConnectionId} (h : call.Drops processor held) :
    call.drained? = some processor := by
  rcases h with rfl | rfl <;> rfl

/-- How a call may be served, and what becomes of the lists. Processors that are told to drop
something do so and tell whether anything remains; all other calls end as they like. -/
inductive Serves (rosters : Processor → Roster) : Report → (Processor → Roster) → Prop where
  | build (operation : OperationId) (unit : ActivationUnit) (result : Except String Runner) :
      Serves rosters ⟨operation, .build unit, result⟩ rosters
  | teardown (operation : OperationId) (processor : Processor) (result : Except String Unit) :
      Serves rosters ⟨operation, .teardown processor, result⟩ rosters
  | refuse (operation : OperationId) (processor : Processor) (subscription : JobSubscription)
      (reason : String) :
      Serves rosters ⟨operation, .add processor subscription, .error reason⟩ rosters
  | accept (operation : OperationId) (processor : Processor) (subscription : JobSubscription) :
      Serves rosters ⟨operation, .add processor subscription, .ok ()⟩
        (Function.update rosters processor (rosters processor ++ .of subscription))
  | remove (operation : OperationId) (processor : Processor) (key : SubscriberKey) (rest : Roster)
      (dropped : rest = (rosters processor).filter fun held => held.1 ≠ key) :
      Serves rosters ⟨operation, .remove processor key, .ok !rest.isEmpty⟩
        (Function.update rosters processor rest)
  | sweep (operation : OperationId) (processor : Processor) (connection : ConnectionId)
      (rest : Roster)
      (dropped : rest = (rosters processor).filter fun held => held.2 ≠ connection) :
      Serves rosters ⟨operation, .sweep processor connection, .ok !rest.isEmpty⟩
        (Function.update rosters processor rest)

namespace Serves

variable {rosters rosters' : Processor → Roster} {report : Report} {processor : Processor}
  {held : SubscriberKey × ConnectionId}

/-- Every call can be served. -/
theorem exists_report (rosters : Processor → Roster) (operation : OperationId) (call : Call) :
    ∃ result rosters', Serves rosters ⟨operation, call, result⟩ rosters' := by
  cases call with
  | build unit => exact ⟨.error "", _, .build operation unit _⟩
  | add processor subscription => exact ⟨_, _, .accept operation processor subscription⟩
  | remove processor key => exact ⟨_, _, .remove operation processor key _ rfl⟩
  | sweep processor connection => exact ⟨_, _, .sweep operation processor connection _ rfl⟩
  | teardown processor => exact ⟨.ok (), _, .teardown operation processor _⟩

theorem mem_of {subscription : JobSubscription} :
    held ∈ Roster.of subscription ↔
      subscription.key = some held.1 ∧ subscription.connection = held.2 := by
  simp only [Roster.of, List.mem_map, Option.mem_toList, Prod.ext_iff]
  constructor
  · rintro ⟨key, hkey, rfl, hconnection⟩
    exact ⟨hkey, hconnection⟩
  · rintro ⟨hkey, hconnection⟩
    exact ⟨_, hkey, rfl, hconnection⟩

theorem mem_accepted {other : Processor} {entries : Roster} :
    held ∈ Function.update rosters other (rosters other ++ entries) processor ↔
      held ∈ rosters processor ∨ processor = other ∧ held ∈ entries := by
  rw [Function.update_apply]
  split
  next heq => simp only [heq, List.mem_append, true_and]
  next hne => simp only [hne, false_and, or_false]

theorem mem_dropped {other : Processor} {keeps : SubscriberKey × ConnectionId → Bool} :
    held ∈ Function.update rosters other ((rosters other).filter keeps) processor ↔
      held ∈ rosters processor ∧ (processor = other → keeps held = true) := by
  rw [Function.update_apply]
  split
  next heq => simp only [heq, List.mem_filter, forall_const]
  next hne => simp only [hne, false_imp_iff, and_true]

/-- What is on a list was there before and was not to be dropped, or has just been accepted. -/
theorem back (h : Serves rosters report rosters') (listed : held ∈ rosters' processor) :
    (held ∈ rosters processor ∧ ¬report.call.Drops processor held) ∨
      report.Accepts processor held := by
  cases h with
  | build | teardown | refuse => exact .inl ⟨listed, by simp [Call.Drops]⟩
  | accept operation other subscription =>
    rcases mem_accepted.1 listed with hold | ⟨rfl, hnew⟩
    · exact .inl ⟨hold, by simp [Call.Drops]⟩
    · exact .inr ⟨operation, subscription, rfl, mem_of.1 hnew⟩
  | remove operation other key rest dropped =>
    subst dropped
    obtain ⟨hold, hkeeps⟩ := mem_dropped.1 listed
    refine .inl ⟨hold, ?_⟩
    rintro (heq | heq) <;> cases heq
    simpa using hkeeps rfl
  | sweep operation other connection rest dropped =>
    subst dropped
    obtain ⟨hold, hkeeps⟩ := mem_dropped.1 listed
    refine .inl ⟨hold, ?_⟩
    rintro (heq | heq) <;> cases heq
    simpa using hkeeps rfl

/-- What is on a list stays there, unless it is to be dropped. -/
theorem stays (h : Serves rosters report rosters') (listed : held ∈ rosters processor)
    (kept : ¬report.call.Drops processor held) : held ∈ rosters' processor := by
  cases h with
  | build | teardown | refuse => exact listed
  | accept operation other subscription => exact mem_accepted.2 (.inl listed)
  | remove operation other key rest dropped =>
    subst dropped
    refine mem_dropped.2 ⟨listed, ?_⟩
    rintro rfl
    exact decide_eq_true fun heq => kept (.inl (congrArg _ heq.symm))
  | sweep operation other connection rest dropped =>
    subst dropped
    refine mem_dropped.2 ⟨listed, ?_⟩
    rintro rfl
    exact decide_eq_true fun heq => kept (.inr (congrArg _ heq.symm))

/-- What a processor has accepted is on its list. -/
theorem accepted (h : Serves rosters report rosters') (accepts : report.Accepts processor held) :
    held ∈ rosters' processor := by
  obtain ⟨operation, subscription, rfl, hlisted⟩ := accepts
  cases h with
  | accept => exact mem_accepted.2 (.inr ⟨rfl, mem_of.2 hlisted⟩)

/-- A processor that was told to drop something reports to hold nothing, or does hold something. -/
theorem emptied (h : Serves rosters report rosters')
    (drained : report.call.drained? = some processor) :
    report.call.emptied? report.result = some processor ∨
      ∃ held, held ∈ rosters' processor := by
  have hrest : ∀ rest : Roster, rest.isEmpty = true ∨ ∃ held, held ∈ rest := by
    intro rest
    cases rest with
    | nil => exact .inl rfl
    | cons held rest => exact .inr ⟨held, List.mem_cons_self ..⟩
  cases h with
  | build | teardown | refuse | accept => cases drained
  | remove operation other key rest dropped =>
    cases drained
    rcases hrest rest with hempty | hsome
    · exact .inl (by simp [Call.emptied?, hempty])
    · exact .inr (by simpa using hsome)
  | sweep operation other connection rest dropped =>
    cases drained
    rcases hrest rest with hempty | hsome
    · exact .inl (by simp [Call.emptied?, hempty])
    · exact .inr (by simpa using hsome)

/-- A list on which no key occurs twice stays one if what is accepted is new. -/
theorem distinct (h : Serves rosters report rosters')
    (before : ((rosters processor).map Prod.fst).Nodup)
    (new : ∀ subscription key, report.call = .add processor subscription →
      subscription.key = some key → key ∉ (rosters processor).map Prod.fst) :
    ((rosters' processor).map Prod.fst).Nodup := by
  cases h with
  | build | teardown | refuse => exact before
  | accept operation other subscription =>
    rw [Function.update_apply]
    split
    next heq =>
      subst heq
      rw [List.map_append, Roster.of]
      cases hkey : subscription.key with
      | none => simpa using before
      | some key =>
        refine List.nodup_append.2 ⟨before, List.nodup_singleton _, ?_⟩
        intro old hold other hother heq
        rw [heq, List.mem_singleton.1 hother] at hold
        exact new subscription key rfl hkey hold
    next => exact before
  | remove operation other key rest dropped | sweep operation other connection rest dropped =>
    rw [Function.update_apply]
    split
    next heq =>
      subst heq
      rw [dropped]
      exact before.sublist (List.filter_sublist.map Prod.fst)
    next => exact before

end Serves

/-! ### Ensembles -/

/-- A manager with its history, the lists of the processors, and what collaborators have reported
that the manager has not heard of. -/
structure Ensemble where
  world : World
  rosters : Processor → Roster
  reports : List Report

namespace Ensemble

open World

def initial (creditCapacity : Nat) : Ensemble where
  world := .initial creditCapacity
  rosters _ := []
  reports := []

/-- The calls that have not been served. -/
def unserved (e : Ensemble) : List (OperationId × Call) :=
  e.world.outstanding.filter fun call => call.1 ∉ e.reports.map Report.operation

/-- What can happen next: something to the manager that ends no call, a call is served, or the
manager hears of one that was. Calls are served and heard of in any order. -/
inductive Step (e : Ensemble) : Ensemble → Prop where
  | work {world : World} (step : Manager.Step e.world world)
      (unended : world.endings = e.world.endings) : Step e { e with world }
  | serve {report : Report} {rosters : Processor → Roster}
      (waits : (report.operation, report.call) ∈ e.unserved)
      (served : Serves e.rosters report rosters) :
      Step e { e with rosters, reports := e.reports ++ [report] }
  | hear (report : Report) (made : report ∈ e.reports) :
      Step e { e with
        world := e.world.finish report.operation report.call report.result
        reports := e.reports.filter fun other => other.operation ≠ report.operation }

inductive Reachable (creditCapacity : Nat) : Ensemble → Prop where
  | start : Reachable creditCapacity (initial creditCapacity)
  | next {e e' : Ensemble} : Reachable creditCapacity e → Step e e' → Reachable creditCapacity e'

/-- The reports are of calls that are outstanding, at most one of each. -/
structure Orderly (e : Ensemble) : Prop where
  made : ∀ report ∈ e.reports, (report.operation, report.call) ∈ e.world.outstanding
  once : ∀ report ∈ e.reports, ∀ other ∈ e.reports, other.operation = report.operation →
    other = report

/-- The manager does something, and at most hears of one call. -/
structure Proceeds (e : Ensemble) (moment : Moment) (e' : Ensemble) : Prop where
  step : Manager.Step e.world e'.world
  posted : e.world.Posted moment e'.world
  rosters : e'.rosters = e.rosters
  heard : ∀ operation call result, moment.event = .ended operation call result →
    ⟨operation, call, result⟩ ∈ e.reports
  unheard : ∀ report, report ∈ e'.reports ↔
    report ∈ e.reports ∧ moment.event.ended? ≠ some report.operation

variable {e e' : Ensemble} {moment : Moment} {creditCapacity : Nat} {processor : Processor}
  {held : SubscriberKey × ConnectionId} {call : OperationId × Call} {report : Report}
  {rosters : Processor → Roster}

theorem mem_unserved :
    call ∈ e.unserved ↔
      call ∈ e.world.outstanding ∧ ∀ report ∈ e.reports, report.operation ≠ call.1 := by
  simp only [unserved, List.mem_filter, List.mem_map, decide_eq_true_eq, not_exists, not_and]

/-- A step is one of the manager, or a call is served. -/
theorem Step.proceeds_or_serves (h : Manager.Reachable creditCapacity e.world)
    (orderly : e.Orderly) (step : Step e e') : (∃ moment, e.Proceeds moment e') ∨
      ∃ report rosters, (report.operation, report.call) ∈ e.unserved ∧
        Serves e.rosters report rosters ∧
        e' = { e with rosters, reports := e.reports ++ [report] } := by
  have hconsistent := consistent_of_reachable h
  cases step with
  | @work world step unended =>
    obtain ⟨moment, hposted⟩ := posted_of_step hconsistent step
    have hnone : moment.event.ended? = none := by
      rw [hposted.endings, List.append_right_eq_self] at unended
      exact Option.toList_eq_nil_iff.1 unended
    refine .inl ⟨moment, step, hposted, rfl, ?_, fun report => ?_⟩
    · intro operation call result hevent
      rw [hevent] at hnone
      cases hnone
    · simp [hnone]
  | @serve report rosters waits served => exact .inr ⟨report, rosters, waits, served, rfl⟩
  | hear report made =>
    have hstep : Manager.Step e.world
        (e.world.finish report.operation report.call report.result) :=
      .finish _ _ (orderly.made report made) _
    obtain ⟨moment, hposted⟩ := posted_of_step hconsistent hstep
    have hevent : moment.event = .ended report.operation report.call report.result := by
      rw [← hposted.eq_of_history rfl]
    refine .inl ⟨moment, hstep, hposted, rfl, ?_, fun other => ?_⟩
    · intro operation call result hended
      cases hevent.symm.trans hended
      exact made
    · have hsame : some report.operation = some other.operation ↔
          other.operation = report.operation := by rw [Option.some.injEq, eq_comm]
      rw [hevent, List.mem_filter, decide_eq_true_eq, Event.ended?, ne_eq, ne_eq, hsame]

namespace Proceeds

theorem heard_of_ended (proceeds : e.Proceeds moment e') {operation : OperationId}
    (ends : moment.event.ended? = some operation) : ∃ report ∈ e.reports,
      report.operation = operation ∧
        moment.event = .ended report.operation report.call report.result := by
  cases hevent : moment.event with
  | ended other call result =>
    rw [hevent] at ends
    cases ends
    exact ⟨_, proceeds.heard _ _ _ hevent, rfl, rfl⟩
  | _ =>
    rw [hevent] at ends
    cases ends

theorem unserved_iff (proceeds : e.Proceeds moment e') (made : call ∈ e.world.calls) :
    call ∈ e'.unserved ↔ call ∈ e.unserved := by
  rw [mem_unserved, mem_unserved]
  constructor
  · rintro ⟨hout, hnone⟩
    obtain ⟨-, hopen⟩ := mem_outstanding.1 hout
    rw [proceeds.posted.endings, List.mem_append, not_or, Option.mem_toList] at hopen
    refine ⟨mem_outstanding.2 ⟨made, hopen.1⟩, ?_⟩
    rintro report hreport heq
    refine hnone report ((proceeds.unheard report).2 ⟨hreport, ?_⟩) heq
    rw [heq]
    exact hopen.2
  · rintro ⟨hout, hnone⟩
    refine ⟨proceeds.posted.stays hout ?_, ?_⟩
    · intro hends
      obtain ⟨report, hreport, heq, -⟩ := proceeds.heard_of_ended hends
      exact hnone report hreport heq
    · intro report hreport
      exact hnone report ((proceeds.unheard report).1 hreport).1

/-- Where the call of a report ends, it ends as was reported. -/
theorem ended_of_reported (orderly : e.Orderly) (proceeds : e.Proceeds moment e')
    (made : report ∈ e.reports) (ends : moment.event.ended? = some report.operation) :
    moment.event = .ended report.operation report.call report.result := by
  obtain ⟨other, hother, heq, hevent⟩ := proceeds.heard_of_ended ends
  cases orderly.once _ made _ hother heq
  exact hevent

theorem orderly (orderly : e.Orderly) (proceeds : e.Proceeds moment e') : e'.Orderly where
  made report hreport := by
    obtain ⟨hold, hgoing⟩ := (proceeds.unheard report).1 hreport
    exact proceeds.posted.stays (orderly.made report hold) hgoing
  once report hreport other hother :=
    orderly.once report ((proceeds.unheard report).1 hreport).1 other
      ((proceeds.unheard other).1 hother).1

section

variable (h : Manager.Reachable creditCapacity e.world) (orderly : e.Orderly)
  (proceeds : e.Proceeds moment e')
include h orderly proceeds

/-- What the manager asks for has not been served yet. -/
theorem issued (new : call ∈ callsOf moment.turn.effects) : call ∈ e'.unserved := by
  have hconsistent := consistent_of_reachable h
  obtain ⟨hout, hnumber⟩ := proceeds.posted.issued hconsistent new
  refine mem_unserved.2 ⟨hout, ?_⟩
  intro report hreport heq
  have hmade := orderly.made report ((proceeds.unheard report).1 hreport).1
  have hlt := hconsistent.numbers _ (mem_outstanding.1 hmade).1
  rw [heq] at hlt
  exact absurd hlt (Nat.not_lt.2 hnumber)

theorem withdrawn {call : Call} (new : call ∈ moment.withdrawals) :
    ∃ operation, (operation, call) ∈ e'.unserved := by
  rw [← proceeds.posted.turn_withdrawals (consistent_of_reachable h) proceeds.step] at new
  obtain ⟨operation, hcall⟩ := (Turn.mem_withdrawals.1 new).2
  exact ⟨operation, proceeds.issued h orderly hcall⟩

end

end Proceeds

/-! ### The lists -/

/-- Something is on the list of a processor because it is active, because the manager has not heard
of it yet, or because the processor has not dropped it yet. -/
def Covered (e : Ensemble) (processor : Processor) (held : SubscriberKey × ConnectionId) : Prop :=
  e.world.state.index.get? held.1 = some ⟨processor, held.2⟩ ∨
    (∃ report ∈ e.reports, report.Accepts processor held) ∨
    ∃ call ∈ e.unserved, call.2.Drops processor held

/-- The manager will hear of a processor how much it still holds, or that it holds nothing. -/
def Watched (e : Ensemble) (processor : Processor) : Prop :=
  (∃ call ∈ e.unserved, call.2.drained? = some processor) ∨
    ∃ report ∈ e.reports, report.call.emptied? report.result = some processor

structure Accounts (e : Ensemble) : Prop extends e.Orderly where
  known : ∀ processor, ∀ held ∈ e.rosters processor, processor ∈ e.world.built
  handed : ∀ processor, ∀ held ∈ e.rosters processor, ∃ call ∈ e.world.calls,
    call.2.adds held.1 = true ∧ call ∉ e.unserved
  distinct : ∀ processor, ((e.rosters processor).map Prod.fst).Nodup
  covered : ∀ processor ∈ e.world.state.processors, ∀ held ∈ e.rosters processor,
    e.Covered processor held
  watched : ∀ processor ∈ e.world.state.processors,
    e.world.state.isUnreferenced processor.id = true → e.Watched processor

/-- What a processor has reported to accept is noted as on its way there. -/
theorem noted_of_accepts (h : Manager.Reachable creditCapacity e.world)
    (made : (report.operation, report.call) ∈ e.world.outstanding)
    (accepts : report.Accepts processor held) :
    ∃ reply closed, e.world.state.continuations.get? report.operation =
      some (.subscribe held.1 held.2 processor reply closed) := by
  obtain ⟨operation, subscription, rfl, hkey, hconnection⟩ := accepts
  obtain ⟨continuation, hnoted, hfits⟩ := (consistent_of_reachable h).awaits _ made
  cases continuation with
  | subscribe key connection owner reply closed =>
    obtain ⟨rfl, hkey', hconnection'⟩ := hfits
    cases hkey.symm.trans hkey'
    cases hconnection.symm.trans hconnection'
    exact ⟨reply, closed, hnoted⟩
  | _ => cases hfits

/-- What is on the list of a processor without references it will be told to drop. -/
theorem drained_of_covered (h : Manager.Reachable creditCapacity e.world) (orderly : e.Orderly)
    (unreferenced : e.world.state.isUnreferenced processor.id = true)
    (covered : e.Covered processor held) : e.Watched processor := by
  rcases covered with hactive | ⟨report, hreport, haccepts⟩ | ⟨call, hcall, hdrops⟩
  · rw [referenced_of_index h hactive] at unreferenced
    cases unreferenced
  · obtain ⟨reply, closed, hnoted⟩ := noted_of_accepts h (orderly.made _ hreport) haccepts
    rw [referenced_of_noted h hnoted] at unreferenced
    cases unreferenced
  · exact .inl ⟨call, hcall, hdrops.drained⟩

section

variable (h : Manager.Reachable creditCapacity e.world) (before : e.Accounts)
include h before

theorem Proceeds.covered (proceeds : e.Proceeds moment e')
    (here : processor ∈ e'.world.state.processors) (listed : held ∈ e.rosters processor) :
    e'.Covered processor held := by
  have hconsistent := consistent_of_reachable h
  have horderly := before.toOrderly
  by_cases hbefore : processor ∈ e.world.state.processors
  · rcases before.covered processor hbefore held listed with
      hactive | ⟨report, hreport, haccepts⟩ | ⟨call, hcall, hdrops⟩
    · rcases proceeds.posted.index_goes h proceeds.step hactive with
        hstays | hremoved | hswept | hgone
      · exact .inl hstays
      · obtain ⟨operation, hcall⟩ := proceeds.withdrawn h horderly hremoved
        exact .inr (.inr ⟨_, hcall, .inl rfl⟩)
      · obtain ⟨operation, hcall⟩ := proceeds.withdrawn h horderly hswept
        exact .inr (.inr ⟨_, hcall, .inr rfl⟩)
      · exact absurd here hgone
    · by_cases hends : moment.event.ended? = some report.operation
      · -- the manager hears that the processor has accepted
        obtain ⟨reply, closed, hnoted⟩ := noted_of_accepts h (horderly.made _ hreport) haccepts
        have hevent := proceeds.ended_of_reported horderly hreport hends
        obtain ⟨operation, subscription, rfl, -⟩ := haccepts
        rcases proceeds.posted.index_of_added h proceeds.step hevent hnoted hbefore with
          hactive | hremoved
        · exact .inl hactive
        · obtain ⟨other, hcall⟩ := proceeds.withdrawn h horderly hremoved
          exact .inr (.inr ⟨_, hcall, .inl rfl⟩)
      · exact .inr (.inl ⟨report, (proceeds.unheard report).2 ⟨hreport, hends⟩, haccepts⟩)
    · have hmade := (mem_outstanding.1 (mem_unserved.1 hcall).1).1
      exact .inr (.inr ⟨call, (proceeds.unserved_iff hmade).2 hcall, hdrops⟩)
  · -- a processor that is new has nothing on its list
    have hnew := proceeds.posted.built_of_new h (h.next proceeds.step) here hbefore
    have hlt := hconsistent.built _ (before.known processor held listed)
    rw [built?_id hnew, proceeds.posted.before] at hlt
    exact absurd hlt (Nat.lt_irrefl _)

theorem Proceeds.watched (proceeds : e.Proceeds moment e')
    (here : processor ∈ e'.world.state.processors)
    (unreferenced : e'.world.state.isUnreferenced processor.id = true) : e'.Watched processor := by
  have horderly := before.toOrderly
  by_cases hbefore : processor ∈ e.world.state.processors
  · cases hreferenced : e.world.state.isUnreferenced processor.id with
    | false =>
      obtain ⟨call, hcall, hdrained⟩ := proceeds.posted.drained_of_unreferenced h proceeds.step
        hbefore here hreferenced unreferenced
      obtain ⟨operation, hissued⟩ := proceeds.withdrawn h horderly hcall
      exact .inl ⟨_, hissued, hdrained⟩
    | true =>
      rcases before.watched processor hbefore hreferenced with
        ⟨call, hcall, hdrained⟩ | ⟨report, hreport, hemptied⟩
      · have hmade := (mem_outstanding.1 (mem_unserved.1 hcall).1).1
        exact .inl ⟨call, (proceeds.unserved_iff hmade).2 hcall, hdrained⟩
      · refine .inr ⟨report, (proceeds.unheard report).2 ⟨hreport, ?_⟩, hemptied⟩
        intro hends
        have hevent := proceeds.ended_of_reported horderly hreport hends
        exact proceeds.posted.retired_of_emptied h proceeds.step hevent hemptied hbefore
          hreferenced here
  · rw [proceeds.posted.referenced_of_new h proceeds.step here hbefore] at unreferenced
    cases unreferenced

theorem Proceeds.accounts (proceeds : e.Proceeds moment e') : e'.Accounts where
  toOrderly := proceeds.orderly before.toOrderly
  known processor held listed := by
    rw [proceeds.rosters] at listed
    rw [proceeds.posted.built]
    exact List.mem_append_left _ (before.known processor held listed)
  handed processor held listed := by
    rw [proceeds.rosters] at listed
    obtain ⟨call, hmade, hadds, hserved⟩ := before.handed processor held listed
    refine ⟨call, ?_, hadds, ?_⟩
    · rw [proceeds.posted.calls]
      exact List.mem_append_left _ hmade
    · rwa [proceeds.unserved_iff hmade]
  distinct processor := by
    rw [proceeds.rosters]
    exact before.distinct processor
  covered processor here held listed := by
    rw [proceeds.rosters] at listed
    exact proceeds.covered h before here listed
  watched processor here unreferenced := proceeds.watched h before here unreferenced

end

/-! ### A call is served -/

/-- An ensemble in which one more call was served. -/
def served (e : Ensemble) (report : Report) (rosters : Processor → Roster) : Ensemble :=
  { e with rosters, reports := e.reports ++ [report] }

theorem mem_unserved_served :
    call ∈ (e.served report rosters).unserved ↔
      call ∈ e.unserved ∧ report.operation ≠ call.1 := by
  rw [mem_unserved, mem_unserved, served]
  simp only [List.mem_append, List.mem_singleton, or_imp, forall_and, forall_eq, and_assoc]

/-- A call that was not served is the one that is served now, or still waits. -/
theorem waits_or_is (h : Manager.Reachable creditCapacity e.world)
    (waits : (report.operation, report.call) ∈ e.unserved) (unserved : call ∈ e.unserved) :
    call.2 = report.call ∨ call ∈ (e.served report rosters).unserved := by
  by_cases heq : report.operation = call.1
  · have hout : (report.operation, call.2) ∈ e.world.outstanding := by
      rw [heq]
      exact (mem_unserved.1 unserved).1
    exact .inl (call_unique h (mem_unserved.1 waits).1 hout)
  · exact .inr (mem_unserved_served.2 ⟨unserved, heq⟩)

theorem orderly_served (before : e.Orderly)
    (waits : (report.operation, report.call) ∈ e.unserved) :
    (e.served report rosters).Orderly where
  made other hother := by
    rcases List.mem_append.1 hother with hold | hnew
    · exact before.made other hold
    · rw [List.mem_singleton.1 hnew]
      exact (mem_unserved.1 waits).1
  once first hfirst second hsecond heq := by
    have hnone := (mem_unserved.1 waits).2
    rcases List.mem_append.1 hfirst with hfirst | hfirst <;>
      rcases List.mem_append.1 hsecond with hsecond | hsecond
    · exact before.once first hfirst second hsecond heq
    · rw [List.mem_singleton.1 hsecond] at heq
      exact absurd heq.symm (hnone first hfirst)
    · rw [List.mem_singleton.1 hfirst] at heq
      exact absurd heq (hnone second hsecond)
    · rw [List.mem_singleton.1 hfirst, List.mem_singleton.1 hsecond]

section

variable (h : Manager.Reachable creditCapacity e.world) (before : e.Accounts)
  (waits : (report.operation, report.call) ∈ e.unserved) (serves : Serves e.rosters report rosters)
include h before waits serves

theorem covered_served (here : processor ∈ e.world.state.processors)
    (listed : held ∈ rosters processor) : (e.served report rosters).Covered processor held := by
  rcases serves.back listed with ⟨hold, hkept⟩ | haccepts
  · rcases before.covered processor here held hold with
      hactive | ⟨other, hother, haccepts⟩ | ⟨call, hcall, hdrops⟩
    · exact .inl hactive
    · exact .inr (.inl ⟨other, List.mem_append_left _ hother, haccepts⟩)
    · refine .inr (.inr ⟨call, ?_, hdrops⟩)
      refine (waits_or_is h waits hcall).resolve_left fun hsame => ?_
      rw [hsame] at hdrops
      exact hkept hdrops
  · exact .inr (.inl ⟨report, List.mem_append_right _ (List.mem_singleton_self _), haccepts⟩)

theorem watched_served (here : processor ∈ e.world.state.processors)
    (unreferenced : e.world.state.isUnreferenced processor.id = true) :
    (e.served report rosters).Watched processor := by
  rcases before.watched processor here unreferenced with
    ⟨call, hcall, hdrained⟩ | ⟨other, hother, hemptied⟩
  · rcases waits_or_is h waits hcall with hsame | hwaits
    · rw [hsame] at hdrained
      rcases serves.emptied hdrained with hempty | ⟨held, hlisted⟩
      · exact .inr ⟨report, List.mem_append_right _ (List.mem_singleton_self _), hempty⟩
      · -- what remains has a call of its own
        exact drained_of_covered (e := e.served report rosters) h
          (orderly_served before.toOrderly waits) unreferenced
          (covered_served h before waits serves here hlisted)
    · exact .inl ⟨call, hwaits, hdrained⟩
  · exact .inr ⟨other, List.mem_append_left _ hother, hemptied⟩

theorem accounts_served : (e.served report rosters).Accounts where
  toOrderly := orderly_served before.toOrderly waits
  known processor held listed := by
    rcases serves.back listed with ⟨hold, -⟩ | haccepts
    · exact before.known processor held hold
    · obtain ⟨reply, closed, hnoted⟩ := noted_of_accepts h (mem_unserved.1 waits).1 haccepts
      have hheld : ongoing (.subscribe held.1 held.2 processor reply closed) ∈
          (e.world.state.ledger 0).holdings := State.ongoing_mem_ledger.2 (.inl ⟨_, hnoted⟩)
      exact ((consistent_of_reachable h).sound.proper _ hheld).2.1
  handed processor held listed := by
    rcases serves.back listed with ⟨hold, -⟩ | ⟨operation, subscription, rfl, hkey, -⟩
    · obtain ⟨call, hmade, hadds, hserved⟩ := before.handed processor held hold
      exact ⟨call, hmade, hadds, fun hwaits => hserved (mem_unserved_served.1 hwaits).1⟩
    · refine ⟨_, (mem_outstanding.1 (mem_unserved.1 waits).1).1, decide_eq_true hkey, ?_⟩
      exact fun hwaits => (mem_unserved_served.1 hwaits).2 rfl
  distinct processor := by
    refine serves.distinct (before.distinct processor) ?_
    intro subscription key hcall hkey hmem
    obtain ⟨held, hlisted, rfl⟩ := List.mem_map.1 hmem
    obtain ⟨call, hmade, hadds, hserved⟩ := before.handed processor held hlisted
    have hadds' : report.call.adds held.1 = true := by
      rw [hcall]
      exact decide_eq_true hkey
    -- a key is handed over once
    have hsame := adds_unique h hmade hadds (mem_outstanding.1 (mem_unserved.1 waits).1).1 hadds'
    exact hserved (hsame ▸ waits)
  covered processor here held listed := covered_served h before waits serves here listed
  watched processor here unreferenced := watched_served h before waits serves here unreferenced

end

theorem accounts_initial (creditCapacity : Nat) : (initial creditCapacity).Accounts where
  made report hreport := by cases hreport
  once report hreport := by cases hreport
  known processor held listed := by cases listed
  handed processor held listed := by cases listed
  distinct processor := List.nodup_nil
  covered processor here held listed := by cases listed
  watched processor here := by cases here

theorem accounts_of_reachable (h : Reachable creditCapacity e) :
    Manager.Reachable creditCapacity e.world ∧ e.Accounts := by
  induction h with
  | start => exact ⟨.start, accounts_initial creditCapacity⟩
  | next _ step ih =>
    obtain ⟨hreached, haccounts⟩ := ih
    rcases step.proceeds_or_serves hreached haccounts.toOrderly with
      ⟨moment, hproceeds⟩ | ⟨report, rosters, hwaits, hserves, rfl⟩
    · exact ⟨hreached.next hproceeds.step, hproceeds.accounts hreached haccounts⟩
    · exact ⟨hreached, accounts_served hreached haccounts hwaits hserves⟩

end Ensemble

end JobBroker.Manager
