import JobBroker.Credit.Channel

/-!
# The uses of a credit channel

A channel is written to, directly and through senders, drained with any limit and any handler, and
dropped in the end, while the senders live on. What it has accepted is what the handlers have been
handed, in that order, and then what it holds. A drain takes the shortest front of the queue after
which it may stop.
-/

namespace JobBroker.Credit

namespace Channel

variable {σ : Type} {handle : σ → CreditRequest → Bool × σ} {limit : Nat}
  {queue front : List CreditRequest} {s : σ}

/-! ### One drain -/

/-- The state of a handler that has been handed some requests, whatever it said of them. -/
def follow (handle : σ → CreditRequest → Bool × σ) (s : σ) (requests : List CreditRequest) : σ :=
  requests.foldl (fun s request => (handle s request).2) s

/-- A drain may stop once it has taken a front of the queue: the limit is reached, the last request
is one that the handler refuses, or the front is the whole queue. -/
def MayStop (handle : σ → CreditRequest → Bool × σ) (s : σ) (limit : Nat)
    (queue front : List CreditRequest) : Prop :=
  limit ≤ front.length ∨
  (∃ before request, front = before ++ [request] ∧
    (handle (follow handle s before) request).1 = false) ∨
  front = queue

/-- The handler that also keeps the requests it is handed. -/
def recording (handle : σ → CreditRequest → Bool × σ) (held : σ × List CreditRequest)
    (request : CreditRequest) : Bool × σ × List CreditRequest :=
  ((handle held.1 request).1, (handle held.1 request).2, held.2 ++ [request])

theorem not_mayStop_nil {request : CreditRequest} :
    ¬MayStop handle s (limit + 1) (request :: queue) [] := by
  rintro (hlimit | ⟨before, last, hfront, -⟩ | hwhole)
  · exact Nat.not_succ_le_zero limit hlimit
  · exact List.append_ne_nil_of_right_ne_nil before (List.cons_ne_nil last []) hfront.symm
  · exact List.cons_ne_nil request queue hwhole.symm

theorem mayStop_refused {request : CreditRequest} (refused : (handle s request).1 = false) :
    MayStop handle s limit queue [request] :=
  .inr (.inl ⟨[], request, rfl, refused⟩)

/-- Past a request that the handler accepts, a drain may stop where it may stop on the rest. -/
theorem mayStop_accepted {request : CreditRequest} (accepted : (handle s request).1 = true) :
    MayStop handle s (limit + 1) (request :: queue) (request :: front) ↔
      MayStop handle (handle s request).2 limit queue front := by
  refine or_congr Nat.succ_le_succ_iff (or_congr ⟨?_, ?_⟩ (List.cons_inj_right request))
  · rintro ⟨before, last, hfront, hrefused⟩
    cases before with
    | nil =>
      obtain ⟨rfl, -⟩ := List.cons.inj hfront
      exact absurd (accepted.symm.trans hrefused) Bool.noConfusion
    | cons first before =>
      obtain ⟨rfl, hrest⟩ := List.cons.inj hfront
      exact ⟨before, last, hrest, hrefused⟩
  · rintro ⟨before, last, rfl, hrefused⟩
    exact ⟨request :: before, last, rfl, hrefused⟩

theorem mayStop_drainQueue (handle : σ → CreditRequest → Bool × σ) (limit : Nat)
    (queue : List CreditRequest) (s : σ) :
    MayStop handle s limit queue (drainQueue handle limit queue s).taken := by
  induction limit generalizing queue s with
  | zero => exact .inl (Nat.zero_le _)
  | succ limit ih =>
    cases queue with
    | nil => exact .inr (.inr rfl)
    | cons request queue =>
      have hrest := ih queue (handle s request).2
      rw [drainQueue]
      split
      next s' hanswer =>
        rw [hanswer] at hrest
        exact (mayStop_accepted (congrArg Prod.fst hanswer)).2 (by rw [hanswer]; exact hrest)
      next s' hanswer => exact mayStop_refused (congrArg Prod.fst hanswer)

/-- A drain stops as soon as it may. -/
theorem length_taken_le (stops : MayStop handle s limit queue front) (prefixed : front <+: queue) :
    (drainQueue handle limit queue s).taken.length ≤ front.length := by
  induction limit generalizing queue front s with
  | zero => exact Nat.zero_le _
  | succ limit ih =>
    cases queue with
    | nil => exact Nat.zero_le _
    | cons request queue =>
      cases front with
      | nil => exact absurd stops not_mayStop_nil
      | cons first front =>
        obtain ⟨rfl, hprefixed⟩ := List.cons_prefix_cons.1 prefixed
        rw [drainQueue]
        split
        next s' hanswer =>
          have hrest := (mayStop_accepted (congrArg Prod.fst hanswer)).1 stops
          rw [hanswer] at hrest
          exact Nat.succ_le_succ (ih hrest hprefixed)
        next s' hanswer => exact Nat.succ_le_succ (Nat.zero_le _)

/-- A handler is handed each request that is taken, once and in order, and nothing else. -/
theorem drainQueue_recording (handle : σ → CreditRequest → Bool × σ) (limit : Nat)
    (queue : List CreditRequest) (s : σ) (seen : List CreditRequest) :
    drainQueue (recording handle) limit queue (s, seen) =
      { taken := (drainQueue handle limit queue s).taken
        left := (drainQueue handle limit queue s).left
        handler := ((drainQueue handle limit queue s).handler,
          seen ++ (drainQueue handle limit queue s).taken) } := by
  induction limit generalizing queue s seen with
  | zero => simp only [drainQueue, List.append_nil]
  | succ limit ih =>
    cases queue with
    | nil => simp only [drainQueue, List.append_nil]
    | cons request queue =>
      rw [drainQueue, drainQueue, recording]
      cases hanswer : handle s request with
      | mk accepted s' =>
        cases accepted with
        | true => simp only [ih, List.append_assoc, List.singleton_append]
        | false => rfl

theorem handler_drainQueue (handle : σ → CreditRequest → Bool × σ) (limit : Nat)
    (queue : List CreditRequest) (s : σ) :
    (drainQueue handle limit queue s).handler =
      follow handle s (drainQueue handle limit queue s).taken := by
  induction limit generalizing queue s with
  | zero => rfl
  | succ limit ih =>
    cases queue with
    | nil => rfl
    | cons request queue =>
      rw [drainQueue]
      cases hanswer : handle s request with
      | mk accepted s' =>
        cases accepted with
        | true => simp only [ih, follow, List.foldl_cons, hanswer]
        | false => simp only [follow, List.foldl_cons, List.foldl_nil, hanswer]

/-- A drain is a drain of one request and, if the handler accepts that, the drain of the rest. What
is written in between is written between two drains. -/
theorem drain_succ (channel : Channel) (limit : Nat) (handle : σ → CreditRequest → Bool × σ)
    (s : σ) :
    channel.drain (limit + 1) handle s =
      let first := channel.drain 1 handle s
      if first.2.1.any fun request => (handle s request).1 then
        let rest := first.1.drain limit handle first.2.2
        (rest.1, first.2.1 ++ rest.2.1, rest.2.2)
      else first := by
  obtain ⟨capacity, queue⟩ := channel
  cases queue with
  | nil => rfl
  | cons request queue =>
    cases hanswer : handle s request with
    | mk accepted s' => cases accepted <;> simp [drain, drainQueue, hanswer]

theorem drain_recording (channel : Channel) (limit : Nat) (handle : σ → CreditRequest → Bool × σ)
    (s : σ) (seen : List CreditRequest) :
    channel.drain limit (recording handle) (s, seen) =
      ((channel.drain limit handle s).1, (channel.drain limit handle s).2.1,
        (channel.drain limit handle s).2.2, seen ++ (channel.drain limit handle s).2.1) := by
  rw [drain, drainQueue_recording]
  rfl

theorem queue_drain (channel : Channel) (limit : Nat) (handle : σ → CreditRequest → Bool × σ)
    (s : σ) :
    (channel.drain limit handle s).2.1 ++ (channel.drain limit handle s).1.queue = channel.queue :=
  taken_append_left handle limit channel.queue s

theorem size_drain_le (channel : Channel) (limit : Nat) (handle : σ → CreditRequest → Bool × σ)
    (s : σ) : (channel.drain limit handle s).1.size ≤ channel.size := by
  rw [size, size, ← channel.queue_drain limit handle s, List.length_append]
  exact Nat.le_add_left _ _

end Channel

/-! ### A channel in use -/

/-- What can be done with a channel: it is written to, itself or through one of its senders, it is
drained, and it is dropped. -/
inductive Use where
  | write (request : CreditRequest)
  | send (request : CreditRequest)
  | drain {σ : Type} (limit : Nat) (handle : σ → CreditRequest → Bool × σ) (s : σ)
  | drop

inductive Answer where
  | accepted (yes : Bool)
  | drained (count : Nat)
  | dropped
  /-- The channel that is to be used is gone. -/
  | gone
  deriving DecidableEq

/-- A channel, none once it is dropped, with the requests that were accepted, those that handlers
were handed, and those that it held when it was dropped. -/
structure Account where
  channel : Option Channel
  accepted : List CreditRequest := []
  handed : List CreditRequest := []
  lost : List CreditRequest := []

namespace Account

def opened (capacity : Nat) : Account := { channel := some { capacity := capacity } }

/-- What the channel holds, or held when it was dropped. -/
def held (account : Account) : List CreditRequest :=
  match account.channel with
  | some channel => channel.queue
  | none => account.lost

def enter (account : Account) (request : CreditRequest) (written : Option Channel × Bool) :
    Account × Answer :=
  ({ account with
      channel := written.1
      accepted := account.accepted ++ if written.2 then [request] else [] },
    .accepted written.2)

def perform (account : Account) : Use → Account × Answer
  | .write request =>
    match account.channel with
    | some channel =>
      account.enter request (some (channel.write request).1, (channel.write request).2)
    | none => (account, .gone)
  | .send request => account.enter request (Channel.send account.channel request)
  | .drain limit handle s =>
    match account.channel with
    | some channel =>
      let (channel, taken, _, handed) :=
        channel.drain limit (Channel.recording handle) (s, account.handed)
      ({ account with channel := some channel, handed := handed }, .drained taken.length)
    | none => (account, .gone)
  | .drop =>
    match account.channel with
    | some channel => ({ account with channel := none, lost := channel.queue }, .dropped)
    | none => (account, .gone)

def after (account : Account) (uses : List Use) : Account :=
  uses.foldl (fun account use => (account.perform use).1) account

/-- No request is lost, doubled or moved, and the channel never holds more than it may. -/
structure Kept (bound : Nat) (account : Account) : Prop where
  inOrder : account.handed ++ account.held = account.accepted
  capacity : ∀ channel, account.channel = some channel → channel.capacity = bound
  size : ∀ channel, account.channel = some channel → channel.size ≤ bound

variable {account : Account} {channel : Channel} {bound : Nat}

theorem held_open (here : account.channel = some channel) : account.held = channel.queue := by
  rw [held, here]

theorem Kept.enter (h : account.Kept bound) (here : account.channel = some channel)
    (request : CreditRequest) :
    (account.enter request (some (channel.write request).1, (channel.write request).2)).1.Kept
      bound := by
  have hcapacity := h.capacity channel here
  have hsize := h.size channel here
  refine ⟨?_, ?_, ?_⟩
  · show account.handed ++ (channel.write request).1.queue = account.accepted ++ _
    rw [Channel.queue_write, ← h.inOrder, held_open here, List.append_assoc]
  · rintro _ ⟨⟩
    exact (channel.capacity_write request).trans hcapacity
  · rintro _ ⟨⟩
    rw [← hcapacity] at hsize ⊢
    exact Channel.size_write_le request hsize

theorem Kept.refused (h : account.Kept bound) (gone : account.channel = none)
    (request : CreditRequest) : (account.enter request (none, false)).1.Kept bound := by
  have hinOrder := h.inOrder
  rw [held, gone] at hinOrder
  refine ⟨?_, fun _ => nofun, fun _ => nofun⟩
  show account.handed ++ account.lost = account.accepted ++ []
  rw [hinOrder, List.append_nil]

theorem Kept.drain {σ : Type} (h : account.Kept bound) (here : account.channel = some channel)
    (limit : Nat) (handle : σ → CreditRequest → Bool × σ) (s : σ) :
    ({ account with
        channel := some (channel.drain limit handle s).1
        handed := account.handed ++ (channel.drain limit handle s).2.1 } : Account).Kept bound := by
  refine ⟨?_, ?_, ?_⟩
  · show account.handed ++ _ ++ (channel.drain limit handle s).1.queue = account.accepted
    rw [List.append_assoc, channel.queue_drain, ← held_open here, h.inOrder]
  · rintro _ ⟨⟩
    exact h.capacity channel here
  · rintro _ ⟨⟩
    exact Nat.le_trans (channel.size_drain_le limit handle s) (h.size channel here)

theorem Kept.drop (h : account.Kept bound) (here : account.channel = some channel) :
    ({ account with channel := none, lost := channel.queue } : Account).Kept bound := by
  refine ⟨?_, fun _ => nofun, fun _ => nofun⟩
  show account.handed ++ channel.queue = account.accepted
  rw [← held_open here, h.inOrder]

theorem perform_drain {σ : Type} (here : account.channel = some channel) (limit : Nat)
    (handle : σ → CreditRequest → Bool × σ) (s : σ) :
    account.perform (.drain limit handle s) =
      ({ account with
          channel := some (channel.drain limit handle s).1
          handed := account.handed ++ (channel.drain limit handle s).2.1 },
        .drained (channel.drain limit handle s).2.1.length) := by
  simp only [perform, here, Channel.drain_recording]

theorem Kept.perform (h : account.Kept bound) (use : Use) :
    (account.perform use).1.Kept bound := by
  cases hchannel : account.channel with
  | some channel =>
    cases use with
    | write request =>
      simp only [Account.perform, hchannel]
      exact h.enter hchannel request
    | send request =>
      simp only [Account.perform, hchannel]
      exact h.enter hchannel request
    | drain limit handle s =>
      rw [perform_drain hchannel]
      exact h.drain hchannel limit handle s
    | drop =>
      simp only [Account.perform, hchannel]
      exact h.drop hchannel
  | none =>
    cases use with
    | send request =>
      simp only [Account.perform, hchannel]
      exact h.refused hchannel request
    | write | drain | drop =>
      simp only [Account.perform, hchannel]
      exact h

theorem Kept.after (h : account.Kept bound) (uses : List Use) :
    (account.after uses).Kept bound := by
  induction uses generalizing account with
  | nil => exact h
  | cons use uses ih => exact ih (h.perform use)

theorem kept_opened (capacity : Nat) : (opened capacity).Kept capacity where
  inOrder := rfl
  capacity := by rintro _ ⟨⟩; rfl
  size := by rintro _ ⟨⟩; exact Nat.zero_le _

/-- Nothing but dropping it ends a channel, and a dropped one does not come back. -/
theorem isSome_perform (account : Account) (use : Use) :
    (account.perform use).1.channel.isSome ↔ account.channel.isSome ∧ use ≠ .drop := by
  cases hchannel : account.channel <;> cases use <;>
    simp [perform, hchannel, Account.enter, Channel.send]

theorem isSome_after (account : Account) (uses : List Use) :
    (account.after uses).channel.isSome ↔ account.channel.isSome ∧ ∀ use ∈ uses, use ≠ .drop := by
  induction uses generalizing account with
  | nil => simp [after]
  | cons use uses ih =>
    show ((account.perform use).1.after uses).channel.isSome ↔ _
    rw [ih, isSome_perform, List.forall_mem_cons, and_assoc]

theorem Kept.accepted (h : account.Kept bound) (here : account.channel = some channel)
    (request : CreditRequest) : (channel.write request).2 = true ↔ channel.size < bound := by
  rw [← h.capacity channel here, Channel.write]
  split
  next hroom => exact iff_of_true rfl hroom
  next hfull => exact iff_of_false Bool.false_ne_true hfull

theorem Kept.accepted_write (h : account.Kept bound) (request : CreditRequest) :
    (account.perform (.write request)).2 = .accepted true ↔
      ∃ channel, account.channel = some channel ∧ channel.size < bound := by
  cases hchannel : account.channel with
  | none => simp [Account.perform, hchannel]
  | some channel => simp [Account.perform, hchannel, Account.enter, h.accepted hchannel]

/-- A sender is answered as the channel itself would be. -/
theorem Kept.accepted_send (h : account.Kept bound) (request : CreditRequest) :
    (account.perform (.send request)).2 = .accepted true ↔
      ∃ channel, account.channel = some channel ∧ channel.size < bound := by
  cases hchannel : account.channel with
  | none => simp [Account.perform, hchannel, Account.enter, Channel.send]
  | some channel =>
    simp [Account.perform, hchannel, Account.enter, Channel.send, h.accepted hchannel]

/-- A channel keeps what it has accepted in order and within its capacity: a write is accepted just
when the channel is there and has room, directly or through a sender, and what was accepted is what
the handlers were handed, then what the channel holds. A drain takes the shortest front of the queue
after which it may stop and answers its length. It is a drain of one request after the other, so
that what is written in the meantime is written between two uses. -/
theorem channel_first_in_first_out (capacity : Nat) (uses : List Use) :
    let account := (opened capacity).after uses
    account.handed ++ account.held = account.accepted ∧
    (account.channel.isSome ↔ ∀ use ∈ uses, use ≠ .drop) ∧
    (∀ channel, account.channel = some channel →
      channel.capacity = capacity ∧ channel.size ≤ capacity ∧ channel.queue = account.held) ∧
    (∀ request, (account.perform (.write request)).2 = .accepted true ↔
      ∃ channel, account.channel = some channel ∧ channel.size < capacity) ∧
    (∀ request, (account.perform (.send request)).2 = .accepted true ↔
      ∃ channel, account.channel = some channel ∧ channel.size < capacity) ∧
    ∀ channel, account.channel = some channel →
      ∀ {σ : Type} (limit : Nat) (handle : σ → CreditRequest → Bool × σ) (s : σ),
        let drained := channel.drain limit handle s
        account.perform (.drain limit handle s) =
          ({ account with
              channel := some drained.1
              handed := account.handed ++ drained.2.1 },
            .drained drained.2.1.length) ∧
        drained.2.1 ++ drained.1.queue = channel.queue ∧
        drained.2.2 = Channel.follow handle s drained.2.1 ∧
        Channel.MayStop handle s limit channel.queue drained.2.1 ∧
        (∀ front, front <+: channel.queue → Channel.MayStop handle s limit channel.queue front →
          drained.2.1.length ≤ front.length) ∧
        channel.drain (limit + 1) handle s =
          let first := channel.drain 1 handle s
          if first.2.1.any fun request => (handle s request).1 then
            let rest := first.1.drain limit handle first.2.2
            (rest.1, first.2.1 ++ rest.2.1, rest.2.2)
          else first := by
  intro account
  have hkept : account.Kept capacity := (kept_opened capacity).after uses
  refine ⟨hkept.inOrder, (isSome_after _ uses).trans (and_iff_right rfl), ?_,
    hkept.accepted_write, hkept.accepted_send, ?_⟩
  · intro channel here
    exact ⟨hkept.capacity channel here, hkept.size channel here, (held_open here).symm⟩
  · intro channel here σ limit handle s
    refine ⟨perform_drain here limit handle s, channel.queue_drain limit handle s,
      Channel.handler_drainQueue handle limit channel.queue s,
      Channel.mayStop_drainQueue handle limit channel.queue s, ?_,
      channel.drain_succ limit handle s⟩
    intro front hprefixed hstops
    exact Channel.length_taken_le hstops hprefixed

end Account

end JobBroker.Credit
