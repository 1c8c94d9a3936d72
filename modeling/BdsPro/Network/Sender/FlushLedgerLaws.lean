import BdsPro.Library.Table
import Mathlib.Tactic.Abel
import BdsPro.Network.Sender.ChannelLaws
import BdsPro.Network.Sender.FlushLedger

namespace BdsPro.Network.Sender

open BdsPro.Library

theorem ChannelHandler.Next.waiter {p q : Phase} {e : Event} (h : Next p e q) :
    q.waiter = none ∨ q.waiter.toList = p.waiter.toList ++ e.handle.toList := by
  cases h with
  | cancel => exact .inr (by simp [Event.handle])
  | select | flushDone | data | terminate | closing | ended => exact .inl rfl
  | flushMore | flushing | flushed => exact .inr rfl
  | flush => exact .inr rfl
  | @response task send r =>
    cases task with
    | run => exact .inl rfl
    | flush done => exact .inr rfl
  | @sent task | @feeding task =>
    cases task with
    | run => exact .inl rfl
    | flush done => exact .inr rfl

namespace Channel

inductive QueueStep (c : Channel) : Action → Channel → Prop
  | submit (m : ChannelControlMessage) (queue : t.queue = c.queue ++ [m])
      (stage : t.stage = c.stage) : QueueStep c (.submit m) t
  | take (m : ChannelControlMessage) (queue : c.queue = m :: t.queue) (h h' : ChannelHandler)
      (source : c.stage = .running h) (target : t.stage = .running h')
      (next : ChannelHandler.Next h.phase (.request (some m)) h'.phase) :
    QueueStep c (.handler (.request (some m))) t
  | handle (queue : t.queue = c.queue) (h h' : ChannelHandler) (source : c.stage = .running h)
      (target : t.stage = .running h') (event : e.handle = none)
      (next : ChannelHandler.Next h.phase e h'.phase) : QueueStep c (.handler e) t
  | other (queue : t.queue = c.queue) (source : c.waiter = none ∨ t.stage = c.stage)
      (target : t.waiter = none ∨ t.stage = c.stage)
      (submitted : a.submitted = none) (taken : a.taken = none)
      (ended : t.stage = .finished → c.stage = .finished ∨ c.ends a = true) : QueueStep c a t

theorem QueueStep.event {c t : Channel} {e : ChannelHandler.Event} (hs : c.handler e = some t) :
    QueueStep c (.handler e) t := by
  obtain ⟨h, h', queue, hsource, hoffers, hstep, hqueue, rfl⟩ := handler_eq_some hs
  have hnext := ChannelHandler.next_of_step hstep
  cases e with
  | request m =>
    obtain ⟨-, rfl⟩ | ⟨hne, -⟩ := hqueue
    · cases m with
      | none =>
        have hempty : c.queue = [] := (of_decide_eq_true hoffers).1
        refine .handle ?_ h h' hsource rfl rfl hnext
        simp [hempty]
      | some m =>
        have hhead : c.queue.head? = some m := of_decide_eq_true hoffers
        exact .take m (List.eq_cons_of_mem_head? hhead) h h' hsource rfl hnext
    · exact absurd rfl (hne m)
  | cancel | advance | flush | cancelled | response | sendPending | close =>
    obtain ⟨⟨m, hm⟩, -⟩ | ⟨-, rfl⟩ := hqueue
    · contradiction
    · exact .handle rfl h h' hsource rfl rfl hnext

theorem waiter_of_ended {c : Channel} (hs : c.stage = .running h) (hp : h.phase = .ended e) :
    c.waiter = none := by
  simp only [waiter, hs, hp, Phase.waiter]

theorem QueueStep.finish {c t : Channel} (hs : c.finish = some t) : QueueStep c .finish t := by
  unfold Channel.finish at hs
  split at hs
  next h hstage =>
    split at hs
    next e hp =>
      have hnone := waiter_of_ended hstage hp
      have hends (he : ∀ err, e.result ≠ .connectionLost err) : c.ends .finish = true := by
        simp only [ends, hstage, hp]
        split
        next err hresult => exact absurd hresult (he err)
        · rfl
        · rfl
      split at hs
      · exact Option.some.inj hs ▸ .other rfl (.inl hnone) (.inl rfl) rfl rfl (by simp)
      · exact Option.some.inj hs ▸
          .other rfl (.inl hnone) (.inl rfl) rfl rfl fun _ => .inr (hends (by simp_all))
      · exact Option.some.inj hs ▸
          .other rfl (.inl hnone) (.inl rfl) rfl rfl fun _ => .inr (hends (by simp_all))
    next => contradiction
  next => contradiction

theorem queueStep_sound {c t : Channel} (hs : c.step a = some t) : QueueStep c a t := by
  cases a with
  | submit m =>
    obtain ⟨-, hs⟩ := Option.ite_none_right_eq_some.mp hs
    exact Option.some.inj hs ▸ .submit m rfl rfl
  | dropQueue =>
    exact Option.some.inj hs ▸ .other rfl (.inr rfl) (.inr rfl) rfl rfl .inl
  | establish r =>
    simp only [step, establish] at hs
    split at hs
    next hstage =>
      have hnone : c.waiter = none := by simp only [waiter, hstage]
      cases r with
      | ok => exact Option.some.inj hs ▸ .other rfl (.inl hnone) (.inl rfl) rfl rfl nofun
      | channelReject | badConnection =>
        exact Option.some.inj hs ▸ .other rfl (.inl hnone) (.inl hnone) rfl rfl .inl
      | cancelled =>
        exact Option.some.inj hs ▸
          .other rfl (.inl hnone) (.inl rfl) rfl rfl fun _ => .inr (by simp only [ends, hstage])
    next => contradiction
  | connect ok =>
    simp only [step, connect] at hs
    split at hs
    next hstage =>
      have hnone : c.waiter = none := by simp only [waiter, hstage]
      cases ok with
      | false | true => exact Option.some.inj hs ▸ .other rfl (.inl hnone) (.inl rfl) rfl rfl nofun
    next => contradiction
  | handler e => exact .event hs
  | finish => exact .finish hs
  | retry ok =>
    simp only [step, retry] at hs
    split at hs
    next hstage =>
      have hnone : c.waiter = none := by simp only [waiter, hstage]
      cases ok with
      | true => exact Option.some.inj hs ▸ .other rfl (.inl hnone) (.inl rfl) rfl rfl nofun
      | false =>
        exact Option.some.inj hs ▸
          .other rfl (.inl hnone) (.inl rfl) rfl rfl fun _ => .inr (by simp only [ends, hstage])
    next => contradiction

theorem waiter_of_stage {c t : Channel} (h : t.stage = c.stage) : t.waiter = c.waiter := by
  simp only [waiter, h]

theorem waiter_running {c : Channel} (h : c.stage = .running h') :
    c.waiter = h'.phase.waiter := by
  simp only [waiter, h]

theorem QueueStep.waiter {c t : Channel} (hs : QueueStep c a t) :
    t.waiter = none ∨ t.waiter.toList = c.waiter.toList ++ a.taken.toList := by
  cases hs with
  | submit m queue stage =>
    rw [waiter_of_stage stage]
    exact .inr (List.append_nil _).symm
  | take m queue h h' source target next | handle queue h h' source target _ next =>
    rw [waiter_running source, waiter_running target]
    exact next.waiter
  | other queue source target submitted taken =>
    cases target with
    | inl hnone => exact .inl hnone
    | inr hstage =>
      rw [waiter_of_stage hstage, taken]
      exact .inr (List.append_nil _).symm

theorem QueueStep.waiting {c t : Channel} (hs : QueueStep c a t) :
    (t.waiting + a.taken.toList : Multiset Nat) =
      c.waiting + (a.submitted.bind (·.handle)).toList := by
  cases hs with
  | submit m queue stage =>
    have hwaiting : t.waiting = c.waiting ++ m.handle.toList := by
      simp only [Channel.waiting, queue, Table.filterMap_concat]
    rw [hwaiting, ← Multiset.coe_add]
    exact add_zero _
  | take m queue =>
    have hwaiting : c.waiting = m.handle.toList ++ t.waiting := by
      simp only [Channel.waiting, queue, List.filterMap_cons]
      cases m.handle <;> rfl
    rw [hwaiting, ← Multiset.coe_add, add_comm (Multiset.ofList m.handle.toList)]
    exact (add_zero _).symm
  | handle queue h h' source target event =>
    simp only [Channel.waiting, queue, Action.taken, event]
    rfl
  | other queue source target submitted taken =>
    simp only [Channel.waiting, queue, submitted, taken]
    rfl

theorem releases_add {c t : Channel} {a : Action}
    (h : t.waiter = none ∨ t.waiter.toList = c.waiter.toList ++ a.taken.toList) :
    (t.waiter.toList + FlushLedger.releases c a t : Multiset Nat) =
      c.waiter.toList + a.taken.toList := by
  unfold FlushLedger.releases
  split
  next hnone =>
    rw [hnone, ← Multiset.coe_add]
    exact zero_add _
  next hsome =>
    rw [h.resolve_left hsome, ← Multiset.coe_add]
    exact add_zero _

theorem QueueStep.handles {c t : Channel} (hs : QueueStep c a t) :
    (t.waiting + t.waiter.toList + FlushLedger.releases c a t : Multiset Nat) =
      c.waiting + c.waiter.toList + (a.submitted.bind (·.handle)).toList := by
  calc
    (t.waiting + t.waiter.toList + FlushLedger.releases c a t : Multiset Nat)
    _ = t.waiting + a.taken.toList + c.waiter.toList := by
      rw [add_assoc, releases_add hs.waiter, add_comm (Multiset.ofList c.waiter.toList), add_assoc]
    _ = c.waiting + (a.submitted.bind (·.handle)).toList + c.waiter.toList := by rw [hs.waiting]
    _ = c.waiting + c.waiter.toList + (a.submitted.bind (·.handle)).toList := add_right_comm _ _ _

theorem QueueStep.finished {c t : Channel} (hs : QueueStep c a t) (target : t.stage = .finished) :
    c.stage = .finished ∨ c.ends a = true := by
  cases hs with
  | submit m queue stage => exact .inl (stage ▸ target)
  | take m queue h h' source running | handle queue h h' source running =>
    rw [target] at running
    contradiction
  | other queue source _ _ _ ended => exact ended target

theorem QueueStep.waiting_finished {c t : Channel} (hs : QueueStep c a t)
    (target : t.stage = .finished) :
    (t.waiting : Multiset Nat) = c.waiting + (a.submitted.bind (·.handle)).toList := by
  have htaken : a.taken = none := by
    cases hs with
    | submit => rfl
    | take m queue h h' source running =>
      rw [target] at running
      contradiction
    | handle queue h h' source running event => exact event
    | other _ _ _ _ taken => exact taken
  have hwaiting := hs.waiting
  rwa [htaken, Option.toList_none, Multiset.coe_nil, add_zero] at hwaiting

theorem ends_source {c : Channel} {a : Action} (h : c.ends a = true) :
    c.stage ≠ .finished ∧ a.submitted = none ∧ FlushLedger.untold a = 0 := by
  unfold ends at h
  split at h
  next stage => exact ⟨by simp [stage], rfl, rfl⟩
  next stage => exact ⟨by simp [stage], rfl, rfl⟩
  next stage => exact ⟨by simp [stage], rfl, rfl⟩
  next => contradiction

theorem finished_of_ends {c t : Channel} (h : c.ends a = true) (hs : c.step a = some t) :
    t.stage = .finished := by
  unfold ends at h
  split at h
  next stage =>
    simp only [step, establish, stage] at hs
    exact Option.some.inj hs ▸ rfl
  next stage =>
    simp only [step, retry, stage] at hs
    exact Option.some.inj hs ▸ rfl
  next stage =>
    simp only [step, Channel.finish, stage] at hs
    split at h
    next e phase =>
      simp only [phase] at hs
      split at h
      next => contradiction
      next hresult =>
        simp only [hresult] at hs
        exact Option.some.inj hs ▸ rfl
      next hresult =>
        simp only [hresult] at hs
        exact Option.some.inj hs ▸ rfl
    next => contradiction
  next => contradiction

end Channel

namespace FlushLedger

def Balanced (l : FlushLedger) : Prop :=
  (l.channel.waiting + l.channel.waiter.toList + l.released : Multiset Nat) = l.accepted

theorem Balanced.settle {l : FlushLedger} (h : l.Balanced) : l.settle.Balanced := by
  unfold FlushLedger.settle
  split
  next hend =>
    calc
      (↑([] : List Nat) + ↑l.channel.waiter.toList +
          ↑(l.released ++ l.channel.waiting) : Multiset Nat)
      _ = l.channel.waiting + l.channel.waiter.toList + l.released := by
        rw [← Multiset.coe_add, Multiset.coe_nil]
        abel
      _ = l.accepted := h
  next hend => exact h

theorem Balanced.step {l m : FlushLedger} (h : l.Balanced) (hs : l.step a = some m) :
    m.Balanced := by
  cases a with
  | dropSenders =>
    obtain rfl := Option.some.inj hs
    exact Balanced.settle h
  | attemptReturns =>
    simp only [FlushLedger.step] at hs
    split at hs
    next => exact Option.some.inj hs ▸ Balanced.settle h
    next => contradiction
  | channel a =>
    obtain ⟨-, hs⟩ := Option.ite_none_left_eq_some.mp hs
    obtain ⟨t, ht, rfl⟩ := Option.map_eq_some_iff.mp hs
    have hstep := Channel.queueStep_sound ht
    refine Balanced.settle ?_
    calc
      (t.waiting + t.waiter.toList + ↑(l.released ++ releases l.channel a t) : Multiset Nat)
      _ = t.waiting + t.waiter.toList + releases l.channel a t + l.released := by
        rw [← Multiset.coe_add]
        abel
      _ = l.channel.waiting + l.channel.waiter.toList + l.released +
          (a.submitted.bind (·.handle)).toList := by
        rw [hstep.handles]
        abel
      _ = ↑(l.accepted ++ (a.submitted.bind (·.handle)).toList) := by
        rw [h, Multiset.coe_add]

theorem balanced_of_reaches {C : FlushLedger → Action → Prop} {l : FlushLedger}
    (h : machine.Reaches C l) : l.Balanced :=
  h.invariant (I := Balanced) rfl fun _ _ _ _ ih _ hs => ih.step hs

def Emptied (l : FlushLedger) : Prop := l.channel.stage = .finished → l.channel.waiting = []

theorem Emptied.settle {l : FlushLedger}
    (h : l.channel.stage = .finished → l.attempts ≠ 0 ∨ l.senders = true →
      l.channel.waiting = []) : l.settle.Emptied := by
  unfold FlushLedger.settle
  split
  next => exact fun _ => rfl
  next hend =>
    intro hstage
    refine h hstage ?_
    by_contra hnone
    obtain ⟨hattempts, hsenders⟩ := not_or.mp hnone
    refine hend ⟨?_, Bool.eq_false_iff.mpr hsenders⟩
    simp [received, hstage, not_not.mp hattempts]

theorem Emptied.step {l m : FlushLedger} (h : l.Emptied) (hC : l.FlushesTaken a)
    (hs : l.step a = some m) : m.Emptied := by
  cases a with
  | dropSenders =>
    obtain rfl := Option.some.inj hs
    exact .settle fun hstage _ => h hstage
  | attemptReturns =>
    simp only [FlushLedger.step] at hs
    split at hs
    next => exact Option.some.inj hs ▸ .settle fun hstage _ => h hstage
    next => contradiction
  | channel a =>
    obtain ⟨-, hs⟩ := Option.ite_none_left_eq_some.mp hs
    obtain ⟨t, ht, rfl⟩ := Option.map_eq_some_iff.mp hs
    have hstep := Channel.queueStep_sound ht
    refine .settle fun hstage hleft => ?_
    have hwaiting := hstep.waiting_finished hstage
    cases hstep.finished hstage with
    | inl hfinished =>
      rw [hC.2 hfinished, h hfinished] at hwaiting
      exact (Multiset.coe_eq_zero _).mp hwaiting
    | inr hends =>
      obtain ⟨-, hsubmitted, huntold⟩ := Channel.ends_source hends
      obtain hnone | ⟨hsenders, hattempts⟩ := hC.1 hends
      · rw [hsubmitted, hnone] at hwaiting
        exact (Multiset.coe_eq_zero _).mp hwaiting
      · simp [hattempts, huntold, hsenders] at hleft

theorem flush_released {l : FlushLedger} (h : machine.Reaches FlushesTaken l)
    (ended : l.channel.stage = .finished) : l.accepted.Perm l.released := by
  have hempty : l.Emptied :=
    h.invariant (I := Emptied) (fun _ => rfl) fun _ _ _ _ ih hC hs => ih.step hC hs
  have hbalance : (l.channel.waiting + l.channel.waiter.toList + l.released : Multiset Nat) =
      l.accepted := balanced_of_reaches h
  have hwaiter : l.channel.waiter = none := by simp only [Channel.waiter, ended]
  rw [hempty ended, hwaiter] at hbalance
  exact Multiset.coe_eq_coe.mp (hbalance.symm.trans (zero_add _))

theorem flush_released_terminated : ∃ l, machine.Reaches FlushesTaken l ∧
    l.accepted = [7] ∧ l.accepted.Perm l.released := by
  obtain ⟨l, hr, haccepted, hended⟩ := Machine.exists_reaches_of_replay (M := machine)
    (C := FlushesTaken) (P := fun l => l.accepted = [7] ∧ l.channel.stage = .finished)
    [.channel (.establish .ok), .attemptReturns, .channel (.connect true),
      .channel (.submit (.flush 7)),
      .channel (.handler .advance), .channel (.handler (.request (some (.flush 7)))),
      .channel (.handler .advance), .channel (.submit .terminate), .channel (.handler .advance),
      .channel (.handler (.request (some .terminate))),
      .channel (.handler (.close .complete)), .channel (.handler (.close .complete)),
      .channel .finish]
    (by decide)
  exact ⟨l, hr, haccepted, flush_released hr hended⟩

theorem unreleased_of_kept {l : FlushLedger} (h : l.settle.Balanced)
    (ended : l.channel.stage = .finished) (left : l.channel.waiting ≠ [])
    (kept : l.attempts ≠ 0 ∨ l.senders = true) :
    l.settle.channel.stage = .finished ∧ ¬l.settle.accepted.Perm l.settle.released := by
  have hsettle : l.settle = l := by
    refine if_neg fun ⟨hreceived, hsenders⟩ => ?_
    obtain hattempts | hkept := kept
    · simp [received, hattempts] at hreceived
    · rw [hsenders] at hkept
      contradiction
  rw [hsettle] at h ⊢
  refine ⟨ended, fun hperm => left ?_⟩
  have hlength := congrArg Multiset.card h
  simp only [Multiset.card_add, Multiset.coe_card, hperm.length_eq] at hlength
  exact List.eq_nil_of_length_eq_zero (by omega)

theorem unreleased_of_untaken {l m : FlushLedger} (h : machine.Reachable l)
    (untaken : ¬l.FlushesTaken a) (hs : l.step a = some m) :
    m.channel.stage = .finished ∧ ¬m.accepted.Perm m.released := by
  have hbalance := balanced_of_reaches (h.step trivial hs)
  cases a with
  | dropSenders | attemptReturns => exact absurd trivial untaken
  | channel a =>
    obtain ⟨hopen, hs⟩ := Option.ite_none_left_eq_some.mp hs
    obtain ⟨t, ht, rfl⟩ := Option.map_eq_some_iff.mp hs
    have hstep := Channel.queueStep_sound ht
    by_cases hends : l.channel.ends a = true
    · obtain ⟨hstage, hsubmitted, -⟩ := Channel.ends_source hends
      have hleft : l.channel.waiting ≠ [] ∧ ¬(l.senders = false ∧ l.attempts = 0) := by
        refine not_or.mp fun htaken => untaken ⟨fun _ => htaken, fun hfinished => ?_⟩
        exact absurd hfinished hstage
      have htarget := Channel.finished_of_ends hends ht
      have hwaiting := hstep.waiting_finished htarget
      rw [hsubmitted] at hwaiting
      refine unreleased_of_kept hbalance htarget (fun hnil => hleft.1 ?_) ?_
      · rw [hnil] at hwaiting
        exact (Multiset.coe_eq_zero _).mp ((add_zero _).symm.trans hwaiting.symm)
      · obtain hsenders | hattempts := not_and_or.mp hleft.2
        · exact .inr (Bool.eq_true_of_not_eq_false hsenders)
        · exact .inl fun hzero => hattempts (Nat.eq_zero_of_add_eq_zero_right hzero)
    · have hlate : l.channel.stage = .finished ∧ a.submitted.bind (·.handle) ≠ none :=
        Classical.not_imp.mp fun hnone => untaken ⟨fun h => absurd h hends, hnone⟩
      obtain ⟨hfinished, hhandle⟩ := hlate
      cases a with
      | submit m =>
        cases hstep with
        | submit _ queue stage =>
          refine unreleased_of_kept hbalance (stage.trans hfinished) (fun hnil => hhandle ?_) ?_
          · simp only [Channel.waiting, queue, Table.filterMap_concat,
              List.append_eq_nil_iff] at hnil
            exact Option.toList_eq_nil_iff.mp hnil.2
          · exact .inr (by_contra fun hsenders =>
              hopen ⟨rfl, .inr (Bool.eq_false_iff.mpr hsenders)⟩)
        | other _ _ _ submitted => contradiction
      | dropQueue | establish | connect | handler | finish | retry => exact absurd rfl hhandle

/-- The receiver closes the channel while a Flush is in the control queue: its handle stays
there as long as the caller, which waits for it, keeps its Sender. -/
theorem flush_stranded : ∃ l, machine.Reachable l ∧ l.channel.stage = .finished ∧
    l.senders = true ∧ l.attempts = 0 ∧ l.accepted = [7] ∧ l.released = [] ∧
    l.channel.waiting = [7] :=
  Machine.exists_reaches_of_replay (M := machine) (C := fun _ _ => True)
    (P := fun l => l.channel.stage = .finished ∧ l.senders = true ∧ l.attempts = 0 ∧
      l.accepted = [7] ∧ l.released = [] ∧ l.channel.waiting = [7])
    [.channel (.establish .ok), .attemptReturns, .channel (.connect true),
      .channel (.handler .advance), .channel (.submit (.flush 7)),
      .channel (.handler (.response (some (.ok .close)))), .channel .finish]
    (by decide)

/-- The channel has ended, its queue is empty, and a Flush is put into it before the attempt has
read that the channel was established. -/
theorem late_flush_stranded : ∃ l, machine.Reachable l ∧ l.channel.stage = .finished ∧
    l.senders = true ∧ l.attempts = 0 ∧ l.accepted = [7] ∧ l.released = [] ∧
    l.channel.waiting = [7] :=
  Machine.exists_reaches_of_replay (M := machine) (C := fun _ _ => True)
    (P := fun l => l.channel.stage = .finished ∧ l.senders = true ∧ l.attempts = 0 ∧
      l.accepted = [7] ∧ l.released = [] ∧ l.channel.waiting = [7])
    [.channel (.establish .ok), .channel (.connect true), .channel (.handler .advance),
      .channel (.handler (.response (some (.ok .close)))), .channel .finish,
      .channel (.submit (.flush 7)), .attemptReturns]
    (by decide)

end FlushLedger

end BdsPro.Network.Sender
