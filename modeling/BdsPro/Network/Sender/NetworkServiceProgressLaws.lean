import BdsPro.Network.Sender.ConnectionProgressLaws
import BdsPro.Network.Sender.NetworkServiceLaws

namespace BdsPro.Network.Sender

open BdsPro.Library

namespace ConnectionHandler

theorem cancelled_of_step {c d : ConnectionHandler} (hs : c.step a = some d) (ha : a ≠ .cancel) :
    d.cancelled = c.cancelled := by
  cases step_sound hs with
  | cancel => contradiction
  | _ => rfl

theorem settled_new : new.Settled := ⟨rfl, by simp [new], by simp [new]⟩

theorem Settled.unanswered {c : ConnectionHandler} (h : c.Settled) : c.unanswered = 0 := by
  have hattempts : c.attempts.filterMap Attempt.unanswered = [] := by
    refine List.filterMap_eq_nil_iff.mpr fun a ha => if_neg ?_
    simp [h.attempts a ha]
  rw [ConnectionHandler.unanswered, h.control, hattempts]
  rfl

theorem variant_register {c d : ConnectionHandler} (hs : c.step (.register n) = some d) :
    d.variant = c.variant + 8 := by
  cases step_sound hs with
  | register =>
    simp only [variant, turn, List.length_append, List.length_singleton]
    omega
  | badConnection event => obtain event | event := event <;> contradiction

end ConnectionHandler

def Dispatcher.weight : Dispatcher → Nat
  | .creating _ => 16
  | .forwarding _ => 9
  | .receiving | .ended => 0

namespace NetworkService

def smooth : Action → Bool
  | .send _ | .receive | .create | .forward | .respond _ _ => true
  | .connection _ a => ConnectionHandler.smooth a
  | _ => false

def Smooth (_ : NetworkService) (a : Action) : Prop := smooth a = true

structure Settled (s : NetworkService) : Prop where
  calls : ∀ c ∈ s.calls, c.phase = .returned true
  handlers : ∀ k, (s.handler k).Settled

structure Up (s : NetworkService) : Prop where
  dispatcher : s.dispatcher ≠ .ended
  calls : ∀ c ∈ s.calls, c.phase ≠ .returned false
  live : ∀ k, (s.handler k).cancelled = false
  handler : ∀ m, s.dispatcher = .forwarding m → (s.connections.lookup m.connection).isSome

theorem cancelled_of_step {s t : NetworkService} (hs : Step s a t) (ha : a ≠ .stop)
    (k : ConnectionIdentifier) : (t.handler k).cancelled = (s.handler k).cancelled := by
  obtain ⟨-, hsame⟩ | ⟨b, haction, hstep⟩ := Machine.follow_cases (handler_of_step hs k)
  · rw [hsame]
  · refine ConnectionHandler.cancelled_of_step hstep ?_
    rintro rfl
    obtain ⟨-, _, hb⟩ | ⟨_, -, hb⟩ | own | ⟨rfl, -⟩ := handlerAction_cases hs haction
    all_goals contradiction

theorem isSome_insert {m : Map ConnectionIdentifier ConnectionHandler} (k' : ConnectionIdentifier)
    (c : ConnectionHandler) (h : (m.lookup k).isSome) : ((m.insert k' c).lookup k).isSome := by
  rw [Map.lookup_insert]
  split
  · rfl
  · exact h

theorem Up.step {s t : NetworkService} (h : s.Up) (running : t.runtime = .running)
    (hs : Step s a t) : t.Up := by
  have hstop : a ≠ .stop := by
    rintro rfl
    cases hs with
    | stop runtime => cases runtime.symm.trans running
  have hlive (k : ConnectionIdentifier) : (t.handler k).cancelled = false :=
    (cancelled_of_step hs hstop k).trans (h.live k)
  cases hs with
  | registerChannel =>
    refine ⟨h.dispatcher, fun c hc => ?_, hlive, h.handler⟩
    obtain hc | hc := List.mem_append.mp hc
    · exact h.calls c hc
    · obtain rfl := List.mem_singleton.mp hc
      exact nofun
  | refused _ _ ended => exact absurd ended h.dispatcher
  | submit =>
    refine ⟨h.dispatcher, fun c hc => ?_, hlive, h.handler⟩
    obtain hc | rfl := List.mem_or_eq_of_mem_set hc
    · exact h.calls c hc
    · exact nofun
  | receive => exact ⟨nofun, h.calls, hlive, nofun⟩
  | found _ _ handler =>
    refine ⟨nofun, h.calls, hlive, fun m hm => ?_⟩
    obtain rfl := Dispatcher.forwarding.inj hm
    exact handler
  | create =>
    refine ⟨nofun, h.calls, hlive, fun m hm => ?_⟩
    obtain rfl := Dispatcher.forwarding.inj hm
    rw [Map.lookup_insert_self]
    rfl
  | forward => exact ⟨nofun, h.calls, hlive, nofun⟩
  | respond =>
    refine ⟨h.dispatcher, fun c hc => ?_, hlive, fun m hm => isSome_insert _ _ (h.handler m hm)⟩
    obtain ⟨i, hi⟩ := List.getElem?_of_mem hc
    obtain ⟨c', hc', ⟨-, rfl⟩ | ⟨-, rfl⟩⟩ := Table.modify_cases hi
    · exact nofun
    · exact h.calls c (List.mem_of_getElem? hc')
  | connection =>
    exact ⟨h.dispatcher, h.calls, hlive, fun m hm => isSome_insert _ _ (h.handler m hm)⟩
  | stop => contradiction
  | shutdown => contradiction
  | tearDown => contradiction

theorem up_of_reachable {s : NetworkService} (h : machine.Reachable s)
    (running : s.runtime = .running) : s.Up := by
  refine h.invariant (I := fun s => s.runtime = .running → s.Up) (fun _ => ?_) ?_ running
  · exact ⟨nofun, nofun, fun _ => rfl, nofun⟩
  · intro s a t _ ih _ hs running
    have hs := step_sound hs
    refine (ih ?_).step running hs
    cases hs with
    | shutdown | tearDown => contradiction
    | _ => exact running

def Enabled (s : NetworkService) : Prop := ∃ a t, s.Smooth a ∧ machine.step s a = some t

theorem Enabled.of_isSome {s : NetworkService} {a : Action} (smooth : s.Smooth a)
    (h : (s.step a).isSome) : s.Enabled := by
  obtain ⟨t, ht⟩ := Option.isSome_iff_exists.mp h
  exact ⟨a, t, smooth, ht⟩

theorem handler_enabled {s : NetworkService} (h : machine.Reachable s)
    (running : s.runtime = .running) (unsettled : ¬(s.handler k).Settled) : s.Enabled := by
  have hreach := handler_reachable h k
  have hlive := (up_of_reachable h running).live k
  obtain ⟨c, hc⟩ : ∃ c, s.connections.lookup k = some c := by
    by_contra hnone
    have hnone := Option.eq_none_iff_forall_not_mem.mpr fun c hc => hnone ⟨c, hc⟩
    rw [handler, hnone] at unsettled
    exact unsettled ConnectionHandler.settled_new
  have hhandler : s.handler k = c := by rw [handler, hc]; rfl
  obtain ⟨a, d, smooth, hd⟩ :=
    ConnectionHandler.enabled_of_unsettled hreach hlive unsettled
  have hd : c.step a = some d := hhandler ▸ hd
  have hruntime : s.runtime ≠ .gone := by simp [running]
  by_cases hrespond : ∃ i, a = .respond i true
  · obtain ⟨i, rfl⟩ := hrespond
    obtain ⟨a, ha, hrespond⟩ := Option.bind_eq_some_iff.mp hd
    have hnaming : a.naming ∈ (s.handler k).namings := by
      rw [hhandler, ConnectionHandler.namings, Multiset.mem_add, Multiset.mem_add]
      exact .inl (.inr (List.mem_map_of_mem (List.mem_of_getElem? ha)))
    obtain ⟨m, hm, -⟩ := Option.map_eq_some_iff.mp ((numbered_of_reachable h k).channel _ hnaming)
    have hm : (s.forwardedTo k)[a.registration]? = some m := hm
    have hrespond : c.respond i true = some d := hd
    refine .of_isSome (a := .respond k i) rfl ?_
    simp [step, task, hruntime, respond, hc, ha, hrespond, hm]
  · have hown : ownStep a = true := by
      cases a with
      | respond i ok =>
        cases ok with
        | true => exact absurd ⟨i, rfl⟩ hrespond
        | false => contradiction
      | cancel | register => contradiction
      | _ => rfl
    refine .of_isSome (a := .connection k a) smooth ?_
    simp [step, task, hruntime, connection, hown, hc, hd]

theorem dispatcher_enabled {s : NetworkService} (h : machine.Reachable s)
    (running : s.runtime = .running) (work : s.dispatcher.hand ++ s.queue ≠ []) : s.Enabled := by
  have hup := up_of_reachable h running
  have hruntime : s.runtime ≠ .gone := by simp [running]
  cases hdispatcher : s.dispatcher with
  | receiving =>
    simp only [hdispatcher, Dispatcher.hand, List.nil_append] at work
    obtain ⟨m, rest, hqueue⟩ := List.exists_cons_of_ne_nil work
    refine .of_isSome (a := .receive) rfl ?_
    simp [step, task, hruntime, receive, hdispatcher, hqueue]
  | creating m =>
    refine .of_isSome (a := .create) rfl ?_
    simp [step, task, hruntime, create, hdispatcher]
  | forwarding m =>
    obtain ⟨c, hc⟩ := Option.isSome_iff_exists.mp (hup.handler m hdispatcher)
    by_cases hroom : c.control.length < ConnectionHandler.controlLen
    · refine .of_isSome (a := .forward) rfl ?_
      simp [step, task, hruntime, forward, hdispatcher, hc, ConnectionHandler.register, hroom]
    · refine handler_enabled (k := m.connection) h running fun hsettled => hroom ?_
      have hcontrol := hsettled.control
      rw [handler, hc] at hcontrol
      simp [show c.control = [] from hcontrol, ConnectionHandler.controlLen]
  | ended => exact absurd hdispatcher hup.dispatcher

theorem enabled_of_unsettled {s : NetworkService} (h : machine.Reachable s)
    (running : s.runtime = .running) (unsettled : ¬s.Settled) : s.Enabled := by
  by_contra hstuck
  have hsettled (k : ConnectionIdentifier) : (s.handler k).Settled := by
    by_contra hk
    exact hstuck (handler_enabled h running hk)
  have hidle : s.dispatcher.hand ++ s.queue = [] := by
    by_contra hwork
    exact hstuck (dispatcher_enabled h running hwork)
  have hup := up_of_reachable h running
  refine unsettled ⟨fun c hc => ?_, hsettled⟩
  obtain ⟨i, hi⟩ := List.getElem?_of_mem hc
  cases hp : c.phase with
  | sending =>
    refine absurd (.of_isSome (a := .send i) rfl ?_) hstuck
    have hqueue := (List.append_eq_nil_iff.mp hidle).2
    simp [step, send, hi, hp, hup.dispatcher, hqueue, queueLen]
  | waiting =>
    have hphased := phased_of_reachable h
    have hphase : s.phase i = some .waiting :=
      (congrArg (Option.map Call.phase) hi).trans (congrArg some hp)
    obtain ⟨m, hm, rfl⟩ := hphased.placed i _ hphase (.inl rfl)
    rw [hidle, List.append_nil] at hm
    obtain ⟨r, hr⟩ := exists_registered hm
    have hanswer := hphased.forwarded _ r m hr
    rw [hphase, answer, (hsettled m.connection).unanswered,
      if_neg (Multiset.notMem_zero r)] at hanswer
    cases hanswer
  | returned ok =>
    cases ok with
    | true => rfl
    | false => exact absurd hp (hup.calls c hc)

def variant (s : NetworkService) : Nat :=
  18 * s.calls.countP (·.phase = .sending) + 17 * s.queue.length + s.dispatcher.weight +
    (s.connections.values.map ConnectionHandler.variant).sum

theorem countP_modify_le (l : List Call) (i : Nat) :
    (l.modify i fun c => { c with phase := .returned true }).countP (·.phase = .sending) ≤
      l.countP (·.phase = .sending) := by
  cases hc : l[i]? with
  | none => rw [List.modify_eq_self (List.getElem?_eq_none_iff.mp hc)]
  | some c =>
    rw [Table.modify_eq_set hc]
    have hcount := Table.countP_set_add (fun c : Call => c.phase = .sending) hc
      { c with phase := .returned true }
    simp at hcount
    omega

theorem variant_step {s t : NetworkService} (h : machine.Reachable s)
    (running : s.runtime = .running) (smooth : s.Smooth a) (hs : Step s a t) :
    t.variant < s.variant := by
  have hup := up_of_reachable h running
  have hhandler {k : ConnectionIdentifier} {c d : ConnectionHandler} {b : ConnectionHandler.Action}
      (hc : s.connections.lookup k = some c) (hsmooth : c.Smooth b) (hd : c.step b = some d) :
      d.variant < c.variant := by
    have heq : s.handler k = c := by rw [handler, hc]; rfl
    exact ConnectionHandler.variant_step (heq ▸ handler_reachable h k) (heq ▸ hup.live k) hsmooth
      (ConnectionHandler.step_sound hd)
  cases hs with
  | registerChannel | stop | shutdown | tearDown => contradiction
  | refused _ _ ended => exact absurd ended hup.dispatcher
  | @submit i c call phase =>
    have hcount := Table.countP_set_add (fun c : Call => c.phase = .sending) call
      { c with phase := .waiting }
    simp [phase] at hcount
    simp only [variant, List.length_append, List.length_singleton]
    omega
  | receive _ dispatcher queue =>
    simp only [variant, dispatcher, queue, Dispatcher.weight, List.length_cons]
    omega
  | found _ dispatcher =>
    simp only [variant, dispatcher, Dispatcher.weight]
    omega
  | @create m _ dispatcher fresh =>
    have hsum := congrArg (fun v => (v.map ConnectionHandler.variant).sum)
      (Map.values_insert (v := .new) fresh)
    have hnew : ConnectionHandler.new.variant = 6 := rfl
    simp only [Multiset.map_cons, Multiset.sum_cons, hnew] at hsum
    simp only [variant, dispatcher, Dispatcher.weight]
    omega
  | @forward m c d _ dispatcher handler registered =>
    have hsum := Map.sum_insert_add ConnectionHandler.variant handler d
    rw [ConnectionHandler.variant_register registered] at hsum
    simp only [variant, dispatcher, Dispatcher.weight]
    omega
  | @respond k c i a d m _ handler _ responded =>
    have hsum := Map.sum_insert_add ConnectionHandler.variant handler d
    have hless := hhandler (b := .respond i true) handler rfl responded
    have hcount := countP_modify_le s.calls m.call
    simp only [variant]
    omega
  | @connection k c a d _ _ handler stepped =>
    have hsum := Map.sum_insert_add ConnectionHandler.variant handler d
    have hless := hhandler handler smooth stepped
    simp only [variant]
    omega

theorem runtime_of_smooth {s t : NetworkService} (smooth : s.Smooth a) (hs : Step s a t) :
    t.runtime = s.runtime := by
  cases hs with
  | shutdown | tearDown => contradiction
  | _ => rfl

def Answered (s : NetworkService) : Prop :=
  (∀ c ∈ s.calls, c.phase = .returned true) ∧ ∀ k, (s.handler k).Served

theorem Settled.answered {s : NetworkService} (h : s.Settled) (hr : machine.Reachable s) :
    s.Answered :=
  ⟨h.calls, fun k =>
    (h.handlers k).served (ConnectionHandler.conserved_of_reachable (handler_reachable hr k))⟩

/-- As long as the service runs and the network behaves, every call of `register_channel` returns
with its control queue, and its channel comes to be served. -/
theorem answered_eventually {s : NetworkService} (h : machine.Reachable s)
    (running : s.runtime = .running) : machine.Inevitably Smooth Answered s := by
  by_cases hsettled : s.Settled
  · exact .now (hsettled.answered h)
  · refine Machine.Inevitably.of_variant
      (I := fun s => machine.Reachable s ∧ s.runtime = .running ∧ ¬s.Settled) variant ?_ ?_
      ⟨h, running, hsettled⟩
    · exact fun s ⟨h, running, unsettled⟩ => enabled_of_unsettled h running unsettled
    · intro s a t ⟨h, running, unsettled⟩ smooth hs
      have ht : machine.Reachable t := .step h trivial hs
      by_cases hsettled : t.Settled
      · exact .inl (hsettled.answered ht)
      · refine .inr ⟨⟨ht, ?_, hsettled⟩, variant_step h running smooth (step_sound hs)⟩
        exact (runtime_of_smooth smooth (step_sound hs)).trans running

theorem answered_eventually_full :
    ∃ s, machine.Reachable s ∧ s.queue.length = queueLen ∧ s.phase 5 = some .sending ∧
      machine.Inevitably Smooth Answered s := by
  obtain ⟨s, hs, running, hqueue, hphase⟩ := Machine.exists_reaches_of_replay
    (M := machine) (C := fun _ _ => True)
    (P := fun s => s.runtime = .running ∧ s.queue.length = queueLen ∧ s.phase 5 = some .sending)
    [.registerChannel "n" "a", .registerChannel "n" "b", .registerChannel "m" "c",
      .registerChannel "n" "d", .registerChannel "m" "e", .registerChannel "n" "f", .send 0,
      .send 1, .send 2, .send 3, .send 4] (by decide)
  exact ⟨s, hs, hqueue, hphase, answered_eventually hs running⟩

end NetworkService

end BdsPro.Network.Sender
