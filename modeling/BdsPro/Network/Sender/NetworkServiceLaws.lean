import BdsPro.Library.Progress
import BdsPro.Network.Sender.CallerLaws
import BdsPro.Network.Sender.NetworkService

namespace BdsPro.Network.Sender.NetworkService

open BdsPro.Library

inductive Step (s : NetworkService) : Action → NetworkService → Prop
  | registerChannel (k : ConnectionIdentifier) (c : ChannelIdentifier) :
    Step s (.registerChannel k c) { s with calls := s.calls ++ [⟨k, c, .sending⟩] }
  | refused (call : s.calls[i]? = some c) (phase : c.phase = .sending)
      (ended : s.dispatcher = .ended) :
    Step s (.send i) { s with calls := s.calls.set i { c with phase := .returned false } }
  | submit (call : s.calls[i]? = some c) (phase : c.phase = .sending)
      (live : s.dispatcher ≠ .ended) (room : s.queue.length < queueLen) :
    Step s (.send i) { s with
      calls := s.calls.set i { c with phase := .waiting }
      queue := s.queue ++ [⟨c.connection, c.channel, i⟩]
      submitted := s.submitted ++ [⟨c.connection, c.channel, i⟩] }
  | receive (runtime : s.runtime ≠ .gone) (dispatcher : s.dispatcher = .receiving)
      (queue : s.queue = m :: rest) :
    Step s .receive { s with queue := rest, dispatcher := .creating m }
  | found (runtime : s.runtime ≠ .gone) (dispatcher : s.dispatcher = .creating m)
      (handler : (s.connections.lookup m.connection).isSome) :
    Step s .create { s with dispatcher := .forwarding m }
  | create (runtime : s.runtime ≠ .gone) (dispatcher : s.dispatcher = .creating m)
      (fresh : s.connections.lookup m.connection = none) :
    Step s .create { s with
      dispatcher := .forwarding m
      connections := s.connections.insert m.connection .new }
  | forward (runtime : s.runtime ≠ .gone) (dispatcher : s.dispatcher = .forwarding m)
      (handler : s.connections.lookup m.connection = some c)
      (registered : c.step (.register m.channel) = some d) :
    Step s .forward { s with
      dispatcher := .receiving
      connections := s.connections.insert m.connection d
      forwarded := s.forwarded ++ [m] }
  | respond (runtime : s.runtime ≠ .gone) (handler : s.connections.lookup k = some c)
      (attempt : c.attempts[i]? = some a) (responded : c.step (.respond i true) = some d)
      (call : (s.forwardedTo k)[a.registration]? = some m) :
    Step s (.respond k i) { s with
      connections := s.connections.insert k d
      calls := s.calls.modify m.call fun call => { call with phase := .returned true } }
  | connection (runtime : s.runtime ≠ .gone) (own : ownStep a = true)
      (handler : s.connections.lookup k = some c) (stepped : c.step a = some d) :
    Step s (.connection k a) { s with connections := s.connections.insert k d }
  | stop (runtime : s.runtime = .shuttingDown) (live : s.dispatcher ≠ .ended) :
    Step s .stop { s with
      dispatcher := .ended
      connections := s.connections.mapVal fun _ handler => { handler with cancelled := true }
      calls := s.calls.mapIdx fun i call =>
        if i ∈ s.dispatcher.hand.map (·.call) then { call with phase := .returned false }
        else call }
  | shutdown (runtime : s.runtime = .running) :
    Step s .shutdown { s with runtime := .shuttingDown }
  | tearDown (runtime : s.runtime = .shuttingDown) :
    Step s .tearDown { s with
      runtime := .gone
      dispatcher := .ended
      calls := s.calls.mapIdx fun i call =>
        if call.phase = .waiting ∧ i ∉ s.queue.map (·.call) then
          { call with phase := .returned false }
        else call }

theorem task_eq_some {s t : NetworkService} {o : Option NetworkService}
    (h : s.task o = some t) : s.runtime ≠ .gone ∧ o = some t := Option.ite_none_left_eq_some.mp h

theorem step_sound {s t : NetworkService} (hs : s.step a = some t) : Step s a t := by
  cases a with
  | registerChannel k c => exact Option.some.inj hs ▸ .registerChannel k c
  | send i =>
    obtain ⟨c, call, hs⟩ := Option.bind_eq_some_iff.mp hs
    obtain ⟨phase, hs⟩ := Option.ite_none_right_eq_some.mp hs
    split at hs
    next ended => exact Option.some.inj hs ▸ .refused call phase ended
    next live =>
      obtain ⟨room, hs⟩ := Option.ite_none_right_eq_some.mp hs
      exact Option.some.inj hs ▸ .submit call phase live room
  | receive =>
    obtain ⟨runtime, hs⟩ := task_eq_some hs
    unfold receive at hs
    split at hs
    next m rest dispatcher queue => exact Option.some.inj hs ▸ .receive runtime dispatcher queue
    next => contradiction
  | create =>
    obtain ⟨runtime, hs⟩ := task_eq_some hs
    unfold create at hs
    split at hs
    next m dispatcher =>
      obtain rfl := Option.some.inj hs
      split
      next handler => exact .found runtime dispatcher handler
      next fresh => exact .create runtime dispatcher (Option.not_isSome_iff_eq_none.mp fresh)
    next => contradiction
  | forward =>
    obtain ⟨runtime, hs⟩ := task_eq_some hs
    unfold forward at hs
    split at hs
    next m dispatcher =>
      obtain ⟨c, handler, hs⟩ := Option.bind_eq_some_iff.mp hs
      obtain ⟨d, registered, hs⟩ := Option.bind_eq_some_iff.mp hs
      exact Option.some.inj hs ▸ .forward runtime dispatcher handler registered
    next => contradiction
  | respond k i =>
    obtain ⟨runtime, hs⟩ := task_eq_some hs
    obtain ⟨c, handler, hs⟩ := Option.bind_eq_some_iff.mp hs
    obtain ⟨a, attempt, hs⟩ := Option.bind_eq_some_iff.mp hs
    obtain ⟨d, responded, hs⟩ := Option.bind_eq_some_iff.mp hs
    obtain ⟨m, call, hs⟩ := Option.bind_eq_some_iff.mp hs
    exact Option.some.inj hs ▸ .respond runtime handler attempt responded call
  | connection k a =>
    obtain ⟨runtime, hs⟩ := task_eq_some hs
    obtain ⟨own, hs⟩ := Option.ite_none_right_eq_some.mp hs
    obtain ⟨c, handler, hs⟩ := Option.bind_eq_some_iff.mp hs
    obtain ⟨d, stepped, hs⟩ := Option.bind_eq_some_iff.mp hs
    exact Option.some.inj hs ▸ .connection runtime own handler stepped
  | stop =>
    obtain ⟨⟨runtime, live⟩, hs⟩ := Option.ite_none_right_eq_some.mp hs
    exact Option.some.inj hs ▸ .stop runtime live
  | shutdown =>
    obtain ⟨runtime, hs⟩ := Option.ite_none_right_eq_some.mp hs
    exact Option.some.inj hs ▸ .shutdown runtime
  | tearDown =>
    obtain ⟨runtime, hs⟩ := Option.ite_none_right_eq_some.mp hs
    exact Option.some.inj hs ▸ .tearDown runtime

def handler (s : NetworkService) (k : ConnectionIdentifier) : ConnectionHandler :=
  (s.connections.lookup k).getD .new

def handlerAction (k : ConnectionIdentifier) (s : NetworkService) :
    Action → Option ConnectionHandler.Action
  | .forward =>
    s.dispatcher.hand.head?.bind fun m =>
      if m.connection = k then some (.register m.channel) else none
  | .respond k' i => if k' = k then some (.respond i true) else none
  | .connection k' a => if k' = k then some a else none
  | .stop => if (s.connections.lookup k).isSome then some .cancel else none
  | _ => none

theorem handlerAction_forward {s : NetworkService} (dispatcher : s.dispatcher = .forwarding m)
    (k : ConnectionIdentifier) : handlerAction k s .forward =
      if m.connection = k then some (.register m.channel) else none := by
  rw [handlerAction, dispatcher]
  rfl

theorem follow_insert {s : NetworkService} {k' : ConnectionIdentifier} {c d : ConnectionHandler}
    (handler : s.connections.lookup k' = some c) (stepped : c.step a = some d)
    (k : ConnectionIdentifier) :
    ConnectionHandler.machine.follow (s.handler k) (if k' = k then some a else none) =
      some (((s.connections.insert k' d).lookup k).getD .new) := by
  split
  next hk =>
    subst hk
    rw [Map.lookup_insert_self, NetworkService.handler, handler]
    exact stepped
  next hk =>
    rw [Map.lookup_insert, if_neg (Ne.symm hk)]
    rfl

theorem handler_of_step {s t : NetworkService} (hs : Step s a t) (k : ConnectionIdentifier) :
    ConnectionHandler.machine.follow (s.handler k) (handlerAction k s a) = some (t.handler k) := by
  cases hs with
  | forward runtime dispatcher handler registered =>
    rw [handlerAction_forward dispatcher]
    exact follow_insert handler registered k
  | respond _ handler _ responded => exact follow_insert handler responded k
  | connection _ _ handler stepped => exact follow_insert handler stepped k
  | create _ _ fresh =>
    refine congrArg some ?_
    rw [handler, handler, Map.lookup_insert]
    split
    next hk => rw [hk, fresh]; rfl
    next => rfl
  | stop =>
    rw [handlerAction, handler, handler, Map.lookup_mapVal]
    cases s.connections.lookup k <;> rfl
  | _ => rfl

def handlerPart (k : ConnectionIdentifier) : Machine.Part ConnectionHandler.machine machine where
  state s := s.handler k
  action := handlerAction k
  init := rfl
  step hs := handler_of_step (step_sound hs) k

theorem handler_reachable {s : NetworkService} (h : machine.Reachable s)
    (k : ConnectionIdentifier) : ConnectionHandler.machine.Reachable (s.handler k) :=
  (handlerPart k).reaches (h.mono fun _ _ _ _ _ => trivial)

def Keeps (l l' : List Call) : Prop :=
  ∀ (i : Nat) (c : Call), l[i]? = some c → c.phase ≠ .sending →
    ∃ p, l'[i]? = some { c with phase := p } ∧ p ≠ .sending

theorem Keeps.concat (l : List Call) (c : Call) : Keeps l (l ++ [c]) :=
  fun _ d hi hp => ⟨d.phase, Table.concat_of_row hi, hp⟩

theorem Keeps.set {l : List Call} (call : l[i]? = some c) (phase : c.phase = .sending) (c' : Call) :
    Keeps l (l.set i c') := by
  intro j d hj hp
  have hne : i ≠ j := by
    rintro rfl
    exact hp (Option.some.inj (hj.symm.trans call) ▸ phase)
  exact ⟨d.phase, (List.getElem?_set_ne hne).trans hj, hp⟩

theorem Keeps.modify (l : List Call) (i : Nat) :
    Keeps l (l.modify i fun c => { c with phase := .returned true }) := by
  intro j d hj hp
  rw [List.getElem?_modify, hj]
  by_cases hij : i = j
  · exact ⟨.returned true, by simp [hij], nofun⟩
  · exact ⟨d.phase, by simp [hij], hp⟩

theorem Keeps.mapIdx (l : List Call) (P : Nat → Call → Prop) [∀ i c, Decidable (P i c)] :
    Keeps l (l.mapIdx fun i c => if P i c then { c with phase := .returned false } else c) := by
  intro j d hj hp
  rw [List.getElem?_mapIdx, hj, Option.map_some]
  split
  · exact ⟨.returned false, rfl, nofun⟩
  · exact ⟨d.phase, rfl, hp⟩

structure Known (s : NetworkService) : Prop where
  calls : ∀ m ∈ s.submitted, ∃ p, s.calls[m.call]? = some ⟨m.connection, m.channel, p⟩ ∧
    p ≠ .sending
  nodup : (s.submitted.map (·.call)).Nodup
  passed : (s.forwarded ++ (s.dispatcher.hand ++ s.queue)).Sublist s.submitted

theorem Known.keep {s t : NetworkService} (h : s.Known) (keeps : Keeps s.calls t.calls)
    (submitted : t.submitted = s.submitted)
    (passed : (t.forwarded ++ (t.dispatcher.hand ++ t.queue)).Sublist
      (s.forwarded ++ (s.dispatcher.hand ++ s.queue))) : t.Known := by
  refine ⟨?_, submitted ▸ h.nodup, submitted ▸ passed.trans h.passed⟩
  rw [submitted]
  intro m hm
  obtain ⟨p, hp, hsent⟩ := h.calls m hm
  exact keeps m.call _ hp hsent

theorem Known.submit {s : NetworkService} (h : s.Known) (call : s.calls[i]? = some c)
    (phase : c.phase = .sending) : ∀ m ∈ s.submitted, m.call ≠ i := by
  rintro m hm rfl
  obtain ⟨p, hp, hsent⟩ := h.calls m hm
  exact hsent ((congrArg Call.phase (Option.some.inj (hp.symm.trans call))).trans phase)

theorem Known.step {s t : NetworkService} (h : s.Known) (hs : Step s a t) : t.Known := by
  have hkeep : Keeps s.calls s.calls := fun _ d hi hp => ⟨d.phase, hi, hp⟩
  cases hs with
  | registerChannel => exact h.keep (.concat _ _) rfl (.refl _)
  | refused call phase => exact h.keep (.set call phase _) rfl (.refl _)
  | @submit i c call phase =>
    have hnew := h.submit call phase
    refine ⟨fun m hm => ?_, ?_, ?_⟩
    · obtain hm | hm := List.mem_append.mp hm
      · obtain ⟨p, hp, hsent⟩ := h.calls m hm
        exact Keeps.set call phase _ m.call _ hp hsent
      · obtain rfl := List.mem_singleton.mp hm
        exact ⟨.waiting, Table.set_self call _, nofun⟩
    · rw [List.map_append]
      refine List.nodup_append.mpr ⟨h.nodup, List.nodup_singleton _, ?_⟩
      rintro _ hj _ hi rfl
      obtain ⟨m, hm, rfl⟩ := List.mem_map.mp hj
      exact hnew m hm (List.mem_singleton.mp hi)
    · rw [← List.append_assoc, ← List.append_assoc, List.append_assoc s.forwarded]
      exact h.passed.append (.refl _)
  | receive _ dispatcher queue =>
    exact h.keep hkeep rfl (by simp [dispatcher, queue, Dispatcher.hand])
  | found _ dispatcher | create _ dispatcher =>
    exact h.keep hkeep rfl (by simp [dispatcher, Dispatcher.hand])
  | forward _ dispatcher => exact h.keep hkeep rfl (by simp [dispatcher, Dispatcher.hand])
  | respond => exact h.keep (.modify _ _) rfl (.refl _)
  | connection | shutdown => exact h.keep hkeep rfl (.refl _)
  | stop =>
    refine h.keep (.mapIdx _ _) rfl ?_
    exact (List.Sublist.refl _).append (List.sublist_append_right _ _)
  | tearDown =>
    refine h.keep (.mapIdx _ _) rfl ?_
    exact (List.Sublist.refl _).append (List.sublist_append_right _ _)

theorem Known.disjoint {s : NetworkService} (h : s.Known) :
    (∀ m ∈ s.forwarded, ∀ n ∈ s.dispatcher.hand ++ s.queue, m.call ≠ n.call) ∧
      ∀ m ∈ s.dispatcher.hand, ∀ n ∈ s.queue, m.call ≠ n.call := by
  have hnodup := h.nodup.sublist (h.passed.map _)
  rw [List.map_append, List.nodup_append] at hnodup
  obtain ⟨-, hinside, hforwarded⟩ := hnodup
  rw [List.map_append, List.nodup_append] at hinside
  constructor
  · exact fun m hm n hn => hforwarded _ (List.mem_map_of_mem hm) _ (List.mem_map_of_mem hn)
  · exact fun m hm n hn => hinside.2.2 _ (List.mem_map_of_mem hm) _ (List.mem_map_of_mem hn)

theorem known_of_reachable {s : NetworkService} (h : machine.Reachable s) : s.Known :=
  h.invariant (I := Known) ⟨nofun, List.nodup_nil, .refl _⟩
    fun _ _ _ _ ih _ hs => ih.step (step_sound hs)

theorem handlerAction_cases {s t : NetworkService} (hs : Step s a t)
    (hb : handlerAction k s a = some b) :
    a = .forward ∧ (∃ c, b = .register c) ∨ (∃ i, a = .respond k i ∧ b = .respond i true) ∨
      ownStep b = true ∨ a = .stop ∧ b = .cancel := by
  cases hs with
  | forward _ dispatcher =>
    rw [handlerAction_forward dispatcher] at hb
    obtain ⟨-, hb⟩ := Option.ite_none_right_eq_some.mp hb
    exact .inl ⟨rfl, _, (Option.some.inj hb).symm⟩
  | respond =>
    obtain ⟨hk, hb⟩ := Option.ite_none_right_eq_some.mp hb
    exact .inr (.inl ⟨_, hk ▸ rfl, (Option.some.inj hb).symm⟩)
  | connection _ own =>
    obtain ⟨-, hb⟩ := Option.ite_none_right_eq_some.mp hb
    exact .inr (.inr (.inl (Option.some.inj hb ▸ own)))
  | stop =>
    obtain ⟨-, hb⟩ := Option.ite_none_right_eq_some.mp hb
    exact .inr (.inr (.inr ⟨rfl, (Option.some.inj hb).symm⟩))
  | _ => contradiction

theorem registers_of_step {s t : NetworkService} (hs : Step s a t) (ha : a ≠ .forward)
    (hb : handlerAction k s a = some b) : ConnectionHandler.registers b = none := by
  obtain ⟨rfl, -⟩ | ⟨_, -, rfl⟩ | own | ⟨-, rfl⟩ := handlerAction_cases hs hb
  · contradiction
  · rfl
  · cases b with
    | register => contradiction
    | _ => rfl
  · rfl

theorem mem_forwarded {s : NetworkService} {r : Registration}
    (h : (s.forwardedTo k)[r]? = some m) : m ∈ s.forwarded :=
  (List.mem_filter.mp (List.mem_of_getElem? h)).1

structure Numbered (s : NetworkService) (k : ConnectionIdentifier) : Prop where
  count : (s.forwardedTo k).length = (s.handler k).registrations
  channel : ∀ x ∈ (s.handler k).namings, (s.forwardedTo k)[x.1]?.map (·.channel) = some x.2

theorem Numbered.follow {s t : NetworkService} (h : s.Numbered k)
    (followed : ConnectionHandler.machine.follow (s.handler k) (some b) = some (t.handler k))
    (forwarded : (t.forwardedTo k).map (·.channel) =
      (s.forwardedTo k).map (·.channel) ++ (ConnectionHandler.registers b).toList) :
    t.Numbered k := by
  have stepped : (s.handler k).step b = some (t.handler k) := followed
  have hcount := congrArg List.length forwarded
  rw [List.length_map, List.length_append, List.length_map, h.count,
    ← ConnectionHandler.registrations_of_step stepped] at hcount
  refine ⟨hcount, fun x hx => ?_⟩
  rw [← List.getElem?_map, forwarded]
  obtain hold | ⟨hnew, hlast⟩ := ConnectionHandler.namings_of_step stepped x hx
  · have hx := h.channel x hold
    rw [← List.getElem?_map] at hx
    rw [List.getElem?_append_left (List.getElem?_eq_some_iff.mp hx).1]
    exact hx
  · rw [hnew, hlast, ← h.count, ← List.length_map]
    exact List.getElem?_concat_length

theorem Numbered.still {s t : NetworkService} (h : s.Numbered k)
    (handler : s.handler k = t.handler k) (forwarded : t.forwardedTo k = s.forwardedTo k) :
    t.Numbered k :=
  ⟨forwarded ▸ handler ▸ h.count, forwarded ▸ handler ▸ h.channel⟩

theorem Numbered.forward {s t : NetworkService} (h : s.Numbered k)
    (hs : Step s .forward t) : t.Numbered k := by
  have hfollow := handler_of_step hs k
  cases hs with
  | forward _ dispatcher =>
    rw [handlerAction_forward dispatcher] at hfollow
    split at hfollow
    next hk =>
      refine h.follow hfollow ?_
      simp [forwardedTo, List.filter_append, hk, ConnectionHandler.registers]
    next hk => exact h.still (Option.some.inj hfollow) (by simp [forwardedTo, hk])

theorem Numbered.step {s t : NetworkService} (h : s.Numbered k) (hs : Step s a t) :
    t.Numbered k := by
  by_cases ha : a = .forward
  · subst ha
    exact h.forward hs
  · have hforwarded : t.forwardedTo k = s.forwardedTo k := by
      cases hs with
      | forward => contradiction
      | _ => rfl
    obtain ⟨-, hsame⟩ | ⟨b, haction, hstep⟩ := Machine.follow_cases (handler_of_step hs k)
    · exact h.still hsame.symm hforwarded
    · refine h.follow hstep ?_
      rw [hforwarded, registers_of_step hs ha haction, Option.toList_none, List.append_nil]

theorem numbered_of_reachable {s : NetworkService} (h : machine.Reachable s)
    (k : ConnectionIdentifier) : s.Numbered k :=
  h.invariant (I := fun s => s.Numbered k) ⟨rfl, nofun⟩
    fun _ _ _ _ ih _ hs => ih.step (step_sound hs)

theorem answered_of_step {s t : NetworkService} (hs : Step s a t) (ha : ∀ i, a ≠ .respond k i)
    (hb : handlerAction k s a = some b) : (s.handler k).answered b = 0 := by
  obtain ⟨-, _, rfl⟩ | ⟨i, rfl, -⟩ | own | ⟨-, rfl⟩ := handlerAction_cases hs hb
  · rfl
  · exact absurd rfl (ha i)
  · cases b with
    | respond => contradiction
    | _ => rfl
  · rfl

theorem unanswered_still {s t : NetworkService} (h : machine.Reachable s) (hs : Step s a t)
    (forward : a ≠ .forward) (respond : ∀ i, a ≠ .respond k i) :
    (t.handler k).unanswered = (s.handler k).unanswered := by
  obtain ⟨-, hsame⟩ | ⟨b, haction, hstep⟩ := Machine.follow_cases (handler_of_step hs k)
  · rw [hsame]
  · have hcallers := ConnectionHandler.unanswered_of_step
      (ConnectionHandler.queued_of_reachable (handler_reachable h k)) hstep
    rw [answered_of_step hs respond haction, ConnectionHandler.asked,
      registers_of_step hs forward haction] at hcallers
    exact (add_zero _).symm.trans (hcallers.trans (add_zero _))

theorem unanswered_of_forward {s t : NetworkService} (h : machine.Reachable s)
    (hs : Step s .forward t) (dispatcher : s.dispatcher = .forwarding m)
    (k : ConnectionIdentifier) : (t.handler k).unanswered = (s.handler k).unanswered +
      if m.connection = k then {(s.handler k).registrations} else 0 := by
  have hfollow := handler_of_step hs k
  rw [handlerAction_forward dispatcher] at hfollow
  split at hfollow
  next hk =>
    have hregister : (s.handler k).step (.register m.channel) = some (t.handler k) := hfollow
    have hstep := ConnectionHandler.unanswered_of_step
      (ConnectionHandler.queued_of_reachable (handler_reachable h k)) hregister
    rw [if_pos hk]
    exact (add_zero _).symm.trans hstep
  next hk =>
    rw [if_neg hk, add_zero]
    exact congrArg _ (Option.some.inj hfollow).symm

theorem mem_unanswered_of_respond {s t : NetworkService} (h : machine.Reachable s)
    (hs : Step s (.respond k i) t) (attempt : (s.handler k).attempts[i]? = some a)
    (k' : ConnectionIdentifier) (r : Registration) : r ∈ (t.handler k').unanswered ↔
      r ∈ (s.handler k').unanswered ∧ (k' = k → r ≠ a.registration) := by
  by_cases hk : k' = k
  · subst hk
    have hfollow := handler_of_step hs k'
    rw [handlerAction, if_pos rfl] at hfollow
    rw [ConnectionHandler.mem_unanswered_of_respond (handler_reachable h k') hfollow attempt]
    simp
  · have hstill := unanswered_still h hs (k := k') nofun
      fun _ heq => hk (Action.respond.inj heq).1.symm
    simp [hstill, hk]

def phase (s : NetworkService) (i : Nat) : Option CallPhase := s.calls[i]?.map Call.phase

def answer (s : NetworkService) (k : ConnectionIdentifier) (r : Registration) : CallPhase :=
  if r ∈ (s.handler k).unanswered then
    if s.runtime = .gone then .returned false else .waiting
  else .returned true

structure Phased (s : NetworkService) : Prop where
  inside : ∀ m ∈ s.dispatcher.hand ++ s.queue, s.phase m.call = some .waiting
  forwarded : ∀ k r m, (s.forwardedTo k)[r]? = some m → s.phase m.call = some (s.answer k r)
  placed : ∀ i p, s.phase i = some p → p = .waiting ∨ p = .returned true →
    ∃ m ∈ s.forwarded ++ (s.dispatcher.hand ++ s.queue), m.call = i

theorem answer_sent (s : NetworkService) (k : ConnectionIdentifier) (r : Registration) :
    s.answer k r ≠ .sending := by
  unfold answer
  split
  · split <;> exact nofun
  · exact nofun

theorem answer_congr {s t : NetworkService}
    (unanswered : r ∈ (t.handler k).unanswered ↔ r ∈ (s.handler k).unanswered)
    (runtime : t.runtime = .gone ↔ s.runtime = .gone) : t.answer k r = s.answer k r := by
  simp only [answer, unanswered, runtime]

theorem Phased.keep {s t : NetworkService} (h : s.Phased)
    (inside : t.dispatcher.hand ++ t.queue = s.dispatcher.hand ++ s.queue)
    (forwarded : t.forwarded = s.forwarded) (answer : ∀ k r, t.answer k r = s.answer k r)
    (phase : ∀ i p, s.phase i = some p → p ≠ .sending → t.phase i = some p)
    (back : ∀ i p, t.phase i = some p → p = .waiting ∨ p = .returned true → s.phase i = some p) :
    t.Phased := by
  have hforwardedTo (k : ConnectionIdentifier) : t.forwardedTo k = s.forwardedTo k := by
    rw [forwardedTo, forwarded]
    rfl
  refine ⟨fun m hm => ?_, fun k r m hm => ?_, fun i p hi hp => ?_⟩
  · exact phase _ _ (h.inside m (inside ▸ hm)) nofun
  · rw [answer]
    exact phase _ _ (h.forwarded k r m (hforwardedTo k ▸ hm)) (answer_sent s k r)
  · rw [forwarded, inside]
    exact h.placed i p (back i p hi hp) hp

theorem phase_set {l : List Call} (call : l[i]? = some c) (c' : Call) (j : Nat) :
    (l.set i c')[j]?.map Call.phase = if i = j then some c'.phase else l[j]?.map Call.phase := by
  split
  next hij => rw [← hij, Table.set_self call]; rfl
  next hij => rw [List.getElem?_set_ne hij]

theorem phase_modify (l : List Call) (i j : Nat) :
    (l.modify i fun c => { c with phase := .returned true })[j]?.map Call.phase =
      if i = j then l[j]?.map fun _ => .returned true else l[j]?.map Call.phase := by
  rw [List.getElem?_modify]
  cases l[j]? with
  | none => simp
  | some c => by_cases hij : i = j <;> simp [hij]

theorem phase_mapIdx (l : List Call) (P : Nat → Call → Prop) [∀ i c, Decidable (P i c)] (j : Nat) :
    (l.mapIdx fun i c => if P i c then { c with phase := .returned false } else c)[j]?.map
      Call.phase = l[j]?.map fun c => if P j c then .returned false else c.phase := by
  rw [List.getElem?_mapIdx, Option.map_map]
  refine congrArg (fun f => l[j]?.map f) (funext fun c => ?_)
  exact apply_ite Call.phase _ _ _

theorem ne_of_sending {s : NetworkService} (call : s.calls[i]? = some c)
    (sending : c.phase = .sending) (hj : s.phase j = some p) (hp : p ≠ .sending) : i ≠ j := by
  rintro rfl
  rw [phase, call] at hj
  exact hp (Option.some.inj hj ▸ sending)

theorem Phased.submit {s : NetworkService} (h : s.Phased) (call : s.calls[i]? = some c)
    (sending : c.phase = .sending) : Phased { s with
      calls := s.calls.set i { c with phase := .waiting }
      queue := s.queue ++ [⟨c.connection, c.channel, i⟩]
      submitted := s.submitted ++ [⟨c.connection, c.channel, i⟩] } := by
  have hphase (j : Nat) (p : CallPhase) (hj : s.phase j = some p) (hp : p ≠ .sending) :
      (s.calls.set i { c with phase := .waiting })[j]?.map Call.phase = some p :=
    (phase_set call _ j).trans ((if_neg (ne_of_sending call sending hj hp)).trans hj)
  refine ⟨fun m hm => ?_, fun k r m hm => ?_, fun j p hj hp => ?_⟩
  · rw [← List.append_assoc] at hm
    obtain hm | hm := List.mem_append.mp hm
    · exact hphase _ _ (h.inside m hm) nofun
    · obtain rfl := List.mem_singleton.mp hm
      exact (phase_set call _ i).trans (if_pos rfl)
  · exact hphase _ _ (h.forwarded k r m hm) (answer_sent s k r)
  · rw [← List.append_assoc s.dispatcher.hand, ← List.append_assoc]
    by_cases hij : i = j
    · exact ⟨_, List.mem_append_right _ (List.mem_singleton_self _), hij⟩
    · rw [phase, phase_set call, if_neg hij] at hj
      obtain ⟨m, hm, hmj⟩ := h.placed j p hj hp
      exact ⟨m, List.mem_append_left _ hm, hmj⟩

theorem Phased.forward {s t : NetworkService} (h : s.Phased) (hr : machine.Reachable s)
    (hs : Step s .forward t) : t.Phased := by
  have hstep := hs
  cases hstep with
  | @forward m c d runtime dispatcher handler registered =>
    have hinside := h.inside
    have hplaced := h.placed
    simp only [dispatcher, Dispatcher.hand] at hinside hplaced
    refine ⟨fun m' hm => hinside m' (List.mem_cons_of_mem _ hm), fun k r m' hm => ?_,
      fun i p hi hp => ?_⟩
    · have hunanswered := unanswered_of_forward hr hs dispatcher k
      have hcount := (numbered_of_reachable hr k).count
      have hforwarded :
          (s.forwardedTo k ++ if m.connection = k then [m] else [])[r]? = some m' := by
        rw [← hm, forwardedTo, forwardedTo, List.filter_append]
        by_cases hk : m.connection = k <;> simp [hk]
      by_cases hlast : m.connection = k ∧ r = (s.handler k).registrations
      · obtain ⟨hk, hr⟩ := hlast
        rw [if_pos hk, hr, ← hcount, List.getElem?_concat_length] at hforwarded
        obtain rfl := Option.some.inj hforwarded
        refine (hinside m List.mem_cons_self).trans (congrArg some ?_)
        rw [answer, if_pos (by rw [hunanswered, if_pos hk, hr]; simp), if_neg runtime]
      · have hold : (s.forwardedTo k)[r]? = some m' := by
          by_cases hk : m.connection = k
          · rw [if_pos hk] at hforwarded
            obtain hold | ⟨hlen, -⟩ := Table.concat_cases hforwarded
            · exact hold
            · exact absurd ⟨hk, hlen.trans hcount⟩ hlast
          · rwa [if_neg hk, List.append_nil] at hforwarded
        refine (h.forwarded k r m' hold).trans (congrArg some ?_)
        refine Eq.symm (answer_congr ?_ Iff.rfl)
        rw [hunanswered, Multiset.mem_add]
        by_cases hk : m.connection = k
        · rw [if_pos hk, Multiset.mem_singleton, or_iff_left fun hr => hlast ⟨hk, hr⟩]
        · simp [hk]
    · obtain ⟨m', hm, hi⟩ := hplaced i p hi hp
      exact ⟨m', by simpa [Dispatcher.hand] using hm, hi⟩

theorem registration_eq {s : NetworkService} {m n : NetworkingServiceControlMessage}
    {r r' : Registration} (h : s.Known)
    (hm : (s.forwardedTo k)[r]? = some m) (hn : (s.forwardedTo k')[r']? = some n)
    (call : m.call = n.call) : k = k' ∧ r = r' := by
  have hnodup := (h.nodup.sublist (h.passed.map _)).sublist
    ((List.sublist_append_left s.forwarded _).map _)
  obtain ⟨hmem, hk⟩ := List.mem_filter.mp (List.mem_of_getElem? hm)
  obtain ⟨hmem', hk'⟩ := List.mem_filter.mp (List.mem_of_getElem? hn)
  obtain rfl := List.inj_on_of_nodup_map hnodup hmem hmem' call
  obtain rfl := (of_decide_eq_true hk).symm.trans (of_decide_eq_true hk')
  refine ⟨rfl, ?_⟩
  have hto : ((s.forwardedTo k).map (·.call)).Nodup := hnodup.sublist (List.filter_sublist.map _)
  exact (List.getElem?_inj (List.getElem?_eq_some_iff.mp hm).1 hto.of_map).mp (hm.trans hn.symm)

theorem Phased.respond {s t : NetworkService} (h : s.Phased) (hr : machine.Reachable s)
    (hs : Step s (.respond k i) t) : t.Phased := by
  have hstep := hs
  cases hstep with
  | @respond _ c _ a d m runtime handler attempt responded call =>
    have hknown := known_of_reachable hr
    have hhandler : s.handler k = c := by rw [NetworkService.handler, handler]; rfl
    have hunanswered := mem_unanswered_of_respond hr hs (hhandler ▸ attempt)
    have hm := mem_forwarded call
    refine ⟨fun m' hm' => ?_, fun k' r m' hm' => ?_, fun j p hj hp => ?_⟩
    · have hne := hknown.disjoint.1 m hm m' hm'
      exact (phase_modify _ _ _).trans ((if_neg hne).trans (h.inside m' hm'))
    · refine (phase_modify _ _ _).trans ?_
      split
      next hcall =>
        obtain ⟨rfl, rfl⟩ := registration_eq hknown call hm' hcall
        have hanswered : answer _ k a.registration = _ :=
          if_neg fun hmem => ((hunanswered k a.registration).mp hmem).2 rfl rfl
        rw [hanswered]
        obtain ⟨call, hcall, -⟩ := Option.map_eq_some_iff.mp (h.forwarded k _ m' hm')
        rw [hcall]
        rfl
      next hcall =>
        refine (h.forwarded k' r m' hm').trans (congrArg some ?_)
        refine Eq.symm (answer_congr ?_ Iff.rfl)
        rw [hunanswered, and_iff_left]
        rintro rfl rfl
        exact hcall (congrArg _ (Option.some.inj (call.symm.trans hm')))
    · rw [phase, phase_modify] at hj
      split at hj
      next hij => exact ⟨m, List.mem_append_left _ hm, hij⟩
      next => exact h.placed j p hj hp

theorem phase_of_mapIdx {l : List Call} {P : Nat → Call → Prop} [∀ i c, Decidable (P i c)]
    (hj : (l.mapIdx fun i c => if P i c then { c with phase := .returned false } else c)[j]?.map
      Call.phase = some p) (hp : p = .waiting ∨ p = .returned true) :
    ∃ c, l[j]? = some c ∧ c.phase = p ∧ ¬P j c := by
  rw [phase_mapIdx, Option.map_eq_some_iff] at hj
  obtain ⟨c, hc, hphase⟩ := hj
  split at hphase
  next => obtain rfl | rfl := hp <;> contradiction
  next hnot => exact ⟨c, hc, hphase, hnot⟩

theorem phase_mapIdx_of_not {l : List Call} {P : Nat → Call → Prop} [∀ i c, Decidable (P i c)]
    (hj : l[j]?.map Call.phase = some p) (hnot : ∀ c, l[j]? = some c → ¬P j c) :
    (l.mapIdx fun i c => if P i c then { c with phase := .returned false } else c)[j]?.map
      Call.phase = some p := by
  obtain ⟨c, hc, hphase⟩ := Option.map_eq_some_iff.mp hj
  rw [phase_mapIdx, hc, Option.map_some, if_neg (hnot c hc), hphase]

theorem Phased.stop {s t : NetworkService} (h : s.Phased) (hr : machine.Reachable s)
    (hs : Step s .stop t) : t.Phased := by
  have hdisjoint := (known_of_reachable hr).disjoint
  have hunanswered (k : ConnectionIdentifier) := unanswered_still hr hs (k := k) nofun nofun
  cases hs with
  | stop =>
    have hphase {j : Nat} {p : CallPhase} (hj : s.phase j = some p)
        (hhand : ∀ m ∈ s.dispatcher.hand, m.call ≠ j) := phase_mapIdx_of_not hj
      (P := fun i _ => i ∈ s.dispatcher.hand.map (·.call)) fun _ _ hmem => by
        obtain ⟨m, hm, hmj⟩ := List.mem_map.mp hmem
        exact hhand m hm hmj
    refine ⟨fun m hm => ?_, fun k r m hm => ?_, fun j p hj hp => ?_⟩
    · have hm : m ∈ s.queue := hm
      exact hphase (h.inside m (List.mem_append_right _ hm)) fun n hn => hdisjoint.2 n hn m hm
    · have hforwarded := mem_forwarded hm
      refine (hphase (h.forwarded k r m hm) fun n hn hcall => ?_).trans (congrArg some ?_)
      · exact hdisjoint.1 m hforwarded n (List.mem_append_left _ hn) hcall.symm
      · refine Eq.symm (answer_congr ?_ Iff.rfl)
        rw [hunanswered k]
    · obtain ⟨c, hc, rfl, hhand⟩ := phase_of_mapIdx hj hp
      obtain ⟨m, hm, rfl⟩ := h.placed j c.phase (congrArg (Option.map Call.phase) hc) hp
      refine ⟨m, ?_, rfl⟩
      obtain hm | hm := List.mem_append.mp hm
      · exact List.mem_append_left _ hm
      · obtain hm | hm := List.mem_append.mp hm
        · exact absurd (List.mem_map_of_mem hm) hhand
        · exact List.mem_append_right _ hm

theorem Phased.tearDown {s t : NetworkService} (h : s.Phased) (hr : machine.Reachable s)
    (hs : Step s .tearDown t) : t.Phased := by
  have hdisjoint := (known_of_reachable hr).disjoint
  have hunanswered (k : ConnectionIdentifier) := unanswered_still hr hs (k := k) nofun nofun
  cases hs with
  | tearDown runtime =>
    refine ⟨fun m hm => ?_, fun k r m hm => ?_, fun j p hj hp => ?_⟩
    · have hm : m ∈ s.queue := hm
      refine phase_mapIdx_of_not (h.inside m (List.mem_append_right _ hm)) fun c _ hout => ?_
      exact hout.2 (List.mem_map_of_mem hm)
    · have hforwarded := mem_forwarded hm
      have hout : m.call ∉ s.queue.map (·.call) := fun hmem => by
        obtain ⟨n, hn, hcall⟩ := List.mem_map.mp hmem
        exact hdisjoint.1 m hforwarded n (List.mem_append_right _ hn) hcall.symm
      have hphase := h.forwarded k r m hm
      rw [answer, runtime] at hphase
      rw [answer, hunanswered k]
      by_cases hr : r ∈ (s.handler k).unanswered
      · rw [if_pos hr] at hphase ⊢
        obtain ⟨c, hc, hwaiting⟩ := Option.map_eq_some_iff.mp hphase
        refine (phase_mapIdx s.calls _ _).trans ?_
        rw [hc, Option.map_some, if_pos ⟨hwaiting, hout⟩]
        rfl
      · rw [if_neg hr] at hphase ⊢
        refine phase_mapIdx_of_not hphase fun c hc hnot => ?_
        rw [phase, hc] at hphase
        cases (Option.some.inj hphase).symm.trans hnot.1
    · obtain ⟨c, hc, rfl, hout⟩ := phase_of_mapIdx hj hp
      obtain ⟨m, hm, rfl⟩ := h.placed j c.phase (congrArg (Option.map Call.phase) hc) hp
      refine ⟨m, ?_, rfl⟩
      obtain hm | hm := List.mem_append.mp hm
      · exact List.mem_append_left _ hm
      · have hwaiting := h.inside m hm
        rw [phase, hc] at hwaiting
        obtain hm | hm := List.mem_append.mp hm
        · refine absurd ⟨Option.some.inj hwaiting, fun hqueue => ?_⟩ hout
          obtain ⟨n, hn, hcall⟩ := List.mem_map.mp hqueue
          exact hdisjoint.2 m hm n hn hcall.symm
        · exact List.mem_append_right _ hm

theorem Phased.step {s t : NetworkService} (h : s.Phased) (hr : machine.Reachable s)
    (hs : Step s a t) : t.Phased := by
  by_cases hforward : a = .forward
  · subst hforward
    exact h.forward hr hs
  by_cases hrespond : ∃ k i, a = .respond k i
  · obtain ⟨k, i, rfl⟩ := hrespond
    exact h.respond hr hs
  have hunanswered (k : ConnectionIdentifier) := unanswered_still hr hs (k := k) hforward
    fun i hi => hrespond ⟨k, i, hi⟩
  have hanswer (runtime : t.runtime = .gone ↔ s.runtime = .gone) (k : ConnectionIdentifier)
      (r : Registration) : t.answer k r = s.answer k r :=
    answer_congr (by rw [hunanswered k]) runtime
  cases hs with
  | registerChannel =>
    refine h.keep rfl rfl (hanswer Iff.rfl) (fun i p hi _ => ?_) fun i p hi hp => ?_
    · obtain ⟨c, hc, rfl⟩ := Option.map_eq_some_iff.mp hi
      exact congrArg (Option.map Call.phase) (Table.concat_of_row hc)
    · obtain ⟨c, hc, rfl⟩ := Option.map_eq_some_iff.mp hi
      obtain hc | ⟨-, rfl⟩ := Table.concat_cases hc
      · exact congrArg (Option.map Call.phase) hc
      · obtain hp | hp := hp <;> cases hp
  | @refused i c call sending =>
    have hset (j : Nat) := phase_set call { c with phase := .returned false } j
    refine h.keep rfl rfl (hanswer Iff.rfl) (fun j p hj hp => ?_) fun j p hj hp => ?_
    · exact (hset j).trans ((if_neg (ne_of_sending call sending hj hp)).trans hj)
    · rw [phase, hset] at hj
      split at hj
      next =>
        obtain rfl := Option.some.inj hj
        obtain hp | hp := hp <;> cases hp
      next => exact hj
  | submit call sending => exact h.submit call sending
  | receive _ dispatcher queue =>
    exact h.keep (by simp [dispatcher, queue, Dispatcher.hand]) rfl (hanswer Iff.rfl)
      (fun _ _ hi _ => hi) fun _ _ hi _ => hi
  | found _ dispatcher | create _ dispatcher =>
    exact h.keep (by simp [dispatcher, Dispatcher.hand]) rfl (hanswer Iff.rfl)
      (fun _ _ hi _ => hi) fun _ _ hi _ => hi
  | connection => exact h.keep rfl rfl (hanswer Iff.rfl) (fun _ _ hi _ => hi) fun _ _ hi _ => hi
  | shutdown runtime =>
    exact h.keep rfl rfl (hanswer (by simp [runtime])) (fun _ _ hi _ => hi) fun _ _ hi _ => hi
  | stop runtime live => exact h.stop hr (.stop runtime live)
  | tearDown runtime => exact h.tearDown hr (.tearDown runtime)
  | forward => contradiction
  | respond => exact absurd ⟨_, _, rfl⟩ hrespond

theorem phased_of_reachable {s : NetworkService} (h : machine.Reachable s) : s.Phased := by
  refine h.invariant (I := Phased) ⟨nofun, nofun, nofun⟩ ?_
  exact fun _ _ _ hr ih _ hs => ih.step hr (step_sound hs)

def Registered (s : NetworkService) (i : Nat) (k : ConnectionIdentifier) (r : Registration) :
    Prop :=
  (s.forwardedTo k)[r]?.map (·.call) = some i

theorem exists_registered {s : NetworkService} {m : NetworkingServiceControlMessage}
    (hm : m ∈ s.forwarded) : ∃ r : Registration, (s.forwardedTo m.connection)[r]? = some m :=
  List.getElem?_of_mem (List.mem_filter.mpr ⟨hm, decide_eq_true rfl⟩)

theorem call_of_registered {s : NetworkService} {m : NetworkingServiceControlMessage}
    {r : Registration} (h : machine.Reachable s) (hm : (s.forwardedTo k)[r]? = some m) :
    s.calls[m.call]? = some ⟨k, m.channel, s.answer k r⟩ := by
  obtain ⟨hforwarded, hk⟩ := List.mem_filter.mp (List.mem_of_getElem? hm)
  have hknown := known_of_reachable h
  obtain ⟨p, hp, -⟩ := hknown.calls m (hknown.passed.subset (List.mem_append_left _ hforwarded))
  have hphase := (phased_of_reachable h).forwarded k r m hm
  rw [phase, hp] at hphase
  rw [hp, ← Option.some.inj hphase, of_decide_eq_true hk]

def exampleCalls : List Action :=
  [.registerChannel "n" "c", .registerChannel "m" "d", .send 0, .receive, .send 1, .create,
    .forward, .receive, .create, .forward, .connection "n" .serve, .respond "n" 0]

/-- A call that has returned with its control queue is one registration of the handler of its
connection.  Unless that is released it has one owner, and all that is done for it is done for
the channel of the call. -/
theorem call_registered {s : NetworkService} (h : machine.Reachable s)
    (hc : s.calls[i]? = some c) (returned : c.phase = .returned true) :
    ∃ r, (∀ k r', s.Registered i k r' ↔ k = c.connection ∧ r' = r) ∧
      ((s.handler c.connection).owners + (s.handler c.connection).released).count r = 1 ∧
      ∀ x ∈ (s.handler c.connection).namings, x.1 = r → x.2 = c.channel := by
  have hphased := phased_of_reachable h
  have hphase : s.phase i = some (.returned true) :=
    (congrArg (Option.map Call.phase) hc).trans (congrArg some returned)
  obtain ⟨m, hm, rfl⟩ := hphased.placed i _ hphase (.inr rfl)
  obtain hm | hm := List.mem_append.mp hm
  · obtain ⟨r, hr⟩ := exists_registered hm
    have hcall := call_of_registered h hr
    obtain rfl := Option.some.inj (hcall.symm.trans hc)
    have hnumbered := numbered_of_reachable h m.connection
    refine ⟨r, fun k r' => ⟨fun hr' => ?_, ?_⟩, ?_, fun x hx hxr => ?_⟩
    · obtain ⟨n, hn, hcalls⟩ := Option.map_eq_some_iff.mp hr'
      exact registration_eq (known_of_reachable h) hn hr hcalls
    · rintro ⟨rfl, rfl⟩
      exact congrArg (Option.map _) hr
    · rw [ConnectionHandler.conserved_of_reachable (handler_reachable h _),
        Multiset.count_eq_one_of_mem (Multiset.nodup_range _)]
      rw [Multiset.mem_range, ← hnumbered.count]
      exact (List.getElem?_eq_some_iff.mp hr).1
    · have hchannel := hnumbered.channel x hx
      rw [hxr, hr] at hchannel
      exact (Option.some.inj hchannel).symm
  · cases (hphased.inside m hm).symm.trans hphase

theorem call_registered_two_connections :
    ∃ s, machine.Reachable s ∧ ∃ r, s.Registered 0 "n" r ∧
      ((s.handler "n").owners + (s.handler "n").released).count r = 1 := by
  obtain ⟨s, hs, hc⟩ := Machine.exists_reaches_of_replay (M := machine) (C := fun _ _ => True)
    (P := fun s => s.calls[0]? = some ⟨"n", "c", .returned true⟩) exampleCalls (by decide)
  obtain ⟨r, hr, hcount, -⟩ := call_registered hs hc rfl
  exact ⟨s, hs, r, (hr "n" r).mpr ⟨rfl, rfl⟩, hcount⟩

theorem task_serves_call {s : NetworkService} (h : machine.Reachable s) :
    ((s.handler k).tasks.filterMap ChannelTask.owner).Nodup ∧
      ∀ task ∈ (s.handler k).tasks, task.phase ≠ .ended →
        ∃ i, s.Registered i k task.registration ∧
          s.calls[i]? = some ⟨k, task.channel, .returned true⟩ := by
  have hhandler := handler_reachable h k
  have hnumbered := numbered_of_reachable h k
  refine ⟨(ConnectionHandler.registration_kept hhandler).2.1, fun task htask live => ?_⟩
  have hnaming : task.naming ∈ (s.handler k).namings :=
    Multiset.mem_add.mpr (.inr (Multiset.mem_coe.mpr (List.mem_map_of_mem htask)))
  obtain ⟨m, hm, hchannel⟩ := Option.map_eq_some_iff.mp (hnumbered.channel _ hnaming)
  have hm : (s.forwardedTo k)[task.registration]? = some m := hm
  have hchannel : m.channel = task.channel := hchannel
  refine ⟨m.call, congrArg (Option.map _) hm, (call_of_registered h hm).trans ?_⟩
  rw [hchannel, answer, if_neg (ConnectionHandler.answered_of_task hhandler htask live)]

theorem task_serves_call_granted :
    ∃ s, machine.Reachable s ∧ ∃ i, s.Registered i "n" 0 ∧
      s.calls[i]? = some ⟨"n", "c", .returned true⟩ := by
  obtain ⟨s, hs, htasks⟩ := Machine.exists_reaches_of_replay (M := machine) (C := fun _ _ => True)
    (P := fun s => (s.handler "n").tasks = [⟨"c", 0, .running⟩])
    (exampleCalls ++ [.connection "n" (.send 0), .connection "n" (.createConnection true),
      .connection "n" .offer, .connection "n" .takeConnection, .connection "n" .takeChannel,
      .connection "n" (.sendRequest true), .connection "n" (.answer .okChannelResponse),
      .connection "n" .readAnswer]) (by decide)
  obtain ⟨i, hi, hcall⟩ := (task_serves_call hs).2 ⟨"c", 0, .running⟩
    (htasks ▸ List.mem_singleton_self _) nofun
  exact ⟨s, hs, i, hi, hcall⟩

theorem ended_of_step {s t : NetworkService} (h : s.runtime = .gone → s.dispatcher = .ended)
    (hs : Step s a t) (gone : t.runtime = .gone) : t.dispatcher = .ended := by
  cases hs with
  | receive runtime | found runtime | create runtime | forward runtime => exact absurd gone runtime
  | stop | tearDown => rfl
  | shutdown => contradiction
  | _ => exact h gone

theorem ended_of_gone {s : NetworkService} (h : machine.Reachable s) (gone : s.runtime = .gone) :
    s.dispatcher = .ended := by
  refine h.invariant (I := fun s => s.runtime = .gone → s.dispatcher = .ended) nofun ?_ gone
  exact fun _ _ _ _ ih _ hs => ended_of_step ih (step_sound hs)

theorem queue_of_gone {s t : NetworkService} (gone : s.runtime = .gone)
    (ended : s.dispatcher = .ended) (hs : Step s a t) : t.runtime = .gone ∧ t.queue = s.queue := by
  cases hs with
  | registerChannel | refused => exact ⟨gone, rfl⟩
  | submit _ _ live => contradiction
  | stop runtime | shutdown runtime | tearDown runtime => cases gone.symm.trans runtime
  | receive runtime | found runtime | create runtime | forward runtime | respond runtime
  | connection runtime => contradiction

/-- When the runtime is gone, a call waits forever if and only if its message has been left in
the queue of the service. -/
theorem waits_forever_iff {s : NetworkService} (h : machine.Reachable s)
    (gone : s.runtime = .gone) (i : Nat) :
    machine.Always (fun _ _ => True) (fun t => t.phase i = some .waiting) s ↔
      i ∈ s.queue.map (·.call) := by
  constructor
  · intro hwaits
    have hphased := phased_of_reachable h
    have hwaiting : s.phase i = some .waiting := hwaits.now
    obtain ⟨m, hm, rfl⟩ := hphased.placed i _ hwaiting (.inl rfl)
    rw [ended_of_gone h gone] at hm
    obtain hm | hm := List.mem_append.mp hm
    · obtain ⟨r, hr⟩ := exists_registered hm
      have hphase := hphased.forwarded _ r m hr
      rw [hwaiting, answer, if_pos gone] at hphase
      split at hphase <;> cases hphase
    · exact List.mem_map_of_mem hm
  · intro hi t ht
    obtain ⟨m, hm, rfl⟩ := List.mem_map.mp hi
    obtain ⟨-, hqueue⟩ := ht.invariant (I := fun t => t.runtime = .gone ∧ t.queue = s.queue)
      ⟨gone, rfl⟩ fun u a v hu ⟨hgone, hqueue⟩ _ hs => by
        have hended := ended_of_gone (h.resume hu) hgone
        obtain ⟨hgone', hqueue'⟩ := queue_of_gone hgone hended (step_sound hs)
        exact ⟨hgone', hqueue'.trans hqueue⟩
    refine (phased_of_reachable (h.resume ht)).inside m (List.mem_append_right _ ?_)
    exact hqueue.symm ▸ hm

theorem waits_forever_iff_queued :
    ∃ s, machine.Reachable s ∧
      machine.Always (fun _ _ => True) (fun t => t.phase 1 = some .waiting) s ∧
      ¬machine.Always (fun _ _ => True) (fun t => t.phase 0 = some .waiting) s := by
  obtain ⟨s, hs, gone, hqueue⟩ := Machine.exists_reaches_of_replay (M := machine)
    (C := fun _ _ => True) (P := fun s => s.runtime = .gone ∧ s.queue = [⟨"m", "d", 1⟩])
    [.registerChannel "n" "c", .registerChannel "m" "d", .send 0, .receive, .send 1, .shutdown,
      .stop, .tearDown] (by decide)
  refine ⟨s, hs, (waits_forever_iff hs gone 1).mpr (by simp [hqueue]), fun hwaits => ?_⟩
  have hmem := (waits_forever_iff hs gone 0).mp hwaits
  simp [hqueue] at hmem

end BdsPro.Network.Sender.NetworkService
