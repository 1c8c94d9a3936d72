import BdsPro.Library.Progress
import BdsPro.Network.Sender.GrantLaws

namespace BdsPro.Network.Sender

open BdsPro.Library

def AttemptPhase.weight : AttemptPhase → Nat
  | .responding | .sleeping => 7
  | .sending => 6
  | .waiting => 5
  | .granted => 1
  | .ended => 0

def ChannelTaskPhase.weight : ChannelTaskPhase → Nat
  | .retrying => 9
  | .running | .ended => 0

def Connector.weight : Connector → Nat
  | .connecting => 3
  | .offering => 2
  | .waiting | .ended => 0

namespace ConnectionHandler

/-- The tasks go on, connections are made and kept, callers wait, and the other side grants what
it is asked. -/
def smooth : Action → Bool
  | .serve | .respond _ true | .send _ | .await _ | .wake _ | .createConnection true
  | .connectCancelled | .offer | .reconnectDropped | .takeConnection | .takeChannel
  | .sendRequest true | .answer .okChannelResponse | .readAnswer | .retry _ => true
  | _ => false

def Smooth (_ : ConnectionHandler) (a : Action) : Prop := smooth a = true

def Served (s : ConnectionHandler) : Prop :=
  ∀ r < s.registrations, r ∈ s.released ∨
    ∃ h ∈ s.tasks, h.registration = r ∧ h.phase = .running

structure Settled (s : ConnectionHandler) : Prop where
  control : s.control = []
  attempts : ∀ a ∈ s.attempts, a.phase = .ended
  tasks : ∀ h ∈ s.tasks, h.phase ≠ .retrying

def turn (s : ConnectionHandler) : Nat :=
  match s.establisher with
  | .connecting | .idle => 3
  | .requesting _ => 2
  | .reading _ => if s.answers[s.answersRead]? = some .denyChannelResponse then 6 else 0
  | .ended => 0

def variant (s : ConnectionHandler) : Nat :=
  8 * s.control.length + (s.attempts.map (·.phase.weight)).sum +
    (s.tasks.map (·.phase.weight)).sum + s.connector.weight + s.offered.toNat + s.turn +
    (s.requests.length - s.answers.length)

inductive Handshake (s : ConnectionHandler) : Prop
  | connecting (establisher : s.establisher = .connecting) (offered : s.offered = false)
      (connector : s.connector ≠ .waiting)
  | offered (establisher : s.establisher = .connecting) (offered : s.offered = true)
      (connector : s.connector = .waiting)
  | connected (establisher : s.establisher ≠ .connecting) (offered : s.offered = false)
      (connector : s.connector = .waiting)
  | ended (establisher : s.establisher = .ended)

theorem Handshake.aside {s t : ConnectionHandler} (h : s.Handshake)
    (establisher : t.establisher = s.establisher) (offered : t.offered = s.offered)
    (connector : t.connector = s.connector) : t.Handshake := by
  cases h with
  | connecting he ho hc =>
    exact .connecting (establisher ▸ he) (offered ▸ ho) (connector ▸ hc)
  | offered he ho hc => exact .offered (establisher ▸ he) (offered ▸ ho) (connector ▸ hc)
  | connected he ho hc => exact .connected (establisher ▸ he) (offered ▸ ho) (connector ▸ hc)
  | ended he => exact .ended (establisher ▸ he)

theorem Handshake.connect {s : ConnectionHandler} (h : s.Handshake)
    (source : s.connector ≠ .waiting) (target : p ≠ .waiting) :
    Handshake { s with connector := p } := by
  cases h with
  | connecting he ho => exact .connecting he ho target
  | offered _ _ hc | connected _ _ hc => exact absurd hc source
  | ended he => exact .ended he

theorem Handshake.keep {s t : ConnectionHandler} (h : s.Handshake)
    (source : s.establisher ≠ .connecting ∧ s.establisher ≠ .ended)
    (target : t.establisher ≠ .connecting) (offered : t.offered = s.offered)
    (connector : t.connector = s.connector) : t.Handshake := by
  cases h with
  | connecting he | offered he => exact absurd he source.1
  | connected _ ho hc => exact .connected target (offered ▸ ho) (connector ▸ hc)
  | ended he => exact absurd he source.2

theorem Handshake.step {s t : ConnectionHandler} (h : s.Handshake) (hs : Step s a t) :
    t.Handshake := by
  cases hs with
  | connected connector | notConnected connector | connectCancelled connector
  | offerFailed connector => exact h.connect (by simp [connector]) (by simp)
  | reconnectDropped _ ended => exact .ended ended
  | offer connector live room =>
    cases h with
    | connecting he => exact .offered he rfl rfl
    | offered _ _ hc | connected _ _ hc => simp [connector] at hc
    | ended he => exact absurd he live
  | takeConnection establisher offered =>
    cases h with
    | connecting _ ho => simp [offered] at ho
    | offered _ _ hc => exact .connected (by simp) rfl hc
    | connected he => exact absurd establisher he
    | ended he => simp [establisher] at he
  | noConnection | establishCancelled => exact .ended rfl
  | takeChannel _ _ establisher | request establisher | established establisher
  | rejected establisher => exact h.keep (by simp [establisher]) (by simp) rfl rfl
  | badConnection _ hand =>
    refine .connecting rfl ?_ (by simp)
    cases h with
    | connecting he | offered he | ended he => simp [he] at hand
    | connected _ ho => exact ho
  | _ => exact h.aside rfl rfl rfl

theorem handshake_of_reachable {s : ConnectionHandler} (h : machine.Reachable s) :
    s.Handshake :=
  h.invariant (I := Handshake) (.connecting rfl rfl (by decide))
    fun _ _ _ _ ih _ hs => ih.step (step_sound hs)

def Enabled (s : ConnectionHandler) : Prop := ∃ a t, s.Smooth a ∧ machine.step s a = some t

theorem Enabled.of_isSome {s : ConnectionHandler} {a : Action} (smooth : s.Smooth a)
    (h : (s.step a).isSome) : s.Enabled := by
  obtain ⟨t, ht⟩ := Option.isSome_iff_exists.mp h
  exact ⟨a, t, smooth, ht⟩

theorem reading_enabled {s : ConnectionHandler} (h : s.Matched)
    (establisher : s.establisher = .reading i) (attempt : s.attempts[i]? = some a) :
    s.Enabled := by
  cases h with
  | apart other | level other => simp [establisher] at other
  | asked _ _ requests read answers =>
    have hrequest := getElem?_length_of_concat requests (read.trans answers.symm)
    refine .of_isSome (a := .answer .okChannelResponse) rfl ?_
    simp [step, answer, hrequest]
  | denied _ _ answers read | promised _ _ _ answers read =>
    have hanswer := getElem?_length_of_concat answers read
    refine .of_isSome (a := .readAnswer) rfl ?_
    simp [step, readAnswer, establisher, hanswer, attempt]

theorem establisher_enabled {s : ConnectionHandler} (h : machine.Reachable s)
    (live : s.cancelled = false) (work : s.hand ++ s.channels ≠ []) : s.Enabled := by
  have halive := alive_of_reachable h
  have hconnector : s.connector ≠ .ended := fun hended =>
    Bool.noConfusion (live.symm.trans (halive.connector hended))
  have hestablisher : s.establisher ≠ .ended := fun hended =>
    Bool.noConfusion (live.symm.trans (halive.establisher hended))
  have hqueued := queued_of_reachable h hestablisher
  have hattempt (i) (hi : i ∈ s.hand ++ s.channels) : ∃ a, s.attempts[i]? = some a := by
    obtain ⟨a, ha, -⟩ := (hqueued.waiting i).mp hi
    exact ⟨a, ha⟩
  cases hphase : s.establisher with
  | connecting =>
    cases handshake_of_reachable h with
    | connecting _ offered connector =>
      cases hc : s.connector with
      | connecting =>
        exact .of_isSome (a := .createConnection true) rfl (by simp [step, createConnection, hc])
      | offering =>
        exact .of_isSome (a := .offer) rfl (by simp [step, offer, hc, hestablisher, offered])
      | waiting => contradiction
      | ended => contradiction
    | offered _ offered =>
      exact .of_isSome (a := .takeConnection) rfl (by simp [step, takeConnection, hphase, offered])
    | connected other => contradiction
    | ended other => contradiction
  | idle =>
    simp only [hand, hphase, List.nil_append] at work
    obtain ⟨i, rest, hchannels⟩ := List.exists_cons_of_ne_nil work
    exact .of_isSome (a := .takeChannel) rfl (by simp [step, takeChannel, hphase, hchannels])
  | requesting i =>
    obtain ⟨a, ha⟩ := hattempt i (by simp [hand, hphase])
    exact .of_isSome (a := .sendRequest true) rfl (by simp [step, sendRequest, hphase, ha])
  | reading i =>
    obtain ⟨a, ha⟩ := hattempt i (by simp [hand, hphase])
    exact reading_enabled (matched_of_reachable h) hphase ha
  | ended => contradiction

theorem attempt_enabled {s : ConnectionHandler} {i : Nat} {a : Attempt} (h : machine.Reachable s)
    (live : s.cancelled = false) (attempt : s.attempts[i]? = some a) (phase : a.phase ≠ .ended) :
    s.Enabled := by
  have hestablisher : s.establisher ≠ .ended := fun hended =>
    Bool.noConfusion (live.symm.trans ((alive_of_reachable h).establisher hended))
  cases hp : a.phase with
  | responding =>
    exact .of_isSome (a := .respond i true) rfl (by simp [step, respond, attempt, hp])
  | sending =>
    by_cases hroom : s.channels.length < channelsLen
    · exact .of_isSome (a := .send i) rfl (by simp [step, send, attempt, hp, hestablisher, hroom])
    · refine establisher_enabled h live fun hnil => hroom ?_
      rw [(List.append_eq_nil_iff.mp hnil).2]
      decide
  | waiting =>
    have hmem := ((queued_of_reachable h hestablisher).waiting i).mpr ⟨a, attempt, hp⟩
    exact establisher_enabled h live (List.ne_nil_of_mem hmem)
  | granted => exact .of_isSome (a := .await i) rfl (by simp [step, await, attempt, hp])
  | sleeping => exact .of_isSome (a := .wake i) rfl (by simp [step, wake, attempt, hp])
  | ended => contradiction

theorem enabled_of_unsettled {s : ConnectionHandler} (h : machine.Reachable s)
    (live : s.cancelled = false) (unsettled : ¬s.Settled) : s.Enabled := by
  by_contra hstuck
  have hcontrol : s.control = [] := by
    cases hc : s.control with
    | nil => rfl
    | cons m rest =>
      refine absurd (.of_isSome (a := .serve) rfl ?_) hstuck
      cases m <;> simp [step, serve, hc]
  refine unsettled ⟨hcontrol, fun a ha => ?_, fun task htask hphase => ?_⟩
  · by_contra hphase
    obtain ⟨i, hi⟩ := List.getElem?_of_mem ha
    exact hstuck (attempt_enabled h live hi hphase)
  · obtain ⟨i, hi⟩ := List.getElem?_of_mem htask
    refine hstuck (.of_isSome (a := .retry i) rfl ?_)
    simp [step, retry, hi, hphase, hcontrol, controlLen]

theorem sum_attempts {l : List Attempt} (attempt : l[i]? = some a) (p : AttemptPhase) :
    ((l.set i { a with phase := p }).map (·.phase.weight)).sum + a.phase.weight =
      (l.map (·.phase.weight)).sum + p.weight :=
  Table.sum_set_add _ attempt _

theorem sum_tasks {l : List ChannelTask} (task : l[i]? = some h) (p : ChannelTaskPhase) :
    ((l.set i { h with phase := p }).map (·.phase.weight)).sum + h.phase.weight =
      (l.map (·.phase.weight)).sum + p.weight :=
  Table.sum_set_add _ task _

theorem turn_grant (s : ConnectionHandler) (granted : List ChannelIdentifier) :
    turn { s with answers := s.answers ++ [.okChannelResponse], granted := granted } = s.turn := by
  have hdeny : (s.answers ++ [.okChannelResponse])[s.answersRead]? = some .denyChannelResponse ↔
      s.answers[s.answersRead]? = some .denyChannelResponse := by
    constructor
    · intro hget
      exact (Table.concat_cases hget).resolve_right fun ⟨_, heq⟩ => nomatch heq
    · exact Table.concat_of_row
  simp only [turn, hdeny]

theorem variant_step {s t : ConnectionHandler} (h : machine.Reachable s)
    (live : s.cancelled = false) (smooth : s.Smooth a) (hs : Step s a t) :
    t.variant < s.variant := by
  have hestablisher : s.establisher ≠ .ended := fun hended =>
    Bool.noConfusion (live.symm.trans ((alive_of_reachable h).establisher hended))
  have hqueued := queued_of_reachable h hestablisher
  cases hs with
  | cancel | register | abandon | notConnected | deny | lost | finished => contradiction
  | badConnection event => obtain rfl | rfl := event <;> contradiction
  | connectCancelled _ cancelled => exact Bool.noConfusion (live.symm.trans cancelled)
  | establishCancelled cancelled => exact Bool.noConfusion (live.symm.trans cancelled)
  | sendFailed _ _ ended | awaitFailed _ _ ended | offerFailed _ ended | reconnectDropped _ ended =>
    exact absurd ended hestablisher
  | noConnection _ ended =>
    exact Bool.noConfusion (live.symm.trans ((alive_of_reachable h).connector ended))
  | serve m control fresh =>
    simp only [variant, turn, control, List.map_append, List.sum_append, List.map_cons,
      List.map_nil, List.sum_singleton, List.length_cons]
    obtain rfl | rfl := fresh <;> simp only [AttemptPhase.weight] <;> omega
  | respond attempt phase | wake attempt phase =>
    have hsum := sum_attempts attempt .sending
    simp only [variant, turn, phase, AttemptPhase.weight] at hsum ⊢
    omega
  | send attempt phase =>
    have hsum := sum_attempts attempt .waiting
    simp only [variant, turn, phase, AttemptPhase.weight] at hsum ⊢
    omega
  | await attempt phase =>
    have hsum := sum_attempts attempt .ended
    simp only [variant, turn, phase, AttemptPhase.weight] at hsum ⊢
    omega
  | connected connector =>
    simp only [variant, turn, connector, Connector.weight]
    omega
  | offer connector live room =>
    simp only [variant, turn, connector, room, Connector.weight, Bool.toNat_true, Bool.toNat_false]
    omega
  | takeConnection establisher offered =>
    simp only [variant, turn, establisher, offered, Bool.toNat_true, Bool.toNat_false]
    simp only [List.length_nil]
    omega
  | takeChannel i rest establisher channels =>
    simp only [variant, turn, establisher]
    omega
  | request establisher attempt =>
    cases matched_of_reachable h with
    | level _ requests answers =>
      have hnone : s.answers[s.answersRead]? = none := List.getElem?_eq_none answers.le
      simp only [variant, turn, establisher, hnone, List.length_append, List.length_singleton]
      simp only [reduceCtorEq, if_false]
      omega
    | apart other | asked other | denied other | promised other => simp [establisher] at other
  | grant request =>
    have hlt := (List.getElem?_eq_some_iff.mp request).1
    simp only [variant, turn_grant, List.length_append, List.length_singleton]
    omega
  | established establisher answer attempt =>
    have phase := hqueued.in_hand (.inr establisher) attempt
    have hsum := sum_attempts attempt .granted
    simp only [variant, turn, establisher, answer, phase, List.map_append, List.sum_append,
      AttemptPhase.weight, ChannelTaskPhase.weight, List.map_cons, List.map_nil,
      List.sum_singleton] at hsum ⊢
    omega
  | rejected establisher answer attempt =>
    have phase := hqueued.in_hand (.inr establisher) attempt
    have hsum := sum_attempts attempt .sleeping
    simp only [variant, turn, establisher, answer, phase, AttemptPhase.weight, if_true] at hsum ⊢
    omega
  | retry task phase =>
    have hsum := sum_tasks task .ended
    simp only [variant, turn, phase, ChannelTaskPhase.weight, List.length_append,
      List.length_singleton] at hsum ⊢
    omega

theorem Settled.served {s : ConnectionHandler} (h : s.Settled) (conserved : s.Conserved) :
    s.Served := by
  intro r hr
  have hmem : r ∈ s.owners + s.released := conserved ▸ Multiset.mem_range.mpr hr
  have hattempts : s.attempts.filterMap Attempt.owner = [] :=
    List.filterMap_eq_nil_iff.mpr fun a ha => by simp [Attempt.owner, h.attempts a ha,
      AttemptPhase.pending]
  have howners : s.owners = s.tasks.filterMap ChannelTask.owner := by
    simp [owners, h.control, hattempts]
  rw [howners, Multiset.mem_add, Multiset.mem_coe, List.mem_filterMap] at hmem
  rcases hmem with ⟨task, htask, howner⟩ | hreleased
  · obtain ⟨hlive, hregistration⟩ := Option.ite_none_left_eq_some.mp howner
    refine .inr ⟨task, htask, Option.some.inj hregistration, ?_⟩
    have hretrying := h.tasks task htask
    cases hp : task.phase with
    | running => rfl
    | retrying | ended => contradiction
  · exact .inl hreleased

theorem cancelled_of_smooth {s t : ConnectionHandler} (smooth : s.Smooth a) (hs : Step s a t) :
    t.cancelled = s.cancelled := by
  cases hs with
  | cancel => contradiction
  | _ => rfl

/-- On a network that behaves, with another side that grants, each registered channel comes to
be served: a connection that has been lost is made again, and a Deny asked again. -/
theorem served_eventually {s : ConnectionHandler} (h : machine.Reachable s)
    (live : s.cancelled = false) : machine.Inevitably Smooth Served s := by
  by_cases hsettled : s.Settled
  · exact .now (hsettled.served (conserved_of_reachable h))
  · refine Machine.Inevitably.of_variant
      (I := fun s => machine.Reachable s ∧ s.cancelled = false ∧ ¬s.Settled) variant ?_ ?_
      ⟨h, live, hsettled⟩
    · exact fun s ⟨h, live, unsettled⟩ => enabled_of_unsettled h live unsettled
    · intro s a t ⟨h, live, unsettled⟩ smooth hs
      have ht : machine.Reachable t := .step h trivial hs
      by_cases hsettled : t.Settled
      · exact .inl (hsettled.served (conserved_of_reachable ht))
      · refine .inr ⟨⟨ht, ?_, hsettled⟩, variant_step h live smooth (step_sound hs)⟩
        exact (cancelled_of_smooth smooth (step_sound hs)).trans live

theorem served_eventually_denied :
    ∃ s, machine.Reachable s ∧ s.tasks = [] ∧ s.connector = .connecting ∧
      machine.Inevitably Smooth Served s := by
  obtain ⟨s, hs, live, htasks, hconnector⟩ := Machine.exists_reaches_of_replay
    (M := machine) (C := fun _ _ => True)
    (P := fun s => s.cancelled = false ∧ s.tasks = [] ∧ s.connector = .connecting)
    [.register "c", .register "d", .serve, .serve, .respond 0 true, .respond 1 true, .send 0,
      .send 1, .createConnection true, .offer, .takeConnection, .takeChannel, .sendRequest true,
      .answer .denyChannelResponse, .readAnswer, .takeChannel, .sendRequest true, .lose]
    (by decide)
  exact ⟨s, hs, htasks, hconnector, served_eventually hs live⟩

end ConnectionHandler

end BdsPro.Network.Sender
