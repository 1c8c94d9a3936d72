import BdsPro.Network.Receiver.EstablishmentLaws
import BdsPro.Network.Receiver.RegistrationLaws

namespace BdsPro.Network.Receiver

open BdsPro.Library

/-- The registration of the grant will be reopened, or has a stream that can lead to that. -/
inductive Grant.Keeps (g : Grant) : Prop
  | retrying (task : g.task = .retrying)
  | handling (task : g.task = .handling)
  | inFlight (attempt : g.InFlight)

theorem Grant.Keeps.attempt {g : Grant} (h : g.Keeps) (promised : g.attempt ≠ .promised)
    (answered : g.attempt ≠ .answered) (p : AttemptPhase) :
    Grant.Keeps { g with attempt := p } := by
  cases h with
  | retrying task => exact .retrying task
  | handling task => exact .handling task
  | inFlight flight => exact .inFlight (flight.attempt promised answered p)

namespace Service

def Withdrawn (s : Service) (r : Registration) : Prop :=
  ∃ x, s.registrations[r]? = some x ∧ (x.closedByApplication = true ∨ x.cancelled = true)

instance (s : Service) (r : Registration) : Decidable (s.Withdrawn r) :=
  inferInstanceAs (Decidable (∃ x, _ = some x ∧ _))

/-- The grant whose registration no stream and no retry will reach after an action: the
sender gives up before it connects, its stream fails, the queue turns out to have been closed
by the service, or the service is shut down. -/
def loses (s : Service) : Action → Option Grant
  | .answer i false => s.sockets[i]?.bind fun x => match x.phase with
    | .answering (some j) => s.grants[j]?
    | _ => none
  | .createChannel i false => s.grants[i]?.filter fun g => g.attempt = .answered
  | .identify false => match s.acceptLoop with
    | .identifying i => s.grants[i]?
    | _ => none
  | .finish i .ok => s.grants[i]?.filter fun g => ¬ s.Withdrawn g.registration
  | .retry i => if s.controlClosed then s.grants[i]? else none
  | _ => none

def Permitted (s : Service) (a : Action) : Prop :=
  s.Orderly a ∧ s.Sequential a ∧ s.loses a = none

instance (s : Service) (a : Action) : Decidable (s.Permitted a) :=
  inferInstanceAs (Decidable (_ ∧ _ ∧ _))

inductive Kept (table : Map ChannelIdentifier Registration) (control : List ServiceControl)
    (l : List Grant) (c : ChannelIdentifier) (r : Registration) : Prop
  | registered (entry : table.lookup c = some r)
  | retried (message : .retryChannel c r ∈ control)
  | granted (i : Nat)
      (grant : ∃ g, l[i]? = some g ∧ g.channel = c ∧ g.registration = r ∧ g.Keeps)

section

variable {table : Map ChannelIdentifier Registration} {control : List ServiceControl}
  {l : List Grant} {i : Nat}

theorem Kept.set (h : Kept table control l c r) (entry : l[i]? = some g)
    (channel : g'.channel = g.channel) (registration : g'.registration = g.registration)
    (keeps : g.registration = r → g.Keeps → g'.Keeps) :
    Kept table control (l.set i g') c r := by
  cases h with
  | registered entry => exact .registered entry
  | retried message => exact .retried message
  | granted j grant =>
    refine .granted j (Table.exists_set grant entry ?_)
    rintro - ⟨hchannel, hregistration, hkeeps⟩
    exact ⟨channel ▸ hchannel, registration ▸ hregistration, keeps hregistration hkeeps⟩

theorem Kept.retry (h : Kept table control l c r) (entry : l[i]? = some g) :
    Kept table (control ++ [.retryChannel g.channel g.registration]) (l.set i g') c r := by
  cases h with
  | registered entry => exact .registered entry
  | retried message => exact .retried (List.mem_append_left _ message)
  | granted j grant =>
    obtain ⟨h, hj, rfl, rfl, hkeeps⟩ := grant
    by_cases hij : i = j
    · subst hij
      rw [entry, Option.some.injEq] at hj
      subst hj
      exact .retried (List.mem_append_right _ List.mem_cons_self)
    · exact .granted j ⟨h, (List.getElem?_set_ne hij).trans hj, rfl, rfl, hkeeps⟩

theorem Kept.concat (h : Kept table control l c r) (entry : table.lookup c' = some r')
    (channel : g.channel = c') (registration : g.registration = r') (flight : g.InFlight) :
    Kept (table.erase c') control (l ++ [g]) c r := by
  cases h with
  | registered entry' =>
    by_cases hc : c = c'
    · subst hc
      rw [entry, Option.some.injEq] at entry'
      subst entry'
      exact .granted _ ⟨g, List.getElem?_concat_length, channel, registration, .inFlight flight⟩
    · exact .registered ((Map.lookup_erase _ c' c).trans ((if_neg hc).trans entry'))
  | retried message => exact .retried message
  | granted i grant => exact .granted i (Table.exists_concat grant)

theorem Kept.dropSender (h : Kept table control l c r) (hsound : Sound l) (hm : Matched opened l)
    (entry : l[i]? = some g) (task : g.task = .spawned) :
    Kept table control (dropSender l (opened.lookup g.key)) c r := by
  cases h with
  | registered entry => exact .registered entry
  | retried message => exact .retried message
  | granted j grant =>
    refine .granted j (exists_dropSender grant ?_)
    rintro hl g' hg' htask ⟨-, -, hkeeps⟩
    cases hkeeps with
    | retrying hretrying => simp [htask] at hretrying
    | handling hhandling => simp [htask] at hhandling
    | inFlight hflight => exact absurd hflight (hsound.not_inFlight hm entry task hl hg')

theorem Kept.register (h : Kept table (.registerChannel c' r' :: rest) l c r) (hc : c ≠ c')
    {p : ChannelIdentifier → Registration → Bool} (retained : p c r = true) :
    Kept ((table.retain p).insert c' r') rest l c r := by
  cases h with
  | registered entry =>
    refine .registered ((Map.lookup_insert _ c' c r').trans ((if_neg hc).trans ?_))
    exact Map.lookup_retain.mpr ⟨entry, retained⟩
  | retried message => exact .retried ((List.mem_cons.mp message).resolve_left (by simp))
  | granted i grant => exact .granted i grant

theorem Kept.reopen (h : Kept table (.retryChannel c' r' :: rest) l c r)
    (hr : c = c' → r' = r) : Kept (table.insert c' r') rest l c r := by
  by_cases hc : c = c'
  · refine .registered ((Map.lookup_insert _ c' c r').trans ?_)
    rw [if_pos hc, hr hc]
  · cases h with
    | registered entry =>
      exact .registered ((Map.lookup_insert _ c' c r').trans ((if_neg hc).trans entry))
    | retried message =>
      rcases List.mem_cons.mp message with hm | hm
      · exact absurd (ServiceControl.retryChannel.inj hm).1 hc
      · exact .retried hm
    | granted i grant => exact .granted i grant

end

theorem Withdrawn.step {s t : Service} (h : s.Withdrawn r) (hs : Step s a t) : t.Withdrawn r := by
  cases hs with
  | registerChannel => exact Table.exists_concat h
  | closeQueue => exact Table.exists_modify h fun _ _ _ _ => .inl rfl
  | finishClosed => exact Table.exists_modify h fun _ _ _ h => h
  | registered =>
    simp only [Withdrawn]
    split
    · exact h
    · exact Table.exists_modify h fun _ _ _ _ => .inr (by simp [RegistrationState.cancelled])
  | closeControl | stop =>
    refine Table.exists_mapIdx h fun x hx => ?_
    split
    · exact hx.imp_right fun _ => by simp [RegistrationState.cancelled]
    · exact hx
  | _ => exact h

theorem withdrawn_of_isCancelled {s : Service} (h : s.isCancelled r) : s.Withdrawn r := by
  obtain ⟨x, hx, hcancelled⟩ := (Option.any_eq_true _ _).mp h
  exact ⟨x, hx, .inr hcancelled⟩

theorem Kept.step {s t : Service} (h : Kept s.registeredChannels s.control s.grants c r)
    (newest : s.newest.lookup c = some r) (live : ¬ s.Withdrawn r)
    (hnewest : ∀ {c r}, Waits s.registeredChannels s.control s.grants c r →
      s.newest.lookup c = some r)
    (hsound : Sound s.grants) (hm : Matched s.openedChannels s.grants)
    (hst : Staged s.acceptLoop s.grants) (hC : s.Permitted a) (hs : Step s a t)
    (hreg : ∀ c' r', s.registers a = some (c', r') → c ≠ c') :
    Kept t.registeredChannels t.control t.grants c r := by
  have hdispatch : a = .dispatch → Kept t.registeredChannels t.control t.grants c r := by
    rintro rfl
    obtain ⟨i, g, entry, -, rfl⟩ := hsound.dispatch hm hst hC.1 hs
    exact h.set entry rfl rfl fun _ _ => .handling rfl
  have hloses := hC.2.2
  cases hs with
  | registerChannel c' =>
    cases h with
    | registered entry => exact .registered entry
    | retried message => exact .retried (List.mem_append_left _ message)
    | granted i grant => exact .granted i grant
  | grant k c' r' socket entry => exact h.concat entry rfl rfl (.of_promised rfl)
  | answered j g _ entry =>
    exact h.set entry rfl rfl fun _ _ => .inFlight (.of_answered rfl)
  | unanswered j g socket entry => simp [loses, socket, entry] at hloses
  | openChannel i g entry task =>
    have hg := getElem?_dropSender (o := s.openedChannels.lookup g.key) entry task
    refine (h.dropSender hsound hm entry task).set hg rfl rfl fun _ hkeeps => ?_
    cases hkeeps with
    | retrying hretrying => simp [task] at hretrying
    | handling hhandling => simp [task] at hhandling
    | inFlight hflight => exact .inFlight hflight
  | connectChannel i g entry =>
    exact h.set entry rfl rfl fun _ _ => .inFlight (.of_backlog rfl)
  | established i g entry attempt =>
    exact h.set entry rfl rfl fun _ hkeeps =>
      hkeeps.attempt (by simp [attempt]) (by simp [attempt]) _
  | failed i g entry attempt =>
    have hne : g.attempt ≠ .answered := by
      intro hanswered
      simp [loses, entry, hanswered] at hloses
    exact h.set entry rfl rfl fun _ hkeeps =>
      hkeeps.attempt (by simp [attempt.resolve_left hne]) hne _
  | acceptStream i g _ entry =>
    exact h.set entry rfl rfl fun _ _ => .inFlight (.of_held (.inl rfl))
  | identified i g _ entry =>
    exact h.set entry rfl rfl fun _ _ => .inFlight (.of_held (.inr rfl))
  | refused i g loop entry => simp [loses, loop, entry] at hloses
  | notRegistered | delivered | alreadyClosed => exact hdispatch rfl
  | finishOk i g entry =>
    have hwithdrawn : s.Withdrawn g.registration := by
      simpa [loses, entry] using hloses
    exact h.set entry rfl rfl fun hregistration _ => absurd (hregistration ▸ hwithdrawn) live
  | finishCancelled i g entry _ cancelled =>
    have hwithdrawn := withdrawn_of_isCancelled cancelled
    exact h.set entry rfl rfl fun hregistration _ => absurd (hregistration ▸ hwithdrawn) live
  | finishNetwork i g entry | finishClosed i g entry =>
    exact h.set entry rfl rfl fun _ _ => .retrying rfl
  | abort i g entry task closed => simp [loses, closed, entry] at hloses
  | retry i g entry => exact h.retry entry
  | registered c' r' rest head =>
    rw [head] at h
    refine h.register (hreg c' r' (by simp [registers, head])) ?_
    simpa using mt withdrawn_of_isCancelled live
  | reopened c' r' rest head =>
    rw [head] at h
    refine h.reopen ?_
    rintro rfl
    have hr' : s.newest.lookup c = some r' := hnewest (.retried (head ▸ List.mem_cons_self))
    exact Option.some.inj (hr'.symm.trans newest)
  | _ => exact h

theorem kept {s : Service} (h : machine.Reaches Permitted s)
    (newest : s.newest.lookup c = some r) (live : ¬ s.Withdrawn r) :
    Kept s.registeredChannels s.control s.grants c r := by
  induction h generalizing c r with
  | init => contradiction
  | @step s a t hr hC hs ih =>
    have hs := step_sound hs
    -- Only the processing of a registration changes which one is newest, and it registers it.
    by_cases hreg : ∀ c' r', s.registers a = some (c', r') → c ≠ c'
    · rw [newest_of_registers hs hreg] at newest
      have live' : ¬ s.Withdrawn r := fun h => live (h.step hs)
      exact (ih newest live').step newest live' (waits_newest hr fun _ _ h => h.2.1)
        (sound hr fun _ _ h => h.1) (matched hr) (staged hr) hC hs hreg
    · simp only [not_forall, not_not] at hreg
      obtain ⟨c', r', hreg, rfl⟩ := hreg
      obtain ⟨hl, hnewest⟩ := registered_of_registers hs hreg
      rw [newest, Option.some.injEq] at hnewest
      exact .registered (hnewest ▸ hl)

theorem channelRequest_granted {s t : Service} (h : machine.Reaches Permitted s)
    (newest : s.newest.lookup c = some r) (live : ¬ s.Withdrawn r)
    (idle : ∀ g ∈ s.grants, g.channel = c → g.task ≠ .handling ∧ ¬ g.InFlight)
    (settled : ∀ p ∈ s.reopening, p.1 ≠ c) (hs : s.step (.channelRequest i c) = some t) :
    ∃ x j g, t.sockets[i]? = some x ∧ x.phase = .answering (some j) ∧
      t.grants[j]? = some g ∧ g.channel = c ∧ g.registration = r := by
  have hl : s.registeredChannels.lookup c = some r := by
    cases kept h newest live with
    | registered entry => exact entry
    | retried message => exact absurd rfl (settled (c, r) (mem_reopening.mpr (.inl message)))
    | granted j grant =>
      obtain ⟨g, hg, hchannel, hregistration, hkeeps⟩ := grant
      have hmem := List.mem_of_getElem? hg
      cases hkeeps with
      | retrying hretrying =>
        refine absurd rfl (settled (c, r) (mem_reopening.mpr (.inr ?_)))
        exact ⟨g, hmem, hretrying, hchannel, hregistration⟩
      | handling hhandling => exact absurd hhandling (idle g hmem hchannel).1
      | inFlight hflight => exact absurd hflight (idle g hmem hchannel).2
  cases step_sound hs with
  | deny socket entry =>
    rw [hl] at entry
    contradiction
  | grant k c r' socket entry =>
    rw [hl, Option.some.injEq] at entry
    exact ⟨_, _, _, Table.set_self socket _, rfl, List.getElem?_concat_length, rfl, entry.symm⟩

theorem channelRequest_granted_run : ∃ s t, machine.Reaches Permitted s ∧
    s.step (.channelRequest 0 "c") = some t ∧
    ∃ x j g, t.sockets[0]? = some x ∧ x.phase = .answering (some j) ∧
      t.grants[j]? = some g ∧ g.channel = "c" ∧ g.registration = 0 := by
  obtain ⟨s, hr, newest, live, idle, settled, hsome⟩ :=
    Machine.exists_reaches_of_replay (M := machine) (C := Permitted)
      (P := fun s => s.newest.lookup "c" = some 0 ∧ ¬ s.Withdrawn 0 ∧
        (∀ g ∈ s.grants, g.channel = "c" → g.task ≠ .handling ∧ ¬ g.InFlight) ∧
        (∀ p ∈ s.reopening, p.1 ≠ "c") ∧ (s.step (.channelRequest 0 "c")).isSome)
      [.registerChannel "c", .serve true, .connectControl "k", .channelRequest 0 "c",
        .openChannel 0, .answer 0 true, .connectChannel 0, .acceptStream 0, .identify true,
        .createChannel 0 true, .dispatch, .finish 0 .network, .retry 0, .serve true]
      (by decide)
  obtain ⟨t, hs⟩ := Option.isSome_iff_exists.mp hsome
  exact ⟨s, t, hr, hs, channelRequest_granted hr newest live idle settled hs⟩

/-- The sender reads the Ok and cannot connect its data stream: the registration stays with a
task that no stream will reach, and the sender's next request is denied. -/
theorem channelRequest_denied : ∃ s, machine.Reachable s ∧
    s.newest.lookup "c" = some 0 ∧ ¬ s.Withdrawn 0 ∧
    (∀ g ∈ s.grants, g.channel = "c" → g.task ≠ .handling ∧ ¬ g.InFlight) ∧
    (∀ p ∈ s.reopening, p.1 ≠ "c") ∧
    ∃ t, s.step (.channelRequest 0 "c") = some t ∧
      ∃ x, t.sockets[0]? = some x ∧ x.phase = .answering none :=
  Machine.exists_reaches_of_replay (M := machine) (C := fun _ _ => True)
    (P := fun s => s.newest.lookup "c" = some 0 ∧ ¬ s.Withdrawn 0 ∧
      (∀ g ∈ s.grants, g.channel = "c" → g.task ≠ .handling ∧ ¬ g.InFlight) ∧
      (∀ p ∈ s.reopening, p.1 ≠ "c") ∧
      ∃ t, s.step (.channelRequest 0 "c") = some t ∧
        ∃ x, t.sockets[0]? = some x ∧ x.phase = .answering none)
    [.registerChannel "c", .serve true, .connectControl "k", .channelRequest 0 "c",
      .answer 0 true, .createChannel 0 false, .openChannel 0]
    (by decide)

end Service

end BdsPro.Network.Receiver
