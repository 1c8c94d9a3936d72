import BdsPro.Network.Receiver.RegistrationLaws

namespace BdsPro.Network.Receiver

open BdsPro.Library

namespace Service

def Action.closesQueue : Action → Bool
  | .finish _ .closedByOtherSide => true
  | _ => false

/-- A registration that a request may bind, at once or once it has been processed, or that is
being granted. -/
def Offered (s : Service) (r : Registration) : Prop :=
  r ∈ s.registeredChannels.values ∨ r ∈ s.control.map ServiceControl.registration ∨
    ∃ g ∈ s.grants, (g.task = .retrying ∨ g.attempt = .promised) ∧ g.registration = r

def Live (s : Service) (r : Registration) : Prop :=
  ∃ x, s.registrations[r]? = some x ∧ x.cancelledByControl = false ∧ x.closedByService = false

def cancels (s : Service) : Action → List Registration
  | .closeControl i => (s.sockets[i]?.map ControlSocket.activeConnectionChannels).getD []
  | _ => []

/-- No registration is cancelled while it is offered, or offered again after it has been
cancelled or its queue closed. -/
def Guarded (s : Service) (a : Action) : Prop :=
  (∀ r ∈ s.cancels a, ¬ s.Offered r) ∧ (∀ g ∈ s.reopens a, s.Live g.registration) ∧
    a.closesQueue = false

instance (s : Service) (r : Registration) : Decidable (s.Offered r) :=
  inferInstanceAs (Decidable (_ ∨ _ ∨ _))

instance (s : Service) (r : Registration) : Decidable (s.Live r) :=
  inferInstanceAs (Decidable (∃ x, _ = some x ∧ _))

instance (s : Service) (a : Action) : Decidable (s.Guarded a) :=
  inferInstanceAs (Decidable (_ ∧ _ ∧ _))

def Promised (l : List Grant) (r : Registration) : Prop :=
  ∃ (i : Nat) (g : Grant), l[i]? = some g ∧ g.attempt = .promised ∧ g.registration = r

theorem Offered.of_waits {s : Service} (h : Waits s.registeredChannels s.control s.grants c r) :
    s.Offered r := by
  cases h with
  | registered entry => exact .inl (Map.mem_values.mpr ⟨c, entry⟩)
  | retried message => exact .inr (.inl (List.mem_map.mpr ⟨_, message, rfl⟩))
  | retrying i g entry task _ registration =>
    exact .inr (.inr ⟨g, List.mem_of_getElem? entry, .inl task, registration⟩)

theorem Offered.cases {s : Service} (h : s.Offered r) :
    (∃ c, Waits s.registeredChannels s.control s.grants c r) ∨
      (∃ c, .registerChannel c r ∈ s.control) ∨ Promised s.grants r := by
  rcases h with hr | hm | ⟨g, hg, htask | hattempt, hregistration⟩
  · obtain ⟨c, hl⟩ := Map.mem_values.mp hr
    exact .inl ⟨c, .registered hl⟩
  · obtain ⟨m, hmem, rfl⟩ := List.mem_map.mp hm
    cases m with
    | registerChannel c r => exact .inr (.inl ⟨c, hmem⟩)
    | retryChannel c r => exact .inl ⟨c, .retried hmem⟩
  · obtain ⟨i, hi⟩ := List.getElem?_of_mem hg
    exact .inl ⟨g.channel, .retrying i g hi htask rfl hregistration⟩
  · obtain ⟨i, hi⟩ := List.getElem?_of_mem hg
    exact .inr (.inr ⟨i, g, hi, hattempt, hregistration⟩)

theorem offered_of_message {s : Service} (h : .registerChannel c r ∈ s.control) : s.Offered r :=
  .inr (.inl (List.mem_map.mpr ⟨_, h, rfl⟩))

theorem offered_of_promised {s : Service} (h : Promised s.grants r) : s.Offered r := by
  obtain ⟨i, g, hg, hattempt, hregistration⟩ := h
  exact .inr (.inr ⟨g, List.mem_of_getElem? hg, .inr hattempt, hregistration⟩)

theorem message_of_registers {s : Service} (h : s.registers a = some (c, r)) :
    .registerChannel c r ∈ s.control := by
  unfold registers at h
  split at h
  · split at h
    next hcontrol =>
      cases h
      simp [hcontrol]
    next => contradiction
  · contradiction

theorem Promised.of_set {l : List Grant} {i : Nat} (h : Promised (l.set i g') r)
    (entry : l[i]? = some g) (attempt : g'.attempt = .promised → g.attempt = .promised)
    (registration : g'.registration = g.registration) : Promised l r := by
  obtain ⟨j, h, hj, hattempt, rfl⟩ := h
  rcases Table.set_cases hj with ⟨rfl, rfl⟩ | ⟨-, hj⟩
  · exact ⟨i, g, entry, attempt hattempt, registration.symm⟩
  · exact ⟨j, h, hj, hattempt, rfl⟩

theorem Promised.of_dropSender (h : Promised (dropSender l o) r) : Promised l r := by
  obtain ⟨j, h, hj, hattempt, rfl⟩ := h
  obtain ⟨g, hg, ⟨rfl, -⟩ | ⟨-, -, rfl⟩⟩ := dropSender_cases hj
  · exact ⟨j, h, hg, hattempt, rfl⟩
  · exact ⟨j, g, hg, hattempt, rfl⟩

theorem Promised.of_step {s t : Service} (hs : Step s a t) (h : Promised t.grants r) :
    Promised s.grants r ∨ ∃ c, s.registeredChannels.lookup c = some r := by
  cases hs with
  | grant k c r' socket entry =>
    obtain ⟨j, h, hj, hattempt, rfl⟩ := h
    rcases Table.concat_cases hj with hj | ⟨-, rfl⟩
    · exact .inl ⟨j, h, hj, hattempt, rfl⟩
    · exact .inr ⟨c, entry⟩
  | answered i g _ entry | unanswered i g _ entry | connectChannel i g entry
  | established i g entry | failed i g entry =>
    exact .inl (h.of_set entry (by rintro ⟨⟩) rfl)
  | acceptStream i g _ entry | identified i g _ entry | refused i g _ entry
  | notRegistered i g _ entry | alreadyClosed _ _ g _ entry | finishOk i g entry
  | finishCancelled i g entry | finishNetwork i g entry | finishClosed i g entry
  | abort i g entry | retry i g entry => exact .inl (h.of_set entry id rfl)
  | openChannel i g entry task =>
    have hg := getElem?_dropSender (o := s.openedChannels.lookup g.key) entry task
    exact .inl (h.of_set hg id rfl).of_dropSender
  | delivered i j g _ _ entry =>
    obtain ⟨j', h, hj, hattempt, rfl⟩ := h
    obtain ⟨g', hg', ⟨-, rfl⟩ | ⟨-, rfl⟩⟩ := Table.modify_cases hj
    · exact .inl (Promised.of_set ⟨j', g', hg', hattempt, rfl⟩ entry id rfl)
    · exact .inl (Promised.of_set ⟨j', h, hg', hattempt, rfl⟩ entry id rfl)
  | _ => exact .inl h

theorem Offered.of_step {s t : Service} (hs : Step s a t) (h : t.Offered r) :
    s.Offered r ∨ (∃ c, a = .registerChannel c ∧ r = s.registrations.length) ∨
      ∃ g, s.reopens a = some g ∧ g.registration = r := by
  rcases Offered.cases h with ⟨c, hw⟩ | ⟨c, hm⟩ | hp
  · cases hw.of_step hs with
    | old hw => exact .inl (.of_waits hw)
    | registered message => exact .inl (offered_of_message (message_of_registers message))
    | overtaken _ _ entry => exact .inl (.of_waits (waits_of_reopening entry))
    | reopened g grant _ registration => exact .inr (.inr ⟨g, grant, registration⟩)
  · cases hs with
    | registerChannel c' =>
      rcases List.mem_append.mp hm with hm | hm
      · exact .inl (offered_of_message hm)
      · obtain ⟨rfl, rfl⟩ : c = c' ∧ r = s.registrations.length := by simpa using hm
        exact .inr (.inl ⟨c, rfl, rfl⟩)
    | registered c' r' rest head | reopened c' r' rest head =>
      exact .inl (offered_of_message (head ▸ List.mem_cons_of_mem _ hm))
    | retry => exact .inl (offered_of_message (by simpa using hm))
    | _ => exact .inl (offered_of_message hm)
  · rcases hp.of_step hs with hp | ⟨c, hl⟩
    · exact .inl (offered_of_promised hp)
    · exact .inl (.of_waits (.registered hl))

theorem Live.step {s t : Service} (hs : Step s a t) (hC : s.Guarded a) (h : s.Live r)
    (hr : r ∉ s.cancels a) : t.Live r := by
  cases hs with
  | registerChannel => exact Table.exists_concat h
  | closeQueue => exact Table.exists_modify h fun _ _ _ h => h
  | closeControl socket =>
    refine Table.exists_mapIdx h fun x hx => ?_
    rw [if_neg]
    · exact hx
    · simpa [cancels, socket] using hr
  | finishClosed => exact absurd hC.2.2 nofun
  | registered =>
    simp only [Live]
    split
    · exact h
    · exact Table.exists_modify h fun _ _ _ h => h
  | stop =>
    refine Table.exists_mapIdx h fun x hx => ?_
    split
    · exact hx
    · exact hx
  | _ => exact h

theorem live_of_offered {s : Service} (h : machine.Reaches Guarded s) (hr : s.Offered r) :
    s.Live r := by
  induction h generalizing r with
  | init =>
    rcases Offered.cases hr with ⟨c, hw⟩ | ⟨c, hm⟩ | ⟨i, g, hg, -⟩
    · cases hw with
      | registered | retried | retrying => contradiction
    · contradiction
    · contradiction
  | step _ hC hs ih =>
    have hs := step_sound hs
    rcases hr.of_step hs with hr | ⟨c, rfl, rfl⟩ | ⟨g, hg, rfl⟩
    · exact (ih hr).step hs hC fun hcancels => hC.1 r hcancels hr
    · cases hs with
      | registerChannel => exact ⟨_, List.getElem?_concat_length, rfl, rfl⟩
    · refine (hC.2.1 g hg).step hs hC fun hcancels => ?_
      unfold reopens at hg
      split at hg
      · contradiction
      · contradiction
      · contradiction

theorem answering_live {s : Service} {i j : Nat} (h : machine.Reaches Guarded s)
    (hx : s.sockets[i]? = some x) (phase : x.phase = .answering (some j)) :
    ∃ g, s.grants[j]? = some g ∧ s.Live g.registration := by
  obtain ⟨g, hg, hattempt⟩ := (asked h).promised hx phase
  exact ⟨g, hg, live_of_offered h (offered_of_promised ⟨j, g, hg, hattempt, rfl⟩)⟩

theorem answering_live_run : ∃ s, machine.Reaches Guarded s ∧
    ∃ x, s.sockets[0]? = some x ∧ x.phase = .answering (some 1) ∧
      ∃ g, s.grants[1]? = some g ∧ s.Live g.registration := by
  obtain ⟨s, hr, x, hx, hphase⟩ := Machine.exists_reaches_of_replay (M := machine)
    (C := Guarded) (P := fun s => ∃ x, s.sockets[0]? = some x ∧ x.phase = .answering (some 1))
    [.registerChannel "c", .serve true, .connectControl "k", .channelRequest 0 "c",
      .openChannel 0, .answer 0 true, .connectChannel 0, .acceptStream 0, .identify true,
      .createChannel 0 true, .dispatch, .finish 0 .network, .retry 0, .serve true,
      .channelRequest 0 "c"]
    (by decide)
  exact ⟨s, hr, x, hx, hphase, answering_live hr hx hphase⟩

/-- The sender closes the channel, which closes the queue; the registration is offered again
all the same. -/
theorem answering_closed : ∃ s, machine.Reachable s ∧
    ∃ x, s.sockets[0]? = some x ∧ x.phase = .answering (some 1) ∧
      ∃ g, s.grants[1]? = some g ∧ ¬ s.Live g.registration :=
  Machine.exists_reaches_of_replay (M := machine) (C := fun _ _ => True)
    (P := fun s => ∃ x, s.sockets[0]? = some x ∧ x.phase = .answering (some 1) ∧
      ∃ g, s.grants[1]? = some g ∧ ¬ s.Live g.registration)
    [.registerChannel "c", .serve true, .connectControl "k", .channelRequest 0 "c",
      .openChannel 0, .answer 0 true, .connectChannel 0, .acceptStream 0, .identify true,
      .createChannel 0 true, .dispatch, .finish 0 .closedByOtherSide, .retry 0, .serve true,
      .channelRequest 0 "c"]
    (by decide)

end Service

end BdsPro.Network.Receiver
