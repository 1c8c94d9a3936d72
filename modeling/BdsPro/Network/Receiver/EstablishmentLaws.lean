import BdsPro.Network.Receiver.ServiceLaws

namespace BdsPro.Network.Receiver

open BdsPro.Library

/-- The attempt is under way: the sender may still connect, or its stream has not been given
to a task yet. -/
def Grant.InFlight (g : Grant) : Prop :=
  g.attempt = .promised ∨ g.attempt = .answered ∨ g.stream = .backlog ∨ g.stream.Held

def Grant.Pending (g : Grant) : Prop := g.task = .spawned ∨ g.InFlight

section

variable {g : Grant}

theorem Grant.InFlight.of_promised (h : g.attempt = .promised) : g.InFlight := .inl h

theorem Grant.InFlight.of_answered (h : g.attempt = .answered) : g.InFlight := .inr (.inl h)

theorem Grant.InFlight.of_backlog (h : g.stream = .backlog) : g.InFlight := .inr (.inr (.inl h))

theorem Grant.InFlight.of_held (h : g.stream.Held) : g.InFlight := .inr (.inr (.inr h))

end

theorem Grant.InFlight.of_attempt {g : Grant} (h : Grant.InFlight { g with attempt := p })
    (promised : p ≠ .promised) (answered : p ≠ .answered) : g.InFlight :=
  .inr (.inr ((h.resolve_left promised).resolve_left answered))

theorem Grant.InFlight.attempt {g : Grant} (h : g.InFlight) (promised : g.attempt ≠ .promised)
    (answered : g.attempt ≠ .answered) (p : AttemptPhase) :
    Grant.InFlight { g with attempt := p } :=
  .inr (.inr ((h.resolve_left promised).resolve_left answered))

instance (g : Grant) : Decidable g.InFlight :=
  inferInstanceAs (Decidable (_ ∨ _ ∨ _ ∨ _ ∨ _))

instance (g : Grant) : Decidable g.Pending := inferInstanceAs (Decidable (_ ∨ _))

namespace Service

def looksUp (s : Service) : Action → Option Grant
  | .dispatch => match s.acceptLoop with
    | .dispatching i => s.grants[i]?
    | _ => none
  | _ => none

def grants? (s : Service) : Action →
    Option ((ConnectionIdentifier × ChannelIdentifier) × Registration)
  | .channelRequest i c => s.sockets[i]?.bind fun x =>
    (s.registeredChannels.lookup c).map fun r => ((x.connection, c), r)
  | _ => none

/-- A stream is looked up once the task of its grant has put its sender into
`opened_channels`, and a channel is granted to a connection again once all that is left of
the connection's earlier attempts is out of the way. -/
def Orderly (s : Service) (a : Action) : Prop :=
  (∀ g ∈ s.looksUp a, g.task ≠ .spawned) ∧
    ∀ k ∈ s.grants? a, ∀ g ∈ s.grants, g.key = k.1 → ¬ g.Pending

instance (s : Service) (a : Action) : Decidable (s.Orderly a) :=
  inferInstanceAs (Decidable (_ ∧ _))

end Service

structure Grant.Sound (g : Grant) (i : Nat) : Prop where
  waiting : g.InFlight → g.task = .spawned ∨ g.task = .parked
  delivered : ∀ j, g.stream = .delivered j → j = i
  kept : g.stream ≠ .dropped

namespace Service

structure Sound (l : List Grant) : Prop where
  grant : ∀ (i : Nat) (g : Grant), l[i]? = some g → g.Sound i
  unique : ∀ {i j : Nat} {g h : Grant}, l[i]? = some g → l[j]? = some h → g.Pending →
    h.Pending → g.key = h.key → i = j

section

variable {l : List Grant} {g g' : Grant} {i : Nat}

theorem Sound.set (h : Sound l) (entry : l[i]? = some g) (key : g'.key = g.key)
    (pending : g'.Pending → g.Pending) (grant : g'.Sound i) : Sound (l.set i g') where
  grant _ _ hj := Table.forall_set h.grant grant hj
  unique hj hj' hp hp' hkey := by
    rcases Table.set_cases hj with ⟨rfl, rfl⟩ | ⟨-, hj⟩
    · rcases Table.set_cases hj' with ⟨rfl, rfl⟩ | ⟨-, hj'⟩
      · rfl
      · exact h.unique entry hj' (pending hp) hp' (key ▸ hkey)
    · rcases Table.set_cases hj' with ⟨rfl, heq⟩ | ⟨-, hj'⟩
      · exact h.unique hj entry hp (pending (heq ▸ hp')) (hkey.trans (heq ▸ key))
      · exact h.unique hj hj' hp hp' hkey

theorem Sound.concat (h : Sound l) (grant : g.Sound l.length)
    (alone : ∀ g' ∈ l, g'.key = g.key → ¬ g'.Pending) : Sound (l ++ [g]) where
  grant _ _ hj := Table.forall_concat h.grant grant hj
  unique hj hj' hp hp' hkey := by
    rcases Table.concat_cases hj with hj | ⟨rfl, rfl⟩
    · rcases Table.concat_cases hj' with hj' | ⟨rfl, heq⟩
      · exact h.unique hj hj' hp hp' hkey
      · exact absurd hp (alone _ (List.mem_of_getElem? hj) (heq ▸ hkey))
    · rcases Table.concat_cases hj' with hj' | ⟨rfl, rfl⟩
      · exact absurd hp' (alone _ (List.mem_of_getElem? hj') hkey.symm)
      · rfl

theorem Sound.move (h : Sound l) (entry : l[i]? = some g) (key : g'.key = g.key)
    (task : g'.task = g.task) (flight : g'.InFlight → g.InFlight)
    (stream : g'.stream = g.stream ∨ g'.stream ≠ .dropped ∧ ∀ j, g'.stream ≠ .delivered j) :
    Sound (l.set i g') := by
  have hg := h.grant i g entry
  have hpending : g'.Pending → g.Pending := Or.imp (fun hp => task ▸ hp) flight
  refine h.set entry key hpending ⟨fun hf => task ▸ hg.waiting (flight hf), ?_, ?_⟩
  · intro j hj
    rcases stream with hstream | ⟨-, hstream⟩
    · exact hg.delivered j (hstream ▸ hj)
    · exact absurd hj (hstream j)
  · rcases stream with hstream | ⟨hstream, -⟩
    · exact hstream ▸ hg.kept
    · exact hstream

theorem Sound.lookup (h : Sound l) (hm : Matched opened l) (entry : l[i]? = some g)
    (stream : g.stream = .identified) (task : g.task ≠ .spawned) :
    opened.lookup g.key = some i := by
  have hflight : g.InFlight := .of_held (.inr stream)
  have hparked := ((h.grant i g entry).waiting hflight).resolve_left task
  exact hm.sender entry hparked

theorem Sound.not_inFlight {j : Nat} (h : Sound l) (hm : Matched opened l)
    (entry : l[i]? = some g) (task : g.task = .spawned) (hl : opened.lookup g.key = some j)
    (hj : l[j]? = some g') : ¬ g'.InFlight := by
  intro hflight
  obtain ⟨_, hg, hkey, htask⟩ := hm.task hl
  rw [hj, Option.some.injEq] at hg
  subst hg
  obtain rfl := h.unique entry hj (.inl task) (.inr hflight) hkey.symm
  rw [entry, Option.some.injEq] at hj
  rw [← hj, task] at htask
  contradiction

theorem Sound.dropSender (h : Sound l) (hm : Matched opened l) (entry : l[i]? = some g)
    (task : g.task = .spawned) : Sound (dropSender l (opened.lookup g.key)) := by
  constructor
  · intro j g' hj
    obtain ⟨g'', hg'', ⟨rfl, -⟩ | ⟨hl, -, rfl⟩⟩ := dropSender_cases hj
    · exact h.grant j g' hg''
    · have hflight := h.not_inFlight hm entry task hl hg''
      exact ⟨fun hf => absurd hf hflight, (h.grant j g'' hg'').delivered,
        (h.grant j g'' hg'').kept⟩
  · intro j j' g₁ g₂ hj hj' hp hp' hkey
    obtain ⟨h₁, hh₁, ⟨rfl, -⟩ | ⟨-, -, rfl⟩⟩ := dropSender_cases hj
    · obtain ⟨h₂, hh₂, ⟨rfl, -⟩ | ⟨-, -, rfl⟩⟩ := dropSender_cases hj'
      · exact h.unique hh₁ hh₂ hp hp' hkey
      · exact h.unique hh₁ hh₂ hp (.inr (hp'.resolve_left nofun)) hkey
    · obtain ⟨h₂, hh₂, ⟨rfl, -⟩ | ⟨-, -, rfl⟩⟩ := dropSender_cases hj'
      · exact h.unique hh₁ hh₂ (.inr (hp.resolve_left nofun)) hp' hkey
      · exact h.unique hh₁ hh₂ (.inr (hp.resolve_left nofun)) (.inr (hp'.resolve_left nofun)) hkey

theorem modify_set {f : Grant → Grant} (entry : l[i]? = some g) :
    (l.set i g').modify i f = l.set i (f g') := by
  have hi := Table.lt_of_row entry
  rw [List.modify_eq_set_getElem?, List.getElem?_set_self hi]
  simp

end

theorem Sound.dispatch {s t : Service} (h : Sound s.grants)
    (hm : Matched s.openedChannels s.grants) (hst : Staged s.acceptLoop s.grants)
    (hC : s.Orderly .dispatch) (hs : Step s .dispatch t) :
    ∃ i g, s.grants[i]? = some g ∧ g.stream = .identified ∧ t = { s with
      acceptLoop := .accepting
      openedChannels := s.openedChannels.erase g.key
      grants := s.grants.set i { g with task := .handling, stream := .delivered i } } := by
  cases hs with
  | notRegistered i g loop entry opened =>
    have hstream := hst.held_eq entry (by rw [loop]; rfl)
    have htask := hC.1 g (by simp [looksUp, loop, entry])
    rw [h.lookup hm entry hstream htask] at opened
    contradiction
  | delivered i j g _ loop entry opened =>
    have hstream := hst.held_eq entry (by rw [loop]; rfl)
    have htask := hC.1 g (by simp [looksUp, loop, entry])
    rw [h.lookup hm entry hstream htask, Option.some.injEq] at opened
    subst opened
    exact ⟨i, g, entry, hstream, by rw [modify_set entry]⟩
  | alreadyClosed i j g loop entry opened receiver =>
    obtain ⟨g', hg', -, htask⟩ := hm.task opened
    simp [hg', htask] at receiver

theorem Sound.step {s t : Service} (h : Sound s.grants)
    (hm : Matched s.openedChannels s.grants) (ha : Asked s.sockets s.grants)
    (hst : Staged s.acceptLoop s.grants) (hC : s.Orderly a) (hs : Step s a t) :
    Sound t.grants := by
  -- A stream that has been handed over is not in flight any more: its key is free again.
  have hdispatch : a = .dispatch → Sound t.grants := by
    rintro rfl
    obtain ⟨i, g, entry, hstream, rfl⟩ := h.dispatch hm hst hC hs
    have hflight : ¬ Grant.InFlight { g with task := .handling, stream := .delivered i } := by
      intro hf
      have hattempt : g.attempt = .promised ∨ g.attempt = .answered :=
        hf.imp_right fun hf => hf.resolve_right (by simp [Stream.Held])
      rw [(hst.grant i g entry).absent hattempt] at hstream
      contradiction
    refine h.set entry rfl (fun hp => absurd (hp.resolve_left (by simp)) hflight)
      ⟨fun hf => absurd hf hflight, ?_, by simp⟩
    rintro j ⟨⟩
    rfl
  cases hs with
  | grant k c r socket entry =>
    refine h.concat ⟨fun _ => .inl rfl, by simp, by simp⟩ fun g hg hkey => ?_
    exact hC.2 ((k, c), r) (by simp [grants?, socket, entry]) g hg hkey
  | answered j g socket entry =>
    obtain ⟨g', hg', hpromised⟩ := ha.promised socket rfl
    rw [entry, Option.some.injEq] at hg'
    exact h.move entry rfl rfl (fun _ => .of_promised (hg' ▸ hpromised)) (.inl rfl)
  | unanswered j g _ entry | failed j g entry | established j g entry =>
    exact h.move entry rfl rfl (fun hf => hf.of_attempt (by simp) (by simp)) (.inl rfl)
  | openChannel i g entry task =>
    have hg := getElem?_dropSender (o := s.openedChannels.lookup g.key) entry task
    have hgs := h.grant i g entry
    exact (h.dropSender hm entry task).set hg rfl (fun _ => .inl task)
      ⟨fun _ => .inr rfl, hgs.delivered, hgs.kept⟩
  | connectChannel i g entry attempt =>
    exact h.move entry rfl rfl (fun _ => .of_answered attempt) (.inr (by simp))
  | acceptStream i g loop entry stream =>
    exact h.move entry rfl rfl (fun _ => .of_backlog stream) (.inr (by simp))
  | identified i g loop entry | refused i g loop entry =>
    have hstream := hst.held_eq entry (by rw [loop]; rfl)
    exact h.move entry rfl rfl (fun _ => .of_held (.inl hstream)) (.inr (by simp))
  | notRegistered | delivered | alreadyClosed => exact hdispatch rfl
  | finishOk i g entry task | finishCancelled i g entry task | finishNetwork i g entry task
  | finishClosed i g entry task | abort i g entry task | retry i g entry task =>
    have hg := h.grant i g entry
    have hflight : ¬ g.InFlight := fun hf => by simpa [task] using hg.waiting hf
    exact h.set entry rfl (fun hp => absurd (hp.resolve_left (by simp)) hflight)
      ⟨fun hf => absurd hf hflight, hg.delivered, hg.kept⟩
  | _ => exact h

theorem sound {s : Service} {C : Service → Action → Prop} (h : machine.Reaches C s)
    (hC : ∀ s a, C s a → s.Orderly a) : Sound s.grants := by
  induction h with
  | init => exact ⟨nofun, nofun⟩
  | step hr hc hs ih =>
    exact ih.step (matched hr) (asked hr) (staged hr) (hC _ _ hc) (step_sound hs)

theorem established_delivered {s : Service} (h : machine.Reaches Orderly s)
    (entry : s.grants[i]? = some g) (established : g.attempt = .established) :
    (s.acceptLoop = .dispatching i ∧ g.stream = .identified) ∨ g.stream = .delivered i := by
  have hsound := (sound h fun _ _ h => h).grant i g entry
  rcases ((staged h).grant i g entry).told established with hstream | ⟨j, hstream⟩ | hstream
  · have hheld := (staged h).holder i g entry (.inr hstream)
    rw [hstream] at hheld
    cases hloop : s.acceptLoop with
    | accepting | identifying j =>
      rw [hloop] at hheld
      cases hheld
    | dispatching j =>
      rw [hloop] at hheld
      cases hheld
      exact .inl ⟨rfl, hstream⟩
  · obtain rfl := hsound.delivered j hstream
    exact .inr hstream
  · exact absurd hstream hsound.kept

theorem established_delivered_run : ∃ s, machine.Reaches Orderly s ∧
    ∃ g, s.grants[0]? = some g ∧ g.attempt = .established ∧
      ((s.acceptLoop = .dispatching 0 ∧ g.stream = .identified) ∨ g.stream = .delivered 0) := by
  obtain ⟨s, hr, g, hg, hattempt⟩ := Machine.exists_reaches_of_replay (M := machine)
    (C := Orderly) (P := fun s => ∃ g ∈ s.grants[0]?, g.attempt = .established)
    [.registerChannel "c", .serve true, .connectControl "k", .channelRequest 0 "c",
      .openChannel 0, .answer 0 true, .connectChannel 0, .acceptStream 0, .identify true,
      .createChannel 0 true, .dispatch]
    (by decide)
  exact ⟨s, hr, g, hg, hattempt, established_delivered hr hg hattempt⟩

/-- The task of the grant is slow: the stream is looked up, and dropped, before the task has
put its sender into `opened_channels`, although the sender has been told Ok twice. -/
theorem established_dropped : ∃ s, machine.Reachable s ∧
    ∃ g, s.grants[0]? = some g ∧ g.attempt = .established ∧ g.stream = .dropped :=
  Machine.exists_reaches_of_replay (M := machine) (C := fun _ _ => True)
    (P := fun s => ∃ g, s.grants[0]? = some g ∧ g.attempt = .established ∧ g.stream = .dropped)
    [.registerChannel "c", .serve true, .connectControl "k", .channelRequest 0 "c",
      .answer 0 true, .connectChannel 0, .acceptStream 0, .identify true,
      .createChannel 0 true, .dispatch]
    (by decide)

end Service

end BdsPro.Network.Receiver
