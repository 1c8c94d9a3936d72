import BdsPro.Network.Receiver.ServiceLaws

namespace BdsPro.Network.Receiver

open BdsPro.Library

def ServiceControl.retries : ServiceControl → Option (ChannelIdentifier × Registration)
  | .registerChannel _ _ => none
  | .retryChannel c r => some (c, r)

namespace Service

/-- The channels whose data connection has ended and that are not registered again yet. -/
def reopening (s : Service) : List (ChannelIdentifier × Registration) :=
  s.control.filterMap ServiceControl.retries ++
    (s.grants.filter fun g => g.task = .retrying).map fun g => (g.channel, g.registration)

def registers (s : Service) : Action → Option (ChannelIdentifier × Registration)
  | .serve _ => match s.control with
    | .registerChannel c r :: _ => some (c, r)
    | _ => none
  | _ => none

def reopens (s : Service) : Action → Option Grant
  | .finish i .network | .finish i .closedByOtherSide => s.grants[i]?
  | _ => none

inductive Waits (table : Map ChannelIdentifier Registration) (control : List ServiceControl)
    (grants : List Grant) (c : ChannelIdentifier) (r : Registration) : Prop
  | registered (entry : table.lookup c = some r)
  | retried (message : .retryChannel c r ∈ control)
  | retrying (i : Nat) (g : Grant) (entry : grants[i]? = some g) (task : g.task = .retrying)
      (channel : g.channel = c) (registration : g.registration = r)

theorem mem_reopening {s : Service} : (c, r) ∈ s.reopening ↔ .retryChannel c r ∈ s.control ∨
    ∃ g ∈ s.grants, g.task = .retrying ∧ g.channel = c ∧ g.registration = r := by
  have hretries (m : ServiceControl) : m.retries = some (c, r) ↔ m = .retryChannel c r := by
    cases m with
    | registerChannel => simp [ServiceControl.retries]
    | retryChannel => simp [ServiceControl.retries]
  simp [reopening, hretries, and_assoc]

theorem waits_of_reopening {s : Service} (h : (c, r) ∈ s.reopening) :
    Waits s.registeredChannels s.control s.grants c r := by
  rcases mem_reopening.mp h with hm | ⟨g, hg, htask, hchannel, hregistration⟩
  · exact .retried hm
  · obtain ⟨i, hi⟩ := List.getElem?_of_mem hg
    exact .retrying i g hi htask hchannel hregistration

inductive Origin (s : Service) (a : Action) (t : Service) (c : ChannelIdentifier)
    (r : Registration) : Prop
  | old (waits : Waits s.registeredChannels s.control s.grants c r)
      (newest : t.newest.lookup c = s.newest.lookup c)
  | registered (message : s.registers a = some (c, r)) (newest : t.newest.lookup c = some r)
  | overtaken (r' : Registration) (message : s.registers a = some (c, r'))
      (entry : (c, r) ∈ s.reopening)
  | reopened (g : Grant) (grant : s.reopens a = some g) (channel : g.channel = c)
      (registration : g.registration = r) (newest : t.newest = s.newest)

section

variable {table : Map ChannelIdentifier Registration} {control : List ServiceControl}

theorem Waits.of_set {l : List Grant} {i : Nat} (h : Waits table control (l.set i g') c r)
    (entry : l[i]? = some g) (task : g'.task = .retrying → g.task = .retrying)
    (channel : g'.channel = g.channel) (registration : g'.registration = g.registration) :
    Waits table control l c r := by
  cases h with
  | registered entry => exact .registered entry
  | retried message => exact .retried message
  | retrying j g'' hj htask hchannel hregistration =>
    rcases Table.set_cases hj with ⟨rfl, rfl⟩ | ⟨-, hj⟩
    · exact .retrying i g entry (task htask) (channel ▸ hchannel) (registration ▸ hregistration)
    · exact .retrying j g'' hj htask hchannel hregistration

theorem Waits.of_dropSender (h : Waits table control (dropSender l o) c r) :
    Waits table control l c r := by
  cases h with
  | registered entry => exact .registered entry
  | retried message => exact .retried message
  | retrying j g hj htask hchannel hregistration =>
    obtain ⟨g', hg', ⟨rfl, -⟩ | ⟨-, -, rfl⟩⟩ := dropSender_cases hj
    · exact .retrying j g hg' htask hchannel hregistration
    · contradiction

theorem Waits.of_finish {l : List Grant} {i : Nat} (h : Waits table control (l.set i g') c r) :
    Waits table control l c r ∨ g'.channel = c ∧ g'.registration = r := by
  cases h with
  | registered entry => exact .inl (.registered entry)
  | retried message => exact .inl (.retried message)
  | retrying j g'' hj htask hchannel hregistration =>
    rcases Table.set_cases hj with ⟨rfl, rfl⟩ | ⟨-, hj⟩
    · exact .inr ⟨hchannel, hregistration⟩
    · exact .inl (.retrying j g'' hj htask hchannel hregistration)

theorem Waits.of_concat {l : List Grant} (h : Waits (table.erase c') control (l ++ [g]) c r)
    (task : g.task ≠ .retrying) : Waits table control l c r := by
  cases h with
  | registered entry => exact .registered (Map.lookup_of_erase entry).2
  | retried message => exact .retried message
  | retrying i g' hi htask hchannel hregistration =>
    rcases Table.concat_cases hi with hi | ⟨-, rfl⟩
    · exact .retrying i g' hi htask hchannel hregistration
    · exact absurd htask task

theorem Waits.of_retry {l : List Grant} {i : Nat}
    (h : Waits table (control ++ [.retryChannel g.channel g.registration]) (l.set i g') c r)
    (entry : l[i]? = some g) (task : g.task = .retrying) (ended : g'.task ≠ .retrying) :
    Waits table control l c r := by
  cases h with
  | registered entry => exact .registered entry
  | retried message =>
    rcases List.mem_append.mp message with hm | hm
    · exact .retried hm
    · obtain ⟨rfl, rfl⟩ : c = g.channel ∧ r = g.registration := by simpa using hm
      exact .retrying i g entry task rfl rfl
  | retrying j g'' hj htask hchannel hregistration =>
    rcases Table.set_cases hj with ⟨rfl, rfl⟩ | ⟨-, hj⟩
    · exact absurd htask ended
    · exact .retrying j g'' hj htask hchannel hregistration

theorem Waits.of_reopen {l : List Grant} (h : Waits (table.insert c' r') control l c r) :
    Waits table (.retryChannel c' r' :: control) l c r := by
  cases h with
  | registered entry =>
    rw [Map.lookup_insert] at entry
    split at entry
    next hc =>
      obtain rfl := Option.some.inj entry
      exact .retried (hc ▸ List.mem_cons_self)
    next => exact .registered entry
  | retried message => exact .retried (List.mem_cons_of_mem _ message)
  | retrying i g hi htask hchannel hregistration =>
    exact .retrying i g hi htask hchannel hregistration

end

theorem Waits.of_step {s t : Service} (hs : Step s a t)
    (h : Waits t.registeredChannels t.control t.grants c r) : Origin s a t c r := by
  cases hs with
  | registerChannel c' =>
    refine .old ?_ rfl
    cases h with
    | registered entry => exact .registered entry
    | retried message => exact .retried (by simpa using message)
    | retrying i g entry task channel registration =>
      exact .retrying i g entry task channel registration
  | grant k c' r' socket entry => exact .old (h.of_concat (by rintro ⟨⟩)) rfl
  | answered j g _ entry | unanswered j g _ entry | connectChannel j g entry
  | established j g entry | failed j g entry | acceptStream j g _ entry | identified j g _ entry
  | refused j g _ entry | notRegistered j g _ entry | alreadyClosed _ _ g _ entry =>
    exact .old (h.of_set entry id rfl rfl) rfl
  | openChannel i g entry task =>
    have hg := getElem?_dropSender (o := s.openedChannels.lookup g.key) entry task
    exact .old (h.of_set hg (by rintro ⟨⟩) rfl rfl).of_dropSender rfl
  | delivered i j g _ _ entry =>
    refine .old ?_ rfl
    cases h with
    | registered entry => exact .registered entry
    | retried message => exact .retried message
    | retrying j g' hj htask hchannel hregistration =>
      obtain ⟨g'', hg'', ⟨-, rfl⟩ | ⟨-, rfl⟩⟩ := Table.modify_cases hj
      · contradiction
      · exact Waits.of_set (.retrying j g' hg'' htask hchannel hregistration) entry id rfl rfl
  | finishOk i g entry | finishCancelled i g entry | abort i g entry =>
    exact .old (h.of_set entry (by rintro ⟨⟩) rfl rfl) rfl
  | finishNetwork i g entry | finishClosed i g entry =>
    rcases h.of_finish with h | ⟨hchannel, hregistration⟩
    · exact .old h rfl
    · exact .reopened g entry hchannel hregistration rfl
  | retry i g entry task => exact .old (h.of_retry entry task nofun) rfl
  | registered c' r' rest head =>
    have hmessage (ok : Bool) : s.registers (.serve ok) = some (c', r') := by
      simp [registers, head]
    by_cases hc : c = c'
    · subst hc
      cases h with
      | registered entry =>
        rw [Map.lookup_insert_self, Option.some.injEq] at entry
        subst entry
        exact .registered (hmessage _) (Map.lookup_insert_self _ c r')
      | retried message =>
        refine .overtaken r' (hmessage _) (mem_reopening.mpr (.inl ?_))
        exact head ▸ List.mem_cons_of_mem _ message
      | retrying j g hj htask hchannel hregistration =>
        have hg := List.mem_of_getElem? hj
        refine .overtaken r' (hmessage _) (mem_reopening.mpr (.inr ?_))
        exact ⟨g, hg, htask, hchannel, hregistration⟩
    · refine .old ?_ ((Map.lookup_insert s.newest c' c r').trans (if_neg hc))
      cases h with
      | registered entry =>
        rw [Map.lookup_insert, if_neg hc] at entry
        exact .registered (Map.lookup_retain.mp entry).1
      | retried message => exact .retried (head ▸ List.mem_cons_of_mem _ message)
      | retrying j g hj htask hchannel hregistration =>
        exact .retrying j g hj htask hchannel hregistration
  | reopened c' r' rest head => exact .old (head ▸ h.of_reopen) rfl
  | _ => exact .old h rfl

theorem registered_of_registers {s t : Service} (hs : Step s a t)
    (h : s.registers a = some (c, r)) :
    t.registeredChannels.lookup c = some r ∧ t.newest.lookup c = some r := by
  cases hs with
  | registered c' r' rest head =>
    obtain ⟨rfl, rfl⟩ : c' = c ∧ r' = r := by simpa [registers, head] using h
    exact ⟨Map.lookup_insert_self _ c' r', Map.lookup_insert_self _ c' r'⟩
  | reopened c' r' rest head => simp [registers, head] at h
  | stop empty => simp [registers, empty] at h
  | _ => contradiction

theorem newest_of_registers {s t : Service} (hs : Step s a t)
    (h : ∀ c' r, s.registers a = some (c', r) → c ≠ c') :
    t.newest.lookup c = s.newest.lookup c := by
  cases hs with
  | registered c' r rest head =>
    have hc := h c' r (by simp [registers, head])
    exact (Map.lookup_insert _ c' c r).trans (if_neg hc)
  | _ => rfl

/-- A channel is registered anew when no data connection of it is left that would reopen it,
neither one that has ended nor one that is going to end. -/
def Sequential (s : Service) (a : Action) : Prop :=
  (∀ p ∈ s.registers a, ∀ p' ∈ s.reopening, p'.1 ≠ p.1) ∧
    ∀ g ∈ s.reopens a, s.newest.lookup g.channel = some g.registration

instance (s : Service) (a : Action) : Decidable (s.Sequential a) :=
  inferInstanceAs (Decidable (_ ∧ _))

theorem waits_newest {s : Service} {C : Service → Action → Prop} (h : machine.Reaches C s)
    (hC : ∀ s a, C s a → s.Sequential a)
    (hw : Waits s.registeredChannels s.control s.grants c r) : s.newest.lookup c = some r := by
  induction h generalizing c r with
  | init =>
    cases hw with
    | registered | retried | retrying => contradiction
  | step _ hc hs ih =>
    have hC := hC _ _ hc
    cases hw.of_step (step_sound hs) with
    | old hw newest => exact newest.trans (ih hw)
    | registered _ newest => exact newest
    | overtaken r' message entry => exact absurd rfl (hC.1 (c, r') message (c, r) entry)
    | reopened g grant channel registration newest =>
      rw [newest, ← channel, ← registration]
      exact hC.2 g grant

theorem channelRequest_binds {s t : Service} (hs : s.step (.channelRequest i c) = some t)
    (hx : t.sockets[i]? = some x) (phase : x.phase = .answering (some j))
    (hg : t.grants[j]? = some g) : s.registeredChannels.lookup c = some g.registration := by
  cases step_sound hs with
  | deny socket =>
    rw [Table.set_self socket, Option.some.injEq] at hx
    subst hx
    simp at phase
  | grant k c r socket entry =>
    rw [Table.set_self socket, Option.some.injEq] at hx
    subst hx
    obtain rfl : s.grants.length = j := by simpa using phase
    rw [List.getElem?_concat_length, Option.some.injEq] at hg
    exact hg ▸ entry

theorem registered_newest {s : Service} (h : machine.Reaches Sequential s) :
    (∀ c r, s.registeredChannels.lookup c = some r → s.newest.lookup c = some r) ∧
    (∀ c r, .retryChannel c r ∈ s.control → s.newest.lookup c = some r) ∧
    ∀ i c t x j g, s.step (.channelRequest i c) = some t → t.sockets[i]? = some x →
      x.phase = .answering (some j) → t.grants[j]? = some g →
      s.newest.lookup c = some g.registration := by
  refine ⟨fun c r hl => ?_, fun c r hm => ?_, fun i c t x j g hs hx phase hg => ?_⟩
  · exact waits_newest h (fun _ _ h => h) (.registered hl)
  · exact waits_newest h (fun _ _ h => h) (.retried hm)
  · exact waits_newest h (fun _ _ h => h) (.registered (channelRequest_binds hs hx phase hg))

theorem registered_newest_run : ∃ s, machine.Reaches Sequential s ∧
    s.registeredChannels.lookup "c" = some 0 ∧ s.newest.lookup "c" = some 0 := by
  obtain ⟨s, hr, hl⟩ := Machine.exists_reaches_of_replay (M := machine) (C := Sequential)
    (P := fun s => s.registeredChannels.lookup "c" = some 0)
    [.registerChannel "c", .serve true, .connectControl "k", .channelRequest 0 "c",
      .openChannel 0, .answer 0 true, .connectChannel 0, .acceptStream 0, .identify true,
      .createChannel 0 true, .dispatch, .finish 0 .network, .retry 0, .serve true]
    (by decide)
  exact ⟨s, hr, hl, (registered_newest hr).1 "c" 0 hl⟩

/-- The channel is registered anew while its first data connection is still handled: the end
of that connection puts the first registration back in place of the second. -/
theorem registered_stale : ∃ s, machine.Reachable s ∧
    s.registeredChannels.lookup "c" = some 0 ∧ s.newest.lookup "c" = some 1 :=
  Machine.exists_reaches_of_replay (M := machine) (C := fun _ _ => True)
    (P := fun s => s.registeredChannels.lookup "c" = some 0 ∧ s.newest.lookup "c" = some 1)
    [.registerChannel "c", .serve true, .connectControl "k", .channelRequest 0 "c",
      .openChannel 0, .answer 0 true, .connectChannel 0, .acceptStream 0, .identify true,
      .createChannel 0 true, .dispatch, .registerChannel "c", .serve true, .finish 0 .network,
      .retry 0, .serve true]
    (by decide)

end Service

end BdsPro.Network.Receiver
