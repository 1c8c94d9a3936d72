import BdsPro.Library.Table
import BdsPro.Network.Sender.ConnectionHandler

namespace BdsPro.Network.Sender

open BdsPro.Library

namespace ConnectionHandler

inductive Step (s : ConnectionHandler) : Action → ConnectionHandler → Prop
  | cancel : Step s .cancel { s with cancelled := true }
  | register (c : ChannelIdentifier) (room : s.control.length < controlLen) :
    Step s (.register c) { s with
      control := s.control ++ [.registerChannel c s.registrations]
      registrations := s.registrations + 1 }
  | serve (m : NetworkingConnectionControlMessage) (control : s.control = m :: rest)
      (fresh : p = .responding ∨ p = .sending) :
    Step s .serve { s with
      control := rest
      attempts := s.attempts ++ [⟨c, m.registration, p⟩] }
  | respond (attempt : s.attempts[i]? = some a) (phase : a.phase = .responding) :
    Step s (.respond i true) { s with
      attempts := s.attempts.set i { a with phase := .sending } }
  | abandon (attempt : s.attempts[i]? = some a) (phase : a.phase = .responding) :
    Step s (.respond i false) { s with
      attempts := s.attempts.set i { a with phase := .ended }
      abandoned := s.abandoned ++ [a.registration] }
  | sendFailed (attempt : s.attempts[i]? = some a) (phase : a.phase = .sending)
      (ended : s.establisher = .ended) :
    Step s (.send i) { s with
      attempts := s.attempts.set i { a with phase := .ended }
      dropped := s.dropped ++ [a.registration] }
  | send (attempt : s.attempts[i]? = some a) (phase : a.phase = .sending)
      (live : s.establisher ≠ .ended) (room : s.channels.length < channelsLen) :
    Step s (.send i) { s with
      attempts := s.attempts.set i { a with phase := .waiting }
      channels := s.channels ++ [i] }
  | awaitFailed (attempt : s.attempts[i]? = some a) (phase : a.phase = .waiting)
      (ended : s.establisher = .ended) :
    Step s (.await i) { s with
      attempts := s.attempts.set i { a with phase := .ended }
      dropped := s.dropped ++ [a.registration] }
  | await (attempt : s.attempts[i]? = some a) (phase : a.phase = .granted) :
    Step s (.await i) { s with attempts := s.attempts.set i { a with phase := .ended } }
  | wake (attempt : s.attempts[i]? = some a) (phase : a.phase = .sleeping) :
    Step s (.wake i) { s with attempts := s.attempts.set i { a with phase := .sending } }
  | connected (connector : s.connector = .connecting) :
    Step s (.createConnection true) { s with connector := .offering }
  | notConnected (connector : s.connector = .connecting) :
    Step s (.createConnection false) { s with connector := .connecting }
  | connectCancelled (connector : s.connector = .connecting) (cancelled : s.cancelled = true) :
    Step s .connectCancelled { s with connector := .ended }
  | offerFailed (connector : s.connector = .offering) (ended : s.establisher = .ended) :
    Step s .offer { s with connector := .ended }
  | offer (connector : s.connector = .offering) (live : s.establisher ≠ .ended)
      (room : s.offered = false) :
    Step s .offer { s with connector := .waiting, offered := true }
  | reconnectDropped (connector : s.connector = .waiting) (ended : s.establisher = .ended) :
    Step s .reconnectDropped { s with connector := .ended }
  | takeConnection (establisher : s.establisher = .connecting) (offered : s.offered = true) :
    Step s .takeConnection { s with
      establisher := .idle
      offered := false
      requests := []
      answers := []
      answersRead := 0 }
  | noConnection (establisher : s.establisher = .connecting) (connector : s.connector = .ended) :
    Step s .takeConnection { s with establisher := .ended }
  | takeChannel (i : Nat) (rest : List Nat) (establisher : s.establisher = .idle)
      (channels : s.channels = i :: rest) :
    Step s .takeChannel { s with establisher := .requesting i, channels := rest }
  | request (establisher : s.establisher = .requesting i) (attempt : s.attempts[i]? = some a) :
    Step s (.sendRequest true) { s with
      establisher := .reading i
      requests := s.requests ++ [a.channel] }
  | badConnection (event : e = .sendRequest false ∨ e = .lose)
      (hand : s.establisher = .requesting i ∨ s.establisher = .reading i)
      (attempt : s.attempts[i]? = some a) :
    Step s e { s with
      attempts := s.attempts.set i { a with phase := .sleeping }
      connector := .connecting
      establisher := .connecting }
  | grant (request : s.requests[s.answers.length]? = some c) :
    Step s (.answer .okChannelResponse) { s with
      answers := s.answers ++ [.okChannelResponse]
      granted := s.granted ++ [c] }
  | deny (request : s.requests[s.answers.length]? = some c) :
    Step s (.answer .denyChannelResponse) { s with
      answers := s.answers ++ [.denyChannelResponse] }
  | established (establisher : s.establisher = .reading i)
      (answer : s.answers[s.answersRead]? = some .okChannelResponse)
      (attempt : s.attempts[i]? = some a) :
    Step s .readAnswer { s with
      attempts := s.attempts.set i { a with phase := .granted }
      tasks := s.tasks ++ [⟨a.channel, a.registration, .running⟩]
      establisher := .idle
      answersRead := s.answersRead + 1 }
  | rejected (establisher : s.establisher = .reading i)
      (answer : s.answers[s.answersRead]? = some .denyChannelResponse)
      (attempt : s.attempts[i]? = some a) :
    Step s .readAnswer { s with
      attempts := s.attempts.set i { a with phase := .sleeping }
      establisher := .idle
      answersRead := s.answersRead + 1 }
  | establishCancelled (cancelled : s.cancelled = true) :
    Step s .establishCancelled { s with establisher := .ended }
  | lost (task : s.tasks[i]? = some h) (phase : h.phase = .running) :
    Step s (.finish i (.connectionLost e)) { s with
      tasks := s.tasks.set i { h with phase := .retrying } }
  | finished (task : s.tasks[i]? = some h) (phase : h.phase = .running) :
    Step s (.finish i result) { s with
      tasks := s.tasks.set i { h with phase := .ended }
      closed := s.closed ++ [h.registration] }
  | retry (task : s.tasks[i]? = some h) (phase : h.phase = .retrying)
      (room : s.control.length < controlLen) :
    Step s (.retry i) { s with
      control := s.control ++ [.retryChannel h.channel h.registration]
      tasks := s.tasks.set i { h with phase := .ended } }

def attemptFor : NetworkingConnectionControlMessage → Attempt
  | .registerChannel c r => ⟨c, r, .responding⟩
  | .retryChannel c r => ⟨c, r, .sending⟩

theorem serve_eq_some {s t : ConnectionHandler} (hs : s.serve = some t) :
    ∃ m rest, s.control = m :: rest ∧
      t = { s with control := rest, attempts := s.attempts ++ [attemptFor m] } := by
  unfold ConnectionHandler.serve at hs
  split at hs
  next control => exact ⟨_, _, control, (Option.some.inj hs).symm⟩
  next control => exact ⟨_, _, control, (Option.some.inj hs).symm⟩
  next => contradiction

theorem Step.served {s t : ConnectionHandler} (hs : s.serve = some t) : Step s .serve t := by
  obtain ⟨m, rest, control, rfl⟩ := serve_eq_some hs
  cases m with
  | registerChannel => exact .serve _ control (.inl rfl)
  | retryChannel => exact .serve _ control (.inr rfl)

theorem Step.responded {s t : ConnectionHandler} (hs : s.respond i ok = some t) :
    Step s (.respond i ok) t := by
  obtain ⟨a, attempt, hs⟩ := Option.bind_eq_some_iff.mp hs
  obtain ⟨phase, hs⟩ := Option.ite_none_right_eq_some.mp hs
  cases ok with
  | true => exact Option.some.inj hs ▸ .respond attempt phase
  | false => exact Option.some.inj hs ▸ .abandon attempt phase

theorem Step.sent {s t : ConnectionHandler} (hs : s.send i = some t) : Step s (.send i) t := by
  obtain ⟨a, attempt, hs⟩ := Option.bind_eq_some_iff.mp hs
  obtain ⟨phase, hs⟩ := Option.ite_none_right_eq_some.mp hs
  split at hs
  next ended => exact Option.some.inj hs ▸ .sendFailed attempt phase ended
  next live =>
    obtain ⟨room, hs⟩ := Option.ite_none_right_eq_some.mp hs
    exact Option.some.inj hs ▸ .send attempt phase live room

theorem Step.awaited {s t : ConnectionHandler} (hs : s.await i = some t) :
    Step s (.await i) t := by
  obtain ⟨a, attempt, hs⟩ := Option.bind_eq_some_iff.mp hs
  split at hs
  next phase => exact Option.some.inj hs ▸ .await attempt phase
  next phase =>
    obtain ⟨ended, hs⟩ := Option.ite_none_right_eq_some.mp hs
    exact Option.some.inj hs ▸ .awaitFailed attempt phase ended
  next => contradiction

theorem Step.offered {s t : ConnectionHandler} (hs : s.offer = some t) : Step s .offer t := by
  obtain ⟨connector, hs⟩ := Option.ite_none_right_eq_some.mp hs
  split at hs
  next ended => exact Option.some.inj hs ▸ .offerFailed connector ended
  next live =>
    obtain ⟨room, hs⟩ := Option.ite_none_left_eq_some.mp hs
    exact Option.some.inj hs ▸ .offer connector live (Bool.eq_false_iff.mpr room)

theorem Step.tookConnection {s t : ConnectionHandler} (hs : s.takeConnection = some t) :
    Step s .takeConnection t := by
  obtain ⟨establisher, hs⟩ := Option.ite_none_right_eq_some.mp hs
  split at hs
  next offered => exact Option.some.inj hs ▸ .takeConnection establisher offered
  next =>
    obtain ⟨connector, hs⟩ := Option.ite_none_right_eq_some.mp hs
    exact Option.some.inj hs ▸ .noConnection establisher connector

theorem Step.tookChannel {s t : ConnectionHandler} (hs : s.takeChannel = some t) :
    Step s .takeChannel t := by
  unfold ConnectionHandler.takeChannel at hs
  split at hs
  next i rest establisher channels =>
    exact Option.some.inj hs ▸ .takeChannel i rest establisher channels
  next => contradiction

theorem Step.bad {s t : ConnectionHandler} (event : e = .sendRequest false ∨ e = .lose)
    (hand : s.establisher = .requesting i ∨ s.establisher = .reading i)
    (hs : s.badConnection i = some t) : Step s e t := by
  obtain ⟨a, attempt, rfl⟩ := Option.map_eq_some_iff.mp hs
  exact .badConnection event hand attempt

theorem Step.requested {s t : ConnectionHandler} (hs : s.sendRequest ok = some t) :
    Step s (.sendRequest ok) t := by
  unfold sendRequest at hs
  split at hs
  next i establisher =>
    split at hs
    next hok =>
      obtain ⟨a, attempt, rfl⟩ := Option.map_eq_some_iff.mp hs
      exact hok ▸ .request establisher attempt
    next hok =>
      obtain rfl := Bool.eq_false_iff.mpr hok
      exact .bad (.inl rfl) (.inl establisher) hs
  next => contradiction

theorem Step.answered {s t : ConnectionHandler} (hs : s.answer r = some t) :
    Step s (.answer r) t := by
  obtain ⟨c, request, rfl⟩ := Option.map_eq_some_iff.mp hs
  cases r with
  | okChannelResponse => exact .grant request
  | denyChannelResponse => exact .deny request

theorem Step.read {s t : ConnectionHandler} (hs : s.readAnswer = some t) :
    Step s .readAnswer t := by
  unfold readAnswer at hs
  split at hs
  next i establisher =>
    split at hs
    next answer attempt => exact Option.some.inj hs ▸ .established establisher answer attempt
    next answer attempt => exact Option.some.inj hs ▸ .rejected establisher answer attempt
    next => contradiction
  next => contradiction

theorem Step.over {s t : ConnectionHandler} (hs : s.finish i result = some t) :
    Step s (.finish i result) t := by
  obtain ⟨h, task, hs⟩ := Option.bind_eq_some_iff.mp hs
  obtain ⟨phase, hs⟩ := Option.ite_none_right_eq_some.mp hs
  cases result with
  | connectionLost e => exact Option.some.inj hs ▸ .lost task phase
  | cancelled | closed => exact Option.some.inj hs ▸ .finished task phase

theorem step_sound {s t : ConnectionHandler} (hs : s.step a = some t) : Step s a t := by
  cases a with
  | cancel => exact Option.some.inj hs ▸ .cancel
  | register c =>
    obtain ⟨room, hs⟩ := Option.ite_none_right_eq_some.mp hs
    exact Option.some.inj hs ▸ .register c room
  | serve => exact .served hs
  | respond i ok => exact .responded hs
  | send i => exact .sent hs
  | await i => exact .awaited hs
  | wake i =>
    obtain ⟨a, attempt, hs⟩ := Option.bind_eq_some_iff.mp hs
    obtain ⟨phase, hs⟩ := Option.ite_none_right_eq_some.mp hs
    exact Option.some.inj hs ▸ .wake attempt phase
  | createConnection ok =>
    simp only [step, createConnection] at hs
    split at hs
    next connector =>
      cases ok with
      | true => exact Option.some.inj hs ▸ .connected connector
      | false => exact Option.some.inj hs ▸ .notConnected connector
    next => contradiction
  | connectCancelled =>
    obtain ⟨⟨connector, cancelled⟩, hs⟩ := Option.ite_none_right_eq_some.mp hs
    exact Option.some.inj hs ▸ .connectCancelled connector cancelled
  | offer => exact .offered hs
  | reconnectDropped =>
    obtain ⟨⟨connector, ended⟩, hs⟩ := Option.ite_none_right_eq_some.mp hs
    exact Option.some.inj hs ▸ .reconnectDropped connector ended
  | takeConnection => exact .tookConnection hs
  | takeChannel => exact .tookChannel hs
  | sendRequest ok => exact .requested hs
  | answer r => exact .answered hs
  | readAnswer => exact .read hs
  | lose =>
    simp only [step, lose] at hs
    split at hs
    next establisher => exact .bad (.inr rfl) (.inr establisher) hs
    next => contradiction
  | establishCancelled =>
    simp only [step, establishCancelled] at hs
    split at hs
    next =>
      obtain ⟨cancelled, hs⟩ := Option.ite_none_right_eq_some.mp hs
      exact Option.some.inj hs ▸ .establishCancelled cancelled
    next =>
      obtain ⟨cancelled, hs⟩ := Option.ite_none_right_eq_some.mp hs
      exact Option.some.inj hs ▸ .establishCancelled cancelled
    next => contradiction
  | finish i result => exact .over hs
  | retry i =>
    obtain ⟨h, task, hs⟩ := Option.bind_eq_some_iff.mp hs
    obtain ⟨⟨phase, room⟩, hs⟩ := Option.ite_none_right_eq_some.mp hs
    exact Option.some.inj hs ▸ .retry task phase room

def hand (s : ConnectionHandler) : List Nat :=
  match s.establisher with
  | .requesting i | .reading i => [i]
  | _ => []

structure Queued (s : ConnectionHandler) : Prop where
  nodup : (s.hand ++ s.channels).Nodup
  waiting : ∀ i, i ∈ s.hand ++ s.channels ↔ ∃ a, s.attempts[i]? = some a ∧ a.phase = .waiting

theorem Queued.still {s t : ConnectionHandler} (h : s.Queued) (hand : t.hand = s.hand)
    (channels : t.channels = s.channels) (attempts : t.attempts = s.attempts) : t.Queued where
  nodup := hand ▸ channels ▸ h.nodup
  waiting := hand ▸ channels ▸ attempts ▸ h.waiting

theorem Queued.move {s t : ConnectionHandler} (h : s.Queued) (attempt : s.attempts[i]? = some a)
    (source : a.phase ≠ .waiting) (target : b.phase ≠ .waiting) (hand : t.hand = s.hand)
    (channels : t.channels = s.channels) (attempts : t.attempts = s.attempts.set i b) :
    t.Queued where
  nodup := hand ▸ channels ▸ h.nodup
  waiting j := by
    rw [hand, channels, attempts, h.waiting, Table.exists_set_iff attempt]
    split
    next hij =>
      subst hij
      simp [attempt, source, target]
    next => rfl

theorem Queued.answer {s t : ConnectionHandler} (h : s.Queued)
    (hand : s.establisher = .requesting i ∨ s.establisher = .reading i)
    (attempt : s.attempts[i]? = some a) (target : b.phase ≠ .waiting) (idle : t.hand = [])
    (channels : t.channels = s.channels) (attempts : t.attempts = s.attempts.set i b) :
    t.Queued := by
  have hhand : s.hand = [i] := by
    obtain hand | hand := hand <;> simp only [ConnectionHandler.hand, hand]
  have hnodup := h.nodup
  rw [hhand, List.singleton_append, List.nodup_cons] at hnodup
  refine ⟨idle ▸ channels ▸ hnodup.2, fun j => ?_⟩
  rw [idle, channels, attempts, Table.exists_set_iff attempt]
  split
  next hij =>
    subst hij
    simp [hnodup.1, target]
  next hij =>
    rw [← h.waiting, hhand]
    simp [Ne.symm hij]

theorem Queued.concat {s t : ConnectionHandler} (h : s.Queued) (fresh : b.phase ≠ .waiting)
    (hand : t.hand = s.hand) (channels : t.channels = s.channels)
    (attempts : t.attempts = s.attempts ++ [b]) : t.Queued where
  nodup := hand ▸ channels ▸ h.nodup
  waiting j := by
    rw [hand, channels, attempts, h.waiting]
    exact (Table.exists_concat_iff (P := fun a : Attempt => a.phase = .waiting) fresh).symm

theorem Queued.send {s t : ConnectionHandler} (h : s.Queued) (attempt : s.attempts[i]? = some a)
    (source : a.phase ≠ .waiting) (target : b.phase = .waiting) (hand : t.hand = s.hand)
    (channels : t.channels = s.channels ++ [i]) (attempts : t.attempts = s.attempts.set i b) :
    t.Queued := by
  have hnot : i ∉ s.hand ++ s.channels := by
    rw [h.waiting]
    simp [attempt, source]
  constructor
  · rw [hand, channels, ← List.append_assoc]
    exact List.nodup_append.mpr ⟨h.nodup, List.nodup_singleton i,
      fun j hj k hk heq => hnot (List.mem_singleton.mp hk ▸ heq ▸ hj)⟩
  · intro j
    rw [hand, channels, attempts, ← List.append_assoc, List.mem_append, h.waiting,
      Table.exists_set_iff attempt]
    split
    next hij => simp [hij, target]
    next hij => simp [Ne.symm hij]

theorem hand_of_idle {s : ConnectionHandler}
    (establisher : s.establisher = .idle ∨ s.establisher = .connecting) : s.hand = [] := by
  obtain establisher | establisher := establisher <;> simp only [hand, establisher]

theorem live_of_hand {s : ConnectionHandler}
    (hand : s.establisher = .requesting i ∨ s.establisher = .reading i) :
    s.establisher ≠ .ended := by
  rintro ended
  simp [ended] at hand

theorem queued_step {s t : ConnectionHandler} (h : s.establisher ≠ .ended → s.Queued)
    (hs : Step s a t) (live : t.establisher ≠ .ended) : t.Queued := by
  cases hs with
  | cancel | register | connected | notConnected | connectCancelled | offerFailed | offer
  | reconnectDropped | grant | deny | lost | finished | retry => exact (h live).still rfl rfl rfl
  | serve m control fresh =>
    refine (h live).concat ?_ rfl rfl rfl
    obtain rfl | rfl := fresh <;> simp
  | respond attempt phase | abandon attempt phase | await attempt phase | wake attempt phase =>
    exact (h live).move attempt (by simp [phase]) (by simp) rfl rfl rfl
  | sendFailed attempt phase ended | awaitFailed attempt phase ended => exact absurd ended live
  | send attempt phase => exact (h live).send attempt (by simp [phase]) rfl rfl rfl rfl
  | takeConnection establisher =>
    have hnone := hand_of_idle (.inr establisher)
    exact (h (by simp [establisher])).still hnone.symm rfl rfl
  | noConnection | establishCancelled => contradiction
  | takeChannel i rest establisher channels =>
    have hs := h (by simp [establisher])
    have hall : s.hand ++ s.channels = [i] ++ rest := by
      rw [hand_of_idle (.inl establisher), channels]
      rfl
    exact ⟨hall ▸ hs.nodup, hall ▸ hs.waiting⟩
  | request establisher =>
    refine (h (by simp [establisher])).still ?_ rfl rfl
    simp only [hand, establisher]
  | badConnection _ hand attempt =>
    exact (h (live_of_hand hand)).answer hand attempt (by simp) rfl rfl rfl
  | established establisher _ attempt | rejected establisher _ attempt =>
    exact (h (by simp [establisher])).answer (.inr establisher) attempt (by simp) rfl rfl rfl

theorem queued_of_reachable {s : ConnectionHandler} (h : machine.Reachable s)
    (live : s.establisher ≠ .ended) : s.Queued := by
  refine h.invariant (I := fun s => s.establisher ≠ .ended → s.Queued) (fun _ => ?_)
    (fun s a t _ ih _ hs => queued_step ih (step_sound hs)) live
  exact ⟨List.nodup_nil, fun i => by simp [hand, machine, new]⟩

theorem Queued.in_hand {s : ConnectionHandler} (h : s.Queued)
    (hand : s.establisher = .requesting i ∨ s.establisher = .reading i)
    (attempt : s.attempts[i]? = some a) : a.phase = .waiting := by
  have hmem : i ∈ s.hand ++ s.channels := by
    obtain hand | hand := hand <;> simp [ConnectionHandler.hand, hand]
  obtain ⟨b, hb, hphase⟩ := (h.waiting i).mp hmem
  exact Option.some.inj (attempt.symm.trans hb) ▸ hphase

theorem waiting_of_hand {s : ConnectionHandler} (h : s.establisher ≠ .ended → s.Queued)
    (hand : s.establisher = .requesting i ∨ s.establisher = .reading i)
    (attempt : s.attempts[i]? = some a) : a.phase = .waiting :=
  (h (live_of_hand hand)).in_hand hand attempt

end ConnectionHandler

def AttemptPhase.pending : AttemptPhase → Bool
  | .granted | .ended => false
  | .responding | .sending | .waiting | .sleeping => true

def Attempt.owner (a : Attempt) : Option Registration :=
  if a.phase.pending then some a.registration else none

def ChannelTask.owner (h : ChannelTask) : Option Registration :=
  if h.phase = .ended then none else some h.registration

namespace ConnectionHandler

/-- The registrations that are somebody's to go on with. -/
def owners (s : ConnectionHandler) : Multiset Registration :=
  s.control.map (·.registration) + s.attempts.filterMap Attempt.owner +
    s.tasks.filterMap ChannelTask.owner

/-- The registrations that nobody goes on with. -/
def released (s : ConnectionHandler) : Multiset Registration :=
  s.abandoned + s.closed + s.dropped

def Conserved (s : ConnectionHandler) : Prop :=
  s.owners + s.released = Multiset.range s.registrations

theorem attempts_keep {l : List Attempt} (attempt : l[i]? = some a)
    (pending : a.phase.pending = p.pending) :
    ((l.set i { a with phase := p }).filterMap Attempt.owner : Multiset Registration) =
      l.filterMap Attempt.owner :=
  Table.filterMap_set_eq attempt (by simp [Attempt.owner, pending])

theorem attempts_end {l : List Attempt} (attempt : l[i]? = some a)
    (source : a.phase.pending = true) (target : p.pending = false) :
    (l.filterMap Attempt.owner : Multiset Registration) =
      (l.set i { a with phase := p }).filterMap Attempt.owner + {a.registration} :=
  Table.filterMap_set_none attempt (by simp [Attempt.owner, source])
    (by simp [Attempt.owner, target])

theorem tasks_keep {l : List ChannelTask} (task : l[i]? = some h) (source : h.phase ≠ .ended)
    (target : p ≠ .ended) :
    ((l.set i { h with phase := p }).filterMap ChannelTask.owner : Multiset Registration) =
      l.filterMap ChannelTask.owner :=
  Table.filterMap_set_eq task (by simp [ChannelTask.owner, source, target])

theorem tasks_end {l : List ChannelTask} (task : l[i]? = some h) (source : h.phase ≠ .ended) :
    (l.filterMap ChannelTask.owner : Multiset Registration) =
      (l.set i { h with phase := .ended }).filterMap ChannelTask.owner + {h.registration} :=
  Table.filterMap_set_none task (by simp [ChannelTask.owner, source]) (by simp [ChannelTask.owner])

theorem Conserved.keep {s t : ConnectionHandler} (h : s.Conserved) (owners : t.owners = s.owners)
    (released : t.released = s.released) (registrations : t.registrations = s.registrations) :
    t.Conserved := by
  rw [Conserved, owners, released, registrations]
  exact h

theorem Conserved.release {s t : ConnectionHandler} (h : s.Conserved)
    (owners : s.owners = t.owners + {r}) (released : t.released = s.released + {r})
    (registrations : t.registrations = s.registrations) : t.Conserved := by
  rw [Conserved, released, registrations, ← h, owners]
  abel

theorem Conserved.attempt {s t : ConnectionHandler} (h : s.Conserved)
    (attempt : s.attempts[i]? = some a) (pending : a.phase.pending = p.pending)
    (attempts : t.attempts = s.attempts.set i { a with phase := p })
    (control : t.control = s.control) (tasks : t.tasks = s.tasks)
    (released : t.released = s.released) (registrations : t.registrations = s.registrations) :
    t.Conserved := by
  refine h.keep ?_ released registrations
  simp only [owners, attempts, control, tasks, attempts_keep attempt pending]

theorem Conserved.attemptOver {s t : ConnectionHandler} (h : s.Conserved)
    (attempt : s.attempts[i]? = some a) (source : a.phase.pending = true)
    (attempts : t.attempts = s.attempts.set i { a with phase := .ended })
    (control : t.control = s.control) (tasks : t.tasks = s.tasks)
    (released : t.released = s.released + {a.registration})
    (registrations : t.registrations = s.registrations) : t.Conserved := by
  refine h.release ?_ released registrations
  simp only [owners, attempts, control, tasks, attempts_end (p := .ended) attempt source rfl]
  abel

theorem released_concat {s t : ConnectionHandler} {r : Registration}
    (lists : t.abandoned = s.abandoned ++ [r] ∧ t.closed = s.closed ∧ t.dropped = s.dropped ∨
      t.abandoned = s.abandoned ∧ t.closed = s.closed ++ [r] ∧ t.dropped = s.dropped ∨
      t.abandoned = s.abandoned ∧ t.closed = s.closed ∧ t.dropped = s.dropped ++ [r]) :
    t.released = s.released + {r} := by
  unfold released
  rcases lists with ⟨ha, hc, hd⟩ | ⟨ha, hc, hd⟩ | ⟨ha, hc, hd⟩ <;>
    rw [ha, hc, hd, ← Multiset.coe_add, Multiset.coe_singleton] <;> abel

theorem Conserved.step {s t : ConnectionHandler} (h : s.Conserved)
    (queued : s.establisher ≠ .ended → s.Queued) (hs : Step s a t) : t.Conserved := by
  cases hs with
  | cancel | connected | notConnected | connectCancelled | offerFailed | offer | reconnectDropped
  | takeConnection | noConnection | takeChannel | request | grant | deny | establishCancelled =>
    exact h.keep rfl rfl rfl
  | register c =>
    rw [Conserved, Multiset.range_succ, ← h, ← Multiset.singleton_add]
    simp only [owners, released, List.map_append, List.map_cons, List.map_nil, ← Multiset.coe_add,
      Multiset.coe_singleton, NetworkingConnectionControlMessage.registration]
    abel
  | @serve rest p c m control fresh =>
    have hattempts : (s.attempts ++ [Attempt.mk c m.registration p]).filterMap Attempt.owner =
        s.attempts.filterMap Attempt.owner ++ [m.registration] := by
      rw [Table.filterMap_concat]
      obtain rfl | rfl := fresh <;> rfl
    refine h.keep ?_ rfl rfl
    simp only [owners, hattempts, control, List.map_cons, ← Multiset.coe_add,
      ← Multiset.cons_coe, ← Multiset.singleton_add]
    abel
  | respond attempt phase | send attempt phase | await attempt phase | wake attempt phase =>
    exact h.attempt attempt (by rw [phase]; rfl) rfl rfl rfl rfl rfl
  | abandon attempt phase =>
    exact h.attemptOver attempt (by rw [phase]; rfl) rfl rfl rfl
      (released_concat (.inl ⟨rfl, rfl, rfl⟩)) rfl
  | sendFailed attempt phase | awaitFailed attempt phase =>
    exact h.attemptOver attempt (by rw [phase]; rfl) rfl rfl rfl
      (released_concat (.inr (.inr ⟨rfl, rfl, rfl⟩))) rfl
  | badConnection _ hand attempt =>
    have phase := waiting_of_hand queued hand attempt
    exact h.attempt attempt (by rw [phase]; rfl) rfl rfl rfl rfl rfl
  | @established i a establisher _ attempt =>
    have phase := waiting_of_hand queued (.inr establisher) attempt
    refine h.keep ?_ rfl rfl
    have hattempts := attempts_end (p := .granted) attempt (by rw [phase]; rfl) rfl
    have htasks : (s.tasks ++ [ChannelTask.mk a.channel a.registration .running]).filterMap
        ChannelTask.owner = s.tasks.filterMap ChannelTask.owner ++ [a.registration] :=
      Table.filterMap_concat _ _ _
    simp only [owners, htasks, hattempts, ← Multiset.coe_add, Multiset.coe_singleton]
    abel
  | rejected establisher _ attempt =>
    have phase := waiting_of_hand queued (.inr establisher) attempt
    exact h.attempt attempt (by rw [phase]; rfl) rfl rfl rfl rfl rfl
  | lost task phase =>
    have htasks := tasks_keep task (p := .retrying) (by simp [phase]) (by simp)
    refine h.keep ?_ rfl rfl
    simp only [owners, htasks]
  | finished task phase =>
    refine h.release ?_ (released_concat (.inr (.inl ⟨rfl, rfl, rfl⟩))) rfl
    simp only [owners, tasks_end task (by simp [phase]), add_assoc]
  | retry task phase =>
    have htasks := tasks_end task (by simp [phase])
    refine h.keep ?_ rfl rfl
    simp only [owners, htasks, List.map_append, List.map_cons, List.map_nil, ← Multiset.coe_add,
      Multiset.coe_singleton, NetworkingConnectionControlMessage.registration]
    abel

theorem conserved_of_reachable {s : ConnectionHandler} (h : machine.Reachable s) :
    s.Conserved := by
  refine h.invariant (I := Conserved) rfl fun s a t hr ih _ hs => ?_
  exact ih.step (queued_of_reachable hr) (step_sound hs)

structure Alive (s : ConnectionHandler) : Prop where
  establisher : s.establisher = .ended → s.cancelled = true
  connector : s.connector = .ended → s.cancelled = true
  dropped : s.dropped ≠ [] → s.cancelled = true

theorem Alive.step {s t : ConnectionHandler} (h : s.Alive) (hs : Step s a t) : t.Alive := by
  cases hs with
  | cancel => exact ⟨fun _ => rfl, fun _ => rfl, fun _ => rfl⟩
  | sendFailed _ _ ended | awaitFailed _ _ ended =>
    exact ⟨h.establisher, h.connector, fun _ => h.establisher ended⟩
  | connected | notConnected | offer => exact ⟨h.establisher, nofun, h.dropped⟩
  | connectCancelled _ cancelled => exact ⟨h.establisher, fun _ => cancelled, h.dropped⟩
  | offerFailed _ ended | reconnectDropped _ ended =>
    exact ⟨h.establisher, fun _ => h.establisher ended, h.dropped⟩
  | noConnection _ connector => exact ⟨fun _ => h.connector connector, h.connector, h.dropped⟩
  | establishCancelled cancelled => exact ⟨fun _ => cancelled, h.connector, h.dropped⟩
  | badConnection => exact ⟨nofun, nofun, h.dropped⟩
  | takeConnection | takeChannel | request | established | rejected =>
    exact ⟨nofun, h.connector, h.dropped⟩
  | _ => exact ⟨h.establisher, h.connector, h.dropped⟩

theorem alive_of_reachable {s : ConnectionHandler} (h : machine.Reachable s) : s.Alive :=
  h.invariant (I := Alive) ⟨nofun, nofun, absurd rfl⟩ fun _ _ _ _ ih _ hs => ih.step (step_sound hs)

/-- Unless it is released, a registration is in one place: a message of the control queue, an
attempt, or a task of a channel.  So no two tasks read one control queue, and as long as the
connection is not cancelled, only a caller that has gone or a channel that was closed ends it. -/
theorem registration_kept {s : ConnectionHandler} (h : machine.Reachable s) :
    s.owners + s.released = Multiset.range s.registrations ∧
      (s.tasks.filterMap ChannelTask.owner).Nodup ∧ (s.cancelled = false → s.dropped = []) := by
  have hconserved := conserved_of_reachable h
  refine ⟨hconserved, ?_, fun hlive => ?_⟩
  · have hnodup : (s.owners + s.released).Nodup := hconserved ▸ Multiset.nodup_range _
    refine Multiset.coe_nodup.mp (Multiset.nodup_of_le ?_ hnodup)
    exact (Multiset.le_add_left _ _).trans (Multiset.le_add_right _ _)
  · by_contra hdropped
    exact Bool.noConfusion (hlive.symm.trans ((alive_of_reachable h).dropped hdropped))

theorem registration_kept_reopened :
    ∃ s, machine.Reachable s ∧ s.tasks.length = 2 ∧
      s.owners + s.released = Multiset.range s.registrations := by
  obtain ⟨s, hs, htasks⟩ := Machine.exists_reaches_of_replay
    (M := machine) (C := fun _ _ => True) (P := fun s => s.tasks.length = 2)
    [.register "c", .serve, .respond 0 true, .send 0, .createConnection true, .offer,
      .takeConnection, .takeChannel, .sendRequest true, .answer .okChannelResponse, .readAnswer,
      .finish 0 (.connectionLost "reset"), .retry 0, .serve, .send 1, .takeChannel,
      .sendRequest true, .lose, .createConnection false, .createConnection true, .offer,
      .takeConnection, .wake 1, .send 1, .takeChannel, .sendRequest true,
      .answer .okChannelResponse, .readAnswer] (by decide)
  exact ⟨s, hs, htasks, (registration_kept hs).1⟩

end ConnectionHandler

end BdsPro.Network.Sender
