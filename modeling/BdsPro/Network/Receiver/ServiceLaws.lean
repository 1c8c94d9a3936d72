import BdsPro.Library.Table
import BdsPro.Network.Receiver.Service

namespace BdsPro.Network.Receiver

open BdsPro.Library

def ServiceControl.registration : ServiceControl → Registration
  | .registerChannel _ r | .retryChannel _ r => r

def AcceptLoop.stream : AcceptLoop → Option (Nat × Stream)
  | .accepting => none
  | .identifying i => some (i, .accepted)
  | .dispatching i => some (i, .identified)

def Stream.Held (p : Stream) : Prop := p = .accepted ∨ p = .identified

theorem AcceptLoop.held {loop : AcceptLoop} (h : loop.stream = some (i, p)) : p.Held := by
  cases loop with
  | accepting => contradiction
  | identifying =>
    cases h
    exact .inl rfl
  | dispatching =>
    cases h
    exact .inr rfl

structure Grant.Staged (g : Grant) : Prop where
  absent : g.attempt = .promised ∨ g.attempt = .answered → g.stream = .absent
  told : g.attempt = .established →
    g.stream = .identified ∨ (∃ t, g.stream = .delivered t) ∨ g.stream = .dropped

theorem Grant.Staged.move {g : Grant} (h : g.Staged) (stream : g.stream ≠ .absent)
    (told : g.attempt = .established →
      p = .identified ∨ (∃ t, p = .delivered t) ∨ p = .dropped) :
    Grant.Staged { g with stream := p } where
  absent hattempt := absurd (h.absent hattempt) stream
  told := told

namespace Service

inductive Step (s : Service) : Action → Service → Prop
  | registerChannel (c : ChannelIdentifier) : Step s (.registerChannel c) { s with
      control := s.control ++ [.registerChannel c s.registrations.length]
      registrations := s.registrations ++ [.new] }
  | closeQueue (r : Registration) : Step s (.closeQueue r) (s.closeQueue r)
  | connectControl (k : ConnectionIdentifier) : Step s (.connectControl k)
      { s with sockets := s.sockets ++ [⟨k, [], .reading⟩] }
  | deny (socket : s.sockets[i]? = some ⟨k, active, .reading⟩)
      (entry : s.registeredChannels.lookup c = none) :
    Step s (.channelRequest i c)
      { s with sockets := s.sockets.set i ⟨k, s.retainActive active, .answering none⟩ }
  | grant (k : ConnectionIdentifier) (c : ChannelIdentifier) (r : Registration)
      (socket : s.sockets[i]? = some ⟨k, active, .reading⟩)
      (entry : s.registeredChannels.lookup c = some r) :
    Step s (.channelRequest i c) { s with
      registeredChannels := s.registeredChannels.erase c
      sockets := s.sockets.set i ⟨k, s.retainActive active, .answering (some s.grants.length)⟩
      grants := s.grants ++ [⟨k, c, r, .spawned, .promised, .absent⟩] }
  | denied (socket : s.sockets[i]? = some ⟨k, active, .answering none⟩) :
    Step s (.answer i ok)
      { s with sockets := s.sockets.set i ⟨k, active, if ok then .reading else .ended⟩ }
  | answered (j : Nat) (g : Grant) (socket : s.sockets[i]? = some ⟨k, active, .answering (some j)⟩)
      (entry : s.grants[j]? = some g) :
    Step s (.answer i true) { s with
      sockets := s.sockets.set i ⟨k, active ++ [g.registration], .reading⟩
      grants := s.grants.set j { g with attempt := .answered } }
  | unanswered (j : Nat) (g : Grant)
      (socket : s.sockets[i]? = some ⟨k, active, .answering (some j)⟩)
      (entry : s.grants[j]? = some g) :
    Step s (.answer i false) { s with
      sockets := s.sockets.set i ⟨k, active, .ended⟩
      grants := s.grants.set j { g with attempt := .failed } }
  | closeControl (socket : s.sockets[i]? = some ⟨k, active, .reading⟩) :
    Step s (.closeControl i) { s with
      sockets := s.sockets.set i ⟨k, active, .ended⟩
      registrations := s.registrations.mapIdx fun r t =>
        if r ∈ active then { t with cancelledByControl := true } else t }
  | openChannel (i : Nat) (g : Grant) (entry : s.grants[i]? = some g) (task : g.task = .spawned) :
    Step s (.openChannel i) { s with
      openedChannels := s.openedChannels.insert g.key i
      grants := (dropSender s.grants (s.openedChannels.lookup g.key)).set i
        { g with task := .parked } }
  | connectChannel (i : Nat) (g : Grant) (entry : s.grants[i]? = some g)
      (attempt : g.attempt = .answered) :
    Step s (.connectChannel i)
      { s with grants := s.grants.set i { g with attempt := .connecting, stream := .backlog } }
  | established (i : Nat) (g : Grant) (entry : s.grants[i]? = some g)
      (attempt : g.attempt = .connecting)
      (stream : g.stream = .identified ∨ (∃ t, g.stream = .delivered t) ∨ g.stream = .dropped) :
    Step s (.createChannel i true)
      { s with grants := s.grants.set i { g with attempt := .established } }
  | failed (i : Nat) (g : Grant) (entry : s.grants[i]? = some g)
      (attempt : g.attempt = .answered ∨ g.attempt = .connecting) :
    Step s (.createChannel i false)
      { s with grants := s.grants.set i { g with attempt := .failed } }
  | acceptStream (i : Nat) (g : Grant) (loop : s.acceptLoop = .accepting)
      (entry : s.grants[i]? = some g) (stream : g.stream = .backlog) :
    Step s (.acceptStream i) { s with
      acceptLoop := .identifying i
      grants := s.grants.set i { g with stream := .accepted } }
  | identified (i : Nat) (g : Grant) (loop : s.acceptLoop = .identifying i)
      (entry : s.grants[i]? = some g) :
    Step s (.identify true) { s with
      acceptLoop := .dispatching i
      grants := s.grants.set i { g with stream := .identified } }
  | refused (i : Nat) (g : Grant) (loop : s.acceptLoop = .identifying i)
      (entry : s.grants[i]? = some g) :
    Step s (.identify false) { s with
      acceptLoop := .accepting
      grants := s.grants.set i { g with stream := .refused } }
  | notRegistered (i : Nat) (g : Grant) (loop : s.acceptLoop = .dispatching i)
      (entry : s.grants[i]? = some g) (opened : s.openedChannels.lookup g.key = none) :
    Step s .dispatch { s with
      acceptLoop := .accepting
      grants := s.grants.set i { g with stream := .dropped } }
  | delivered (i j : Nat) (g h : Grant) (loop : s.acceptLoop = .dispatching i)
      (entry : s.grants[i]? = some g) (opened : s.openedChannels.lookup g.key = some j)
      (receiver : s.grants[j]? = some h) (task : h.task = .parked) :
    Step s .dispatch { s with
      acceptLoop := .accepting
      openedChannels := s.openedChannels.erase g.key
      grants := (s.grants.set i { g with stream := .delivered j }).modify j fun h =>
        { h with task := .handling } }
  | alreadyClosed (i j : Nat) (g : Grant) (loop : s.acceptLoop = .dispatching i)
      (entry : s.grants[i]? = some g) (opened : s.openedChannels.lookup g.key = some j)
      (receiver : s.grants[j]?.any (fun h => h.task = .parked) = false) :
    Step s .dispatch { s with
      acceptLoop := .accepting
      openedChannels := s.openedChannels.erase g.key
      grants := s.grants.set i { g with stream := .dropped } }
  | finishOk (i : Nat) (g : Grant) (entry : s.grants[i]? = some g) (task : g.task = .handling)
      (closed : s.isClosed g.registration) :
    Step s (.finish i .ok) { s with grants := s.grants.set i { g with task := .ended } }
  | finishCancelled (i : Nat) (g : Grant) (entry : s.grants[i]? = some g)
      (task : g.task = .handling) (cancelled : s.isCancelled g.registration) :
    Step s (.finish i .cancelled) { s with grants := s.grants.set i { g with task := .ended } }
  | finishNetwork (i : Nat) (g : Grant) (entry : s.grants[i]? = some g)
      (task : g.task = .handling) :
    Step s (.finish i .network) { s with grants := s.grants.set i { g with task := .retrying } }
  | finishClosed (i : Nat) (g : Grant) (entry : s.grants[i]? = some g)
      (task : g.task = .handling) :
    Step s (.finish i .closedByOtherSide) { s with
      grants := s.grants.set i { g with task := .retrying }
      registrations := s.registrations.modify g.registration fun t =>
        { t with closedByService := true } }
  | abort (i : Nat) (g : Grant) (entry : s.grants[i]? = some g) (task : g.task = .retrying)
      (closed : s.controlClosed = true) :
    Step s (.retry i) { s with grants := s.grants.set i { g with task := .ended } }
  | retry (i : Nat) (g : Grant) (entry : s.grants[i]? = some g) (task : g.task = .retrying) :
    Step s (.retry i) { s with
      control := s.control ++ [.retryChannel g.channel g.registration]
      grants := s.grants.set i { g with task := .ended } }
  | registered (c : ChannelIdentifier) (r : Registration) (rest : List ServiceControl)
      (head : s.control = .registerChannel c r :: rest) :
    Step s (.serve ok) { s with
      control := rest
      registeredChannels :=
        (s.registeredChannels.retain fun _ r => !s.isCancelled r).insert c r
      newest := s.newest.insert c r
      registrations :=
        if ok then s.registrations
        else s.registrations.modify r fun t => { t with cancelledOtherwise := true } }
  | reopened (c : ChannelIdentifier) (r : Registration) (rest : List ServiceControl)
      (head : s.control = .retryChannel c r :: rest) :
    Step s (.serve ok)
      { s with control := rest, registeredChannels := s.registeredChannels.insert c r }
  | stop (empty : s.control = []) : Step s (.serve ok) { s with
      stopped := true
      registrations := s.registrations.mapIdx fun r t =>
        if r ∈ s.registeredChannels.values then { t with cancelledOtherwise := true } else t }
  | shutdown : Step s .shutdown s.shutdown

theorem Step.channelRequest {s t : Service} (hs : s.channelRequest i c = some t) :
    Step s (.channelRequest i c) t := by
  unfold Service.channelRequest at hs
  split at hs
  next hsocket =>
    split at hs
    next hentry => exact Option.some.inj hs ▸ .deny hsocket hentry
    next r hentry => exact Option.some.inj hs ▸ .grant _ c r hsocket hentry
  next => contradiction

theorem Step.answer {s t : Service} (hs : s.answer i ok = some t) : Step s (.answer i ok) t := by
  unfold Service.answer at hs
  split at hs
  next hsocket => exact Option.some.inj hs ▸ .denied hsocket
  next hsocket =>
    obtain ⟨g, hentry, rfl⟩ := Option.map_eq_some_iff.mp hs
    cases ok with
    | true => exact .answered _ g hsocket hentry
    | false => exact .unanswered _ g hsocket hentry
  next => contradiction

theorem Step.createChannel {s t : Service} (hs : s.createChannel i ok = some t) :
    Step s (.createChannel i ok) t := by
  simp only [Service.createChannel, Option.bind_eq_some_iff] at hs
  obtain ⟨g, hentry, hs⟩ := hs
  split at hs
  next hattempt hstream =>
    exact Option.some.inj hs ▸ .established i g hentry hattempt (.inl hstream)
  next hattempt hstream =>
    exact Option.some.inj hs ▸ .established i g hentry hattempt (.inr (.inl ⟨_, hstream⟩))
  next hattempt hstream =>
    exact Option.some.inj hs ▸ .established i g hentry hattempt (.inr (.inr hstream))
  next hattempt => exact Option.some.inj hs ▸ .failed i g hentry (.inl hattempt)
  next hattempt => exact Option.some.inj hs ▸ .failed i g hentry (.inr hattempt)
  next => contradiction

theorem Step.identify {s t : Service} (hs : s.identify ok = some t) :
    Step s (.identify ok) t := by
  unfold Service.identify at hs
  split at hs
  next i hloop =>
    obtain ⟨g, hentry, rfl⟩ := Option.map_eq_some_iff.mp hs
    cases ok with
    | true => exact .identified i g hloop hentry
    | false => exact .refused i g hloop hentry
  next => contradiction

theorem Step.dispatch {s t : Service} (hs : s.dispatch = some t) : Step s .dispatch t := by
  unfold Service.dispatch at hs
  split at hs
  next i hloop =>
    obtain ⟨g, hentry, rfl⟩ := Option.map_eq_some_iff.mp hs
    split
    next hopened => exact .notRegistered i g hloop hentry hopened
    next j hopened =>
      split
      next hany =>
        obtain ⟨h, hreceiver, htask⟩ := (Option.any_eq_true _ _).mp hany
        exact .delivered i j g h hloop hentry hopened hreceiver (of_decide_eq_true htask)
      next hany => exact .alreadyClosed i j g hloop hentry hopened (Bool.eq_false_iff.mpr hany)
  next => contradiction

theorem Step.finish {s t : Service} (hs : s.finish i result = some t) :
    Step s (.finish i result) t := by
  obtain ⟨g, hentry, hs⟩ := Option.bind_eq_some_iff.mp hs
  obtain ⟨htask, hs⟩ := Option.ite_none_right_eq_some.mp hs
  cases result with
  | ok =>
    obtain ⟨hclosed, hs⟩ := Option.ite_none_right_eq_some.mp hs
    exact Option.some.inj hs ▸ .finishOk i g hentry htask hclosed
  | cancelled =>
    obtain ⟨hcancelled, hs⟩ := Option.ite_none_right_eq_some.mp hs
    exact Option.some.inj hs ▸ .finishCancelled i g hentry htask hcancelled
  | network => exact Option.some.inj hs ▸ .finishNetwork i g hentry htask
  | closedByOtherSide => exact Option.some.inj hs ▸ .finishClosed i g hentry htask

theorem Step.reopen {s t : Service} (hs : s.retry i = some t) : Step s (.retry i) t := by
  obtain ⟨g, hentry, hs⟩ := Option.bind_eq_some_iff.mp hs
  obtain ⟨htask, hs⟩ := Option.ite_none_right_eq_some.mp hs
  split at hs
  next hclosed => exact Option.some.inj hs ▸ .abort i g hentry htask hclosed
  next => exact Option.some.inj (Option.ite_none_right_eq_some.mp hs).2 ▸ .retry i g hentry htask

theorem Step.serve {s t : Service} (hs : s.serve ok = some t) : Step s (.serve ok) t := by
  unfold Service.serve at hs
  split at hs
  · contradiction
  · split at hs
    next c r rest hhead => exact Option.some.inj hs ▸ .registered c r rest hhead
    next c r rest hhead => exact Option.some.inj hs ▸ .reopened c r rest hhead
    next hempty => exact Option.some.inj (Option.ite_none_right_eq_some.mp hs).2 ▸ .stop hempty

theorem step_sound {s t : Service} (hs : s.step a = some t) : Step s a t := by
  cases a with
  | registerChannel c =>
    exact Option.some.inj (Option.ite_none_right_eq_some.mp hs).2 ▸ .registerChannel c
  | closeQueue r => exact Option.some.inj hs ▸ .closeQueue r
  | connectControl k =>
    exact Option.some.inj (Option.ite_none_right_eq_some.mp hs).2 ▸ .connectControl k
  | channelRequest i c => exact .channelRequest hs
  | answer i ok => exact .answer hs
  | closeControl i =>
    simp only [step, Service.closeControl] at hs
    split at hs
    next hsocket => exact Option.some.inj hs ▸ .closeControl hsocket
    next => contradiction
  | openChannel i =>
    obtain ⟨g, hentry, hs⟩ := Option.bind_eq_some_iff.mp hs
    obtain ⟨htask, hs⟩ := Option.ite_none_right_eq_some.mp hs
    exact Option.some.inj hs ▸ .openChannel i g hentry htask
  | connectChannel i =>
    obtain ⟨g, hentry, hs⟩ := Option.bind_eq_some_iff.mp hs
    obtain ⟨hattempt, hs⟩ := Option.ite_none_right_eq_some.mp hs
    exact Option.some.inj hs ▸ .connectChannel i g hentry hattempt
  | createChannel i ok => exact .createChannel hs
  | acceptStream i =>
    obtain ⟨g, hentry, hs⟩ := Option.bind_eq_some_iff.mp hs
    obtain ⟨⟨hloop, hstream⟩, hs⟩ := Option.ite_none_right_eq_some.mp hs
    exact Option.some.inj hs ▸ .acceptStream i g hloop hentry hstream
  | identify ok => exact .identify hs
  | dispatch => exact .dispatch hs
  | finish i result => exact .finish hs
  | retry i => exact .reopen hs
  | serve ok => exact .serve hs
  | shutdown => exact Option.some.inj hs ▸ .shutdown

theorem dropSender_cases {l : List Grant} {o : Option Nat} {g' : Grant}
    (h : (dropSender l o)[j]? = some g') : ∃ g, l[j]? = some g ∧
      (g' = g ∧ (o = some j → g.task ≠ .parked) ∨
        o = some j ∧ g.task = .parked ∧ g' = { g with task := .ended }) := by
  cases o with
  | none => exact ⟨g', h, .inl ⟨rfl, nofun⟩⟩
  | some i =>
    obtain ⟨g, hg, ⟨rfl, rfl⟩ | ⟨hij, rfl⟩⟩ := Table.modify_cases h
    · refine ⟨g, hg, ?_⟩
      split
      next htask => exact .inr ⟨rfl, htask, rfl⟩
      next htask => exact .inl ⟨rfl, fun _ => htask⟩
    · exact ⟨g', hg, .inl ⟨rfl, fun h => absurd (Option.some.inj h) hij⟩⟩

theorem dropSender_eq (l : List Grant) (o : Option Nat) : dropSender l o = l ∨
    ∃ j g, l[j]? = some g ∧ g.task = .parked ∧
      dropSender l o = l.set j { g with task := .ended } := by
  cases o with
  | none => exact .inl rfl
  | some j =>
    cases hj : l[j]? with
    | none => exact .inl (List.modify_eq_self (List.getElem?_eq_none_iff.mp hj))
    | some g =>
      rw [dropSender, Table.modify_eq_set hj]
      split
      next task => exact .inr ⟨j, g, hj, task, rfl⟩
      next =>
        obtain ⟨hlt, rfl⟩ := List.getElem?_eq_some_iff.mp hj
        exact .inl (List.set_getElem_self hlt)

theorem exists_dropSender {l : List Grant} {o : Option Nat} {P : Grant → Prop} {j : Nat}
    (h : ∃ g, l[j]? = some g ∧ P g)
    (hP : o = some j → ∀ g, l[j]? = some g → g.task = .parked → P g →
      P { g with task := .ended }) :
    ∃ g, (dropSender l o)[j]? = some g ∧ P g := by
  cases o with
  | none => exact h
  | some i =>
    refine Table.exists_modify h fun hij g hj hg => ?_
    split
    next htask => exact hP (congrArg some hij) g hj htask hg
    next => exact hg

theorem getElem?_dropSender {l : List Grant} {o : Option Nat} {i : Nat} {g : Grant}
    (h : l[i]? = some g) (task : g.task = .spawned) : (dropSender l o)[i]? = some g := by
  obtain ⟨_, hg, rfl⟩ := exists_dropSender (o := o) (P := fun h => h = g) ⟨g, h, rfl⟩ (by
    rintro - _ - htask rfl
    rw [task] at htask
    contradiction)
  exact hg

structure Matched (opened : Map (ConnectionIdentifier × ChannelIdentifier) Nat)
    (grants : List Grant) : Prop where
  task : ∀ {key i}, opened.lookup key = some i →
    ∃ g, grants[i]? = some g ∧ g.key = key ∧ g.task = .parked
  sender : ∀ {i g}, grants[i]? = some g → g.task = .parked → opened.lookup g.key = some i

theorem Matched.key_inj (h : Matched opened l) (hi : opened.lookup key = some i)
    (hi' : opened.lookup key' = some i) : key = key' := by
  obtain ⟨g, hg, hkey, -⟩ := h.task hi
  obtain ⟨g', hg', hkey', -⟩ := h.task hi'
  rw [hg, Option.some.injEq] at hg'
  exact hkey.symm.trans (hg' ▸ hkey')

theorem Matched.set (h : Matched opened l) (entry : l[i]? = some g) (key : g'.key = g.key)
    (task : g'.task = .parked ↔ g.task = .parked) : Matched opened (l.set i g') where
  task hl := by
    refine Table.exists_set (h.task hl) entry ?_
    rintro - ⟨hkey, htask⟩
    exact ⟨key.trans hkey, task.mpr htask⟩
  sender hj htask := by
    rcases Table.set_cases hj with ⟨rfl, rfl⟩ | ⟨-, hj⟩
    · rw [key]
      exact h.sender entry (task.mp htask)
    · exact h.sender hj htask

theorem Matched.concat (h : Matched opened l) (task : g.task ≠ .parked) :
    Matched opened (l ++ [g]) where
  task hl := by
    obtain ⟨g, hg, hkey⟩ := h.task hl
    exact ⟨g, Table.concat_of_row hg, hkey⟩
  sender hj htask := by
    rcases Table.concat_cases hj with hj | ⟨-, rfl⟩
    · exact h.sender hj htask
    · exact absurd htask task

theorem Matched.openChannel (h : Matched opened l) (entry : l[i]? = some g)
    (task : g.task = .spawned) : Matched (opened.insert g.key i)
      ((dropSender l (opened.lookup g.key)).set i { g with task := .parked }) := by
  have hg := getElem?_dropSender (o := opened.lookup g.key) entry task
  -- The sender that is replaced stood under the same key, so those of other keys stay.
  constructor
  · intro key j hl
    rw [Map.lookup_insert] at hl
    split at hl
    next hkey =>
      obtain rfl := Option.some.inj hl
      exact ⟨_, Table.set_self hg _, hkey.symm, rfl⟩
    next hkey =>
      refine Table.exists_set (exists_dropSender (h.task hl) ?_) hg ?_
      · exact fun hl' => absurd (h.key_inj hl hl') hkey
      · rintro - ⟨hkey', -⟩
        exact absurd hkey'.symm hkey
  · intro j g' hj htask
    rw [Map.lookup_insert]
    rcases Table.set_cases hj with ⟨rfl, rfl⟩ | ⟨hij, hj⟩
    · exact if_pos rfl
    · obtain ⟨g'', hg'', ⟨rfl, hdrop⟩ | ⟨-, -, rfl⟩⟩ := dropSender_cases hj
      · have hl := h.sender hg'' htask
        rw [if_neg, hl]
        intro hkey
        exact hdrop (hkey ▸ hl) htask
      · contradiction

theorem Matched.deliver (h : Matched opened l) (entry : opened.lookup g.key = some j)
    (hi : l[i]? = some g) : Matched (opened.erase g.key)
      ((l.set i { g with stream := stream }).modify j fun h => { h with task := .handling }) := by
  have h' : Matched opened (l.set i { g with stream := stream }) := h.set hi rfl Iff.rfl
  constructor
  · intro key i' hl
    obtain ⟨hkey, hl⟩ := Map.lookup_of_erase hl
    refine Table.exists_modify (h'.task hl) ?_
    rintro rfl
    exact absurd (h.key_inj hl entry) hkey
  · intro i' g' hg' htask
    obtain ⟨g'', hg'', ⟨rfl, rfl⟩ | ⟨hji, rfl⟩⟩ := Table.modify_cases hg'
    · contradiction
    · have hl := h'.sender hg'' htask
      rw [Map.lookup_erase, if_neg, hl]
      intro hkey
      rw [hkey, entry] at hl
      exact hji (Option.some.inj hl)

theorem Matched.step {s t : Service} (h : Matched s.openedChannels s.grants) (hs : Step s a t) :
    Matched t.openedChannels t.grants := by
  cases hs with
  | grant => exact h.concat nofun
  | answered j g _ entry | unanswered j g _ entry => exact h.set entry rfl Iff.rfl
  | openChannel i g entry task => exact h.openChannel entry task
  | connectChannel i g entry | established i g entry | failed i g entry =>
    exact h.set entry rfl Iff.rfl
  | acceptStream i g _ entry | identified i g _ entry | refused i g _ entry
  | notRegistered i g _ entry => exact h.set entry rfl Iff.rfl
  | delivered i j g _ _ entry opened => exact h.deliver opened entry
  | alreadyClosed i j g _ entry opened receiver =>
    obtain ⟨g', hg', -, htask⟩ := h.task opened
    simp [hg', htask] at receiver
  | finishOk i g entry task | finishCancelled i g entry task | finishNetwork i g entry task
  | finishClosed i g entry task | abort i g entry task | retry i g entry task =>
    exact h.set entry rfl (by simp [task])
  | _ => exact h

theorem matched {s : Service} (h : machine.Reaches C s) : Matched s.openedChannels s.grants := by
  induction h with
  | init => exact ⟨nofun, nofun⟩
  | step _ _ hs ih => exact ih.step (step_sound hs)

structure Asked (sockets : List ControlSocket) (grants : List Grant) : Prop where
  promised : ∀ {i j : Nat} {x : ControlSocket}, sockets[i]? = some x →
    x.phase = .answering (some j) → ∃ g, grants[j]? = some g ∧ g.attempt = .promised
  once : ∀ {i i' j : Nat} {x x' : ControlSocket}, sockets[i]? = some x → sockets[i']? = some x' →
    x.phase = .answering (some j) → x'.phase = .answering (some j) → i = i'

section

variable {sockets : List ControlSocket} {x x' : ControlSocket} {l l' : List Grant} {g g' : Grant}

theorem Asked.grants (h : Asked sockets l)
    (keep : ∀ j : Nat, (∃ g, l[j]? = some g ∧ g.attempt = .promised) →
      ∃ g, l'[j]? = some g ∧ g.attempt = .promised) : Asked sockets l' where
  promised hi hphase := keep _ (h.promised hi hphase)
  once := h.once

theorem Asked.concat (h : Asked sockets l) (phase : ∀ j, x.phase ≠ .answering (some j)) :
    Asked (sockets ++ [x]) l := by
  constructor
  · intro i j y hi hphase
    rcases Table.concat_cases hi with hi | ⟨-, rfl⟩
    · exact h.promised hi hphase
    · exact absurd hphase (phase j)
  · intro i i' j y y' hi hi' hphase hphase'
    rcases Table.concat_cases hi with hi | ⟨-, rfl⟩
    · rcases Table.concat_cases hi' with hi' | ⟨-, rfl⟩
      · exact h.once hi hi' hphase hphase'
      · exact absurd hphase' (phase j)
    · exact absurd hphase (phase j)

theorem Asked.set {i : Nat} (h : Asked sockets l) (hx : sockets[i]? = some x)
    (phase : ∀ j, x'.phase ≠ .answering (some j))
    (keep : ∀ j, x.phase ≠ .answering (some j) → l'[j]? = l[j]?) :
    Asked (sockets.set i x') l' := by
  constructor
  · intro i' j y hi' hphase
    rcases Table.set_cases hi' with ⟨-, rfl⟩ | ⟨hne, hi'⟩
    · exact absurd hphase (phase j)
    · rw [keep j fun hx' => hne (h.once hx hi' hx' hphase)]
      exact h.promised hi' hphase
  · intro i' i'' j y y' hi' hi'' hphase hphase'
    rcases Table.set_cases hi' with ⟨-, rfl⟩ | ⟨-, hi'⟩
    · exact absurd hphase (phase j)
    · rcases Table.set_cases hi'' with ⟨-, rfl⟩ | ⟨-, hi''⟩
      · exact absurd hphase' (phase j)
      · exact h.once hi' hi'' hphase hphase'

theorem Asked.grant (h : Asked sockets l) (phase : x'.phase = .answering (some l.length))
    (attempt : g.attempt = .promised) : Asked (sockets.set i x') (l ++ [g]) := by
  have hlt {i' j : Nat} {y : ControlSocket} (hi' : sockets[i']? = some y)
      (hphase : y.phase = .answering (some j)) : j ≠ l.length := by
    obtain ⟨g', hg', -⟩ := h.promised hi' hphase
    exact (Table.lt_of_row hg').ne
  constructor
  · intro i' j y hi' hphase
    rcases Table.set_cases hi' with ⟨-, rfl⟩ | ⟨-, hi'⟩
    · obtain rfl : l.length = j := by simpa [phase] using hphase
      exact ⟨g, List.getElem?_concat_length, attempt⟩
    · obtain ⟨g', hg', hattempt⟩ := h.promised hi' hphase
      exact ⟨g', Table.concat_of_row hg', hattempt⟩
  · intro i' i'' j y y' hi' hi'' hphase hphase'
    rcases Table.set_cases hi' with ⟨rfl, rfl⟩ | ⟨-, hi'⟩
    · rcases Table.set_cases hi'' with ⟨rfl, -⟩ | ⟨-, hi''⟩
      · rfl
      · obtain rfl : l.length = j := by simpa [phase] using hphase
        exact absurd rfl (hlt hi'' hphase')
    · rcases Table.set_cases hi'' with ⟨rfl, hy'⟩ | ⟨-, hi''⟩
      · obtain rfl : l.length = j := by simpa [hy', phase] using hphase'
        exact absurd rfl (hlt hi' hphase)
      · exact h.once hi' hi'' hphase hphase'

theorem Asked.rewrite {i : Nat} (h : Asked sockets l) (entry : l[i]? = some g)
    (attempt : g.attempt = .promised → g'.attempt = .promised) : Asked sockets (l.set i g') :=
  h.grants fun _ hj => Table.exists_set hj entry fun _ => attempt

end

theorem Asked.step {s t : Service} (h : Asked s.sockets s.grants) (hs : Step s a t) :
    Asked t.sockets t.grants := by
  cases hs with
  | connectControl => exact h.concat nofun
  | deny socket | closeControl socket => exact h.set socket nofun fun _ _ => rfl
  | denied socket =>
    refine h.set socket ?_ fun _ _ => rfl
    split <;> exact nofun
  | grant => exact h.grant rfl rfl
  | answered j g socket | unanswered j g socket =>
    refine h.set socket nofun fun j' hne => List.getElem?_set_ne ?_
    rintro rfl
    exact hne rfl
  | openChannel i g entry task =>
    have hg := getElem?_dropSender (o := s.openedChannels.lookup g.key) entry task
    refine Asked.rewrite (h.grants fun j hj => ?_) hg id
    exact exists_dropSender hj fun _ _ _ _ h => h
  | connectChannel i g entry attempt => exact h.rewrite entry (by simp [attempt])
  | established i g entry attempt => exact h.rewrite entry (by simp [attempt])
  | failed i g entry attempt =>
    exact h.rewrite entry fun hp => by simp [hp] at attempt
  | acceptStream i g _ entry | identified i g _ entry | refused i g _ entry
  | notRegistered i g _ entry | alreadyClosed i j g _ entry => exact h.rewrite entry id
  | delivered i j g _ _ entry =>
    have h' : Asked s.sockets (s.grants.set i { g with stream := .delivered j }) :=
      h.rewrite entry id
    exact h'.grants fun _ hj => Table.exists_modify hj fun _ _ _ h => h
  | finishOk i g entry | finishCancelled i g entry | finishNetwork i g entry
  | finishClosed i g entry | abort i g entry | retry i g entry => exact h.rewrite entry id
  | _ => exact h

theorem asked {s : Service} (h : machine.Reaches C s) : Asked s.sockets s.grants := by
  induction h with
  | init => exact ⟨nofun, nofun⟩
  | step _ _ hs ih => exact ih.step (step_sound hs)

structure Staged (loop : AcceptLoop) (grants : List Grant) : Prop where
  grant : ∀ (i : Nat) (g : Grant), grants[i]? = some g → g.Staged
  held : ∀ (i : Nat) (p : Stream), loop.stream = some (i, p) →
    ∃ g, grants[i]? = some g ∧ g.stream = p
  holder : ∀ (i : Nat) (g : Grant), grants[i]? = some g → g.stream.Held →
    loop.stream = some (i, g.stream)

theorem Staged.held_eq {l : List Grant} {i : Nat} (h : Staged loop l) (entry : l[i]? = some g)
    (held : loop.stream = some (i, p)) : g.stream = p := by
  obtain ⟨g', hg', hp⟩ := h.held i p held
  rw [entry, Option.some.injEq] at hg'
  exact hg' ▸ hp

theorem Staged.set {l : List Grant} {i : Nat} (h : Staged loop l) (entry : l[i]? = some g)
    (grant : g'.Staged) (stream : g'.stream = g.stream ∨ ¬ g.stream.Held ∧ ¬ g'.stream.Held) :
    Staged loop (l.set i g') where
  grant _ _ hj := Table.forall_set h.grant grant hj
  held j p hl := by
    refine Table.exists_set (h.held j p hl) entry ?_
    rintro rfl rfl
    rcases stream with hstream | ⟨hstream, -⟩
    · exact hstream
    · exact absurd (AcceptLoop.held hl) hstream
  holder j _ hj hheld := by
    rcases Table.set_cases hj with ⟨rfl, rfl⟩ | ⟨-, hj⟩
    · rcases stream with hstream | ⟨-, hstream⟩
      · rw [hstream] at hheld ⊢
        exact h.holder i g entry hheld
      · exact absurd hheld hstream
    · exact h.holder j _ hj hheld

theorem Staged.move {l : List Grant} {i : Nat} (h : Staged loop l) (entry : l[i]? = some g)
    (alone : ∀ j p, loop.stream = some (j, p) → i = j) (grant : g'.Staged)
    (held : ∀ j p, loop'.stream = some (j, p) → i = j ∧ g'.stream = p)
    (holder : g'.stream.Held → loop'.stream = some (i, g'.stream)) :
    Staged loop' (l.set i g') where
  grant _ _ hj := Table.forall_set h.grant grant hj
  held j p hp := by
    obtain ⟨rfl, hstream⟩ := held j p hp
    exact ⟨g', Table.set_self entry g', hstream⟩
  holder j _ hj hheld := by
    rcases Table.set_cases hj with ⟨rfl, rfl⟩ | ⟨hij, hj⟩
    · exact holder hheld
    · exact absurd (alone j _ (h.holder j _ hj hheld)) hij

theorem Staged.concat {l : List Grant} (h : Staged loop l) (grant : g.Staged)
    (stream : ¬ g.stream.Held) : Staged loop (l ++ [g]) where
  grant _ _ hj := Table.forall_concat h.grant grant hj
  held j p hp := by
    obtain ⟨g', hg', hstream⟩ := h.held j p hp
    exact ⟨g', Table.concat_of_row hg', hstream⟩
  holder j _ hj hheld := by
    rcases Table.concat_cases hj with hj | ⟨-, rfl⟩
    · exact h.holder j _ hj hheld
    · exact absurd hheld stream

theorem Staged.modify {l : List Grant} {f : Grant → Grant} (h : Staged loop l) (i : Nat)
    (hf : ∀ g, (f g).attempt = g.attempt ∧ (f g).stream = g.stream) :
    Staged loop (l.modify i f) := by
  have hold {j : Nat} {g' : Grant} (hj : (l.modify i f)[j]? = some g') :
      ∃ g, l[j]? = some g ∧ g'.attempt = g.attempt ∧ g'.stream = g.stream := by
    obtain ⟨g, hg, ⟨-, rfl⟩ | ⟨-, rfl⟩⟩ := Table.modify_cases hj
    · exact ⟨g, hg, hf g⟩
    · exact ⟨g', hg, rfl, rfl⟩
  constructor
  · intro j g' hj
    obtain ⟨g, hg, hattempt, hstream⟩ := hold hj
    have hgrant := h.grant j g hg
    exact ⟨hattempt ▸ hstream ▸ hgrant.absent, hattempt ▸ hstream ▸ hgrant.told⟩
  · intro j p hp
    exact Table.exists_modify (h.held j p hp) fun _ g _ hstream => (hf g).2.trans hstream
  · intro j g' hj hheld
    obtain ⟨g, hg, -, hstream⟩ := hold hj
    rw [hstream] at hheld ⊢
    exact h.holder j g hg hheld

theorem Staged.dropSender {l : List Grant} (h : Staged loop l) (o : Option Nat) :
    Staged loop (dropSender l o) := by
  cases o with
  | none => exact h
  | some i =>
    refine h.modify i fun g => ?_
    split <;> exact ⟨rfl, rfl⟩

theorem Staged.step {s t : Service} (h : Staged s.acceptLoop s.grants)
    (ha : Asked s.sockets s.grants) (hs : Step s a t) : Staged t.acceptLoop t.grants := by
  cases hs with
  | grant k c r =>
    exact h.concat ⟨fun _ => rfl, nofun⟩ (by simp [Stream.Held])
  | answered j g socket entry =>
    obtain ⟨g', hg', hpromised⟩ := ha.promised socket rfl
    rw [entry, Option.some.injEq] at hg'
    exact h.set entry ⟨fun _ => (h.grant j g entry).absent (.inl (hg' ▸ hpromised)), nofun⟩
      (.inl rfl)
  | unanswered j g _ entry => exact h.set entry ⟨nofun, nofun⟩ (.inl rfl)
  | openChannel i g entry task =>
    have hg := getElem?_dropSender (o := s.openedChannels.lookup g.key) entry task
    exact (h.dropSender _).set hg ⟨(h.grant i g entry).absent, (h.grant i g entry).told⟩
      (.inl rfl)
  | connectChannel i g entry attempt =>
    have habsent := (h.grant i g entry).absent (.inr attempt)
    exact h.set entry ⟨nofun, nofun⟩ (.inr (by simp [habsent, Stream.Held]))
  | established i g entry attempt stream =>
    exact h.set entry ⟨nofun, fun _ => stream⟩ (.inl rfl)
  | failed i g entry => exact h.set entry ⟨nofun, nofun⟩ (.inl rfl)
  | acceptStream i g loop entry stream =>
    refine h.move entry (by simp [loop, AcceptLoop.stream])
      ((h.grant i g entry).move (by simp [stream]) fun hattempt => ?_) ?_ fun _ => rfl
    · have := (h.grant i g entry).told hattempt
      simp [stream] at this
    · rintro j p ⟨⟩
      exact ⟨rfl, rfl⟩
  | identified i g loop entry =>
    have hstream := h.held_eq entry (by rw [loop]; rfl)
    refine h.move entry (by simp [loop, AcceptLoop.stream])
      ((h.grant i g entry).move (by simp [hstream]) fun _ => .inl rfl) ?_ fun _ => rfl
    rintro j p ⟨⟩
    exact ⟨rfl, rfl⟩
  | refused i g loop entry =>
    have hstream := h.held_eq entry (by rw [loop]; rfl)
    refine h.move entry (by simp [loop, AcceptLoop.stream])
      ((h.grant i g entry).move (by simp [hstream]) fun hattempt => ?_) nofun
      (by simp [Stream.Held])
    have := (h.grant i g entry).told hattempt
    simp [hstream] at this
  | notRegistered i g loop entry | alreadyClosed i j g loop entry =>
    have hstream := h.held_eq entry (by rw [loop]; rfl)
    exact h.move entry (by simp [loop, AcceptLoop.stream])
      ((h.grant i g entry).move (by simp [hstream]) fun _ => .inr (.inr rfl)) nofun
      (by simp [Stream.Held])
  | delivered i j g _ loop entry =>
    have hstream := h.held_eq entry (by rw [loop]; rfl)
    have h' : Staged .accepting (s.grants.set i { g with stream := .delivered j }) :=
      h.move entry (by simp [loop, AcceptLoop.stream])
        ((h.grant i g entry).move (by simp [hstream]) fun _ => .inr (.inl ⟨j, rfl⟩)) nofun
        (by simp [Stream.Held])
    exact h'.modify j fun _ => ⟨rfl, rfl⟩
  | finishOk i g entry | finishCancelled i g entry | finishNetwork i g entry
  | finishClosed i g entry | abort i g entry | retry i g entry =>
    exact h.set entry ⟨(h.grant i g entry).absent, (h.grant i g entry).told⟩ (.inl rfl)
  | _ => exact h

theorem staged {s : Service} (h : machine.Reaches C s) : Staged s.acceptLoop s.grants := by
  induction h with
  | init => exact ⟨nofun, nofun, nofun⟩
  | step hr _ hs ih => exact ih.step (asked hr) (step_sound hs)

end Service

end BdsPro.Network.Receiver
