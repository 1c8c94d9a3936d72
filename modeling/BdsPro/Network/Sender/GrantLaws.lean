import BdsPro.Network.Sender.ConnectionHandlerLaws

namespace BdsPro.Network.Sender

open BdsPro.Library

namespace ConnectionHandler

def established (s : ConnectionHandler) : List ChannelIdentifier := s.tasks.map (·.channel)

inductive Matched (s : ConnectionHandler) : Prop
  | apart (establisher : s.establisher = .connecting ∨ s.establisher = .ended)
      (granted : s.established.Sublist s.granted)
  | level (establisher : s.establisher = .idle ∨ ∃ i, s.establisher = .requesting i)
      (requests : s.requests.length = s.answersRead) (answers : s.answers.length = s.answersRead)
      (granted : s.established.Sublist s.granted)
  | asked (establisher : s.establisher = .reading i) (attempt : s.attempts[i]? = some a)
      (requests : s.requests = before ++ [a.channel]) (read : before.length = s.answersRead)
      (answers : s.answers.length = s.answersRead) (granted : s.established.Sublist s.granted)
  | denied (establisher : s.establisher = .reading i)
      (requests : s.requests.length = s.answersRead + 1)
      (answers : s.answers = earlier ++ [.denyChannelResponse])
      (read : earlier.length = s.answersRead) (granted : s.established.Sublist s.granted)
  | promised (establisher : s.establisher = .reading i) (attempt : s.attempts[i]? = some a)
      (requests : s.requests.length = s.answersRead + 1)
      (answers : s.answers = earlier ++ [.okChannelResponse])
      (read : earlier.length = s.answersRead) (granted : s.granted = others ++ [a.channel])
      (before : s.established.Sublist others)

theorem Matched.sublist {s : ConnectionHandler} (h : s.Matched) :
    s.established.Sublist s.granted := by
  cases h with
  | apart _ granted | level _ _ _ granted | asked _ _ _ _ _ granted | denied _ _ _ _ granted =>
    exact granted
  | promised _ _ _ _ _ granted before =>
    exact granted ▸ before.trans (List.sublist_append_left _ _)

def Names (l l' : List Attempt) : Prop :=
  ∀ (i : Nat) (a : Attempt), l[i]? = some a →
    ∃ b : Attempt, l'[i]? = some b ∧ b.channel = a.channel

theorem Names.refl (l : List Attempt) : Names l l := fun _ a ha => ⟨a, ha, rfl⟩

theorem Names.set {l : List Attempt} (attempt : l[i]? = some a) (channel : b.channel = a.channel) :
    Names l (l.set i b) := fun _ c hc =>
  Table.exists_set (P := fun b => b.channel = c.channel) ⟨c, hc, rfl⟩ attempt fun _ h =>
    channel.trans h

theorem Names.concat (l : List Attempt) (b : Attempt) : Names l (l ++ [b]) :=
  fun _ c hc => ⟨c, Table.concat_of_row hc, rfl⟩

theorem Matched.aside {s t : ConnectionHandler} (h : s.Matched)
    (establisher : t.establisher = s.establisher) (requests : t.requests = s.requests)
    (answers : t.answers = s.answers) (read : t.answersRead = s.answersRead)
    (granted : t.granted = s.granted) (established : t.established = s.established)
    (names : Names s.attempts t.attempts) : t.Matched := by
  cases h with
  | apart source sub =>
    exact .apart (establisher ▸ source) (established ▸ granted ▸ sub)
  | level source hrequests hanswers sub =>
    exact .level (establisher ▸ source) (requests ▸ read ▸ hrequests) (answers ▸ read ▸ hanswers)
      (established ▸ granted ▸ sub)
  | asked source attempt hrequests hread hanswers sub =>
    obtain ⟨b, hb, hchannel⟩ := names _ _ attempt
    exact .asked (establisher ▸ source) hb (requests ▸ hchannel ▸ hrequests) (read ▸ hread)
      (answers ▸ read ▸ hanswers) (established ▸ granted ▸ sub)
  | denied source hrequests hanswers hread sub =>
    exact .denied (establisher ▸ source) (requests ▸ read ▸ hrequests) (answers ▸ hanswers)
      (read ▸ hread) (established ▸ granted ▸ sub)
  | promised source attempt hrequests hanswers hread hgranted before =>
    obtain ⟨b, hb, hchannel⟩ := names _ _ attempt
    exact .promised (establisher ▸ source) hb (requests ▸ read ▸ hrequests) (answers ▸ hanswers)
      (read ▸ hread) (granted ▸ hchannel ▸ hgranted) (established ▸ before)

theorem getElem?_length_of_concat {l : List α} (h : l = before ++ [a]) {n : Nat}
    (hn : before.length = n) : l[n]? = some a := by
  rw [h, ← hn, List.getElem?_concat_length]

theorem Matched.unanswered {s : ConnectionHandler} (h : s.Matched)
    (request : s.requests[s.answers.length]? = some c) :
    (s.establisher = .connecting ∨ s.establisher = .ended) ∨
      ∃ i a, s.establisher = .reading i ∧ s.attempts[i]? = some a ∧ a.channel = c ∧
        s.requests.length = s.answersRead + 1 ∧ s.answers.length = s.answersRead := by
  have hlt := (List.getElem?_eq_some_iff.mp request).1
  cases h with
  | apart source => exact .inl source
  | level _ hrequests hanswers => omega
  | denied _ hrequests hanswers hread | promised _ _ hrequests hanswers hread =>
    rw [hanswers, List.length_append, List.length_singleton] at hlt
    omega
  | asked source attempt hrequests hread hanswers =>
    have hchannel := getElem?_length_of_concat hrequests (hread.trans hanswers.symm)
    refine .inr ⟨_, _, source, attempt, Option.some.inj (hchannel.symm.trans request), ?_,
      hanswers⟩
    rw [hrequests, List.length_append, hread]
    rfl

theorem Matched.grant {s : ConnectionHandler} (h : s.Matched)
    (request : s.requests[s.answers.length]? = some c) :
    Matched { s with
      answers := s.answers ++ [.okChannelResponse]
      granted := s.granted ++ [c] } := by
  obtain source | ⟨i, a, source, attempt, rfl, hrequests, hanswers⟩ := h.unanswered request
  · exact .apart source (h.sublist.trans (List.sublist_append_left _ _))
  · exact .promised source attempt hrequests rfl hanswers rfl h.sublist

theorem Matched.deny {s : ConnectionHandler} (h : s.Matched)
    (request : s.requests[s.answers.length]? = some c) :
    Matched { s with answers := s.answers ++ [.denyChannelResponse] } := by
  obtain source | ⟨i, a, source, attempt, -, hrequests, hanswers⟩ := h.unanswered request
  · exact .apart source h.sublist
  · exact .denied source hrequests rfl hanswers h.sublist

theorem Matched.read {s : ConnectionHandler} (h : s.Matched) (source : s.establisher = .reading i)
    (answer : s.answers[s.answersRead]? = some r) :
    s.requests.length = s.answersRead + 1 ∧ s.answers.length = s.answersRead + 1 ∧
      (r = .okChannelResponse → ∃ a others, s.attempts[i]? = some a ∧
        s.granted = others ++ [a.channel] ∧ s.established.Sublist others) := by
  cases h with
  | apart other => simp [source] at other
  | level other => simp [source] at other
  | asked _ _ _ _ hanswers =>
    rw [List.getElem?_eq_none hanswers.le] at answer
    contradiction
  | denied _ hrequests hanswers hread =>
    refine ⟨hrequests, by rw [hanswers, List.length_append, hread]; rfl, ?_⟩
    rintro rfl
    rw [getElem?_length_of_concat hanswers hread] at answer
    contradiction
  | promised other attempt hrequests hanswers hread hgranted before =>
    obtain rfl := Establisher.reading.inj (other.symm.trans source)
    exact ⟨hrequests, by rw [hanswers, List.length_append, hread]; rfl,
      fun _ => ⟨_, _, attempt, hgranted, before⟩⟩

theorem Matched.step {s t : ConnectionHandler} (h : s.Matched) (hs : Step s a t) : t.Matched := by
  cases hs with
  | cancel | register | connected | notConnected | connectCancelled | offerFailed | offer
  | reconnectDropped => exact h.aside rfl rfl rfl rfl rfl rfl (.refl _)
  | serve => exact h.aside rfl rfl rfl rfl rfl rfl (.concat _ _)
  | respond attempt | abandon attempt | sendFailed attempt | send attempt | awaitFailed attempt
  | await attempt | wake attempt => exact h.aside rfl rfl rfl rfl rfl rfl (.set attempt rfl)
  | takeConnection => exact .level (.inl rfl) rfl rfl h.sublist
  | noConnection | establishCancelled => exact .apart (.inr rfl) h.sublist
  | badConnection => exact .apart (.inl rfl) h.sublist
  | takeChannel i rest establisher =>
    cases h with
    | level _ hrequests hanswers sub => exact .level (.inr ⟨i, rfl⟩) hrequests hanswers sub
    | apart other | asked other | denied other | promised other => simp [establisher] at other
  | request establisher attempt =>
    cases h with
    | level _ hrequests hanswers sub => exact .asked rfl attempt rfl hrequests hanswers sub
    | apart other | asked other | denied other | promised other => simp [establisher] at other
  | grant request => exact h.grant request
  | deny request => exact h.deny request
  | @established _ a establisher answer attempt =>
    obtain ⟨hrequests, hanswers, hok⟩ := h.read establisher answer
    obtain ⟨b, others, hb, hgranted, before⟩ := hok rfl
    obtain rfl := Option.some.inj (attempt.symm.trans hb)
    refine .level (.inl rfl) hrequests hanswers ?_
    rw [hgranted, ConnectionHandler.established, List.map_append]
    exact before.append_right [a.channel]
  | rejected establisher answer =>
    obtain ⟨hrequests, hanswers, -⟩ := h.read establisher answer
    exact .level (.inl rfl) hrequests hanswers h.sublist
  | lost task | finished task | retry task =>
    exact h.aside rfl rfl rfl rfl rfl (Table.map_set_eq task rfl) (.refl _)

theorem matched_of_reachable {s : ConnectionHandler} (h : machine.Reachable s) : s.Matched :=
  h.invariant (I := Matched) (.apart (.inl rfl) (List.Sublist.refl _))
    fun _ _ _ _ ih _ hs => ih.step (step_sound hs)

/-- A task is spawned for a channel only upon the other side's answer to a request for this
channel, and no answer is used twice. -/
theorem established_granted {s : ConnectionHandler} (h : machine.Reachable s) :
    s.established.Sublist s.granted :=
  (matched_of_reachable h).sublist

theorem established_granted_lost :
    ∃ s, machine.Reachable s ∧ s.established = ["c"] ∧ s.established.Sublist s.granted ∧
      s.granted = ["c", "c"] := by
  obtain ⟨s, hs, hestablished, hgranted⟩ := Machine.exists_reaches_of_replay
    (M := machine) (C := fun _ _ => True)
    (P := fun s => s.established = ["c"] ∧ s.granted = ["c", "c"])
    [.register "c", .serve, .respond 0 true, .send 0, .createConnection true, .offer,
      .takeConnection, .takeChannel, .sendRequest true, .answer .okChannelResponse, .lose,
      .createConnection true, .offer, .takeConnection, .wake 0, .send 0, .takeChannel,
      .sendRequest true, .answer .okChannelResponse, .readAnswer] (by decide)
  exact ⟨s, hs, hestablished, established_granted hs, hgranted⟩

end ConnectionHandler

end BdsPro.Network.Sender
