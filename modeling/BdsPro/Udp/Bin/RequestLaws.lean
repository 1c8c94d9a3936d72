import BdsPro.Library.Log
import BdsPro.Udp.Bin.ReceiverLaws
import BdsPro.Udp.Bin.ReceiverLog

namespace BdsPro.Udp.Bin

open BdsPro.Library

namespace Receiver

theorem mem_timedOut {r : Receiver} : seq ∈ r.timedOut now ↔
    ∃ time, r.retransmissionRequests.lookup seq = some time ∧
      time + r.retransmissionTimeout < now := by
  simp only [timedOut, Multiset.mem_map, Prod.exists, Map.mem_select, decide_eq_true_eq]
  constructor
  · rintro ⟨k, time, ⟨hl, hlt⟩, rfl⟩
    exact ⟨time, hl, by omega⟩
  · rintro ⟨time, hl, hlt⟩
    exact ⟨seq, time, ⟨hl, by omega⟩, rfl⟩

theorem timedOut_nodup {r : Receiver} {order : List Nat}
    (h : (order : Multiset Nat) = r.timedOut now) : order.Nodup := by
  rw [← Multiset.coe_nodup, h]
  exact Map.nodup_select_fst _ _

theorem retry_eq (r : Receiver) (seq : Nat) :
    ∃ attempts, r.retry seq = { r with
        retransmissionRequests := r.retransmissionRequests.erase seq
        retransmissionAttempts := attempts } ∧
      ∀ k, attempts.lookup k =
        if k = seq ∧ r.attempts seq < r.maxRetransmissionAttempts then some (r.attempts seq + 1)
        else r.retransmissionAttempts.lookup k := by
  unfold retry
  split
  next hlt => exact ⟨_, rfl, fun k => by simp only [Map.lookup_insert, hlt, and_true]⟩
  next hlt => exact ⟨_, rfl, fun k => by simp only [hlt, and_false, if_false]⟩

theorem retries_eq (r : Receiver) {order : List Nat} (hn : order.Nodup) :
    ∃ requests attempts, order.foldl retry r = { r with
        retransmissionRequests := requests
        retransmissionAttempts := attempts } ∧
      (∀ k, requests.lookup k =
        if k ∈ order then none else r.retransmissionRequests.lookup k) ∧
      ∀ k, attempts.lookup k =
        if k ∈ order ∧ r.attempts k < r.maxRetransmissionAttempts then some (r.attempts k + 1)
        else r.retransmissionAttempts.lookup k := by
  induction order generalizing r with
  | nil => exact ⟨_, _, rfl, fun k => by simp, fun k => by simp⟩
  | cons seq order ih =>
    obtain ⟨hnew, hn⟩ := List.nodup_cons.mp hn
    obtain ⟨first, heq, hfirst⟩ := retry_eq r seq
    obtain ⟨requests, counts, heq', hrequests, hcounts⟩ := ih (r.retry seq) hn
    rw [heq] at heq' hrequests hcounts
    refine ⟨requests, counts, ?_, fun k => ?_, fun k => ?_⟩
    · rw [List.foldl_cons, heq, heq']
    · rw [hrequests, Map.lookup_erase]
      by_cases hk : k ∈ order
      · rw [if_pos hk, if_pos (List.mem_cons_of_mem _ hk)]
      · simp only [List.mem_cons, hk, or_false, if_false]
    · have hsame (hne : k ≠ seq) : first.lookup k = r.retransmissionAttempts.lookup k :=
        (hfirst k).trans (if_neg fun hand => hne hand.1)
      rw [hcounts]
      by_cases hk : k = seq
      · subst hk
        rw [if_neg fun hand => hnew hand.1, hfirst]
        simp only [List.mem_cons_self, true_and]
      · simp only [List.mem_cons, hk, false_or, attempts, hsame hk]

theorem attempts_track (r : Receiver) (seq now k : Nat) :
    (r.track seq now).attempts k = r.attempts k + if k = seq then 1 else 0 := by
  simp only [attempts, track, Map.lookup_insert]
  split
  next heq => rw [heq, Option.getD_some]
  next => rfl

theorem count_request (socket : List Message) (seq k : Nat) :
    (socket ++ [rqstMessage seq]).count (rqstMessage k) =
      socket.count (rqstMessage k) + if k = seq then 1 else 0 := by
  rw [List.count_append, List.count_singleton]
  by_cases heq : k = seq
  · simp [heq]
  · simp [rqstMessage, heq, Ne.symm heq]

theorem count_ack (socket : List Message) (seq k : Nat) :
    (socket ++ [ackMessage seq]).count (rqstMessage k) = socket.count (rqstMessage k) := by
  simp [List.count_append, ackMessage, rqstMessage]

inductive Step (r : Receiver) : Action → Receiver → Prop
  | skip (packet : Packet) (other : ∀ m ∈ packet, m.typ ≠ .data) :
    Step r (.recvFrom packet) { r with phase := .checking }
  | record (m : Message) (data : m.typ = .data) : Step r (.recvFrom (some m)) (r.record m.seq)
  | ack (seq : Nat) (phase : r.phase = .acking seq) :
    Step r (.ack true) { r with socket := r.socket ++ [ackMessage seq], phase := r.detect }
  | request (seq : Nat) (rest : List Nat) (now : Nat)
      (phase : r.phase = .requesting (seq :: rest)) :
    Step r (.request true now) { r.track seq now with
      socket := r.socket ++ [rqstMessage seq]
      phase := .requesting rest }
  | stopAck : Step r (.ack false) { r with phase := .stopped }
  | stopRequest (now : Nat) : Step r (.request false now) { r with phase := .stopped }
  | check (now : Nat) (order : List Nat) (phase : r.phase = .requesting [] ∨ r.phase = .checking)
      (timedOut : (order : Multiset Nat) = r.timedOut now) :
    Step r (.check now order) { order.foldl retry r with phase := .receiving }

theorem step_sound {r t : Receiver} (hs : r.step a = some t) : Step r a t := by
  cases a with
  | recvFrom packet =>
    obtain ⟨-, hs⟩ := Option.ite_none_right_eq_some.mp hs
    cases packet with
    | none => exact Option.some.inj hs ▸ .skip none (by simp)
    | some m =>
      simp only at hs
      split at hs
      next hdata => exact Option.some.inj hs ▸ .record m hdata
      next hdata => exact Option.some.inj hs ▸ .skip (some m) (by simpa using hdata)
  | ack ok =>
    simp only [step, Receiver.ack] at hs
    split at hs
    next seq hphase =>
      cases ok with
      | true => exact Option.some.inj hs ▸ .ack seq hphase
      | false => exact Option.some.inj hs ▸ .stopAck
    next => contradiction
  | request ok now =>
    simp only [step, Receiver.request] at hs
    split at hs
    next seq rest hphase =>
      cases ok with
      | true => exact Option.some.inj hs ▸ .request seq rest now hphase
      | false => exact Option.some.inj hs ▸ .stopRequest now
    next => contradiction
  | check now order =>
    simp only [step, Receiver.check, Option.ite_none_right_eq_some, Option.some.injEq] at hs
    obtain ⟨⟨hphase, horder⟩, rfl⟩ := hs
    exact .check now order hphase horder

end Receiver

namespace ReceiverLog

open Receiver (Action)

theorem step_eq_some {o t : ReceiverLog} (hs : o.step a = some t) :
    ∃ r, o.receiver.step a = some r ∧
      t = ⟨r, (reading a).getD o.clock, o.log ++ entries o.receiver a⟩ := by
  obtain ⟨r, hr, rfl⟩ := Option.map_eq_some_iff.mp hs
  exact ⟨r, hr, rfl⟩

def simulation (timeout maxAttempts : Nat) (C : ReceiverLog → Action → Prop) :
    (machine timeout maxAttempts).Simulation C (Receiver.machine timeout maxAttempts) where
  abs := receiver
  init := rfl
  step _ _ hs := by
    obtain ⟨r, hr, rfl⟩ := step_eq_some hs
    exact .inr ⟨_, hr⟩

/-- What an RQST needs: the number has not been received, numbers on both sides have, and
the last request for it was dropped after its timeout. -/
def Justified (timeout : Nat) (before : List Entry) : Entry → Prop
  | .requested seq time => .received seq ∉ before ∧ (∃ lo < seq, .received lo ∈ before) ∧
      (∃ hi > seq, .received hi ∈ before) ∧
      ∀ last rest, Log.Latest (Entry.Requests seq) before (.requested seq last) rest →
        ∃ now, .dropped seq now ∈ rest ∧ last + timeout < now ∧ now ≤ time
  | _ => True

structure Recorded (timeout maxAttempts : Nat) (o : ReceiverLog) : Prop where
  configured : o.receiver.retransmissionTimeout = timeout
  received : ∀ seq, .received seq ∈ o.log ↔ seq ∈ o.receiver.receivedSeqs
  counted : ∀ seq, seq ∉ o.receiver.receivedSeqs →
    o.receiver.socket.count (rqstMessage seq) ≤ o.receiver.attempts seq
  bounded : ∀ seq, o.receiver.socket.count (rqstMessage seq) ≤ maxAttempts
  unrequested : ∀ l, o.receiver.phase = .requesting l →
    ∀ seq ∈ l, o.receiver.retransmissionRequests.lookup seq = none
  settled : ∀ seq last rest, Log.Latest (Entry.Requests seq) o.log (.requested seq last) rest →
    seq ∉ o.receiver.receivedSeqs →
    o.receiver.retransmissionRequests.lookup seq = some last ∨
      o.receiver.retransmissionRequests.lookup seq = none ∧
        ∃ now, .dropped seq now ∈ rest ∧ last + timeout < now ∧ now ≤ o.clock
  justified : Log.Each (Justified timeout) o.log

theorem attempts_of_lookup {r t : Receiver}
    (h : t.retransmissionAttempts.lookup k = r.retransmissionAttempts.lookup k) :
    t.attempts k = r.attempts k := by
  rw [Receiver.attempts, h, Receiver.attempts]

theorem Recorded.still {o : ReceiverLog} (h : o.Recorded timeout maxAttempts) (phase : Phase)
    (hp : ∀ l, phase ≠ .requesting l) :
    Recorded timeout maxAttempts ⟨{ o.receiver with phase := phase }, o.clock, o.log⟩ where
  __ := h
  unrequested l hl := absurd hl (hp l)

theorem Recorded.record {o : ReceiverLog} (h : o.Recorded timeout maxAttempts)
    (hr : o.receiver.WellRanged) (seq : Nat) :
    Recorded timeout maxAttempts ⟨o.receiver.record seq, o.clock, o.log ++ [.received seq]⟩ := by
  obtain ⟨min, max, attempts, heq, -, hattempts⟩ := Receiver.record_eq hr seq
  rw [heq]
  refine ⟨h.configured, fun k => ?_, fun k hk => ?_, h.bounded, by rintro l ⟨⟩,
    fun k last rest hlast hk => ?_, h.justified.append (by simp [Justified])⟩
  · simp [h.received k, or_comm]
  · obtain ⟨hne, hk⟩ := not_or.mp (Finset.mem_insert.not.mp hk)
    rw [attempts_of_lookup ((hattempts k).trans (if_neg fun hand => hne hand.1))]
    exact h.counted k hk
  · obtain ⟨hne, hk⟩ := not_or.mp (Finset.mem_insert.not.mp hk)
    obtain ⟨rest, rfl, hold⟩ := hlast.of_append (by simp [Entry.Requests])
    simp only [Map.lookup_erase, if_neg hne]
    obtain hpending | ⟨hnone, now, hdropped, htime⟩ := h.settled k last rest hold hk
    · exact .inl hpending
    · exact .inr ⟨hnone, now, List.mem_append_left _ hdropped, htime⟩

theorem Recorded.ack {o : ReceiverLog} (h : o.Recorded timeout maxAttempts) (seq : Nat) :
    Recorded timeout maxAttempts
      ⟨{ o.receiver with
          socket := o.receiver.socket ++ [ackMessage seq]
          phase := o.receiver.detect }, o.clock, o.log⟩ := by
  have hcount := Receiver.count_ack o.receiver.socket seq
  refine { h with counted := fun k hk => ?_, bounded := fun k => ?_, unrequested := ?_ }
  · rw [hcount]
    exact h.counted k hk
  · rw [hcount]
    exact h.bounded k
  · intro l hl k hk
    simp only [Receiver.detect] at hl
    split at hl
    next =>
      cases hl
      exact (Receiver.mem_missing.mp hk).2.2.1
    next => contradiction

theorem Recorded.justifies {o : ReceiverLog} (h : o.Recorded timeout maxAttempts)
    (hl : o.receiver.Listed (seq :: rest))
    (hnone : o.receiver.retransmissionRequests.lookup seq = none) (hclock : o.clock ≤ now) :
    Justified timeout o.log (.requested seq now) := by
  obtain ⟨hnot, ⟨⟨lo, hlo, hlt⟩, hi, hhi, hgt⟩, -⟩ := hl.missing seq List.mem_cons_self
  refine ⟨fun hmem => hnot ((h.received seq).mp hmem), ⟨lo, hlt, (h.received lo).mpr hlo⟩,
    ⟨hi, hgt, (h.received hi).mpr hhi⟩, fun last rest hlast => ?_⟩
  obtain hpending | ⟨-, dropped, hdropped, hlate, htime⟩ := h.settled seq last rest hlast hnot
  · rw [hnone] at hpending
    contradiction
  · exact ⟨dropped, hdropped, hlate, htime.trans hclock⟩

theorem Recorded.request {o : ReceiverLog} (h : o.Recorded timeout maxAttempts)
    (hd : o.receiver.Detecting maxAttempts) (hone : 1 ≤ maxAttempts)
    (hp : o.receiver.phase = .requesting (seq :: rest)) (hclock : o.clock ≤ now) :
    Recorded timeout maxAttempts
      ⟨{ o.receiver.track seq now with
          socket := o.receiver.socket ++ [rqstMessage seq]
          phase := .requesting rest }, now, o.log ++ [.requested seq now]⟩ := by
  have hl := hd.listed _ hp
  obtain ⟨hnot, -, hexceeded⟩ := hl.missing seq List.mem_cons_self
  have hnone := h.unrequested _ hp seq List.mem_cons_self
  have hlt := Receiver.attempts_lt hexceeded (hd.tracked.limit ▸ hone)
  have hcount := Receiver.count_request o.receiver.socket seq
  have hattempts := Receiver.attempts_track o.receiver seq now
  refine ⟨h.configured, fun k => ?_, fun k hk => ?_, fun k => ?_, ?_,
    fun k last after hlast hk => ?_, h.justified.concat (h.justifies hl hnone hclock)⟩
  · simp [h.received k, Receiver.track]
  · have hcounted := h.counted k hk
    have heq := hattempts k
    simp only [hcount] at heq ⊢
    exact (Nat.add_le_add_right hcounted _).trans_eq heq.symm
  · simp only [hcount]
    split
    next heq =>
      subst heq
      have hcounted := h.counted k hnot
      have hlimit := hd.tracked.limit
      omega
    next => exact h.bounded k
  · intro l heq k hk
    cases heq
    have hne : k ≠ seq := fun heq => (List.nodup_cons.mp hl.nodup).1 (heq ▸ hk)
    simp only [Receiver.track, Map.lookup_insert, if_neg hne]
    exact h.unrequested _ hp k (List.mem_cons_of_mem _ hk)
  · simp only [Receiver.track, Map.lookup_insert]
    split
    next heq =>
      obtain ⟨hentry, -⟩ := hlast.of_concat heq.symm
      cases hentry
      exact .inl rfl
    next hne =>
      obtain ⟨between, rfl, hold⟩ :=
        hlast.of_append (by simpa [Entry.Requests] using Ne.symm hne)
      obtain hpending | ⟨hnone, dropped, hdropped, hlate, htime⟩ :=
        h.settled k last between hold hk
      · exact .inl hpending
      · exact .inr ⟨hnone, dropped, List.mem_append_left _ hdropped, hlate, htime.trans hclock⟩

theorem Recorded.check {o : ReceiverLog} {order : List Nat} (h : o.Recorded timeout maxAttempts)
    (horder : (order : Multiset Nat) = o.receiver.timedOut now) (hclock : o.clock ≤ now) :
    Recorded timeout maxAttempts
      ⟨{ order.foldl Receiver.retry o.receiver with phase := .receiving }, now,
        o.log ++ order.map fun seq => .dropped seq now⟩ := by
  obtain ⟨requests, counts, heq, hrequests, hcounts⟩ :=
    Receiver.retries_eq o.receiver (Receiver.timedOut_nodup horder)
  rw [heq]
  refine ⟨h.configured, fun k => ?_, fun k hk => ?_, h.bounded, by rintro l ⟨⟩,
    fun k last after hlast hk => ?_, h.justified.append (by simp [Justified])⟩
  · simp [h.received k]
  · have hle : o.receiver.attempts k ≤ (counts.lookup k).getD 0 := by
      rw [hcounts]
      split
      next => exact Nat.le_succ _
      next => exact Nat.le_refl _
    exact (h.counted k hk).trans hle
  · obtain ⟨rest, rfl, hold⟩ := hlast.of_append (by simp [Entry.Requests])
    simp only [hrequests]
    have hdrop (hk : k ∈ order) :
        Entry.dropped k now ∈ rest ++ order.map fun seq => .dropped seq now :=
      List.mem_append_right _ (List.mem_map_of_mem hk)
    obtain hpending | ⟨hnone, dropped, hdropped, hlate, htime⟩ := h.settled k last rest hold hk
    · split
      next hmem =>
        obtain ⟨time, hl, hlate⟩ := Receiver.mem_timedOut.mp (horder ▸ Multiset.mem_coe.mpr hmem)
        cases hpending.symm.trans hl
        exact .inr ⟨rfl, now, hdrop hmem, h.configured ▸ hlate, Nat.le_refl _⟩
      next => exact .inl hpending
    · refine .inr ⟨?_, dropped, List.mem_append_left _ hdropped, hlate, htime.trans hclock⟩
      rw [hnone, ite_self]

theorem Recorded.step {o t : ReceiverLog} (h : o.Recorded timeout maxAttempts)
    (hd : o.receiver.Detecting maxAttempts) (hone : 1 ≤ maxAttempts) (hc : o.Clocked a)
    (hs : o.step a = some t) : t.Recorded timeout maxAttempts := by
  obtain ⟨r, hr, rfl⟩ := step_eq_some hs
  cases Receiver.step_sound hr with
  | skip packet other =>
    have hnil : entries o.receiver (.recvFrom packet) = [] := by
      cases packet with
      | none => rfl
      | some m => exact if_neg (other m rfl)
    rw [hnil, List.append_nil]
    exact h.still .checking nofun
  | record m data =>
    have hentry : entries o.receiver (.recvFrom (some m)) = [.received m.seq] := if_pos data
    rw [hentry]
    exact h.record hd.tracked.range m.seq
  | ack seq phase =>
    have hnil : entries o.receiver (.ack true) = [] := rfl
    rw [hnil, List.append_nil]
    exact h.ack seq
  | request seq rest now phase =>
    have hentry : entries o.receiver (.request true now) = [.requested seq now] := by
      simp only [entries, phase]
    rw [hentry]
    exact h.request hd hone phase (hc now rfl)
  | stopAck =>
    have hnil : entries o.receiver (.ack false) = [] := rfl
    rw [hnil, List.append_nil]
    exact h.still .stopped nofun
  | stopRequest now =>
    have hnil : entries o.receiver (.request false now) = [] := rfl
    rw [hnil, List.append_nil]
    exact h.still .stopped nofun
  | check now order phase timedOut => exact h.check timedOut (hc now rfl)

theorem recorded_of_reaches {timeout maxAttempts : Nat} (hone : 1 ≤ maxAttempts)
    {o : ReceiverLog} (h : (machine timeout maxAttempts).Reaches Clocked o) :
    o.Recorded timeout maxAttempts := by
  refine h.invariant ?_ fun o a t hr ih hc hs => ?_
  · refine ⟨rfl, fun seq => ?_, fun seq _ => Nat.zero_le _, fun seq => Nat.zero_le _, nofun,
      fun seq last rest hlast => ?_, .nil⟩
    · simp [machine, Receiver.new]
    · obtain ⟨-, ⟨before, hlog⟩, -⟩ := hlast
      simp [machine] at hlog
  · exact ih.step (Receiver.detecting_of_reaches hone ((simulation _ _ _).reachable hr)) hone hc hs

theorem requests_bounded_justified {timeout maxAttempts : Nat} (hone : 1 ≤ maxAttempts)
    {o : ReceiverLog} (h : (machine timeout maxAttempts).Reaches Clocked o) :
    (∀ seq, o.receiver.socket.count (rqstMessage seq) ≤ maxAttempts) ∧
      ∀ before seq time after, o.log = before ++ .requested seq time :: after →
        .received seq ∉ before ∧
        (∃ lo < seq, .received lo ∈ before) ∧ (∃ hi > seq, .received hi ∈ before) ∧
        ∀ first last between, before = first ++ .requested seq last :: between →
          (∀ time, .requested seq time ∉ between) →
          ∃ now, .dropped seq now ∈ between ∧ last + timeout < now ∧ now ≤ time := by
  have hrecorded := recorded_of_reaches hone h
  refine ⟨hrecorded.bounded, fun before seq time after hlog => ?_⟩
  obtain ⟨hnot, hlo, hhi, hlast⟩ := hrecorded.justified before _ after hlog
  refine ⟨hnot, hlo, hhi, fun first last between hbefore hnone => ?_⟩
  refine hlast last between ⟨rfl, ⟨first, hbefore⟩, fun e he hrequests => ?_⟩
  cases e with
  | requested n t =>
    cases hrequests
    exact hnone t he
  | received | dropped => contradiction

theorem requests_bounded_justified_twice :
    ∃ o, (machine 2000 3).Reaches Clocked o ∧ o.receiver.socket.count (rqstMessage 3) = 2 ∧
      ∃ now, now ≤ 3100 ∧ 100 + 2000 < now := by
  obtain ⟨o, ho, hlog, hcount⟩ := Machine.exists_reaches_of_replay
    (M := machine 2000 3) (C := Clocked)
    (P := fun o => o.log = [.received 2, .received 4] ++ .requested 3 100 :: [.dropped 3 3000,
        .received 2] ++ .requested 3 3100 :: [] ∧
      o.receiver.socket.count (rqstMessage 3) = 2)
    [.recvFrom (some (dataMessage 2 "a")), .ack true, .check 0 [],
      .recvFrom (some (dataMessage 4 "b")), .ack true, .request true 100, .check 100 [],
      .recvFrom none, .check 3000 [3], .recvFrom (some (dataMessage 2 "a")), .ack true,
      .request true 3100] (by decide)
  obtain ⟨-, -, -, hlast⟩ := (requests_bounded_justified (by decide) ho).2 _ _ _ _ hlog
  obtain ⟨now, -, hlate, htime⟩ := hlast _ _ _ rfl (by simp)
  exact ⟨o, ho, hcount, now, htime, hlate⟩

end ReceiverLog

end BdsPro.Udp.Bin
