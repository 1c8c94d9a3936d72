import BdsPro.Network.ProtocolLaws
import BdsPro.Network.Sender.LedgerLaws

namespace BdsPro.Network.Sender

open BdsPro.Library

namespace ChannelHandler

theorem poll_of_step {h t : ChannelHandler} (hs : h.step e = some t) :
    FramedWrite.Poll requestCodec h.writer t.writer := by
  by_cases he : e = .cancel
  · subst he
    exact Option.some.inj hs ▸ .idle
  · exact (polls_of_step hs he).poll

theorem Quiet.lookup_none {h t : ChannelHandler} (hq : h.Quiet e t) (ha : answers e = some seq) :
    h.waitForAck.lookup seq = none := by
  have hrecord := hq.record .empty
  unfold answers at ha
  split at ha
  next =>
    have hacked := hrecord.2.1
    cases ha
    exact Option.toList_eq_nil_iff.mp hacked
  next =>
    have hnacked := hrecord.2.2
    cases ha
    exact Option.toList_eq_nil_iff.mp hnacked
  next => contradiction

def Covers (h : ChannelHandler) (l : List (TupleBuffer × Nat)) : Prop :=
  ∀ k b, h.sentEntries.lookup k = some b → ∃ p ∈ l, p.1 = b

theorem mem_ledger {h t : ChannelHandler} {l : List (TupleBuffer × Nat)}
    {p : TupleBuffer × Nat} (hp : p ∈ l) (ha : answers e ≠ some p.1.sequence) :
    p ∈ h.ledger e t l :=
  List.mem_append_left _ (List.mem_filter.mpr ⟨hp, decide_eq_true ha⟩)

theorem Covers.keep {h t : ChannelHandler} (hc : h.Covers l)
    (hentries : ∀ k b, t.sentEntries.lookup k = some b →
      h.sentEntries.lookup k = some b ∧ answers e ≠ some b.sequence) :
    t.Covers (h.ledger e t l) := by
  intro k b hl
  obtain ⟨hl, ha⟩ := hentries k b hl
  obtain ⟨p, hp, rfl⟩ := hc k b hl
  exact ⟨p, mem_ledger hp ha, rfl⟩

theorem Covers.accept {h t : ChannelHandler} (hc : h.Covers l) (hk : h.Keyed)
    (hf : h.feeding = some b) (he : answers e = none)
    (hdata : t.acceptedData = h.acceptedData ++ [b]) (ht : t.sentEntries = h.waitForAck) :
    t.Covers (h.ledger e t l) := by
  intro k b' hl
  rw [ht] at hl
  by_cases hkey : k = b.sequence
  · rw [hkey, hk.current b hf, Option.some.injEq] at hl
    refine ⟨(b, h.acceptedData.length), List.mem_append_right _ ?_, hl⟩
    rw [hdata, drop_zipIdx_concat]
    exact List.mem_singleton_self _
  · have hsent : h.sentEntries.lookup k = some b' := by
      rw [sentEntries_of_feeding hf, Map.lookup_erase, if_neg hkey, hl]
    obtain ⟨p, hp, hb⟩ := hc k b' hsent
    exact ⟨p, mem_ledger hp (by simp [he]), hb⟩

theorem Covers.step {h t : ChannelHandler} (hc : h.Covers l) (hk : h.Keyed)
    (hu : h.dropsSend e = false) (hs : h.Step e t) (hlive : t.live = true) :
    t.Covers (h.ledger e t l) := by
  cases hs with
  | cancel => exact hc.keep fun k b hl => ⟨hl, by simp [answers]⟩
  | quiet quiet =>
    refine hc.keep fun k b hl => ?_
    rw [sentEntries_of_none quiet.feeding, quiet.waitForAck] at hl
    rw [sentEntries_of_none (quiet.not_feeding hu hlive)]
    refine ⟨hl, fun ha => ?_⟩
    rw [hk.keyed k b hl] at ha
    rw [quiet.lookup_none ha] at hl
    contradiction
  | data phase =>
    have hnone : h.feeding = none := Option.isNone_iff_eq_none.mp (by simpa [dropsSend] using hu)
    refine hc.keep fun k b hl => ⟨?_, by simp [answers]⟩
    rw [sentEntries_of_none hnone]
    exact hl
  | ack phase entry | nack phase entry =>
    refine hc.keep fun k b hl => ?_
    rw [sentEntries_of_none rfl] at hl
    rw [sentEntries_of_none (not_feeding_of_answer entry hu)]
    obtain ⟨hne, hl⟩ := Map.lookup_of_erase hl
    exact ⟨hl, fun ha => hne ((hk.keyed k b hl).symm.trans (Option.some.inj ha).symm)⟩
  | accept phase ready fed =>
    exact hc.accept hk (feeding_of_phase phase) rfl (acceptedData_of_startSend ready fed) rfl
  | block phase ready => exact hc.keep fun k b hl => ⟨hl, by simp [answers]⟩
  | putBack phase ready entry =>
    refine hc.keep fun k b hl => ⟨?_, by simp [answers]⟩
    rw [sentEntries_of_feeding (feeding_of_phase phase)]
    exact hl

theorem Covers.start {h h' : ChannelHandler} (hc : h.Covers l) (hs : h.Start h')
    (hkeeps : h.collides (.sendPending io) = false) : h'.Covers l := by
  unfold Covers
  rw [hs.sentEntries hkeeps]
  exact hc

theorem Covers.sent_size_le {h : ChannelHandler} (hc : h.Covers l) (hk : h.Keyed) :
    h.sentEntries.size ≤ l.length := by
  rw [← List.length_map fun p : TupleBuffer × Nat => p.1.sequence]
  refine Map.size_le_length fun k b hl => ?_
  obtain ⟨p, hp, rfl⟩ := hc k b hl
  exact List.mem_map.mpr ⟨p, hp, hk.keyed k _ (entry_of_sent hl)⟩

theorem Covers.size_le {h : ChannelHandler} (hc : h.Covers l) (hk : h.Keyed) :
    h.waitForAck.size ≤ l.length + 1 := by
  have hsent := hc.sent_size_le hk
  cases hf : h.feeding with
  | none =>
    rw [sentEntries_of_none hf] at hsent
    omega
  | some b =>
    rw [sentEntries_of_feeding hf] at hsent
    have := Map.size_erase (hk.current b hf)
    omega

theorem size_le_of_dead {h t : ChannelHandler} (ho : h.Outstanding l) (hs : h.Step e t)
    (hdead : t.live = false) (hsize : h.waitForAck.size ≤ l.length + 1) :
    t.waitForAck.size ≤ (h.ledger e t l).length + 1 := by
  have hlength (ha : ∀ p ∈ l, answers e ≠ some p.1.sequence) :
      l.length ≤ (h.ledger e t l).length := by
    rw [ledger, List.filter_eq_self.mpr fun p hp => decide_eq_true (ha p hp), List.length_append]
    exact Nat.le_add_right _ _
  cases hs with
  | cancel => exact hsize.trans (Nat.add_le_add_right (hlength fun p _ => by simp [answers]) 1)
  | quiet quiet =>
    rw [quiet.waitForAck]
    refine hsize.trans (Nat.add_le_add_right (hlength fun p hp ha => ?_) 1)
    have hentry := entry_of_sent (ho.entries p hp)
    rw [quiet.lookup_none ha] at hentry
    contradiction
  | block phase ready => simp [live, phase] at hdead
  | data | ack | nack | accept | putBack => exact Bool.noConfusion hdead

end ChannelHandler

theorem ChannelRun.bounded_of_reaches {r : ChannelRun} (h : ChannelRun.machine.Reachable r) :
    r.handler.writer.Bounded requestCodec := by
  refine h.invariant (I := fun r => r.handler.writer.Bounded requestCodec)
    (.new (by decide)) fun r e t _ ih _ hs => ?_
  exact ih.poll (ChannelHandler.poll_of_step (ChannelRun.step_eq_some hs).1)

namespace AckLedger

structure Covered (l : AckLedger) : Prop where
  live : l.run.handler.live = true → l.run.handler.Covers l.unanswered
  size : l.run.handler.waitForAck.size ≤ l.unanswered.length + 1

theorem Covered.step {l t : AckLedger} (hc : l.Covered)
    (ho : l.run.handler.Outstanding l.unanswered) (hk : l.run.handler.Keyed)
    (hkeeps : l.run.KeepsEntries e) (hu : l.run.Uninterrupted e) (hs : l.step e = some t) :
    t.Covered := by
  obtain ⟨hstep, hledger⟩ := step_eq_some hs
  obtain ⟨hstep, -⟩ := ChannelRun.step_eq_some hstep
  have hkeyed : t.run.handler.Keyed :=
    ChannelHandler.keep_step hk hstep (fun _ => hk.start) fun _ hk => hk.step
  have hlive (hlive : t.run.handler.live = true) : t.run.handler.Covers t.unanswered := by
    have hcovers := hc.live (ChannelHandler.live_of_step hstep hlive)
    rw [hledger]
    cases ChannelHandler.step_cases hstep with
    | inl hs => exact hcovers.step hk hu hs hlive
    | inr hs =>
      obtain ⟨h', hstart, hs, io, rfl⟩ := hs
      have ht := (hcovers.start hstart hkeeps).step (hk.start hstart) rfl hs hlive
      rw [ChannelHandler.ledger, hstart.acceptedData] at ht
      exact ht
  refine ⟨hlive, ?_⟩
  cases hl : t.run.handler.live with
  | true => exact (hlive hl).size_le hkeyed
  | false =>
    rw [hledger]
    cases ChannelHandler.step_cases hstep with
    | inl hs => exact ChannelHandler.size_le_of_dead ho hs hl hc.size
    | inr hs =>
      obtain ⟨h', hstart, hs, io, rfl⟩ := hs
      exact Bool.noConfusion ((ChannelHandler.sendPending_live hstep).symm.trans hl)

theorem covered_of_reaches {l : AckLedger} (h : machine.Reaches Undisturbed l) : l.Covered := by
  refine h.invariant ?_ fun l e t hr ih hu hs => ?_
  · exact ⟨fun _ => by rintro k b ⟨⟩, Nat.zero_le _⟩
  · have hfresh := hr.mono fun _ _ hu => hu.1
    obtain ⟨hkeeps, hd⟩ := ChannelRun.keepsEntries_of_fresh (run_reaches hfresh)
    have hk := ChannelRun.keyed_of_reaches hkeeps.reachable
    have hb := ChannelRun.balanced_of_reaches hkeeps
    exact ih.step (outstanding_of_reaches hfresh) hk
      (ChannelRun.keepsEntries_of_distinct hk hb hd e) hu.2 hs

theorem length_le_of_bounds {l : List Nat} {a b : Nat} (hn : l.Nodup)
    (h : ∀ i ∈ l, a ≤ i ∧ i < b) : l.length ≤ b - a := by
  have hsub : l ⊆ List.range' a (b - a) := fun i hi => by
    have := h i hi
    exact List.mem_range'_1.mpr (by omega)
  exact (List.subperm_of_subset hn hsub).length_le.trans_eq List.length_range'

theorem buffered_data_le {w : FramedWrite DataChannelRequest} (hb : w.Bounded requestCodec) :
    (w.buffer.filterMap DataChannelRequest.buffer).length ≤ 57 := by
  have hframe : ∀ r : DataChannelRequest, r.buffer.isSome = true →
      minDataFrame ≤ requestCodec.frameLen r := by
    intro r hr
    cases r with
    | data b => exact minDataFrame_le b
    | close => contradiction
  have hlt := hb.countP_lt hframe
  have hboundary : requestCodec.boundary = 8192 := rfl
  rw [hboundary, minDataFrame] at hlt
  rw [List.length_filterMap_eq_countP]
  omega

theorem length_le_flushed {l : AckLedger} (ho : l.run.handler.Outstanding l.unanswered)
    (hb : l.run.handler.writer.Bounded requestCodec) :
    l.unanswered.length ≤ l.flushed.length + 57 := by
  have hbuffered := buffered_data_le hb
  have haccepted : l.run.handler.acceptedData.length = l.run.handler.sentData.length +
      (l.run.handler.writer.buffer.filterMap DataChannelRequest.buffer).length := by
    rw [ChannelHandler.acceptedData, FramedWrite.accepted, List.filterMap_append,
      List.length_append, ChannelHandler.sentData]
  have hsplit := l.unanswered.length_eq_length_filter_add fun p =>
    p.2 < l.run.handler.sentData.length
  have hnodup := ho.positions_nodup.sublist
    ((List.filter_sublist (p := fun p => !decide (p.2 < l.run.handler.sentData.length))).map _)
  have hbounds := length_le_of_bounds (a := l.run.handler.sentData.length)
    (b := l.run.handler.acceptedData.length) hnodup fun i hi => by
      obtain ⟨p, hp, rfl⟩ := List.mem_map.mp hi
      obtain ⟨hp, hlt⟩ := List.mem_filter.mp hp
      have hpos := (List.getElem?_eq_some_iff.mp (ho.position p hp)).1
      simp only [Bool.not_eq_true', decide_eq_false_iff_not] at hlt
      omega
  rw [List.length_map] at hbounds
  rw [flushed]
  omega

theorem full_window_flushed {l : AckLedger} (h : machine.Reaches Undisturbed l)
    (hfull : l.run.handler.waitForAck.size = maxPendingAcks) :
    ∃ p ∈ l.flushed, l.run.handler.acceptedData[p.2]? = some p.1 ∧
      l.run.handler.waitForAck.lookup p.1.sequence = some p.1 := by
  have hfresh := h.mono fun _ _ hu => hu.1
  have ho := outstanding_of_reaches hfresh
  have hbounded := ChannelRun.bounded_of_reaches (run_reaches hfresh).reachable
  have hsize := (covered_of_reaches h).size
  have hlength := length_le_flushed ho hbounded
  rw [hfull, maxPendingAcks] at hsize
  obtain ⟨p, hp⟩ := List.exists_mem_of_length_pos (l := l.flushed) (by omega)
  have hmem := (List.mem_filter.mp hp).1
  exact ⟨p, hp, ho.position p hmem, ChannelHandler.entry_of_sent (ho.entries p hmem)⟩

def sendAll (n : Nat) : List ChannelHandler.Event :=
  (List.range n).flatMap fun i =>
    [.advance, .request (some (.data (exampleBuffer i []))), .advance, .sendPending .complete]

theorem full_window_flushed_shortest :
    ∃ l, machine.Reaches Undisturbed l ∧ l.run.handler.waitForAck.size = maxPendingAcks ∧
      l.flushed ≠ [] := by
  obtain ⟨l, hl, hfull⟩ := Machine.exists_reaches_of_replay (M := machine) (C := Undisturbed)
    (P := fun l => l.run.handler.waitForAck.size = maxPendingAcks) (sendAll maxPendingAcks)
    (by decide +kernel)
  obtain ⟨p, hp, -⟩ := full_window_flushed hl hfull
  exact ⟨l, hl, hfull, List.ne_nil_of_mem hp⟩

end AckLedger

end BdsPro.Network.Sender
