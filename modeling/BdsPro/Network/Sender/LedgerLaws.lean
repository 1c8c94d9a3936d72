import BdsPro.Network.Sender.WindowLaws

namespace BdsPro.Network.Sender

open BdsPro.Library

theorem drop_zipIdx (l : List α) : l.zipIdx.drop l.length = [] :=
  List.drop_eq_nil_of_le (Nat.le_of_eq List.length_zipIdx)

theorem drop_zipIdx_concat (l : List α) (a : α) :
    (l ++ [a]).zipIdx.drop l.length = [(a, l.length)] := by
  rw [List.zipIdx_append, List.drop_left' List.length_zipIdx, List.zipIdx_singleton, Nat.zero_add]

namespace ChannelHandler

theorem Start.sentEntries {h h' : ChannelHandler} (hs : h.Start h')
    (hc : h.collides (.sendPending io) = false) : h'.sentEntries = h.sentEntries := by
  cases hs with
  | intro b rest phase pending =>
    simp only [collides, phase, pending, Option.isSome_eq_false_iff,
      Option.isNone_iff_eq_none] at hc
    have hnone : h.feeding = none := by simp only [feeding, phase]
    rw [sentEntries_of_feeding rfl, Map.erase_insert, Map.erase_of_none hc,
      sentEntries_of_none hnone]

structure Outstanding (h : ChannelHandler) (l : List (TupleBuffer × Nat)) : Prop where
  entries : ∀ p ∈ l, h.sentEntries.lookup p.1.sequence = some p.1
  distinct : (l.map fun p => p.1.sequence).Nodup
  position : ∀ p ∈ l, h.acceptedData[p.2]? = some p.1

theorem Outstanding.positions_nodup {h : ChannelHandler} (ho : h.Outstanding l) :
    (l.map Prod.snd).Nodup := by
  refine ho.distinct.of_map.map_on fun p hp q hq heq => ?_
  have hsame := (ho.position p hp).symm.trans (heq ▸ ho.position q hq)
  exact Prod.ext (Option.some.inj hsame) heq

def ledger (h : ChannelHandler) (e : Event) (t : ChannelHandler) (l : List (TupleBuffer × Nat)) :
    List (TupleBuffer × Nat) :=
  l.filter (fun p => answers e ≠ some p.1.sequence) ++
    t.acceptedData.zipIdx.drop h.acceptedData.length

theorem Outstanding.keep {h t : ChannelHandler} (ho : h.Outstanding l)
    (hdata : t.acceptedData = h.acceptedData)
    (hentries : ∀ p : TupleBuffer × Nat, answers e ≠ some p.1.sequence →
      h.sentEntries.lookup p.1.sequence = some p.1 →
        t.sentEntries.lookup p.1.sequence = some p.1) :
    t.Outstanding (h.ledger e t l) := by
  have hledger : h.ledger e t l = l.filter fun p => answers e ≠ some p.1.sequence := by
    rw [ledger, hdata, drop_zipIdx, List.append_nil]
  rw [hledger]
  refine ⟨fun p hp => ?_, ?_, fun p hp => ?_⟩
  · obtain ⟨hp, ha⟩ := List.mem_filter.mp hp
    exact hentries p (of_decide_eq_true ha) (ho.entries p hp)
  · exact ho.distinct.sublist (List.filter_sublist.map _)
  · rw [hdata]
    exact ho.position p (List.mem_filter.mp hp).1

theorem Outstanding.accept {h t : ChannelHandler} (ho : h.Outstanding l) (hk : h.Keyed)
    (hf : h.feeding = some b) (he : answers e = none)
    (hdata : t.acceptedData = h.acceptedData ++ [b]) (ht : t.sentEntries = h.waitForAck) :
    t.Outstanding (h.ledger e t l) := by
  have hledger : h.ledger e t l = l ++ [(b, h.acceptedData.length)] := by
    rw [ledger, hdata, drop_zipIdx_concat, he]
    simp
  rw [hledger]
  refine ⟨fun p hp => ?_, ?_, fun p hp => ?_⟩
  · rw [ht]
    cases List.mem_append.mp hp with
    | inl hp => exact entry_of_sent (ho.entries p hp)
    | inr hp => exact List.mem_singleton.mp hp ▸ hk.current b hf
  · rw [List.map_append, List.nodup_append]
    refine ⟨ho.distinct, List.nodup_singleton _, fun k hkey k' hkey' heq => ?_⟩
    obtain ⟨p, hp, rfl⟩ := List.mem_map.mp hkey
    have hentry := ho.entries p hp
    rw [sentEntries_of_feeding hf] at hentry
    exact (Map.lookup_of_erase hentry).1 (heq.trans (List.mem_singleton.mp hkey'))
  · rw [hdata]
    cases List.mem_append.mp hp with
    | inl hp =>
      rw [List.getElem?_append_left (List.getElem?_eq_some_iff.mp (ho.position p hp)).1]
      exact ho.position p hp
    | inr hp => exact List.mem_singleton.mp hp ▸ List.getElem?_concat_length

theorem Start.acceptedData {h h' : ChannelHandler} (hs : h.Start h') :
    h'.acceptedData = h.acceptedData := by
  cases hs with
  | intro b rest phase pending => rfl

theorem Outstanding.start {h h' : ChannelHandler} (ho : h.Outstanding l) (hs : h.Start h')
    (hc : h.collides (.sendPending io) = false) : h'.Outstanding l where
  entries := hs.sentEntries hc ▸ ho.entries
  distinct := ho.distinct
  position := hs.acceptedData ▸ ho.position

theorem Outstanding.step {h t : ChannelHandler} (ho : h.Outstanding l) (hk : h.Keyed)
    (hs : h.Step e t) : t.Outstanding (h.ledger e t l) := by
  cases hs with
  | cancel => exact ho.keep rfl fun _ _ h => h
  | quiet quiet =>
    refine ho.keep quiet.acceptedData fun p _ hp => ?_
    rw [sentEntries_of_none quiet.feeding, quiet.waitForAck]
    exact entry_of_sent hp
  | data phase =>
    exact ho.keep rfl fun p _ hp => entry_of_sent (h := h) hp
  | ack phase entry | nack phase entry =>
    refine ho.keep rfl fun p hne hp => ?_
    rw [sentEntries_of_none rfl, Map.lookup_erase, if_neg fun heq => hne (congrArg some heq.symm)]
    exact entry_of_sent hp
  | accept phase ready fed =>
    exact ho.accept hk (feeding_of_phase phase) rfl (acceptedData_of_startSend ready fed) rfl
  | block phase ready => exact ho.keep (acceptedData_of_progress ready) fun _ _ h => h
  | putBack phase ready entry =>
    refine ho.keep (acceptedData_of_progress ready) fun p _ hp => ?_
    rw [sentEntries_of_feeding (feeding_of_phase phase)] at hp
    exact hp

end ChannelHandler

namespace AckLedger

theorem step_eq_some {l t : AckLedger} (hs : l.step e = some t) :
    l.run.step e = some t.run ∧
      t.unanswered = l.run.handler.ledger e t.run.handler l.unanswered := by
  simp only [step, Option.map_eq_some_iff] at hs
  obtain ⟨r, hr, rfl⟩ := hs
  exact ⟨hr, rfl⟩

theorem run_reaches {C : ChannelRun → ChannelHandler.Event → Prop} {l : AckLedger}
    (h : machine.Reaches (fun l e => C l.run e) l) : ChannelRun.machine.Reaches C l.run := by
  induction h with
  | init => exact .init
  | step _ hC hs ih => exact ih.step hC (step_eq_some hs).1

theorem outstanding_step {l t : AckLedger} (ho : l.run.handler.Outstanding l.unanswered)
    (hk : l.run.handler.Keyed) (hc : l.run.KeepsEntries e) (hs : l.step e = some t) :
    t.run.handler.Outstanding t.unanswered := by
  obtain ⟨hstep, hledger⟩ := step_eq_some hs
  rw [hledger]
  cases ChannelHandler.step_cases (ChannelRun.step_eq_some hstep).1 with
  | inl hs => exact ho.step hk hs
  | inr hs =>
    obtain ⟨h', hstart, hs, io, rfl⟩ := hs
    have ht := (ho.start hstart hc).step (hk.start hstart) hs
    rw [ChannelHandler.ledger, hstart.acceptedData] at ht
    exact ht

theorem outstanding_of_reaches {l : AckLedger} (h : machine.Reaches FreshKey l) :
    l.run.handler.Outstanding l.unanswered := by
  refine h.invariant (I := fun l => l.run.handler.Outstanding l.unanswered) ?_
    fun l e t hr ih _ hs => ?_
  · exact ⟨by rintro p ⟨⟩, List.nodup_nil, by rintro p ⟨⟩⟩
  · obtain ⟨hkeeps, hd⟩ := ChannelRun.keepsEntries_of_fresh (run_reaches hr)
    have hk := ChannelRun.keyed_of_reaches hkeeps.reachable
    have hb := ChannelRun.balanced_of_reaches hkeeps
    exact outstanding_step ih hk (ChannelRun.keepsEntries_of_distinct hk hb hd e) hs

theorem ack_window {l : AckLedger} (h : machine.Reaches FreshKey l) :
    l.run.handler.waitForAck.size ≤ maxPendingAcks ∧
      (∀ k b, l.run.handler.waitForAck.lookup k = some b → k = b.sequence) ∧
      (∀ b ∈ l.run.handler.pendingWrites, b ∉ l.run.handler.waitForAck.values) ∧
      l.unanswered.length ≤ maxPendingAcks := by
  obtain ⟨hkeeps, hd⟩ := ChannelRun.keepsEntries_of_fresh (run_reaches h)
  have hk := ChannelRun.keyed_of_reaches hkeeps.reachable
  have hsize := (ChannelRun.windowed_of_reaches hkeeps.reachable).size
  have ho := outstanding_of_reaches h
  refine ⟨hsize, fun k b hl => (hk.keyed k b hl).symm, fun b hp hw => ?_, ?_⟩
  · exact ChannelRun.pending_ne_entry (ChannelRun.balanced_of_reaches hkeeps) hd hp hw rfl
  · refine le_trans ?_ hsize
    rw [← List.length_map fun p : TupleBuffer × Nat => p.1.sequence]
    refine Map.length_le_size ho.distinct fun k hkey => ?_
    obtain ⟨p, hp, rfl⟩ := List.mem_map.mp hkey
    exact ⟨p.1, ChannelHandler.entry_of_sent (ho.entries p hp)⟩

theorem ack_window_after_nack :
    ∃ l, machine.Reaches FreshKey l ∧ l.run.trace.nacked ≠ [] ∧ l.unanswered ≠ [] ∧
      l.unanswered.length ≤ maxPendingAcks := by
  obtain ⟨l, hl, hnacked, hunanswered⟩ := Machine.exists_reaches_of_replay (M := machine)
    (C := FreshKey) (P := fun l => l.run.trace.nacked ≠ [] ∧ l.unanswered ≠ [])
    [.advance, .request (some (.data (exampleBuffer 1 (List.replicate 2048 255)))), .advance,
      .sendPending .complete, .advance, .response (some (.ok (.nackData (1, 0)))), .advance,
      .sendPending .complete, .advance, .request (some (.data (exampleBuffer 2 []))), .advance,
      .sendPending (.blocked 0), .request (some (.flush 0))] (by decide +kernel)
  exact ⟨l, hl, hnacked, hunanswered, (ack_window hl).2.2.2⟩

end AckLedger

end BdsPro.Network.Sender
