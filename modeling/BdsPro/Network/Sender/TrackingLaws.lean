import BdsPro.Library.Table
import BdsPro.Network.Sender.AckLedger
import BdsPro.Network.Sender.ChannelLaws

namespace BdsPro.Network.Sender

open BdsPro.Library

namespace ChannelHandler

structure Keyed (h : ChannelHandler) : Prop where
  keyed : ∀ k b, h.waitForAck.lookup k = some b → b.sequence = k
  current : ∀ b, h.feeding = some b → h.waitForAck.lookup b.sequence = some b

theorem Keyed.start {h h' : ChannelHandler} (hk : h.Keyed) (hs : h.Start h') : h'.Keyed := by
  cases hs with
  | intro b rest phase pending =>
    constructor
    · intro k b' hb'
      rw [Map.lookup_insert] at hb'
      split at hb'
      next hkey => exact hkey ▸ (Option.some.inj hb' ▸ rfl)
      next => exact hk.keyed k b' hb'
    · rintro b' ⟨⟩
      exact Map.lookup_insert_self _ _ _

theorem Keyed.step {h t : ChannelHandler} (hk : h.Keyed) (hs : h.Step e t) : t.Keyed := by
  have herase {seq : Sequence} : ∀ k b, (h.waitForAck.erase seq).lookup k = some b →
      b.sequence = k := fun k b hb => hk.keyed k b (Map.lookup_of_erase hb).2
  cases hs with
  | cancel => exact ⟨hk.keyed, hk.current⟩
  | quiet quiet =>
    constructor
    · rw [quiet.waitForAck]
      exact hk.keyed
    · rw [quiet.feeding]
      rintro b ⟨⟩
  | data phase | accept phase ready fed => exact ⟨hk.keyed, by rintro b ⟨⟩⟩
  | ack phase entry | nack phase entry => exact ⟨herase, by rintro b ⟨⟩⟩
  | block phase ready => exact ⟨hk.keyed, hk.current⟩
  | putBack phase ready entry => exact ⟨herase, by rintro b ⟨⟩⟩

theorem keep_step {P : ChannelHandler → Prop} {h t : ChannelHandler} (hP : P h)
    (hs : h.step e = some t) (start : ∀ h', h.Start h' → P h')
    (step : ∀ h', P h' → h'.Step e t → P t) : P t := by
  cases step_cases hs with
  | inl hs => exact step h hP hs
  | inr hs =>
    obtain ⟨h', hstart, hs, -⟩ := hs
    exact step h' (start h' hstart) hs

theorem entry_of_sent {h : ChannelHandler} (hl : h.sentEntries.lookup k = some b) :
    h.waitForAck.lookup k = some b := by
  unfold sentEntries at hl
  split at hl
  next => exact (Map.lookup_of_erase hl).2
  next => exact hl

end ChannelHandler

theorem Trace.data_record (tr : Trace) (h : ChannelHandler) (e : ChannelHandler.Event) :
    (tr.record h e).data = tr.data ++ (ChannelHandler.takes e).toList := by
  unfold Trace.record
  split
  next m => exact Table.filterMap_concat _ _ _
  next => exact (List.append_nil _).symm
  next => exact (List.append_nil _).symm
  next hrequest _ _ =>
    cases e with
    | request m =>
      cases m with
      | none => exact (List.append_nil _).symm
      | some m => exact absurd rfl (hrequest m)
    | _ => exact (List.append_nil _).symm

namespace ChannelRun

theorem keyed_of_reaches {r : ChannelRun} (h : machine.Reachable r) : r.handler.Keyed := by
  refine h.invariant (I := fun r => r.handler.Keyed) ?_ fun r e t _ ih _ hs => ?_
  · exact ⟨by rintro k b ⟨⟩, by rintro b ⟨⟩⟩
  · exact ChannelHandler.keep_step ih (step_eq_some hs).1 (fun h' => ih.start)
      fun h' hk => hk.step

theorem balanced_of_reaches {r : ChannelRun} (h : machine.Reaches KeepsEntries r) :
    (r.handler.outbox r.trace).Balanced := by
  refine h.invariant (I := fun r => (r.handler.outbox r.trace).Balanced) rfl
    fun r e t _ ih hc hs => ?_
  obtain ⟨hstep, htrace⟩ := step_eq_some hs
  rw [htrace]
  exact ih.steps (Channel.outbox_step hstep hc)

theorem pending_ne_entry {r : ChannelRun} (hb : (r.handler.outbox r.trace).Balanced)
    (hd : (r.trace.data.map TupleBuffer.sequence).Nodup) (hp : b ∈ r.handler.pendingWrites)
    (hw : b' ∈ r.handler.waitForAck.values) : b.sequence ≠ b'.sequence := by
  have hbal : (r.trace.data : Multiset TupleBuffer) =
      r.handler.pendingWrites + r.handler.waitForAck.values + r.trace.acked := hb
  have hnodup : ((r.trace.data : Multiset TupleBuffer).map TupleBuffer.sequence).Nodup :=
    Multiset.coe_nodup.mpr hd
  rw [hbal, Multiset.map_add, Multiset.map_add] at hnodup
  have hdisjoint := (Multiset.nodup_add.mp (Multiset.nodup_add.mp hnodup).1).2.2
  intro heq
  exact Multiset.disjoint_left.mp hdisjoint
    (Multiset.mem_map_of_mem _ (Multiset.mem_coe.mpr hp)) (heq ▸ Multiset.mem_map_of_mem _ hw)

theorem keepsEntries_of_distinct {r : ChannelRun} (hk : r.handler.Keyed)
    (hb : (r.handler.outbox r.trace).Balanced)
    (hd : (r.trace.data.map TupleBuffer.sequence).Nodup) (e : ChannelHandler.Event) :
    r.KeepsEntries e := by
  unfold KeepsEntries ChannelHandler.collides
  split
  next io task b rest hphase hpending =>
    cases hl : r.handler.waitForAck.lookup b.sequence with
    | none => rfl
    | some b' =>
      have hmem : b ∈ r.handler.pendingWrites := hpending ▸ List.mem_cons_self
      exact absurd (hk.keyed _ _ hl).symm
        (pending_ne_entry hb hd hmem (Map.mem_values.mpr ⟨_, hl⟩))
  next => rfl

theorem distinct_append {l : List TupleBuffer} {taken : Option TupleBuffer}
    (hd : (l.map TupleBuffer.sequence).Nodup)
    (hf : ∀ b ∈ taken, b.sequence ∉ l.map TupleBuffer.sequence) :
    ((l ++ taken.toList).map TupleBuffer.sequence).Nodup := by
  rw [List.map_append, List.nodup_append]
  refine ⟨hd, ?_, fun seq hseq seq' hseq' heq => ?_⟩
  · cases taken with
    | none => exact List.nodup_nil
    | some b => exact List.nodup_singleton _
  · obtain ⟨b, hb, rfl⟩ := List.mem_map.mp hseq'
    exact hf b (Option.mem_toList.mp hb) (heq ▸ hseq)

theorem keepsEntries_of_fresh {r : ChannelRun} (h : machine.Reaches FreshKey r) :
    machine.Reaches KeepsEntries r ∧ (r.trace.data.map TupleBuffer.sequence).Nodup := by
  induction h with
  | init => exact ⟨.init, List.nodup_nil⟩
  | @step r e t hr hf hs ih =>
    obtain ⟨hkeeps, hd⟩ := ih
    have hc := keepsEntries_of_distinct (keyed_of_reaches hr.reachable)
      (balanced_of_reaches hkeeps) hd e
    refine ⟨.step hkeeps hc hs, ?_⟩
    rw [(step_eq_some hs).2, Trace.data_record]
    exact distinct_append hd hf

end ChannelRun

end BdsPro.Network.Sender
