import BdsPro.Network.Sender.ChannelHandlerLaws

namespace BdsPro.Network.Sender

open BdsPro.Library

namespace ChannelRun

/-- The buffers taken from the queue are those `popped` by `send_pending`, followed by
`pending_writes`.  The writer has accepted some of the popped ones, in their order, and
if `P`, each of them is tracked until it is delivered, which is what `Q` says. -/
structure InOrder (P : Prop) (Q : TupleBuffer → Prop) (r : ChannelRun)
    (popped : List TupleBuffer) : Prop where
  data : r.trace.data = popped ++ r.handler.pendingWrites
  accepted : ∃ l, popped = l ++ r.handler.feeding.toList ∧ r.handler.acceptedData.Sublist l
  tracked : P → ∀ b ∈ popped, r.handler.waitForAck.lookup b.sequence = some b ∨ Q b
  current : ∀ b, r.handler.feeding = some b → r.handler.waitForAck.lookup b.sequence = some b

theorem InOrder.mono {P : Prop} {r : ChannelRun} (h : r.InOrder P Q popped)
    (hQR : ∀ b, Q b → R b) : r.InOrder P R popped :=
  { h with tracked := fun hP b hb => (h.tracked hP b hb).imp_right (hQR b) }

theorem InOrder.sublist {P : Prop} {r : ChannelRun} (h : r.InOrder P Q popped) :
    r.handler.acceptedData.Sublist popped := by
  obtain ⟨l, hl, hacc⟩ := h.accepted
  exact hl ▸ hacc.trans (List.sublist_append_left _ _)

theorem sequence_ne {l l' : List TupleBuffer} (h : ((l ++ l').map TupleBuffer.sequence).Nodup)
    (hb : b ∈ l) (hb' : b' ∈ l') : b.sequence ≠ b'.sequence := by
  rw [List.map_append, List.nodup_append] at h
  exact h.2.2 _ (List.mem_map_of_mem hb) _ (List.mem_map_of_mem hb')

theorem InOrder.start {P : Prop} {h h' : ChannelHandler} (ho : InOrder P Q ⟨h, tr⟩ popped)
    (hd : P → (tr.data.map TupleBuffer.sequence).Nodup) (hs : h.Start h') :
    ∃ popped', InOrder P Q ⟨h', tr⟩ popped' := by
  cases hs with
  | intro b rest phase pending =>
    have hdata : tr.data = popped ++ b :: rest := pending ▸ ho.data
    obtain ⟨l, hl, hacc⟩ := ho.accepted
    simp only [ChannelHandler.feeding, phase, Option.toList_none, List.append_nil] at hl
    refine ⟨popped ++ [b], ?_, ⟨popped, rfl, hl ▸ hacc⟩, fun hP x hx => ?_, ?_⟩
    · exact hdata.trans (List.append_assoc popped [b] rest).symm
    · rw [Map.lookup_insert]
      obtain hx | hx := List.mem_append.mp hx
      · rw [if_neg (sequence_ne (hdata ▸ hd hP) hx List.mem_cons_self)]
        exact ho.tracked hP x hx
      · rw [List.mem_singleton.mp hx, if_pos rfl]
        exact .inl rfl
    · rintro _ ⟨⟩
      exact Map.lookup_insert_self _ _ _

theorem InOrder.step {P : Prop} {h t : ChannelHandler} (ho : InOrder P Q ⟨h, tr⟩ popped)
    (hd : P → (tr.data.map TupleBuffer.sequence).Nodup)
    (hack : P → ∀ seq, e = .response (some (.ok (.ackData seq))) →
      ∀ b ∈ popped, b.sequence = seq → Q b)
    (hnack : ∀ seq, e ≠ .response (some (.ok (.nackData seq)))) (hs : h.Step e t) :
    ∃ popped', InOrder P Q ⟨t, tr.record h e⟩ popped' := by
  cases hs with
  | cancel => exact ⟨popped, { ho with }⟩
  | quiet quiet =>
    refine ⟨popped, ?_, ⟨popped, ?_, ?_⟩, ?_, ?_⟩
    · rw [(quiet.record tr).1, quiet.pendingWrites]
      exact ho.data
    · rw [quiet.feeding, Option.toList_none, List.append_nil]
    · rw [quiet.acceptedData]
      exact ho.sublist
    · rw [quiet.waitForAck]
      exact ho.tracked
    · rw [quiet.feeding]
      rintro _ ⟨⟩
  | data phase =>
    refine ⟨popped, ?_, ⟨popped, (List.append_nil _).symm, ho.sublist⟩, ho.tracked, by rintro _ ⟨⟩⟩
    rw [← List.append_assoc, ← ho.data]
    exact List.filterMap_append
  | @ack _ _ seq b phase entry =>
    refine ⟨popped, ho.data, ⟨popped, (List.append_nil _).symm, ho.sublist⟩, fun hP x hx => ?_,
      by rintro _ ⟨⟩⟩
    rw [Map.lookup_erase]
    split
    next hseq => exact .inr (hack hP _ rfl x hx hseq)
    next => exact ho.tracked hP x hx
  | nack phase entry => exact absurd rfl (hnack _)
  | accept phase ready fed =>
    obtain ⟨l, hl, hacc⟩ := ho.accepted
    rw [ChannelHandler.feeding_of_phase phase, Option.toList_some] at hl
    refine ⟨popped, ho.data, ⟨popped, (List.append_nil _).symm, ?_⟩, ho.tracked, by rintro _ ⟨⟩⟩
    rw [ChannelHandler.acceptedData_of_startSend ready fed, hl]
    exact hacc.append_right _
  | block phase ready =>
    obtain ⟨l, hl, hacc⟩ := ho.accepted
    refine ⟨popped, { ho with accepted := ⟨l, hl, ?_⟩ }⟩
    rw [ChannelHandler.acceptedData_of_progress ready]
    exact hacc
  | putBack phase ready entry =>
    have hfeed := ChannelHandler.feeding_of_phase phase
    obtain ⟨l, hl, hacc⟩ := ho.accepted
    rw [hfeed, Option.toList_some] at hl
    have hwrite := Option.some.inj ((ho.current _ hfeed).symm.trans entry)
    subst hwrite hl
    refine ⟨l, ho.data.trans (List.append_assoc _ _ _), ⟨l, (List.append_nil _).symm, ?_⟩,
      fun hP x hx => ?_, by rintro _ ⟨⟩⟩
    · rw [ChannelHandler.acceptedData_of_progress ready]
      exact hacc
    · rw [Map.lookup_erase, if_neg]
      · exact ho.tracked hP x (List.mem_append_left _ hx)
      · have hdata := ho.data
        rw [List.append_assoc] at hdata
        exact sequence_ne (hdata ▸ hd hP) hx List.mem_cons_self

def taskHandle : Task → Option Nat
  | .run => none
  | .flush done => some done

def handle : Phase → Option Nat
  | .head task | .selecting task _ => taskHandle task
  | .flushing done => some done
  | _ => none

def FlushLast (r : ChannelRun) : Prop :=
  ∀ done, handle r.handler.phase = some done → ∃ l, r.trace.taken = l ++ [.flush done]

theorem FlushLast.step {r t : ChannelRun} (h : r.FlushLast) (hs : r.step e = some t) :
    t.FlushLast := by
  obtain ⟨hstep, htrace⟩ := step_eq_some hs
  have hnext := ChannelHandler.next_of_step hstep
  intro done hdone
  rw [htrace]
  have hr := h done
  generalize r.handler.phase = p at hnext hr
  generalize t.handler.phase = q at hnext hdone
  cases hnext with
  | cancel | flushMore | flushing | flushed | sent | feeding => exact hr hdone
  | @response task _ r' =>
    have htaken : (r.trace.record r.handler (.response r')).taken = r.trace.taken := by
      unfold Trace.record
      split <;> first | rfl | contradiction
    exact htaken ▸ hr hdone
  | flush =>
    cases hdone
    exact ⟨_, rfl⟩
  | select | flushDone | data | terminate | closing => exact nomatch hdone
  | ended => exact nomatch hdone

end ChannelRun

theorem ChannelHandler.wire_of_step {h t : ChannelHandler} (hs : h.step e = some t) :
    h.writer.wire <+: t.writer.wire := by
  have hstep {h' : ChannelHandler} (hs : h'.Step e t) : h'.writer.wire <+: t.writer.wire := by
    cases hs with
    | cancel | data | ack | nack => exact List.prefix_rfl
    | quiet quiet => exact quiet.wire
    | accept phase ready fed => exact (FramedWrite.startSend_eq_some fed).2 ▸ ready.wire
    | block phase ready => exact ready.wire
    | putBack phase ready entry => exact ready.wire
  cases step_cases hs with
  | inl hs => exact hstep hs
  | inr hs =>
    obtain ⟨h', ⟨b, rest, phase, pending⟩, hs, -⟩ := hs
    have hwire := hstep hs
    exact hwire

end BdsPro.Network.Sender
