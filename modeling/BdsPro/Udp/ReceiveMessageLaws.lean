import BdsPro.Udp.ReceiveMessage

namespace BdsPro.Udp.UdpReceiver

open BdsPro.Library

theorem replay_receiveSteps (r : UdpReceiver) (m : Message) (answered : Bool) :
    (machine config).replay (fun _ _ => True) r (r.receiveSteps m answered) =
      some { (r.receiveMessageAlone m.fromSlice ⟨true, true, answered⟩).2 with
        calls := r.calls ++
          [.returned (r.receiveMessageAlone m.fromSlice ⟨true, true, answered⟩).1] } := by
  cases hm : m.fromSlice with
  | none =>
    simp [receiveSteps, receiveMessageAlone, hm, Machine.replay, machine, step, receiveMessage]
  | some m' =>
    obtain rfl := Message.fromSlice_eq_some hm
    by_cases htyp : m'.typ = .data
    · by_cases hsem : r.bufferSemaphore = 0
      · simp [receiveSteps, receiveMessageAlone, hm, htyp, hsem, Machine.replay, machine, step,
          receiveMessage, reject]
      · have hpos : 0 < r.bufferSemaphore := Nat.pos_of_ne_zero hsem
        cases answered <;>
        simp [receiveSteps, receiveMessageAlone, hm, htyp, hsem, Machine.replay, machine, step,
          receiveMessage, record, push, ack, forget, hpos, keepMessage]
    · simp [receiveSteps, receiveMessageAlone, hm, htyp, Machine.replay, machine, step,
        receiveMessage]

theorem receiveMessageAlone_keeps_nothing {r : UdpReceiver} {c : ReceiveCircumstances}
    {message : Option Message}
    (h : c.arrived = false ∨ ∀ m ∈ message, m.typ = .data → r.bufferSemaphore = 0) :
    ∃ result sent, r.receiveMessageAlone message c =
      (result, { r with socket := r.socket ++ sent }) := by
  unfold receiveMessageAlone
  cases harrived : c.arrived with
  | false => exact ⟨.error .io, [], by simp⟩
  | true =>
    cases message with
    | none => exact ⟨.error .serialization, [], by simp⟩
    | some m =>
      by_cases htyp : m.typ = .data
      · have hsem : r.bufferSemaphore = 0 := by simpa [harrived, htyp] using h
        simp only [Bool.not_true, Bool.false_eq_true, if_false, if_pos htyp, if_pos hsem]
        cases c.encoded with
        | false => exact ⟨.error .serialization, [], by rw [List.append_nil]; rfl⟩
        | true => exact ⟨.error .receiveBufferFull, _, rfl⟩
      · exact ⟨.ok (some m), [], by simp [htyp]⟩

theorem receiveMessageAlone_ok {r : UdpReceiver} {c : ReceiveCircumstances} {m : Message}
    (arrived : c.arrived = true) (typ : m.typ = .data) (permit : r.bufferSemaphore ≠ 0)
    (encoded : c.encoded = true) (answered : c.answered = true) :
    (r.receiveMessageAlone (some m) c).1 = .ok (some m) := by
  simp [receiveMessageAlone, arrived, typ, permit, encoded, answered]

theorem receiveMessageAlone_fails {r : UdpReceiver} {c : ReceiveCircumstances} {m : Message}
    (arrived : c.arrived = true) (typ : m.typ = .data) (permit : r.bufferSemaphore ≠ 0)
    (fails : ¬(c.encoded = true ∧ c.answered = true)) :
    ∃ e, r.receiveMessageAlone (some m) c = (.error e, r.keepMessage m) := by
  have hpermit : r.bufferSemaphore - 1 + 1 = r.bufferSemaphore := Nat.succ_pred_eq_of_ne_zero permit
  unfold receiveMessageAlone
  cases hencoded : c.encoded with
  | false =>
    exact ⟨.serialization, by simp [arrived, typ, permit, keepMessage, hpermit]⟩
  | true =>
    have hanswered : c.answered = false := by simpa [hencoded] using fails
    exact ⟨.io, by simp [arrived, typ, permit, keepMessage, hpermit, hanswered]⟩

theorem receiveMessage_atomic_iff (r : UdpReceiver) (message : Option Message)
    (c : ReceiveCircumstances) :
    r.Atomic message c ↔ c.arrived = false ∨ ∀ m, message = some m → m.typ = .data →
      r.bufferSemaphore = 0 ∨ (c.encoded = true ∧ c.answered = true) := by
  constructor
  · intro h
    refine or_iff_not_imp_left.mpr fun harrived m hm htyp => ?_
    refine or_iff_not_imp_left.mpr fun hpermit => ?_
    by_contra hfails
    obtain ⟨e, heq⟩ := receiveMessageAlone_fails (Bool.eq_true_of_not_eq_false harrived) htyp
      hpermit hfails
    have hbuffer := (h e _ (hm ▸ heq)).2.1
    simp [keepMessage] at hbuffer
  · intro h e t heq
    by_cases hnothing : c.arrived = false ∨
        ∀ m ∈ message, m.typ = .data → r.bufferSemaphore = 0
    · obtain ⟨result, sent, heq'⟩ := receiveMessageAlone_keeps_nothing hnothing
      rw [heq'] at heq
      obtain rfl := (Prod.mk.inj heq).2
      exact ⟨rfl, rfl, rfl⟩
    · obtain ⟨harrived, hkeeps⟩ := not_or.mp hnothing
      push Not at hkeeps
      obtain ⟨m, hm, htyp, hpermit⟩ := hkeeps
      obtain ⟨hencoded, hanswered⟩ := ((h.resolve_left harrived) m hm htyp).resolve_left hpermit
      have hok := receiveMessageAlone_ok (Bool.eq_true_of_not_eq_false harrived) htyp hpermit
        hencoded hanswered
      rw [← Option.mem_def.mp hm, heq] at hok
      contradiction

theorem failed_receive_outgrows {r : UdpReceiver} {c : ReceiveCircumstances} {m : Message}
    (arrived : c.arrived = true) (typ : m.typ = .data) (permit : r.bufferSemaphore ≠ 0)
    (fails : ¬(c.encoded = true ∧ c.answered = true)) :
    let t := (r.receiveMessageAlone (some m) c).2
    t.bufferSemaphore + t.receiveBuffer.length =
      r.bufferSemaphore + r.receiveBuffer.length + 1 := by
  obtain ⟨e, heq⟩ := receiveMessageAlone_fails arrived typ permit fails
  rw [heq]
  simp only [keepMessage, List.length_append, List.length_singleton]
  omega

theorem failed_receive_kept :
    ¬∀ (r : UdpReceiver) (message : Option Message) (c : ReceiveCircumstances),
      r.Atomic message c := by
  intro h
  have hseen := (h (.new .default) (some (dataMessage 1 "a")) ⟨true, true, false⟩ .io
    ((new .default).keepMessage (dataMessage 1 "a")) rfl).1
  simp [keepMessage, new] at hseen

end BdsPro.Udp.UdpReceiver
