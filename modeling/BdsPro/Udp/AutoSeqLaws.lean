import BdsPro.Udp.SenderLaws
import Mathlib.Data.List.Range

namespace BdsPro.Udp

open BdsPro.Library

namespace UdpSender

theorem issues_autoSeq {s : UdpSender} (ha : s.AutoSeq a) (hi : s.issues a = some n) :
    n = s.nextSeq := by
  cases a with
  | sendMessage seq d => contradiction
  | sendMessageAutoSeq d => exact (Option.some.inj hi).symm
  | _ => contradiction

structure Numbered (s : UdpSender) : Prop where
  numbers : s.calls.map SendCall.seq = List.range' 1 s.calls.length
  next : s.nextSeq = s.calls.length + 1

theorem Numbered.distinct {s : UdpSender} (h : s.Numbered) :
    (s.calls.map SendCall.seq).Nodup := h.numbers ▸ List.nodup_range'

theorem Numbered.mem_iff {s : UdpSender} (h : s.Numbered) :
    n ∈ s.calls.map SendCall.seq ↔ 1 ≤ n ∧ n < s.nextSeq := by
  rw [h.numbers, h.next, List.mem_range'_1, Nat.add_comm]

theorem Numbered.of_calls {s t : UdpSender} (h : s.Numbered)
    (hcalls : t.calls.map SendCall.seq = s.calls.map SendCall.seq)
    (hnext : t.nextSeq = s.nextSeq) : t.Numbered := by
  have hlen : t.calls.length = s.calls.length := by
    rw [← List.length_map SendCall.seq, hcalls, List.length_map]
  exact ⟨hcalls.trans (hlen ▸ h.numbers), hnext.trans (hlen ▸ h.next)⟩

theorem Numbered.step {s t : UdpSender} (h : s.Numbered) (ha : s.AutoSeq a)
    (hs : s.step a = some t) : t.Numbered := by
  cases callsStep_of_step hs with
  | still calls saved next => exact h.of_calls (congrArg _ calls) next
  | move call calls saved next permit sent | store call calls saved next =>
    exact h.of_calls ((congrArg _ calls).trans (seq_setPhase call)) next
  | issue call phase number calls saved next =>
    have hseq : call.seq = s.calls.length + 1 := (issues_autoSeq ha number).trans h.next
    have hone : (autoSeq a).toNat = 1 := congrArg Bool.toNat ha
    constructor
    · rw [calls, List.map_append, h.numbers, List.map_singleton, hseq, List.length_append,
        List.length_singleton, List.range'_1_concat, Nat.add_comm 1]
    · rw [calls, next, h.next, hone, List.length_append, List.length_singleton]

theorem numbered_of_reaches {config : FlowControlConfig} {s : UdpSender}
    (h : (machine config).Reaches AutoSeq s) : s.Numbered :=
  h.invariant ⟨rfl, rfl⟩ fun _ _ _ _ ih ha hs => ih.step ha hs

theorem freshSeq_of_autoSeq {config : FlowControlConfig} {s : UdpSender}
    (h : (machine config).Reaches AutoSeq s) : (machine config).Reaches FreshSeq s := by
  induction h with
  | init => exact .init
  | @step s a t hr ha hs ih =>
    refine ih.step (fun seq hseq hmem => ?_) hs
    cases a with
    | sendMessage seq d => contradiction
    | sendMessageAutoSeq d =>
      cases hseq
      exact Nat.lt_irrefl _ ((numbered_of_reaches hr).mem_iff.mp hmem).2
    | _ => contradiction

def Saved (s : UdpSender) : Prop :=
  ∀ c ∈ s.calls, c.phase.unsaved = true ∨ s.sentMessages.lookup c.seq = some c.data

theorem Saved.step {s t : UdpSender} (h : s.Saved) (hn : s.Numbered) (ha : s.InTime a)
    (hs : s.step a = some t) : t.Saved := by
  cases callsStep_of_step hs with
  | still calls saved next =>
    rw [Saved, calls, saved]
    exact h
  | issue call phase number calls saved next =>
    rw [Saved, calls, saved]
    intro c hc
    cases List.mem_append.mp hc with
    | inl hc => exact h c hc
    | inr hc =>
      rw [List.mem_singleton.mp hc, phase]
      exact .inl rfl
  | @move i c p call calls saved next permit sent =>
    rw [Saved, calls, saved]
    intro c' hc'
    cases mem_of_mem_setPhase hc' with
    | inl hc' => exact h c' hc'
    | inr heq =>
      subst heq
      cases h c (List.mem_of_getElem? call) with
      | inl hunsaved =>
        refine .inl (permit.resolve_right fun hsaved => ?_)
        cases hsaved with
        | inl hsaved => exact Bool.noConfusion (hunsaved.symm.trans hsaved)
        | inr htimeout => exact Bool.noConfusion (htimeout.symm.trans ha.2)
      | inr hl => exact .inr hl
  | @store i c call calls saved next =>
    rw [Saved, calls, saved]
    intro c' hc'
    cases mem_of_mem_setPhase hc' with
    | inr heq => exact .inr (heq ▸ Map.lookup_insert_self _ _ _)
    | inl hc' =>
      by_cases hseq : c'.seq = c.seq
      · cases List.inj_on_of_nodup_map hn.distinct hc' (List.mem_of_getElem? call) hseq
        exact .inr (Map.lookup_insert_self _ _ _)
      · rw [Map.lookup_insert, if_neg hseq]
        exact h c' hc'

theorem saved_of_reaches {config : FlowControlConfig} {s : UdpSender}
    (h : (machine config).Reaches InTime s) : s.Saved :=
  h.invariant (I := Saved) (by rintro c ⟨⟩) fun _ _ _ hr ih ha hs =>
    ih.step (numbered_of_reaches (hr.mono fun _ _ ha => ha.1)) ha hs

theorem handleEvent_rqst {s : UdpSender} (he : s.events = (.rqst, n) :: rest)
    (hl : s.sentMessages.lookup n = some data) :
    ∃ t, s.step (.handleEvent true) = some t ∧ t.socket = s.socket ++ [dataMessage n data] := by
  refine ⟨{ s with events := rest, socket := s.socket ++ [dataMessage n data] }, ?_, rfl⟩
  simp only [step, handleEvent, he, resend, hl, if_true]

theorem auto_seq_retransmittable {config : FlowControlConfig} {s : UdpSender}
    (h : (machine config).Reaches InTime s) :
    (s.calls.map SendCall.seq).Nodup ∧
      (s.Idle → ∀ n, 1 ≤ n → n < s.nextSeq →
        ∃ c ∈ s.calls, c.seq = n ∧ s.sentMessages.lookup n = some c.data ∧
          ∀ rest, s.events = (.rqst, n) :: rest → ∃ t, s.step (.handleEvent true) = some t ∧
            t.socket = s.socket ++ [dataMessage n c.data]) ∧
      ∀ m ∈ s.socket, m.seq < s.nextSeq := by
  have hauto : (machine config).Reaches AutoSeq s := h.mono fun _ _ ha => ha.1
  have hn := numbered_of_reaches hauto
  refine ⟨hn.distinct, fun hidle n hle hlt => ?_, fun m hm => ?_⟩
  · obtain ⟨c, hc, rfl⟩ := List.mem_map.mp (hn.mem_iff.mpr ⟨hle, hlt⟩)
    have hl : s.sentMessages.lookup c.seq = some c.data := by
      refine (saved_of_reaches h c hc).resolve_left fun hunsaved => ?_
      have hover := hidle c hc
      cases hp : c.phase <;> simp [hp, SendPhase.unsaved, SendPhase.over] at hunsaved hover
    exact ⟨c, hc, rfl, hl, fun rest he => handleEvent_rqst he hl⟩
  · obtain ⟨seq, d, rfl, c, hc, rfl, -⟩ :=
      (coherent_of_reaches (freshSeq_of_autoSeq hauto)).sent m hm
    exact (hn.mem_iff.mp (List.mem_map_of_mem hc)).2

theorem auto_seq_retransmittable_overlapping :
    ∃ s, (machine .default).Reaches InTime s ∧ s.Idle ∧ s.nextSeq = 3 ∧
      ∃ t, s.step (.handleEvent true) = some t ∧
        t.socket = s.socket ++ [dataMessage 1 "a"] := by
  obtain ⟨s, hs, hidle, hnext, hevents, hcalls⟩ := Machine.exists_reaches_of_replay
    (M := machine .default) (C := InTime)
    (P := fun s => s.Idle ∧ s.nextSeq = 3 ∧ s.events = [(.rqst, 1)] ∧
      ∀ c ∈ s.calls, c.seq = 1 → c.data = "a")
    [.sendMessageAutoSeq "a", .sendMessageAutoSeq "b", .acquire 1, .store 1, .acquire 0,
      .track 1 0, .store 0, .track 0 1, .transmit 0 false, .transmit 1 true, .forget 1,
      .recvFrom (rqstMessage 1), .enqueue] (by decide)
  obtain ⟨c, hc, hseq, -, hanswer⟩ :=
    (auto_seq_retransmittable hs).2.1 hidle 1 (Nat.le_refl 1) (hnext ▸ by decide)
  exact ⟨s, hs, hidle, hnext, hcalls c hc hseq ▸ hanswer [] hevents⟩

/-- With one permit the second call waits in vain.  Its number is lost: the third call sends
number 3, and a request for number 2 is not answered. -/
theorem timed_out_number_not_retransmittable :
    ∃ s, (machine { FlowControlConfig.default with sendWindowSize := 1 }).Reaches AutoSeq s ∧
      s.Idle ∧ dataMessage 3 "c" ∈ s.socket ∧ s.sentMessages.lookup 2 = none ∧
      s.events = [(.rqst, 2)] ∧
      ∃ t, s.step (.handleEvent true) = some t ∧ t.socket = s.socket :=
  Machine.exists_reaches_of_replay
    (M := machine { FlowControlConfig.default with sendWindowSize := 1 }) (C := AutoSeq)
    [.sendMessageAutoSeq "a", .acquire 0, .store 0, .track 0 0, .transmit 0 true, .forget 0,
      .sendMessageAutoSeq "b", .sendTimeout 1, .recvFrom (ackMessage 1), .enqueue,
      .handleEvent true, .sendMessageAutoSeq "c", .acquire 2, .store 2, .track 2 6000,
      .transmit 2 true, .forget 2, .recvFrom (rqstMessage 2), .enqueue]
    ⟨_, rfl, by decide, by decide, by decide, by decide, _, rfl, rfl⟩

end UdpSender

end BdsPro.Udp
