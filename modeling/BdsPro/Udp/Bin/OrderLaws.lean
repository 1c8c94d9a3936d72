import BdsPro.Udp.Bin.RequestLaws

namespace BdsPro.Udp.Bin

open BdsPro.Library

namespace Receiver

theorem Ranged.unique {s : Finset Nat} (h : Ranged lo hi s) (h' : Ranged lo' hi' s) :
    lo = lo' ∧ hi = hi' := by
  cases h with
  | empty =>
    cases h' with
    | empty => exact ⟨rfl, rfl⟩
    | bounds least _ => exact absurd least.1 (by simp)
  | bounds least greatest =>
    cases h' with
    | empty => exact absurd least.1 (by simp)
    | bounds least' greatest' =>
      exact ⟨by rw [least.unique least'], by rw [greatest.unique greatest']⟩

theorem Ranged.exists_bounds {s : Finset Nat} (h : Ranged low high s) (hne : s ≠ ∅) :
    ∃ lo hi, low = some lo ∧ high = some hi ∧
      IsLeast (s : Set Nat) lo ∧ IsGreatest (s : Set Nat) hi := by
  cases h with
  | empty => exact absurd rfl hne
  | bounds least greatest => exact ⟨_, _, rfl, rfl, least, greatest⟩

/-- The tables when nothing is lost and nothing times out: a number is requested at most
once, and while it is requested it is pending. -/
structure Calm (r : Receiver) : Prop where
  range : r.WellRanged
  started : ∀ seq, r.phase = .acking seq → r.minSeq ≠ none
  unreceived : ∀ seq time, r.retransmissionRequests.lookup seq = some time →
    seq ∉ r.receivedSeqs ∧ r.Between seq
  once : ∀ seq, r.retransmissionAttempts.lookup seq =
    if (r.retransmissionRequests.lookup seq).isSome then some 1 else none
  listed : ∀ l, r.phase = .requesting l → r.Listed l
  unrequested : ∀ l, r.phase = .requesting l →
    ∀ seq ∈ l, r.retransmissionRequests.lookup seq = none
  complete : r.phase = .receiving → ∀ seq, seq ∉ r.receivedSeqs → r.Between seq →
    (r.retransmissionRequests.lookup seq).isSome
  busy : r.phase ≠ .checking

theorem Calm.record {r : Receiver} (h : r.Calm) (seq : Nat) : (r.record seq).Calm := by
  obtain ⟨min, max, attempts, heq, hrange, hattempts⟩ := record_eq h.range seq
  rw [heq]
  refine ⟨hrange, fun k hk => ?_, fun k time hk => ?_, fun k => ?_, nofun, nofun, nofun,
    nofun⟩
  · generalize hmin : min = lo
    generalize hs : insert seq r.receivedSeqs = s at hrange
    rw [hmin] at hrange
    cases hrange with
    | empty => exact absurd hs (Finset.insert_ne_empty _ _)
    | bounds => nofun
  · obtain ⟨hne, hk⟩ := Map.lookup_of_erase hk
    obtain ⟨hnot, hbetween⟩ := h.unreceived k time hk
    exact ⟨fun hmem => (Finset.mem_insert.mp hmem).elim hne hnot, hbetween.insertSeq seq⟩
  · have honce := h.once k
    simp only [hattempts, Map.lookup_erase]
    by_cases hk : k = seq
    · subst hk
      simp only [true_and, if_true, Option.isSome_none, Bool.false_eq_true, if_false]
      split
      next => rfl
      next hnone => rw [honce, if_neg hnone]
    · simp only [hk, false_and, if_false]
      exact honce

theorem Calm.ack {r : Receiver} (h : r.Calm) (hp : r.phase = .acking seq) :
    Calm { r with socket := r.socket ++ [ackMessage seq], phase := r.detect } := by
  have hdetect : ∃ l, r.detect = .requesting l := by
    obtain ⟨lo, hlo⟩ := Option.ne_none_iff_exists'.mp (h.started seq hp)
    obtain ⟨hi, hhi, -⟩ := h.range.of_min hlo
    exact ⟨r.missing lo hi, by simp only [detect, hlo, hhi]⟩
  obtain ⟨l, hl⟩ := hdetect
  rw [hl]
  refine ⟨h.range, by simp, h.unreceived, h.once, ?_, ?_, by simp, by simp⟩
  · rintro _ ⟨⟩
    exact { h.range.detect hl with }
  · rintro _ ⟨⟩ k hk
    simp only [detect] at hl
    split at hl
    next =>
      cases hl
      exact (mem_missing.mp hk).2.2.1
    next => contradiction

theorem Calm.request {r : Receiver} (h : r.Calm) (hp : r.phase = .requesting (seq :: rest)) :
    Calm { r.track seq now with
      socket := r.socket ++ [rqstMessage seq]
      phase := .requesting rest } := by
  have hl := h.listed _ hp
  obtain ⟨hnot, hbetween, -⟩ := hl.missing seq List.mem_cons_self
  have hnone := h.unrequested _ hp seq List.mem_cons_self
  refine ⟨h.range, nofun, fun k time hk => ?_, fun k => ?_, ?_, ?_, nofun, nofun⟩
  · simp only [track, Map.lookup_insert] at hk
    split at hk
    next heq =>
      subst heq
      exact ⟨hnot, hbetween⟩
    next => exact h.unreceived k time hk
  · have honce := h.once k
    simp only [track, Map.lookup_insert]
    split
    next heq =>
      subst heq
      rw [hnone] at honce
      rw [attempts, honce]
      rfl
    next => exact honce
  · rintro _ ⟨⟩
    exact { hl.track now with }
  · rintro _ ⟨⟩ k hk
    have hne : k ≠ seq := fun heq => (List.nodup_cons.mp hl.nodup).1 (heq ▸ hk)
    simp only [track, Map.lookup_insert, if_neg hne]
    exact h.unrequested _ hp k (List.mem_cons_of_mem _ hk)

theorem Calm.check {r : Receiver} (h : r.Calm) (hp : r.phase = .requesting []) :
    Calm { r with phase := .receiving } := by
  refine ⟨h.range, nofun, h.unreceived, h.once, nofun, nofun, fun _ k hk hbetween => ?_, nofun⟩
  rw [Option.isSome_iff_ne_none]
  intro hnone
  have hexceeded := ((h.listed _ hp).complete k hk hbetween hnone).resolve_left List.not_mem_nil
  obtain ⟨n, hn, -⟩ := exceeded_iff.mp hexceeded
  rw [h.once, if_neg (by simpa using hnone)] at hn
  contradiction

end Receiver

namespace ReceiverLog

open Receiver (Action)

theorem arrivals_received (log : List Entry) (seq : Nat) :
    (log ++ [Entry.received seq]).filterMap Entry.arrival =
      log.filterMap Entry.arrival ++ [seq] := by
  rw [List.filterMap_append]
  rfl

theorem arrivals_of_none {log es : List Entry} (h : ∀ e ∈ es, e.arrival = none) :
    (log ++ es).filterMap Entry.arrival = log.filterMap Entry.arrival := by
  rw [List.filterMap_append, List.filterMap_eq_nil_iff.mpr h, List.append_nil]

structure Calm (o : ReceiverLog) : Prop where
  calm : o.receiver.Calm
  received : o.receiver.receivedSeqs = o.arrivals.toFinset

theorem Calm.step {o t : ReceiverLog} (h : o.Calm) (hc : o.Undisturbed a)
    (hs : o.step a = some t) : t.Calm := by
  obtain ⟨r, hr, rfl⟩ := step_eq_some hs
  cases Receiver.step_sound hr with
  | skip packet other =>
    cases packet with
    | none => contradiction
    | some m => exact absurd (of_decide_eq_true hc) (other m rfl)
  | record m data =>
    have hentry : entries o.receiver (.recvFrom (some m)) = [.received m.seq] := if_pos data
    refine ⟨h.calm.record m.seq, ?_⟩
    obtain ⟨min, max, attempts, heq, -⟩ := Receiver.record_eq h.calm.range m.seq
    rw [heq, arrivals, hentry, arrivals_received, h.received, arrivals]
    rw [List.toFinset_append, Finset.insert_eq, Finset.union_comm]
    rfl
  | ack seq phase =>
    refine ⟨h.calm.ack phase, h.received.trans ?_⟩
    rw [arrivals, arrivals, arrivals_of_none (by simp [entries])]
  | request seq rest now phase =>
    refine ⟨h.calm.request phase, h.received.trans ?_⟩
    rw [arrivals, arrivals, arrivals_of_none (by simp [entries, phase, Entry.arrival])]
  | stopAck => contradiction
  | stopRequest now => contradiction
  | check now order phase timedOut =>
    obtain rfl : order = [] := of_decide_eq_true hc
    refine ⟨h.calm.check (phase.resolve_right h.calm.busy), h.received.trans ?_⟩
    rw [arrivals, arrivals, arrivals_of_none (by simp [entries])]

theorem calm_of_reaches {timeout maxAttempts : Nat} {o : ReceiverLog}
    (h : (machine timeout maxAttempts).Reaches Undisturbed o) : o.Calm := by
  refine h.invariant ?_ fun _ _ _ _ ih hc hs => ih.step hc hs
  refine ⟨⟨.empty, nofun, nofun, fun _ => rfl, nofun, nofun, ?_, nofun⟩, rfl⟩
  rintro - seq - ⟨⟨lo, hlo, -⟩, -⟩
  exact absurd hlo (Finset.notMem_empty lo)

theorem exists_requested {timeout maxAttempts : Nat} {o : ReceiverLog}
    (h : (machine timeout maxAttempts).Reaches Undisturbed o)
    (hp : o.receiver.phase = .requesting l) :
    ∃ t, (machine timeout maxAttempts).Reaches Undisturbed t ∧
      t.receiver.phase = .requesting [] ∧ t.arrivals = o.arrivals := by
  induction l generalizing o with
  | nil => exact ⟨o, h, hp, rfl⟩
  | cons seq rest ih =>
    have hs : o.receiver.step (.request true 0) = some { o.receiver.track seq 0 with
        socket := o.receiver.socket ++ [rqstMessage seq]
        phase := .requesting rest } := by
      simp only [Receiver.step, Receiver.request, hp, if_true]
    obtain ⟨t, ht, hphase, harrivals⟩ := ih
      (h.step (a := Action.request true 0) rfl (Option.map_eq_some_iff.mpr ⟨_, hs, rfl⟩)) rfl
    refine ⟨t, ht, hphase, harrivals.trans ?_⟩
    rw [arrivals, arrivals, arrivals_of_none (by simp [entries, hp, Entry.arrival])]

theorem exists_processed (timeout maxAttempts : Nat) (l : List Nat) :
    ∃ o, Processed timeout maxAttempts l o := by
  induction l using List.reverseRecOn with
  | nil => exact ⟨_, .init, rfl, rfl⟩
  | append_singleton l seq ih =>
    obtain ⟨o, ho, hphase, rfl⟩ := ih
    have hcalm := calm_of_reaches ho
    obtain ⟨min, max, attempts, hrecord, -⟩ := Receiver.record_eq hcalm.calm.range seq
    have hrecv : o.receiver.step (.recvFrom (some (dataMessage seq ""))) =
        some (o.receiver.record seq) := if_pos hphase
    have ho₁ := ho.step (a := Action.recvFrom (some (dataMessage seq ""))) rfl
      (Option.map_eq_some_iff.mpr ⟨_, hrecv, rfl⟩)
    have hacking : (o.receiver.record seq).phase = .acking seq := by rw [hrecord]
    have hack : (o.receiver.record seq).step (.ack true) = some { o.receiver.record seq with
        socket := (o.receiver.record seq).socket ++ [ackMessage seq]
        phase := (o.receiver.record seq).detect } := by
      simp only [Receiver.step, Receiver.ack, hacking, if_true]
    have ho₂ := ho₁.step (a := Action.ack true) rfl (Option.map_eq_some_iff.mpr ⟨_, hack, rfl⟩)
    obtain ⟨missing, hmissing⟩ : ∃ l, (o.receiver.record seq).detect = .requesting l := by
      have hbusy := (calm_of_reaches ho₂).calm.busy
      revert hbusy
      simp only [Receiver.detect]
      split
      · exact fun _ => ⟨_, rfl⟩
      · exact fun hbusy => absurd rfl hbusy
    obtain ⟨t, ht, hrequested, harrivals⟩ := exists_requested ho₂ hmissing
    have hcheck : t.receiver.step (.check 0 []) = some { t.receiver with phase := .receiving } := by
      refine if_pos ⟨.inl hrequested, ?_⟩
      refine (Multiset.eq_zero_of_forall_notMem fun k hk => ?_).symm
      obtain ⟨time, -, hlt⟩ := Receiver.mem_timedOut.mp hk
      exact Nat.not_lt_zero _ hlt
    have ht₁ := ht.step (a := Action.check 0 []) rfl (Option.map_eq_some_iff.mpr ⟨_, hcheck, rfl⟩)
    refine ⟨_, ht₁, rfl, ?_⟩
    have hreceived : (o.log ++ entries o.receiver (.recvFrom (some (dataMessage seq "")))) ++
        entries (o.receiver.record seq) (.ack true) = o.log ++ [.received seq] :=
      List.append_nil _
    simp only [arrivals, hreceived, arrivals_received] at harrivals
    rw [arrivals, arrivals_of_none (by simp [entries]), harrivals, arrivals]

theorem mem_pending_iff {r : Receiver} (h : r.Calm) (hp : r.phase = .receiving)
    (least : IsLeast (r.receivedSeqs : Set Nat) lo)
    (greatest : IsGreatest (r.receivedSeqs : Set Nat) hi) :
    (r.retransmissionRequests.lookup seq).isSome ↔
      (lo ≤ seq ∧ seq ≤ hi) ∧ seq ∉ r.receivedSeqs := by
  constructor
  · intro hsome
    obtain ⟨time, htime⟩ := Option.isSome_iff_exists.mp hsome
    obtain ⟨hnot, hbetween⟩ := h.unreceived seq time htime
    exact ⟨(Receiver.between_iff least greatest hnot).mp hbetween, hnot⟩
  · rintro ⟨hin, hnot⟩
    exact h.complete hp seq hnot ((Receiver.between_iff least greatest hnot).mpr hin)

theorem mem_keys_iff {m : Map Nat Nat} : seq ∈ m.keys ↔ (m.lookup seq).isSome :=
  Finmap.mem_keys.trans Finmap.lookup_isSome.symm

theorem Processed.tables {timeout maxAttempts : Nat} {l : List Nat} {o : ReceiverLog}
    (h : Processed timeout maxAttempts l o) :
    o.receiver.receivedSeqs = l.toFinset ∧
      Receiver.Ranged o.receiver.minSeq o.receiver.maxSeq l.toFinset ∧
      ∀ lo hi, o.receiver.minSeq = some lo → o.receiver.maxSeq = some hi →
        ∀ seq, (seq ∈ o.receiver.retransmissionRequests.keys ↔
            (lo ≤ seq ∧ seq ≤ hi) ∧ seq ∉ l.toFinset) ∧
          o.receiver.retransmissionAttempts.lookup seq =
            if seq ∈ o.receiver.retransmissionRequests.keys then some 1 else none := by
  obtain ⟨hreaches, hphase, rfl⟩ := h
  obtain ⟨hcalm, hreceived⟩ := calm_of_reaches hreaches
  refine ⟨hreceived, hreceived ▸ hcalm.range, fun lo hi hlo hhi seq => ⟨?_, ?_⟩⟩
  · obtain ⟨hi', hhi', least, greatest⟩ := hcalm.range.of_min hlo
    cases hhi.symm.trans hhi'
    rw [mem_keys_iff, ← hreceived]
    exact mem_pending_iff hcalm hphase least greatest
  · simp only [mem_keys_iff]
    exact hcalm.once seq

theorem arrival_order_irrelevant (timeout maxAttempts : Nat) {l : List Nat} (hne : l ≠ []) :
    (∃ o, Processed timeout maxAttempts l o) ∧
      ∀ o, Processed timeout maxAttempts l o →
        o.receiver.receivedSeqs = l.toFinset ∧
        (∃ lo hi, o.receiver.minSeq = some lo ∧ o.receiver.maxSeq = some hi ∧
          IsLeast {seq | seq ∈ l} lo ∧ IsGreatest {seq | seq ∈ l} hi ∧
          ∀ seq, (seq ∈ o.receiver.retransmissionRequests.keys ↔
              (lo ≤ seq ∧ seq ≤ hi) ∧ seq ∉ l) ∧
            o.receiver.retransmissionAttempts.lookup seq =
              if seq ∈ o.receiver.retransmissionRequests.keys then some 1 else none) ∧
        ∀ l' o', l.Perm l' → Processed timeout maxAttempts l' o' →
          o'.receiver.receivedSeqs = o.receiver.receivedSeqs ∧
          o'.receiver.minSeq = o.receiver.minSeq ∧ o'.receiver.maxSeq = o.receiver.maxSeq ∧
          o'.receiver.retransmissionRequests.keys = o.receiver.retransmissionRequests.keys ∧
          o'.receiver.retransmissionAttempts = o.receiver.retransmissionAttempts := by
  refine ⟨exists_processed timeout maxAttempts l, fun o ho => ?_⟩
  obtain ⟨hreceived, hrange, htables⟩ := ho.tables
  obtain ⟨lo, hi, hlo, hhi, least, greatest⟩ := hrange.exists_bounds (List.toFinset_eq_empty_iff l |>.not.mpr hne)
  rw [List.coe_toFinset] at least greatest
  refine ⟨hreceived, ⟨lo, hi, hlo, hhi, least, greatest, ?_⟩, fun l' o' hperm ho' => ?_⟩
  · simpa only [List.mem_toFinset] using htables lo hi hlo hhi
  obtain ⟨hreceived', hrange', htables'⟩ := ho'.tables
  rw [← List.toFinset_eq_of_perm _ _ hperm] at hreceived' hrange' htables'
  obtain ⟨hmin, hmax⟩ := hrange'.unique hrange
  have hkeys :
      o'.receiver.retransmissionRequests.keys = o.receiver.retransmissionRequests.keys := by
    ext seq
    exact (htables' lo hi (hmin.trans hlo) (hmax.trans hhi) seq).1.trans
      (htables lo hi hlo hhi seq).1.symm
  refine ⟨hreceived'.trans hreceived.symm, hmin, hmax, hkeys, Finmap.ext_lookup fun seq => ?_⟩
  refine (htables' lo hi (hmin.trans hlo) (hmax.trans hhi) seq).2.trans ?_
  rw [hkeys]
  exact (htables lo hi hlo hhi seq).2.symm

theorem arrival_order_irrelevant_late :
    ∃ o o', Processed 2000 3 [5, 2, 3] o ∧ Processed 2000 3 [2, 3, 5] o' ∧
      o.receiver.receivedSeqs = [5, 2, 3].toFinset ∧
      4 ∈ o'.receiver.retransmissionRequests.keys ∧
      o'.receiver.retransmissionAttempts = o.receiver.retransmissionAttempts := by
  obtain ⟨⟨o, ho⟩, hsame⟩ := arrival_order_irrelevant 2000 3 (l := [5, 2, 3]) (by decide)
  obtain ⟨o', ho'⟩ := exists_processed 2000 3 [2, 3, 5]
  obtain ⟨hreceived, ⟨lo, hi, -, -, least, greatest, htables⟩, hperm⟩ := hsame o ho
  obtain ⟨-, -, -, hkeys, hattempts⟩ := hperm _ o' (by decide) ho'
  have hlo : lo ≤ 2 := least.2 (by decide)
  have hhi : 5 ≤ hi := greatest.2 (by decide)
  have hrequested : 4 ∈ o.receiver.retransmissionRequests.keys :=
    (htables 4).1.mpr ⟨⟨by omega, by omega⟩, by decide⟩
  exact ⟨o, o', ho, ho', hreceived, hkeys ▸ hrequested, hattempts⟩

end ReceiverLog

end BdsPro.Udp.Bin
