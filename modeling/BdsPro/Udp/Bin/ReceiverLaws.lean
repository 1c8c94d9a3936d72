import BdsPro.Udp.Bin.Receiver
import Mathlib.Order.Bounds.Basic

namespace BdsPro.Udp.Bin

open BdsPro.Library

namespace Receiver

inductive Ranged : Option Nat → Option Nat → Finset Nat → Prop
  | empty : Ranged none none ∅
  | bounds {received : Finset Nat} (least : IsLeast (received : Set Nat) lo)
      (greatest : IsGreatest (received : Set Nat) hi) : Ranged (some lo) (some hi) received

def WellRanged (r : Receiver) : Prop := Ranged r.minSeq r.maxSeq r.receivedSeqs

def Between (r : Receiver) (seq : Nat) : Prop :=
  (∃ lo ∈ r.receivedSeqs, lo < seq) ∧ ∃ hi ∈ r.receivedSeqs, seq < hi

structure Tracked (maxAttempts : Nat) (r : Receiver) : Prop where
  limit : r.maxRetransmissionAttempts = maxAttempts
  range : r.WellRanged
  unreceived : ∀ seq time, r.retransmissionRequests.lookup seq = some time →
    seq ∉ r.receivedSeqs ∧ r.Between seq
  counted : ∀ seq time, r.retransmissionRequests.lookup seq = some time →
    ∃ n, r.retransmissionAttempts.lookup seq = some n ∧ 1 ≤ n ∧ n ≤ maxAttempts

structure Listed (r : Receiver) (l : List Nat) : Prop where
  started : ∃ lo, r.minSeq = some lo
  nodup : l.Nodup
  missing : ∀ seq ∈ l, seq ∉ r.receivedSeqs ∧ r.Between seq ∧ r.exceeded seq = false
  complete : ∀ seq, seq ∉ r.receivedSeqs → r.Between seq →
    r.retransmissionRequests.lookup seq = none → seq ∈ l ∨ r.exceeded seq = true

theorem WellRanged.of_min {r : Receiver} (h : r.WellRanged) (hmin : r.minSeq = some lo) :
    ∃ hi, r.maxSeq = some hi ∧ IsLeast (r.receivedSeqs : Set Nat) lo ∧
      IsGreatest (r.receivedSeqs : Set Nat) hi := by
  unfold WellRanged at h
  rw [hmin] at h
  cases hmax : r.maxSeq with
  | none => rw [hmax] at h; contradiction
  | some hi =>
    rw [hmax] at h
    cases h with
    | bounds least greatest => exact ⟨hi, rfl, least, greatest⟩

theorem between_iff {r : Receiver} (least : IsLeast (r.receivedSeqs : Set Nat) lo)
    (greatest : IsGreatest (r.receivedSeqs : Set Nat) hi) (hseq : seq ∉ r.receivedSeqs) :
    r.Between seq ↔ lo ≤ seq ∧ seq ≤ hi := by
  constructor
  · rintro ⟨⟨a, ha, hlt⟩, b, hb, hgt⟩
    exact ⟨(least.2 ha).trans hlt.le, hgt.le.trans (greatest.2 hb)⟩
  · rintro ⟨hle, hge⟩
    refine ⟨⟨lo, least.1, lt_of_le_of_ne hle ?_⟩, hi, greatest.1, lt_of_le_of_ne hge ?_⟩
    · rintro rfl
      exact hseq least.1
    · rintro rfl
      exact hseq greatest.1

theorem Between.insertSeq {r : Receiver} (h : r.Between seq) (n : Nat) :
    (r.insertSeq n).Between seq := by
  obtain ⟨⟨lo, hlo, hlt⟩, hi, hhi, hgt⟩ := h
  exact ⟨⟨lo, Finset.mem_insert_of_mem hlo, hlt⟩, hi, Finset.mem_insert_of_mem hhi, hgt⟩

theorem WellRanged.updateRange {r : Receiver} (h : r.WellRanged) (seq : Nat) :
    ∃ min max, (r.insertSeq seq).updateRange seq =
        some { r.insertSeq seq with minSeq := min, maxSeq := max } ∧
      Ranged min max (r.insertSeq seq).receivedSeqs := by
  unfold WellRanged at h
  obtain ⟨timeout, limit, received, min, max, requests, attempts, socket, phase⟩ := r
  cases h with
  | empty =>
    refine ⟨some seq, some seq, rfl, .bounds ?_ ?_⟩
    · simp [insertSeq]
    · simp [insertSeq]
  | @bounds lo hi _ least greatest =>
    refine ⟨_, _, rfl, ?_⟩
    have hmin : (if seq < lo then some seq else some lo) = some (Min.min seq lo) := by
      split
      next hlt => rw [min_eq_left hlt.le]
      next hge => rw [min_eq_right (not_lt.mp hge)]
    have hmax : (if hi < seq then some seq else some hi) = some (Max.max seq hi) := by
      split
      next hlt => rw [max_eq_left hlt.le]
      next hge => rw [max_eq_right (not_lt.mp hge)]
    rw [hmin, hmax]
    refine .bounds ?_ ?_
    · simpa [insertSeq] using least.insert seq
    · simpa [insertSeq] using greatest.insert seq

theorem settle_eq (r : Receiver) (seq : Nat) :
    ∃ attempts, r.settle seq = { r with
        retransmissionRequests := r.retransmissionRequests.erase seq
        retransmissionAttempts := attempts } ∧
      ∀ k, attempts.lookup k =
        if k = seq ∧ (r.retransmissionRequests.lookup seq).isSome then none
        else r.retransmissionAttempts.lookup k := by
  unfold settle
  split
  next hsome =>
    refine ⟨_, rfl, fun k => (Map.lookup_erase _ _ _).trans ?_⟩
    simp only [hsome, Option.isSome_some, and_true]
  next hnone =>
    refine ⟨r.retransmissionAttempts, ?_, fun k => ?_⟩
    · rw [Map.erase_of_none hnone]
    · simp only [hnone, Option.isSome_none, Bool.false_eq_true, and_false, if_false]

theorem record_eq {r : Receiver} (h : r.WellRanged) (seq : Nat) :
    ∃ min max attempts, r.record seq = { r with
        receivedSeqs := insert seq r.receivedSeqs
        minSeq := min
        maxSeq := max
        retransmissionRequests := r.retransmissionRequests.erase seq
        retransmissionAttempts := attempts
        phase := .acking seq } ∧
      Ranged min max (insert seq r.receivedSeqs) ∧
      ∀ k, attempts.lookup k =
        if k = seq ∧ (r.retransmissionRequests.lookup seq).isSome then none
        else r.retransmissionAttempts.lookup k := by
  obtain ⟨min, max, hupdate, hrange⟩ := h.updateRange seq
  obtain ⟨attempts, heq, hattempts⟩ :=
    settle_eq { r.insertSeq seq with minSeq := min, maxSeq := max } seq
  refine ⟨min, max, attempts, ?_, hrange, hattempts⟩
  simp only [record, hupdate, heq]
  rfl

theorem Tracked.record {r : Receiver} (h : r.Tracked maxAttempts) (seq : Nat) :
    (r.record seq).Tracked maxAttempts ∧ (r.record seq).phase = .acking seq := by
  obtain ⟨min, max, attempts, heq, hrange, hattempts⟩ := record_eq h.range seq
  rw [heq]
  refine ⟨⟨h.limit, hrange, fun k time hk => ?_, fun k time hk => ?_⟩, rfl⟩
  · obtain ⟨hne, hk⟩ := Map.lookup_of_erase hk
    obtain ⟨hnot, hbetween⟩ := h.unreceived k time hk
    refine ⟨fun hmem => ?_, hbetween.insertSeq seq⟩
    exact (Finset.mem_insert.mp hmem).elim hne hnot
  · obtain ⟨hne, hk⟩ := Map.lookup_of_erase hk
    obtain ⟨n, hn, hbounds⟩ := h.counted k time hk
    refine ⟨n, (hattempts k).trans ?_, hbounds⟩
    rw [if_neg fun hand => hne hand.1, hn]

theorem mem_missing {r : Receiver} : seq ∈ r.missing lo hi ↔ (lo ≤ seq ∧ seq ≤ hi) ∧
    seq ∉ r.receivedSeqs ∧ r.retransmissionRequests.lookup seq = none ∧
      r.exceeded seq = false := by
  simp only [missing, List.mem_filter, List.mem_range'_1, decide_eq_true_eq]
  refine and_congr ?_ Iff.rfl
  omega

theorem listed_missing {r : Receiver} (hmin : r.minSeq = some lo)
    (least : IsLeast (r.receivedSeqs : Set Nat) lo)
    (greatest : IsGreatest (r.receivedSeqs : Set Nat) hi) : r.Listed (r.missing lo hi) where
  started := ⟨lo, hmin⟩
  nodup := List.Nodup.filter _ List.nodup_range'
  missing seq hseq := by
    obtain ⟨hin, hnot, -, hexceeded⟩ := mem_missing.mp hseq
    exact ⟨hnot, (between_iff least greatest hnot).mpr hin, hexceeded⟩
  complete seq hnot hbetween hnone := by
    cases he : r.exceeded seq with
    | true => exact .inr rfl
    | false =>
      have hin := (between_iff least greatest hnot).mp hbetween
      exact .inl (mem_missing.mpr ⟨hin, hnot, hnone, he⟩)

theorem attempts_lt {r : Receiver} (h : r.exceeded seq = false)
    (hone : 1 ≤ r.maxRetransmissionAttempts) :
    r.attempts seq < r.maxRetransmissionAttempts := by
  unfold exceeded at h
  unfold attempts
  cases hl : r.retransmissionAttempts.lookup seq with
  | none => exact hone
  | some n =>
    simp only [hl, Option.any_some, decide_eq_false_iff_not, not_le] at h
    exact h

theorem Tracked.track {r : Receiver} (h : r.Tracked maxAttempts) (hone : 1 ≤ maxAttempts)
    (hl : r.Listed (seq :: rest)) (now : Nat) : (r.track seq now).Tracked maxAttempts := by
  obtain ⟨hnot, hbetween, hexceeded⟩ := hl.missing seq List.mem_cons_self
  refine ⟨h.limit, h.range, fun k time hk => ?_, fun k time hk => ?_⟩
  · simp only [Receiver.track, Map.lookup_insert] at hk
    split at hk
    next heq =>
      rw [heq]
      exact ⟨hnot, hbetween⟩
    next => exact h.unreceived k time hk
  · simp only [Receiver.track, Map.lookup_insert] at hk ⊢
    split at hk
    next heq =>
      rw [if_pos heq]
      have hlt := attempts_lt hexceeded (h.limit ▸ hone)
      exact ⟨_, rfl, Nat.succ_le_succ (Nat.zero_le _), h.limit ▸ hlt⟩
    next hne =>
      rw [if_neg hne]
      exact h.counted k time hk

theorem exceeded_track {r : Receiver} (hne : k ≠ seq) :
    (r.track seq now).exceeded k = r.exceeded k := by
  rw [exceeded, Receiver.track, Map.lookup_insert, if_neg hne, exceeded]

theorem Listed.track {r : Receiver} (hl : r.Listed (seq :: rest)) (now : Nat) :
    (r.track seq now).Listed rest := by
  obtain ⟨hnew, hnodup⟩ := List.nodup_cons.mp hl.nodup
  refine ⟨hl.started, hnodup, fun k hk => ?_, fun k hnot hbetween hnone => ?_⟩
  · have hne : k ≠ seq := fun heq => hnew (heq ▸ hk)
    rw [exceeded_track hne]
    exact hl.missing k (List.mem_cons_of_mem _ hk)
  · simp only [Receiver.track, Map.lookup_insert] at hnone
    split at hnone
    next => contradiction
    next hne =>
      rw [exceeded_track hne]
      refine (hl.complete k hnot hbetween hnone).imp_left fun hmem => ?_
      exact (List.mem_cons.mp hmem).resolve_left hne

theorem Tracked.retry {r : Receiver} (h : r.Tracked maxAttempts) (seq : Nat) :
    (r.retry seq).Tracked maxAttempts := by
  have hopen : ∀ k time, (r.retransmissionRequests.erase seq).lookup k = some time →
      k ∉ r.receivedSeqs ∧ r.Between k :=
    fun k time hk => h.unreceived k time (Map.lookup_of_erase hk).2
  unfold Receiver.retry
  split
  next =>
    refine ⟨h.limit, h.range, hopen, fun k time hk => ?_⟩
    obtain ⟨hne, hk⟩ := Map.lookup_of_erase hk
    simp only [Map.lookup_insert, if_neg hne]
    exact h.counted k time hk
  next =>
    exact ⟨h.limit, h.range, hopen, fun k time hk => h.counted k time (Map.lookup_of_erase hk).2⟩

theorem Tracked.retries {r : Receiver} (h : r.Tracked maxAttempts) (order : List Nat) :
    (order.foldl Receiver.retry r).Tracked maxAttempts := by
  induction order generalizing r with
  | nil => exact h
  | cons seq order ih => exact ih (h.retry seq)

structure Detecting (maxAttempts : Nat) (r : Receiver) : Prop where
  tracked : r.Tracked maxAttempts
  listed : ∀ l, r.phase = .requesting l → r.Listed l

theorem Tracked.detecting {r : Receiver} (h : r.Tracked maxAttempts) (phase : Phase)
    (hp : ∀ l, phase ≠ .requesting l) : Detecting maxAttempts { r with phase := phase } :=
  ⟨{ h with }, fun l hl => absurd hl (hp l)⟩

theorem Detecting.recvFrom {r t : Receiver} (h : r.Detecting maxAttempts)
    (hs : r.recvFrom packet = some t) : t.Detecting maxAttempts := by
  obtain ⟨-, hs⟩ := Option.ite_none_right_eq_some.mp hs
  cases packet with
  | none => exact Option.some.inj hs ▸ h.tracked.detecting _ (by rintro l ⟨⟩)
  | some m =>
    simp only at hs
    split at hs
    next =>
      obtain ⟨htracked, hphase⟩ := h.tracked.record m.seq
      rw [← Option.some.inj hs]
      refine ⟨htracked, fun l hl => ?_⟩
      rw [hphase] at hl
      contradiction
    next => exact Option.some.inj hs ▸ h.tracked.detecting _ (by rintro l ⟨⟩)

theorem WellRanged.detect {r : Receiver} (h : r.WellRanged) (hl : r.detect = .requesting l) :
    r.Listed l := by
  unfold Receiver.detect at hl
  split at hl
  next lo hi hmin hmax =>
    obtain ⟨hi', hmax', least, greatest⟩ := h.of_min hmin
    cases hmax.symm.trans hmax'
    cases hl
    exact listed_missing hmin least greatest
  next => contradiction

theorem Detecting.ack {r t : Receiver} (h : r.Detecting maxAttempts) (hs : r.ack ok = some t) :
    t.Detecting maxAttempts := by
  unfold Receiver.ack at hs
  split at hs
  next seq hphase =>
    split at hs
    next =>
      rw [← Option.some.inj hs]
      exact ⟨{ h.tracked with }, fun l hl => { h.tracked.range.detect hl with }⟩
    next => exact Option.some.inj hs ▸ h.tracked.detecting _ (by rintro l ⟨⟩)
  next => contradiction

theorem Detecting.request {r t : Receiver} (h : r.Detecting maxAttempts)
    (hone : 1 ≤ maxAttempts) (hs : r.request ok now = some t) : t.Detecting maxAttempts := by
  unfold Receiver.request at hs
  split at hs
  next seq rest hphase =>
    have hl := h.listed _ hphase
    split at hs
    next =>
      rw [← Option.some.inj hs]
      refine ⟨{ h.tracked.track hone hl now with }, fun l heq => ?_⟩
      cases heq
      exact { hl.track now with }
    next => exact Option.some.inj hs ▸ h.tracked.detecting _ (by rintro l ⟨⟩)
  next => contradiction

theorem Detecting.check {r t : Receiver} (h : r.Detecting maxAttempts)
    (hs : r.check now order = some t) : t.Detecting maxAttempts := by
  simp only [Receiver.check, Option.ite_none_right_eq_some, Option.some.injEq] at hs
  rw [← hs.2]
  exact (h.tracked.retries order).detecting _ (by rintro l ⟨⟩)

theorem detecting_of_reaches {timeout maxAttempts : Nat} (hone : 1 ≤ maxAttempts) {r : Receiver}
    (h : (machine timeout maxAttempts).Reachable r) : r.Detecting maxAttempts := by
  refine h.invariant ?_ fun r a t _ ih _ hs => ?_
  · exact ⟨⟨rfl, .empty, by rintro k time ⟨⟩, by rintro k time ⟨⟩⟩, by rintro l ⟨⟩⟩
  · cases a with
    | recvFrom packet => exact ih.recvFrom hs
    | ack ok => exact ih.ack hs
    | request ok now => exact ih.request hone hs
    | check now order => exact ih.check hs

theorem exceeded_iff {r : Receiver} : r.exceeded seq = true ↔
    ∃ n, r.retransmissionAttempts.lookup seq = some n ∧ r.maxRetransmissionAttempts ≤ n := by
  simp [exceeded, Option.any_eq_true]

theorem Tracked.standing {r : Receiver} (h : r.Tracked maxAttempts) (hl : r.Listed [])
    (least : IsLeast (r.receivedSeqs : Set Nat) lo)
    (greatest : IsGreatest (r.receivedSeqs : Set Nat) hi) (hlo : lo ≤ seq) (hhi : seq ≤ hi) :
    ∃! c, r.Stands seq c := by
  by_cases hmem : seq ∈ r.receivedSeqs
  · refine ⟨.received, hmem, fun d hd => ?_⟩
    cases d with
    | received => rfl
    | pending =>
      obtain ⟨time, htime⟩ := hd
      exact absurd hmem (h.unreceived seq time htime).1
    | exhausted => exact absurd hmem hd.1
  · cases hl' : r.retransmissionRequests.lookup seq with
    | some time =>
      refine ⟨.pending, ⟨time, hl'⟩, fun d hd => ?_⟩
      cases d with
      | received => exact absurd hd hmem
      | pending => rfl
      | exhausted => exact nomatch hl'.symm.trans hd.2.1
    | none =>
      have hbetween := (between_iff least greatest hmem).mpr ⟨hlo, hhi⟩
      have hexceeded := (hl.complete seq hmem hbetween hl').resolve_left List.not_mem_nil
      refine ⟨.exhausted, ⟨hmem, hl', exceeded_iff.mp hexceeded⟩, fun d hd => ?_⟩
      cases d with
      | received => exact absurd hd hmem
      | pending =>
        obtain ⟨time, htime⟩ := hd
        exact nomatch hl'.symm.trans htime
      | exhausted => rfl

theorem gap_detection_complete {timeout maxAttempts : Nat} (hone : 1 ≤ maxAttempts)
    {r : Receiver} (h : (machine timeout maxAttempts).Reachable r) (hd : r.Detected) :
    ∃ lo hi, r.minSeq = some lo ∧ r.maxSeq = some hi ∧
      IsLeast (r.receivedSeqs : Set Nat) lo ∧ IsGreatest (r.receivedSeqs : Set Nat) hi ∧
      (∀ seq, lo ≤ seq → seq ≤ hi → ∃! c, r.Stands seq c) ∧
      ∀ seq time, r.retransmissionRequests.lookup seq = some time → lo < seq ∧ seq < hi ∧
        ∃ n, r.retransmissionAttempts.lookup seq = some n ∧ 1 ≤ n ∧ n ≤ maxAttempts := by
  obtain ⟨htracked, hlisted⟩ := detecting_of_reaches hone h
  have hl := hlisted [] hd
  obtain ⟨lo, hmin⟩ := hl.started
  obtain ⟨hi, hmax, least, greatest⟩ := htracked.range.of_min hmin
  refine ⟨lo, hi, hmin, hmax, least, greatest, fun seq hlo hhi => ?_, fun seq time hseq => ?_⟩
  · exact htracked.standing hl least greatest hlo hhi
  · obtain ⟨⟨a, ha, hlt⟩, b, hb, hgt⟩ := (htracked.unreceived seq time hseq).2
    exact ⟨(least.2 ha).trans_lt hlt, hgt.trans_le (greatest.2 hb),
      htracked.counted seq time hseq⟩

theorem gap_detection_complete_exhausted :
    ∃ r, (machine 2000 3).Reachable r ∧ (∃! c, r.Stands 3 c) ∧ r.Stands 3 .exhausted ∧
      r.Stands 5 .pending := by
  obtain ⟨r, hr, hd, hmin, hmax, hexhausted, hpending⟩ := Machine.exists_reaches_of_replay
    (M := machine 2000 3) (C := fun _ _ => True)
    (P := fun r => r.Detected ∧ r.minSeq = some 2 ∧ r.maxSeq = some 6 ∧
      (3 ∉ r.receivedSeqs ∧ r.retransmissionRequests.lookup 3 = none ∧
        r.retransmissionAttempts.lookup 3 = some 3 ∧ r.maxRetransmissionAttempts ≤ 3) ∧
      r.retransmissionRequests.lookup 5 = some 9000)
    [.recvFrom (some (dataMessage 2 "a")), .ack true, .check 0 [],
      .recvFrom (some (dataMessage 4 "b")), .ack true, .request true 100, .check 100 [],
      .recvFrom none, .check 3000 [3], .recvFrom (some (dataMessage 2 "a")), .ack true,
      .request true 3100, .check 3100 [], .recvFrom (some (ackMessage 9)), .check 6000 [3],
      .recvFrom (some (dataMessage 6 "c")), .ack true, .request true 9000] (by decide)
  obtain ⟨lo, hi, hlo, hhi, -, -, hone, -⟩ := gap_detection_complete (by decide) hr hd
  cases hmin.symm.trans hlo
  cases hmax.symm.trans hhi
  obtain ⟨hnot, hnone, hattempts, hmost⟩ := hexhausted
  exact ⟨r, hr, hone 3 (by decide) (by decide), ⟨hnot, hnone, 3, hattempts, hmost⟩, _, hpending⟩

end Receiver

end BdsPro.Udp.Bin
