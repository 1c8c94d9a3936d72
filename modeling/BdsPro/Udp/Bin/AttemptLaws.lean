import BdsPro.Udp.Bin.AttemptLedger
import BdsPro.Udp.Bin.RequestLaws

namespace BdsPro.Udp.Bin

open BdsPro.Library

namespace Receiver

open AttemptLedger (skips arrivesLate)

theorem arrivesLate_skip {r : Receiver} {packet : Packet} (h : ∀ m ∈ packet, m.typ ≠ .data) :
    arrivesLate r (.recvFrom packet) = [] := by
  cases packet with
  | none => rfl
  | some m => exact if_neg fun hand => h m rfl hand.1

theorem mem_arrivesLate {r : Receiver} {m : Message} (data : m.typ = .data) :
    seq ∈ arrivesLate r (.recvFrom (some m)) ↔ seq = m.seq ∧
      r.retransmissionRequests.lookup m.seq = none ∧
      ∃ n, r.retransmissionAttempts.lookup m.seq = some n := by
  simp only [arrivesLate, data, true_and, ← Option.isSome_iff_exists]
  split
  next hand => simp [hand]
  next hand => simp [hand]

structure Released (r : Receiver) (late : List Nat) : Prop where
  range : r.WellRanged
  listed : ∀ l, r.phase = .requesting l → ∀ seq ∈ l, seq ∉ r.receivedSeqs
  requests : ∀ seq ∈ r.receivedSeqs, r.retransmissionRequests.lookup seq = none
  attempts : ∀ seq ∈ r.receivedSeqs, r.retransmissionAttempts.lookup seq = none ∨ seq ∈ late
  kept : ∀ seq ∈ late,
    seq ∈ r.receivedSeqs ∧ ∃ n, r.retransmissionAttempts.lookup seq = some n

theorem Released.record {r : Receiver} (h : r.Released late) {m : Message}
    (data : m.typ = .data) :
    (r.record m.seq).Released (late ++ arrivesLate r (.recvFrom (some m))) := by
  obtain ⟨min, max, counts, heq, hrange, hcounts⟩ := record_eq h.range m.seq
  rw [heq]
  refine ⟨hrange, by rintro l ⟨⟩, fun k hk => ?_, fun k hk => ?_, fun k hk => ?_⟩
  · rw [Map.lookup_erase]
    split
    next => rfl
    next hne => exact h.requests k ((Finset.mem_insert.mp hk).resolve_left hne)
  · rw [List.mem_append, mem_arrivesLate data]
    simp only [hcounts]
    by_cases hk' : k = m.seq
    · subst hk'
      cases hpending : r.retransmissionRequests.lookup m.seq with
      | some time => exact .inl (if_pos ⟨rfl, rfl⟩)
      | none =>
        rw [if_neg (by simp)]
        cases hcount : r.retransmissionAttempts.lookup m.seq with
        | none => exact .inl rfl
        | some n => exact .inr (.inr ⟨rfl, rfl, n, rfl⟩)
    · rw [if_neg fun hand => hk' hand.1]
      have hold := h.attempts k ((Finset.mem_insert.mp hk).resolve_left hk')
      exact hold.imp_right .inl
  · simp only [hcounts]
    rcases List.mem_append.mp hk with hold | hnew
    · obtain ⟨hmem, n, hn⟩ := h.kept k hold
      refine ⟨Finset.mem_insert_of_mem hmem, n, ?_⟩
      rw [if_neg, hn]
      rintro ⟨rfl, hpending⟩
      rw [h.requests _ hmem] at hpending
      contradiction
    · obtain ⟨rfl, hnone, n, hn⟩ := (mem_arrivesLate data).mp hnew
      refine ⟨Finset.mem_insert_self _ _, n, ?_⟩
      rw [if_neg (by simp [hnone]), hn]

theorem Released.step {r t : Receiver} (h : r.Released late) (hs : Step r a t) :
    t.Released (late ++ arrivesLate r a) := by
  cases hs with
  | skip packet other =>
    rw [arrivesLate_skip other, List.append_nil]
    exact { h with listed := by rintro l ⟨⟩ }
  | record m data => exact h.record data
  | ack seq phase =>
    have hnil : arrivesLate r (.ack true) = [] := rfl
    rw [hnil, List.append_nil]
    refine { h with listed := fun l hl k hk => ?_ }
    simp only [detect] at hl
    split at hl
    next =>
      cases hl
      exact (mem_missing.mp hk).2.1
    next => contradiction
  | request seq rest now phase =>
    have hnil : arrivesLate r (.request true now) = [] := rfl
    rw [hnil, List.append_nil]
    have hlisted := h.listed _ phase
    have hne : ∀ k ∈ r.receivedSeqs, k ≠ seq :=
      fun k hk heq => hlisted seq List.mem_cons_self (heq ▸ hk)
    refine ⟨h.range, fun l hl k hk => ?_, fun k hk => ?_, fun k hk => ?_, fun k hk => ?_⟩
    · cases hl
      exact hlisted k (List.mem_cons_of_mem _ hk)
    · rw [track, Map.lookup_insert, if_neg (hne k hk)]
      exact h.requests k hk
    · rw [track, Map.lookup_insert, if_neg (hne k hk)]
      exact h.attempts k hk
    · obtain ⟨hmem, hcount⟩ := h.kept k hk
      refine ⟨hmem, ?_⟩
      rw [track, Map.lookup_insert, if_neg (hne k hmem)]
      exact hcount
  | stopAck =>
    have hnil : arrivesLate r (.ack false) = [] := rfl
    rw [hnil, List.append_nil]
    exact { h with listed := by rintro l ⟨⟩ }
  | stopRequest now =>
    have hnil : arrivesLate r (.request false now) = [] := rfl
    rw [hnil, List.append_nil]
    exact { h with listed := by rintro l ⟨⟩ }
  | check now order phase timedOut =>
    have hnil : arrivesLate r (.check now order) = [] := rfl
    rw [hnil, List.append_nil]
    obtain ⟨requests, counts, heq, hrequests, hcounts⟩ := retries_eq r (timedOut_nodup timedOut)
    have hsame : ∀ k ∈ r.receivedSeqs, counts.lookup k = r.retransmissionAttempts.lookup k := by
      intro k hk
      refine (hcounts k).trans (if_neg fun hand => ?_)
      obtain ⟨time, htime, -⟩ := mem_timedOut.mp (timedOut ▸ Multiset.mem_coe.mpr hand.1)
      rw [h.requests k hk] at htime
      contradiction
    rw [heq]
    refine ⟨h.range, by rintro l ⟨⟩, fun k hk => ?_, fun k hk => ?_, fun k hk => ?_⟩
    · rw [hrequests, h.requests k hk, ite_self]
    · rw [hsame k hk]
      exact h.attempts k hk
    · obtain ⟨hmem, hcount⟩ := h.kept k hk
      exact ⟨hmem, hsame k hmem ▸ hcount⟩

structure Accounted (r : Receiver) (log : List Entry) (skipped : List Nat) : Prop where
  counted : ∀ seq, seq ∉ r.receivedSeqs →
    r.attempts seq = r.socket.count (rqstMessage seq) + skipped.count seq
  logged : ∀ seq, rqstMessage seq ∈ r.socket → ∃ time, .requested seq time ∈ log

theorem Accounted.still {r : Receiver} (h : r.Accounted log skipped) (phase : Phase)
    (es : List Entry) : Accounted { r with phase := phase } (log ++ es) (skipped ++ []) where
  counted seq hseq := by
    rw [List.append_nil]
    exact h.counted seq hseq
  logged seq hseq := (h.logged seq hseq).imp fun _ htime => List.mem_append_left _ htime

theorem Accounted.record {r : Receiver} (h : r.Accounted log skipped) (hr : r.WellRanged)
    (seq : Nat) (es : List Entry) : (r.record seq).Accounted (log ++ es) (skipped ++ []) := by
  obtain ⟨min, max, counts, heq, -, hcounts⟩ := record_eq hr seq
  rw [heq]
  refine ⟨fun k hk => ?_, (h.still r.phase es).logged⟩
  obtain ⟨hne, hk⟩ := not_or.mp (Finset.mem_insert.not.mp hk)
  rw [ReceiverLog.attempts_of_lookup ((hcounts k).trans (if_neg fun hand => hne hand.1))]
  exact (h.still r.phase es).counted k hk

theorem Accounted.request {r : Receiver} (h : r.Accounted log skipped) (seq now : Nat)
    (phase : Phase) : Accounted { r.track seq now with
      socket := r.socket ++ [rqstMessage seq]
      phase := phase } (log ++ [.requested seq now]) (skipped ++ []) := by
  refine ⟨fun k hk => ?_, fun k hk => ?_⟩
  · have hattempts := attempts_track r seq now k
    rw [h.counted k hk] at hattempts
    rw [count_request, List.append_nil]
    exact hattempts.trans (Nat.add_right_comm _ _ _)
  · rcases List.mem_append.mp hk with hold | hnew
    · exact (h.logged k hold).imp fun _ htime => List.mem_append_left _ htime
    · cases List.mem_singleton.mp hnew
      exact ⟨now, List.mem_append_right _ (List.mem_singleton_self _)⟩

theorem Accounted.check {r : Receiver} (h : r.Accounted log skipped) {order : List Nat}
    (hn : order.Nodup) (now : Nat) (es : List Entry) :
    Accounted { order.foldl retry r with phase := .receiving } (log ++ es)
      (skipped ++ skips r (.check now order)) := by
  obtain ⟨requests, counts, heq, -, hcounts⟩ := retries_eq r hn
  rw [heq]
  refine ⟨fun k hk => ?_, (h.still r.phase es).logged⟩
  have hskips : (skips r (.check now order)).count k =
      if k ∈ order ∧ r.attempts k < r.maxRetransmissionAttempts then 1 else 0 := by
    rw [skips, (hn.filter _).count]
    simp only [List.mem_filter, decide_eq_true_eq]
  have hattempts : (counts.lookup k).getD 0 = r.attempts k +
      if k ∈ order ∧ r.attempts k < r.maxRetransmissionAttempts then 1 else 0 := by
    rw [hcounts]
    split
    next => rfl
    next => rfl
  rw [List.count_append, hskips, ← Nat.add_assoc, ← h.counted k hk]
  exact hattempts

theorem Accounted.step {r t : Receiver} (h : r.Accounted log skipped) (hr : r.WellRanged)
    (hs : Step r a t) :
    t.Accounted (log ++ ReceiverLog.entries r a) (skipped ++ skips r a) := by
  cases hs with
  | skip packet other => exact h.still .checking _
  | record m data => exact h.record hr m.seq _
  | ack seq phase =>
    refine ⟨fun k hk => ?_, fun k hk => ?_⟩
    · rw [count_ack]
      exact (h.still r.phase []).counted k hk
    · obtain hk | hk := List.mem_append.mp hk
      · exact (h.still r.phase _).logged k hk
      · cases List.mem_singleton.mp hk
  | request seq rest now phase =>
    have hentry : ReceiverLog.entries r (.request true now) = [.requested seq now] := by
      simp only [ReceiverLog.entries, phase]
    rw [hentry]
    exact h.request seq now (.requesting rest)
  | stopAck | stopRequest => exact h.still .stopped _
  | check now order phase timedOut => exact h.check (timedOut_nodup timedOut) now _

theorem received_mono {r t : Receiver} (hr : r.WellRanged) (hs : Step r a t) :
    r.receivedSeqs ⊆ t.receivedSeqs := by
  cases hs with
  | record m data =>
    obtain ⟨min, max, counts, heq, -⟩ := record_eq hr m.seq
    rw [heq]
    exact Finset.subset_insert _ _
  | check now order phase timedOut =>
    obtain ⟨requests, counts, heq, -⟩ := retries_eq r (timedOut_nodup timedOut)
    rw [heq]
  | skip | ack | request | stopAck | stopRequest => exact Finset.Subset.refl _

theorem exhausted_step {r t : Receiver} (hd : r.Detecting maxAttempts) (hs : Step r a t)
    (he : r.Stands seq .exhausted) (missing : seq ∉ t.receivedSeqs) :
    t.Stands seq .exhausted ∧
      t.socket.count (rqstMessage seq) = r.socket.count (rqstMessage seq) := by
  obtain ⟨hnot, hnone, n, hn, hmost⟩ := he
  cases hs with
  | skip | stopAck | stopRequest => exact ⟨⟨hnot, hnone, n, hn, hmost⟩, rfl⟩
  | record m data =>
    obtain ⟨min, max, counts, heq, -, hcounts⟩ := record_eq hd.tracked.range m.seq
    rw [heq] at missing ⊢
    have hne : seq ≠ m.seq := fun hseq => missing (hseq ▸ Finset.mem_insert_self _ _)
    refine ⟨⟨missing, ?_, n, ?_, hmost⟩, rfl⟩
    · rw [Map.lookup_erase, if_neg hne, hnone]
    · rw [hcounts, if_neg fun hand => hne hand.1, hn]
  | ack k phase => exact ⟨⟨hnot, hnone, n, hn, hmost⟩, count_ack _ _ _⟩
  | request k rest now phase =>
    have hne : seq ≠ k := by
      rintro rfl
      obtain ⟨-, -, hexceeded⟩ := (hd.listed _ phase).missing seq List.mem_cons_self
      rw [exceeded_iff.mpr ⟨n, hn, hmost⟩] at hexceeded
      contradiction
    refine ⟨⟨hnot, ?_, n, ?_, hmost⟩, ?_⟩
    · rw [track, Map.lookup_insert, if_neg hne, hnone]
    · rw [track, Map.lookup_insert, if_neg hne, hn]
    · rw [count_request, if_neg hne, Nat.add_zero]
  | check now order phase timedOut =>
    obtain ⟨requests, counts, heq, hrequests, hcounts⟩ := retries_eq r (timedOut_nodup timedOut)
    rw [heq]
    have hattempts : r.attempts seq = n := by rw [attempts, hn, Option.getD_some]
    refine ⟨⟨hnot, ?_, n, ?_, hmost⟩, rfl⟩
    · rw [hrequests, hnone, ite_self]
    · rw [hcounts, if_neg fun hand => absurd (hattempts ▸ hand.2) (Nat.not_lt.mpr hmost), hn]

end Receiver

namespace AttemptLedger

open Receiver (Action)

theorem step_eq_some {l t : AttemptLedger} (hs : l.step a = some t) :
    ∃ o, l.run.step a = some o ∧ Receiver.Step l.run.receiver a o.receiver ∧
      t = ⟨o, l.skipped ++ skips l.run.receiver a, l.late ++ arrivesLate l.run.receiver a⟩ := by
  obtain ⟨o, ho, rfl⟩ := Option.map_eq_some_iff.mp hs
  obtain ⟨r, hr, rfl⟩ := ReceiverLog.step_eq_some ho
  exact ⟨_, ho, Receiver.step_sound hr, rfl⟩

theorem released_of_reachable {timeout maxAttempts : Nat} {l : AttemptLedger}
    (h : (machine timeout maxAttempts).Reachable l) : l.run.receiver.Released l.late := by
  refine h.invariant (I := fun l => l.run.receiver.Released l.late) ?_ fun l a t _ ih _ hs => ?_
  · exact ⟨.empty, by rintro k ⟨⟩, by rintro k ⟨⟩, by rintro k ⟨⟩, by rintro k ⟨⟩⟩
  · obtain ⟨o, -, hstep, rfl⟩ := step_eq_some hs
    exact ih.step hstep

theorem bookkeeping_released_iff {timeout maxAttempts : Nat} {l : AttemptLedger}
    (h : (machine timeout maxAttempts).Reachable l) :
    (∀ seq ∈ l.run.receiver.receivedSeqs,
      l.run.receiver.retransmissionRequests.lookup seq = none ∧
        l.run.receiver.retransmissionAttempts.lookup seq = none) ↔ l.late = [] := by
  have hreleased := released_of_reachable h
  constructor
  · intro hnone
    refine List.eq_nil_iff_forall_not_mem.mpr fun seq hseq => ?_
    obtain ⟨hmem, n, hn⟩ := hreleased.kept seq hseq
    rw [(hnone seq hmem).2] at hn
    contradiction
  · intro hlate seq hseq
    have hcount := hreleased.attempts seq hseq
    rw [hlate] at hcount
    exact ⟨hreleased.requests seq hseq, hcount.resolve_right List.not_mem_nil⟩

theorem bookkeeping_released_iff_in_time :
    ∃ l, (machine 2000 3).Reachable l ∧ l.run.receiver.socket.count (rqstMessage 3) = 1 ∧
      3 ∈ l.run.receiver.receivedSeqs ∧
      l.run.receiver.retransmissionAttempts.lookup 3 = none := by
  obtain ⟨l, hl, hcount, hmem, hlate⟩ := Machine.exists_reaches_of_replay
    (M := machine 2000 3) (C := fun _ _ => True)
    (P := fun l => l.run.receiver.socket.count (rqstMessage 3) = 1 ∧
      3 ∈ l.run.receiver.receivedSeqs ∧ l.late = [])
    [.recvFrom (some (dataMessage 2 "a")), .ack true, .check 0 [],
      .recvFrom (some (dataMessage 4 "b")), .ack true, .request true 100, .check 100 [],
      .recvFrom (some (dataMessage 3 "c")), .ack true, .check 200 []] (by decide)
  exact ⟨l, hl, hcount, hmem, ((bookkeeping_released_iff hl).mpr hlate 3 hmem).2⟩

/-- Number 3 arrives after the request for it has timed out. -/
theorem late_arrival_leaks :
    ¬∀ (timeout maxAttempts : Nat) (r : Receiver),
      (Receiver.machine timeout maxAttempts).Reachable r → r.phase = .receiving →
      ∀ seq ∈ r.receivedSeqs, r.retransmissionRequests.lookup seq = none ∧
        r.retransmissionAttempts.lookup seq = none := by
  intro h
  obtain ⟨r, hr, hphase, hmem, hcount⟩ := Machine.exists_reaches_of_replay
    (M := Receiver.machine 2000 3) (C := fun _ _ => True)
    (P := fun r => r.phase = .receiving ∧ 3 ∈ r.receivedSeqs ∧
      r.retransmissionAttempts.lookup 3 = some 2)
    [.recvFrom (some (dataMessage 2 "a")), .ack true, .check 0 [],
      .recvFrom (some (dataMessage 4 "b")), .ack true, .request true 100, .check 100 [],
      .recvFrom none, .check 3000 [3],
      .recvFrom (some (dataMessage 3 "c")), .ack true, .check 3100 []] (by decide)
  rw [(h 2000 3 r hr hphase 3 hmem).2] at hcount
  contradiction

theorem accounted_of_reachable {timeout maxAttempts : Nat} {l : AttemptLedger}
    (h : (machine timeout maxAttempts).Reachable l) :
    l.run.receiver.Accounted l.run.log l.skipped := by
  refine h.invariant (I := fun l => l.run.receiver.Accounted l.run.log l.skipped) ?_
    fun l a t hr ih _ hs => ?_
  · exact ⟨fun _ _ => rfl, by rintro k ⟨⟩⟩
  · obtain ⟨o, ho, hstep, rfl⟩ := step_eq_some hs
    obtain ⟨r, -, rfl⟩ := ReceiverLog.step_eq_some ho
    exact ih.step (released_of_reachable hr).range hstep

theorem run_reaches {timeout maxAttempts : Nat} {l : AttemptLedger}
    (h : (machine timeout maxAttempts).Reaches Clocked l) :
    (ReceiverLog.machine timeout maxAttempts).Reaches ReceiverLog.Clocked l.run := by
  induction h with
  | init => exact .init
  | step _ hc hs ih =>
    obtain ⟨o, ho, -, rfl⟩ := step_eq_some hs
    exact .step ih hc ho

theorem detecting_of_reaches {timeout maxAttempts : Nat} (hone : 1 ≤ maxAttempts)
    {l : AttemptLedger} (h : (machine timeout maxAttempts).Reaches Clocked l) :
    l.run.receiver.Detecting maxAttempts :=
  Receiver.detecting_of_reaches hone ((ReceiverLog.simulation _ _ _).reachable (run_reaches h))

theorem exhausted_stays {timeout maxAttempts : Nat} (hone : 1 ≤ maxAttempts) {l : AttemptLedger}
    (h : (machine timeout maxAttempts).Reaches Clocked l)
    (he : l.run.receiver.Stands seq .exhausted) :
    NeverRequested (machine timeout maxAttempts) l seq := by
  intro t ht missing
  suffices hstays : t.run.receiver.Stands seq .exhausted ∧
      t.run.receiver.socket.count (rqstMessage seq) =
        l.run.receiver.socket.count (rqstMessage seq) from hstays.2
  induction ht with
  | init => exact ⟨he, rfl⟩
  | step hs _ hnext ih =>
    obtain ⟨o, -, hstep, rfl⟩ := step_eq_some hnext
    have hd := detecting_of_reaches hone (h.resume hs)
    have hmono := Receiver.received_mono hd.tracked.range hstep
    obtain ⟨he, hcount⟩ := ih fun hmem => missing (hmono hmem)
    obtain ⟨he', hcount'⟩ := Receiver.exhausted_step hd hstep he missing
    exact ⟨he', hcount'.trans hcount⟩

theorem lastTimedOut {timeout maxAttempts : Nat} (hone : 1 ≤ maxAttempts) {l : AttemptLedger}
    (h : (machine timeout maxAttempts).Reaches Clocked l)
    (he : l.run.receiver.Stands seq .exhausted)
    (hcount : l.run.receiver.socket.count (rqstMessage seq) = maxAttempts) :
    LastTimedOut timeout l.run seq := by
  obtain ⟨hnot, hnone, -⟩ := he
  have hsent : rqstMessage seq ∈ l.run.receiver.socket :=
    List.count_pos_iff.mp (hcount ▸ hone)
  obtain ⟨time, htime⟩ := (accounted_of_reachable h.reachable).logged seq hsent
  obtain ⟨x, rest, hlast⟩ := Log.exists_latest (p := Entry.Requests seq) ⟨_, htime, rfl⟩
  obtain ⟨last, rfl⟩ : ∃ last, x = .requested seq last := by
    cases x with
    | requested k last => exact ⟨last, congrArg (Entry.requested · last) hlast.1⟩
    | received | dropped => exact hlast.1.elim
  obtain hpending | ⟨-, now, hdropped, hlate, -⟩ :=
    (ReceiverLog.recorded_of_reaches hone (run_reaches h)).settled seq last rest hlast hnot
  · rw [hnone] at hpending
    contradiction
  · exact ⟨last, rest, now, hlast, hdropped, hlate⟩

theorem abandoned_after_all_attempts {timeout maxAttempts : Nat} (hone : 1 ≤ maxAttempts)
    {l : AttemptLedger} (h : (machine timeout maxAttempts).Reaches Clocked l)
    (missing : seq ∉ l.run.receiver.receivedSeqs) :
    (l.run.receiver.attempts seq = l.run.receiver.socket.count (rqstMessage seq) ∧
      (l.run.receiver.Stands seq .exhausted →
        l.run.receiver.socket.count (rqstMessage seq) = maxAttempts ∧
          LastTimedOut timeout l.run seq ∧
          NeverRequested (machine timeout maxAttempts) l seq)) ↔ seq ∉ l.skipped := by
  have hcounted := (accounted_of_reachable h.reachable).counted seq missing
  constructor
  · rintro ⟨hattempts, -⟩ hskipped
    have := List.count_pos_iff.mpr hskipped
    omega
  · intro hskipped
    rw [List.count_eq_zero_of_not_mem hskipped, Nat.add_zero] at hcounted
    refine ⟨hcounted, fun he => ?_⟩
    have hcount : l.run.receiver.socket.count (rqstMessage seq) = maxAttempts := by
      obtain ⟨-, -, n, hn, hmost⟩ := he
      have hbounded := (ReceiverLog.recorded_of_reaches hone (run_reaches h)).bounded seq
      have hlimit := (detecting_of_reaches hone h).tracked.limit
      rw [Receiver.attempts, hn, Option.getD_some] at hcounted
      omega
    exact ⟨hcount, lastTimedOut hone h he hcount, exhausted_stays hone h he⟩

theorem abandoned_after_all_attempts_once :
    ∃ l, (machine 2000 1).Reaches Clocked l ∧ l.run.receiver.Stands 3 .exhausted ∧
      l.run.receiver.socket.count (rqstMessage 3) = 1 ∧ LastTimedOut 2000 l.run 3 := by
  obtain ⟨l, hl, hmissing, hnone, hattempts, hmost, hskipped⟩ :=
    Machine.exists_reaches_of_replay (M := machine 2000 1) (C := Clocked)
    (P := fun l => 3 ∉ l.run.receiver.receivedSeqs ∧
      l.run.receiver.retransmissionRequests.lookup 3 = none ∧
      l.run.receiver.retransmissionAttempts.lookup 3 = some 1 ∧
      l.run.receiver.maxRetransmissionAttempts ≤ 1 ∧ 3 ∉ l.skipped)
    [.recvFrom (some (dataMessage 2 "a")), .ack true, .check 0 [],
      .recvFrom (some (dataMessage 4 "b")), .ack true, .request true 100, .check 100 [],
      .recvFrom none, .check 3000 [3]] (by decide)
  have he : l.run.receiver.Stands 3 .exhausted := ⟨hmissing, hnone, 1, hattempts, hmost⟩
  obtain ⟨-, hall⟩ := (abandoned_after_all_attempts (by decide) hl hmissing).mpr hskipped
  obtain ⟨hcount, hlast, -⟩ := hall he
  exact ⟨l, hl, he, hcount, hlast⟩

/-- Three attempts are allowed: number 3 is given up after two RQSTs. -/
theorem abandoned_after_two_requests :
    ¬∀ (timeout maxAttempts : Nat), 1 ≤ maxAttempts → ∀ o,
      (ReceiverLog.machine timeout maxAttempts).Reaches ReceiverLog.Clocked o →
      ∀ seq, seq ∉ o.receiver.receivedSeqs →
        o.receiver.attempts seq = o.receiver.socket.count (rqstMessage seq) ∧
        (o.receiver.Stands seq .exhausted →
          o.receiver.socket.count (rqstMessage seq) = maxAttempts ∧
            LastTimedOut timeout o seq) := by
  intro h
  obtain ⟨o, ho, hmissing, hnone, hattempts, hmost, hcount⟩ := Machine.exists_reaches_of_replay
    (M := ReceiverLog.machine 2000 3) (C := ReceiverLog.Clocked)
    (P := fun o => 3 ∉ o.receiver.receivedSeqs ∧
      o.receiver.retransmissionRequests.lookup 3 = none ∧
      o.receiver.retransmissionAttempts.lookup 3 = some 3 ∧
      o.receiver.maxRetransmissionAttempts ≤ 3 ∧
      o.receiver.socket.count (rqstMessage 3) = 2)
    [.recvFrom (some (dataMessage 2 "a")), .ack true, .check 0 [],
      .recvFrom (some (dataMessage 4 "b")), .ack true, .request true 100, .check 100 [],
      .recvFrom none, .check 3000 [3], .recvFrom (some (dataMessage 2 "a")), .ack true,
      .request true 3100, .check 3100 [], .recvFrom (some (ackMessage 9)), .check 6000 [3],
      .recvFrom (some (dataMessage 6 "c")), .ack true, .request true 9000] (by decide)
  have hall := (h 2000 3 (by decide) o ho 3 hmissing).2 ⟨hmissing, hnone, 3, hattempts, hmost⟩
  rw [hcount] at hall
  exact absurd hall.1 (by decide)

end AttemptLedger

end BdsPro.Udp.Bin
