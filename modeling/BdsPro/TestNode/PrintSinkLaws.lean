import BdsPro.TestNode.GeneratorLaws
import BdsPro.TestNode.PrintSink
import BdsPro.TestNode.SequenceTrackerLaws

namespace BdsPro.TestNode

open BdsPro.Library BdsPro.Network

theorem isGreatest_of_firstMissing {l : List Nat} (hm : FirstMissing l.toFinset m) :
    IsGreatest {n | ∀ k, 0 < k → k ≤ n → k ∈ l} (m - 1) := by
  have hpos := hm.pos
  refine ⟨fun k hk hle => List.mem_toFinset.mp (hm.mem_of_lt hk (by omega)), fun n hn => ?_⟩
  by_contra hlt
  exact hm.notMem (List.mem_toFinset.mpr (hn m hpos (by omega)))

theorem length_lt_of_nodup {l : List Nat} (distinct : l.Nodup)
    (bounded : ∀ n ∈ l, 0 < n ∧ n < 2 ^ 64) : l.length < 2 ^ 64 := by
  have hsubset : l.toFinset ⊆ Finset.Ioo 0 (2 ^ 64) := fun n hn =>
    Finset.mem_Ioo.mpr (bounded n (List.mem_toFinset.mp hn))
  have hcard := Finset.card_le_card hsubset
  rw [List.toFinset_card_of_nodup distinct, Nat.card_Ioo] at hcard
  omega

namespace PrintSink

theorem execute_eq_some {s t : PrintSink} {data : TupleBuffer} (h : s.execute data = some t) :
    ∃ tracker errors, s.sequenceTracker.add data.sequenceNumber = some tracker ∧
      t = { s with
        sequenceTracker := tracker
        counter := (s.counter + 1) % 2 ^ 64
        errors := errors } := by
  obtain ⟨valid, -, h⟩ := Option.bind_eq_some_iff.mp h
  obtain ⟨tracker, hadd, rfl⟩ := Option.map_eq_some_iff.mp h
  exact ⟨tracker, _, hadd, rfl⟩

theorem executeAll_eq_some {s t : PrintSink} {l : List TupleBuffer}
    (hs : s.counter < 2 ^ 64) (h : s.executeAll l = some t) :
    (l.map TupleBuffer.sequenceNumber).foldlM MissingSequenceTracker.add s.sequenceTracker =
        some t.sequenceTracker ∧
      t.counter = (s.counter + l.length) % 2 ^ 64 ∧
      t.expectedMessages = s.expectedMessages ∧
      t.expectedMessagesUncertainty = s.expectedMessagesUncertainty := by
  induction l generalizing s with
  | nil =>
    obtain rfl := Option.some.inj h
    exact ⟨rfl, (Nat.mod_eq_of_lt hs).symm, rfl, rfl⟩
  | cons data l ih =>
    rw [executeAll, List.foldlM_cons] at h
    obtain ⟨s', hexecute, h⟩ := Option.bind_eq_some_iff.mp h
    obtain ⟨tracker, errors, hadd, rfl⟩ := execute_eq_some hexecute
    obtain ⟨hall, hcounter, hexpected, huncertainty⟩ := ih (Nat.mod_lt _ (by decide)) h
    refine ⟨?_, ?_, hexpected, huncertainty⟩
    · rw [List.map_cons, List.foldlM_cons, hadd]
      exact hall
    · rw [hcounter, List.length_cons]
      simp only
      omega

theorem exists_executeAll_of_addAll {s : PrintSink} {l : List TupleBuffer}
    (verified : ∀ b ∈ l, ∃ valid, verifyTupleBuffer b = some valid)
    (h : (l.map TupleBuffer.sequenceNumber).foldlM MissingSequenceTracker.add s.sequenceTracker =
      some tracker) :
    ∃ t, s.executeAll l = some t := by
  induction l generalizing s with
  | nil => exact ⟨s, rfl⟩
  | cons data l ih =>
    obtain ⟨valid, hvalid⟩ := verified data List.mem_cons_self
    rw [List.map_cons, List.foldlM_cons] at h
    obtain ⟨tracker', hadd, h⟩ := Option.bind_eq_some_iff.mp h
    rw [executeAll, List.foldlM_cons, execute, hvalid, Option.bind_some, hadd, Option.map_some]
    exact ih (fun b hb => verified b (List.mem_cons_of_mem data hb)) h

theorem exists_executeAll (expected uncertainty : Option Nat) {l : List TupleBuffer}
    (distinct : (l.map TupleBuffer.sequenceNumber).Nodup)
    (bounded : ∀ b ∈ l, 0 < b.sequenceNumber ∧ 20 * (b.sequenceNumber - 1) < 2 ^ 64) :
    ∃ s, (new expected uncertainty).executeAll l = some s := by
  have hbounded : ∀ n ∈ l.map TupleBuffer.sequenceNumber, 0 < n ∧ n < 2 ^ 64 - 1 := by
    intro n hn
    obtain ⟨b, hb, rfl⟩ := List.mem_map.mp hn
    have hlt := bounded b hb
    omega
  obtain ⟨tracker, hadd⟩ := MissingSequenceTracker.exists_addAll_of_lt distinct hbounded
  refine exists_executeAll_of_addAll (fun b hb => ?_) hadd
  obtain ⟨hpos, hfits⟩ := bounded b hb
  obtain ⟨counter, hnumber⟩ := Nat.exists_eq_add_of_le' hpos
  rw [hnumber, Nat.add_sub_cancel] at hfits
  exact ⟨_, verifyTupleBuffer_eq hnumber (childBuffers_eq hfits)⟩

theorem receiveCheck_isSome_iff (s : PrintSink) :
    s.receiveCheck.isSome ↔ ∀ expected, s.expectedMessages = some expected →
      s.expectedMessagesUncertainty.getD 0 ≤ expected ∧
        (s.counter + s.expectedMessagesUncertainty.getD 0 < expected ∨
          expected + s.expectedMessagesUncertainty.getD 0 < 2 ^ 64) := by
  unfold receiveCheck
  split
  next hnone => simp [hnone]
  next expected hsome =>
    simp only [hsome, Option.some.injEq, forall_eq', Checked.sub, Checked.add]
    generalize s.expectedMessagesUncertainty.getD 0 = uncertainty
    by_cases hle : uncertainty ≤ expected
    · rw [if_pos hle, Option.bind_some]
      split
      next => simp; omega
      next => simp; omega
    · rw [if_neg hle]
      simp [hle]

theorem receiveCheck_eq_some {s : PrintSink} (h : s.receiveCheck = some ok) :
    ok = false ↔ ∃ expected, s.expectedMessages = some expected ∧
      (s.expectedMessagesUncertainty.getD 0 : Int) < |(s.counter : Int) - expected| := by
  unfold receiveCheck at h
  split at h
  next hnone =>
    obtain rfl := Option.some.inj h
    simp [hnone]
  next expected hsome =>
    simp only [hsome, Option.some.injEq, exists_eq_left', lt_abs]
    obtain ⟨low, hlow, h⟩ := Option.bind_eq_some_iff.mp h
    obtain ⟨hle, rfl⟩ := Checked.of_sub_eq_some hlow
    split at h
    next =>
      obtain ⟨high, hhigh, rfl⟩ := Option.map_eq_some_iff.mp h
      obtain ⟨-, rfl⟩ := Checked.of_add_eq_some hhigh
      rw [decide_eq_false_iff_not]
      omega
    next =>
      obtain rfl := Option.some.inj h
      simp only [true_iff]
      omega

theorem stop_eq_some_iff {s : PrintSink} {report : StopReport}
    (tracks : MissingSequenceTracker.Tracks added s.sequenceTracker)
    (hm : FirstMissing added m) :
    s.stop = some report ↔ m < 2 ^ 64 ∧ ∃ ok, s.receiveCheck = some ok ∧
      report = ⟨m - 1, if ok then none else some s.failure⟩ := by
  rw [stop, tracks.query_eq hm]
  split
  next hlt =>
    rw [Option.bind_some, Checked.sub_eq_some hm.pos, Option.bind_some, Option.map_eq_some_iff]
    simp only [hlt, true_and, eq_comm]
  next hge => simp only [Option.bind_none, reduceCtorEq, hge, false_and]

theorem verdict_iff {expected uncertainty : Option Nat} {l : List TupleBuffer} {s : PrintSink}
    (distinct : (l.map TupleBuffer.sequenceNumber).Nodup)
    (positive : ∀ n ∈ l.map TupleBuffer.sequenceNumber, 0 < n ∧ n < 2 ^ 64)
    (executed : (new expected uncertainty).executeAll l = some s) :
    (∃ report, s.stop = some report ∧
        Reports expected uncertainty (l.map TupleBuffer.sequenceNumber) report) ↔
      (∃ n, 0 < n ∧ n < 2 ^ 64 ∧ n ∉ l.map TupleBuffer.sequenceNumber) ∧
        ∀ e, expected = some e → uncertainty.getD 0 ≤ e ∧
          (l.length + uncertainty.getD 0 < e ∨ e + uncertainty.getD 0 < 2 ^ 64) := by
  obtain ⟨hall, hcounter, hexpected, huncertainty⟩ :=
    executeAll_eq_some (s := new expected uncertainty) (Nat.two_pow_pos 64) executed
  have hlength := length_lt_of_nodup distinct positive
  rw [List.length_map] at hlength
  have hcounter : s.counter = l.length :=
    hcounter.trans ((congrArg (· % 2 ^ 64) (Nat.zero_add _)).trans (Nat.mod_eq_of_lt hlength))
  have htracks := MissingSequenceTracker.tracks_of_addAll distinct
    (fun n hn => (positive n hn).2) hall
  obtain ⟨m, hm⟩ := exists_firstMissing (l.map TupleBuffer.sequenceNumber).toFinset
  have hspare := MissingSequenceTracker.spare_iff hm
  have hcheck := receiveCheck_isSome_iff s
  simp only [MissingSequenceTracker.Spare, List.mem_toFinset] at hspare
  rw [hexpected, huncertainty, hcounter] at hcheck
  rw [hspare]
  constructor
  · rintro ⟨report, hstop, -⟩
    obtain ⟨hlt, ok, hok, -⟩ := (stop_eq_some_iff htracks hm).mp hstop
    exact ⟨hlt, hcheck.mp (Option.isSome_of_eq_some hok)⟩
  · rintro ⟨hlt, hbounds⟩
    obtain ⟨ok, hok⟩ := Option.isSome_iff_exists.mp (hcheck.mpr hbounds)
    refine ⟨_, (stop_eq_some_iff htracks hm).mpr ⟨hlt, ok, hok, rfl⟩,
      isGreatest_of_firstMissing hm, ?_⟩
    have hverdict := receiveCheck_eq_some hok
    rw [hexpected, huncertainty, hcounter] at hverdict
    rw [List.length_map]
    refine Iff.trans ?_ hverdict
    cases ok <;> simp

theorem verdict_iff_one_missing : ∃ s report,
    (new (some 3) (some 1)).executeAll [exampleBuffer 3 [], exampleBuffer 1 []] = some s ∧
      s.stop = some report ∧ Reports (some 3) (some 1) [3, 1] report := by
  obtain ⟨s, hs⟩ := exists_executeAll (some 3) (some 1)
    (l := [exampleBuffer 3 [], exampleBuffer 1 []]) (by decide) (by decide)
  obtain ⟨report, hstop, hreports⟩ := (verdict_iff (by decide) (by decide) hs).mpr
    ⟨⟨2, by decide⟩, by decide⟩
  exact ⟨s, report, hs, hstop, hreports⟩

/-- The uncertainty is larger than the expected number, so that the lower bound underflows. -/
theorem large_uncertainty_panics :
    ¬∀ (expected uncertainty : Option Nat) (l : List TupleBuffer) (s : PrintSink),
      (l.map TupleBuffer.sequenceNumber).Nodup →
      (∀ n ∈ l.map TupleBuffer.sequenceNumber, 0 < n ∧ n < 2 ^ 64) →
      (new expected uncertainty).executeAll l = some s →
      ∃ report, s.stop = some report ∧
        Reports expected uncertainty (l.map TupleBuffer.sequenceNumber) report := by
  intro h
  obtain ⟨report, hstop, -⟩ := h (some 1) (some 2) [] _ (by decide) (by decide) rfl
  exact Option.some_ne_none report hstop.symm

end PrintSink

end BdsPro.TestNode
