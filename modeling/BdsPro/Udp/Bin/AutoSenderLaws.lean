import BdsPro.Udp.Bin.AutoSender

namespace BdsPro.Udp.Bin.AutoSender

open BdsPro.Library

theorem sendMessage_ok {p : Packets} (message : String) (h : p.sent + 1 < 2 ^ 64) :
    sendMessage message true p =
      some ⟨p.sent + 1, p.failed, p.attempted ++ [s!"{message} #{p.sent + 1}"]⟩ := by
  rw [sendMessage, Checked.add_eq_some h]
  rfl

theorem sendMessage_failed {p : Packets} (message : String) (hsent : p.sent + 1 < 2 ^ 64)
    (hfailed : p.failed + 1 < 2 ^ 64) :
    sendMessage message false p =
      some ⟨p.sent, p.failed + 1, p.attempted ++ [s!"{message} #{p.sent + 1}"]⟩ := by
  simp only [sendMessage, Checked.add_eq_some hsent, Checked.add_eq_some hfailed,
    Option.bind_some, Option.map_some, Bool.false_eq_true, if_false]

theorem exists_sendMessage {p : Packets} (message : String) (ok : Bool)
    (h : p.sent + p.failed + 1 < 2 ^ 64) :
    ∃ q, sendMessage message ok p = some q ∧ q.sent + q.failed = p.sent + p.failed + 1 ∧
      q.attempted.length = p.attempted.length + 1 := by
  have hsent : p.sent + 1 < 2 ^ 64 := by omega
  cases ok with
  | true => exact ⟨_, sendMessage_ok message hsent, Nat.add_right_comm _ _ _, List.length_append⟩
  | false =>
    have hfailed : p.failed + 1 < 2 ^ 64 := by omega
    exact ⟨_, sendMessage_failed message hsent hfailed, rfl, List.length_append⟩

theorem exists_packets {p : Packets} (message : String) (sends : Nat → Bool) (l : List Nat)
    (h : p.sent + p.failed + l.length < 2 ^ 64) :
    ∃ q, l.foldlM (fun p k => sendMessage message (sends k) p) p = some q ∧
      q.attempted.length = p.attempted.length + l.length := by
  induction l generalizing p with
  | nil => exact ⟨p, rfl, rfl⟩
  | cons k l ih =>
    rw [List.length_cons] at h
    obtain ⟨q, hq, hcount, hlength⟩ := exists_sendMessage message (sends k) (p := p) (by omega)
    obtain ⟨r, hr, hall⟩ := ih (p := q) (by omega)
    refine ⟨r, ?_, ?_⟩
    · rw [List.foldlM_cons, hq]
      exact hr
    · rw [hall, hlength, List.length_cons]
      omega

theorem packets_overflow {p : Packets} (message : String) (l : List Nat) (hp : p.sent < 2 ^ 64)
    (h : 2 ^ 64 ≤ p.sent + l.length) :
    l.foldlM (fun p _ => sendMessage message true p) p = none := by
  induction l generalizing p with
  | nil => exact absurd h (Nat.not_le.mpr hp)
  | cons k l ih =>
    rw [List.foldlM_cons]
    rw [List.length_cons] at h
    by_cases hsent : p.sent + 1 < 2 ^ 64
    · rw [sendMessage_ok message hsent]
      exact ih hsent (by simp only; omega)
    · rw [sendMessage, Checked.add, if_neg hsent]
      rfl

def ticks (rate duration : Nat) : Nat := totalDuration duration ⌈/⌉ packetInterval rate

theorem main_eq {rate : Nat} (message : String) (duration : Nat) (sends : Nat → Bool)
    (h : packetInterval rate ≠ 0) :
    main message rate duration sends =
      ((List.range (ticks rate duration)).foldlM
        (fun p k => sendMessage message (sends k) p) ⟨0, 0, []⟩).elim .panicked .finished := by
  have hpos := Nat.pos_of_ne_zero h
  have hrate : rate ≠ 0 := by
    rintro rfl
    exact h (Nat.div_zero 1000)
  have hticks : ticks rate duration ≤ totalDuration duration :=
    (ceilDiv_le_iff_le_mul hpos).mpr (Nat.le_mul_of_pos_left _ hpos)
  rw [main, if_neg hrate, Ticker.interval_eq_some h, Option.bind_some,
    Ticker.loop_eq hpos _ (Nat.zero_le _) (by rw [Nat.zero_add]; exact Nat.lt_succ_of_le hticks),
    List.range_eq_range']
  rfl

theorem ticks_eq_iff {rate duration : Nat} (h : packetInterval rate ≠ 0) :
    ticks rate duration = rate * duration ↔ duration = 0 ∨ rate ∣ 1000 := by
  have hpos := Nat.pos_of_ne_zero h
  constructor
  · intro heq
    have hle : 1000 * duration ≤ packetInterval rate * (rate * duration) :=
      (ceilDiv_le_iff_le_mul hpos).mp heq.le
    rw [← Nat.mul_assoc] at hle
    rcases Nat.eq_zero_or_pos duration with hzero | hduration
    · exact .inl hzero
    · have hfull : 1000 ≤ packetInterval rate * rate := Nat.le_of_mul_le_mul_right hle hduration
      have hrounded : packetInterval rate * rate ≤ 1000 := Nat.div_mul_le_self 1000 rate
      exact .inr ⟨packetInterval rate, by rw [Nat.mul_comm]; omega⟩
  · rintro (rfl | hdvd)
    · exact (zero_ceilDiv _).trans (Nat.mul_zero rate).symm
    · have hfull : packetInterval rate * rate = 1000 := Nat.div_mul_cancel hdvd
      rw [ticks, totalDuration, ← hfull, Nat.mul_assoc]
      exact smul_ceilDiv hpos _

theorem packetInterval_ne_zero_iff {rate : Nat} (accepted : 1 ≤ rate) :
    packetInterval rate ≠ 0 ↔ rate ≤ 1000 := by
  rw [packetInterval, Nat.div_ne_zero_iff]
  omega

theorem ticks_lt_of_finished {rate duration : Nat} {packets : Packets}
    (h : packetInterval rate ≠ 0)
    (finished : main "" rate duration (fun _ => true) = .finished packets) :
    ticks rate duration < 2 ^ 64 := by
  rw [main_eq "" duration _ h] at finished
  by_contra hover
  have hnone := packets_overflow (p := ⟨0, 0, []⟩) "" (List.range (ticks rate duration))
    (Nat.two_pow_pos 64) (by rw [List.length_range]; omega)
  rw [hnone] at finished
  contradiction

theorem main_attempts {rate duration : Nat} (message : String) (sends : Nat → Bool)
    (h : packetInterval rate ≠ 0) (hlt : ticks rate duration < 2 ^ 64) :
    ∃ packets, main message rate duration sends = .finished packets ∧
      packets.attempted.length = ticks rate duration := by
  obtain ⟨packets, hpackets, hlength⟩ := exists_packets (p := ⟨0, 0, []⟩) message sends
    (List.range (ticks rate duration)) (by simpa using hlt)
  refine ⟨packets, ?_, ?_⟩
  · rw [main_eq message duration sends h, hpackets]
    rfl
  · rw [hlength, List.length_range]
    exact Nat.zero_add _

theorem honours_iff {rate : Nat} (accepted : 1 ≤ rate) (duration : Nat) :
    Honours rate duration ↔
      rate * duration < 2 ^ 64 ∧ (rate ∣ 1000 ∨ duration = 0 ∧ rate ≤ 1000) := by
  constructor
  · rintro ⟨hperiod, hall⟩
    obtain ⟨packets, hmain, hlength⟩ := hall "" fun _ => true
    have hlt := ticks_lt_of_finished hperiod hmain
    obtain ⟨packets', hmain', hticks⟩ := main_attempts "" (fun _ => true) hperiod hlt
    obtain rfl := AutoSenderResult.finished.inj (hmain.symm.trans hmain')
    have heq : ticks rate duration = rate * duration := hticks.symm.trans hlength
    refine ⟨heq ▸ hlt, ?_⟩
    rcases (ticks_eq_iff hperiod).mp heq with hzero | hdvd
    · exact .inr ⟨hzero, (packetInterval_ne_zero_iff accepted).mp hperiod⟩
    · exact .inl hdvd
  · rintro ⟨hlt, hrate⟩
    have hle : rate ≤ 1000 := hrate.elim (Nat.le_of_dvd (by decide)) And.right
    have hperiod := (packetInterval_ne_zero_iff accepted).mpr hle
    have heq := (ticks_eq_iff hperiod).mpr (hrate.symm.imp_left And.left)
    refine ⟨hperiod, fun message sends => ?_⟩
    rw [← heq]
    exact main_attempts message sends hperiod (heq ▸ hlt)

theorem honours_iff_default : Honours 5 10 :=
  (honours_iff (by decide) 10).mpr ⟨by decide, .inl (by decide)⟩

/-- At a rate of 3 the interval is 333 ms, so that a fourth packet is sent before a second has
passed. -/
theorem rate_three_exceeded : ¬∀ rate duration, 1 ≤ rate → Honours rate duration := by
  intro h
  obtain ⟨packets, hmain, hlength⟩ := (h 3 1 (by decide)).2 "" fun _ => true
  have hfinished : main "" 3 1 (fun _ => true) =
      .finished ⟨4, 0, [" #1", " #2", " #3", " #4"]⟩ := by decide
  obtain rfl := AutoSenderResult.finished.inj (hfinished.symm.trans hmain)
  exact absurd hlength (by decide)

end BdsPro.Udp.Bin.AutoSender
