import BdsPro.TestNode.Generator

namespace BdsPro.TestNode

open BdsPro.Library BdsPro.Network

theorem length_toLeBytes (n : Nat) : (toLeBytes n).length = 8 := by
  rw [toLeBytes, List.length_map, List.length_range]

theorem cursorBuffer_eq (counter size : Nat) :
    cursorBuffer counter size = Cursor.copies (Cursor.covers size 8) (toLeBytes counter) := by
  have hblock : 0 < (toLeBytes counter).length := by simp [length_toLeBytes]
  have hfill := Cursor.fill_new (List.replicate size 0) hblock
  rwa [List.length_replicate, length_toLeBytes] at hfill

theorem expectedBuffer_eq (counter : Nat) : expectedBuffer counter = cursorBuffer counter 16 := by
  have hblock : 0 < (toLeBytes counter).length := by simp [length_toLeBytes]
  have hdvd : (toLeBytes counter).length ∣ (List.replicate 16 (0 : UInt8)).length := by
    simp [length_toLeBytes]
  exact (Cursor.fill_eq_fillUpTo hblock hdvd).symm

theorem childSize_eq {counter idx : Nat} (hidx : idx < 2) (h : 20 * counter < 2 ^ 64) :
    childSize counter idx = some ((idx + 1) * (10 * counter) % 16) := by
  have hproduct : (idx + 1) * (10 * counter) ≤ 2 * (10 * counter) :=
    Nat.mul_le_mul_right _ (by omega)
  rw [childSize, Checked.add_eq_some (by omega), Option.bind_some,
    Checked.mul_eq_some (by omega), Option.bind_some, Checked.mul_eq_some (by omega),
    Option.map_some]

theorem childBuffers_eq {counter : Nat} (h : 20 * counter < 2 ^ 64) :
    childBuffers counter = some ((List.range (counter % 3)).map fun idx =>
      Cursor.copies (Cursor.covers ((idx + 1) * (10 * counter) % 16) 8) (toLeBytes counter)) := by
  refine Checked.mapM_eq_some fun idx hidx => ?_
  have hlt : idx < 2 := by
    have := List.mem_range.mp hidx
    omega
  rw [childSize_eq hlt h, Option.map_some, cursorBuffer_eq]

theorem childrenMatch_iff (received expected : List (List UInt8)) :
    childrenMatch received expected = true ↔ received = expected := by
  induction received generalizing expected with
  | nil => cases expected <;> simp [childrenMatch]
  | cons child received ih =>
    cases expected with
    | nil => simp [childrenMatch]
    | cons child' expected =>
      have hrest := ih expected
      simp only [childrenMatch, List.length_cons, ne_eq, Nat.add_right_cancel_iff,
        List.zip_cons_cons, List.all_cons, List.cons.injEq] at hrest ⊢
      split
      next hne =>
        rw [if_pos hne] at hrest
        simpa using fun _ heq => hne (congrArg List.length heq)
      next heq =>
        rw [if_neg heq] at hrest
        rw [Bool.and_eq_true, decide_eq_true_eq, hrest]

theorem verifyTupleBuffer_eq {received : TupleBuffer} {counter : Nat}
    {children : List (List UInt8)} (number : received.sequenceNumber = counter + 1)
    (hchildren : childBuffers counter = some children) :
    verifyTupleBuffer received = some (decide (received.data = cursorBuffer counter 16) &&
      childrenMatch received.childBuffers children) := by
  have hsub : Checked.sub (counter + 1) 1 = some counter := Checked.sub_eq_some (Nat.succ_pos _)
  rw [verifyTupleBuffer, number, hsub, Option.bind_some, expectedBuffer_eq, hchildren]
  split
  next hne => simp [hne]
  next heq => simp [not_not.mp heq]

theorem emitted_eq {counter : Nat} {children : List (List UInt8)}
    (hchildren : childBuffers counter = some children) (hcounter : counter + 1 < 2 ^ 64) :
    GeneratorSource.emitted counter =
      some ⟨counter + 1, 1, 2, 1, 1, true, cursorBuffer counter 16, children⟩ := by
  rw [GeneratorSource.emitted, hchildren, Option.bind_some, Checked.add_eq_some hcounter,
    Option.map_some]

theorem verifies_iff_emitted (b : TupleBuffer) (positive : 1 ≤ b.sequenceNumber)
    (fits : 20 * (b.sequenceNumber - 1) < 2 ^ 64) :
    ∃ g, GeneratorSource.emitted (b.sequenceNumber - 1) = some g ∧
      g.sequenceNumber = b.sequenceNumber ∧ verifyTupleBuffer g = some true ∧
      ∃ verdict, verifyTupleBuffer b = some verdict ∧
        (verdict = true ↔ b.data = g.data ∧ b.childBuffers = g.childBuffers) := by
  obtain ⟨counter, hnumber⟩ := Nat.exists_eq_add_of_le' positive
  rw [hnumber, Nat.add_sub_cancel] at fits ⊢
  have hchildren := childBuffers_eq fits
  refine ⟨_, emitted_eq hchildren (by omega), rfl, ?_, _,
    verifyTupleBuffer_eq hnumber hchildren, ?_⟩
  · rw [verifyTupleBuffer_eq rfl hchildren, (childrenMatch_iff _ _).mpr rfl, Bool.and_true,
      decide_eq_true rfl]
  · rw [Bool.and_eq_true, decide_eq_true_eq, childrenMatch_iff]

theorem verifies_iff_emitted_third : ∃ g, GeneratorSource.emitted 2 = some g ∧
    g.childBuffers.map List.length = [8, 8] ∧ verifyTupleBuffer g = some true := by
  obtain ⟨g, hg, -, hverified, -⟩ :=
    verifies_iff_emitted (exampleBuffer 3 []) (by decide) (by decide)
  have hlengths : (GeneratorSource.emitted 2).map (fun g => g.childBuffers.map List.length) =
      some [8, 8] := by decide
  rw [show GeneratorSource.emitted 2 = some g from hg, Option.map_some] at hlengths
  exact ⟨g, hg, Option.some.inj hlengths, hverified⟩

end BdsPro.TestNode
