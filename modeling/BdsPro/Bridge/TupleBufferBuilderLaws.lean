import BdsPro.Bridge.TupleBufferBuilder

namespace BdsPro.Bridge

open BdsPro.Library

namespace TupleBufferBuilder

theorem copy_children {b t : TupleBufferBuilder π} (h : b.copy src n = .ok t) :
    t.buffer.children = b.buffer.children := by
  unfold copy at h
  split at h
  next => exact Except.ok.inj h ▸ rfl
  next => contradiction

theorem setData_children {b t : TupleBufferBuilder π} (h : b.setData data = .ok t) :
    t.buffer.children = b.buffer.children := by
  simp only [setData] at h
  split at h
  next => exact copy_children h
  next => contradiction

theorem setData_eq {b : TupleBufferBuilder π} {data : List UInt8}
    (fits : data.length ≤ b.buffer.memory.length) :
    b.setData data = .ok { b with buffer := { b.buffer with
      memory := data ++ b.buffer.memory.drop data.length } } := by
  simp only [setData, if_pos fits, copy, Nat.min_eq_left fits, memcpy_all fits]

theorem addChildBuffer_children {P : AbstractBufferProvider π} {b t : TupleBufferBuilder π}
    (h : addChildBuffer P b child = .ok t) : t.buffer.children = b.buffer.children := by
  simp only [addChildBuffer] at h
  split at h
  next => contradiction
  next =>
    split at h
    next => exact (copy_children h).trans rfl
    next => contradiction

theorem addChildBuffer_overwrites {P : AbstractBufferProvider π} (allocates : P.Allocates)
    {b : TupleBufferBuilder π} {child : List UInt8}
    (fits : child.length ≤ b.buffer.memory.length) :
    ∃ t, addChildBuffer P b child = .ok t ∧
      t.buffer.memory = child ++ b.buffer.memory.drop child.length := by
  obtain ⟨block, hblock, hlength⟩ := allocates b.bufferProvider child.length
  refine ⟨⟨{ b.buffer with memory := child ++ b.buffer.memory.drop child.length },
    (P.getUnpooledBuffer b.bufferProvider child.length).2⟩, ?_, rfl⟩
  simp only [addChildBuffer, hblock, if_pos hlength, copy, Nat.min_eq_left hlength,
    memcpy_all fits]

theorem call_children {P : AbstractBufferProvider π} {b t : TupleBufferBuilder π}
    (h : call P b c = .ok t) : t.buffer.children = b.buffer.children := by
  cases c with
  | setMetadata metadata => exact Except.ok.inj h ▸ rfl
  | setData data => exact setData_children h
  | addChildBuffer child => exact addChildBuffer_children h

theorem calls_children {P : AbstractBufferProvider π} {b t : TupleBufferBuilder π}
    {calls : List BuilderCall} (h : calls.foldlM (call P) b = .ok t) :
    t.buffer.children = b.buffer.children := by
  induction calls generalizing b with
  | nil => exact Except.ok.inj h ▸ rfl
  | cons c calls ih =>
    rw [List.foldlM_cons] at h
    cases hc : call P b c with
    | error e =>
      rw [hc] at h
      contradiction
    | ok s =>
      rw [hc] at h
      exact (ih h).trans (call_children hc)

theorem children_kept_apart_iff {P : AbstractBufferProvider π} (b : TupleBufferBuilder π)
    {data : List UInt8} (fits : data.length ≤ b.buffer.memory.length)
    (children : List (List UInt8)) :
    (∃ t, build P b data children = .ok t ∧ b.Holds t data children) ↔ children = [] := by
  constructor
  · rintro ⟨t, hbuild, -, attached, hattached, hall⟩
    have hnone : attached = [] := by
      rw [calls_children hbuild] at hattached
      exact List.self_eq_append_right.mp hattached
    rw [hnone, List.forall₂_nil_left_iff] at hall
    exact hall
  · rintro rfl
    refine ⟨_, (bind_pure (b.setData data)).trans (setData_eq fits), ?_, [], by simp, .nil⟩
    exact List.take_left

def zeroProvider : AbstractBufferProvider Unit := ⟨fun _ n => (some (List.replicate n 0), ())⟩

theorem zeroProvider_allocates : zeroProvider.Allocates :=
  fun _ n => ⟨List.replicate n 0, rfl, List.length_replicate.ge⟩

def exampleBuilder : TupleBufferBuilder Unit := ⟨⟨⟨1, 1, 1, 1, 1, true⟩, [0, 0, 0], []⟩, ()⟩

theorem children_kept_apart_iff_no_children :
    ∃ t, build zeroProvider exampleBuilder [7, 8] [] = .ok t ∧
      exampleBuilder.Holds t [7, 8] [] :=
  (children_kept_apart_iff exampleBuilder (by decide) []).mpr rfl

/-- The child takes the place of the first byte of the data, and is not attached. -/
theorem child_overwrites_data :
    ¬∀ (P : AbstractBufferProvider Unit) (b : TupleBufferBuilder Unit) (data : List UInt8)
      (children : List (List UInt8)), P.Allocates → data.length ≤ b.buffer.memory.length →
      ∃ t, build P b data children = .ok t ∧ b.Holds t data children := by
  intro h
  obtain ⟨t, hbuild, hdata, -⟩ :=
    h zeroProvider exampleBuilder [7, 8] [[9]] zeroProvider_allocates (by decide)
  have hresult : build zeroProvider exampleBuilder [7, 8] [[9]] =
      .ok ⟨⟨⟨1, 1, 1, 1, 1, true⟩, [9, 8, 0], []⟩, ()⟩ := rfl
  obtain rfl := Except.ok.inj (hresult.symm.trans hbuild)
  exact absurd hdata (by decide)

end TupleBufferBuilder

end BdsPro.Bridge
