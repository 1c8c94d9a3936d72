import BdsPro.Bridge.Network

namespace BdsPro.Bridge

open BdsPro.Network BdsPro.Network.Sender

theorem serialized_tupleBuffer (metadata : SerializedTupleBuffer) (data : List UInt8)
    (children : List (List UInt8)) :
    serialized (tupleBuffer metadata data children) = metadata := by
  cases metadata
  simp only [serialized, tupleBuffer, UInt64.ofNat_toNat]

theorem addChildBuffers_calls {children : List (List UInt8)} (h : ∀ child ∈ children, child ≠ []) :
    addChildBuffers children = (.returned true, children.map .addChildBuffer) := by
  induction children with
  | nil => rfl
  | cons child children ih =>
    have hrest := ih fun c hc => h c (List.mem_cons_of_mem _ hc)
    rw [addChildBuffers, if_neg (h child List.mem_cons_self), hrest, List.map_cons]

theorem addChildBuffers_panics {children : List (List UInt8)} (h : [] ∈ children) :
    (addChildBuffers children).1 = .panicked := by
  induction children with
  | nil => contradiction
  | cons child children ih =>
    unfold addChildBuffers
    split
    next => rfl
    next hne => exact ih ((List.mem_cons.mp h).resolve_left (Ne.symm hne))

theorem trySend_eq_ok {c t : SenderChannel} (h : c.trySend m = (.ok, t)) :
    t = { c with dataQueue := c.dataQueue ++ [m] } := by
  unfold SenderChannel.trySend at h
  split at h
  next => cases h
  next =>
    split at h
    next =>
      cases h
      rfl
    next => cases h

theorem transparent_iff {c t : SenderChannel} {metadata : SerializedTupleBuffer}
    {data : List UInt8} {children : List (List UInt8)}
    (h : sendChannel c metadata data children = (.ok, t)) :
    ∃ b, t.dataQueue = c.dataQueue ++ [.data b] ∧
      ∀ (r : ReceiverChannel) (rest : List TupleBuffer), r.dataQueue = b :: rest →
        (receiveBuffer r = some (.returned true,
            .setMetadata metadata :: .setData data :: children.map .addChildBuffer,
            { r with dataQueue := rest }) ↔
          ∀ child ∈ children, child ≠ []) := by
  refine ⟨tupleBuffer metadata data children, by rw [trySend_eq_ok h], fun r rest hr => ?_⟩
  have hchildren : (tupleBuffer metadata data children).childBuffers = children := rfl
  have hdata : (tupleBuffer metadata data children).data = data := rfl
  simp only [receiveBuffer, hr, serialized_tupleBuffer, hchildren, hdata]
  constructor
  · intro heq child hchild hempty
    have hpanics := addChildBuffers_panics (hempty ▸ hchild)
    have hreturns := congrArg Prod.fst (Option.some.inj heq)
    rw [hpanics] at hreturns
    contradiction
  · intro hall
    rw [addChildBuffers_calls hall]

theorem transparent_iff_two_children :
    ∃ b, ∀ r : ReceiverChannel, r.dataQueue = [b] →
      receiveBuffer r = some (.returned true,
        [.setMetadata ⟨1, 2, 3, 4, 5, true⟩, .setData [], .addChildBuffer [7],
          .addChildBuffer [8, 9]],
        { r with dataQueue := [] }) := by
  obtain ⟨b, -, hiff⟩ :=
    @transparent_iff ⟨[], false⟩ _ ⟨1, 2, 3, 4, 5, true⟩ [] [[7], [8, 9]] rfl
  exact ⟨b, fun r hr => (hiff r [] hr).mpr (by decide)⟩

theorem empty_child_panics :
    ¬∀ (c t : SenderChannel) (metadata : SerializedTupleBuffer) (data : List UInt8)
      (children : List (List UInt8)), sendChannel c metadata data children = (.ok, t) →
      ∀ (r : ReceiverChannel) (rest : List TupleBuffer),
        r.dataQueue = tupleBuffer metadata data children :: rest →
        ∃ calls t', receiveBuffer r = some (.returned true, calls, t') := by
  intro h
  obtain ⟨calls, t', heq⟩ := h ⟨[], false⟩ _ ⟨1, 1, 1, 1, 2, true⟩ [0] [[]] rfl ⟨[_], false⟩ [] rfl
  have hpanics : (receiveBuffer ⟨[tupleBuffer ⟨1, 1, 1, 1, 2, true⟩ [0] [[]]], false⟩).map
      Prod.fst = some .panicked := by decide
  rw [heq] at hpanics
  exact absurd hpanics (by simp)

end BdsPro.Bridge
