import Mathlib.Algebra.BigOperators.Group.List.Basic
import BdsPro.Network.Protocol

namespace BdsPro.Network

open BdsPro.Library

theorem jsonNatLen_pos (n : Nat) : 0 < jsonNatLen n := by
  rw [jsonNatLen, Nat.toDigits_eq_if (by decide)]
  split
  next => exact Nat.zero_lt_one
  next => simp

theorem two_le_jsonMembersLen (members : List Nat) : 2 ≤ jsonMembersLen members :=
  Nat.le_add_left 2 _

theorem keyLengths : "sequence_number".length = 15 ∧ "origin_id".length = 9 ∧
    "watermark".length = 9 ∧ "chunk_number".length = 12 ∧ "number_of_tuples".length = 16 ∧
    "last_chunk".length = 10 ∧ "data".length = 4 ∧ "child_buffers".length = 13 ∧
    "Data".length = 4 := by decide

/-- Length of the Data frame of a buffer without bytes and children, with one digit for each
of its numbers. -/
def minDataFrame : Nat := 147

theorem minDataFrame_le (b : TupleBuffer) : minDataFrame ≤ requestCodec.frameLen (.data b) := by
  have hseq := jsonNatLen_pos b.sequenceNumber
  have horigin := jsonNatLen_pos b.originId
  have hwatermark := jsonNatLen_pos b.watermark
  have hchunk := jsonNatLen_pos b.chunkNumber
  have htuples := jsonNatLen_pos b.numberOfTuples
  have hlast : 4 ≤ if b.lastChunk then 4 else 5 := by split <;> decide
  have hdata : 2 ≤ jsonBytesLen b.data := two_le_jsonMembersLen _
  have hchild := two_le_jsonMembersLen (b.childBuffers.map jsonBytesLen)
  have hkeys := keyLengths
  have hmembers : 134 ≤ b.jsonLen := by
    rw [TupleBuffer.jsonLen, jsonMembersLen]
    simp only [jsonFieldLen, List.sum_cons, List.sum_nil, List.length_cons, List.length_nil]
    omega
  simp only [requestCodec, lengthDelimited, DataChannelRequest.jsonLen, jsonMembersLen,
    jsonFieldLen, List.sum_cons, List.sum_nil, List.length_cons, List.length_nil, minDataFrame]
  omega

example : requestCodec.frameLen (.data (exampleBuffer 0 [])) = minDataFrame := by
  decide

theorem fits_iff {x : DataChannelRequest} :
    requestCodec.fits x = true ↔ x.jsonLen ≤ 8 * 1024 * 1024 := by
  simp only [requestCodec, lengthDelimited, decide_eq_true_eq]

theorem length_lt_jsonBytesLen (bytes : List UInt8) : bytes.length < jsonBytesLen bytes := by
  have hsum := List.length_le_sum_of_one_le (bytes.map fun b => jsonNatLen b.toNat) (by
    intro n hn
    obtain ⟨b, -, rfl⟩ := List.mem_map.mp hn
    exact jsonNatLen_pos b.toNat)
  rw [List.length_map] at hsum
  simp only [jsonBytesLen, jsonMembersLen]
  omega

theorem data_length_lt_jsonLen (b : TupleBuffer) :
    b.data.length < DataChannelRequest.jsonLen (.data b) := by
  have hdata := length_lt_jsonBytesLen b.data
  simp only [DataChannelRequest.jsonLen, TupleBuffer.jsonLen, jsonMembersLen, jsonFieldLen,
    List.sum_cons, List.sum_nil]
  omega

end BdsPro.Network
