import Mathlib.Algebra.GroupWithZero.Nat
import Mathlib.Data.List.TakeDrop

/-! A frame writer: frames are encoded into a buffer, and the buffer is handed to an
ordered byte stream that may take it piece by piece. -/

universe u

namespace BdsPro.Library

/-- What the byte stream does with the bytes offered to it: it takes all of them, or it
takes some and then blocks or fails. -/
inductive Io
  | complete
  | blocked (taken : Nat)
  | failed (taken : Nat) (error : String)
  deriving DecidableEq

/-- Encoded length of a frame, the frames the encoder accepts, and the buffer length from
which on the buffer is flushed before the next frame. -/
structure Codec (α : Type u) where
  frameLen : α → Nat
  fits : α → Bool
  boundary : Nat

def Codec.completed (codec : Codec α) : List α → Nat → Nat × Nat
  | [], n => (0, n)
  | x :: xs, n =>
    if codec.frameLen x ≤ n then
      ((codec.completed xs (n - codec.frameLen x)).1 + 1,
        (codec.completed xs (n - codec.frameLen x)).2)
    else (0, n)

/-- `wire` lists the frames the stream has taken completely; of the first frame of
`buffer` it has taken `written` bytes. -/
structure FramedWrite (α : Type u) where
  buffer : List α
  written : Nat
  wire : List α
  deriving DecidableEq

namespace FramedWrite

variable {α : Type u}

def new : FramedWrite α := ⟨[], 0, []⟩

def accepted (w : FramedWrite α) : List α := w.wire ++ w.buffer

def buffered (w : FramedWrite α) (codec : Codec α) : Nat :=
  (w.buffer.map codec.frameLen).sum - w.written

def write (w : FramedWrite α) (codec : Codec α) (n : Nat) : FramedWrite α where
  buffer := w.buffer.drop (codec.completed w.buffer (w.written + n)).1
  written := (codec.completed w.buffer (w.written + n)).2
  wire := w.wire ++ w.buffer.take (codec.completed w.buffer (w.written + n)).1

def pollFlush (w : FramedWrite α) (codec : Codec α) : Io → Option (FramedWrite α)
  | .complete => some ⟨[], 0, w.wire ++ w.buffer⟩
  | .blocked n | .failed n _ => if n < w.buffered codec then some (w.write codec n) else none

def pollReady (w : FramedWrite α) (codec : Codec α) (io : Io) : Option (FramedWrite α) :=
  if codec.boundary ≤ w.buffered codec then w.pollFlush codec io
  else if io = .complete then some w else none

def startSend (w : FramedWrite α) (codec : Codec α) (x : α) : Option (FramedWrite α) :=
  if codec.fits x then some { w with buffer := w.buffer ++ [x] } else none

inductive Sending
  | pending (fed : Bool)
  | done
  | failed (error : String)
  deriving DecidableEq

def flushed : Io → Sending
  | .complete => .done
  | .blocked _ => .pending true
  | .failed _ e => .failed e

def pollSend (w : FramedWrite α) (codec : Codec α) (x : α) (fed : Bool) (io : Io) :
    Option (FramedWrite α × Sending) :=
  if fed then (w.pollFlush codec io).map fun w => (w, flushed io)
  else (w.pollReady codec io).map fun w =>
    match io with
    | .complete =>
      match w.startSend codec x with
      | some w => (w, .pending true)
      | none => (w, .failed "frame size too big")
    | .blocked _ => (w, .pending false)
    | .failed _ e => (w, .failed e)

structure Progress (w w' : FramedWrite α) : Prop where
  accepted : w'.accepted = w.accepted
  wire : w.wire <+: w'.wire

theorem Progress.refl (w : FramedWrite α) : w.Progress w := ⟨rfl, List.prefix_rfl⟩

theorem progress_write (w : FramedWrite α) (codec : Codec α) (n : Nat) :
    w.Progress (w.write codec n) where
  accepted := by simp only [FramedWrite.accepted, write, List.append_assoc, List.take_append_drop]
  wire := List.prefix_append _ _

theorem progress_pollFlush {w w' : FramedWrite α} {codec : Codec α}
    (h : w.pollFlush codec io = some w') : w.Progress w' := by
  cases io with
  | complete =>
    cases h
    exact ⟨by simp [FramedWrite.accepted], List.prefix_append _ _⟩
  | blocked n | failed n e =>
    simp only [pollFlush, Option.ite_none_right_eq_some, Option.some.injEq] at h
    exact h.2 ▸ progress_write w codec n

theorem progress_pollReady {w w' : FramedWrite α} {codec : Codec α}
    (h : w.pollReady codec io = some w') : w.Progress w' := by
  unfold pollReady at h
  split at h
  · exact progress_pollFlush h
  · simp only [Option.ite_none_right_eq_some, Option.some.injEq] at h
    exact h.2 ▸ .refl w

theorem startSend_eq_some {w w' : FramedWrite α} {codec : Codec α}
    (h : w.startSend codec x = some w') : w'.accepted = w.accepted ++ [x] ∧ w'.wire = w.wire := by
  simp only [startSend, Option.ite_none_right_eq_some, Option.some.injEq] at h
  cases h.2
  exact ⟨(List.append_assoc ..).symm, rfl⟩

theorem pollSend_eq_some {w w' : FramedWrite α} {codec : Codec α}
    (h : w.pollSend codec x fed io = some (w', s)) :
    w.wire <+: w'.wire ∧ (w'.accepted = w.accepted ∧ (fed = false → s ≠ .done) ∨
      fed = false ∧ w'.accepted = w.accepted ++ [x] ∧ s = .pending true) := by
  cases fed with
  | true =>
    simp only [pollSend, if_true, Option.map_eq_some_iff, Prod.mk.injEq] at h
    obtain ⟨w'', hw, rfl, rfl⟩ := h
    have hprog := progress_pollFlush hw
    exact ⟨hprog.wire, .inl ⟨hprog.accepted, nofun⟩⟩
  | false =>
    simp only [pollSend, Bool.false_eq_true, if_false, Option.map_eq_some_iff] at h
    obtain ⟨w'', hw, hs⟩ := h
    have hprog := progress_pollReady hw
    cases io with
    | complete =>
      simp only at hs
      split at hs
      next hsend =>
        cases hs
        obtain ⟨hacc, hwire⟩ := startSend_eq_some hsend
        exact ⟨hwire ▸ hprog.wire, .inr ⟨rfl, hprog.accepted ▸ hacc, rfl⟩⟩
      next =>
        cases hs
        exact ⟨hprog.wire, .inl ⟨hprog.accepted, nofun⟩⟩
    | blocked n | failed n e =>
      cases hs
      exact ⟨hprog.wire, .inl ⟨hprog.accepted, nofun⟩⟩

theorem pollSend_fed {w w' : FramedWrite α} {codec : Codec α}
    (h : w.pollSend codec x true io = some (w', .pending fed)) : fed = true := by
  simp only [pollSend, if_true, Option.map_eq_some_iff, Prod.mk.injEq] at h
  obtain ⟨w'', -, -, hs⟩ := h
  cases io with
  | complete | failed => contradiction
  | blocked n =>
    cases hs
    rfl

theorem wire_prefix_accepted (w : FramedWrite α) : w.wire <+: w.accepted := List.prefix_append _ _

inductive Poll (codec : Codec α) : FramedWrite α → FramedWrite α → Prop
  | idle : Poll codec w w
  | flush (flushed : w.pollFlush codec io = some w') : Poll codec w w'
  | ready (ready : w.pollReady codec io = some w') : Poll codec w w'
  | send (ready : w.pollReady codec .complete = some w')
      (sent : w'.startSend codec x = some w'') : Poll codec w w''

theorem poll_pollSend {w w' : FramedWrite α} {codec : Codec α}
    (h : w.pollSend codec x fed io = some (w', s)) : Poll codec w w' := by
  cases fed with
  | true =>
    simp only [pollSend, if_true, Option.map_eq_some_iff, Prod.mk.injEq] at h
    obtain ⟨w'', hw, rfl, -⟩ := h
    exact .flush hw
  | false =>
    simp only [pollSend, Bool.false_eq_true, if_false, Option.map_eq_some_iff] at h
    obtain ⟨w'', hw, hs⟩ := h
    cases io with
    | complete =>
      simp only at hs
      split at hs
      next hsent =>
        cases hs
        exact .send hw hsent
      next =>
        cases hs
        exact .ready hw
    | blocked n | failed n e =>
      cases hs
      exact .ready hw

structure Bounded (codec : Codec α) (w : FramedWrite α) : Prop where
  written : w.written ≤ (w.buffer.head?.map codec.frameLen).getD 0
  backlog : (w.buffer.tail.dropLast.map codec.frameLen).sum < codec.boundary

theorem completed_rest (codec : Codec α) {l : List α} {n : Nat}
    (h : n < (l.map codec.frameLen).sum) :
    (codec.completed l n).2 ≤
      ((l.drop (codec.completed l n).1).head?.map codec.frameLen).getD 0 := by
  induction l generalizing n with
  | nil => contradiction
  | cons x xs ih =>
    rw [List.map_cons, List.sum_cons] at h
    unfold Codec.completed
    split
    next hle => exact ih (by omega)
    next hlt => exact Nat.le_of_not_le hlt

theorem sum_completed (codec : Codec α) (l : List α) (n : Nat) :
    ((l.drop (codec.completed l n).1).map codec.frameLen).sum + n =
      (l.map codec.frameLen).sum + (codec.completed l n).2 := by
  induction l generalizing n with
  | nil => rfl
  | cons x xs ih =>
    unfold Codec.completed
    split
    next hle =>
      have hrest := ih (n - codec.frameLen x)
      rw [List.drop_succ_cons, List.map_cons, List.sum_cons]
      omega
    next => rfl

theorem buffered_write {w : FramedWrite α} {codec : Codec α} {n : Nat}
    (hn : n < w.buffered codec) : (w.write codec n).buffered codec + n = w.buffered codec := by
  have hsum := sum_completed codec w.buffer (w.written + n)
  unfold buffered at hn
  simp only [buffered, write]
  omega

theorem pollReady_complete (w : FramedWrite α) (codec : Codec α) :
    ∃ w', w.pollReady codec .complete = some w' := by
  unfold pollReady
  split
  · exact ⟨_, rfl⟩
  · exact ⟨w, if_pos rfl⟩

theorem sum_drop_le (f : α → Nat) (l : List α) (n : Nat) :
    ((l.drop n).map f).sum ≤ (l.map f).sum := by
  have h := congrArg (fun l => (l.map f).sum) (List.take_append_drop n l)
  simp only [List.map_append, List.sum_append] at h
  omega

theorem Bounded.write {w : FramedWrite α} {codec : Codec α} (hb : w.Bounded codec)
    (hn : n < w.buffered codec) : (w.write codec n).Bounded codec where
  written := completed_rest codec (by unfold buffered at hn; omega)
  backlog := by
    refine Nat.lt_of_le_of_lt ?_ hb.backlog
    simp only [FramedWrite.write, List.tail_drop_eq_drop_tail, List.dropLast_drop_eq_drop_dropLast]
    exact sum_drop_le _ _ _

theorem Bounded.flush {w w' : FramedWrite α} {codec : Codec α} (hb : w.Bounded codec)
    (h : w.pollFlush codec io = some w') : w'.Bounded codec := by
  cases io with
  | complete =>
    cases h
    exact ⟨Nat.le_refl 0, Nat.zero_lt_of_lt hb.backlog⟩
  | blocked n | failed n e =>
    simp only [pollFlush, Option.ite_none_right_eq_some, Option.some.injEq] at h
    exact h.2 ▸ hb.write h.1

theorem Bounded.ready {w w' : FramedWrite α} {codec : Codec α} (hb : w.Bounded codec)
    (h : w.pollReady codec io = some w') :
    w'.Bounded codec ∧ (io = .complete → w'.buffered codec < codec.boundary) := by
  unfold pollReady at h
  split at h
  next hfull =>
    refine ⟨hb.flush h, ?_⟩
    rintro rfl
    cases h
    exact Nat.zero_lt_of_lt hb.backlog
  next hroom =>
    simp only [Option.ite_none_right_eq_some, Option.some.injEq] at h
    exact h.2 ▸ ⟨hb, fun _ => Nat.lt_of_not_le hroom⟩

theorem Bounded.send {w w' : FramedWrite α} {codec : Codec α} (hb : w.Bounded codec)
    (hroom : w.buffered codec < codec.boundary) (h : w.startSend codec x = some w') :
    w'.Bounded codec := by
  simp only [startSend, Option.ite_none_right_eq_some, Option.some.injEq] at h
  obtain ⟨-, rfl⟩ := h
  obtain ⟨hwritten, -⟩ := hb
  unfold buffered at hroom
  cases hbuffer : w.buffer with
  | nil =>
    rw [hbuffer] at hwritten
    exact ⟨Nat.le_trans hwritten (Nat.zero_le _), Nat.zero_lt_of_lt hroom⟩
  | cons y ys =>
    simp only [hbuffer, List.head?_cons, Option.map_some, Option.getD_some, List.map_cons,
      List.sum_cons] at hwritten hroom
    refine ⟨hwritten, ?_⟩
    rw [List.cons_append, List.tail_cons, List.dropLast_concat]
    omega

theorem Bounded.poll {w w' : FramedWrite α} {codec : Codec α} (hb : w.Bounded codec)
    (h : Poll codec w w') : w'.Bounded codec := by
  cases h with
  | idle => exact hb
  | flush flushed => exact hb.flush flushed
  | ready ready => exact (hb.ready ready).1
  | send ready sent => exact (hb.ready ready).1.send ((hb.ready ready).2 rfl) sent

theorem Bounded.new {codec : Codec α} (h : 0 < codec.boundary) :
    (new : FramedWrite α).Bounded codec :=
  ⟨Nat.le_refl 0, h⟩

theorem countP_mul_le_sum {p : α → Bool} {f : α → Nat} (h : ∀ x, p x = true → m ≤ f x)
    (l : List α) : l.countP p * m ≤ (l.map f).sum := by
  induction l with
  | nil => simp
  | cons x xs ih =>
    rw [List.map_cons, List.sum_cons]
    cases hp : p x with
    | true =>
      have := h x hp
      rw [List.countP_cons_of_pos hp, Nat.succ_mul]
      omega
    | false =>
      rw [List.countP_cons_of_neg (by simp [hp])]
      omega

theorem countP_le_middle (p : α → Bool) (l : List α) :
    l.countP p ≤ l.tail.dropLast.countP p + 2 := by
  cases l with
  | nil => simp
  | cons x xs =>
    have hone : ∀ y, [y].countP p ≤ 1 := fun y => List.countP_le_length
    have hx := hone x
    rcases List.eq_nil_or_concat xs with rfl | ⟨ys, y, rfl⟩
    · omega
    · have hy := hone y
      have hcons : (x :: (ys ++ [y])).countP p = [x].countP p + (ys.countP p + [y].countP p) := by
        rw [← List.countP_append, ← List.countP_append]
        rfl
      rw [List.concat_eq_append, List.tail_cons, List.dropLast_concat]
      omega

theorem Bounded.countP_lt {w : FramedWrite α} {codec : Codec α} (hb : w.Bounded codec)
    {p : α → Bool} (h : ∀ x, p x = true → m ≤ codec.frameLen x) :
    (w.buffer.countP p - 2) * m < codec.boundary := by
  refine Nat.lt_of_le_of_lt ?_ hb.backlog
  refine Nat.le_trans ?_ (countP_mul_le_sum h w.buffer.tail.dropLast)
  have := countP_le_middle p w.buffer
  exact Nat.mul_le_mul_right m (by omega)

end FramedWrite

end BdsPro.Library
