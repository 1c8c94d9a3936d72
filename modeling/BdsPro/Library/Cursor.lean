import Mathlib.Algebra.Order.Group.Nat

/-! A position in a block of bytes that grows when it is written past its end, and two loops
that fill a block with copies of another one. -/

universe u

namespace BdsPro.Library

structure Cursor (α : Type u) where
  inner : List α
  pos : Nat
  deriving DecidableEq

namespace Cursor

variable {α : Type u} {block front rest : List α} {rounds size : Nat}

def new (inner : List α) : Cursor α := ⟨inner, 0⟩

def remaining (c : Cursor α) : Nat := c.inner.length - c.pos

def writeAll [Inhabited α] (c : Cursor α) (bytes : List α) : Cursor α where
  inner := (c.inner ++ List.replicate (c.pos - c.inner.length) default).take c.pos ++ bytes ++
    c.inner.drop (c.pos + bytes.length)
  pos := c.pos + bytes.length

def fill [Inhabited α] (block : List α) : (rounds : Nat) → Cursor α → Cursor α
  | 0, c => c
  | rounds + 1, c => if 0 < c.remaining then fill block rounds (c.writeAll block) else c

def fillUpTo (capacity : Nat) (block : List α) : (rounds : Nat) → List α → List α
  | 0, bytes => bytes
  | rounds + 1, bytes =>
    if bytes.length + block.length ≤ capacity then fillUpTo capacity block rounds (bytes ++ block)
    else bytes

def copies (n : Nat) (block : List α) : List α := (List.replicate n block).flatten

theorem writeAll_eq [Inhabited α] (front rest block : List α) :
    writeAll ⟨front ++ rest, front.length⟩ block =
      ⟨(front ++ block) ++ rest.drop block.length, (front ++ block).length⟩ := by
  simp [writeAll, List.drop_append]

def covers (n b : Nat) : Nat := (n + b - 1) / b

theorem covers_step {n b : Nat} (hb : 0 < b) (hn : 0 < n) : covers n b = covers (n - b) b + 1 := by
  unfold covers
  by_cases hle : b ≤ n
  · have hsub : n + b - 1 = n - b + b - 1 + b := by omega
    rw [hsub, Nat.add_div_right _ hb]
  · have hzero : n - b + b - 1 < b := by omega
    have hone : n + b - 1 = n - 1 + b := by omega
    rw [Nat.div_eq_of_lt hzero, hone, Nat.add_div_right _ hb, Nat.div_eq_of_lt (by omega)]

theorem covers_of_dvd {n b : Nat} (hb : 0 < b) (h : b ∣ n) : covers n b = n / b := by
  obtain ⟨k, rfl⟩ := h
  have hsub : b * k + b - 1 = b - 1 + b * k := by omega
  rw [covers, hsub, Nat.add_mul_div_left _ _ hb, Nat.div_eq_of_lt (by omega),
    Nat.mul_div_cancel_left k hb, Nat.zero_add]

theorem copies_succ (front : List α) (n : Nat) (block : List α) :
    front ++ copies (n + 1) block = (front ++ block) ++ copies n block := by
  rw [copies, List.replicate_succ, List.flatten_cons, List.append_assoc, copies]

theorem fill_eq [Inhabited α] (front : List α) (hblock : 0 < block.length)
    (hrounds : rest.length ≤ rounds) :
    fill block rounds ⟨front ++ rest, front.length⟩ =
      ⟨front ++ copies (covers rest.length block.length) block,
        (front ++ copies (covers rest.length block.length) block).length⟩ := by
  have hnone : copies (covers 0 block.length) block = [] := by
    simp [covers, copies, Nat.div_eq_of_lt (Nat.sub_one_lt_of_lt hblock)]
  induction rounds generalizing front rest with
  | zero =>
    obtain rfl := List.length_eq_zero_iff.mp (Nat.le_zero.mp hrounds)
    rw [fill, List.length_nil, hnone, List.append_nil]
  | succ rounds ih =>
    rw [fill]
    split
    next hremaining =>
      have hrest : 0 < rest.length := by simpa [remaining] using hremaining
      have hdrop : (rest.drop block.length).length ≤ rounds := by
        rw [List.length_drop]
        omega
      rw [writeAll_eq, ih _ hdrop, List.length_drop, covers_step hblock hrest, copies_succ]
    next hremaining =>
      have hrest : rest.length = 0 := by simpa [remaining] using hremaining
      obtain rfl := List.length_eq_zero_iff.mp hrest
      rw [List.length_nil, hnone, List.append_nil]

theorem fill_new [Inhabited α] (rest : List α) (hblock : 0 < block.length) :
    (fill block rest.length (new rest)).inner = copies (covers rest.length block.length) block :=
  congrArg inner (fill_eq [] hblock le_rfl)

theorem fillUpTo_eq (front : List α) (hblock : 0 < block.length)
    (hrounds : size - front.length ≤ rounds) (hfront : front.length ≤ size) :
    fillUpTo size block rounds front =
      front ++ copies ((size - front.length) / block.length) block := by
  induction rounds generalizing front with
  | zero =>
    have hzero : size - front.length = 0 := Nat.le_zero.mp hrounds
    simp [fillUpTo, hzero, copies]
  | succ rounds ih =>
    rw [fillUpTo]
    have hlength : (front ++ block).length = front.length + block.length := List.length_append
    split
    next hfits =>
      have hsub : size - front.length = size - (front ++ block).length + block.length := by omega
      rw [ih _ (by omega) (by omega), hsub, Nat.add_div_right _ hblock, copies_succ]
    next hfull =>
      rw [Nat.div_eq_of_lt (by omega)]
      simp [copies]

theorem fill_eq_fillUpTo [Inhabited α] (hblock : 0 < block.length)
    (hdvd : block.length ∣ rest.length) :
    (fill block rest.length (new rest)).inner = fillUpTo rest.length block rest.length [] := by
  rw [fill_new rest hblock, covers_of_dvd hblock hdvd]
  exact (fillUpTo_eq [] hblock le_rfl (Nat.zero_le _)).symm

end Cursor

end BdsPro.Library
