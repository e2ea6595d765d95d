import MiniTcp.Lib.Serial
import Mathlib.Tactic.SplitIfs

/-!
# `minitcp/net/tcp/seqno.py`: sequence arithmetic

Sequence numbers are the integers the source keeps below `2^32` by masking with `SEQ_MASK`; here
they are 32-bit vectors, so the masking is the arithmetic itself. Each comparison is tied to the
serial number order of `Serial` by an `iff` lemma, and the proofs elsewhere use only those.
-/

namespace MiniTcp

/-- A 32-bit TCP sequence number. -/
abbrev SeqNo := BitVec 32

def SEQ_HALF : Nat := 0x80000000

/-- Advance `seq` by `offset`, wrapping at `2^32`. -/
def seqAdd (seq : SeqNo) (offset : Nat) : SeqNo := Serial.shift seq offset

/-- Signed distance from `b` to `a`. -/
def seqDiff (a b : SeqNo) : Int :=
  let diff := (a - b).toNat
  if diff ≥ SEQ_HALF then (diff : Int) - 0x100000000 else diff

def seqLt (a b : SeqNo) : Bool := 0 < (b - a).toNat && (b - a).toNat < SEQ_HALF

def seqLe (a b : SeqNo) : Bool := a == b || seqLt a b

def seqGt (a b : SeqNo) : Bool := seqLt b a

def seqGe (a b : SeqNo) : Bool := a == b || seqLt b a

/-- `low ≤ seq < high` in sequence space. -/
def seqBetween (seq low high : SeqNo) : Bool := seqGe seq low && seqLt seq high

/-- The earlier of two sequence numbers. -/
def seqMin (a b : SeqNo) : SeqNo := if seqLe a b then a else b

/-- The later of two sequence numbers. -/
def seqMax (a b : SeqNo) : SeqNo := if seqGe a b then a else b

/-! ### The comparisons are those of serial numbers -/

theorem seqLt_iff {a b : SeqNo} : seqLt a b = true ↔ Serial.Lt a b := by
  simp only [seqLt, Bool.and_eq_true, decide_eq_true_eq, Serial.Lt, Serial.gap]
  rw [SEQ_HALF]
  omega

theorem seqLe_iff {a b : SeqNo} : seqLe a b = true ↔ Serial.Le a b := by
  simp [seqLe, Serial.Le, seqLt_iff]

theorem seqGt_iff {a b : SeqNo} : seqGt a b = true ↔ Serial.Lt b a := seqLt_iff

theorem seqGe_iff {a b : SeqNo} : seqGe a b = true ↔ Serial.Le b a := by
  rw [seqGe, Bool.or_eq_true, beq_iff_eq, seqLt_iff, Serial.Le, eq_comm]

theorem seqAdd_one_ne (seq : SeqNo) : seqAdd seq 1 ≠ seq := by
  intro h
  have hone := Serial.gap_shift (b := seq) (n := 1) (by decide)
  rw [← seqAdd, h, Serial.gap_self] at hone
  cases hone

theorem seqDiff_eq (a b : SeqNo) : seqDiff a b = Serial.diff a b := by
  have hhalf : SEQ_HALF = 2 ^ 31 := rfl
  simp only [seqDiff, Serial.diff, Serial.gap]
  split_ifs <;> omega

/-- The comparisons, the signed distance and the choice of the earlier and the later number are those of the
integers, as long as these are less than `2^31` apart. -/
theorem sequence_arithmetic :
    (∀ x y : Int, |x - y| < 2 ^ 31 →
      (seqLt (BitVec.ofInt 32 x) (BitVec.ofInt 32 y) = true ↔ x < y) ∧
      (seqLe (BitVec.ofInt 32 x) (BitVec.ofInt 32 y) = true ↔ x ≤ y) ∧
      (seqGt (BitVec.ofInt 32 x) (BitVec.ofInt 32 y) = true ↔ x > y) ∧
      (seqGe (BitVec.ofInt 32 x) (BitVec.ofInt 32 y) = true ↔ x ≥ y) ∧
      seqDiff (BitVec.ofInt 32 x) (BitVec.ofInt 32 y) = x - y ∧
      seqMin (BitVec.ofInt 32 x) (BitVec.ofInt 32 y) = BitVec.ofInt 32 (min x y) ∧
      seqMax (BitVec.ofInt 32 x) (BitVec.ofInt 32 y) = BitVec.ofInt 32 (max x y)) ∧
    (∀ a b : SeqNo, (b - a).toNat = 2 ^ 31 →
      seqLt a b = false ∧ seqLe a b = false ∧ seqGt a b = false ∧ seqGe a b = false) ∧
    ∀ (low s : SeqNo) (w : Nat), w < 2 ^ 31 → (seqBetween s low (seqAdd low w) = true ↔ (s - low).toNat < w) := by
  refine ⟨fun x y h => ?_, fun a b h => ?_, fun low s w h => ?_⟩
  · have hxy : 2 * |x - y| < 2 ^ 32 := by omega
    have hyx : 2 * |y - x| < 2 ^ 32 := by rwa [abs_sub_comm]
    have hle : seqLe (BitVec.ofInt 32 x) (BitVec.ofInt 32 y) = true ↔ x ≤ y := by
      rw [seqLe_iff, Serial.le_ofInt_iff hxy]
    have hge : seqGe (BitVec.ofInt 32 x) (BitVec.ofInt 32 y) = true ↔ x ≥ y := by
      rw [seqGe_iff, Serial.le_ofInt_iff hyx]
    refine ⟨?_, hle, ?_, hge, ?_, ?_, ?_⟩
    · rw [seqLt_iff, Serial.lt_ofInt_iff hxy]
    · rw [seqGt_iff, Serial.lt_ofInt_iff hyx]
    · rw [seqDiff_eq, Serial.diff_ofInt hxy]
    · simp only [seqMin, hle, min_def]
      split <;> rfl
    · simp only [seqMax, hge, max_def']
      split <;> rfl
  · have hgap : 2 * Serial.gap a b = 2 ^ 32 := by
      rw [Serial.gap, h]
      rfl
    obtain ⟨hlt, hgt⟩ := Serial.not_lt_of_gap hgap
    have hne : a ≠ b := by
      rintro rfl
      rw [Serial.gap_self] at hgap
      omega
    simp [← Bool.not_eq_true, seqLt_iff, seqLe_iff, seqGt_iff, seqGe_iff, Serial.Le, hlt, hgt, hne, hne.symm]
  · rw [seqBetween, Bool.and_eq_true, seqGe_iff, seqLt_iff]
    exact Serial.between_shift_iff (by omega)

/-- Two numbers on either side of the wrap. -/
theorem sequence_arithmetic_wrap :
    (seqLt (BitVec.ofInt 32 (-1)) (BitVec.ofInt 32 1) = true ↔ (-1 : Int) < 1) ∧
      seqLt 0 0x80000000#32 = false ∧ (seqBetween 3 0 (seqAdd 0 5) = true ↔ (3 - 0 : SeqNo).toNat < 5) :=
  ⟨(sequence_arithmetic.1 (-1) 1 (by decide)).1, (sequence_arithmetic.2.1 0 0x80000000#32 (by decide)).1,
    sequence_arithmetic.2.2 0 3 5 (by decide)⟩

end MiniTcp
