import Mathlib.Data.Nat.Bitwise
import WordGraph.Proofs.Snapshot.Block
import WordGraph.Snapshot.Checksum

/-!
The checksum tells apart byte strings that differ in a short stretch. Feeding is linear in exclusive
or, so two runs are told apart by the run over their difference from the state zero; and a run over
at most four bytes that ends in zero began in the number that those bytes spell from the lowest.
-/

namespace WordGraph.Checksum

theorem shift_of_even {c : UInt32} (h : c.toNat.testBit 0 = false) : shift c = c >>> 1 := by
  refine if_neg fun low => ?_
  have odd := congrArg UInt32.toNat low
  rw [UInt32.toNat_and, UInt32.toNat_one, Nat.and_one_is_mod] at odd
  rw [Nat.testBit_zero, odd] at h
  exact nomatch h

theorem shift_of_odd {c : UInt32} (h : c.toNat.testBit 0 = true) :
    shift c = (c >>> 1) ^^^ polynomial := by
  refine if_pos (UInt32.toNat_inj.1 ?_)
  rw [UInt32.toNat_and, UInt32.toNat_one, Nat.and_one_is_mod]
  simpa using h

theorem shift_xor (c d : UInt32) : shift (c ^^^ d) = shift c ^^^ shift d := by
  have low : (c ^^^ d).toNat.testBit 0 = (c.toNat.testBit 0 ^^ d.toNat.testBit 0) := by
    rw [UInt32.toNat_xor, Nat.testBit_xor]
  have halves : (c ^^^ d) >>> 1 = (c >>> 1) ^^^ (d >>> 1) := UInt32.shiftRight_xor
  cases hc : c.toNat.testBit 0 <;> cases hd : d.toNat.testBit 0 <;> rw [hc, hd] at low
  · rw [shift_of_even low, shift_of_even hc, shift_of_even hd, halves]
  · rw [shift_of_odd low, shift_of_even hc, shift_of_odd hd, halves, UInt32.xor_assoc]
  · rw [shift_of_odd low, shift_of_odd hc, shift_of_even hd, halves]
    ac_rfl
  · have cancel : polynomial ^^^ polynomial = 0 := UInt32.xor_self
    calc shift (c ^^^ d)
        = (c >>> 1) ^^^ (d >>> 1) ^^^ (polynomial ^^^ polynomial) := by
          rw [shift_of_even low, halves, cancel, UInt32.xor_zero]
      _ = ((c >>> 1) ^^^ polynomial) ^^^ ((d >>> 1) ^^^ polynomial) := by ac_rfl
      _ = shift c ^^^ shift d := by rw [shift_of_odd hc, shift_of_odd hd]

/-- The polynomial has the highest bit, so a shift that leaves it clear took in an even number. -/
theorem toNat_eq_of_shift_lt {c : UInt32} (h : (shift c).toNat < 2 ^ 31) :
    c.toNat = 2 * (shift c).toNat := by
  have half : (c >>> 1).toNat = c.toNat / 2 := by
    rw [UInt32.toNat_shiftRight]
    exact Nat.shiftRight_one _
  cases low : c.toNat.testBit 0 with
  | false =>
      rw [shift_of_even low, half]
      simp only [Nat.testBit_zero, decide_eq_false_iff_not] at low
      omega
  | true =>
      rw [shift_of_odd low, UInt32.toNat_xor] at h
      have high : ((c >>> 1).toNat ^^^ polynomial.toNat).testBit 31 = true := by
        have below : (c >>> 1).toNat < 2 ^ 31 := by
          have := c.toNat_lt
          omega
        rw [Nat.testBit_xor, Nat.testBit_lt_two_pow below]
        rfl
      exact absurd (Nat.ge_two_pow_of_testBit high) (Nat.not_le.2 h)

theorem repeat_shift_xor (n : Nat) (c d : UInt32) :
    Nat.repeat shift n (c ^^^ d) = Nat.repeat shift n c ^^^ Nat.repeat shift n d := by
  induction n with
  | zero => rfl
  | succ n ih => rw [Nat.repeat, ih, shift_xor]; rfl

theorem toNat_eq_of_repeat_shift_lt {n : Nat} (small : n ≤ 32) {c : UInt32}
    (h : (Nat.repeat shift n c).toNat < 2 ^ (32 - n)) :
    c.toNat = 2 ^ n * (Nat.repeat shift n c).toNat := by
  induction n with
  | zero => exact (Nat.one_mul _).symm
  | succ n ih =>
      have power : 2 ^ (32 - n) = 2 * 2 ^ (32 - (n + 1)) := by
        rw [← Nat.pow_succ']
        congr 1
        omega
      have bound : 2 ^ (32 - (n + 1)) ≤ 2 ^ 31 := Nat.pow_le_pow_right (by decide) (by omega)
      have last := toNat_eq_of_shift_lt (Nat.lt_of_lt_of_le h bound)
      rw [Nat.repeat] at h ⊢
      have earlier := ih (by omega) (by omega)
      rw [earlier, last, Nat.pow_succ]
      ac_rfl

/-- Feeding two runs side by side feeds their difference. -/
theorem foldl_feed_xor (bytes other : List UInt8) (same : bytes.length = other.length)
    (c d : UInt32) :
    bytes.foldl feed c ^^^ other.foldl feed d =
      (List.zipWith (· ^^^ ·) bytes other).foldl feed (c ^^^ d) := by
  induction bytes generalizing other c d with
  | nil =>
      cases other with
      | nil => rfl
      | cons b other => cases same
  | cons a bytes ih =>
      cases other with
      | nil => cases same
      | cons b other =>
          have step : feed (c ^^^ d) (a ^^^ b) = feed c a ^^^ feed d b := by
            rw [feed, feed, feed, ← repeat_shift_xor, UInt8.toUInt32_xor]
            congr 1
            ac_rfl
          rw [List.foldl_cons, List.foldl_cons, List.zipWith_cons_cons, List.foldl_cons, step]
          exact ih other (Nat.succ.inj same) _ _

theorem toNat_eq_of_xor_toNat {c : UInt32} {b : UInt8} {n : Nat}
    (h : (c ^^^ b.toUInt32).toNat = 256 * n) : c.toNat = b.toNat + 256 * n := by
  have back : c.toNat = (256 * n) ^^^ b.toNat := by
    rw [← h, UInt32.toNat_xor, UInt8.toNat_toUInt32, Nat.xor_assoc, Nat.xor_self, Nat.xor_zero]
  have small := b.toNat_lt
  have high : ((256 * n) ^^^ b.toNat) / 2 ^ 8 = n := by
    rw [Nat.xor_div_two_pow, Nat.div_eq_of_lt small, Nat.xor_zero]
    exact Nat.mul_div_cancel_left n (by decide)
  have low : ((256 * n) ^^^ b.toNat) % 2 ^ 8 = b.toNat := by
    rw [Nat.xor_mod_two_pow, Nat.mod_eq_of_lt small]
    simp
  omega

/-- A run over at most four bytes that ends in zero began in the number they spell. -/
theorem toNat_eq_of_foldl_feed {bytes : List UInt8} (short : bytes.length ≤ 4) {c : UInt32}
    (h : bytes.foldl feed c = 0) : c.toNat = Block.ofLittleEndian bytes := by
  induction bytes generalizing c with
  | nil => exact congrArg UInt32.toNat h
  | cons b bytes ih =>
      rw [List.length_cons] at short
      have rest := ih (by omega) h
      have bound : (feed c b).toNat < 2 ^ (32 - 8) := by
        rw [rest]
        refine Nat.lt_of_lt_of_le (Block.ofLittleEndian_lt bytes) ?_
        exact Nat.pow_le_pow_right (by decide : 0 < 256) (by omega : bytes.length ≤ 3)
      have spelled := toNat_eq_of_repeat_shift_lt (by decide) bound
      rw [toNat_eq_of_xor_toNat spelled]
      exact congrArg (b.toNat + 256 * ·) rest

/-- Byte strings whose difference spells zero are equal. -/
theorem eq_of_difference {bytes other : List UInt8} (same : bytes.length = other.length)
    (h : Block.ofLittleEndian (List.zipWith (· ^^^ ·) bytes other) = 0) : bytes = other := by
  induction bytes generalizing other with
  | nil => exact (List.eq_nil_of_length_eq_zero same.symm).symm
  | cons a bytes ih =>
      cases other with
      | nil => cases same
      | cons b other =>
          simp only [Block.ofLittleEndian, List.zipWith_cons_cons, List.foldr_cons] at ih h
          have zero : a ^^^ b = 0 := UInt8.toNat_inj.1 (by rw [UInt8.toNat_zero]; omega)
          rw [UInt8.xor_eq_zero_iff.1 zero, ih (Nat.succ.inj same) (by omega)]

theorem feed_injective {c d : UInt32} {b : UInt8} (h : feed c b = feed d b) : c = d := by
  have run := foldl_feed_xor [b] [b] rfl c d
  have zero : feed c b ^^^ feed d b = 0 := UInt32.xor_eq_zero_iff.2 h
  have start := toNat_eq_of_foldl_feed (by simp) (run.symm.trans zero)
  simp only [List.zipWith_cons_cons, List.zipWith_nil_left, UInt8.xor_self] at start
  exact UInt32.xor_eq_zero_iff.1 (UInt32.toNat_inj.1 start)

theorem foldl_feed_injective {bytes : List UInt8} {c d : UInt32}
    (h : bytes.foldl feed c = bytes.foldl feed d) : c = d := by
  induction bytes generalizing c d with
  | nil => exact h
  | cons b bytes ih => exact feed_injective (ih h)

/-- From one state no two runs over equally many bytes, at most four, end alike. -/
theorem eq_of_foldl_feed_eq {bytes other : List UInt8} (same : bytes.length = other.length)
    (short : bytes.length ≤ 4) {c : UInt32} (h : bytes.foldl feed c = other.foldl feed c) :
    bytes = other := by
  have ends : (List.zipWith (· ^^^ ·) bytes other).foldl feed (c ^^^ c) = 0 := by
    rw [← foldl_feed_xor bytes other same, h, UInt32.xor_self]
  have size : (List.zipWith (· ^^^ ·) bytes other).length ≤ 4 := by
    rw [List.length_zipWith]
    omega
  have spelled := toNat_eq_of_foldl_feed size ends
  rw [UInt32.xor_self, UInt32.toNat_zero] at spelled
  exact eq_of_difference same spelled.symm

/-- At most four bytes between the same bytes on both sides are known from the checksum of the whole. -/
theorem eq_of_ofBytes_eq {before stretch other after : List UInt8}
    (same : stretch.length = other.length) (short : stretch.length ≤ 4)
    (h : ofBytes (before ++ stretch ++ after) = ofBytes (before ++ other ++ after)) :
    stretch = other := by
  simp only [ofBytes, List.foldl_append, UInt32.xor_left_inj] at h
  exact eq_of_foldl_feed_eq same short (foldl_feed_injective h)

end WordGraph.Checksum
