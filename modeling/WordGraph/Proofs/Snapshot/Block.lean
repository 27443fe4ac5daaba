import Mathlib.Algebra.Group.Nat.Defs
import WordGraph.Snapshot.Block

/-!
Numbers and blocks as bytes: reading gives back what was written, and leaves alone what follows it.
-/

namespace WordGraph.Block

theorem length_littleEndian (width n : Nat) : (littleEndian width n).length = width := by
  induction width generalizing n with
  | zero => rfl
  | succ width ih => rw [littleEndian, List.length_cons, ih]

theorem ofLittleEndian_littleEndian {width n : Nat} (h : n < 256 ^ width) :
    ofLittleEndian (littleEndian width n) = n := by
  induction width generalizing n with
  | zero =>
      have : n = 0 := by simpa using h
      exact this.symm
  | succ width ih =>
      have fits : n / 256 < 256 ^ width := Nat.div_lt_of_lt_mul (by rwa [Nat.pow_succ'] at h)
      have low : (UInt8.ofNat (n % 256)).toNat = n % 256 := by
        rw [UInt8.toNat_ofNat']
        exact Nat.mod_eq_of_lt (Nat.mod_lt n (by decide))
      have rest : ofLittleEndian (littleEndian width (n / 256)) = n / 256 := ih fits
      calc ofLittleEndian (littleEndian (width + 1) n)
          = (UInt8.ofNat (n % 256)).toNat + 256 * ofLittleEndian (littleEndian width (n / 256)) := rfl
        _ = n := by rw [low, rest, Nat.mod_add_div]

theorem ofLittleEndian_lt (bytes : List UInt8) : ofLittleEndian bytes < 256 ^ bytes.length := by
  induction bytes with
  | nil => exact Nat.one_pos
  | cons b bytes ih =>
      have := b.toNat_lt
      rw [List.length_cons, Nat.pow_succ']
      simp only [ofLittleEndian, List.foldr_cons] at ih ⊢
      omega

/-- Fields of one width that have the same value are the same. -/
theorem ofLittleEndian_injective {bytes other : List UInt8} (same : bytes.length = other.length)
    (h : ofLittleEndian bytes = ofLittleEndian other) : bytes = other := by
  induction bytes generalizing other with
  | nil => exact (List.eq_nil_of_length_eq_zero same.symm).symm
  | cons a bytes ih =>
      cases other with
      | nil => cases same
      | cons b other =>
          simp only [ofLittleEndian, List.foldr_cons] at ih h
          have ha := a.toNat_lt
          have hb := b.toNat_lt
          have low : a = b := UInt8.toNat_inj.1 (by omega)
          rw [low, ih (Nat.succ.inj same) (by omega)]

theorem take?_append {n : Nat} {bytes : List UInt8} (h : bytes.length = n) (rest : List UInt8) :
    take? n (bytes ++ rest) = some (bytes, rest) := by
  subst h
  simp [take?]

theorem extension?_extension (n : Nat) (rest : List UInt8) :
    extension? (extension n ++ rest) = some (n, rest) := by
  have key (k r : Nat) (hr : r < 255) :
      extension? (List.replicate k 255 ++ .ofNat r :: rest) = some (255 * k + r, rest) := by
    have low : (UInt8.ofNat r).toNat = r := by
      rw [UInt8.toNat_ofNat']
      exact Nat.mod_eq_of_lt (by omega)
    induction k with
    | zero =>
        have last : UInt8.ofNat r ≠ 255 := fun e => by
          have : r = 255 := low.symm.trans (congrArg UInt8.toNat e)
          omega
        simp [extension?, last, low]
    | succ k ih =>
        rw [List.replicate_succ, List.cons_append, extension?, if_pos rfl, ih, Option.map_some,
          Nat.mul_succ]
        congr 2
        omega
  have split := key (n / 255) (n % 255) (Nat.mod_lt n (by decide))
  rw [Nat.div_add_mod] at split
  simpa [extension] using split

/-- A block of literals alone is read in one round, if there is room for them. -/
theorem sequences?_literals (room rounds : Nat) {token : UInt8} {length bytes : List UInt8}
    (read : length? (token.toNat / 16) (length ++ bytes) = some (bytes.length, bytes)) :
    sequences? room (rounds + 1) (token :: (length ++ bytes)) #[] =
      if room < bytes.length then none else some bytes.toArray := by
  have taken : take? bytes.length bytes = some (bytes, []) := by
    simpa using take?_append rfl []
  simp [sequences?, read, taken]

theorem unpack?_pack_eq (bytes : List UInt8) :
    unpack? (pack bytes) =
      if ofLittleEndian (littleEndian 4 bytes.length) < bytes.length then none else some bytes := by
  have front (block : List UInt8) : take? 4 (littleEndian 4 bytes.length ++ block) =
      some (littleEndian 4 bytes.length, block) := take?_append (length_littleEndian 4 _) block
  rw [pack, List.append_assoc]
  simp only [unpack?, front, Option.bind_eq_bind, Option.bind_some]
  generalize ofLittleEndian (littleEndian 4 bytes.length) = room
  by_cases short : bytes.length < 15
  · have token : (UInt8.ofNat (16 * bytes.length)).toNat / 16 = bytes.length := by
      rw [UInt8.toNat_ofNat']
      omega
    have read : length? ((UInt8.ofNat (16 * bytes.length)).toNat / 16) ([] ++ bytes) =
        some (bytes.length, bytes) := by
      rw [token, length?, if_neg (by omega), List.nil_append]
    have whole := sequences?_literals room bytes.length read
    rw [List.nil_append] at whole
    simp only [if_pos short, List.cons_append, List.nil_append, List.length_cons, whole]
    split <;> rfl
  · have read : length? ((0xF0 : UInt8).toNat / 16) (extension (bytes.length - 15) ++ bytes) =
        some (bytes.length, bytes) := by
      have : 15 + (bytes.length - 15) = bytes.length := by omega
      rw [show (0xF0 : UInt8).toNat / 16 = 15 from rfl, length?, if_pos rfl, extension?_extension,
        Option.map_some, this]
    have whole := sequences?_literals room (extension (bytes.length - 15) ++ bytes).length read
    simp only [if_neg short, List.cons_append, List.length_cons, whole]
    split <;> rfl

theorem unpack?_pack {bytes : List UInt8} (small : bytes.length < 2 ^ 32) :
    unpack? (pack bytes) = some bytes := by
  have room : ofLittleEndian (littleEndian 4 bytes.length) = bytes.length :=
    ofLittleEndian_littleEndian small
  rw [unpack?_pack_eq, room, if_neg (Nat.lt_irrefl _)]

end WordGraph.Block
