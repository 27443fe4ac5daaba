import WordGraph.Error
import WordGraph.Proofs.Snapshot.Checksum
import WordGraph.Proofs.Snapshot.File

/-!
Damaged snapshots. A snapshot whose bytes are changed within four neighbouring places is refused,
and so is one that is cut off or continued: what the checksum does not cover is compared with what
it has to be, and no window of four reaches both the checksum and the payload.
-/

namespace WordGraph

section Windows

/-- Says that two byte strings are equally long and differ only at `width` places from `start` on. -/
structure DiffersWithin (start width : Nat) (bytes other : List UInt8) : Prop where
  length_eq : bytes.length = other.length
  window : ∀ i, bytes[i]? ≠ other[i]? → start ≤ i ∧ i < start + width

theorem slice_eq_iff (bytes other : List UInt8) (start width : Nat) :
    (bytes.drop start).take width = (other.drop start).take width ↔
      ∀ i, start ≤ i → i < start + width → bytes[i]? = other[i]? := by
  constructor
  · intro same i above below
    have at_place := congrArg (·[i - start]?) same
    simp only [List.getElem?_take, List.getElem?_drop, if_pos (show i - start < width by omega)] at at_place
    rwa [Nat.add_sub_cancel' above] at at_place
  · intro same
    refine List.ext_getElem? fun j => ?_
    simp only [List.getElem?_take, List.getElem?_drop]
    split
    · exact same _ (by omega) (by omega)
    · rfl

namespace DiffersWithin

variable {start width : Nat} {bytes other : List UInt8}

theorem drop (h : DiffersWithin start width bytes other) (n : Nat) :
    DiffersWithin (start - n) width (bytes.drop n) (other.drop n) where
  length_eq := by rw [List.length_drop, List.length_drop, h.length_eq]
  window i differ := by
    rw [List.getElem?_drop, List.getElem?_drop] at differ
    have := h.window _ differ
    omega

theorem eq_of_ofBytes_eq (h : DiffersWithin start 4 bytes other)
    (same : Checksum.ofBytes bytes = Checksum.ofBytes other) : bytes = other := by
  have before : (bytes.drop 0).take start = (other.drop 0).take start := by
    refine (slice_eq_iff ..).2 fun i _ below => ?_
    by_contra differ
    have := h.window i differ
    omega
  have after : bytes.drop (start + 4) = other.drop (start + 4) := by
    refine List.ext_getElem? fun j => ?_
    rw [List.getElem?_drop, List.getElem?_drop]
    by_contra differ
    have := h.window _ differ
    omega
  have split (bs : List UInt8) :
      (bs.drop 0).take start ++ (bs.drop start).take 4 ++ bs.drop (start + 4) = bs := by
    rw [List.drop_zero, List.append_assoc, ← List.drop_drop, List.take_append_drop,
      List.take_append_drop]
  have lengths : ((bytes.drop start).take 4).length = ((other.drop start).take 4).length := by
    simp only [List.length_take, List.length_drop, h.length_eq]
  have sums : Checksum.ofBytes
        ((bytes.drop 0).take start ++ (bytes.drop start).take 4 ++ bytes.drop (start + 4)) =
      Checksum.ofBytes
        ((bytes.drop 0).take start ++ (other.drop start).take 4 ++ bytes.drop (start + 4)) := by
    rw [split bytes, before, after, split other]
    exact same
  have middle := Checksum.eq_of_ofBytes_eq lengths (List.length_take_le 4 _) sums
  rw [← split bytes, ← split other, before, middle, after]

end DiffersWithin
end Windows

namespace Snapshot

section Header

/-- The number that stands in the header at `start`. -/
def field (bytes : List UInt8) (start width : Nat) : Nat :=
  Block.ofLittleEndian ((bytes.drop start).take width)

theorem checkedPayload_short {bytes : List UInt8} (short : bytes.length < headerSize) :
    checkedPayload bytes = .error .shortHeader := by
  have size : (bytes.take headerSize).length < headerSize := by
    rw [List.length_take]
    omega
  simp only [checkedPayload, Header.read, if_pos size]
  rfl

theorem checkedPayload_eq {bytes : List UInt8} (long : headerSize ≤ bytes.length) :
    checkedPayload bytes =
      if (bytes.drop 0).take 4 ≠ mark then .error .noSnapshot
      else if field bytes 4 2 ≠ version then .error (.version (field bytes 4 2))
      else if (bytes.drop headerSize).length ≠ field bytes 10 8 then
        .error (.length (field bytes 10 8) (bytes.drop headerSize).length)
      else if Checksum.ofBytes (bytes.drop headerSize) ≠ .ofNat (field bytes 6 4) then
        .error (.checksum (.ofNat (field bytes 6 4)) (Checksum.ofBytes (bytes.drop headerSize)))
      else .ok (bytes.drop headerSize) := by
  have size : ¬ (bytes.take headerSize).length < headerSize := by
    rw [List.length_take]
    omega
  simp only [checkedPayload, Header.read, if_neg size, List.drop_zero, ← field.eq_def]
  by_cases marked : bytes.take 4 ≠ mark
  · rw [if_pos marked, if_pos marked]
    rfl
  · rw [if_neg marked, if_neg marked]
    by_cases unknown : field bytes 4 2 ≠ version
    · rw [if_pos unknown, if_pos unknown]
      rfl
    · rw [if_neg unknown, if_neg unknown]
      rfl

/-- Says of a snapshot that its header tells the truth about its payload. -/
structure Sealed (bytes : List UInt8) : Prop where
  long : headerSize ≤ bytes.length
  mark_eq : (bytes.drop 0).take 4 = mark
  version_eq : field bytes 4 2 = version
  length_eq : (bytes.drop headerSize).length = field bytes 10 8
  checksum_eq : Checksum.ofBytes (bytes.drop headerSize) = .ofNat (field bytes 6 4)

theorem Sealed.of_checkedPayload {bytes body : List UInt8} (h : checkedPayload bytes = .ok body) :
    Sealed bytes := by
  by_cases long : headerSize ≤ bytes.length
  · simp only [checkedPayload_eq long, Except.ite_error_eq_ok_iff, Decidable.not_not] at h
    obtain ⟨mark, version, length, checksum, _⟩ := h
    exact ⟨long, mark, version, length, checksum⟩
  · rw [checkedPayload_short (Nat.not_le.1 long)] at h
    cases h

theorem sealed_encodeWith {pack : List UInt8 → List UInt8} {g : Graph} {counter : UInt64}
    (fits : (encodeWith pack g counter).length < 2 ^ 64) : Sealed (encodeWith pack g counter) := by
  refine .of_checkedPayload (checkedPayload_append _ ?_)
  rw [encodeWith, List.length_append] at fits
  omega

theorem decode_of_checkedPayload {bytes : List UInt8} {fault : SnapshotFault}
    (unpack : List UInt8 → Option (List UInt8)) (h : checkedPayload bytes = .error fault) :
    decodeWith unpack bytes = .error fault := by
  rw [decodeWith, h]
  rfl

end Header

/-- Says that a fault is an error of storage; the others are those of the checksum, of the image and
of edges without their nodes. -/
def IsStorage : SnapshotFault → Prop
  | .shortHeader | .noSnapshot | .version _ | .length _ _ | .block | .described _
  | .graph (.idAboveCounter _ _) => True
  | .checksum _ _ | .image _ | .graph (.missingNode _) => False

/-- Says of a place that it is in the header, in the mark, the version or the length. -/
def InForm (i : Nat) : Prop := i < 6 ∨ 10 ≤ i ∧ i < headerSize

theorem field_eq_iff {bytes other : List UInt8} (same : bytes.length = other.length)
    (start width : Nat) :
    field bytes start width = field other start width ↔
      ∀ i, start ≤ i → i < start + width → bytes[i]? = other[i]? := by
  rw [← slice_eq_iff]
  constructor
  · refine Block.ofLittleEndian_injective ?_
    simp only [List.length_take, List.length_drop, same]
  · exact congrArg Block.ofLittleEndian

theorem field_lt (bytes : List UInt8) (start width : Nat) : field bytes start width < 256 ^ width := by
  refine Nat.lt_of_lt_of_le (Block.ofLittleEndian_lt _) ?_
  exact Nat.pow_le_pow_right (by decide) (List.length_take_le ..)

namespace Sealed

variable {bytes other : List UInt8}

/-- Another mark, version or length is seen whatever else was changed. -/
theorem refuses_form (h : Sealed other) (same : bytes.length = other.length) {i : Nat}
    (place : InForm i) (differ : bytes[i]? ≠ other[i]?) :
    ∃ fault, checkedPayload bytes = .error fault ∧ IsStorage fault := by
  have long : headerSize ≤ bytes.length := same ▸ h.long
  rw [checkedPayload_eq long]
  by_cases marked : (bytes.drop 0).take 4 = mark
  · by_cases known : field bytes 4 2 = version
    · have length : (bytes.drop headerSize).length ≠ field bytes 10 8 := by
        intro fits
        have mark_same := (slice_eq_iff ..).1 (marked.trans h.mark_eq.symm)
        have version_same := (field_eq_iff same 4 2).1 (known.trans h.version_eq.symm)
        have payloads : (bytes.drop headerSize).length = (other.drop headerSize).length := by
          rw [List.length_drop, List.length_drop, same]
        have length_same :=
          (field_eq_iff same 10 8).1 (fits.symm.trans (payloads.trans h.length_eq))
        rcases place with low | ⟨above, below⟩
        · by_cases inMark : i < 4
          · exact differ (mark_same i (Nat.zero_le i) (by omega))
          · exact differ (version_same i (by omega) low)
        · exact differ (length_same i above below)
      rw [if_neg (not_not_intro marked), if_neg (not_not_intro known), if_pos length]
      exact ⟨_, rfl, trivial⟩
    · rw [if_neg (not_not_intro marked), if_pos known]
      exact ⟨_, rfl, trivial⟩
  · rw [if_pos marked]
    exact ⟨_, rfl, trivial⟩

/-- A window of four that leaves the mark, the version and the length alone changes the checksum or
the payload and not both. -/
theorem checksum_ne (h : Sealed other) {start : Nat} (near : DiffersWithin start 4 bytes other)
    (differ : bytes ≠ other) (form : ∀ i, InForm i → bytes[i]? = other[i]?) :
    Checksum.ofBytes (bytes.drop headerSize) ≠ .ofNat (field bytes 6 4) := by
  intro sum
  by_cases kept : field bytes 6 4 = field other 6 4
  · have payload : bytes.drop headerSize = other.drop headerSize := by
      refine (near.drop headerSize).eq_of_ofBytes_eq ?_
      rw [sum, kept, h.checksum_eq]
    have covered := (field_eq_iff near.length_eq 6 4).1 kept
    refine differ (List.ext_getElem? fun i => ?_)
    by_cases inChecksum : 6 ≤ i ∧ i < 10
    · exact covered i inChecksum.1 inChecksum.2
    · by_cases inHeader : i < headerSize
      · exact form i (by unfold InForm; omega)
      · have at_place := congrArg (·[i - headerSize]?) payload
        simp only [List.getElem?_drop] at at_place
        rwa [Nat.add_sub_cancel' (Nat.not_lt.1 inHeader)] at at_place
  · obtain ⟨i, above, below, changed⟩ : ∃ i, 6 ≤ i ∧ i < 10 ∧ bytes[i]? ≠ other[i]? := by
      by_contra none_changed
      refine kept ((field_eq_iff near.length_eq 6 4).2 fun i above below => ?_)
      by_contra changed
      exact none_changed ⟨i, above, below, changed⟩
    have payload : bytes.drop headerSize = other.drop headerSize := by
      refine List.ext_getElem? fun j => ?_
      rw [List.getElem?_drop, List.getElem?_drop]
      by_contra far
      have here := near.window i changed
      have there := near.window _ far
      simp only [headerSize] at there
      omega
    have sums : UInt32.ofNat (field bytes 6 4) = .ofNat (field other 6 4) := by
      rw [← sum, payload, h.checksum_eq]
    refine kept ?_
    rw [← UInt32.toNat_ofNat_of_lt' (field_lt bytes 6 4), sums,
      UInt32.toNat_ofNat_of_lt' (field_lt other 6 4)]

theorem refuses_checksum (h : Sealed other) {start : Nat} (near : DiffersWithin start 4 bytes other)
    (differ : bytes ≠ other) (form : ∀ i, InForm i → bytes[i]? = other[i]?) :
    ∃ expected actual, checkedPayload bytes = .error (.checksum expected actual) := by
  have long : headerSize ≤ bytes.length := near.length_eq ▸ h.long
  have marked : (bytes.drop 0).take 4 = mark :=
    ((slice_eq_iff ..).2 fun i _ below => form i (.inl (by omega))).trans h.mark_eq
  have known : field bytes 4 2 = version :=
    ((field_eq_iff near.length_eq 4 2).2 fun i _ below => form i (.inl below)).trans h.version_eq
  have length : (bytes.drop headerSize).length = field bytes 10 8 := by
    rw [(field_eq_iff near.length_eq 10 8).2 fun i above below => form i (.inr ⟨above, below⟩),
      ← h.length_eq, List.length_drop, List.length_drop, near.length_eq]
  rw [checkedPayload_eq long, if_neg (not_not_intro marked), if_neg (not_not_intro known),
    if_neg (not_not_intro length), if_pos (h.checksum_ne near differ form)]
  exact ⟨_, _, rfl⟩

/-- A header fits payloads of one length only. -/
theorem refuses_length (h : Sealed other)
    (header : headerSize ≤ bytes.length → bytes.take headerSize = other.take headerSize)
    (differ : bytes.length ≠ other.length) : ∃ fault, checkedPayload bytes = .error fault := by
  by_cases long : headerSize ≤ bytes.length
  · have kept (start width : Nat) (inside : start + width ≤ headerSize) :
        (bytes.drop start).take width = (other.drop start).take width := by
      refine (slice_eq_iff ..).2 fun i _ below => ?_
      refine (slice_eq_iff bytes other 0 headerSize).1 ?_ i (Nat.zero_le i) (by omega)
      rw [List.drop_zero, List.drop_zero]
      exact header long
    have marked : (bytes.drop 0).take 4 = mark := (kept 0 4 (by decide)).trans h.mark_eq
    have known : field bytes 4 2 = version :=
      (congrArg Block.ofLittleEndian (kept 4 2 (by decide))).trans h.version_eq
    have length : (bytes.drop headerSize).length ≠ field bytes 10 8 := by
      have told : field bytes 10 8 = field other 10 8 :=
        congrArg Block.ofLittleEndian (kept 10 8 (by decide))
      have enough := h.long
      rw [told, ← h.length_eq, List.length_drop, List.length_drop]
      omega
    rw [checkedPayload_eq long, if_neg (not_not_intro marked), if_neg (not_not_intro known),
      if_pos length]
    exact ⟨_, rfl⟩
  · exact ⟨_, checkedPayload_short (Nat.not_le.1 long)⟩

end Sealed

/-- Whatever is changed within four neighbouring bytes of a snapshot, cut off from it or put behind
it, no graph is read from it: a change of the mark, the version or the length is told as an error
of storage, any other change as one of the checksum. -/
theorem decode_damaged (pack : List UInt8 → List UInt8) (unpack : List UInt8 → Option (List UInt8))
    (g : Graph) (counter : UInt64) (fits : (encodeWith pack g counter).length < 2 ^ 64)
    (bytes : List UInt8) (differ : bytes ≠ encodeWith pack g counter) :
    (∀ start, DiffersWithin start 4 bytes (encodeWith pack g counter) →
      ∃ fault, decodeWith unpack bytes = .error fault ∧
        ((∃ i, InForm i ∧ bytes[i]? ≠ (encodeWith pack g counter)[i]?) → IsStorage fault) ∧
        ((∀ i, InForm i → bytes[i]? = (encodeWith pack g counter)[i]?) →
          ∃ expected actual, fault = .checksum expected actual)) ∧
    (bytes <+: encodeWith pack g counter ∨ encodeWith pack g counter <+: bytes →
      ∃ fault, decodeWith unpack bytes = .error fault) := by
  have whole := sealed_encodeWith fits
  constructor
  · intro start near
    by_cases form : ∀ i, InForm i → bytes[i]? = (encodeWith pack g counter)[i]?
    · obtain ⟨expected, actual, refused⟩ := whole.refuses_checksum near differ form
      exact ⟨_, decode_of_checkedPayload unpack refused, fun ⟨i, place, changed⟩ => absurd (form i place) changed,
        fun _ => ⟨expected, actual, rfl⟩⟩
    · simp only [not_forall] at form
      obtain ⟨i, place, changed⟩ := form
      obtain ⟨fault, refused, storage⟩ := whole.refuses_form near.length_eq place changed
      exact ⟨fault, decode_of_checkedPayload unpack refused, fun _ => storage,
        fun kept => absurd (kept i place) changed⟩
  · intro cut
    suffices refused : ∃ fault, checkedPayload bytes = .error fault by
      obtain ⟨fault, refused⟩ := refused
      exact ⟨fault, decode_of_checkedPayload unpack refused⟩
    refine whole.refuses_length (fun long => ?_) fun same => ?_
    · rcases cut with ⟨rest, cut⟩ | ⟨rest, more⟩
      · rw [← cut, List.take_append_of_le_length long]
      · rw [← more, List.take_append_of_le_length whole.long]
    · rcases cut with cut | more
      · exact differ (cut.eq_of_length same)
      · exact differ (more.eq_of_length same.symm).symm

/-- A window that reaches from the checksum into the length, and a snapshot without its end. -/
theorem decode_damaged_straddling :
    ∃ g : Graph, g.edges.length = 1 ∧
      (∃ fault, decode (((encode g 2).set 9 1).set 11 7) = .error fault ∧ IsStorage fault) ∧
      ∃ fault, decode ((encode g 2).take 50) = .error fault := by
  let g : Graph := ⟨Catalog.putAll ∅ [⟨⟨1⟩, ∅⟩, ⟨⟨2⟩, ∅⟩], Catalog.putAll ∅ [⟨⟨1⟩, ⟨2⟩, ∅⟩],
    (∅ : Adjacency).link ⟨1⟩ ⟨2⟩, 2⟩
  have fits : (encode g 2).length < 2 ^ 64 := by decide +kernel
  refine ⟨g, rfl, ?_, ?_⟩
  · have near : DiffersWithin 9 4 (((encode g 2).set 9 1).set 11 7) (encode g 2) := by
      refine ⟨by simp only [List.length_set], fun i differ => ?_⟩
      by_contra far
      rw [List.getElem?_set_ne (by omega), List.getElem?_set_ne (by omega)] at differ
      exact differ rfl
    have changed : (((encode g 2).set 9 1).set 11 7)[11]? ≠ (encode g 2)[11]? := by decide +kernel
    obtain ⟨fault, refused, storage, _⟩ :=
      (decode_damaged Block.pack Block.unpack? g 2 fits _ fun same => changed (congrArg (·[11]?) same)).1 9 near
    exact ⟨fault, refused, storage ⟨11, .inr (by decide), changed⟩⟩
  · have shorter : ((encode g 2).take 50).length ≠ (encode g 2).length := by decide +kernel
    exact (decode_damaged Block.pack Block.unpack? g 2 fits _ fun same => shorter (congrArg List.length same)).2
      (.inl (List.take_prefix 50 _))

end Snapshot
end WordGraph
