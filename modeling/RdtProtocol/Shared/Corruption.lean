import Mathlib.Tactic.IntervalCases
import RdtProtocol.Shared.Checksum

/-!
This module contains which changes of a packed packet its receiver notices by the checksum.
-/

open EndAroundCarry PacketUtil

theorem headerTotal_unpack (u0 u1 u2 u3 x0 x1 : UInt8)
    : headerTotal (unpack16 x0 x1) (unpack32 u0 u1 u2 u3)
        = x0.toNat + 2 ^ 8 * x1.toNat + (u0.toNat + 2 ^ 8 * u1.toNat)
          + (u2.toNat + 2 ^ 8 * u3.toNat) := by
  have h0 := u0.toNat_lt
  have h1 := u1.toNat_lt
  rw [headerTotal, toNat_unpack16, toNat_unpack32]
  omega

-- `d` is what the data adds to the sum.
theorem header_set_detected {u0 u1 u2 u3 x0 x1 y0 y1 : UInt8} {d : Nat}
    (hcksum : (unpack16 y0 y1).toNat
      = fold 0xFFFF (headerTotal (unpack16 x0 x1) (unpack32 u0 u1 u2 u3) + d))
    {i : Nat} {b : UInt8} (hi : i < HEADER_SIZE)
    (hb : [u0, u1, u2, u3, x0, x1, y0, y1][i]? ≠ some b)
    : ∃ v0 v1 v2 v3 z0 z1 w0 w1,
        [u0, u1, u2, u3, x0, x1, y0, y1].set i b = [v0, v1, v2, v3, z0, z1, w0, w1]
          ∧ (unpack16 w0 w1).toNat
            ≠ fold 0xFFFF (headerTotal (unpack16 z0 z1) (unpack32 v0 v1 v2 v3) + d)
          ∧ (i ≠ 4 → i ≠ 5 → z0 = x0 ∧ z1 = x1) := by
  have hlt := b.toNat_lt
  have h0 := u0.toNat_lt
  have h1 := u1.toNat_lt
  have h2 := u2.toNat_lt
  have h3 := u3.toNat_lt
  have h4 := x0.toNat_lt
  have h5 := x1.toNat_lt
  simp only [HEADER_SIZE] at hi
  interval_cases i
  all_goals
    refine ⟨_, _, _, _, _, _, _, _, rfl, ?_, by simp⟩
    simp only [List.getElem?_cons_zero, List.getElem?_cons_succ, Ne, Option.some.injEq,
      ← UInt8.toNat_inj] at hb
  case «6» | «7» =>
    rw [← hcksum, toNat_unpack16, toNat_unpack16]
    omega
  all_goals
    rw [hcksum, headerTotal_unpack, headerTotal_unpack]
    apply fold_ne <;> omega

theorem dataTotal_set {data : Bytes} {j : Nat} {a : UInt8} (b : UInt8) (ha : data[j]? = some a)
    : dataTotal (data.set j b) + a.toNat = dataTotal data + b.toNat := by
  induction data generalizing j with
  | nil => simp at ha
  | cons x data ih =>
    cases j with
    | zero =>
      simp only [List.getElem?_cons_zero, Option.some.injEq] at ha
      simp only [dataTotal, List.set_cons_zero, List.map_cons, List.sum_cons, ha]
      omega
    | succ j =>
      have := ih (by simpa using ha)
      simp only [dataTotal, List.set_cons_succ, List.map_cons, List.sum_cons] at this ⊢
      omega

namespace DataPacket

variable {data : Bytes} {u0 u1 u2 u3 x0 x1 y0 y1 : UInt8}

theorem pack_new_eq_append (seqno : UInt32) (h : data.length ≤ 65527)
    : ∃ u0 u1 u2 u3 x0 x1 y0 y1,
        (new data seqno).pack = [u0, u1, u2, u3, x0, x1, y0, y1] ++ data
          ∧ (unpack16 x0 x1).toNat = data.length + HEADER_SIZE
          ∧ (unpack16 y0 y1).toNat
            = fold 0xFFFF (headerTotal (unpack16 x0 x1) (unpack32 u0 u1 u2 u3) + dataTotal data) := by
  have hfits : data.length + HEADER_SIZE < 2 ^ 16 := by
    simp only [HEADER_SIZE]
    omega
  have hlen := toNat_len_new seqno hfits
  refine ⟨_, _, _, _, _, _, _, _, pack_eq hlen, ?_, ?_⟩
  . rw [unpack16_pack, hlen]
  . rw [unpack16_pack, unpack16_pack, unpack32_pack, ← calculateChecksum_new,
      toNat_calculateChecksum]
    rfl

theorem unpack_append (hlen : (unpack16 x0 x1).toNat = data.length + HEADER_SIZE)
    : unpack ([u0, u1, u2, u3, x0, x1, y0, y1] ++ data)
        = some ⟨unpack16 y0 y1, unpack16 x0 x1, unpack32 u0 u1 u2 u3, data⟩ := by
  have hsize : sizeT ((unpack16 x0 x1).toNat - HEADER_SIZE : Int) = data.length := by
    rw [hlen, sizeT_of_nonneg] <;> omega
  simp only [List.cons_append, List.nil_append, unpack, hsize, List.take_length]

theorem set_detected (seqno : UInt32) (h : data.length ≤ 65527) {i : Nat} {b : UInt8}
    (hi : i < (new data seqno).pack.length) (h4 : i ≠ 4) (h5 : i ≠ 5)
    (hb : (new data seqno).pack[i]? ≠ some b)
    : ∃ p, unpack ((new data seqno).pack.set i b) = some p ∧ p.cksum ≠ p.calculateChecksum := by
  obtain ⟨u0, u1, u2, u3, x0, x1, y0, y1, hpack, hlen, hcksum⟩ := pack_new_eq_append seqno h
  rw [hpack] at hi hb ⊢
  cases Nat.lt_or_ge i HEADER_SIZE with
  | inl hlt =>
    rw [List.getElem?_append_left hlt] at hb
    obtain ⟨v0, v1, v2, v3, z0, z1, w0, w1, hset, hne, hx⟩ := header_set_detected hcksum hlt hb
    obtain ⟨rfl, rfl⟩ := hx h4 h5
    rw [List.set_append_left _ _ hlt, hset]
    refine ⟨_, unpack_append hlen, ?_⟩
    rw [Ne, ← UInt16.toNat_inj, toNat_calculateChecksum]
    exact hne
  | inr hge =>
    have hj : i - HEADER_SIZE < data.length := by
      simp only [List.length_append, List.length_cons, List.length_nil, HEADER_SIZE] at hi hge ⊢
      omega
    rw [List.getElem?_append_right hge] at hb
    have ha := List.getElem?_eq_getElem hj
    have htotal := dataTotal_set b ha
    have hset : ([u0, u1, u2, u3, x0, x1, y0, y1] ++ data).set i b
        = [u0, u1, u2, u3, x0, x1, y0, y1] ++ data.set (i - HEADER_SIZE) b :=
      List.set_append_right _ _ hge
    rw [hset]
    refine ⟨_, unpack_append (by rw [List.length_set, hlen]), ?_⟩
    rw [Ne, ← UInt16.toNat_inj, toNat_calculateChecksum, hcksum]
    simp only [total]
    have hlt := data[i - HEADER_SIZE].toNat_lt
    have hlt' := b.toNat_lt
    have hne : data[i - HEADER_SIZE].toNat ≠ b.toNat := by
      rw [Ne, UInt8.toNat_inj]
      rintro rfl
      exact hb ha
    apply fold_ne <;> omega

end DataPacket

namespace AckPacket

theorem pack_new_eq (ackno : UInt32)
    : ∃ u0 u1 u2 u3 x0 x1 y0 y1,
        (new ackno).pack = [u0, u1, u2, u3, x0, x1, y0, y1]
          ∧ (unpack16 y0 y1).toNat
            = fold 0xFFFF (headerTotal (unpack16 x0 x1) (unpack32 u0 u1 u2 u3) + 0) := by
  refine ⟨_, _, _, _, _, _, _, _, pack_new ackno, ?_⟩
  rw [unpack16_pack, unpack16_pack, unpack32_pack, ← calculateChecksum_new, toNat_calculateChecksum]
  rfl

theorem set_detected (ackno : UInt32) {i : Nat} {b : UInt8} (hi : i < (new ackno).pack.length)
    (hb : (new ackno).pack[i]? ≠ some b)
    : ∃ p, unpack ((new ackno).pack.set i b) = some p ∧ p.cksum ≠ p.calculateChecksum := by
  obtain ⟨u0, u1, u2, u3, x0, x1, y0, y1, hpack, hcksum⟩ := pack_new_eq ackno
  rw [hpack] at hi hb ⊢
  obtain ⟨v0, v1, v2, v3, z0, z1, w0, w1, hset, hne, _⟩ := header_set_detected hcksum hi hb
  rw [hset]
  refine ⟨_, rfl, ?_⟩
  rw [Ne, ← UInt16.toNat_inj, toNat_calculateChecksum]
  exact hne

end AckPacket

theorem byte_corruption_detected
    : (∀ (data : Bytes) (seqno : UInt32), data.length ≤ 65527 → ∀ (i : Nat) (b : UInt8),
        i < (DataPacket.new data seqno).pack.length → i ≠ 4 → i ≠ 5 →
        (DataPacket.new data seqno).pack[i]? ≠ some b →
        ∃ p, DataPacket.unpack ((DataPacket.new data seqno).pack.set i b) = some p
          ∧ p.cksum ≠ p.calculateChecksum)
      ∧ (∀ (ackno : UInt32) (i : Nat) (b : UInt8),
        i < (AckPacket.new ackno).pack.length → (AckPacket.new ackno).pack[i]? ≠ some b →
        ∃ p, AckPacket.unpack ((AckPacket.new ackno).pack.set i b) = some p
          ∧ p.cksum ≠ p.calculateChecksum) := by
  constructor
  . intro data seqno h i b hi h4 h5 hb
    exact DataPacket.set_detected seqno h hi h4 h5 hb
  . intro ackno i b hi hb
    exact AckPacket.set_detected ackno hi hb

def setLengthField (buf : Bytes) (len : UInt16) : Bytes :=
  (buf.set 4 (len &&& 0xFF).toUInt8).set 5 ((len >>> 8) &&& 0xFF).toUInt8

/--
The data that a shorter length cuts off makes up for the change of the length.
-/
def Compensated (data : Bytes) (len : UInt16) : Prop :=
  HEADER_SIZE ≤ len.toNat ∧ len.toNat < data.length + HEADER_SIZE
    ∧ (data.length + HEADER_SIZE - len.toNat) + dataTotal (data.drop (len.toNat - HEADER_SIZE))
      = 0xFFFF

theorem dataTotal_append (xs ys : Bytes) : dataTotal (xs ++ ys) = dataTotal xs + dataTotal ys := by
  simp [dataTotal]

theorem dataTotal_le (data : Bytes) : dataTotal data ≤ 255 * data.length := by
  induction data with
  | nil => simp [dataTotal]
  | cons x data ih =>
    have := x.toNat_lt
    simp only [dataTotal, List.map_cons, List.sum_cons, List.length_cons] at ih ⊢
    omega

theorem fold_eq_iff_compensated {data : Bytes} {len : UInt16} (h : data.length ≤ MAX_DATA_SIZE)
    (hne : len.toNat ≠ data.length + HEADER_SIZE) (n : Nat)
    : fold 0xFFFF (data.length + HEADER_SIZE + n + dataTotal data)
          = fold 0xFFFF
            (len.toNat + n + dataTotal (data.take (sizeT ((len.toNat : Int) - HEADER_SIZE))))
        ↔ Compensated data len := by
  have hlt := len.toNat_lt
  have h500 : data.length ≤ 500 := h
  have h8 : HEADER_SIZE = 8 := rfl
  by_cases hinside : HEADER_SIZE ≤ len.toNat ∧ len.toNat < data.length + HEADER_SIZE
  . have hsize : sizeT ((len.toNat : Int) - HEADER_SIZE) = len.toNat - HEADER_SIZE := by
      rw [sizeT_of_nonneg] <;> omega
    have hsplit := dataTotal_append (data.take (len.toNat - HEADER_SIZE))
      (data.drop (len.toNat - HEADER_SIZE))
    rw [List.take_append_drop] at hsplit
    have hdrop := dataTotal_le (data.drop (len.toNat - HEADER_SIZE))
    rw [List.length_drop] at hdrop
    rw [hsize, fold_eq_iff (by omega) (by omega), Nat.ModEq, Compensated]
    omega
  . have htake : data.take (sizeT ((len.toNat : Int) - HEADER_SIZE)) = data := by
      apply List.take_of_length_le
      unfold sizeT
      split <;> omega
    rw [htake]
    constructor
    . intro heq
      exfalso
      revert heq
      apply fold_ne <;> omega
    . intro hc
      exact absurd ⟨hc.1, hc.2.1⟩ hinside

theorem length_corruption_detected_iff {data : Bytes} (h : data.length ≤ MAX_DATA_SIZE)
    (seqno : UInt32) {len : UInt16} (hne : len.toNat ≠ data.length + HEADER_SIZE)
    : ∃ p, DataPacket.unpack (setLengthField (DataPacket.new data seqno).pack len) = some p
        ∧ (p.cksum ≠ p.calculateChecksum ↔ ¬ Compensated data len) := by
  have hfits : data.length ≤ 65527 := by
    simp only [MAX_DATA_SIZE] at h
    omega
  obtain ⟨u0, u1, u2, u3, x0, x1, y0, y1, hpack, hlen, hcksum⟩ :=
    DataPacket.pack_new_eq_append seqno hfits
  rw [hpack]
  refine ⟨_, rfl, not_congr ?_⟩
  rw [← fold_eq_iff_compensated h hne ((unpack32 u0 u1 u2 u3).toNat % 2 ^ 16
    + (unpack32 u0 u1 u2 u3).toNat / 2 ^ 16), ← UInt16.toNat_inj, DataPacket.toNat_calculateChecksum,
    hcksum, headerTotal, hlen]
  simp only [DataPacket.total, headerTotal, unpack16_pack, Nat.add_assoc]
  rfl

theorem length_corruption_detected_of_three_bytes
    : ∃ p, DataPacket.unpack (setLengthField (DataPacket.new [1, 2, 3] 1).pack 9) = some p
        ∧ (p.cksum ≠ p.calculateChecksum ↔ ¬ Compensated [1, 2, 3] 9) :=
  length_corruption_detected_iff (by decide) 1 (by decide)

def compensatedData : Bytes :=
  List.replicate 255 0xFF ++ [0xFE]

theorem length_corruption_undetected
    : 1 ≤ compensatedData.length ∧ compensatedData.length ≤ MAX_DATA_SIZE
        ∧ (8 : UInt16).toNat ≠ compensatedData.length + HEADER_SIZE
        ∧ ∃ p, DataPacket.unpack (setLengthField (DataPacket.new compensatedData 1).pack 8) = some p
          ∧ p.cksum = p.calculateChecksum := by
  refine ⟨by decide +kernel, by decide +kernel, by decide +kernel, Option.get _ ?_,
    (Option.some_get _).symm, ?_⟩
  . decide +kernel
  . decide +kernel
