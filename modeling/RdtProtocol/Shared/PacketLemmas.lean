import RdtProtocol.Shared.Packet

/-!
This module contains the proof that `unpack` is inverse to `pack`, on all packets whose length field
is right. The constructors only build such packets as long as the length fits into 16 bits.
-/

theorem or_shiftLeft_eq_add {a b : Nat} (i : Nat) (hb : b < 2 ^ i) : b ||| a <<< i = b + 2 ^ i * a := by
  rw [Nat.or_comm, ← Nat.shiftLeft_add_eq_or_of_lt hb, Nat.shiftLeft_eq, Nat.mul_comm, Nat.add_comm]

theorem toNat_unpack32 (u0 u1 u2 u3 : UInt8)
    : (unpack32 u0 u1 u2 u3).toNat
        = u0.toNat + 2 ^ 8 * u1.toNat + 2 ^ 16 * u2.toNat + 2 ^ 24 * u3.toNat := by
  have h0 := u0.toNat_lt
  have h1 := u1.toNat_lt
  have h2 := u2.toNat_lt
  have h3 := u3.toNat_lt
  simp only [unpack32, UInt32.toNat_or, UInt32.toNat_shiftLeft, UInt8.toNat_toUInt32,
    UInt32.reduceToNat, Nat.reduceMod]
  rw [Nat.mod_eq_of_lt, Nat.mod_eq_of_lt, Nat.mod_eq_of_lt]
  . rw [or_shiftLeft_eq_add 8 (by omega), or_shiftLeft_eq_add 16 (by omega),
      or_shiftLeft_eq_add 24 (by omega)]
  all_goals
    simp only [Nat.shiftLeft_eq]
    omega

theorem toNat_unpack16 (x0 x1 : UInt8) : (unpack16 x0 x1).toNat = x0.toNat + 2 ^ 8 * x1.toNat := by
  have h0 := x0.toNat_lt
  have h1 := x1.toNat_lt
  simp only [unpack16, UInt16.toNat_or, UInt16.toNat_shiftLeft, UInt8.toNat_toUInt16,
    UInt16.reduceToNat, Nat.reduceMod]
  rw [Nat.mod_eq_of_lt]
  . rw [or_shiftLeft_eq_add 8 (by omega)]
  . simp only [Nat.shiftLeft_eq]
    omega

theorem and_255_eq_mod (x : Nat) : x &&& 255 = x % 256 :=
  Nat.and_two_pow_sub_one_eq_mod x 8

@[simp]
theorem unpack32_pack (n : UInt32)
    : unpack32 (n &&& 0xFF).toUInt8 ((n >>> 8) &&& 0xFF).toUInt8 ((n >>> 16) &&& 0xFF).toUInt8
        ((n >>> 24) &&& 0xFF).toUInt8
        = n := by
  apply UInt32.toNat_inj.mp
  have := n.toNat_lt
  rw [toNat_unpack32]
  simp only [UInt32.toNat_toUInt8, UInt32.toNat_and, UInt32.toNat_shiftRight, UInt32.reduceToNat,
    and_255_eq_mod, Nat.shiftRight_eq_div_pow, Nat.reduceMod, Nat.reducePow]
  omega

@[simp]
theorem unpack16_pack (n : UInt16)
    : unpack16 (n &&& 0xFF).toUInt8 ((n >>> 8) &&& 0xFF).toUInt8 = n := by
  apply UInt16.toNat_inj.mp
  have := n.toNat_lt
  rw [toNat_unpack16]
  simp only [UInt16.toNat_toUInt8, UInt16.toNat_and, UInt16.toNat_shiftRight, UInt16.reduceToNat,
    and_255_eq_mod, Nat.shiftRight_eq_div_pow, Nat.reduceMod, Nat.reducePow]
  omega

theorem pack16_unpack (x0 x1 : UInt8)
    : (unpack16 x0 x1 &&& 0xFF).toUInt8 = x0 ∧ ((unpack16 x0 x1 >>> 8) &&& 0xFF).toUInt8 = x1 := by
  have h0 := x0.toNat_lt
  have h1 := x1.toNat_lt
  simp only [← UInt8.toNat_inj, UInt16.toNat_toUInt8, UInt16.toNat_and, UInt16.toNat_shiftRight,
    UInt16.reduceToNat, and_255_eq_mod, Nat.shiftRight_eq_div_pow, Nat.reduceMod, Nat.reducePow,
    toNat_unpack16]
  omega

theorem pack32_unpack (u0 u1 u2 u3 : UInt8)
    : let n := unpack32 u0 u1 u2 u3
      (n &&& 0xFF).toUInt8 = u0 ∧ ((n >>> 8) &&& 0xFF).toUInt8 = u1
        ∧ ((n >>> 16) &&& 0xFF).toUInt8 = u2 ∧ ((n >>> 24) &&& 0xFF).toUInt8 = u3 := by
  have h0 := u0.toNat_lt
  have h1 := u1.toNat_lt
  have h2 := u2.toNat_lt
  have h3 := u3.toNat_lt
  simp only [← UInt8.toNat_inj, UInt32.toNat_toUInt8, UInt32.toNat_and, UInt32.toNat_shiftRight,
    UInt32.reduceToNat, and_255_eq_mod, Nat.shiftRight_eq_div_pow, Nat.reduceMod, Nat.reducePow,
    toNat_unpack32]
  omega

theorem packHeader_unpack (u0 u1 u2 u3 x0 x1 y0 y1 : UInt8)
    : packHeader (unpack32 u0 u1 u2 u3) (unpack16 x0 x1) (unpack16 y0 y1)
        = [u0, u1, u2, u3, x0, x1, y0, y1] := by
  obtain ⟨hu0, hu1, hu2, hu3⟩ := pack32_unpack u0 u1 u2 u3
  obtain ⟨hx0, hx1⟩ := pack16_unpack x0 x1
  obtain ⟨hy0, hy1⟩ := pack16_unpack y0 y1
  rw [packHeader, hu0, hu1, hu2, hu3, hx0, hx1, hy0, hy1]

@[simp]
theorem length_packHeader (num : UInt32) (len cksum : UInt16)
    : (packHeader num len cksum).length = HEADER_SIZE := by
  rfl

theorem eq_header_append {buf : Bytes} (h : HEADER_SIZE ≤ buf.length)
    : ∃ u0 u1 u2 u3 x0 x1 y0 y1 rest,
        buf = u0 :: u1 :: u2 :: u3 :: x0 :: x1 :: y0 :: y1 :: rest := by
  match buf, h with
  | u0 :: u1 :: u2 :: u3 :: x0 :: x1 :: y0 :: y1 :: rest, _ =>
    exact ⟨u0, u1, u2, u3, x0, x1, y0, y1, rest, rfl⟩

def lengthField (buf : Bytes) : UInt16 :=
  unpack16 (buf.getD 4 0) (buf.getD 5 0)

namespace DataPacket

theorem toNat_len_new {data : Bytes} (seqno : UInt32) (h : data.length + HEADER_SIZE < 2 ^ 16)
    : (new data seqno).len.toNat = data.length + HEADER_SIZE := by
  simp only [new, Nat.toUInt16_eq, UInt16.toNat_ofNat']
  omega

@[simp]
theorem seqno_new (data : Bytes) (seqno : UInt32) : (new data seqno).seqno = seqno := by
  rfl

@[simp]
theorem data_new (data : Bytes) (seqno : UInt32) : (new data seqno).data = data := by
  rfl

@[simp]
theorem calculateChecksum_new (data : Bytes) (seqno : UInt32)
    : (new data seqno).calculateChecksum = (new data seqno).cksum := by
  rfl

theorem pack_eq {p : DataPacket} (h : p.len.toNat = p.data.length + HEADER_SIZE)
    : p.pack = packHeader p.seqno p.len p.cksum ++ p.data := by
  unfold pack
  apply List.take_of_length_le
  rw [List.length_append, length_packHeader]
  omega

theorem unpack_pack {p : DataPacket} (h : p.len.toNat = p.data.length + HEADER_SIZE)
    : unpack p.pack = some p := by
  have hsize : sizeT ((p.len.toNat : Int) - HEADER_SIZE) = p.data.length := by
    have := p.len.toNat_lt
    rw [h, sizeT_of_nonneg] <;> omega
  rw [pack_eq h]
  simp only [packHeader, List.cons_append, List.nil_append, unpack, unpack16_pack, unpack32_pack,
    hsize, List.take_length]

theorem unpack_pack_new {data : Bytes} {seqno : UInt32} (h : data.length + HEADER_SIZE < 2 ^ 16)
    : unpack (new data seqno).pack = some (new data seqno) := by
  apply unpack_pack
  apply toNat_len_new
  exact h

theorem pack_unpack {buf : Bytes} (h : HEADER_SIZE ≤ buf.length)
    (hlen : (lengthField buf).toNat = buf.length)
    : ∃ p, unpack buf = some p ∧ p.pack = buf := by
  obtain ⟨u0, u1, u2, u3, x0, x1, y0, y1, rest, rfl⟩ := eq_header_append h
  have hlen : (unpack16 x0 x1).toNat = rest.length + HEADER_SIZE := hlen
  have hsize : sizeT (((unpack16 x0 x1).toNat : Int) - HEADER_SIZE) = rest.length := by
    rw [hlen, sizeT_of_nonneg] <;> omega
  refine ⟨_, rfl, ?_⟩
  rw [pack_eq]
  . simp [packHeader_unpack, hsize]
  . rw [hsize, List.take_length, hlen]

theorem length_pack_new {data : Bytes} {seqno : UInt32} (h : data.length + HEADER_SIZE < 2 ^ 16)
    : (new data seqno).pack.length = data.length + HEADER_SIZE := by
  rw [pack_eq (toNat_len_new seqno h), List.length_append, length_packHeader, data_new, Nat.add_comm]

theorem ackno_of_unpack_pack_new {data : Bytes} {seqno : UInt32} {ack : AckPacket}
    (h : AckPacket.unpack (new data seqno).pack = some ack)
    : ack.ackno = seqno := by
  unfold pack at h
  by_cases hlen : (new data seqno).len.toNat < HEADER_SIZE
  . have hshort : ∀ buf : Bytes, buf.length < HEADER_SIZE → AckPacket.unpack buf = none := by
      intro buf hbuf
      unfold AckPacket.unpack
      split
      . simp only [HEADER_SIZE, List.length_cons] at hbuf
        omega
      . rfl
    rw [hshort _ (Nat.lt_of_le_of_lt (List.length_take_le _ _) hlen)] at h
    contradiction
  . obtain ⟨k, hk⟩ := Nat.exists_eq_add_of_le (Nat.le_of_not_lt hlen)
    have htake (xs ys : Bytes) (hxs : xs.length = HEADER_SIZE)
        : (xs ++ ys).take (HEADER_SIZE + k) = xs ++ ys.take k := by
      rw [← hxs, List.take_length_add_append]
    rw [hk, htake _ _ (length_packHeader _ _ _)] at h
    simp only [packHeader, List.cons_append, AckPacket.unpack, unpack32_pack, Option.some.injEq] at h
    rw [← h, seqno_new]

end DataPacket

namespace AckPacket

theorem length_le_of_unpack {buf : Bytes} {ack : AckPacket} (h : unpack buf = some ack)
    : ACK_PKT_LEN ≤ buf.length := by
  unfold unpack at h
  split at h
  . simp only [ACK_PKT_LEN, List.length_cons]
    omega
  . contradiction

@[simp]
theorem ackno_new (ackno : UInt32) : (new ackno).ackno = ackno := by
  rfl

@[simp]
theorem calculateChecksum_new (ackno : UInt32)
    : (new ackno).calculateChecksum = (new ackno).cksum := by
  rfl

theorem pack_new (ackno : UInt32)
    : (new ackno).pack = packHeader ackno (new ackno).len (new ackno).cksum := by
  rfl

@[simp]
theorem unpack_pack_new (ackno : UInt32) : unpack (new ackno).pack = some (new ackno) := by
  rw [pack_new]
  simp only [packHeader, unpack, unpack16_pack, unpack32_pack]
  rfl

theorem pack_new_eq_pack_empty (ackno : UInt32)
    : (new ackno).pack = (DataPacket.new [] ackno).pack := by
  rfl

theorem pack_unpack {buf : Bytes} (h : buf.length = ACK_PKT_LEN)
    (hlen : (lengthField buf).toNat = ACK_PKT_LEN)
    : ∃ p, unpack buf = some p ∧ p.pack = buf := by
  obtain ⟨u0, u1, u2, u3, x0, x1, y0, y1, rest, rfl⟩ := eq_header_append (Nat.le_of_eq h.symm)
  have hrest : rest = [] := by
    simpa [ACK_PKT_LEN] using h
  have hlen : (unpack16 x0 x1).toNat = ACK_PKT_LEN := hlen
  refine ⟨_, rfl, ?_⟩
  simp only [pack, packHeader_unpack, hlen, hrest]
  rfl

end AckPacket

theorem codecs_inverse
    : (∀ (data : Bytes) (seqno : UInt32), data.length ≤ 65527 →
        ∃ p, DataPacket.unpack (DataPacket.new data seqno).pack = some p
          ∧ p.seqno = seqno ∧ p.len = (DataPacket.new data seqno).len
          ∧ p.cksum = (DataPacket.new data seqno).cksum ∧ p.data = data
          ∧ p.cksum = p.calculateChecksum)
      ∧ (∀ buf : Bytes, HEADER_SIZE ≤ buf.length → (lengthField buf).toNat = buf.length →
        ∃ p, DataPacket.unpack buf = some p ∧ p.pack = buf)
      ∧ (∀ ackno : UInt32,
        ∃ p, AckPacket.unpack (AckPacket.new ackno).pack = some p
          ∧ p.ackno = ackno ∧ p.len = (AckPacket.new ackno).len
          ∧ p.cksum = (AckPacket.new ackno).cksum ∧ p.cksum = p.calculateChecksum)
      ∧ (∀ buf : Bytes, buf.length = ACK_PKT_LEN → (lengthField buf).toNat = ACK_PKT_LEN →
        ∃ p, AckPacket.unpack buf = some p ∧ p.pack = buf) := by
  refine ⟨?_, ?_, ?_, ?_⟩
  . intro data seqno hdata
    refine ⟨_, DataPacket.unpack_pack_new (by simp only [HEADER_SIZE]; omega), rfl, rfl, rfl, rfl, ?_⟩
    rw [DataPacket.calculateChecksum_new]
  . intro buf h hlen
    exact DataPacket.pack_unpack h hlen
  . intro ackno
    refine ⟨_, AckPacket.unpack_pack_new ackno, rfl, rfl, rfl, ?_⟩
    rw [AckPacket.calculateChecksum_new]
  . intro buf h hlen
    exact AckPacket.pack_unpack h hlen
