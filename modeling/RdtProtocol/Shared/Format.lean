import RdtProtocol.Shared.PacketLemmas

/-!
This module contains which datagrams are packed packets. The checksum alone does not decide that, as
nothing compares the length field of a datagram with its size.
-/

namespace DataPacket

/--
What both client strategies test of the packet that they unpack.
-/
def Intact (buf : Bytes) : Prop :=
  ∃ p, unpack buf = some p ∧ p.cksum = p.calculateChecksum

theorem length_pack_le (p : DataPacket) : p.pack.length ≤ p.len.toNat :=
  List.length_take_le _ _

theorem lengthField_pack {p : DataPacket} (h : HEADER_SIZE ≤ p.len.toNat)
    : lengthField p.pack = p.len := by
  obtain ⟨k, hk⟩ := Nat.exists_eq_add_of_le h
  unfold pack
  rw [hk, ← length_packHeader p.seqno p.len p.cksum, List.take_length_add_append]
  apply unpack16_pack

theorem eq_new_of_cksum_eq {p : DataPacket} (hlen : p.len.toNat = p.data.length + HEADER_SIZE)
    (hcksum : p.cksum = p.calculateChecksum)
    : p = new p.data p.seqno := by
  have hfits := p.len.toNat_lt
  have hlen : p.len = (new p.data p.seqno).len := by
    rw [← UInt16.toNat_inj, toNat_len_new _ (by omega), hlen]
  have hnew : p.calculateChecksum = (new p.data p.seqno).calculateChecksum := by
    unfold calculateChecksum checkSum
    simp only [hlen, seqno_new, data_new]
  rw [calculateChecksum_new, ← hcksum] at hnew
  calc
    p = ⟨p.cksum, p.len, p.seqno, p.data⟩ := rfl
    _ = ⟨(new p.data p.seqno).cksum, (new p.data p.seqno).len, p.seqno, p.data⟩ := by
      rw [hnew, hlen]
    _ = new p.data p.seqno := rfl

theorem unpack_framed {buf : Bytes} (h : HEADER_SIZE ≤ buf.length)
    (hlen : (lengthField buf).toNat = buf.length)
    : ∃ p, unpack buf = some p ∧ p.pack = buf ∧ p.len.toNat = p.data.length + HEADER_SIZE := by
  obtain ⟨u0, u1, u2, u3, x0, x1, y0, y1, rest, rfl⟩ := eq_header_append h
  obtain ⟨p, hp, hpack⟩ := pack_unpack h hlen
  refine ⟨p, hp, hpack, ?_⟩
  have hlen : (unpack16 x0 x1).toNat = rest.length + HEADER_SIZE := hlen
  have hsize : sizeT (((unpack16 x0 x1).toNat : Int) - HEADER_SIZE) = rest.length := by
    rw [hlen, sizeT_of_nonneg] <;> omega
  simp only [unpack, Option.some.injEq] at hp
  rw [← hp]
  simp only [hsize, List.take_length]
  exact hlen

theorem intact_framed_iff {buf : Bytes} (h : HEADER_SIZE ≤ buf.length)
    : Intact buf ∧ (lengthField buf).toNat = buf.length
        ↔ ∃ data seqno, data.length ≤ 65527 ∧ buf = (new data seqno).pack := by
  constructor
  . rintro ⟨⟨p, hp, hcksum⟩, hlen⟩
    obtain ⟨q, hq, hpack, hframe⟩ := unpack_framed h hlen
    obtain rfl : p = q := by
      rw [hp] at hq
      injection hq
    have hfits := p.len.toNat_lt
    refine ⟨p.data, p.seqno, by simp only [HEADER_SIZE] at hframe; omega, ?_⟩
    rw [← eq_new_of_cksum_eq hframe hcksum, hpack]
  . rintro ⟨data, seqno, hdata, hbuf⟩
    have hfits : data.length + HEADER_SIZE < 2 ^ 16 := by
      simp only [HEADER_SIZE]
      omega
    have hlen := toNat_len_new seqno hfits
    rw [hbuf]
    constructor
    . refine ⟨_, unpack_pack_new hfits, ?_⟩
      rw [calculateChecksum_new]
    . rw [lengthField_pack, hlen, length_pack_new hfits]
      omega

theorem intact_framed_iff_of_two_bytes
    : Intact (new [1, 2] 3).pack ∧ (lengthField (new [1, 2] 3).pack).toNat = (new [1, 2] 3).pack.length
        ↔ ∃ data seqno, data.length ≤ 65527 ∧ (new [1, 2] 3).pack = (new data seqno).pack :=
  intact_framed_iff (by decide)

def paddedDatagram : Bytes :=
  (new [] 1).pack ++ [0]

theorem intact_padded
    : HEADER_SIZE ≤ paddedDatagram.length ∧ paddedDatagram.length ≤ MAX_PKT_SIZE
        ∧ Intact paddedDatagram
        ∧ ¬ ∃ data seqno, paddedDatagram = (new data seqno).pack := by
  refine ⟨by decide, by decide, ⟨new [] 1, by decide, by decide⟩, ?_⟩
  intro ⟨data, seqno, hpack⟩
  have hlength : paddedDatagram.length = 9 := by decide
  have hfield : (lengthField paddedDatagram).toNat = 8 := by decide
  have hle := length_pack_le (new data seqno)
  rw [← hpack, hlength] at hle
  rw [hpack, lengthField_pack (Nat.le_trans (by decide) hle)] at hfield
  omega

end DataPacket
