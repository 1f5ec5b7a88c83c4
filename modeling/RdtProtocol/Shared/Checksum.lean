import RdtProtocol.Shared.PacketLemmas
import RdtProtocol.Util.EndAroundCarry

/-!
This module contains what the checksum of a packet is a sum of. From that it follows which changes of a
packed packet its receiver notices.
-/

open EndAroundCarry

namespace PacketUtil

-- The words of the header that are summed up. The checksum itself is not among them.
def headerTotal (len : UInt16) (num : UInt32) : Nat :=
  len.toNat + num.toNat % 2 ^ 16 + num.toNat / 2 ^ 16

def dataTotal (data : Bytes) : Nat :=
  (data.map UInt8.toNat).sum

theorem wrapExtraBits_add {s x : UInt32} (hs : s.toNat ≤ 0xFFFF) (hx : x.toNat ≤ 0xFFFF)
    : (wrapExtraBits (s + x)).toNat = add 0xFFFF s.toNat x.toNat := by
  rw [toNat_wrapExtraBits, UInt32.toNat_add]
  unfold add
  split <;> split <;> omega

theorem wrapExtraBits_fold {s x : UInt32} {n : Nat} (hs : s.toNat = fold 0xFFFF n)
    (hx : x.toNat ≤ 0xFFFF)
    : (wrapExtraBits (s + x)).toNat = fold 0xFFFF (n + x.toNat) := by
  rw [wrapExtraBits_add (hs ▸ fold_le (by decide)) hx, hs, add_fold (by decide) hx]

def headerSums (len : UInt16) (num : UInt32) : List UInt32 :=
  let checkSum0 := wrapExtraBits len.toUInt32
  let checkSum1 := wrapExtraBits (checkSum0 + (num &&& 0xFFFF))
  let checkSum2 := wrapExtraBits (checkSum1 + ((num >>> 16) &&& 0xFFFF))
  [checkSum0, checkSum1, checkSum2]

theorem map_toNat_headerSums (len : UInt16) (num : UInt32)
    : (headerSums len num).map UInt32.toNat
        = [
            fold 0xFFFF len.toNat,
            fold 0xFFFF (len.toNat + num.toNat % 2 ^ 16),
            fold 0xFFFF (headerTotal len num)
          ] := by
  have hlen := len.toNat_lt
  have hnum := num.toNat_lt
  have hmask (x : UInt32) : (x &&& 0xFFFF).toNat = x.toNat % 2 ^ 16 := by
    rw [UInt32.toNat_and]
    exact Nat.and_two_pow_sub_one_eq_mod x.toNat 16
  have hlow := hmask num
  have hhigh : ((num >>> 16) &&& 0xFFFF).toNat = num.toNat / 2 ^ 16 := by
    rw [hmask, UInt32.toNat_shiftRight]
    simp only [UInt32.reduceToNat, Nat.reduceMod, Nat.shiftRight_eq_div_pow]
    omega
  have h0 : (wrapExtraBits len.toUInt32).toNat = fold 0xFFFF len.toNat := by
    rw [toNat_wrapExtraBits, UInt16.toNat_toUInt32, fold_of_le (by omega), if_neg (by omega)]
  have h1 := wrapExtraBits_fold (x := num &&& 0xFFFF) h0 (by omega)
  have h2 := wrapExtraBits_fold (x := (num >>> 16) &&& 0xFFFF) h1 (by omega)
  rw [hlow, hhigh] at h2
  rw [hlow] at h1
  unfold headerSums headerTotal
  simp only [List.map_cons, List.map_nil, h0, h1, h2]

theorem toNat_headerSum (len : UInt16) (num : UInt32)
    : (headerSum len num).toNat = fold 0xFFFF (headerTotal len num) := by
  have h := map_toNat_headerSums len num
  simp only [headerSums, List.map_cons, List.cons.injEq] at h
  exact h.2.2.1

theorem le_of_mem_headerSums {len : UInt16} {num s : UInt32} (hs : s ∈ headerSums len num)
    : s.toNat ≤ 0xFFFF := by
  have hmem := List.mem_map_of_mem (f := UInt32.toNat) hs
  rw [map_toNat_headerSums] at hmem
  simp only [List.mem_cons, List.not_mem_nil, or_false] at hmem
  obtain h | h | h := hmem <;> exact h ▸ fold_le (by decide)

theorem toNat_dataSum {s : UInt32} {n : Nat} (hs : s.toNat = fold 0xFFFF n) (data : Bytes)
    : (dataSum s data).toNat = fold 0xFFFF (n + dataTotal data) := by
  induction data generalizing s n with
  | nil => exact hs
  | cons i data ih =>
    have hstep := wrapExtraBits_fold hs (toNat_toUInt32_le i)
    have := ih hstep
    simp only [UInt8.toNat_toUInt32, Nat.add_assoc] at this
    exact this

-- What the cast makes of a `char`, the sign of which it extends.
def ofChar (i : UInt8) : UInt32 :=
  i.toInt8.toInt32.toUInt32

theorem ofChar_and (i : UInt8) : ofChar i &&& 0xFF = i.toUInt32 := by
  apply UInt32.toBitVec_inj.mp
  apply BitVec.eq_of_getLsbD_eq
  intro j hj
  have hmask : (UInt32.toBitVec 0xFF).getLsbD j = decide (j < 8) := by
    show (255#32).getLsbD j = decide (j < 8)
    rw [BitVec.getLsbD_ofNat, Nat.testBit_two_pow_sub_one (n := 8)]
    simp [hj]
  simp only [ofChar, UInt32.toBitVec_and, Int32.toBitVec_toUInt32, Int8.toBitVec_toInt32,
    UInt8.toBitVec_toInt8, UInt8.toBitVec_toUInt32, BitVec.getLsbD_and, BitVec.getLsbD_signExtend,
    BitVec.getLsbD_setWidth, hj, hmask, decide_true, Bool.true_and]
  split
  . next hlt => rw [decide_eq_true hlt, Bool.and_true]
  . next hge => rw [decide_eq_false hge, Bool.and_false, BitVec.getLsbD_of_ge i.toBitVec j (by omega)]

def dataSums (checkSum : UInt32) (data : Bytes) : List UInt32 :=
  match data with
  | [] => []
  | i :: data =>
    let checkSum := wrapExtraBits (checkSum + (ofChar i &&& 0xFF))
    checkSum :: dataSums checkSum data

theorem le_of_mem_dataSums {s t : UInt32} {data : Bytes} (hs : s.toNat ≤ 0xFFFF)
    (ht : t ∈ dataSums s data)
    : t.toNat ≤ 0xFFFF := by
  induction data generalizing s with
  | nil => contradiction
  | cons i data ih =>
    have hnext : (wrapExtraBits (s + (ofChar i &&& 0xFF))).toNat ≤ 0xFFFF := by
      rw [ofChar_and]
      exact wrapExtraBits_add_le hs (toNat_toUInt32_le i)
    simp only [dataSums, List.mem_cons] at ht
    cases ht with
    | inl heq => exact heq ▸ hnext
    | inr hmem => exact ih hnext hmem

theorem getLast?_cons_dataSums (s : UInt32) (data : Bytes)
    : (s :: dataSums s data).getLast? = some (dataSum s data) := by
  induction data generalizing s with
  | nil => rfl
  | cons i data ih =>
    unfold dataSums
    rw [ofChar_and, List.getLast?_cons_cons, ih]
    rfl

theorem toNat_finish {s : UInt32} (h : (finish s).isSome) : ((finish s).get h).toNat = s.toNat := by
  unfold finish at h ⊢
  split
  . next hlt => simp [hlt] at h
  . next hle =>
    rw [GT.gt, UInt32.lt_iff_toNat_lt] at hle
    simp only [UInt32.reduceToNat] at hle
    rw [Option.get_some, UInt32.toNat_toUInt16]
    omega

/--
`checkSums` is what `check_sum` is after each call of `wrap_extra_bits`, and `total` the sum of all
that is added to it.
-/
structure ClosedForm (checkSums : List UInt32) (total : Nat) (cksum : UInt16) : Prop where
  toNat_eq : cksum.toNat = if total = 0 then 0 else (total - 1) % 65535 + 1
  le_of_mem : ∀ s ∈ checkSums, s.toNat ≤ 0xFFFF
  finishes : ∃ s, checkSums.getLast? = some s ∧ finish s = some cksum

end PacketUtil

namespace DataPacket

def total (packet : DataPacket) : Nat :=
  PacketUtil.headerTotal packet.len packet.seqno + PacketUtil.dataTotal packet.data

theorem toNat_calculateChecksum (packet : DataPacket)
    : packet.calculateChecksum.toNat = fold 0xFFFF packet.total := by
  rw [calculateChecksum, PacketUtil.toNat_finish]
  exact PacketUtil.toNat_dataSum (PacketUtil.toNat_headerSum _ _) _

def checkSums (packet : DataPacket) : List UInt32 :=
  PacketUtil.headerSums packet.len packet.seqno
    ++ PacketUtil.dataSums (PacketUtil.headerSum packet.len packet.seqno) packet.data

theorem closedForm_calculateChecksum (packet : DataPacket)
    : PacketUtil.ClosedForm packet.checkSums packet.total packet.calculateChecksum := by
  constructor
  . exact packet.toNat_calculateChecksum
  . intro s hs
    cases List.mem_append.mp hs with
    | inl hs => exact PacketUtil.le_of_mem_headerSums hs
    | inr hs =>
      apply PacketUtil.le_of_mem_dataSums _ hs
      exact PacketUtil.headerSum_le packet.len packet.seqno
  . refine ⟨packet.checkSum, ?_, (Option.some_get _).symm⟩
    unfold checkSums PacketUtil.headerSums
    dsimp only
    rw [List.cons_append, List.cons_append, List.singleton_append, List.getLast?_cons_cons,
      List.getLast?_cons_cons]
    apply PacketUtil.getLast?_cons_dataSums

end DataPacket

namespace AckPacket

def checkSums (packet : AckPacket) : List UInt32 :=
  PacketUtil.headerSums packet.len packet.ackno

def total (packet : AckPacket) : Nat :=
  PacketUtil.headerTotal packet.len packet.ackno

theorem toNat_calculateChecksum (packet : AckPacket)
    : packet.calculateChecksum.toNat = fold 0xFFFF (PacketUtil.headerTotal packet.len packet.ackno) := by
  rw [calculateChecksum, PacketUtil.toNat_finish]
  exact PacketUtil.toNat_headerSum _ _

theorem closedForm_calculateChecksum (packet : AckPacket)
    : PacketUtil.ClosedForm packet.checkSums packet.total packet.calculateChecksum := by
  constructor
  . exact packet.toNat_calculateChecksum
  . intro s hs
    exact PacketUtil.le_of_mem_headerSums hs
  . exact ⟨packet.checkSum, rfl, (Option.some_get _).symm⟩

end AckPacket

theorem calculateChecksum_closedForm
    : (∀ packet : DataPacket,
          PacketUtil.ClosedForm packet.checkSums packet.total packet.calculateChecksum)
        ∧ ∀ packet : AckPacket,
            PacketUtil.ClosedForm packet.checkSums packet.total packet.calculateChecksum :=
  ⟨DataPacket.closedForm_calculateChecksum, AckPacket.closedForm_calculateChecksum⟩
