import Mathlib.Data.Nat.Bitwise
import RdtProtocol.Shared.Basic

/-!
This module contains the two kinds of packets, their checksum and their wire format. Both kinds start
with the same header of eight bytes, nothing in which tells them apart.
-/

def HEADER_SIZE : Nat := 8
def ACK_PKT_LEN : Nat := 8
def MAX_DATA_SIZE : Nat := 500
def MAX_PKT_SIZE : Nat := 508

structure DataPacket where
  cksum : UInt16
  len : UInt16
  seqno : UInt32
  data : Bytes
  deriving DecidableEq, Repr

structure AckPacket where
  cksum : UInt16
  len : UInt16
  ackno : UInt32
  deriving DecidableEq, Repr

namespace PacketUtil

def wrapExtraBits (checkSum : UInt32) : UInt32 :=
  if checkSum &&& 0x10000 ≠ 0 then
    (checkSum &&& 0xFFFF) + 1
  else
    checkSum

def headerSum (len : UInt16) (num : UInt32) : UInt32 :=
  let checkSum := wrapExtraBits len.toUInt32
  let checkSum := wrapExtraBits (checkSum + (num &&& 0xFFFF))
  wrapExtraBits (checkSum + ((num >>> 16) &&& 0xFFFF))

def dataSum (checkSum : UInt32) (data : Bytes) : UInt32 :=
  data.foldl (fun checkSum i => wrapExtraBits (checkSum + i.toUInt32)) checkSum

-- The last test of `calculate_checksum`, undefined where it exits the process.
def finish (checkSum : UInt32) : Option UInt16 :=
  if checkSum > 0xFFFF then
    none
  else
    some checkSum.toUInt16

theorem toNat_wrapExtraBits (s : UInt32)
    : (wrapExtraBits s).toNat
        = if s.toNat / 65536 % 2 = 1 then s.toNat % 65536 + 1 else s.toNat := by
  have hmod (x : Nat) : x &&& 65535 = x % 65536 := Nat.and_two_pow_sub_one_eq_mod x 16
  have hbit : s.toNat &&& 65536 = if s.toNat / 65536 % 2 = 1 then 65536 else 0 := by
    have := Nat.and_two_pow s.toNat 16
    rw [Nat.testBit_eq_decide_div_mod_eq] at this
    simp only [Nat.reducePow] at this
    rw [this]
    split <;> simp [*]
  have hiff : s &&& 0x10000 ≠ 0 ↔ s.toNat / 65536 % 2 = 1 := by
    rw [ne_eq, ← UInt32.toNat_inj, UInt32.toNat_and]
    simp only [UInt32.reduceToNat, hbit]
    split <;> simp [*]
  unfold wrapExtraBits
  simp only [hiff]
  split
  . simp only [UInt32.toNat_add, UInt32.toNat_and, UInt32.reduceToNat, hmod]
    omega
  . rfl

theorem wrapExtraBits_le {s : UInt32} (h : s.toNat ≤ 2 * 0xFFFF)
    : (wrapExtraBits s).toNat ≤ 0xFFFF := by
  rw [toNat_wrapExtraBits]
  split <;> omega

theorem wrapExtraBits_add_le {s x : UInt32} (hs : s.toNat ≤ 0xFFFF) (hx : x.toNat ≤ 0xFFFF)
    : (wrapExtraBits (s + x)).toNat ≤ 0xFFFF := by
  apply wrapExtraBits_le
  rw [UInt32.toNat_add]
  omega

theorem headerSum_le (len : UInt16) (num : UInt32) : (headerSum len num).toNat ≤ 0xFFFF := by
  have hand (x : UInt32) : (x &&& 0xFFFF).toNat ≤ 0xFFFF := by
    rw [UInt32.toNat_and]
    exact Nat.and_le_right
  have hlen : len.toUInt32.toNat ≤ 0xFFFF := by
    have := len.toNat_lt
    simp only [UInt16.toNat_toUInt32]
    omega
  apply wrapExtraBits_add_le _ (hand _)
  apply wrapExtraBits_add_le _ (hand _)
  apply wrapExtraBits_le
  omega

theorem toNat_toUInt32_le (i : UInt8) : i.toUInt32.toNat ≤ 0xFFFF := by
  have := i.toNat_lt
  rw [UInt8.toNat_toUInt32]
  omega

theorem dataSum_le {s : UInt32} (hs : s.toNat ≤ 0xFFFF) (data : Bytes)
    : (dataSum s data).toNat ≤ 0xFFFF := by
  induction data generalizing s with
  | nil => exact hs
  | cons i data ih =>
    apply ih
    exact wrapExtraBits_add_le hs (toNat_toUInt32_le i)

theorem finish_isSome {s : UInt32} (hs : s.toNat ≤ 0xFFFF) : (finish s).isSome := by
  have : ¬ s > 0xFFFF := by
    rw [GT.gt, UInt32.lt_iff_toNat_lt]
    simpa using hs
  simp [finish, this]

end PacketUtil

namespace DataPacket

def checkSum (packet : DataPacket) : UInt32 :=
  PacketUtil.dataSum (PacketUtil.headerSum packet.len packet.seqno) packet.data

theorem checkSum_le (packet : DataPacket) : packet.checkSum.toNat ≤ 0xFFFF :=
  PacketUtil.dataSum_le (PacketUtil.headerSum_le _ _) _

def calculateChecksum (packet : DataPacket) : UInt16 :=
  (PacketUtil.finish packet.checkSum).get (PacketUtil.finish_isSome packet.checkSum_le)

def new (data : Bytes) (seqno : UInt32) : DataPacket :=
  let packet : DataPacket := { cksum := 0, len := (data.length + HEADER_SIZE).toUInt16, seqno, data }
  { packet with cksum := packet.calculateChecksum }

end DataPacket

namespace AckPacket

def checkSum (packet : AckPacket) : UInt32 :=
  PacketUtil.headerSum packet.len packet.ackno

theorem checkSum_le (packet : AckPacket) : packet.checkSum.toNat ≤ 0xFFFF :=
  PacketUtil.headerSum_le _ _

def calculateChecksum (packet : AckPacket) : UInt16 :=
  (PacketUtil.finish packet.checkSum).get (PacketUtil.finish_isSome packet.checkSum_le)

def new (ackno : UInt32) : AckPacket :=
  let packet : AckPacket := { cksum := 0, len := ACK_PKT_LEN.toUInt16, ackno }
  { packet with cksum := packet.calculateChecksum }

end AckPacket

def packHeader (num : UInt32) (len cksum : UInt16) : Bytes :=
  [
    (num &&& 0xFF).toUInt8, ((num >>> 8) &&& 0xFF).toUInt8,
    ((num >>> 16) &&& 0xFF).toUInt8, ((num >>> 24) &&& 0xFF).toUInt8,
    (len &&& 0xFF).toUInt8, ((len >>> 8) &&& 0xFF).toUInt8,
    (cksum &&& 0xFF).toUInt8, ((cksum >>> 8) &&& 0xFF).toUInt8
  ]

def unpack32 (u0 u1 u2 u3 : UInt8) : UInt32 :=
  u0.toUInt32 ||| (u1.toUInt32 <<< 8) ||| (u2.toUInt32 <<< 16) ||| (u3.toUInt32 <<< 24)

def unpack16 (x0 x1 : UInt8) : UInt16 :=
  x0.toUInt16 ||| (x1.toUInt16 <<< 8)

namespace DataPacket

def pack (packet : DataPacket) : Bytes :=
  (packHeader packet.seqno packet.len packet.cksum ++ packet.data).take packet.len.toNat

-- Undefined where `substr` throws because the buffer ends before the data starts.
def unpack (buf : Bytes) : Option DataPacket :=
  match buf with
  | u0 :: u1 :: u2 :: u3 :: x0 :: x1 :: y0 :: y1 :: rest =>
    let len := unpack16 x0 x1
    some {
      cksum := unpack16 y0 y1
      len
      seqno := unpack32 u0 u1 u2 u3
      -- A length field below the header size turns into an enormous count.
      data := rest.take (sizeT ((len.toNat : Int) - HEADER_SIZE))
    }
  | _ => none

end DataPacket

namespace AckPacket

def pack (packet : AckPacket) : Bytes :=
  (packHeader packet.ackno packet.len packet.cksum).take packet.len.toNat

-- `ack_packet(char buffer[])` reads the first eight bytes, however many were received.
def unpack (buf : Bytes) : Option AckPacket :=
  match buf with
  | u0 :: u1 :: u2 :: u3 :: x0 :: x1 :: y0 :: y1 :: _ =>
    some { cksum := unpack16 y0 y1, len := unpack16 x0 x1, ackno := unpack32 u0 u1 u2 u3 }
  | _ => none

end AckPacket
