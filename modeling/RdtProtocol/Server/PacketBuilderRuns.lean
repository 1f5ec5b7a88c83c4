import RdtProtocol.Server.Packets
import RdtProtocol.Server.Strategy.Basic

/-!
This module contains what the calls of `get_next_packet` return one after the other, as long as
`has_next` tells that there is a packet.
-/

namespace PacketBuilder

def nextPackets (b : PacketBuilder) (nextSeqNum : UInt32) (k : Nat)
    : Option (List PacketPtr × PacketBuilder × UInt32) :=
  match k with
  | 0 => some ([], b, nextSeqNum)
  | k + 1 =>
    if b.hasNext then
      (b.getNextPacket nextSeqNum).bind (fun next =>
        (nextPackets next.2.1 next.2.2 k).map (fun res => (next.1 :: res.1, res.2)))
    else
      none

theorem getNextPacket_closed {b b' : PacketBuilder} {n n' : UInt32} {p : PacketPtr}
    (h : b.getNextPacket n = some (p, b', n'))
    : b'.closed = true ↔ b.closed = true ∨ b'.hasNext = false := by
  have hread : (b.read n).1.closed = b.closed := by
    unfold read
    split <;> rfl
  simp only [getNextPacket, Option.map_eq_some_iff, Prod.mk.injEq, Prod.exists] at h
  obtain ⟨_, _, hpop, rfl, rfl, _⟩ := h
  rw [(pop_spec hpop).2.2, hread]

theorem nextPackets_spec {b : PacketBuilder} {n : UInt32} (hwf : b.WF) {k : Nat}
    (hk : k ≤ (b.pending n).length)
    : ∃ b' n', b.nextPackets n k = some ((b.pending n).take k, b', n') ∧ b'.WF
        ∧ b'.pending n' = (b.pending n).drop k ∧ b'.endSeqNum n' = b.endSeqNum n
        ∧ (b'.closed = true ↔ b.closed = true ∨ (0 < k ∧ k = (b.pending n).length)) := by
  induction k generalizing b n with
  | zero => exact ⟨b, n, by simp [nextPackets], hwf, by simp, rfl, by simp⟩
  | succ k ih =>
    cases hpending : b.pending n with
    | nil => simp [hpending] at hk
    | cons p rest =>
      obtain ⟨b1, n1, hget, hwf1, hrest, hend⟩ := getNextPacket_spec hwf hpending
      have hnext : b.hasNext = true := by
        simp [hasNext_iff hwf n, hpending]
      have hclosed := getNextPacket_closed hget
      have hlast : b1.hasNext = false ↔ rest = [] := by
        rw [← Bool.not_eq_true, hasNext_iff hwf1 n1, hrest, not_not]
      rw [hpending, List.length_cons] at hk
      obtain ⟨b', n', hrun, hwf', hdrop, hend', hclosed'⟩ := ih hwf1 (by rw [hrest]; omega)
      refine ⟨b', n', ?_, hwf', ?_, ?_, ?_⟩
      . simp only [nextPackets, hnext, if_true, hget, Option.bind_some, hrun, Option.map_some, hrest,
          List.take_succ_cons]
      . rw [hdrop, hrest, List.drop_succ_cons]
      . rw [hend', hend]
      . have hiff : rest.length = 0 ∨ (0 < k ∧ k = rest.length)
            ↔ 0 < k + 1 ∧ k + 1 = rest.length + 1 := by
          omega
        rw [hclosed', hclosed, hlast, hrest, List.length_cons, ← List.length_eq_zero_iff, or_assoc,
          hiff]

end PacketBuilder

theorem length_packets_eq (first : UInt32) (file : Bytes)
    : (packets first file).length = (file.length + 499) / 500 := by
  rw [packets, PacketPtr.length_number, List.length_chunks MAX_DATA_SIZE_pos]
  rfl

theorem mem_dropLast_packets {first : UInt32} {file : Bytes} {p : PacketPtr}
    (hp : p ∈ (packets first file).dropLast)
    : p.packet.data.length = MAX_DATA_SIZE := by
  apply List.length_eq_of_mem_dropLast_chunks MAX_DATA_SIZE_pos (l := file)
  rw [← PacketPtr.map_data_number 0 first (file.chunks MAX_DATA_SIZE), ← List.map_dropLast]
  exact List.mem_map_of_mem hp

theorem PacketBuilder.nextPackets_new {file : Bytes} {queueSize : Int} {first : UInt32}
    (hpos : 1 ≤ queueSize) (hle : MAX_DATA_SIZE * queueSize < 2 ^ 31)
    (hfits : first.toNat + (file.length + 499) / 500 ≤ 2 ^ 32 - 1)
    : (∀ k ≤ (file.length + 499) / 500,
        ∃ b n,
          (new (File.regular file) queueSize).nextPackets first k
              = some ((packets first file).take k, b, n)
            ∧ (b.hasNext = true ↔ k < (file.length + 499) / 500)
            ∧ (b.closed = true ↔ 0 < k ∧ k = (file.length + 499) / 500)
            ∧ (k = (file.length + 499) / 500 →
                n.toNat = first.toNat + (file.length + 499) / 500
                  ∧ ∀ s : RdtStrategy, s.nextSeqNumber = n → s.sendEmptyPacket.seqno = n))
      ∧ (packets first file).length = (file.length + 499) / 500
      ∧ (packets first file).map (·.packet.seqno.toNat)
        = List.range' first.toNat ((file.length + 499) / 500)
      ∧ ((packets first file).map (·.packet.data)).flatten = file
      ∧ (∀ p ∈ packets first file, p.packet.data ≠ [])
      ∧ ∀ p ∈ (packets first file).dropLast, p.packet.data.length = 500 := by
  have hwf : (new (File.regular file) queueSize).WF := wf_new (by omega) hle
  have hlength := length_packets_eq first file
  have hchunks : (file.chunks MAX_DATA_SIZE).length = (file.length + 499) / 500 := by
    rw [← length_packets first, hlength]
  refine ⟨?_, hlength, ?_, ?_, ?_, ?_⟩
  . intro k hk
    obtain ⟨b, n, hrun, hwf', hdrop, hend, hclosed⟩ :=
      nextPackets_spec (n := first) hwf (k := k) (by rw [pending_new, hlength]; exact hk)
    rw [pending_new] at hrun hdrop hclosed
    refine ⟨b, n, hrun, ?_, ?_, ?_⟩
    . rw [hasNext_iff hwf' n, hdrop, Ne, List.drop_eq_nil_iff, hlength, Nat.not_le]
    . rw [hclosed, hlength]
      simp [new]
    . intro hall
      refine ⟨?_, fun s hs => hs⟩
      have hfp : b.fp.chunks MAX_DATA_SIZE = [] := by
        rw [List.drop_eq_nil_of_le (by rw [hlength, hall]), pending, List.append_eq_nil_iff,
          ← List.length_eq_zero_iff (l := PacketPtr.number _ _ _), PacketPtr.length_number,
          List.length_eq_zero_iff] at hdrop
        exact hdrop.2
      simp only [endSeqNum, hfp, List.length_nil] at hend
      have hn : n = first + UInt32.ofNat (file.chunks MAX_DATA_SIZE).length := by
        rw [← UInt32.add_zero n]
        exact hend
      rw [hn, hchunks, UInt32.toNat_add, UInt32.toNat_ofNat']
      omega
  . rw [map_seqno_packets (by omega), hchunks]
  . rw [packets, PacketPtr.map_data_number, List.flatten_chunks MAX_DATA_SIZE_pos]
  . intro p hp
    rw [← List.length_pos_iff]
    exact (length_data_of_mem_packets hp).1
  . intro p hp
    exact mem_dropLast_packets hp

def twoPacketFile : Bytes :=
  List.replicate 501 7

theorem PacketBuilder.nextPackets_twoPacketFile
    : (∃ b n,
        (new (File.regular twoPacketFile) 1).nextPackets 1 2
            = some ((packets 1 twoPacketFile).take 2, b, n)
          ∧ (b.hasNext = true ↔ 2 < 2)
          ∧ (b.closed = true ↔ 0 < 2 ∧ 2 = 2)
          ∧ (2 = 2 →
              n.toNat = 1 + 2
                ∧ ∀ s : RdtStrategy, s.nextSeqNumber = n → s.sendEmptyPacket.seqno = n))
      ∧ ((packets 1 twoPacketFile).map (·.packet.data)).flatten = twoPacketFile := by
  have hpos : (1 : Int) ≤ 1 := by decide
  have hle : MAX_DATA_SIZE * (1 : Int) < 2 ^ 31 := by decide
  have hcount : (twoPacketFile.length + 499) / 500 = 2 := by
    rw [twoPacketFile, List.length_replicate]
  have hfits : (1 : UInt32).toNat + (twoPacketFile.length + 499) / 500 ≤ 2 ^ 32 - 1 := by
    rw [hcount]
    decide
  have h := nextPackets_new hpos hle hfits
  rw [hcount] at h
  exact ⟨h.1 2 (by decide), h.2.2.2.1⟩
