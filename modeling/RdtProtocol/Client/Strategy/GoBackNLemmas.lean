import RdtProtocol.Client.Strategy.GoBackN
import RdtProtocol.Server.Packets

/-!
This module contains the invariant of the go back N receiver, and how it answers to the packets of a
file.
-/

namespace ClientGoBackN

structure Inv (file : Bytes) (c : ClientRdtStrategy) : Prop where
  le_length : c.expectedSeqno.toNat ≤ (file.chunks MAX_DATA_SIZE).length
  output_eq : c.output = ((file.chunks MAX_DATA_SIZE).take c.expectedSeqno.toNat).flatten

variable {file : Bytes} {c : ClientRdtStrategy} {p : PacketPtr}

theorem toNat_seqno (hN : (file.chunks MAX_DATA_SIZE).length < 2 ^ 32 - 1) (hp : p ∈ packets 0 file)
    : p.packet.seqno.toNat = p.addr := by
  rw [toNat_seqno_of_mem_packets hp (by simp; omega)]
  simp

theorem toNat_succ_expectedSeqno (hN : (file.chunks MAX_DATA_SIZE).length < 2 ^ 32 - 1)
    (h : Inv file c)
    : (c.expectedSeqno + 1).toNat = c.expectedSeqno.toNat + 1 := by
  have := h.le_length
  rw [UInt32.toNat_add]
  simp only [UInt32.reduceToNat]
  omega

theorem inv_deliverPacket (hN : (file.chunks MAX_DATA_SIZE).length < 2 ^ 32 - 1) (h : Inv file c)
    (hp : p ∈ packets 0 file) (hseqno : p.packet.seqno = c.expectedSeqno)
    : Inv file (deliverPacket c p.packet) := by
  have hlt := addr_lt_of_mem_packets hp
  have hnat := toNat_seqno hN hp
  have hsucc := toNat_succ_expectedSeqno hN h
  rw [hseqno] at hnat
  constructor
  . simp only [deliverPacket, ClientRdtStrategy.writeData, hsucc]
    omega
  . have hdata := data_of_mem_packets hp
    simp only [deliverPacket, ClientRdtStrategy.writeData, hsucc, h.output_eq]
    rw [hnat, List.take_add_one, hdata, Option.toList_some, List.flatten_append,
      List.flatten_singleton]

theorem windowSize_receive (c : ClientRdtStrategy) (packet : DataPacket)
    : (receive c packet).windowSize = c.windowSize := by
  unfold receive
  dsimp only
  split
  . split
    . rfl
    . split <;> rfl
  . rfl

theorem receive_of_mem_packets (c : ClientRdtStrategy) (hp : p ∈ packets 0 file)
    : receive c p.packet
        =
      if inWindow c p.packet.seqno then
        if p.packet.seqno = c.expectedSeqno then
          (deliverPacket c p.packet).sendAck (AckPacket.new p.packet.seqno)
        else
          c.sendAck (AckPacket.new (c.expectedSeqno - 1))
      else
        c := by
  have hcksum := checksum_of_mem_packets hp
  have hdata : ¬ p.packet.data.length = 0 := by
    have := (length_data_of_mem_packets hp).1
    omega
  simp [receive, ClientRdtStrategy.isTerminalPkt, hdata, hcksum]

theorem receive_empty (c : ClientRdtStrategy) (seqno : UInt32)
    : receive c (DataPacket.new [] seqno)
        = if inWindow c seqno then { c with done := true } else c := by
  simp [receive, ClientRdtStrategy.isTerminalPkt]

theorem receive_of_corrupted {packet : DataPacket} (hcksum : packet.cksum ≠ packet.calculateChecksum)
    : receive c packet
        =
      if inWindow c packet.seqno then
        if packet.data = [] then
          { c with done := true }
        else
          c.sendAck (AckPacket.new (c.expectedSeqno - 1))
      else
        c := by
  simp [receive, ClientRdtStrategy.isTerminalPkt, hcksum.symm]

theorem inv_sendAck (h : Inv file c) (ackPkt : AckPacket) : Inv file (c.sendAck ackPkt) :=
  ⟨h.le_length, h.output_eq⟩

theorem inv_new (file : Bytes) (windowSize : Int) : Inv file (new windowSize) :=
  ⟨Nat.zero_le _, rfl⟩

structure Received (file : Bytes) (p : PacketPtr) (c c' : ClientRdtStrategy) : Prop where
  inv : Inv file c'
  done_eq : c'.done = c.done
  windowSize_eq : c'.windowSize = c.windowSize
  le : c.expectedSeqno.toNat ≤ c'.expectedSeqno.toNat
  le_max : c'.expectedSeqno.toNat ≤ max c.expectedSeqno.toNat (p.addr + 1)
  acks : ∃ answers, c'.acks = c.acks ++ answers
    ∧ ∀ a ∈ answers, ∃ n, a = AckPacket.new n ∧ (n.toNat = 2 ^ 32 - 1 ∨ n < c'.expectedSeqno)

theorem pred_expectedSeqno (n : UInt32) : (n - 1).toNat = 2 ^ 32 - 1 ∨ n - 1 < n := by
  by_cases hn : n = 0
  . rw [hn]
    exact .inl rfl
  . apply Or.inr
    rw [UInt32.lt_iff_toNat_lt, UInt32.toNat_sub_of_le]
    all_goals
      rw [← UInt32.toNat_inj] at hn
      simp only [UInt32.le_iff_toNat_le, UInt32.reduceToNat] at *
      omega

theorem received_receive (hN : (file.chunks MAX_DATA_SIZE).length < 2 ^ 32 - 1) (h : Inv file c)
    (hp : p ∈ packets 0 file)
    : Received file p c (receive c p.packet) := by
  have hsucc := toNat_succ_expectedSeqno hN h
  rw [receive_of_mem_packets c hp]
  split
  . split
    . next hseqno =>
      have hnat := toNat_seqno hN hp
      have hexpected : ((deliverPacket c p.packet).sendAck
          (AckPacket.new p.packet.seqno)).expectedSeqno = c.expectedSeqno + 1 := by
        rfl
      refine ⟨inv_sendAck (inv_deliverPacket hN h hp hseqno) _, rfl, rfl, ?_, ?_, ?_⟩
      . rw [hexpected, hsucc]
        omega
      . rw [hexpected, hsucc]
        rw [hseqno] at hnat
        omega
      . refine ⟨[AckPacket.new p.packet.seqno], rfl, ?_⟩
        intro a ha
        refine ⟨_, List.mem_singleton.mp ha, .inr ?_⟩
        rw [hexpected, hseqno, UInt32.lt_iff_toNat_lt, hsucc]
        omega
    . refine ⟨inv_sendAck h _, rfl, rfl, Nat.le_refl _, Nat.le_max_left _ _, ?_⟩
      refine ⟨[AckPacket.new (c.expectedSeqno - 1)], rfl, ?_⟩
      intro a ha
      exact ⟨_, List.mem_singleton.mp ha, pred_expectedSeqno _⟩
  . exact ⟨h, rfl, rfl, Nat.le_refl _, Nat.le_max_left _ _, [], by simp, by simp⟩

theorem output_eq_file (h : Inv file c)
    (hle : (file.chunks MAX_DATA_SIZE).length ≤ c.expectedSeqno.toNat)
    : c.output = file := by
  rw [h.output_eq, List.take_of_length_le hle, List.flatten_chunks MAX_DATA_SIZE_pos]

theorem toNat_uint32 {x : Int} (h0 : 0 ≤ x) (hx : x < 2 ^ 32) : (uint32 x).toNat = x.toNat := by
  unfold uint32
  rw [Int.emod_eq_of_lt h0 hx, UInt32.toNat_ofNat']
  omega

theorem inWindow_iff (hone : 1 ≤ c.windowSize) (hsize : c.windowSize < 2 ^ 31) {seqno : UInt32}
    (hle : c.expectedSeqno ≤ seqno)
    : inWindow c seqno
        ↔ c.expectedSeqno.toNat + c.windowSize.toNat < 2 ^ 32
            ∧ seqno.toNat < c.expectedSeqno.toNat + c.windowSize.toNat := by
  have hlt := c.expectedSeqno.toNat_lt
  rw [UInt32.le_iff_toNat_le] at hle
  unfold inWindow
  rw [UInt32.le_iff_toNat_le, UInt32.lt_iff_toNat_lt, UInt32.toNat_add,
    toNat_uint32 (by omega) (by omega)]
  omega

end ClientGoBackN
