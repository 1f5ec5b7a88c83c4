import RdtProtocol.Client.Strategy.BasicLemmas
import RdtProtocol.Client.Strategy.GoBackN
import RdtProtocol.Client.Strategy.SelectiveRepeatLemmas

/-!
This module contains what a client makes of packets that are numbered as those of the other kind of
modes are: go back N numbers the packets from 0 on, the other two modes from 1 on.
-/

theorem PacketPtr.map_packet_number (addr1 addr2 : Nat) (seqno : UInt32) (data : List Bytes)
    : (number addr1 seqno data).map (·.packet) = (number addr2 seqno data).map (·.packet) := by
  induction data generalizing addr1 addr2 seqno with
  | nil => rfl
  | cons d data ih =>
    simp only [number, List.map_cons, List.cons.injEq, true_and]
    exact ih (addr1 + 1) (addr2 + 1) (seqno + 1)

theorem mem_packets_zero {file : Bytes} {p : PacketPtr} (hp : p ∈ packets 0 file)
    : p.packet.seqno = 0 ∨ ∃ q ∈ packets 1 (file.drop MAX_DATA_SIZE), q.packet = p.packet := by
  have hfile : file ≠ [] := by
    intro hnil
    rw [packets_eq_nil_iff.mpr hnil] at hp
    contradiction
  unfold packets at hp
  rw [List.chunks_of_ne_nil MAX_DATA_SIZE_pos hfile, PacketPtr.number, List.mem_cons] at hp
  cases hp with
  | inl heq =>
    rw [heq]
    exact .inl rfl
  | inr hrest =>
    have hmem := List.mem_map_of_mem (f := PacketPtr.packet) hrest
    rw [PacketPtr.map_packet_number _ 0, List.mem_map] at hmem
    exact .inr hmem

namespace ClientGoBackN

def Waiting (c : ClientRdtStrategy) : Prop :=
  c.expectedSeqno = 0 ∧ c.output = []

variable {c : ClientRdtStrategy}

theorem waiting_receive {file : Bytes} {p : PacketPtr} (h : Waiting c)
    (hN : (file.chunks MAX_DATA_SIZE).length < 2 ^ 32 - 1) (hp : p ∈ packets 1 file)
    : Waiting (receive c p.packet) := by
  have hseqno : p.packet.seqno ≠ c.expectedSeqno := by
    intro heq
    have hnat := ClientSelectiveRepeat.toNat_seqno hN hp
    rw [heq, h.1] at hnat
    simp at hnat
  simp only [receive, hseqno, false_and, if_false]
  split
  . split
    . exact h
    . exact h
  . exact h

theorem waiting_receive_empty (h : Waiting c) (n : UInt32)
    : Waiting (receive c (DataPacket.new [] n)) := by
  have hterminal : ClientRdtStrategy.isTerminalPkt (DataPacket.new [] n) = true := rfl
  simp only [receive, hterminal, if_true]
  split
  . exact h
  . exact h

end ClientGoBackN

namespace ClientSelectiveRepeat

variable {file : Bytes} {c : ClientRdtStrategy}

theorem inv_receive_zero {p : PacketPtr} (h : Inv (file.drop MAX_DATA_SIZE) c)
    (hN : (file.chunks MAX_DATA_SIZE).length < 2 ^ 32 - 1) (hp : p ∈ packets 0 file)
    : Inv (file.drop MAX_DATA_SIZE) (receive c p.packet) := by
  cases mem_packets_zero hp with
  | inl hzero =>
    have hlt : p.packet.seqno < c.expectedSeqno := by
      rw [hzero, UInt32.lt_iff_toNat_lt]
      exact h.one_le
    rw [receive_of_lt hlt (checksum_of_mem_packets hp).symm]
    exact h.sendAck _
  | inr hrest =>
    obtain ⟨q, hq, heq⟩ := hrest
    have hlen : ((file.drop MAX_DATA_SIZE).chunks MAX_DATA_SIZE).length < 2 ^ 32 - 1 := by
      by_cases hfile : file = []
      . simp [hfile, List.chunks_nil]
      . rw [List.chunks_of_ne_nil MAX_DATA_SIZE_pos hfile, List.length_cons] at hN
        omega
    rw [← heq]
    exact (received_receive hlen h hq).inv

theorem inv_receive_empty (h : Inv file c) (n : UInt32)
    : Inv file (receive c (DataPacket.new [] n)) := by
  rw [receive_empty]
  split
  . exact ⟨h.one_le, h.le_length, h.output_eq, h.sorted, h.mem_packets, h.lower_le⟩
  . split
    . exact h.sendAck _
    . exact h

end ClientSelectiveRepeat
