import RdtProtocol.Client.Strategy.Basic
import RdtProtocol.Server.Packets

/-!
This module contains what the client reads from the datagrams that the server sends.
-/

namespace ClientRdtStrategy

theorem recvPacket_isSome {datagram : Bytes} (h : HEADER_SIZE ≤ datagram.length)
    : (recvPacket datagram).isSome := by
  have hcut : HEADER_SIZE ≤ (datagram.take MAX_PKT_SIZE).length := by
    have : HEADER_SIZE ≤ MAX_PKT_SIZE := by decide
    rw [List.length_take]
    omega
  obtain ⟨_, _, _, _, _, _, _, _, _, heq⟩ := eq_header_append hcut
  unfold recvPacket
  rw [heq]
  rfl

theorem recvPacket_of_mem_packets {first : UInt32} {file : Bytes} {p : PacketPtr}
    (hp : p ∈ packets first file)
    : recvPacket p.packet.pack = some p.packet := by
  unfold recvPacket
  rw [List.take_of_length_le (length_pack_le_of_mem_packets hp), unpack_pack_of_mem_packets hp]

theorem recvPacket_empty (seqno : UInt32)
    : recvPacket (DataPacket.new [] seqno).pack = some (DataPacket.new [] seqno) := by
  have hlen : ([] : Bytes).length + HEADER_SIZE < 2 ^ 16 := by decide
  unfold recvPacket
  rw [List.take_of_length_le, DataPacket.unpack_pack_new hlen]
  rw [DataPacket.length_pack_new hlen]
  decide

theorem recvPacket_ack (ackno : UInt32)
    : recvPacket (AckPacket.new ackno).pack = some (DataPacket.new [] ackno) := by
  rw [AckPacket.pack_new_eq_pack_empty]
  apply recvPacket_empty

end ClientRdtStrategy
