import RdtProtocol.Server.PacketBuilderLemmas

/-!
This module contains what the senders rely on about the numbered pieces of a file: the address of a
packet is its position in the file, and so is its number, counted from the first one.
-/

theorem getElem?_packets (first : UInt32) (file : Bytes) (i : Nat)
    : (packets first file)[i]?
        = (file.chunks MAX_DATA_SIZE)[i]?.map
            (fun d => ⟨i, DataPacket.new d (first + UInt32.ofNat i)⟩) := by
  unfold packets
  rw [PacketPtr.getElem?_number]
  simp

@[simp]
theorem length_packets (first : UInt32) (file : Bytes)
    : (packets first file).length = (file.chunks MAX_DATA_SIZE).length := by
  simp [packets]

theorem packets_eq_nil_iff {first : UInt32} {file : Bytes} : packets first file = [] ↔ file = [] := by
  rw [← List.length_eq_zero_iff, length_packets, List.length_eq_zero_iff,
    List.chunks_eq_nil_iff MAX_DATA_SIZE_pos]

section

variable {first : UInt32} {file : Bytes} {p : PacketPtr}

theorem getElem?_addr_of_mem_packets (h : p ∈ packets first file)
    : (packets first file)[p.addr]? = some p := by
  rw [List.mem_iff_getElem?] at h
  obtain ⟨i, hi⟩ := h
  have hp := hi
  rw [getElem?_packets, Option.map_eq_some_iff] at hi
  obtain ⟨_, _, rfl⟩ := hi
  exact hp

theorem addr_lt_of_mem_packets (h : p ∈ packets first file)
    : p.addr < (file.chunks MAX_DATA_SIZE).length := by
  obtain ⟨hlt, _⟩ := List.getElem?_eq_some_iff.mp (getElem?_addr_of_mem_packets h)
  rwa [length_packets] at hlt

theorem eq_of_mem_packets_of_addr_eq {q : PacketPtr} (hp : p ∈ packets first file)
    (hq : q ∈ packets first file) (h : p.addr = q.addr)
    : p = q := by
  apply Option.some.inj
  rw [← getElem?_addr_of_mem_packets hp, ← getElem?_addr_of_mem_packets hq, h]

theorem packet_eq_of_mem_packets (h : p ∈ packets first file)
    : ∃ d, (file.chunks MAX_DATA_SIZE)[p.addr]? = some d
        ∧ p.packet = DataPacket.new d (first + UInt32.ofNat p.addr) := by
  have := getElem?_addr_of_mem_packets h
  rw [getElem?_packets, Option.map_eq_some_iff] at this
  obtain ⟨d, hd, hp⟩ := this
  exact ⟨d, hd, by rw [← hp]⟩

theorem toNat_seqno_of_mem_packets (h : p ∈ packets first file)
    (hlt : first.toNat + (file.chunks MAX_DATA_SIZE).length ≤ 2 ^ 32)
    : p.packet.seqno.toNat = first.toNat + p.addr := by
  have := addr_lt_of_mem_packets h
  obtain ⟨d, _, hp⟩ := packet_eq_of_mem_packets h
  rw [hp, DataPacket.seqno_new, UInt32.toNat_add, UInt32.toNat_ofNat']
  omega

theorem data_of_mem_packets (h : p ∈ packets first file)
    : (file.chunks MAX_DATA_SIZE)[p.addr]? = some p.packet.data := by
  obtain ⟨d, hd, hp⟩ := packet_eq_of_mem_packets h
  rw [hd, hp, DataPacket.data_new]

theorem length_data_of_mem_packets (h : p ∈ packets first file)
    : 0 < p.packet.data.length ∧ p.packet.data.length ≤ MAX_DATA_SIZE := by
  have := List.mem_of_getElem? (data_of_mem_packets h)
  exact ⟨List.length_pos_of_mem_chunks MAX_DATA_SIZE_pos this,
    List.length_le_of_mem_chunks MAX_DATA_SIZE_pos this⟩

theorem packet_eq_new_of_mem_packets (h : p ∈ packets first file)
    : p.packet = DataPacket.new p.packet.data p.packet.seqno := by
  obtain ⟨d, _, hp⟩ := packet_eq_of_mem_packets h
  rw [hp]
  rfl

theorem unpack_pack_of_mem_packets (h : p ∈ packets first file)
    : DataPacket.unpack p.packet.pack = some p.packet := by
  have hlen := (length_data_of_mem_packets h).2
  rw [packet_eq_new_of_mem_packets h]
  apply DataPacket.unpack_pack_new
  simp only [MAX_DATA_SIZE, HEADER_SIZE] at *
  omega

theorem length_pack_le_of_mem_packets (h : p ∈ packets first file)
    : p.packet.pack.length ≤ MAX_PKT_SIZE := by
  have hlen := (length_data_of_mem_packets h).2
  rw [packet_eq_new_of_mem_packets h, DataPacket.length_pack_new]
  all_goals
    simp only [MAX_DATA_SIZE, HEADER_SIZE, MAX_PKT_SIZE] at *
    omega

theorem checksum_of_mem_packets (h : p ∈ packets first file)
    : p.packet.calculateChecksum = p.packet.cksum := by
  rw [packet_eq_new_of_mem_packets h]
  rfl

end

theorem map_addr_packets (first : UInt32) (file : Bytes)
    : (packets first file).map (·.addr) = List.range (file.chunks MAX_DATA_SIZE).length := by
  apply List.ext_getElem?
  intro i
  rw [List.getElem?_map, getElem?_packets, Option.map_map]
  by_cases hi : i < (file.chunks MAX_DATA_SIZE).length
  . simp [hi]
  . simp [Nat.le_of_not_lt hi]

theorem pairwise_addr_packets (first : UInt32) (file : Bytes)
    : (packets first file).Pairwise (fun p q => p.addr < q.addr) := by
  have h := List.pairwise_lt_range (n := (file.chunks MAX_DATA_SIZE).length)
  rw [← map_addr_packets first] at h
  exact List.pairwise_map.mp h

theorem map_seqno_packets {first : UInt32} {file : Bytes}
    (hlt : first.toNat + (file.chunks MAX_DATA_SIZE).length ≤ 2 ^ 32)
    : (packets first file).map (·.packet.seqno.toNat)
        = List.range' first.toNat (file.chunks MAX_DATA_SIZE).length := by
  rw [List.range'_eq_map_range, ← map_addr_packets first, List.map_map]
  apply List.map_congr_left
  intro p hp
  exact toNat_seqno_of_mem_packets hp hlt

theorem pairwise_seqno_packets {first : UInt32} {file : Bytes}
    (hle : (file.chunks MAX_DATA_SIZE).length ≤ 2 ^ 32)
    : (packets first file).Pairwise (fun p q => p.packet.seqno.toNat ≠ q.packet.seqno.toNat) := by
  apply (pairwise_addr_packets first file).imp_of_mem
  intro p q hp hq hlt heq
  have haddr := addr_lt_of_mem_packets hq
  obtain ⟨_, _, hp⟩ := packet_eq_of_mem_packets hp
  obtain ⟨_, _, hq⟩ := packet_eq_of_mem_packets hq
  rw [hp, hq, DataPacket.seqno_new, DataPacket.seqno_new, UInt32.toNat_add, UInt32.toNat_add,
    UInt32.toNat_ofNat', UInt32.toNat_ofNat'] at heq
  omega
