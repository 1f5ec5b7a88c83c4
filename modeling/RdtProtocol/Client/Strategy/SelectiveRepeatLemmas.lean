import RdtProtocol.Client.Strategy.SelectiveRepeat
import RdtProtocol.Server.Packets

/-!
This module contains the invariant of the selective repeat receiver, and how it answers to the packets
of a file.
-/

namespace ClientSelectiveRepeat

structure InvFrom (file : Bytes) (lower : Nat) (c : ClientRdtStrategy) : Prop where
  one_le : 1 ≤ c.expectedSeqno.toNat
  le_length : c.expectedSeqno.toNat ≤ (file.chunks MAX_DATA_SIZE).length + 1
  output_eq
    : c.output = ((file.chunks MAX_DATA_SIZE).take (c.expectedSeqno.toNat - 1)).flatten
  sorted : OrderedSet.Sorted (·.seqno.toNat) c.window
  mem_packets : ∀ q ∈ c.window, ∃ p ∈ packets 1 file, p.packet = q
  lower_le : ∀ q ∈ c.window, lower ≤ q.seqno.toNat

-- Between two calls of `run` the next packet in order is not in the buffer.
abbrev Inv (file : Bytes) (c : ClientRdtStrategy) : Prop :=
  InvFrom file (c.expectedSeqno.toNat + 1) c

def Accepted (c : ClientRdtStrategy) (n : UInt32) : Prop :=
  n < c.expectedSeqno ∨ ∃ q ∈ c.window, q.seqno = n

variable {file : Bytes} {c : ClientRdtStrategy} {p : PacketPtr} {n : UInt32}

theorem inv_new (file : Bytes) (windowSize : Int) : Inv file (new windowSize) := by
  refine ⟨Nat.le_refl 1, ?_, rfl, ?_, ?_, ?_⟩
  . simp [new, ClientRdtStrategy.new]
  . simp [new, ClientRdtStrategy.new, OrderedSet.Sorted]
  . simp [new, ClientRdtStrategy.new]
  . simp [new, ClientRdtStrategy.new]

theorem InvFrom.sendAck {lower : Nat} (h : InvFrom file lower c) (ackPkt : AckPacket)
    : InvFrom file lower (c.sendAck ackPkt) :=
  ⟨h.one_le, h.le_length, h.output_eq, h.sorted, h.mem_packets, h.lower_le⟩

theorem toNat_seqno (hN : (file.chunks MAX_DATA_SIZE).length < 2 ^ 32 - 1) (hp : p ∈ packets 1 file)
    : p.packet.seqno.toNat = p.addr + 1 := by
  rw [toNat_seqno_of_mem_packets hp (by simp; omega)]
  simp [Nat.add_comm]

theorem toNat_succ_expectedSeqno (hN : (file.chunks MAX_DATA_SIZE).length < 2 ^ 32 - 1)
    (hp : p ∈ packets 1 file) (hseqno : p.packet.seqno = c.expectedSeqno)
    : (c.expectedSeqno + 1).toNat = c.expectedSeqno.toNat + 1 := by
  have hlt := addr_lt_of_mem_packets hp
  have hnat := toNat_seqno hN hp
  rw [hseqno] at hnat
  rw [UInt32.toNat_add]
  simp only [UInt32.reduceToNat]
  omega

theorem invFrom_writeData (hN : (file.chunks MAX_DATA_SIZE).length < 2 ^ 32 - 1)
    {window : List DataPacket} (hp : p ∈ packets 1 file)
    (hseqno : p.packet.seqno = c.expectedSeqno)
    (h : InvFrom file c.expectedSeqno.toNat { c with window := p.packet :: window })
    : InvFrom file (c.writeData p.packet).expectedSeqno.toNat
        { c.writeData p.packet with window } := by
  have hlt := addr_lt_of_mem_packets hp
  have hnat := toNat_seqno hN hp
  have hsucc := toNat_succ_expectedSeqno hN hp hseqno
  have hsorted := h.sorted
  simp only [OrderedSet.Sorted, List.pairwise_cons] at hsorted
  rw [hseqno] at hnat hsorted
  refine ⟨?_, ?_, ?_, hsorted.2, ?_, ?_⟩
  . simp only [ClientRdtStrategy.writeData, hsucc]
    omega
  . simp only [ClientRdtStrategy.writeData, hsucc]
    omega
  . have hout := h.output_eq
    have hdata := data_of_mem_packets hp
    simp only [ClientRdtStrategy.writeData, hsucc] at hout ⊢
    rw [hout, hnat, Nat.add_sub_cancel, Nat.add_sub_cancel, List.take_add_one, hdata,
      Option.toList_some, List.flatten_append, List.flatten_singleton]
  . intro q hq
    exact h.mem_packets q (List.mem_cons_of_mem _ hq)
  . intro q hq
    simp only [ClientRdtStrategy.writeData, hsucc]
    exact hsorted.1 q hq

theorem inv_deliverBufferedPackets.go (hN : (file.chunks MAX_DATA_SIZE).length < 2 ^ 32 - 1)
    (window : List DataPacket) (h : InvFrom file c.expectedSeqno.toNat { c with window })
    : let c' := deliverBufferedPackets.go c window
      Inv file c' ∧ c'.done = c.done ∧ c'.acks = c.acks ∧ c'.windowSize = c.windowSize
        ∧ ∀ n, Accepted { c with window } n → Accepted c' n := by
  induction window generalizing c with
  | nil =>
    refine ⟨⟨h.one_le, h.le_length, h.output_eq, h.sorted, h.mem_packets, ?_⟩, rfl, rfl, rfl,
      fun _ => id⟩
    simp [deliverBufferedPackets.go]
  | cons q window ih =>
    obtain ⟨p, hp, rfl⟩ := h.mem_packets q (by simp)
    unfold deliverBufferedPackets.go
    split
    . next hseqno =>
      obtain ⟨hinv, hdone, hacks, hsize, haccepted⟩ := ih (invFrom_writeData hN hp hseqno h)
      refine ⟨hinv, hdone, hacks, hsize, ?_⟩
      intro n hn
      apply haccepted
      have hsucc := toNat_succ_expectedSeqno hN hp hseqno
      simp only [Accepted, List.mem_cons, UInt32.lt_iff_toNat_lt, ClientRdtStrategy.writeData,
        hsucc] at hn ⊢
      grind
    . next hne =>
      refine ⟨⟨h.one_le, h.le_length, h.output_eq, h.sorted, h.mem_packets, ?_⟩, rfl, rfl, rfl,
        fun _ => id⟩
      have hsorted := h.sorted
      simp only [OrderedSet.Sorted, List.pairwise_cons] at hsorted
      have hlower := h.lower_le p.packet (by simp)
      have hlt : c.expectedSeqno.toNat < p.packet.seqno.toNat := by
        apply Nat.lt_of_le_of_ne hlower
        intro heq
        exact hne (UInt32.toNat_inj.mp heq.symm)
      intro r hr
      rw [List.mem_cons] at hr
      cases hr with
      | inl hr => exact hr ▸ hlt
      | inr hr => exact Nat.lt_trans hlt (hsorted.1 r hr)

theorem inv_deliverBufferedPackets (hN : (file.chunks MAX_DATA_SIZE).length < 2 ^ 32 - 1)
    (h : InvFrom file c.expectedSeqno.toNat c)
    : let c' := deliverBufferedPackets c
      Inv file c' ∧ c'.done = c.done ∧ c'.acks = c.acks ∧ c'.windowSize = c.windowSize
        ∧ ∀ n, Accepted c n → Accepted c' n :=
  inv_deliverBufferedPackets.go hN c.window h

theorem windowSize_go (c : ClientRdtStrategy) (window : List DataPacket)
    : (deliverBufferedPackets.go c window).windowSize = c.windowSize := by
  induction window generalizing c with
  | nil => rfl
  | cons q window ih =>
    unfold deliverBufferedPackets.go
    split
    . apply ih
    . rfl

theorem windowSize_receive (c : ClientRdtStrategy) (packet : DataPacket)
    : (receive c packet).windowSize = c.windowSize := by
  unfold receive
  dsimp only
  split
  . split
    . rfl
    . split
      . rfl
      . split
        . apply windowSize_go
        . rfl
  . split <;> rfl

theorem receive_eq_self {packet : DataPacket} (hle : c.expectedSeqno ≤ packet.seqno)
    (hout : ¬ inWindow c packet.seqno)
    : receive c packet = c := by
  have hlt : ¬ packet.seqno < c.expectedSeqno := by
    rw [UInt32.not_lt]
    exact hle
  simp [receive, hout, hlt]

theorem receive_of_corrupted {packet : DataPacket} (hcksum : packet.cksum ≠ packet.calculateChecksum)
    : receive c packet = c := by
  simp [receive, hcksum]

theorem receive_of_lt {packet : DataPacket} (hlt : packet.seqno < c.expectedSeqno)
    (hcksum : packet.cksum = packet.calculateChecksum)
    : receive c packet = c.sendAck (AckPacket.new packet.seqno) := by
  have hout : ¬ inWindow c packet.seqno := by
    intro h
    exact UInt32.not_le.mpr hlt h.1
  simp [receive, hout, hlt, hcksum]

theorem inv_insert (hN : (file.chunks MAX_DATA_SIZE).length < 2 ^ 32 - 1) (h : Inv file c)
    (hp : p ∈ packets 1 file) (hle : c.expectedSeqno ≤ p.packet.seqno)
    (hnew : OrderedSet.contains (·.seqno.toNat) p.packet c.window = false)
    : let c' := { c with window := OrderedSet.insert (·.seqno.toNat) p.packet c.window }
      let c' := if p.packet.seqno = c.expectedSeqno then deliverBufferedPackets c' else c'
      Inv file c' ∧ c'.done = c.done ∧ c'.acks = c.acks ∧ c'.windowSize = c.windowSize
        ∧ (∀ n, Accepted c n → Accepted c' n) ∧ Accepted c' p.packet.seqno := by
  have hmem : ∀ q, q ∈ OrderedSet.insert (·.seqno.toNat) p.packet c.window
      ↔ q = p.packet ∨ q ∈ c.window := fun q => OrderedSet.mem_insert_iff hnew
  rw [UInt32.le_iff_toNat_le] at hle
  have hinsert : InvFrom file c.expectedSeqno.toNat
      { c with window := OrderedSet.insert (·.seqno.toNat) p.packet c.window } := by
    refine ⟨h.one_le, h.le_length, h.output_eq, h.sorted.insert, ?_, ?_⟩
    . intro q hq
      cases (hmem q).mp hq with
      | inl hq => exact ⟨p, hp, hq.symm⟩
      | inr hq => exact h.mem_packets q hq
    . intro q hq
      cases (hmem q).mp hq with
      | inl hq => exact hq ▸ hle
      | inr hq => exact Nat.le_of_succ_le (h.lower_le q hq)
  have haccepted : ∀ n, Accepted c n ∨ n = p.packet.seqno
      → Accepted { c with window := OrderedSet.insert (·.seqno.toNat) p.packet c.window } n := by
    intro n hn
    simp only [Accepted, hmem] at hn ⊢
    grind
  dsimp only
  split
  . obtain ⟨hinv, hdone, hacks, hsize, hacc⟩ :=
      inv_deliverBufferedPackets
        (c := { c with window := OrderedSet.insert (·.seqno.toNat) p.packet c.window }) hN hinsert
    exact ⟨hinv, hdone, hacks, hsize, fun n hn => hacc n (haccepted n (.inl hn)),
      hacc _ (haccepted _ (.inr rfl))⟩
  . next hne =>
    refine ⟨⟨h.one_le, h.le_length, h.output_eq, h.sorted.insert, hinsert.mem_packets, ?_⟩, rfl, rfl,
      rfl, fun n hn => haccepted n (.inl hn), haccepted _ (.inr rfl)⟩
    intro q hq
    cases (hmem q).mp hq with
    | inl hq =>
      rw [hq]
      apply Nat.lt_of_le_of_ne hle
      intro heq
      exact hne (UInt32.toNat_inj.mp heq.symm)
    | inr hq => exact h.lower_le q hq

structure Received (file : Bytes) (p : PacketPtr) (c c' : ClientRdtStrategy) : Prop where
  inv : Inv file c'
  done_eq : c'.done = c.done
  windowSize_eq : c'.windowSize = c.windowSize
  accepted : ∀ n, Accepted c n → Accepted c' n
  acks_eq
    : c'.acks = c.acks
      ∨ c'.acks = c.acks ++ [AckPacket.new p.packet.seqno] ∧ Accepted c' p.packet.seqno

theorem received_receive (hN : (file.chunks MAX_DATA_SIZE).length < 2 ^ 32 - 1) (h : Inv file c)
    (hp : p ∈ packets 1 file)
    : Received file p c (receive c p.packet) := by
  have hcksum := checksum_of_mem_packets hp
  have hdata : ¬ p.packet.data.length = 0 := by
    have := (length_data_of_mem_packets hp).1
    omega
  by_cases hlt : p.packet.seqno < c.expectedSeqno
  . rw [receive_of_lt hlt hcksum.symm]
    exact ⟨h.sendAck _, rfl, rfl, fun _ => id, .inr ⟨rfl, .inl hlt⟩⟩
  . rw [UInt32.not_lt] at hlt
    by_cases hwindow : inWindow c p.packet.seqno
    . cases hnew : OrderedSet.contains (·.seqno.toNat) p.packet c.window with
      | true =>
        have : receive c p.packet = c := by
          simp [receive, hwindow, hcksum, ClientRdtStrategy.isTerminalPkt, hdata, hnew]
        rw [this]
        exact ⟨h, rfl, rfl, fun _ => id, .inl rfl⟩
      | false =>
        obtain ⟨hinv, hdone, hacks, hsize, hacc, hself⟩ := inv_insert hN h hp hlt hnew
        have heq : receive c p.packet
            = (if p.packet.seqno = c.expectedSeqno then
                deliverBufferedPackets
                  { c with window := OrderedSet.insert (·.seqno.toNat) p.packet c.window }
              else
                { c with window := OrderedSet.insert (·.seqno.toNat) p.packet c.window }).sendAck
                  (AckPacket.new p.packet.seqno) := by
          simp only [receive, hwindow, hcksum, ClientRdtStrategy.isTerminalPkt, hdata, hnew]
          simp
        rw [heq]
        refine ⟨hinv.sendAck _, hdone, hsize, hacc, .inr ⟨?_, hself⟩⟩
        simp only [ClientRdtStrategy.sendAck, hacks]
    . rw [receive_eq_self hlt hwindow]
      exact ⟨h, rfl, rfl, fun _ => id, .inl rfl⟩

theorem inWindow_iff (hone : 1 ≤ c.windowSize) (hsize : c.windowSize < 2 ^ 31) {seqno : UInt32}
    : inWindow c seqno
        ↔ (c.expectedSeqno.toNat : Int) ≤ seqno.toNat
            ∧ (seqno.toNat : Int) < c.expectedSeqno.toNat + c.windowSize := by
  have := c.expectedSeqno.toNat_lt
  unfold inWindow
  rw [UInt32.le_iff_toNat_le, sizeT_of_nonneg (by omega), Nat.mod_eq_of_lt (by omega)]
  omega

theorem inWindow_expectedSeqno (hone : 1 ≤ c.windowSize) (hsize : c.windowSize < 2 ^ 31)
    : inWindow c c.expectedSeqno := by
  rw [inWindow_iff hone hsize]
  omega

theorem acks_receive_of_le (h : Inv file c) (hone : 1 ≤ c.windowSize) (hsize : c.windowSize < 2 ^ 31)
    (hN : (file.chunks MAX_DATA_SIZE).length < 2 ^ 32 - 1) (hp : p ∈ packets 1 file)
    (hle : p.packet.seqno ≤ c.expectedSeqno)
    : (receive c p.packet).acks = c.acks ++ [AckPacket.new p.packet.seqno] := by
  have hcksum := checksum_of_mem_packets hp
  by_cases hlt : p.packet.seqno < c.expectedSeqno
  . rw [receive_of_lt hlt hcksum.symm]
    rfl
  . have heq : p.packet.seqno = c.expectedSeqno := UInt32.le_antisymm hle (UInt32.not_lt.mp hlt)
    have hdata : ¬ p.packet.data.length = 0 := by
      have := (length_data_of_mem_packets hp).1
      omega
    have hwindow : inWindow c p.packet.seqno := heq ▸ inWindow_expectedSeqno hone hsize
    have hnew : OrderedSet.contains (·.seqno.toNat) p.packet c.window = false := by
      simp only [OrderedSet.contains, List.any_eq_false, decide_eq_true_eq]
      intro q hq
      have := h.lower_le q hq
      rw [heq]
      omega
    obtain ⟨_, _, hacks, _⟩ := inv_insert hN h hp (heq ▸ UInt32.le_refl _) hnew
    rw [if_pos heq] at hacks
    simp only [receive, hwindow, hcksum, ClientRdtStrategy.isTerminalPkt, hdata, hnew]
    simp only [ClientRdtStrategy.sendAck, heq]
    simp [hacks]

theorem not_accepted_expectedSeqno (h : Inv file c) : ¬ Accepted c c.expectedSeqno := by
  intro hacc
  cases hacc with
  | inl hlt => exact UInt32.lt_irrefl _ hlt
  | inr hex =>
    obtain ⟨q, hq, heq⟩ := hex
    have := h.lower_le q hq
    rw [heq] at this
    omega

theorem lt_expectedSeqno_of_accepted (hN : (file.chunks MAX_DATA_SIZE).length < 2 ^ 32 - 1)
    (h : Inv file c) {k : Nat} (hk : k ≤ (file.chunks MAX_DATA_SIZE).length)
    (hacc : ∀ p ∈ packets 1 file, p.addr < k → Accepted c p.packet.seqno)
    : k < c.expectedSeqno.toNat := by
  rw [← Nat.not_le]
  intro hle
  have hone := h.one_le
  have hlt : c.expectedSeqno.toNat - 1 < (packets 1 file).length := by
    rw [length_packets]
    omega
  have hmem := List.getElem_mem hlt
  have haddr : (packets 1 file)[c.expectedSeqno.toNat - 1].addr = c.expectedSeqno.toNat - 1 := by
    have hget := getElem?_packets 1 file (c.expectedSeqno.toNat - 1)
    rw [List.getElem?_eq_getElem hlt, eq_comm, Option.map_eq_some_iff] at hget
    obtain ⟨_, _, heq⟩ := hget
    rw [← heq]
  have hseqno : (packets 1 file)[c.expectedSeqno.toNat - 1].packet.seqno = c.expectedSeqno := by
    apply UInt32.toNat_inj.mp
    rw [toNat_seqno hN hmem, haddr]
    omega
  apply not_accepted_expectedSeqno h
  rw [← hseqno]
  apply hacc _ hmem
  rw [haddr]
  omega

theorem output_eq_file (h : Inv file c)
    (hlt : (file.chunks MAX_DATA_SIZE).length < c.expectedSeqno.toNat)
    : c.output = file := by
  rw [h.output_eq, List.take_of_length_le (by omega), List.flatten_chunks MAX_DATA_SIZE_pos]

theorem receive_empty (c : ClientRdtStrategy) (seqno : UInt32)
    : receive c (DataPacket.new [] seqno)
        =
      if inWindow c seqno then
        { c with done := true }
      else if seqno < c.expectedSeqno then
        c.sendAck (AckPacket.new seqno)
      else
        c := by
  simp [receive, ClientRdtStrategy.isTerminalPkt]

theorem receive_requestAck (h : Inv file c)
    : receive c (DataPacket.new [] 0) = c.sendAck (AckPacket.new 0) := by
  have hlt : 0 < c.expectedSeqno := by
    rw [UInt32.lt_iff_toNat_lt]
    exact h.one_le
  apply receive_of_lt hlt
  rfl

end ClientSelectiveRepeat
