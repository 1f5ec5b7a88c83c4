import RdtProtocol.Client.Strategy.BasicLemmas
import RdtProtocol.Client.Strategy.GoBackN
import RdtProtocol.Client.Strategy.SelectiveRepeat

/-!
This module contains `run` of both client strategies on whatever `recvfrom` returns, together with what
it leaves in the buffer. For a datagram of eight bytes or more that is what the datagram's contents do.
-/

-- No `std::string` has more characters than a pointer difference can count.
def MAX_STRING_SIZE : Nat := 2 ^ 63 - 1

-- `data_packet(char buffer[], int buf_len)`. Undefined where the constructor of the string throws, and
-- where `unpack` does.
def DataPacket.ofBuffer (buffer : Bytes) (bufLen : Int) : Option DataPacket :=
  if sizeT bufLen > MAX_STRING_SIZE then
    none
  else
    unpack (buffer.take (sizeT bufLen))

theorem DataPacket.unpack_eq_none {buf : Bytes} (h : buf.length < HEADER_SIZE)
    : unpack buf = none := by
  unfold unpack
  split
  . simp only [HEADER_SIZE, List.length_cons] at h
    omega
  . rfl

theorem DataPacket.ofBuffer_eq_none {bytesReceived : Int} (buffer : Bytes) (h0 : -1 ≤ bytesReceived)
    (h : bytesReceived < HEADER_SIZE)
    : ofBuffer buffer bytesReceived = none := by
  simp only [HEADER_SIZE] at h
  unfold ofBuffer
  split
  . rfl
  . next hsize =>
    have hnonneg : 0 ≤ bytesReceived := by
      apply Int.not_lt.mp
      intro hneg
      have : bytesReceived = -1 := by omega
      exact hsize (by rw [this]; decide)
    apply unpack_eq_none
    rw [List.length_take, sizeT_of_nonneg hnonneg]
    simp only [HEADER_SIZE]
    omega

namespace ClientRdtStrategy

def overwrite (buffer datagram : Bytes) : Bytes :=
  datagram.take MAX_PKT_SIZE ++ buffer.drop (min datagram.length MAX_PKT_SIZE)

theorem ofBuffer_overwrite (buffer datagram : Bytes)
    : DataPacket.ofBuffer (overwrite buffer datagram) (min datagram.length MAX_PKT_SIZE : Nat)
        = recvPacket datagram := by
  have hsize : sizeT (min datagram.length MAX_PKT_SIZE : Nat) = min datagram.length MAX_PKT_SIZE := by
    rw [sizeT_of_nonneg (Int.natCast_nonneg _), Int.toNat_natCast]
  have hle : ¬ min datagram.length MAX_PKT_SIZE > MAX_STRING_SIZE := by
    simp only [MAX_PKT_SIZE, MAX_STRING_SIZE]
    omega
  unfold DataPacket.ofBuffer overwrite
  rw [hsize, if_neg hle, Nat.min_comm, ← List.length_take, List.take_left]
  rfl

end ClientRdtStrategy

open ClientRdtStrategy

def ClientSelectiveRepeat.runRecvfrom (c : ClientRdtStrategy) (buffer : Bytes) (bytesReceived : Int)
    : Option ClientRdtStrategy :=
  (DataPacket.ofBuffer buffer bytesReceived).map (receive c)

def ClientGoBackN.runRecvfrom (c : ClientRdtStrategy) (buffer : Bytes) (bytesReceived : Int)
    : Option ClientRdtStrategy :=
  (DataPacket.ofBuffer buffer bytesReceived).map (fun packetReceived =>
    if bytesReceived > 0 then receive c packetReceived else c)

theorem ClientSelectiveRepeat.run_eq_runRecvfrom (c : ClientRdtStrategy) (buffer datagram : Bytes)
    : run c datagram
        = runRecvfrom c (overwrite buffer datagram) (min datagram.length MAX_PKT_SIZE : Nat) := by
  rw [runRecvfrom, ofBuffer_overwrite]
  rfl

theorem ClientGoBackN.run_eq_runRecvfrom (c : ClientRdtStrategy) (buffer datagram : Bytes)
    : run c datagram
        = runRecvfrom c (overwrite buffer datagram) (min datagram.length MAX_PKT_SIZE : Nat) := by
  rw [runRecvfrom, ofBuffer_overwrite, run]
  cases hp : recvPacket datagram with
  | none => rfl
  | some p =>
    have hpos : datagram ≠ [] := by
      intro hnil
      rw [hnil] at hp
      contradiction
    have : 0 < min datagram.length MAX_PKT_SIZE := by
      have := List.length_pos_iff.mpr hpos
      simp only [MAX_PKT_SIZE]
      omega
    simp only [Option.map_some]
    rw [if_pos (by omega)]

namespace ClientRdtStrategy

structure Ignored (c : ClientRdtStrategy) (res : Option ClientRdtStrategy) : Prop where
  returns : res.isSome = true
  unchanged
    : ∀ c' ∈ res,
        c'.expectedSeqno = c.expectedSeqno ∧ c'.window = c.window ∧ c'.output = c.output
          ∧ c'.done = c.done

theorem not_ignored_runRecvfrom (c : ClientRdtStrategy) (buffer : Bytes) {bytesReceived : Int}
    (h0 : -1 ≤ bytesReceived) (h : bytesReceived < 8)
    : ¬ Ignored c (ClientSelectiveRepeat.runRecvfrom c buffer bytesReceived)
        ∧ ¬ Ignored c (ClientGoBackN.runRecvfrom c buffer bytesReceived) := by
  have hnone := DataPacket.ofBuffer_eq_none buffer h0 h
  unfold ClientSelectiveRepeat.runRecvfrom ClientGoBackN.runRecvfrom
  rw [hnone]
  constructor
  . intro hignored
    exact Bool.false_ne_true hignored.returns
  . intro hignored
    exact Bool.false_ne_true hignored.returns

theorem not_ignored_runRecvfrom_seven
    : ¬ Ignored (ClientSelectiveRepeat.new 5)
          (ClientSelectiveRepeat.runRecvfrom (ClientSelectiveRepeat.new 5)
            (List.replicate MAX_PKT_SIZE 0) 7)
        ∧ ¬ Ignored (ClientSelectiveRepeat.new 5)
          (ClientGoBackN.runRecvfrom (ClientSelectiveRepeat.new 5)
            (List.replicate MAX_PKT_SIZE 0) 7) :=
  not_ignored_runRecvfrom _ _ (by decide) (by decide)

theorem runRecvfrom_failed
    : (ClientSelectiveRepeat.new 5).done = false ∧ (ClientGoBackN.new 5).done = false
        ∧ ¬ Ignored (ClientSelectiveRepeat.new 5)
          (ClientSelectiveRepeat.runRecvfrom (ClientSelectiveRepeat.new 5)
            (List.replicate MAX_PKT_SIZE 0) (-1))
        ∧ ¬ Ignored (ClientGoBackN.new 5)
          (ClientGoBackN.runRecvfrom (ClientGoBackN.new 5) (List.replicate MAX_PKT_SIZE 0) (-1)) := by
  refine ⟨rfl, rfl, ?_, ?_⟩
  . intro hignored
    exact absurd hignored.returns (by decide)
  . intro hignored
    exact absurd hignored.returns (by decide)

end ClientRdtStrategy
