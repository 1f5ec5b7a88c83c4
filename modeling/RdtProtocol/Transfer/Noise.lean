import RdtProtocol.Shared.Corruption
import RdtProtocol.Transfer.Regular
import RdtProtocol.Transfer.Safety

/-!
This module contains the transfer over a network that also changes bytes on the way. What the checksums
protect from that is the same transfer as without.
-/

namespace Transfer

inductive NoisyEvent where
  | clean (e : Event)
  | ack (packet : AckPacket) (index : Nat) (b : UInt8)
  | handshake (datagram : ServerDatagram) (index : Nat) (b : UInt8)
  | run (datagram : ServerDatagram) (index : Nat) (b : UInt8)
  deriving DecidableEq, Repr

def Changes (datagram : Bytes) (index : Nat) (b : UInt8) : Prop :=
  index < datagram.length ∧ datagram[index]? ≠ some b

instance (datagram : Bytes) (index : Nat) (b : UInt8) : Decidable (Changes datagram index b) :=
  inferInstanceAs (Decidable (_ ∧ _))

-- The length of a data packet, which the checksum does not protect, stays as it is.
def stepNoisy (cfg : Config) (w : World) : NoisyEvent → Option World
  | .clean e => step cfg w e
  | .ack packet index b =>
    if w.stage = .running ∧ w.server.isDone = false ∧ .ack packet ∈ w.toServer
        ∧ Changes packet.pack index b then
      (AckPacket.unpack (packet.pack.set index b)).map fun ack =>
        w.withServer (acknowledgePacket cfg w.server ack)
    else
      none
  -- `handle_ack_timeout` does not look at what it has received.
  | .handshake datagram index b =>
    if w.receiving = false ∧ datagram ∈ w.toClient ∧ Changes datagram.bytes index b then
      some { w with receiving := true }
    else
      none
  | .run datagram index b =>
    if w.receiving ∧ w.client.done = false ∧ datagram ∈ w.toClient
        ∧ Changes datagram.bytes index b ∧ index ≠ 4 ∧ index ≠ 5 then
      (runClient cfg w.client (datagram.bytes.set index b)).map w.withClient
    else
      none

-- Stop and wait does not compare the checksum of an ACK.
def Checked (cfg : Config) : NoisyEvent → Prop
  | .clean _ => True
  | .ack _ _ _ => cfg.mode = .selectiveRepeat
  | .handshake _ _ _ => True
  | .run _ _ _ => True

instance (cfg : Config) (e : NoisyEvent) : Decidable (Checked cfg e) :=
  match e with
  | .clean _ => .isTrue trivial
  | .ack _ _ _ => inferInstanceAs (Decidable (cfg.mode = .selectiveRepeat))
  | .handshake _ _ _ => .isTrue trivial
  | .run _ _ _ => .isTrue trivial

variable {cfg : Config} {w w' : World} {d : ServerDatagram} {index : Nat} {b : UInt8}

theorem bytes_eq_pack (h : Linked cfg w) (hd : d ∈ w.toClient)
    : ∃ data seqno, data.length ≤ MAX_DATA_SIZE ∧ d.bytes = (DataPacket.new data seqno).pack := by
  cases d with
  | requestAck => exact ⟨[], 0, Nat.zero_le _, AckPacket.pack_new_eq_pack_empty 0⟩
  | data packet =>
    obtain ⟨p, hp, rfl⟩ := h.data packet hd
    refine ⟨p.packet.data, p.packet.seqno, (length_data_of_mem_packets hp).2, ?_⟩
    exact congrArg DataPacket.pack (packet_eq_new_of_mem_packets hp)
  | terminal packet =>
    obtain ⟨_, n, rfl⟩ := h.terminal packet hd
    exact ⟨[], n, Nat.zero_le _, rfl⟩

theorem runClient_set (hmode : cfg.mode ≠ .goBackN) (h : Linked cfg w) (hd : d ∈ w.toClient)
    (hchanges : Changes d.bytes index b) (h4 : index ≠ 4) (h5 : index ≠ 5)
    : runClient cfg w.client (d.bytes.set index b) = some w.client := by
  obtain ⟨data, seqno, hlen, hbytes⟩ := bytes_eq_pack h hd
  have hmax : data.length ≤ 65527 := Nat.le_trans hlen (by decide)
  have hcut : (d.bytes.set index b).length ≤ MAX_PKT_SIZE := by
    have hlt : data.length + HEADER_SIZE < 2 ^ 16 := Nat.lt_of_le_of_lt (Nat.add_le_add_right hlen _)
      (by decide)
    rw [List.length_set, hbytes, DataPacket.length_pack_new hlt]
    exact Nat.add_le_add_right hlen _
  rw [hbytes] at hchanges
  obtain ⟨p, hp, hcksum⟩ := DataPacket.set_detected seqno hmax hchanges.1 h4 h5 hchanges.2
  rw [runClient_eq hmode, ClientSelectiveRepeat.run, ClientRdtStrategy.recvPacket,
    List.take_of_length_le hcut, hbytes, hp, Option.map_some,
    ClientSelectiveRepeat.receive_of_corrupted hcksum]

theorem clean_step (hmode : cfg.mode ≠ .goBackN) (h : Linked cfg w) {e : NoisyEvent}
    (he : Checked cfg e) (hstep : stepNoisy cfg w e = some w')
    : w' = w ∨ ∃ e', step cfg w e' = some w' := by
  cases e with
  | clean e => exact .inr ⟨e, hstep⟩
  | ack packet index b =>
    left
    simp only [stepNoisy, Option.ite_none_right_eq_some, Option.map_eq_some_iff] at hstep
    obtain ⟨⟨_, _, hmem, hchanges⟩, a, ha, rfl⟩ := hstep
    obtain ⟨n, rfl, _⟩ := h.ack packet hmem
    obtain ⟨q, hq, hcksum⟩ := AckPacket.set_detected n hchanges.1 hchanges.2
    rw [ha, Option.some.injEq] at hq
    subst hq
    have hignored : acknowledgePacket cfg w.server a = w.server := by
      have hm : cfg.mode = .selectiveRepeat := he
      simp [acknowledgePacket, Mode.acknowledgePacket, hm, SelectiveRepeat.acknowledgePacket, hcksum]
    rw [hignored, withServer_self]
  | handshake d index b =>
    simp only [stepNoisy, Option.ite_none_right_eq_some, Option.some.injEq] at hstep
    obtain ⟨⟨hreceiving, hd, _⟩, rfl⟩ := hstep
    exact .inr ⟨.handshake d, if_pos ⟨hreceiving, hd⟩⟩
  | run d index b =>
    left
    simp only [stepNoisy, Option.ite_none_right_eq_some, Option.map_eq_some_iff] at hstep
    obtain ⟨⟨_, _, hd, hchanges, h4, h5⟩, c, hc, rfl⟩ := hstep
    rw [runClient_set hmode h hd hchanges h4 h5, Option.some.injEq] at hc
    rw [← hc, withClient_self]

theorem clean_of_noisy (hmode : cfg.mode ≠ .goBackN) (hcfg : cfg.Valid)
    (h : StepFn.ReachableWhen (stepNoisy cfg) (fun _ e => Checked cfg e) (init cfg) w)
    : StepFn.Reachable (step cfg) (init cfg) w := by
  apply h.invariant .init
  intro w e w' hw he hstep
  cases clean_step hmode (linked_of_reachable hmode hcfg hw) he hstep with
  | inl heq => exact heq ▸ hw
  | inr hex =>
    obtain ⟨e', hstep'⟩ := hex
    exact hw.step trivial hstep'

def noisyRun : List NoisyEvent :=
  [
    .clean .sendRequest, .clean (.request .request), .clean .start, .handshake .requestAck 3 7,
    .run (.data (DataPacket.new [10, 20] 1)) 8 99, .clean (.run (.data (DataPacket.new [10, 20] 1))),
    .ack (AckPacket.new 1) 0 2, .clean (.ack (.ack (AckPacket.new 1))), .clean .finish,
    .clean (.run (.terminal (DataPacket.new [] 2)))
  ]

def sampleNoisy : World :=
  (StepFn.run (StepFn.guarded (stepNoisy sampleConfig) (fun _ e => Checked sampleConfig e))
    (init sampleConfig) noisyRun).get (by decide +kernel)

theorem clean_sampleNoisy
    : StepFn.Reachable (step sampleConfig) (init sampleConfig) sampleNoisy := by
  have hreach : StepFn.ReachableWhen (stepNoisy sampleConfig) (fun _ e => Checked sampleConfig e)
      (init sampleConfig) sampleNoisy := by
    apply StepFn.reachableWhen_of_guarded
    apply StepFn.reachable_get_run
  exact clean_of_noisy (by decide) sampleConfig_valid hreach

-- In stop and wait a changed byte turns the ACK of the late request into that of the packet.
example
    : (StepFn.run (stepNoisy { sampleConfig with mode := .stopAndWait })
        (init { sampleConfig with mode := .stopAndWait })
        [
          .clean .sendRequest, .clean (.request .request), .clean .start,
          .clean (.handshake .requestAck), .clean (.run .requestAck), .ack (AckPacket.new 0) 0 1,
          .clean .finish, .clean (.run (.terminal (DataPacket.new [] 2)))
        ]).map (fun w => (w.client.done, w.client.output))
      = some (true, []) := by
  decide +kernel

end Transfer
