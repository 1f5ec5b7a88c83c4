import RdtProtocol.Client.Strategy.BasicLemmas
import RdtProtocol.Client.Strategy.SelectiveRepeatLemmas
import RdtProtocol.Transfer.ServerLemmas

/-!
This module contains the invariant that ties the two sides of a selective repeat or stop and wait
transfer together, and the safety of these transfers.
-/

namespace Transfer

open ClientSelectiveRepeat (Accepted)

structure Linked (cfg : Config) (w : World) : Prop where
  server : ServerInv cfg w.server
  untouched : w.stage = .unregistered ∨ w.stage = .created → w.server = newStrategy cfg
  client : ClientSelectiveRepeat.Inv cfg.file w.client
  windowSize_eq : w.client.windowSize = cfg.clientWindowSize
  accepted : ∀ p ∈ packets 1 cfg.file, w.server.heap.isAcked p = true
    → Accepted w.client p.packet.seqno
  ack : ∀ a, .ack a ∈ w.toServer → ∃ n, a = AckPacket.new n ∧ Accepted w.client n
  data : ∀ q, .data q ∈ w.toClient → ∃ p ∈ packets 1 cfg.file, p.packet = q
  finished : w.stage = .finished → w.server.popped = packets 1 cfg.file
  terminal : ∀ q, .terminal q ∈ w.toClient → w.stage = .finished ∧ ∃ n, q = DataPacket.new [] n
  done : w.client.done = true → w.stage = .finished

variable {cfg : Config} {w : World}

theorem newClientStrategy_eq (hmode : cfg.mode ≠ .goBackN)
    : newClientStrategy cfg = ClientSelectiveRepeat.new cfg.clientWindowSize := by
  unfold newClientStrategy
  cases hm : cfg.mode with
  | stopAndWait => rfl
  | selectiveRepeat => rfl
  | goBackN => contradiction

theorem linked_init (hmode : cfg.mode ≠ .goBackN) (hcfg : cfg.Valid) : Linked cfg (init cfg) := by
  refine ⟨serverInv_newStrategy hcfg, fun _ => rfl, ?_, ?_, ?_, ?_, ?_, ?_, ?_, ?_⟩
  all_goals simp only [init, newClientStrategy_eq hmode]
  . exact ClientSelectiveRepeat.inv_new cfg.file cfg.clientWindowSize
  . rfl
  . simp [heap_newStrategy, Heap.isAcked]
  . simp
  . simp
  . simp
  . simp
  . simp [ClientSelectiveRepeat.new, ClientRdtStrategy.new]

theorem linked_withServer (hmode : cfg.mode ≠ .goBackN) (h : Linked cfg w) {t : RdtStrategy}
    {acked : UInt32 → Prop} (hstep : ServerStep cfg acked w.server t)
    (hacked : ∀ n, acked n → Accepted w.client n) {stage : Stage}
    (hstage : stage = .running ∨ stage = .finished)
    (hfinished : stage = .finished ↔ w.stage = .finished)
    : Linked cfg { w.withServer t with stage } := by
  have hinv := inv_of_serverInv hmode hstep.inv
  refine ⟨hstep.inv, ?_, h.client, h.windowSize_eq, ?_, h.ack, ?_, ?_, ?_, ?_⟩
  . intro hnew
    cases hstage <;> simp_all
  . intro p hp hpacked
    cases hstep.isAcked p hp hpacked with
    | inl hold => exact h.accepted p hp hold
    | inr hnew => exact hacked _ hnew
  . intro q hq
    simp only [World.withServer, List.mem_append, List.mem_map, ServerDatagram.data.injEq] at hq
    cases hq with
    | inl hq => exact h.data q hq
    | inr hq =>
      obtain ⟨p, hp, heq⟩ := hq
      exact ⟨p, hinv.sent_mem p (List.mem_of_mem_drop hp), heq⟩
  . intro hf
    have hprefix := hstep.popped_prefix
    rw [h.finished (hfinished.mp hf)] at hprefix
    apply (List.IsPrefix.eq_of_length_le hprefix ?_).symm
    rw [← hinv.content]
    simp
  . intro q hq
    simp only [World.withServer, List.mem_append, List.mem_map, reduceCtorEq, and_false,
      exists_false, or_false] at hq
    obtain ⟨hf, hempty⟩ := h.terminal q hq
    exact ⟨hfinished.mpr hf, hempty⟩
  . intro hdone
    exact hfinished.mpr (h.done hdone)

structure ClientStep (cfg : Config) (w : World) (c : ClientRdtStrategy) : Prop where
  inv : ClientSelectiveRepeat.Inv cfg.file c
  windowSize_eq : c.windowSize = w.client.windowSize
  accepted : ∀ n, Accepted w.client n → Accepted c n
  acks : ∀ a ∈ c.acks.drop w.client.acks.length, ∃ n, a = AckPacket.new n ∧ Accepted c n
  done : c.done = true → w.client.done = true ∨ w.stage = .finished

theorem linked_withClient (h : Linked cfg w) {c : ClientRdtStrategy} (hstep : ClientStep cfg w c)
    : Linked cfg (w.withClient c) := by
  refine ⟨h.server, h.untouched, hstep.inv, hstep.windowSize_eq.trans h.windowSize_eq, ?_, ?_, h.data,
    h.finished, h.terminal, ?_⟩
  . intro p hp hacked
    exact hstep.accepted _ (h.accepted p hp hacked)
  . intro a ha
    simp only [World.withClient, List.mem_append, List.mem_map, ClientDatagram.ack.injEq,
      exists_eq_right] at ha
    cases ha with
    | inl ha =>
      obtain ⟨n, heq, hacc⟩ := h.ack a ha
      exact ⟨n, heq, hstep.accepted n hacc⟩
    | inr ha => exact hstep.acks a ha
  . intro hc
    cases hstep.done hc with
    | inl hold => exact h.done hold
    | inr hf => exact hf

theorem clientStep_sendAck (h : Linked cfg w) {n : UInt32} (hlt : n < w.client.expectedSeqno)
    : ClientStep cfg w (w.client.sendAck (AckPacket.new n)) := by
  refine ⟨h.client.sendAck _, rfl, fun _ => id, ?_, .inl⟩
  intro a ha
  simp only [ClientRdtStrategy.sendAck, List.drop_left, List.mem_singleton] at ha
  exact ⟨n, ha, .inl hlt⟩

theorem clientStep_of_received {c : ClientRdtStrategy} {p : PacketPtr}
    (h : ClientSelectiveRepeat.Received cfg.file p w.client c)
    : ClientStep cfg w c := by
  refine ⟨h.inv, h.windowSize_eq, h.accepted, ?_, ?_⟩
  . intro a ha
    cases h.acks_eq with
    | inl heq => simp [heq] at ha
    | inr heq =>
      rw [heq.1, List.drop_left, List.mem_singleton] at ha
      exact ⟨_, ha, heq.2⟩
  . rw [h.done_eq]
    exact .inl

theorem lt_expectedSeqno_of_finished (hmode : cfg.mode ≠ .goBackN) (hcfg : cfg.Valid)
    (h : Linked cfg w) (hfinished : w.stage = .finished)
    : (cfg.file.chunks MAX_DATA_SIZE).length < w.client.expectedSeqno.toNat := by
  apply ClientSelectiveRepeat.lt_expectedSeqno_of_accepted hcfg.length_chunks_lt h.client (Nat.le_refl _)
  intro p hp _
  apply h.accepted p hp
  apply (inv_of_serverInv hmode h.server).popped_acked
  rw [h.finished hfinished]
  exact hp

theorem runClient_eq (hmode : cfg.mode ≠ .goBackN) (c : ClientRdtStrategy) (datagram : Bytes)
    : runClient cfg c datagram = ClientSelectiveRepeat.run c datagram := by
  unfold runClient
  cases hm : cfg.mode with
  | stopAndWait => rfl
  | selectiveRepeat => rfl
  | goBackN => contradiction

theorem clientStep_run (hmode : cfg.mode ≠ .goBackN) (hcfg : cfg.Valid) (h : Linked cfg w)
    {datagram : ServerDatagram} (hmem : datagram ∈ w.toClient)
    : ∃ c, runClient cfg w.client datagram.bytes = some c ∧ ClientStep cfg w c := by
  rw [runClient_eq hmode]
  unfold ClientSelectiveRepeat.run
  cases datagram with
  | requestAck =>
    rw [ServerDatagram.bytes, ClientRdtStrategy.recvPacket_ack]
    refine ⟨_, rfl, ?_⟩
    rw [ClientSelectiveRepeat.receive_requestAck h.client]
    apply clientStep_sendAck h
    rw [UInt32.lt_iff_toNat_lt]
    exact h.client.one_le
  | data q =>
    obtain ⟨p, hp, rfl⟩ := h.data q hmem
    rw [ServerDatagram.bytes, ClientRdtStrategy.recvPacket_of_mem_packets hp]
    refine ⟨_, rfl, ?_⟩
    exact clientStep_of_received
      (ClientSelectiveRepeat.received_receive hcfg.length_chunks_lt h.client hp)
  | terminal q =>
    obtain ⟨hf, n, rfl⟩ := h.terminal q hmem
    rw [ServerDatagram.bytes, ClientRdtStrategy.recvPacket_empty]
    refine ⟨_, rfl, ?_⟩
    rw [ClientSelectiveRepeat.receive_empty]
    have hinv := h.client
    split
    . exact ⟨⟨hinv.one_le, hinv.le_length, hinv.output_eq, hinv.sorted, hinv.mem_packets,
        hinv.lower_le⟩, rfl, fun _ => id, by simp, fun _ => .inr hf⟩
    . split
      . next hn => exact clientStep_sendAck h hn
      . exact ⟨hinv, rfl, fun _ => id, by simp, .inl⟩

-- A retransmitted request is read as an ACK for the number 0, which comes before all others.
theorem accepted_ackno (h : Linked cfg w) {datagram : ClientDatagram}
    (hmem : datagram ∈ w.toServer) {a : AckPacket}
    (ha : AckPacket.unpack (datagram.bytes cfg) = some a)
    : Accepted w.client a.ackno := by
  cases datagram with
  | request =>
    rw [DataPacket.ackno_of_unpack_pack_new ha]
    apply Or.inl
    rw [UInt32.lt_iff_toNat_lt]
    exact h.client.one_le
  | ack packet =>
    obtain ⟨n, rfl, hacc⟩ := h.ack packet hmem
    rw [ClientDatagram.bytes, AckPacket.unpack_pack_new, Option.some.injEq] at ha
    rw [← ha, AckPacket.ackno_new]
    exact hacc

theorem linked_step (hmode : cfg.mode ≠ .goBackN) (hcfg : cfg.Valid) (h : Linked cfg w)
    {e : Event} {w' : World} (hstep : step cfg w e = some w')
    : Linked cfg w' := by
  cases Step.of_step hstep with
  | sendRequest _ =>
    refine ⟨h.server, h.untouched, h.client, h.windowSize_eq, h.accepted, ?_, h.data, h.finished,
      h.terminal, h.done⟩
    simpa using h.ack
  | request hstage _ =>
    refine ⟨h.server, fun _ => h.untouched (.inl hstage), h.client, h.windowSize_eq, h.accepted, h.ack,
      ?_, ?_, ?_, ?_⟩
    . simpa using h.data
    . simp
    . simpa [hstage] using h.terminal
    . simpa [hstage] using h.done
  | start hstage =>
    have hs := serverStep_start hmode hcfg
    rw [← h.untouched (.inr hstage)] at hs
    exact linked_withServer hmode h hs (by simp) (.inl rfl) (by simp [hstage])
  | ack hstage _ hmem ha =>
    have hacc := accepted_ackno h hmem ha
    apply linked_withServer hmode h (serverStep_acknowledgePacket hmode hcfg h.server _)
    . exact fun n hn => hn ▸ hacc
    . exact .inl hstage
    . exact Iff.rfl
  | timeOut hstage _ =>
    have hs := serverStep_handleTimeOut hmode hcfg h.server
    exact linked_withServer hmode h hs (by simp) hstage Iff.rfl
  | resend hgbn _ _ => contradiction
  | finish hstage hdone =>
    obtain ⟨hpopped, _⟩ := popped_eq_of_isDone hmode h.server hdone
    refine ⟨h.server, by simp, h.client, h.windowSize_eq, h.accepted, h.ack, ?_, fun _ => hpopped, ?_,
      fun _ => rfl⟩
    . simpa using h.data
    . intro q hq
      rw [List.mem_append] at hq
      cases hq with
      | inl hq => exact ⟨rfl, (h.terminal q hq).2⟩
      | inr hq =>
        simp only [List.mem_singleton, ServerDatagram.terminal.injEq] at hq
        exact ⟨rfl, _, hq⟩
  | handshake _ _ =>
    exact ⟨h.server, h.untouched, h.client, h.windowSize_eq, h.accepted, h.ack, h.data, h.finished,
      h.terminal, h.done⟩
  | run _ _ hmem hrun =>
    obtain ⟨c, hrun', hclient⟩ := clientStep_run hmode hcfg h hmem
    rw [hrun, Option.some.injEq] at hrun'
    exact linked_withClient h (hrun' ▸ hclient)

theorem linked_of_reachable (hmode : cfg.mode ≠ .goBackN) (hcfg : cfg.Valid)
    (h : StepFn.Reachable (step cfg) (init cfg) w)
    : Linked cfg w := by
  apply h.invariant (linked_init hmode hcfg)
  intro w e w' hw hstep
  exact linked_step hmode hcfg hw hstep

theorem output_of_reachable (hmode : cfg.mode ≠ .goBackN) (hcfg : cfg.Valid)
    (h : StepFn.Reachable (step cfg) (init cfg) w)
    : 1 ≤ w.client.expectedSeqno.toNat
        ∧ w.client.expectedSeqno.toNat ≤ (cfg.file.chunks MAX_DATA_SIZE).length + 1
        ∧ w.client.output
            = ((cfg.file.chunks MAX_DATA_SIZE).take (w.client.expectedSeqno.toNat - 1)).flatten
        ∧ (w.client.done = true
            → w.client.expectedSeqno.toNat = (cfg.file.chunks MAX_DATA_SIZE).length + 1
              ∧ w.client.output = cfg.file) := by
  have hlinked := linked_of_reachable hmode hcfg h
  have hclient := hlinked.client
  refine ⟨hclient.one_le, hclient.le_length, hclient.output_eq, ?_⟩
  intro hdone
  have hlt := lt_expectedSeqno_of_finished hmode hcfg hlinked (hlinked.done hdone)
  refine ⟨Nat.le_antisymm hclient.le_length hlt, ?_⟩
  exact ClientSelectiveRepeat.output_eq_file hclient hlt

def sampleConfig : Config :=
  {
    mode := .selectiveRepeat
    env := { now := id, tripleDupAck := fun _ => false }
    file := [10, 20]
    reqFileName := [97]
    nextSeqNumber := 0
    maxWindowSize := 4
    threshold := 0
    clientWindowSize := 2
  }

def sampleRun : List Event :=
  [
    .sendRequest, .sendRequest, .request .request, .start, .handshake .requestAck, .run .requestAck,
    .ack .request, .timeOut, .run (.data (DataPacket.new [10, 20] 1)), .ack (.ack (AckPacket.new 0)),
    .ack (.ack (AckPacket.new 1)), .finish, .run (.data (DataPacket.new [10, 20] 1)),
    .run (.terminal (DataPacket.new [] 2))
  ]

def sampleWorld : World :=
  (StepFn.run (step sampleConfig) (init sampleConfig) sampleRun).get (by decide +kernel)

theorem sampleConfig_valid : sampleConfig.Valid := by
  constructor <;> decide

theorem output_sampleWorld : sampleWorld.client.output = [10, 20] := by
  have hreach : StepFn.Reachable (step sampleConfig) (init sampleConfig) sampleWorld := by
    apply StepFn.reachable_get_run
  have hsafe := output_of_reachable (by decide) sampleConfig_valid hreach
  have hdone : sampleWorld.client.done = true := by decide +kernel
  exact (hsafe.2.2.2 hdone).2

end Transfer
