import RdtProtocol.Transfer.Handshake

/-!
This module contains what holds of the output of the client in every mode, even where a datagram of the
handshake has been mistaken for one of the transfer.
-/

namespace Transfer

variable {cfg : Config} {w w' : World} {e : Event}

structure GbnWritten (cfg : Config) (w : World) : Prop where
  client : ClientGoBackN.Inv cfg.file w.client
  data : ∀ q, .data q ∈ w.toClient → ∃ p ∈ packets 0 cfg.file, p.packet = q
  terminal : ∀ q, .terminal q ∈ w.toClient → ∃ n, q = DataPacket.new [] n

theorem gbnWritten_init (hmode : cfg.mode = .goBackN) : GbnWritten cfg (init cfg) := by
  refine ⟨?_, by simp [init], by simp [init]⟩
  simp only [init, newClientStrategy, hmode]
  exact ClientGoBackN.inv_new cfg.file cfg.clientWindowSize

theorem GbnWritten.withServer (h : GbnWritten cfg w) {t : RdtStrategy}
    (ht : t.InOrder 0 cfg.file GoBackN.DEFAULT_WINDOW_SIZE) (stage : Stage)
    : GbnWritten cfg { w.withServer t with stage } := by
  refine ⟨h.client, ?_, ?_⟩
  . intro q hq
    simp only [World.withServer, List.mem_append, List.mem_map, ServerDatagram.data.injEq] at hq
    cases hq with
    | inl hq => exact h.data q hq
    | inr hq =>
      obtain ⟨p, hp, heq⟩ := hq
      exact ⟨p, ht.sent_mem p (List.mem_of_mem_drop hp), heq⟩
  . intro q hq
    simp only [World.withServer, List.mem_append, List.mem_map, reduceCtorEq, and_false,
      exists_false, or_false] at hq
    exact h.terminal q hq

theorem gbnInv_run (hmode : cfg.mode = .goBackN) (hcfg : cfg.Valid) (h : GbnWritten cfg w)
    {d : ServerDatagram} (hd : d ∈ w.toClient) {c : ClientRdtStrategy}
    (hrun : runClient cfg w.client d.bytes = some c)
    : ClientGoBackN.Inv cfg.file c := by
  have hempty (n : UInt32)
      : ClientGoBackN.Inv cfg.file (ClientGoBackN.receive w.client (DataPacket.new [] n)) := by
    rw [ClientGoBackN.receive_empty]
    split
    . exact ⟨h.client.le_length, h.client.output_eq⟩
    . exact h.client
  simp only [runClient, hmode, ClientGoBackN.run, Option.map_eq_some_iff] at hrun
  obtain ⟨q, hq, rfl⟩ := hrun
  cases d with
  | requestAck =>
    rw [ServerDatagram.bytes, ClientRdtStrategy.recvPacket_ack, Option.some.injEq] at hq
    rw [← hq]
    exact hempty 0
  | data packet =>
    obtain ⟨p, hp, rfl⟩ := h.data packet hd
    rw [ServerDatagram.bytes, ClientRdtStrategy.recvPacket_of_mem_packets hp, Option.some.injEq] at hq
    rw [← hq]
    exact (ClientGoBackN.received_receive hcfg.length_chunks_lt h.client hp).inv
  | terminal packet =>
    obtain ⟨n, rfl⟩ := h.terminal packet hd
    rw [ServerDatagram.bytes, ClientRdtStrategy.recvPacket_empty, Option.some.injEq] at hq
    rw [← hq]
    exact hempty n

theorem gbnWritten_step (hmode : cfg.mode = .goBackN) (hcfg : cfg.Valid)
    (hserver : ServerInv cfg w'.server) (h : GbnWritten cfg w) (hstep : step cfg w e = some w')
    : GbnWritten cfg w' := by
  simp only [ServerInv, hmode] at hserver
  cases Step.of_step hstep with
  | sendRequest _ => exact ⟨h.client, h.data, h.terminal⟩
  | request _ _ =>
    refine ⟨h.client, ?_, ?_⟩
    . simpa using h.data
    . simpa using h.terminal
  | start _ => exact h.withServer hserver.1 _
  | ack _ _ _ _ => exact h.withServer hserver.1 w.stage
  | timeOut _ _ => exact h.withServer hserver.1 w.stage
  | resend _ _ _ => exact h.withServer hserver.1 w.stage
  | finish _ _ =>
    refine ⟨h.client, ?_, ?_⟩
    . simpa using h.data
    . intro q hq
      rw [List.mem_append, List.mem_singleton] at hq
      cases hq with
      | inl hq => exact h.terminal q hq
      | inr hq =>
        rw [ServerDatagram.terminal.injEq] at hq
        exact ⟨_, hq⟩
  | handshake _ _ => exact ⟨h.client, h.data, h.terminal⟩
  | run _ _ hmem hrun => exact ⟨gbnInv_run hmode hcfg h hmem hrun, h.data, h.terminal⟩

theorem gbnWritten_of_reachable (hmode : cfg.mode = .goBackN) (hcfg : cfg.Valid)
    (h : StepFn.Reachable (step cfg) (init cfg) w)
    : GbnWritten cfg w := by
  have hinv : Sides cfg w ∧ GbnWritten cfg w := by
    apply h.invariant
    . exact ⟨sides_init hcfg, gbnWritten_init hmode⟩
    . intro w e w' hw hstep
      have hsides := sides_step hcfg hw.1 hstep
      exact ⟨hsides, gbnWritten_step hmode hcfg hsides.server hw.2 hstep⟩
  exact hinv.2

theorem written_of_reachable (hcfg : cfg.Valid) (h : StepFn.Reachable (step cfg) (init cfg) w)
    : ∃ n, w.client.output = ((cfg.file.chunks MAX_DATA_SIZE).take n).flatten := by
  by_cases hmode : cfg.mode = .goBackN
  . exact ⟨_, (gbnWritten_of_reachable hmode hcfg h).client.output_eq⟩
  . exact ⟨_, (linked_of_reachable hmode hcfg h).client.output_eq⟩

end Transfer
