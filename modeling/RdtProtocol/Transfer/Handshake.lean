import RdtProtocol.Transfer.GoBackNSafety
import RdtProtocol.Transfer.Safety

/-!
This module determines when the datagrams of the handshake are mistaken for those of the transfer.
-/

namespace Transfer

variable {cfg : Config} {w w' : World}

structure Sides (cfg : Config) (w : World) : Prop where
  server : ServerInv cfg w.server
  untouched : w.stage = .unregistered ∨ w.stage = .created → w.server = newStrategy cfg
  windowSize_eq : w.client.windowSize = cfg.clientWindowSize

theorem windowSize_runClient {c c' : ClientRdtStrategy} {datagram : Bytes}
    (h : runClient cfg c datagram = some c')
    : c'.windowSize = c.windowSize := by
  unfold runClient at h
  cases hm : cfg.mode with
  | stopAndWait =>
    simp only [hm, ClientSelectiveRepeat.run, Option.map_eq_some_iff] at h
    obtain ⟨p, _, rfl⟩ := h
    apply ClientSelectiveRepeat.windowSize_receive
  | selectiveRepeat =>
    simp only [hm, ClientSelectiveRepeat.run, Option.map_eq_some_iff] at h
    obtain ⟨p, _, rfl⟩ := h
    apply ClientSelectiveRepeat.windowSize_receive
  | goBackN =>
    simp only [hm, ClientGoBackN.run, Option.map_eq_some_iff] at h
    obtain ⟨p, _, rfl⟩ := h
    apply ClientGoBackN.windowSize_receive

theorem sides_init (hcfg : cfg.Valid) : Sides cfg (init cfg) := by
  refine ⟨serverInv_newStrategy hcfg, fun _ => rfl, ?_⟩
  simp only [init, newClientStrategy]
  cases cfg.mode <;> rfl

theorem sides_step (hcfg : cfg.Valid) (h : Sides cfg w) {e : Event} (hstep : step cfg w e = some w')
    : Sides cfg w' := by
  cases Step.of_step hstep with
  | sendRequest _ => exact ⟨h.server, h.untouched, h.windowSize_eq⟩
  | request hstage _ => exact ⟨h.server, fun _ => h.untouched (.inl hstage), h.windowSize_eq⟩
  | start hstage =>
    refine ⟨?_, by simp, h.windowSize_eq⟩
    simp only [World.withServer]
    rw [h.untouched (.inr hstage)]
    exact serverInv_start hcfg
  | ack hstage _ _ _ =>
    refine ⟨serverInv_acknowledgePacket hcfg h.server _, ?_, h.windowSize_eq⟩
    simp [World.withServer, hstage]
  | timeOut hstage _ =>
    refine ⟨serverInv_handleTimeOut hcfg h.server, ?_, h.windowSize_eq⟩
    cases hstage <;> simp_all [World.withServer]
  | resend hmode hstage hp =>
    refine ⟨serverInv_resend hmode h.server (List.mem_of_getElem? hp), ?_, h.windowSize_eq⟩
    cases hstage <;> simp_all [World.withServer]
  | finish _ _ => exact ⟨h.server, by simp, h.windowSize_eq⟩
  | handshake _ _ => exact ⟨h.server, h.untouched, h.windowSize_eq⟩
  | run _ _ _ hrun =>
    exact ⟨h.server, h.untouched, (windowSize_runClient hrun).trans h.windowSize_eq⟩

theorem sides_of_reachable (hcfg : cfg.Valid) (h : StepFn.Reachable (step cfg) (init cfg) w)
    : Sides cfg w := by
  apply h.invariant (sides_init hcfg)
  intro w e w' hw hstep
  exact sides_step hcfg hw hstep

/--
What a datagram of the handshake must not do where one of the transfer is expected.
-/
def Unconfused (w : World) (e : Event) (w' : World) : Prop :=
  match e with
  | .ack .request =>
    ∀ p ∈ w.server.window, w'.server.heap.isAcked p = true → w.server.heap.isAcked p = true
  | .run .requestAck =>
    w'.client.expectedSeqno = w.client.expectedSeqno
      ∧ w'.client.output = w.client.output
      ∧ w'.client.done = w.client.done
  | _ => True

/--
Whether the number 0 is in use on neither side, or the mode does not use it.
-/
def Separated (cfg : Config) (w : World) (e : Event) : Prop :=
  match e with
  | .ack .request => cfg.mode = .goBackN → ∀ p ∈ w.server.window, p.packet.seqno ≠ 0
  | .run .requestAck => cfg.mode = .goBackN → w.client.expectedSeqno ≠ 0
  | _ => True

theorem ackno_request {a : AckPacket}
    (ha : AckPacket.unpack (ClientDatagram.bytes cfg .request) = some a)
    : a.ackno = 0 :=
  DataPacket.ackno_of_unpack_pack_new ha

theorem unconfused_ack_request (hmode : cfg.mode ≠ .goBackN) (hcfg : cfg.Valid) (h : Linked cfg w)
    (hstep : step cfg w (.ack .request) = some w')
    : Unconfused w (.ack .request) w' := by
  cases Step.of_step hstep with
  | ack _ _ _ ha =>
    intro p hp hacked
    have hmem := (inv_of_serverInv hmode h.server).mem_of_mem_window hp
    have hs := serverStep_acknowledgePacket hmode hcfg h.server
    cases (hs _).isAcked p hmem hacked with
    | inl hold => exact hold
    | inr hseqno =>
      have hnat := ClientSelectiveRepeat.toNat_seqno hcfg.length_chunks_lt hmem
      rw [hseqno, ackno_request ha] at hnat
      contradiction

theorem unconfused_run_requestAck (hmode : cfg.mode ≠ .goBackN) (h : Linked cfg w)
    (hstep : step cfg w (.run .requestAck) = some w')
    : Unconfused w (.run .requestAck) w' := by
  cases Step.of_step hstep with
  | run _ _ _ hrun =>
    rw [runClient_eq hmode, ClientSelectiveRepeat.run, ServerDatagram.bytes,
      ClientRdtStrategy.recvPacket_ack, Option.map_some, Option.some.injEq,
      ClientSelectiveRepeat.receive_requestAck h.client] at hrun
    rw [← hrun]
    exact ⟨rfl, rfl, rfl⟩

-- The cumulative ACK that the request is taken for marks the packet with the number 0.
theorem unconfused_ack_request_goBackN (hmode : cfg.mode = .goBackN) (h : Sides cfg w)
    (hstep : step cfg w (.ack .request) = some w')
    : Unconfused w (.ack .request) w' ↔ Separated cfg w (.ack .request) := by
  have hserver := h.server
  simp only [ServerInv, hmode] at hserver
  cases Step.of_step hstep with
  | @ack _ a _ _ _ ha =>
    simp only [Unconfused, Separated, hmode, forall_const, World.withServer, acknowledgePacket,
      Mode.acknowledgePacket]
    cases GoBackN.acknowledgePacket_cases cfg.env w.server a with
    | inl heq =>
      rw [heq.1]
      refine ⟨fun _ p hp => ?_, fun _ p _ => id⟩
      rw [← ackno_request ha]
      exact heq.2 p hp
    | inr hex =>
      obtain ⟨xs, p, rest, hwindow, hseqno, heq⟩ := hex
      have hp : p ∈ w.server.window := by simp [hwindow]
      have hys : ∀ y ∈ (xs ++ [p]).reverse, y ∈ w.server.window := by
        intro y hy
        rw [List.mem_reverse] at hy
        rw [hwindow, List.append_cons]
        exact List.mem_append_left _ hy
      obtain ⟨_, _, _, _, _, hacked⟩ := hserver.1.setAcks _ hys
      have hold := hserver.2.not_acked p (by simp [hp])
      constructor
      . intro hun
        have hnew := hun p hp (by
          rw [heq, RdtStrategy.isAcked_advanceWindow, hacked]
          simp)
        simp [hold] at hnew
      . intro hsep
        exact absurd (hseqno.trans (ackno_request ha)) (hsep p hp)

-- The request ACK is taken for the packet that ends the transfer.
theorem unconfused_run_requestAck_goBackN (hmode : cfg.mode = .goBackN) (hcfg : cfg.Valid)
    (h : Sides cfg w) (hstep : step cfg w (.run .requestAck) = some w')
    : Unconfused w (.run .requestAck) w' ↔ Separated cfg w (.run .requestAck) := by
  have hone := hcfg.one_le_clientWindowSize
  have hlt := hcfg.clientWindowSize_lt
  rw [← h.windowSize_eq] at hone hlt
  cases Step.of_step hstep with
  | run _ hdone _ hrun =>
    simp only [runClient, hmode, ClientGoBackN.run, ServerDatagram.bytes,
      ClientRdtStrategy.recvPacket_ack, Option.map_some, Option.some.injEq,
      ClientGoBackN.receive_empty] at hrun
    simp only [Unconfused, Separated, hmode, forall_const, World.withClient]
    split at hrun
    . next hin =>
      have hzero : w.client.expectedSeqno = 0 := by
        have := hin.1
        rw [UInt32.le_iff_toNat_le] at this
        apply UInt32.toNat_inj.mp
        simpa using this
      simp [← hrun, hdone, hzero]
    . next hout =>
      rw [← hrun]
      refine ⟨fun _ hzero => hout ?_, fun _ => ⟨rfl, rfl, rfl⟩⟩
      rw [ClientGoBackN.inWindow_iff hone hlt (by rw [hzero]; exact UInt32.le_refl _), hzero]
      simp
      omega

theorem unconfused_iff (hcfg : cfg.Valid) (hreach : StepFn.Reachable (step cfg) (init cfg) w)
    {e : Event} (hstep : step cfg w e = some w')
    : Unconfused w e w' ↔ Separated cfg w e := by
  by_cases hmode : cfg.mode = .goBackN
  . have hsides := sides_of_reachable hcfg hreach
    match e with
    | .ack .request => exact unconfused_ack_request_goBackN hmode hsides hstep
    | .run .requestAck => exact unconfused_run_requestAck_goBackN hmode hcfg hsides hstep
    | .ack (.ack _) | .run (.data _) | .run (.terminal _) => exact Iff.rfl
    | .sendRequest | .request _ | .start | .timeOut | .resend _ | .finish | .handshake _ =>
      exact Iff.rfl
  . have hlinked := linked_of_reachable hmode hcfg hreach
    match e with
    | .ack .request =>
      have hun := unconfused_ack_request hmode hcfg hlinked hstep
      exact ⟨fun _ hgbn => absurd hgbn hmode, fun _ => hun⟩
    | .run .requestAck =>
      have hun := unconfused_run_requestAck hmode hlinked hstep
      exact ⟨fun _ hgbn => absurd hgbn hmode, fun _ => hun⟩
    | .ack (.ack _) | .run (.data _) | .run (.terminal _) => exact Iff.rfl
    | .sendRequest | .request _ | .start | .timeOut | .resend _ | .finish | .handshake _ =>
      exact Iff.rfl

theorem unconfused_along_iff (hcfg : cfg.Valid) (es : List Event)
    : StepFn.Along (step cfg) Unconfused (init cfg) es
        ↔ StepFn.Along (step cfg) (fun w e _ => Separated cfg w e) (init cfg) es := by
  apply StepFn.along_congr
  intro w e w' hreach hstep
  exact unconfused_iff hcfg hreach hstep

theorem unconfused_sampleRun
    : StepFn.Along (step sampleConfig) Unconfused (init sampleConfig) sampleRun := by
  rw [unconfused_along_iff sampleConfig_valid]
  intro es1 e es2 w w' _ _ _
  have hmode : sampleConfig.mode ≠ .goBackN := by decide
  unfold Separated
  split
  . exact fun hgbn => absurd hgbn hmode
  . exact fun hgbn => absurd hgbn hmode
  . trivial

def gbnSent : World :=
  (StepFn.run (step sampleGbnConfig) (init sampleGbnConfig)
    [.sendRequest, .request .request, .start]).get (by decide +kernel)

def gbnOvertaken : World :=
  (StepFn.run (step sampleGbnConfig) (init sampleGbnConfig)
    [
      .sendRequest, .request .request, .start, .handshake (.data (DataPacket.new [10, 20] 0))
    ]).get (by decide +kernel)

theorem confused_goBackN
    : ¬ StepFn.Along (step sampleGbnConfig) Unconfused (init sampleGbnConfig)
          [.sendRequest, .request .request, .start, .ack .request]
        ∧ ¬ StepFn.Along (step sampleGbnConfig) Unconfused (init sampleGbnConfig)
          [
            .sendRequest, .request .request, .start,
            .handshake (.data (DataPacket.new [10, 20] 0)), .run .requestAck
          ] := by
  constructor
  . intro h
    have hun := h [.sendRequest, .request .request, .start] (.ack .request) [] gbnSent
      ((step sampleGbnConfig gbnSent (.ack .request)).get (by decide +kernel)) rfl
      (Option.some_get _).symm (Option.some_get _).symm
    have hacked := hun ⟨0, DataPacket.new [10, 20] 0⟩ (by decide +kernel) (by decide +kernel)
    revert hacked
    decide +kernel
  . intro h
    have hun := h
      [.sendRequest, .request .request, .start, .handshake (.data (DataPacket.new [10, 20] 0))]
      (.run .requestAck) [] gbnOvertaken
      ((step sampleGbnConfig gbnOvertaken (.run .requestAck)).get (by decide +kernel)) rfl
      (Option.some_get _).symm (Option.some_get _).symm
    have hdone := hun.2.2
    revert hdone
    decide +kernel

end Transfer
