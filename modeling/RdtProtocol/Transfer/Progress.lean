import RdtProtocol.Server.Strategy.ModeSent
import RdtProtocol.Server.Strategy.Unanswered
import RdtProtocol.Transfer.Safety

/-!
This module contains the proof that a selective repeat or stop and wait transfer that is not done can
always go on.
-/

namespace Transfer

variable {cfg : Config} {w : World}

theorem timerInv_step (hmode : cfg.mode ≠ .goBackN) (hcfg : cfg.Valid)
    (hclock : StrictMono cfg.env.now) (h : Linked cfg w)
    (ht : w.started = true → w.server.TimerInv cfg.env) {e : Event} {w' : World}
    (hstep : step cfg w e = some w')
    : w'.started = true → w'.server.TimerInv cfg.env := by
  cases Step.of_step hstep with
  | sendRequest _ => exact ht
  | request _ _ => simp [World.started]
  | start hstage =>
    intro _
    simp only [World.withServer]
    rw [h.untouched (.inr hstage)]
    exact timerInv_start hmode hcfg hclock
  | ack _ _ _ _ =>
    intro hs
    exact timerInv_acknowledgePacket hmode hcfg hclock h.server (ht hs) _
  | timeOut _ _ =>
    intro hs
    exact timerInv_handleTimeOut hmode hclock h.server (ht hs)
  | resend hgbn _ _ => contradiction
  | finish hstage _ =>
    intro _
    apply ht
    simp [World.started, hstage]
  | handshake _ _ => exact ht
  | run _ _ _ _ => exact ht

theorem timerInv_of_reachable (hmode : cfg.mode ≠ .goBackN) (hcfg : cfg.Valid)
    (hclock : StrictMono cfg.env.now) (h : StepFn.Reachable (step cfg) (init cfg) w)
    (hstarted : w.started = true)
    : w.server.TimerInv cfg.env := by
  have hinv : Linked cfg w ∧ (w.started = true → w.server.TimerInv cfg.env) := by
    apply h.invariant
    . refine ⟨linked_init hmode hcfg, ?_⟩
      simp [World.started, init]
    . intro w e w' hw hstep
      exact ⟨linked_step hmode hcfg hw.1 hstep, timerInv_step hmode hcfg hclock hw.1 hw.2 hstep⟩
  exact hinv.2 hstarted

theorem mem_window_of_unacked (hmode : cfg.mode ≠ .goBackN) (hcfg : cfg.Valid)
    (hclock : StrictMono cfg.env.now) (h : StepFn.Reachable (step cfg) (init cfg) w)
    (hstarted : w.started = true) {p : PacketPtr} (hp : p ∈ w.server.unackedPackets)
    : p ∈ w.server.window ∧ p ∉ w.server.popped := by
  have hinv := inv_of_serverInv hmode (linked_of_reachable hmode hcfg h).server
  rw [(timerInv_of_reachable hmode hcfg hclock h hstarted).unackedPackets_eq, List.mem_filter] at hp
  refine ⟨hp.1, ?_⟩
  intro hpopped
  simp [hinv.popped_acked p hpopped] at hp

theorem sent_ne_nil_of_reachable (hmode : cfg.mode ≠ .goBackN) (hcfg : cfg.Valid)
    (h : StepFn.Reachable (step cfg) (init cfg) w) (hstarted : w.started = true)
    (hwindow : w.server.window ≠ [])
    : w.server.sent ≠ [] := by
  have hinv : Linked cfg w ∧ (w.started = true → w.server.window ≠ [] → w.server.sent ≠ []) := by
    apply h.invariant
    . refine ⟨linked_init hmode hcfg, ?_⟩
      simp [World.started, init]
    . intro w e w' hw hstep
      refine ⟨linked_step hmode hcfg hw.1 hstep, ?_⟩
      cases Step.of_step hstep with
      | sendRequest _ => exact hw.2
      | request _ _ => simp [World.started]
      | start hstage =>
        intro _
        simp only [World.withServer]
        rw [hw.1.untouched (.inr hstage)]
        have hlen : cfg.mode = .selectiveRepeat → (newStrategy cfg).window.length ≤ 1 := by
          intro hsr
          simp only [newStrategy, Mode.newStrategy, hsr]
          exact (SelectiveRepeat.inv_new cfg.file (hcfg.maxWindowSize hsr).1).2.2.1
        have hsends := Mode.sends_start hlen cfg.env
        rw [start, hsends.window_eq, hsends.sent_eq]
        exact fun hne => List.append_ne_nil_of_right_ne_nil _ hne
      | ack hrunning hdone =>
        intro _ _
        have hne : w.server.window ≠ [] := by simpa [RdtStrategy.isDone] using hdone
        have hsent := hw.2 (by simp [World.started, hrunning]) hne
        exact (Mode.sent_prefix_acknowledgePacket _ _ _ _).ne_nil hsent
      | timeOut hstarted _ =>
        intro hs hne
        have hhead := Mode.head?_handleTimeOut cfg.mode cfg.env w.server
        have hne : w.server.window ≠ [] := by
          intro hnil
          rw [hnil, List.head?_nil, List.head?_eq_none_iff] at hhead
          exact hne hhead
        exact (Mode.sent_prefix_handleTimeOut _ _ _).ne_nil (hw.2 hs hne)
      | resend hgbn _ _ => contradiction
      | finish hstage _ =>
        intro _
        apply hw.2
        simp [World.started, hstage]
      | handshake _ _ => exact hw.2
      | run _ _ _ _ => exact hw.2
  exact hinv.2 hstarted hwindow

theorem seqno_front_le (hmode : cfg.mode ≠ .goBackN) (hcfg : cfg.Valid) (h : Linked cfg w)
    {p : PacketPtr} (hp : w.server.window.head? = some p)
    : p.packet.seqno ≤ w.client.expectedSeqno := by
  have hinv := inv_of_serverInv hmode h.server
  have hmem := hinv.mem_of_mem_window (List.mem_of_mem_head? hp)
  obtain ⟨rest, hwindow⟩ := List.head?_eq_some_iff.mp hp
  have haddr : p.addr = w.server.popped.length := by
    have hsplit : w.server.popped
        ++ (w.server.window ++ (w.server.auxWindow ++ w.server.pending))
          = w.server.popped ++ p :: (rest ++ (w.server.auxWindow ++ w.server.pending)) := by
      rw [hwindow, List.cons_append]
    exact hinv.addr_eq hsplit
  rw [UInt32.le_iff_toNat_le, ClientSelectiveRepeat.toNat_seqno hcfg.length_chunks_lt hmem, haddr]
  have hlen := addr_lt_of_mem_packets hmem
  apply ClientSelectiveRepeat.lt_expectedSeqno_of_accepted hcfg.length_chunks_lt h.client (by omega)
  intro q hq hlt
  apply h.accepted q hq
  apply hinv.popped_acked
  rw [← hinv.content, List.mem_append] at hq
  cases hq with
  | inl hq => exact hq
  | inr hq =>
    obtain ⟨xs, ys, hsplit⟩ := List.append_of_mem hq
    have hq' : q.addr = (w.server.popped ++ xs).length := by
      apply hinv.addr_eq
      rw [hsplit, List.append_assoc]
    rw [List.length_append] at hq'
    omega

theorem stage_eq_running (hmode : cfg.mode ≠ .goBackN) (h : Linked cfg w)
    (hstarted : w.started = true) (hdone : w.server.isDone = false)
    : w.stage = .running := by
  simp only [World.started, decide_eq_true_eq] at hstarted
  cases hstarted with
  | inl hrunning => exact hrunning
  | inr hfinished =>
    have hcontent := (inv_of_serverInv hmode h.server).content
    rw [h.finished hfinished] at hcontent
    have hrest := List.append_cancel_left (hcontent.trans (List.append_nil _).symm)
    rw [List.append_eq_nil_iff] at hrest
    simp [RdtStrategy.isDone, hrest.1] at hdone

section

variable {p : PacketPtr} (hmode : cfg.mode ≠ .goBackN) (h : Linked cfg w)
variable (hp : w.server.window.head? = some p)
include hmode h hp

theorem step_timeOut_front (hstarted : w.started = true) (ht : w.server.TimerInv cfg.env)
    : p ∈ w.server.unackedPackets
        ∧ ∃ w1, step cfg w .timeOut = some w1
          ∧ w1.toClient = w.toClient ++ [.data p.packet]
          ∧ w1.server.window.head? = some p
          ∧ w1.server.popped = w.server.popped
          ∧ w1.stage = w.stage ∧ w1.receiving = w.receiving ∧ w1.client = w.client := by
  have hunacked : p ∈ w.server.unackedPackets := by
    apply List.mem_of_mem_head?
    rw [head?_unackedPackets hmode h.server ht, hp]
    rfl
  have hne : w.server.unackedPackets ≠ [] := List.ne_nil_of_mem hunacked
  obtain ⟨hsent, hfront, hpopped⟩ := handleTimeOut_of_front hmode h.server ht hp
  refine ⟨hunacked, w.withServer (handleTimeOut cfg w.server), ?_, ?_, hfront, hpopped, rfl, rfl, rfl⟩
  . simp [step, hstarted, hne]
  . simp [World.withServer, hsent]

theorem step_run_front (hcfg : cfg.Valid) (hreceiving : w.receiving = true) (hdone : w.client.done = false)
    (hdata : .data p.packet ∈ w.toClient)
    : ∃ w1, step cfg w (.run (.data p.packet)) = some w1
        ∧ w1.toServer = w.toServer ++ [.ack (AckPacket.new p.packet.seqno)]
        ∧ w1.server = w.server ∧ w1.stage = w.stage := by
  have hmem := (inv_of_serverInv hmode h.server).mem_of_mem_window (List.mem_of_mem_head? hp)
  have hacks := ClientSelectiveRepeat.acks_receive_of_le h.client
    (h.windowSize_eq ▸ hcfg.one_le_clientWindowSize) (h.windowSize_eq ▸ hcfg.clientWindowSize_lt)
    hcfg.length_chunks_lt hmem (seqno_front_le hmode hcfg h hp)
  have hrun : runClient cfg w.client (ServerDatagram.data p.packet).bytes
      = some (ClientSelectiveRepeat.receive w.client p.packet) := by
    rw [runClient_eq hmode, ClientSelectiveRepeat.run, ServerDatagram.bytes,
      ClientRdtStrategy.recvPacket_of_mem_packets hmem]
    rfl
  refine ⟨w.withClient (ClientSelectiveRepeat.receive w.client p.packet), ?_, ?_, rfl, rfl⟩
  . simp [step, hreceiving, hdone, hdata, hrun]
  . simp [World.withClient, hacks]

theorem step_ack_front (hstage : w.stage = .running)
    (hack : .ack (AckPacket.new p.packet.seqno) ∈ w.toServer)
    : ∃ w1, step cfg w (.ack (.ack (AckPacket.new p.packet.seqno))) = some w1
        ∧ w.server.popped.length < w1.server.popped.length := by
  have hdone : w.server.isDone = false := by
    cases hw : w.server.window with
    | nil => simp [hw] at hp
    | cons q rest => simp [RdtStrategy.isDone, hw]
  refine ⟨w.withServer (acknowledgePacket cfg w.server (AckPacket.new p.packet.seqno)), ?_, ?_⟩
  . simp [step, hstage, hdone, hack, ClientDatagram.bytes]
  . exact length_popped_acknowledgePacket hmode h.server hp

end

theorem progress_of_reachable (hmode : cfg.mode ≠ .goBackN) (hcfg : cfg.Valid)
    (hclock : StrictMono cfg.env.now) (h : StepFn.Reachable (step cfg) (init cfg) w)
    (hstarted : w.started = true) (hreceiving : w.receiving = true)
    (hdone : w.server.isDone = false)
    : ∃ p w1 w2 w3,
        w.server.window.head? = some p
          ∧ p ∈ w.server.unackedPackets
          ∧ step cfg w .timeOut = some w1
          ∧ w1.toClient = w.toClient ++ [.data p.packet]
          ∧ step cfg w1 (.run (.data p.packet)) = some w2
          ∧ w2.toServer = w1.toServer ++ [.ack (AckPacket.new p.packet.seqno)]
          ∧ step cfg w2 (.ack (.ack (AckPacket.new p.packet.seqno))) = some w3
          ∧ w.server.popped.length < w3.server.popped.length := by
  have hlinked := linked_of_reachable hmode hcfg h
  have ht := timerInv_of_reachable hmode hcfg hclock h hstarted
  have hstage := stage_eq_running hmode hlinked hstarted hdone
  have hclient : w.client.done = false := by
    cases hc : w.client.done with
    | false => rfl
    | true => simp [hlinked.done hc] at hstage
  obtain ⟨p, hp⟩ : ∃ p, w.server.window.head? = some p := by
    cases hw : w.server.window with
    | nil => simp [RdtStrategy.isDone, hw] at hdone
    | cons p rest => exact ⟨p, rfl⟩
  obtain ⟨hunacked, w1, hstep1, hnet1, hp1, hpopped1, hstage1, hreceiving1, hclient1⟩ :=
    step_timeOut_front hmode hlinked hp hstarted ht
  have hlinked1 := linked_step hmode hcfg hlinked hstep1
  obtain ⟨w2, hstep2, hnet2, hserver2, hstage2⟩ :=
    step_run_front hmode hlinked1 hp1 hcfg (hreceiving1.trans hreceiving) (hclient1 ▸ hclient)
      (by simp [hnet1])
  have hlinked2 := linked_step hmode hcfg hlinked1 hstep2
  obtain ⟨w3, hstep3, hlt⟩ :=
    step_ack_front hmode hlinked2 (hserver2 ▸ hp1) (hstage2.trans (hstage1.trans hstage))
      (by simp [hnet2])
  refine ⟨p, w1, w2, w3, hp, hunacked, hstep1, hnet1, hstep2, hnet2, hstep3, ?_⟩
  rwa [hserver2, hpopped1] at hlt

def sampleStarted : World :=
  (StepFn.run (step sampleConfig) (init sampleConfig) (sampleRun.take 5)).get (by decide +kernel)

theorem progress_sampleStarted
    : ∃ w1 w2 w3,
        step sampleConfig sampleStarted .timeOut = some w1
          ∧ step sampleConfig w1 (.run (.data (DataPacket.new [10, 20] 1))) = some w2
          ∧ step sampleConfig w2 (.ack (.ack (AckPacket.new 1))) = some w3
          ∧ sampleStarted.server.popped.length < w3.server.popped.length := by
  have hreach : StepFn.Reachable (step sampleConfig) (init sampleConfig) sampleStarted := by
    apply StepFn.reachable_get_run
  have hfront : sampleStarted.server.window.head? = some ⟨0, DataPacket.new [10, 20] 1⟩ := by
    decide +kernel
  obtain ⟨p, w1, w2, w3, hp, _, hstep1, _, hstep2, _, hstep3, hlt⟩ :=
    progress_of_reachable (by decide) sampleConfig_valid strictMono_id hreach (by decide +kernel)
      (by decide +kernel) (by decide +kernel)
  rw [hfront, Option.some.injEq] at hp
  subst hp
  exact ⟨w1, w2, w3, hstep1, hstep2, hstep3, hlt⟩

end Transfer
