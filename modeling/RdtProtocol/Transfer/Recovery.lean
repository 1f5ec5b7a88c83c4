import RdtProtocol.Transfer.Progress
import RdtProtocol.Transfer.Regular
import RdtProtocol.Transfer.Terminal

/-!
This module determines from where a selective repeat or stop and wait transfer can still be completed
when some of what was in the network, or all of it, has been lost.
-/

namespace Transfer

open StepFn (CanReach)

variable {cfg : Config} {w w' : World} {e : Event} {p : PacketPtr}

/--
Some of the datagrams in the network are lost, and do not come a second time either.
-/
structure Loses (w w' : World) : Prop where
  toClient : w'.toClient ⊆ w.toClient
  toServer : w'.toServer ⊆ w.toServer
  eq : w' = { w with toClient := w'.toClient, toServer := w'.toServer }

structure Able (cfg : Config) (w : World) : Prop extends Concluding cfg w where
  timer : w.started = true → w.server.TimerInv cfg.env
  unregistered : w.stage = .unregistered → w.receiving = false ∧ w.toClient = []

theorem able_init (hmode : cfg.mode ≠ .goBackN) (hcfg : cfg.Valid) : Able cfg (init cfg) := by
  refine ⟨concluding_init hmode hcfg, ?_, fun _ => ⟨rfl, rfl⟩⟩
  simp [World.started, init]

theorem able_step (hmode : cfg.mode ≠ .goBackN) (hcfg : cfg.Valid) (hclock : StrictMono cfg.env.now)
    (h : Able cfg w) (hstep : step cfg w e = some w')
    : Able cfg w' := by
  refine ⟨concluding_step hmode hcfg h.toConcluding hstep,
    timerInv_step hmode hcfg hclock h.toLinked h.timer hstep, ?_⟩
  intro hstage
  cases Step.of_step hstep with
  | sendRequest _ => exact h.unregistered hstage
  | request => contradiction
  | start => contradiction
  | ack hrunning => exact absurd (hrunning.symm.trans hstage) (by simp)
  | timeOut hstarted => simp_all [World.withServer]
  | resend hgbn => contradiction
  | finish => contradiction
  | handshake _ hmem => simp [(h.unregistered hstage).2] at hmem
  | run _ _ hmem => simp [(h.unregistered hstage).2] at hmem

theorem able_of_reachable (hmode : cfg.mode ≠ .goBackN) (hcfg : cfg.Valid)
    (hclock : StrictMono cfg.env.now) (h : StepFn.Reachable (step cfg) (init cfg) w)
    : Able cfg w := by
  apply h.invariant (able_init hmode hcfg)
  intro w e w' hw hstep
  exact able_step hmode hcfg hclock hw hstep

theorem Able.of_loses (h : Able cfg w) (hloses : Loses w w') : Able cfg w' := by
  obtain ⟨hclient, hserver, heq⟩ := hloses
  rw [heq]
  refine ⟨⟨⟨h.server, h.untouched, h.client, h.windowSize_eq, h.accepted, ?_, ?_, h.finished, ?_, h.done⟩,
    h.waiting, ?_⟩, h.timer, ?_⟩
  . exact fun a ha => h.ack a (hserver ha)
  . exact fun q hq => h.data q (hclient hq)
  . exact fun q hq => h.terminal q (hclient hq)
  . exact fun q hq => h.terminal_eq q (hclient hq)
  . intro hstage
    obtain ⟨hreceiving, hnil⟩ := h.unregistered hstage
    exact ⟨hreceiving, List.eq_nil_of_subset_nil (hnil ▸ hclient)⟩

structure Serving (cfg : Config) (w : World) : Prop extends Able cfg w where
  receiving : w.receiving = true
  running : w.stage = .running

theorem Able.client_done (h : Able cfg w) (hstage : w.stage ≠ .finished) : w.client.done = false := by
  cases hc : w.client.done with
  | false => rfl
  | true => exact absurd (h.done hc) hstage

theorem exists_front (hdone : ¬ w.server.isDone = true) : ∃ p, w.server.window.head? = some p := by
  cases hw : w.server.window with
  | nil => simp [RdtStrategy.isDone, hw] at hdone
  | cons p rest => exact ⟨p, rfl⟩

theorem step_finish (hrunning : w.stage = .running) (hdone : w.server.isDone = true)
    : ∃ w', step cfg w .finish = some w' ∧ w'.receiving = w.receiving ∧ w'.client = w.client
        ∧ .terminal w.server.sendEmptyPacket ∈ w'.toClient := by
  refine ⟨_, if_pos ⟨hrunning, hdone⟩, rfl, rfl, ?_⟩
  simp

theorem Able.not_done_of_waiting (hmode : cfg.mode ≠ .goBackN) (hcfg : cfg.Valid) (h : Able cfg w)
    (hfile : cfg.file ≠ []) (hreceiving : w.receiving = false)
    : ¬ w.server.isDone = true := by
  intro hdone
  obtain ⟨hpopped, _⟩ := popped_eq_of_isDone hmode h.server hdone
  obtain ⟨p, hp⟩ := List.exists_mem_of_ne_nil _ (mt packets_eq_nil_iff.mp hfile)
  have haccepted := h.accepted p hp
    ((inv_of_serverInv hmode h.server).popped_acked p (hpopped ▸ hp))
  rw [h.waiting hreceiving, newClientStrategy_eq hmode] at haccepted
  have hseqno := ClientSelectiveRepeat.toNat_seqno hcfg.length_chunks_lt hp
  cases haccepted with
  | inl hlt =>
    rw [UInt32.lt_iff_toNat_lt, hseqno] at hlt
    simp [ClientSelectiveRepeat.new, ClientRdtStrategy.new] at hlt
  | inr hbuffered => simp [ClientSelectiveRepeat.new, ClientRdtStrategy.new] at hbuffered

theorem step_handshake (h : StepFn.Reachable (step cfg) (init cfg) w)
    (hstage : w.stage ≠ .unregistered) (hreceiving : w.receiving = false)
    : step cfg w (.handshake .requestAck) = some { w with receiving := true } :=
  if_pos ⟨hreceiving, (announced_of_reachable h).requestAck hstage⟩

theorem Able.ended (hmode : cfg.mode ≠ .goBackN) (hcfg : cfg.Valid) (h : Able cfg w)
    (hdone : w.client.done = true)
    : Ended cfg w := by
  have hlt := lt_expectedSeqno_of_finished hmode hcfg h.toLinked (h.done hdone)
  exact ⟨hdone, ClientSelectiveRepeat.output_eq_file h.client hlt⟩

theorem Able.conclude (hmode : cfg.mode ≠ .goBackN) (hcfg : cfg.Valid) (h : Able cfg w)
    (hreceiving : w.receiving = true) {q : DataPacket} (hmem : .terminal q ∈ w.toClient)
    : CanReach (step cfg) w (Ended cfg) := by
  cases hdone : w.client.done with
  | true => exact CanReach.refl (h.ended hmode hcfg hdone)
  | false =>
    obtain ⟨c, hrun, _⟩ := clientStep_run hmode hcfg h.toLinked hmem
    have hstep : step cfg w (.run (.terminal q)) = some (w.withClient c) := by
      simp [step, hreceiving, hdone, hmem, hrun]
    apply CanReach.of_step hstep
    exact CanReach.refl (ended_of_run_terminal hmode hcfg h.toConcluding hstep)

section

variable (hmode : cfg.mode ≠ .goBackN) (hcfg : cfg.Valid) (hclock : StrictMono cfg.env.now)
include hmode hcfg hclock

theorem Serving.progress (h : Serving cfg w) (hdone : ¬ w.server.isDone = true)
    : CanReach (step cfg) w (fun w' => Serving cfg w'
        ∧ (packets 1 cfg.file).length - w'.server.popped.length
            < (packets 1 cfg.file).length - w.server.popped.length) := by
  have hstarted : w.started = true := by simp [World.started, h.running]
  have hclient := h.client_done (by simp [h.running])
  obtain ⟨p, hp⟩ := exists_front hdone
  obtain ⟨_, w1, hstep1, hnet1, hp1, hpopped1, hstage1, hreceiving1, hclient1⟩ :=
    step_timeOut_front hmode h.toLinked hp hstarted (h.timer hstarted)
  have hable1 := able_step hmode hcfg hclock h.toAble hstep1
  obtain ⟨w2, hstep2, hnet2, hserver2, hstage2⟩ :=
    step_run_front hmode hable1.toLinked hp1 hcfg (hreceiving1.trans h.receiving)
      (hclient1 ▸ hclient) (by simp [hnet1])
  have hable2 := able_step hmode hcfg hclock hable1 hstep2
  have hrunning2 : w2.stage = .running := hstage2.trans (hstage1.trans h.running)
  obtain ⟨w3, hstep3, hlt⟩ :=
    step_ack_front hmode hable2.toLinked (hserver2 ▸ hp1) hrunning2 (by simp [hnet2])
  have hable3 := able_step hmode hcfg hclock hable2 hstep3
  rw [hserver2, hpopped1] at hlt
  apply CanReach.of_step hstep1
  apply CanReach.of_step hstep2
  apply CanReach.of_step hstep3
  apply CanReach.refl
  constructor
  . have hreceiving2 : w2.receiving = true := by
      cases Step.of_step hstep2 with
      | run hreceiving => exact hreceiving
    cases Step.of_step hstep3 with
    | ack => exact ⟨hable3, hreceiving2, hrunning2⟩
  . have hcontent := (inv_of_serverInv hmode hable3.server).content
    rw [← hcontent, List.length_append]
    rw [← hcontent, List.length_append] at *
    omega

theorem Serving.conclude (h : Serving cfg w) (hdone : w.server.isDone = true)
    : CanReach (step cfg) w (Ended cfg) := by
  obtain ⟨w1, hstep1, hreceiving1, _, hmem⟩ := step_finish h.running hdone
  have hable1 := able_step hmode hcfg hclock h.toAble hstep1
  apply CanReach.of_step hstep1
  exact hable1.conclude hmode hcfg (hreceiving1.trans h.receiving) hmem

theorem Serving.complete (h : Serving cfg w) : CanReach (step cfg) w (Ended cfg) := by
  have hreach : CanReach (step cfg) w (fun w => Serving cfg w ∧ w.server.isDone = true) := by
    apply CanReach.of_progress _ h
    . exact fun w => (packets 1 cfg.file).length - w.server.popped.length
    . exact fun w hw hdone => hw.progress hmode hcfg hclock hdone
  apply hreach.trans
  intro w' hw'
  exact hw'.1.conclude hmode hcfg hclock hw'.2

theorem Able.serve (h : Able cfg w) (hfile : cfg.file ≠ []) (hrunning : w.stage = .running)
    : CanReach (step cfg) w (Serving cfg) := by
  cases hreceiving : w.receiving with
  | true => exact CanReach.refl ⟨h, hreceiving, hrunning⟩
  | false =>
    have hstarted : w.started = true := by simp [World.started, hrunning]
    obtain ⟨p, hp⟩ := exists_front (h.not_done_of_waiting hmode hcfg hfile hreceiving)
    obtain ⟨_, w1, hstep1, hnet1, _, _, hstage1, hreceiving1, _⟩ :=
      step_timeOut_front hmode h.toLinked hp hstarted (h.timer hstarted)
    have hable1 := able_step hmode hcfg hclock h hstep1
    have hstep2 : step cfg w1 (.handshake (.data p.packet)) = some { w1 with receiving := true } := by
      simp [step, hreceiving1, hreceiving, hnet1]
    have hable2 := able_step hmode hcfg hclock hable1 hstep2
    apply CanReach.of_step hstep1
    apply CanReach.of_step hstep2
    exact CanReach.refl ⟨hable2, rfl, hstage1.trans hrunning⟩

theorem Able.begin (h : Able cfg w) (hfile : cfg.file ≠ []) (hcreated : w.stage = .created)
    : CanReach (step cfg) w (Serving cfg) := by
  have hstep : step cfg w .start = some { w.withServer (start cfg w.server) with stage := .running } :=
    if_pos hcreated
  apply CanReach.of_step hstep
  exact (able_step hmode hcfg hclock h hstep).serve hmode hcfg hclock hfile rfl

theorem Able.register (h : Able cfg w) (hfile : cfg.file ≠ [])
    (hrequest : (DataPacket.unpack (ClientDatagram.request.bytes cfg)).isSome = true)
    (hunregistered : w.stage = .unregistered)
    : CanReach (step cfg) w (Serving cfg) := by
  obtain ⟨request, hunpack⟩ := Option.isSome_iff_exists.mp hrequest
  have hreceiving := (h.unregistered hunregistered).1
  have hstep1 : step cfg w .sendRequest = some { w with toServer := w.toServer ++ [.request] } := by
    simp [step, hreceiving]
  have hable1 := able_step hmode hcfg hclock h hstep1
  obtain ⟨w2, hstep2, hcreated⟩ : ∃ w2, step cfg { w with toServer := w.toServer ++ [.request] }
      (.request .request) = some w2 ∧ w2.stage = .created := by
    simp [step, hunregistered, hunpack]
  have hable2 := able_step hmode hcfg hclock hable1 hstep2
  apply CanReach.of_step hstep1
  apply CanReach.of_step hstep2
  exact hable2.begin hmode hcfg hclock hfile hcreated

theorem Able.recover (h : Able cfg w) (hfile : cfg.file ≠ [])
    (hrequest : (DataPacket.unpack (ClientDatagram.request.bytes cfg)).isSome = true)
    (hstage : w.stage ≠ .finished)
    : CanReach (step cfg) w (Ended cfg) := by
  have hserving : CanReach (step cfg) w (Serving cfg) := by
    cases hs : w.stage with
    | unregistered => exact h.register hmode hcfg hclock hfile hrequest hs
    | created => exact h.begin hmode hcfg hclock hfile hs
    | running => exact h.serve hmode hcfg hclock hfile hs
    | finished => exact absurd hs hstage
  apply hserving.trans
  intro w' hw'
  exact hw'.complete hmode hcfg hclock

theorem complete_of_running (h : StepFn.Reachable (step cfg) (init cfg) w)
    (hrunning : w.stage = .running)
    : CanReach (step cfg) w (Ended cfg) := by
  have hable := able_of_reachable hmode hcfg hclock h
  cases hreceiving : w.receiving with
  | true => exact Serving.complete hmode hcfg hclock ⟨hable, hreceiving, hrunning⟩
  | false =>
    have hstep := step_handshake h (by simp [hrunning]) hreceiving
    apply CanReach.of_step hstep
    exact Serving.complete hmode hcfg hclock ⟨able_step hmode hcfg hclock hable hstep, rfl, hrunning⟩

theorem complete_of_created (h : StepFn.Reachable (step cfg) (init cfg) w)
    (hcreated : w.stage = .created)
    : CanReach (step cfg) w (Ended cfg) := by
  have hstep : step cfg w .start = some { w.withServer (start cfg w.server) with stage := .running } :=
    if_pos hcreated
  apply CanReach.of_step hstep
  exact complete_of_running hmode hcfg hclock (h.step trivial hstep) rfl

theorem conclude_of_finished (h : StepFn.Reachable (step cfg) (init cfg) w)
    (hfinished : w.stage = .finished) (hreceiving : w.receiving = true)
    : CanReach (step cfg) w (Ended cfg) := by
  obtain ⟨q, hmem⟩ := (announced_of_reachable h).terminal hfinished
  exact (able_of_reachable hmode hcfg hclock h).conclude hmode hcfg hreceiving hmem

theorem complete_of_reachable
    (hrequest : (DataPacket.unpack (ClientDatagram.request.bytes cfg)).isSome = true)
    (h : StepFn.Reachable (step cfg) (init cfg) w)
    : CanReach (step cfg) w (Ended cfg) := by
  cases hstage : w.stage with
  | unregistered =>
    obtain ⟨request, hunpack⟩ := Option.isSome_iff_exists.mp hrequest
    have hreceiving := ((able_of_reachable hmode hcfg hclock h).unregistered hstage).1
    have hstep1 : step cfg w .sendRequest = some { w with toServer := w.toServer ++ [.request] } := by
      simp [step, hreceiving]
    obtain ⟨w2, hstep2, hcreated⟩ : ∃ w2, step cfg { w with toServer := w.toServer ++ [.request] }
        (.request .request) = some w2 ∧ w2.stage = .created := by
      simp [step, hstage, hunpack]
    apply CanReach.of_step hstep1
    apply CanReach.of_step hstep2
    exact complete_of_created hmode hcfg hclock ((h.step trivial hstep1).step trivial hstep2) hcreated
  | created => exact complete_of_created hmode hcfg hclock h hstage
  | running => exact complete_of_running hmode hcfg hclock h hstage
  | finished =>
    cases hreceiving : w.receiving with
    | true => exact conclude_of_finished hmode hcfg hclock h hstage hreceiving
    | false =>
      have hstep := step_handshake h (by simp [hstage]) hreceiving
      apply CanReach.of_step hstep
      exact conclude_of_finished hmode hcfg hclock (h.step trivial hstep) hstage rfl

end

structure Abandoned (cfg : Config) (w : World) : Prop extends Linked cfg w where
  stage : w.stage = .finished
  terminal_not_mem : ∀ q, .terminal q ∉ w.toClient
  client_done : w.client.done = false

theorem abandoned_step (hmode : cfg.mode ≠ .goBackN) (hcfg : cfg.Valid) (h : Abandoned cfg w)
    (hstep : step cfg w e = some w')
    : Abandoned cfg w' := by
  have hlinked := linked_step hmode hcfg h.toLinked hstep
  have hfinished := h.stage
  cases Step.of_step hstep with
  | sendRequest _ => exact ⟨hlinked, h.stage, h.terminal_not_mem, h.client_done⟩
  | request hstage => simp [hfinished] at hstage
  | start hstage => simp [hfinished] at hstage
  | ack hstage => simp [hfinished] at hstage
  | timeOut _ _ =>
    refine ⟨hlinked, h.stage, ?_, h.client_done⟩
    intro q hq
    exact h.terminal_not_mem q ((terminal_mem_withServer _ q).mp hq)
  | resend hgbn => contradiction
  | finish hstage => simp [hfinished] at hstage
  | handshake _ _ => exact ⟨hlinked, h.stage, h.terminal_not_mem, h.client_done⟩
  | @run datagram c _ hdone hmem hrun =>
    refine ⟨hlinked, h.stage, h.terminal_not_mem, ?_⟩
    rw [runClient_eq hmode, ClientSelectiveRepeat.run] at hrun
    cases datagram with
    | requestAck =>
      rw [ServerDatagram.bytes, ClientRdtStrategy.recvPacket_ack, Option.map_some,
        ClientSelectiveRepeat.receive_requestAck h.client, Option.some.injEq] at hrun
      rw [← hrun]
      exact hdone
    | data q =>
      obtain ⟨p, hp, rfl⟩ := h.data q hmem
      have hreceived := ClientSelectiveRepeat.received_receive hcfg.length_chunks_lt h.client hp
      rw [ServerDatagram.bytes, ClientRdtStrategy.recvPacket_of_mem_packets hp, Option.map_some,
        Option.some.injEq] at hrun
      rw [← hrun]
      exact hreceived.done_eq.trans hdone
    | terminal q => exact absurd hmem (h.terminal_not_mem q)

theorem Able.receiving_of_finished (hmode : cfg.mode ≠ .goBackN) (hcfg : cfg.Valid) (h : Able cfg w)
    (hfile : cfg.file ≠ []) (hfinished : w.stage = .finished)
    : w.receiving = true := by
  by_contra hreceiving
  rw [Bool.not_eq_true] at hreceiving
  apply h.not_done_of_waiting hmode hcfg hfile hreceiving
  have hcontent := (inv_of_serverInv hmode h.server).content
  rw [h.finished hfinished, List.append_right_eq_self, List.append_eq_nil_iff] at hcontent
  simp [RdtStrategy.isDone, hcontent.1]

theorem recovers_iff (hmode : cfg.mode ≠ .goBackN) (hcfg : cfg.Valid)
    (hclock : StrictMono cfg.env.now) (hfile : cfg.file ≠ [])
    (hrequest : (DataPacket.unpack (ClientDatagram.request.bytes cfg)).isSome = true)
    (h : StepFn.Reachable (step cfg) (init cfg) w) (hloses : Loses w w')
    : CanReach (step cfg) w' (Ended cfg)
        ↔ w.stage ≠ .finished ∨ w.client.done = true ∨ ∃ q, .terminal q ∈ w'.toClient := by
  have hable := (able_of_reachable hmode hcfg hclock h).of_loses hloses
  have hstage : w'.stage = w.stage := by rw [hloses.eq]
  have hclient : w'.client = w.client := by rw [hloses.eq]
  rw [← hstage, ← hclient]
  constructor
  . intro hreach
    by_contra hnot
    simp only [not_or, not_not, Bool.not_eq_true, not_exists] at hnot
    apply CanReach.not_of_invariant (fun _ _ _ hw hstep => abandoned_step hmode hcfg hw hstep) _ _ hreach
    . intro w'' hw'' hended
      have hdone := hended.1
      simp [hw''.client_done] at hdone
    . exact ⟨hable.toLinked, hnot.1, hnot.2.2, hnot.2.1⟩
  . rintro (hunfinished | hdone | ⟨q, hq⟩)
    . exact hable.recover hmode hcfg hclock hfile hrequest hunfinished
    . exact CanReach.refl (hable.ended hmode hcfg hdone)
    . have hfinished := (hable.terminal q hq).1
      exact hable.conclude hmode hcfg (hable.receiving_of_finished hmode hcfg hfile hfinished) hq

theorem recovers_sampleStarted
    : CanReach (step sampleConfig) { sampleStarted with toClient := [.requestAck] }
        (Ended sampleConfig) := by
  have hreach : StepFn.Reachable (step sampleConfig) (init sampleConfig) sampleStarted := by
    apply StepFn.reachable_get_run
  have hloses : Loses sampleStarted { sampleStarted with toClient := [.requestAck] } := by
    refine ⟨?_, List.Subset.refl _, rfl⟩
    decide +kernel
  have hiff := recovers_iff (by decide) sampleConfig_valid strictMono_id (by decide)
    (by decide +kernel) hreach hloses
  exact hiff.mpr (.inl (by decide +kernel))

end Transfer
