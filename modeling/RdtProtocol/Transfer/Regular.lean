import RdtProtocol.Shared.PacketLemmas
import RdtProtocol.Server.Strategy.ModeRuns
import RdtProtocol.Server.Strategy.ModeSent
import RdtProtocol.Transfer.ServerLemmas

/-!
This module contains what holds of every transfer, in all modes and for all window sizes.
-/

namespace ClientSelectiveRepeat

theorem acks_deliverBufferedPackets (c : ClientRdtStrategy)
    : (deliverBufferedPackets c).acks = c.acks := by
  have hgo (window : List DataPacket) (c : ClientRdtStrategy)
      : (deliverBufferedPackets.go c window).acks = c.acks := by
    induction window generalizing c with
    | nil => rfl
    | cons pkt window ih =>
      unfold deliverBufferedPackets.go
      split
      . exact ih _
      . rfl
  exact hgo c.window c

theorem acks_receive (c : ClientRdtStrategy) (p : DataPacket)
    : (receive c p).acks = c.acks ∨ ∃ n, (receive c p).acks = c.acks ++ [AckPacket.new n] := by
  simp only [receive]
  split
  . split
    . exact .inl rfl
    . split
      . exact .inl rfl
      . right
        refine ⟨p.seqno, ?_⟩
        split <;> simp [ClientRdtStrategy.sendAck, acks_deliverBufferedPackets]
  . split
    . exact .inr ⟨p.seqno, rfl⟩
    . exact .inl rfl

end ClientSelectiveRepeat

theorem ClientGoBackN.acks_receive (c : ClientRdtStrategy) (p : DataPacket)
    : (receive c p).acks = c.acks ∨ ∃ n, (receive c p).acks = c.acks ++ [AckPacket.new n] := by
  simp only [receive]
  split
  . split
    . exact .inl rfl
    . split
      . exact .inr ⟨p.seqno, rfl⟩
      . exact .inr ⟨c.expectedSeqno - 1, rfl⟩
  . exact .inl rfl

namespace Transfer

variable {cfg : Config} {w w' : World} {e : Event}

theorem withServer_self (w : World) : w.withServer w.server = w := by
  simp [World.withServer]

theorem withClient_self (w : World) : w.withClient w.client = w := by
  simp [World.withClient]

theorem sent_newStrategy (cfg : Config) : (newStrategy cfg).sent = [] := by
  have hnew (file : File) (first : UInt32) (windowSize maxWindowSize threshold : Int)
      : (RdtStrategy.new file first windowSize maxWindowSize threshold).sent = [] := by
    apply RdtStrategy.fillWindow_induction (P := fun s => s.sent = [])
    . intro s p s' _ _ hget hs
      obtain ⟨_, _, _, rfl⟩ := RdtStrategy.getNextPacket_eq_some hget
      exact hs
    . rfl
  unfold newStrategy Mode.newStrategy
  cases cfg.mode
  all_goals apply hnew

theorem acks_runClient {c c' : ClientRdtStrategy} {datagram : Bytes}
    (h : runClient cfg c datagram = some c')
    : c'.acks = c.acks ∨ ∃ n, c'.acks = c.acks ++ [AckPacket.new n] := by
  unfold runClient at h
  cases hmode : cfg.mode with
  | stopAndWait | selectiveRepeat =>
    simp only [hmode, ClientSelectiveRepeat.run, Option.map_eq_some_iff] at h
    obtain ⟨p, _, rfl⟩ := h
    exact ClientSelectiveRepeat.acks_receive c p
  | goBackN =>
    simp only [hmode, ClientGoBackN.run, Option.map_eq_some_iff] at h
    obtain ⟨p, _, rfl⟩ := h
    exact ClientGoBackN.acks_receive c p

structure Regular (cfg : Config) (w : World) : Prop where
  server : w.stage = .unregistered ∨ w.stage = .created → w.server = newStrategy cfg
  receiving : w.stage = .unregistered → w.receiving = false
  toClient : w.stage = .unregistered → w.toClient = []
  request : w.stage = .unregistered → ∀ d ∈ w.toServer, d = .request
  ack : ∀ a, .ack a ∈ w.toServer → ∃ n, a = AckPacket.new n

theorem Regular.withServer (h : Regular cfg w) (t : RdtStrategy) {stage : Stage}
    (hstage : stage = .running ∨ stage = .finished)
    : Regular cfg { w.withServer t with stage } := by
  refine ⟨?_, ?_, ?_, ?_, h.ack⟩
  all_goals
    obtain rfl | rfl := hstage
    all_goals simp

theorem regular_step (h : Regular cfg w) (hstep : step cfg w e = some w') : Regular cfg w' := by
  have hbegun {d : ServerDatagram} (hmem : d ∈ w.toClient) : w.stage ≠ .unregistered := by
    intro hstage
    simp [h.toClient hstage] at hmem
  cases Step.of_step hstep with
  | sendRequest _ =>
    refine ⟨h.server, h.receiving, h.toClient, ?_, ?_⟩
    . intro hstage d hd
      rw [List.mem_append, List.mem_singleton] at hd
      exact hd.elim (h.request hstage d) id
    . simpa using h.ack
  | request hstage _ => exact ⟨fun _ => h.server (.inl hstage), by simp, by simp, by simp, h.ack⟩
  | start _ => exact h.withServer _ (.inl rfl)
  | ack hstage _ _ _ => exact h.withServer _ (.inl hstage)
  | timeOut hstage _ => exact h.withServer _ hstage
  | resend _ hstage _ => exact h.withServer _ hstage
  | finish _ _ => exact ⟨by simp, by simp, by simp, by simp, h.ack⟩
  | handshake _ hmem =>
    exact ⟨h.server, fun hs => absurd hs (hbegun hmem), h.toClient, h.request, h.ack⟩
  | run _ _ hmem hrun =>
    refine ⟨h.server, h.receiving, h.toClient, fun hs => absurd hs (hbegun hmem), ?_⟩
    intro a ha
    simp only [World.withClient, List.mem_append, List.mem_map, ClientDatagram.ack.injEq,
      exists_eq_right] at ha
    cases ha with
    | inl ha => exact h.ack a ha
    | inr ha =>
      cases acks_runClient hrun with
      | inl heq => simp [heq] at ha
      | inr hex =>
        obtain ⟨n, heq⟩ := hex
        rw [heq, List.drop_left, List.mem_singleton] at ha
        exact ⟨n, ha⟩

theorem regular_init : Regular cfg (init cfg) :=
  ⟨fun _ => rfl, fun _ => rfl, fun _ => rfl, by simp [init], by simp [init]⟩

theorem regular_of_reachable (h : StepFn.Reachable (step cfg) (init cfg) w) : Regular cfg w := by
  apply h.invariant regular_init
  intro w e w' hw hstep
  exact regular_step hw hstep

def Emits (w : World) : Prop :=
  ∀ p ∈ w.server.sent, .data p.packet ∈ w.toClient

theorem Emits.withServer (h : Emits w) {t : RdtStrategy} (ht : w.server.sent <+: t.sent) (stage : Stage)
    : Emits { w.withServer t with stage } := by
  obtain ⟨l, hl⟩ := ht
  intro p hp
  change p ∈ t.sent at hp
  simp only [World.withServer, ← hl, List.mem_append, List.drop_left, List.mem_map] at hp ⊢
  exact hp.imp (h p) (fun hp => ⟨p, hp, rfl⟩)

theorem emits_step (h : Emits w) (hstep : step cfg w e = some w') : Emits w' := by
  cases Step.of_step hstep with
  | sendRequest _ => exact h
  | request _ _ => exact fun p hp => List.mem_append_left _ (h p hp)
  | start _ => exact h.withServer (cfg.mode.sent_prefix_start cfg.env w.server) .running
  | ack _ _ _ _ => exact h.withServer (cfg.mode.sent_prefix_acknowledgePacket cfg.env w.server _) w.stage
  | timeOut _ _ => exact h.withServer (cfg.mode.sent_prefix_handleTimeOut cfg.env w.server) w.stage
  | resend _ _ _ => exact h.withServer (List.prefix_append _ _) w.stage
  | finish _ _ => exact fun p hp => List.mem_append_left _ (h p hp)
  | handshake _ _ => exact h
  | run _ _ _ _ => exact h

theorem emits_of_reachable (h : StepFn.Reachable (step cfg) (init cfg) w) : Emits w := by
  apply h.invariant
  . intro p hp
    simp [init, sent_newStrategy] at hp
  . intro w e w' hw hstep
    exact emits_step hw hstep

structure Announced (w : World) : Prop where
  requestAck : w.stage ≠ .unregistered → .requestAck ∈ w.toClient
  terminal : w.stage = .finished → ∃ q, .terminal q ∈ w.toClient

theorem Announced.withServer (h : Announced w) (t : RdtStrategy) (hstage : w.stage ≠ .unregistered)
    (stage : Stage) (hfinished : stage = .finished → w.stage = .finished)
    : Announced { w.withServer t with stage } := by
  refine ⟨fun _ => List.mem_append_left _ (h.requestAck hstage), ?_⟩
  intro heq
  obtain ⟨q, hq⟩ := h.terminal (hfinished heq)
  exact ⟨q, List.mem_append_left _ hq⟩

theorem announced_step (h : Announced w) (hstep : step cfg w e = some w') : Announced w' := by
  cases Step.of_step hstep with
  | sendRequest _ => exact ⟨h.requestAck, h.terminal⟩
  | request _ _ => exact ⟨by simp, by simp⟩
  | start hcreated => exact h.withServer _ (by simp [hcreated]) .running (by simp)
  | ack hrunning => exact h.withServer _ (by simp [hrunning]) w.stage id
  | timeOut hstarted => exact h.withServer _ (by rintro heq; simp [heq] at hstarted) w.stage id
  | resend _ hstarted => exact h.withServer _ (by rintro heq; simp [heq] at hstarted) w.stage id
  | finish hrunning _ =>
    refine ⟨fun _ => List.mem_append_left _ (h.requestAck (by simp [hrunning])), ?_⟩
    intro _
    refine ⟨w.server.sendEmptyPacket, ?_⟩
    exact List.mem_append_right _ List.mem_cons_self
  | handshake _ _ => exact ⟨h.requestAck, h.terminal⟩
  | run _ _ _ _ => exact ⟨h.requestAck, h.terminal⟩

theorem announced_of_reachable (h : StepFn.Reachable (step cfg) (init cfg) w) : Announced w := by
  apply h.invariant
  . exact ⟨by simp [init], by simp [init]⟩
  . intro w e w' hw hstep
    exact announced_step hw hstep

structure Supplied (cfg : Config) (w : World) : Prop where
  orderly : cfg.mode.Orderly cfg.nextSeqNumber cfg.file w.server
  inv : cfg.mode = .selectiveRepeat → ServerInv cfg w.server
  header : ∀ d ∈ w.toClient, HEADER_SIZE ≤ d.bytes.length

theorem sent_mem_of_orderly {t : RdtStrategy} (h : cfg.mode.Orderly cfg.nextSeqNumber cfg.file t)
    (hinv : cfg.mode = .selectiveRepeat → ServerInv cfg t)
    : ∃ first, ∀ p ∈ t.sent, p ∈ packets first cfg.file := by
  cases hmode : cfg.mode with
  | stopAndWait =>
    simp only [Mode.Orderly, hmode] at h
    exact ⟨_, h.1.sent_mem⟩
  | selectiveRepeat => exact ⟨_, (inv_of_serverInv (by simp [hmode]) (hinv hmode)).sent_mem⟩
  | goBackN =>
    simp only [Mode.Orderly, hmode] at h
    exact ⟨_, h.1.sent_mem⟩

theorem length_pack_empty_le (n : UInt32) : HEADER_SIZE ≤ (DataPacket.new [] n).pack.length := by
  rw [DataPacket.length_pack_new (by decide)]
  exact Nat.le_add_left _ _

theorem Supplied.withServer (h : Supplied cfg w) {t : RdtStrategy} (stage : Stage)
    (horderly : cfg.mode.Orderly cfg.nextSeqNumber cfg.file t)
    (hinv : cfg.mode = .selectiveRepeat → ServerInv cfg t)
    : Supplied cfg { w.withServer t with stage } := by
  refine ⟨horderly, hinv, ?_⟩
  intro d hd
  simp only [World.withServer, List.mem_append, List.mem_map] at hd
  obtain hd | ⟨p, hp, rfl⟩ := hd
  . exact h.header d hd
  . obtain ⟨first, hsent⟩ := sent_mem_of_orderly horderly hinv
    have hmem := hsent p (List.mem_of_mem_drop hp)
    have hlen := (length_data_of_mem_packets hmem).2
    rw [ServerDatagram.bytes, packet_eq_new_of_mem_packets hmem, DataPacket.length_pack_new]
    . exact Nat.le_add_left _ _
    . simp only [MAX_DATA_SIZE, HEADER_SIZE] at *
      omega

theorem supplied_step (hsizes : cfg.mode = .selectiveRepeat → cfg.Valid) (hregular : Regular cfg w)
    (h : Supplied cfg w) (hstep : step cfg w e = some w')
    : Supplied cfg w' := by
  have hmore {d : ServerDatagram} (hd : HEADER_SIZE ≤ d.bytes.length) (stage : Stage)
      : Supplied cfg { w with stage, toClient := w.toClient ++ [d] } := by
    refine ⟨h.orderly, h.inv, ?_⟩
    intro d' hd'
    rw [List.mem_append, List.mem_singleton] at hd'
    exact hd'.elim (h.header d') (fun heq => heq ▸ hd)
  cases Step.of_step hstep with
  | sendRequest _ => exact ⟨h.orderly, h.inv, h.header⟩
  | request _ _ => exact hmore (by decide) _
  | start hcreated =>
    apply h.withServer _ (Mode.orderly_start h.orderly cfg.env)
    intro hsr
    rw [hregular.server (.inr hcreated)]
    exact serverInv_start (hsizes hsr)
  | @ack _ a _ _ _ _ =>
    have hack : cfg.mode.step cfg.env w.server (.acknowledge a)
        = some (acknowledgePacket cfg w.server a) :=
      rfl
    apply h.withServer w.stage
    . exact Mode.orderly_step h.orderly hack
    . exact fun hsr => serverInv_acknowledgePacket (hsizes hsr) (h.inv hsr) _
  | timeOut _ hne =>
    have htimeOut : cfg.mode.step cfg.env w.server .timeOut = some (handleTimeOut cfg w.server) :=
      if_neg hne
    apply h.withServer w.stage
    . exact Mode.orderly_step h.orderly htimeOut
    . exact fun hsr => serverInv_handleTimeOut (hsizes hsr) (h.inv hsr)
  | @resend index p hgbn _ hp =>
    have hresend : cfg.mode.step cfg.env w.server (.resend index)
        = some (GoBackN.resend cfg.env w.server p) := by
      simp [Mode.step, hgbn, hp]
    apply h.withServer w.stage
    . exact Mode.orderly_step h.orderly hresend
    . simp [hgbn]
  | finish _ _ => exact hmore (d := .terminal _) (length_pack_empty_le _) .finished
  | handshake _ _ => exact ⟨h.orderly, h.inv, h.header⟩
  | run _ _ _ _ => exact ⟨h.orderly, h.inv, h.header⟩

theorem supplied_of_reachable (hsizes : cfg.mode = .selectiveRepeat → cfg.Valid)
    (h : StepFn.Reachable (step cfg) (init cfg) w)
    : Supplied cfg w := by
  have hinv : Regular cfg w ∧ Supplied cfg w := by
    apply h.invariant
    . refine ⟨regular_init, ⟨Mode.orderly_newStrategy _ _ _ _ _, ?_, by simp [init]⟩⟩
      exact fun hsr => serverInv_newStrategy (hsizes hsr)
    . intro w e w' hw hstep
      exact ⟨regular_step hw.1 hstep, supplied_step hsizes hw.1 hw.2 hstep⟩
  exact hinv.2

end Transfer
