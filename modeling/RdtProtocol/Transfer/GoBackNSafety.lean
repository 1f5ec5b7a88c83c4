import RdtProtocol.Client.Strategy.BasicLemmas
import RdtProtocol.Client.Strategy.GoBackNLemmas
import RdtProtocol.Transfer.ServerLemmas

/-!
This module contains the invariant that ties the two sides of a go back N transfer together from the
moment on when nothing of the handshake is left, and the safety of these transfers.
-/

namespace Transfer

structure GbnLinked (cfg : Config) (w : World) : Prop where
  server : w.server.InOrder 0 cfg.file GoBackN.DEFAULT_WINDOW_SIZE
  fresh : w.server.Fresh
  stage : w.stage ≠ .unregistered
  untouched : w.stage = .created → w.server = newStrategy cfg
  receiving : w.receiving = true
  client : ClientGoBackN.Inv cfg.file w.client
  windowSize_eq : w.client.windowSize = cfg.clientWindowSize
  base_le : w.server.popped.length ≤ w.client.expectedSeqno.toNat
  le_end : w.client.expectedSeqno.toNat ≤ w.server.popped.length + w.server.window.length
  toServer : ∀ d ∈ w.toServer,
    ∃ n, d = .ack (AckPacket.new n) ∧ (n.toNat = 2 ^ 32 - 1 ∨ n < w.client.expectedSeqno)
  toClient : ∀ d ∈ w.toClient,
    (∃ p ∈ w.server.sent, d = .data p.packet)
      ∨ w.stage = .finished ∧ ∃ n, d = .terminal (DataPacket.new [] n)
  finished : w.stage = .finished → w.server.popped = packets 0 cfg.file
  done : w.client.done = true → w.stage = .finished

variable {cfg : Config} {w : World}

theorem gbnLinked_dataPhase (hmode : cfg.mode = .goBackN) (hcfg : cfg.Valid)
    : GbnLinked cfg (dataPhase cfg) := by
  have hnew : newStrategy cfg
      = GoBackN.new (File.regular cfg.file) 0 cfg.maxWindowSize cfg.threshold := by
    simp only [newStrategy, Mode.newStrategy, hmode, hcfg.nextSeqNumber hmode]
  have hclient : newClientStrategy cfg = ClientGoBackN.new cfg.clientWindowSize := by
    simp only [newClientStrategy, hmode]
  obtain ⟨hinv, hfresh, hpopped⟩ :=
    GoBackN.inOrder_new 0 cfg.file cfg.maxWindowSize cfg.threshold
  refine ⟨?_, ?_, ?_, ?_, ?_, ?_, ?_, ?_, ?_, ?_, ?_, ?_, ?_⟩
  all_goals simp only [dataPhase, init, hnew, hclient]
  . exact hinv
  . exact hfresh
  . simp
  . simp
  . exact ClientGoBackN.inv_new cfg.file cfg.clientWindowSize
  . rfl
  . simp [hpopped]
  . exact Nat.zero_le _
  . simp
  . simp
  . simp
  . simp [ClientGoBackN.new, ClientRdtStrategy.new]

structure GbnServerStep (cfg : Config) (w : World) (t : RdtStrategy) : Prop where
  server : t.InOrder 0 cfg.file GoBackN.DEFAULT_WINDOW_SIZE
  fresh : t.Fresh
  base_le : t.popped.length ≤ w.client.expectedSeqno.toNat
  popped_le : w.server.popped.length ≤ t.popped.length
  end_le : w.server.popped.length + w.server.window.length ≤ t.popped.length + t.window.length
  sent_prefix : w.server.sent <+: t.sent

theorem gbnLinked_withServer (h : GbnLinked cfg w) {t : RdtStrategy} (hstep : GbnServerStep cfg w t)
    {stage : Stage} (hstage : stage = .running ∨ stage = .finished)
    (hfinished : stage = .finished ↔ w.stage = .finished)
    : GbnLinked cfg { w.withServer t with stage } := by
  refine ⟨hstep.server, hstep.fresh, ?_, ?_, h.receiving, h.client, h.windowSize_eq, hstep.base_le,
    Nat.le_trans h.le_end hstep.end_le, h.toServer, ?_, ?_, ?_⟩
  . cases hstage <;> simp_all
  . cases hstage <;> simp_all
  . intro d hd
    simp only [World.withServer, List.mem_append, List.mem_map] at hd
    cases hd with
    | inl hd =>
      cases h.toClient d hd with
      | inl hsent =>
        obtain ⟨p, hp, heq⟩ := hsent
        exact .inl ⟨p, hstep.sent_prefix.subset hp, heq⟩
      | inr hterm => exact .inr ⟨hfinished.mpr hterm.1, hterm.2⟩
    | inr hd =>
      obtain ⟨p, hp, heq⟩ := hd
      exact .inl ⟨p, List.mem_of_mem_drop hp, heq.symm⟩
  . intro hf
    have hold := h.finished (hfinished.mp hf)
    have hcontent := hstep.server.content
    have hle := hstep.popped_le
    rw [hold] at hle
    have hrest := congrArg List.length hcontent
    simp only [List.length_append] at hrest
    have hnil : t.window ++ (t.auxWindow ++ t.pending) = [] := by
      rw [← List.length_eq_zero_iff]
      simp only [List.length_append]
      omega
    rw [hnil, List.append_nil] at hcontent
    exact hcontent
  . intro hdone
    exact hfinished.mpr (h.done hdone)

theorem gbnServerStep_acknowledgePacket (hmode : cfg.mode = .goBackN) (hcfg : cfg.Valid)
    (h : GbnLinked cfg w) {d : ClientDatagram} (hd : d ∈ w.toServer) {a : AckPacket}
    (ha : AckPacket.unpack (d.bytes cfg) = some a)
    : GbnServerStep cfg w (acknowledgePacket cfg w.server a) := by
  have hN := hcfg.length_chunks_lt
  obtain ⟨n, rfl, hn⟩ := h.toServer d hd
  rw [ClientDatagram.bytes, AckPacket.unpack_pack_new, Option.some.injEq] at ha
  subst ha
  simp only [acknowledgePacket, Mode.acknowledgePacket, hmode]
  obtain ⟨hinv, hfresh⟩ :=
    GoBackN.inOrder_acknowledgePacket h.server h.fresh cfg.env (AckPacket.new n)
  have hsent := GoBackN.sent_prefix_acknowledgePacket h.server h.fresh cfg.env (AckPacket.new n)
  have hbase := h.base_le
  cases GoBackN.length_popped_acknowledgePacket h.server h.fresh (by omega) cfg.env
      (AckPacket.new n) with
  | inl heq =>
    rw [heq.1] at hinv hfresh hsent ⊢
    exact ⟨hinv, hfresh, hbase, Nat.le_refl _, Nat.le_refl _, hsent⟩
  | inr hpop =>
    obtain ⟨hle, hlt, hpopped, hend⟩ := hpop
    rw [AckPacket.ackno_new] at hle hlt hpopped
    have hlen := congrArg List.length h.server.content
    simp only [List.length_append, length_packets] at hlen
    rw [UInt32.lt_iff_toNat_lt] at hn
    refine ⟨hinv, hfresh, ?_, ?_, hend, hsent⟩
    . omega
    . omega

structure GbnClientStep (cfg : Config) (w : World) (c : ClientRdtStrategy) : Prop where
  inv : ClientGoBackN.Inv cfg.file c
  windowSize_eq : c.windowSize = w.client.windowSize
  le : w.client.expectedSeqno.toNat ≤ c.expectedSeqno.toNat
  le_end : c.expectedSeqno.toNat ≤ w.server.popped.length + w.server.window.length
  acks : ∀ a ∈ c.acks.drop w.client.acks.length,
    ∃ n, a = AckPacket.new n ∧ (n.toNat = 2 ^ 32 - 1 ∨ n < c.expectedSeqno)
  done : c.done = true → w.client.done = true ∨ w.stage = .finished

theorem gbnLinked_withClient (h : GbnLinked cfg w) {c : ClientRdtStrategy}
    (hstep : GbnClientStep cfg w c)
    : GbnLinked cfg (w.withClient c) := by
  refine ⟨h.server, h.fresh, h.stage, h.untouched, h.receiving, hstep.inv,
    hstep.windowSize_eq.trans h.windowSize_eq, Nat.le_trans h.base_le hstep.le, hstep.le_end, ?_,
    h.toClient, h.finished, ?_⟩
  . intro d hd
    simp only [World.withClient, List.mem_append, List.mem_map] at hd
    cases hd with
    | inl hd =>
      obtain ⟨n, heq, hn⟩ := h.toServer d hd
      refine ⟨n, heq, hn.imp id ?_⟩
      intro hlt
      rw [UInt32.lt_iff_toNat_lt] at *
      exact Nat.lt_of_lt_of_le hlt hstep.le
    | inr hd =>
      obtain ⟨a, ha, rfl⟩ := hd
      obtain ⟨n, rfl, hn⟩ := hstep.acks a ha
      exact ⟨n, rfl, hn⟩
  . intro hc
    cases hstep.done hc with
    | inl hold => exact h.done hold
    | inr hf => exact hf

theorem addr_lt_end (h : GbnLinked cfg w) {p : PacketPtr} (hp : p ∈ w.server.sent)
    : p.addr < w.server.popped.length + w.server.window.length := by
  obtain ⟨xs, ys, hsplit⟩ := List.append_of_mem (h.server.sent_sub p hp)
  have haddr : p.addr = xs.length := by
    have hall : w.server.popped
        ++ (w.server.window ++ (w.server.auxWindow ++ w.server.pending))
          = xs ++ p :: (ys ++ (w.server.auxWindow ++ w.server.pending)) := by
      rw [← List.append_assoc, hsplit, List.append_assoc, List.cons_append]
    exact h.server.addr_eq hall
  have hlen := congrArg List.length hsplit
  simp only [List.length_append, List.length_cons] at hlen
  omega

theorem gbnClientStep_run (hmode : cfg.mode = .goBackN) (hcfg : cfg.Valid) (h : GbnLinked cfg w)
    {d : ServerDatagram} (hd : d ∈ w.toClient)
    : ∃ c, runClient cfg w.client d.bytes = some c ∧ GbnClientStep cfg w c := by
  simp only [runClient, hmode, ClientGoBackN.run]
  cases h.toClient d hd with
  | inl hdata =>
    obtain ⟨p, hp, rfl⟩ := hdata
    have hmem := h.server.sent_mem p hp
    rw [ServerDatagram.bytes, ClientRdtStrategy.recvPacket_of_mem_packets hmem]
    refine ⟨_, rfl, ?_⟩
    have hrec := ClientGoBackN.received_receive hcfg.length_chunks_lt h.client hmem
    obtain ⟨answers, hacks, hanswers⟩ := hrec.acks
    refine ⟨hrec.inv, hrec.windowSize_eq, hrec.le, ?_, ?_, ?_⟩
    . have hlt := addr_lt_end h hp
      exact Nat.le_trans hrec.le_max (Nat.max_le.mpr ⟨h.le_end, hlt⟩)
    . rw [hacks, List.drop_left]
      exact hanswers
    . rw [hrec.done_eq]
      exact .inl
  | inr hterm =>
    obtain ⟨hf, n, rfl⟩ := hterm
    rw [ServerDatagram.bytes, ClientRdtStrategy.recvPacket_empty]
    refine ⟨_, rfl, ?_⟩
    rw [ClientGoBackN.receive_empty]
    split
    . exact ⟨⟨h.client.le_length, h.client.output_eq⟩, rfl, Nat.le_refl _, h.le_end, by simp,
        fun _ => .inr hf⟩
    . exact ⟨h.client, rfl, Nat.le_refl _, h.le_end, by simp, .inl⟩

theorem gbnServerStep_start (hmode : cfg.mode = .goBackN) (h : GbnLinked cfg w)
    : GbnServerStep cfg w (start cfg w.server) := by
  simp only [start, Mode.start, hmode]
  obtain ⟨hinv, hfresh⟩ := GoBackN.inOrder_start h.server h.fresh cfg.env
  obtain ⟨hpopped, hwindow, hsent⟩ := GoBackN.foldl_send_frame w.server cfg.env w.server.window
  refine ⟨hinv, hfresh, ?_, ?_, ?_, ?_⟩
  . exact hpopped ▸ h.base_le
  . exact Nat.le_of_eq (congrArg List.length hpopped).symm
  . unfold GoBackN.start
    rw [hpopped, hwindow]
  . exact ⟨_, hsent.symm⟩

theorem gbnServerStep_resend (h : GbnLinked cfg w) {p : PacketPtr} (hp : p ∈ w.server.window)
    : GbnServerStep cfg w (GoBackN.resend cfg.env w.server p) := by
  obtain ⟨hinv, hfresh⟩ := GoBackN.inOrder_resend h.server h.fresh cfg.env hp
  refine ⟨hinv, hfresh, h.base_le, Nat.le_refl _, Nat.le_refl _, ?_⟩
  apply List.prefix_append

theorem gbnLinked_step (hmode : cfg.mode = .goBackN) (hcfg : cfg.Valid) (h : GbnLinked cfg w)
    {e : Event} {w' : World} (hstep : step cfg w e = some w')
    : GbnLinked cfg w' := by
  cases Step.of_step hstep with
  | sendRequest hreceiving => simp [h.receiving] at hreceiving
  | request hstage _ => exact absurd hstage h.stage
  | start hstage =>
    exact gbnLinked_withServer h (gbnServerStep_start hmode h) (.inl rfl) (by simp [hstage])
  | ack hstage _ hmem ha =>
    have hs := gbnServerStep_acknowledgePacket hmode hcfg h hmem ha
    exact gbnLinked_withServer h hs (.inl hstage) Iff.rfl
  | timeOut hstage _ =>
    have hs : GbnServerStep cfg w (handleTimeOut cfg w.server) := by
      simp only [handleTimeOut, Mode.handleTimeOut, hmode]
      exact ⟨h.server, h.fresh, h.base_le, Nat.le_refl _, Nat.le_refl _, List.prefix_rfl⟩
    exact gbnLinked_withServer h hs hstage Iff.rfl
  | resend _ hstage hp =>
    have hs := gbnServerStep_resend h (List.mem_of_getElem? hp)
    exact gbnLinked_withServer h hs hstage Iff.rfl
  | finish hstage hdone =>
    have hwindow : w.server.window = [] := List.isEmpty_iff.mp hdone
    refine ⟨h.server, h.fresh, by simp, by simp, h.receiving, h.client, h.windowSize_eq, h.base_le,
      h.le_end, h.toServer, ?_, ?_, fun _ => rfl⟩
    . intro d hd
      rw [List.mem_append, List.mem_singleton] at hd
      cases hd with
      | inl hd => exact (h.toClient d hd).imp id (fun hterm => ⟨rfl, hterm.2⟩)
      | inr hd => exact .inr ⟨rfl, _, hd⟩
    . intro _
      obtain ⟨haux, hpending⟩ := h.server.rest_eq_nil (by decide) hwindow
      have hcontent := h.server.content
      rw [hwindow, haux, hpending, List.append_nil, List.append_nil, List.append_nil] at hcontent
      exact hcontent
  | handshake hreceiving _ => simp [h.receiving] at hreceiving
  | run _ _ hmem hrun =>
    obtain ⟨c, hrun', hclient⟩ := gbnClientStep_run hmode hcfg h hmem
    rw [hrun, Option.some.injEq] at hrun'
    exact gbnLinked_withClient h (hrun' ▸ hclient)

theorem gbnLinked_of_reachable (hmode : cfg.mode = .goBackN) (hcfg : cfg.Valid)
    (h : StepFn.Reachable (step cfg) (dataPhase cfg) w)
    : GbnLinked cfg w := by
  apply h.invariant (gbnLinked_dataPhase hmode hcfg)
  intro w e w' hw hstep
  exact gbnLinked_step hmode hcfg hw hstep

theorem output_of_reachable_goBackN (hmode : cfg.mode = .goBackN) (hcfg : cfg.Valid)
    (h : StepFn.Reachable (step cfg) (dataPhase cfg) w)
    : w.client.output = ((cfg.file.chunks MAX_DATA_SIZE).take w.client.expectedSeqno.toNat).flatten
        ∧ (∀ p ∈ w.server.window.head?, p.packet.seqno.toNat = w.server.popped.length)
        ∧ w.server.popped.length ≤ w.client.expectedSeqno.toNat
        ∧ w.client.expectedSeqno.toNat ≤ w.server.popped.length + w.server.window.length
        ∧ (∀ a, .ack a ∈ w.toServer
            → a.ackno.toNat = 2 ^ 32 - 1 ∨ a.ackno < w.client.expectedSeqno)
        ∧ (w.client.done = true → w.client.output = cfg.file) := by
  have hlinked := gbnLinked_of_reachable hmode hcfg h
  refine ⟨hlinked.client.output_eq, ?_, hlinked.base_le, hlinked.le_end, ?_, ?_⟩
  . intro p hp
    have hN := hcfg.length_chunks_lt
    obtain ⟨rest, hwindow⟩ := List.head?_eq_some_iff.mp hp
    rw [← List.nil_append (p :: rest)] at hwindow
    have hseqno := GoBackN.toNat_seqno_eq hlinked.server (by omega) hwindow
    simpa using hseqno
  . intro a ha
    obtain ⟨n, heq, hn⟩ := hlinked.toServer _ ha
    cases heq
    exact hn
  . intro hdone
    apply ClientGoBackN.output_eq_file hlinked.client
    have hlen := congrArg List.length (hlinked.finished (hlinked.done hdone))
    rw [length_packets] at hlen
    have hbase := hlinked.base_le
    omega

def sampleGbnConfig : Config :=
  {
    mode := .goBackN
    env := { now := id, tripleDupAck := fun _ => false }
    file := [10, 20]
    reqFileName := [97]
    nextSeqNumber := 0
    maxWindowSize := 0
    threshold := 0
    clientWindowSize := 200
  }

def sampleGbnRun : List Event :=
  [
    .start, .resend 0, .run (.data (DataPacket.new [10, 20] 0)),
    .run (.data (DataPacket.new [10, 20] 0)), .ack (.ack (AckPacket.new 0)), .finish,
    .run (.terminal (DataPacket.new [] 1))
  ]

def sampleGbnWorld : World :=
  (StepFn.run (step sampleGbnConfig) (dataPhase sampleGbnConfig) sampleGbnRun).get
    (by decide +kernel)

theorem sampleGbnConfig_valid : sampleGbnConfig.Valid := by
  constructor <;> decide

theorem output_sampleGbnWorld : sampleGbnWorld.client.output = [10, 20] := by
  have hreach : StepFn.Reachable (step sampleGbnConfig) (dataPhase sampleGbnConfig) sampleGbnWorld := by
    apply StepFn.reachable_get_run
  have hsafe := output_of_reachable_goBackN rfl sampleGbnConfig_valid hreach
  have hdone : sampleGbnWorld.client.done = true := by decide +kernel
  exact hsafe.2.2.2.2.2 hdone

end Transfer
