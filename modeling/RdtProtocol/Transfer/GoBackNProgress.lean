import RdtProtocol.Transfer.GoBackNSafety

/-!
This module determines when a go back N transfer can go on after its time-out.
-/

namespace Transfer

def resendAll (env : Env) (s : RdtStrategy) : RdtStrategy :=
  s.window.foldl (GoBackN.resend env) s

def runAll (c : ClientRdtStrategy) (datagrams : List Bytes) : Option ClientRdtStrategy :=
  datagrams.foldlM ClientGoBackN.run c

def acknowledgeAll (env : Env) (s : RdtStrategy) (datagrams : List Bytes) : Option RdtStrategy :=
  datagrams.foldlM (fun s d => (AckPacket.unpack d).map (GoBackN.acknowledgePacket env s)) s

/--
The whole window is sent, all of it is received, and so are all the ACKs that it is answered with.
-/
def flush (env : Env) (s : RdtStrategy) (c : ClientRdtStrategy) : Option RdtStrategy := do
  let t := resendAll env s
  let c' ← runAll c ((t.sent.drop s.sent.length).map (·.packet.pack))
  acknowledgeAll env t ((c'.acks.drop c.acks.length).map (·.pack))

variable {cfg : Config} {w : World} {file : Bytes} {env : Env} {s : RdtStrategy}
variable {c : ClientRdtStrategy}

theorem foldl_resend_spec (s : RdtStrategy) (env : Env) (ps : List PacketPtr)
    : let t := ps.foldl (GoBackN.resend env) s
      t.popped = s.popped ∧ t.window = s.window ∧ t.sent = s.sent ++ ps := by
  induction ps generalizing s with
  | nil => simp
  | cons p ps ih =>
    obtain ⟨hpopped, hwindow, hsent⟩ := ih (GoBackN.resend env s p)
    refine ⟨hpopped, hwindow, hsent.trans ?_⟩
    simp [RdtStrategy.setTimeStamp, GoBackN.resend, GoBackN.sendPacket]

theorem inOrder_foldl_resend {n : Int} (h : s.InOrder 0 file n) (hs : s.Fresh) (env : Env)
    {ps : List PacketPtr} (hps : ∀ p ∈ ps, p ∈ s.window)
    : (ps.foldl (GoBackN.resend env) s).InOrder 0 file n
        ∧ (ps.foldl (GoBackN.resend env) s).Fresh := by
  induction ps generalizing s with
  | nil => exact ⟨h, hs⟩
  | cons p ps ih =>
    obtain ⟨hinv, hfresh⟩ := GoBackN.inOrder_resend h hs env (hps p (by simp))
    exact ih hinv hfresh (fun q hq => hps q (by simp [hq]))

theorem run_pack {p : PacketPtr} (hp : p ∈ packets 0 file) (c : ClientRdtStrategy)
    : ClientGoBackN.run c p.packet.pack = some (ClientGoBackN.receive c p.packet) := by
  rw [ClientGoBackN.run, ClientRdtStrategy.recvPacket_of_mem_packets hp]
  rfl

theorem runAll_spec (hN : (file.chunks MAX_DATA_SIZE).length < 2 ^ 32 - 1)
    (h : ClientGoBackN.Inv file c) {ps : List PacketPtr} (hps : ∀ p ∈ ps, p ∈ packets 0 file)
    : ∃ c' answers, runAll c (ps.map (·.packet.pack)) = some c' ∧ c'.acks = c.acks ++ answers
        ∧ ∀ a ∈ answers, ∃ n, a = AckPacket.new n := by
  induction ps generalizing c with
  | nil => exact ⟨c, [], rfl, by simp, by simp⟩
  | cons p ps ih =>
    have hp := hps p (by simp)
    have hrec := ClientGoBackN.received_receive hN h hp
    obtain ⟨first, hfirst, hacks⟩ := hrec.acks
    obtain ⟨c', later, hrun, hlater, hacks'⟩ := ih hrec.inv (fun q hq => hps q (by simp [hq]))
    refine ⟨c', first ++ later, ?_, ?_, ?_⟩
    . rw [List.map_cons, runAll, List.foldlM_cons, run_pack hp]
      exact hrun
    . rw [hlater, hfirst, List.append_assoc]
    . intro a ha
      rw [List.mem_append] at ha
      cases ha with
      | inl ha =>
        obtain ⟨n, heq, _⟩ := hacks a ha
        exact ⟨n, heq⟩
      | inr ha => exact hacks' a ha

theorem runAll_eq_self {ps : List PacketPtr} (hps : ∀ p ∈ ps, p ∈ packets 0 file)
    (hout : ∀ p ∈ ps, ¬ ClientGoBackN.inWindow c p.packet.seqno)
    : runAll c (ps.map (·.packet.pack)) = some c := by
  induction ps with
  | nil => rfl
  | cons p ps ih =>
    have hp := hps p (by simp)
    rw [List.map_cons, runAll, List.foldlM_cons, run_pack hp,
      ClientGoBackN.receive_of_mem_packets c hp, if_neg (hout p (by simp))]
    exact ih (fun q hq => hps q (by simp [hq])) (fun q hq => hout q (by simp [hq]))

theorem acknowledgeAll_spec {n : Int} (h : s.InOrder 0 file n) (hs : s.Fresh)
    (hN : (file.chunks MAX_DATA_SIZE).length < 2 ^ 32 - 1) (env : Env) {acks : List AckPacket}
    (hacks : ∀ a ∈ acks, ∃ n, a = AckPacket.new n)
    : ∃ t, acknowledgeAll env s (acks.map (·.pack)) = some t
        ∧ s.popped.length ≤ t.popped.length := by
  induction acks generalizing s with
  | nil => exact ⟨s, rfl, Nat.le_refl _⟩
  | cons a acks ih =>
    obtain ⟨m, rfl⟩ := hacks a (by simp)
    obtain ⟨hinv, hfresh⟩ := GoBackN.inOrder_acknowledgePacket h hs env (AckPacket.new m)
    obtain ⟨t, ht, hle⟩ := ih hinv hfresh (fun b hb => hacks b (by simp [hb]))
    refine ⟨t, ?_, Nat.le_trans ?_ hle⟩
    . rw [List.map_cons, acknowledgeAll, List.foldlM_cons, AckPacket.unpack_pack_new]
      exact ht
    . cases GoBackN.length_popped_acknowledgePacket h hs (by omega) env (AckPacket.new m) with
      | inl heq => rw [heq.1]
      | inr hpop => omega

theorem toNat_seqno_of_mem_window {n : Int} (h : s.InOrder 0 file n)
    (hN : (file.chunks MAX_DATA_SIZE).length < 2 ^ 32 - 1) {p : PacketPtr} (hp : p ∈ s.window)
    : s.popped.length ≤ p.packet.seqno.toNat
        ∧ p.packet.seqno.toNat < s.popped.length + s.window.length := by
  obtain ⟨xs, ys, hwindow⟩ := List.append_of_mem hp
  have hseqno := GoBackN.toNat_seqno_eq h (by omega) hwindow
  rw [hseqno, hwindow, List.length_append, List.length_cons]
  omega

section

variable (h : GbnLinked cfg w) (hcfg : cfg.Valid)
include h hcfg

theorem runAll_window (hlt : w.client.expectedSeqno.toNat
      < w.server.popped.length + w.server.window.length)
    (hwrap : w.client.expectedSeqno.toNat + cfg.clientWindowSize.toNat < 2 ^ 32)
    : (∃ p ∈ w.server.window, p.packet.seqno = w.client.expectedSeqno)
        ∧ ∃ c answers, runAll w.client (w.server.window.map (·.packet.pack)) = some c
          ∧ c.acks = w.client.acks ++ AckPacket.new w.client.expectedSeqno :: answers
          ∧ ∀ a ∈ answers, ∃ n, a = AckPacket.new n := by
  have hN := hcfg.length_chunks_lt
  have hone := hcfg.one_le_clientWindowSize
  have hsize := hcfg.clientWindowSize_lt
  rw [← h.windowSize_eq] at hone hsize hwrap
  have hbase := h.base_le
  obtain ⟨k, hk⟩ := Nat.exists_eq_add_of_le hbase
  have hklt : k < w.server.window.length := by omega
  have hwindow : w.server.window
      = w.server.window.take k ++ w.server.window[k] :: w.server.window.drop (k + 1) := by
    rw [← List.drop_eq_getElem_cons hklt, List.take_append_drop]
  generalize hp : w.server.window[k] = p at hwindow
  have hmem : ∀ q ∈ w.server.window, q ∈ packets 0 cfg.file :=
    fun q => h.server.mem_of_mem_window
  have hpmem : p ∈ packets 0 cfg.file := hmem p (hp ▸ List.getElem_mem hklt)
  have hseqno : p.packet.seqno = w.client.expectedSeqno := by
    apply UInt32.toNat_inj.mp
    rw [GoBackN.toNat_seqno_eq h.server (by omega) hwindow, List.length_take]
    omega
  have hbefore : ∀ q ∈ w.server.window.take k, ¬ ClientGoBackN.inWindow w.client q.packet.seqno := by
    intro q hq hin
    have hle := hin.1
    obtain ⟨xs, ys, hsplit⟩ := List.append_of_mem hq
    rw [hsplit, List.append_assoc] at hwindow
    have hq' := GoBackN.toNat_seqno_eq h.server (by omega) hwindow
    have hlen := congrArg List.length hsplit
    rw [List.length_take, List.length_append, List.length_cons] at hlen
    rw [UInt32.le_iff_toNat_le] at hle
    omega
  have hreceive : ClientGoBackN.receive w.client p.packet
      = (ClientGoBackN.deliverPacket w.client p.packet).sendAck
          (AckPacket.new w.client.expectedSeqno) := by
    have hin : ClientGoBackN.inWindow w.client p.packet.seqno := by
      rw [hseqno, ClientGoBackN.inWindow_iff hone hsize (UInt32.le_refl _)]
      omega
    rw [ClientGoBackN.receive_of_mem_packets _ hpmem, if_pos hin, if_pos hseqno, hseqno]
  have hinv := (ClientGoBackN.received_receive hN h.client hpmem).inv
  have hlater : ∀ q ∈ w.server.window.drop (k + 1), q ∈ packets 0 cfg.file :=
    fun q hq => hmem q (List.mem_of_mem_drop hq)
  obtain ⟨c, answers, hrun, hacks, hanswers⟩ := runAll_spec hN hinv hlater
  refine ⟨⟨p, hp ▸ List.getElem_mem hklt, hseqno⟩, c, answers, ?_, ?_, hanswers⟩
  . have hsilent := runAll_eq_self (fun q hq => hmem q (List.mem_of_mem_take hq)) hbefore
    unfold runAll at hsilent hrun ⊢
    rw [hwindow, List.map_append, List.foldlM_append, hsilent, List.map_cons]
    simp only [Option.bind_eq_bind, Option.bind_some, List.foldlM_cons]
    rw [run_pack hpmem]
    exact hrun
  . rw [hacks, hreceive]
    simp [ClientRdtStrategy.sendAck, ClientGoBackN.deliverPacket, ClientRdtStrategy.writeData]

theorem runAll_window_eq_self (hstuck : ¬ (w.client.expectedSeqno.toNat
      < w.server.popped.length + w.server.window.length
        ∧ w.client.expectedSeqno.toNat + cfg.clientWindowSize.toNat < 2 ^ 32))
    : runAll w.client (w.server.window.map (·.packet.pack)) = some w.client := by
  have hN := hcfg.length_chunks_lt
  have hone := hcfg.one_le_clientWindowSize
  have hsize := hcfg.clientWindowSize_lt
  rw [← h.windowSize_eq] at hone hsize hstuck
  apply runAll_eq_self (fun q => h.server.mem_of_mem_window)
  intro q hq hin
  have hle := hin.1
  have hseqno := toNat_seqno_of_mem_window h.server hN hq
  rw [ClientGoBackN.inWindow_iff hone hsize hle] at hin
  rw [UInt32.le_iff_toNat_le] at hle
  omega

end

theorem flush_eq (s : RdtStrategy) (env : Env) (c : ClientRdtStrategy)
    : flush env s c
        = (runAll c (s.window.map (·.packet.pack))).bind (fun c' =>
            acknowledgeAll env (resendAll env s)
              ((c'.acks.drop c.acks.length).map (·.pack))) := by
  obtain ⟨_, _, hsent⟩ := foldl_resend_spec s env s.window
  simp only [flush, resendAll, hsent, List.drop_left]
  rfl

theorem flush_pops_iff (hmode : cfg.mode = .goBackN) (hcfg : cfg.Valid)
    (hreach : StepFn.Reachable (step cfg) (dataPhase cfg) w)
    : ∃ t, flush cfg.env w.server w.client = some t
        ∧ (w.server.popped.length < t.popped.length
            ↔ w.client.expectedSeqno.toNat < w.server.popped.length + w.server.window.length
              ∧ w.client.expectedSeqno.toNat + cfg.clientWindowSize.toNat < 2 ^ 32) := by
  have h := gbnLinked_of_reachable hmode hcfg hreach
  have hN := hcfg.length_chunks_lt
  obtain ⟨hpopped, hwin, _⟩ := foldl_resend_spec w.server cfg.env w.server.window
  obtain ⟨hinv, hfresh⟩ := inOrder_foldl_resend h.server h.fresh cfg.env (fun _ => id)
  rw [flush_eq]
  by_cases hcond : w.client.expectedSeqno.toNat < w.server.popped.length + w.server.window.length
      ∧ w.client.expectedSeqno.toNat + cfg.clientWindowSize.toNat < 2 ^ 32
  . obtain ⟨⟨p, hp, hseqno⟩, c, answers, hrun, hacks, hanswers⟩ :=
      runAll_window h hcfg hcond.1 hcond.2
    have hbase := h.base_le
    have hfirst := GoBackN.length_popped_acknowledgePacket hinv hfresh (by omega) cfg.env
      (AckPacket.new w.client.expectedSeqno)
    obtain ⟨hinv', hfresh'⟩ := GoBackN.inOrder_acknowledgePacket hinv hfresh cfg.env
      (AckPacket.new w.client.expectedSeqno)
    obtain ⟨t, ht, hle⟩ := acknowledgeAll_spec hinv' hfresh' hN cfg.env hanswers
    refine ⟨t, ?_, iff_of_true ?_ hcond⟩
    . rw [hrun, Option.bind_some, hacks, List.drop_left, List.map_cons, acknowledgeAll,
        List.foldlM_cons, AckPacket.unpack_pack_new]
      exact ht
    . cases hfirst with
      | inl hnone =>
        rw [hwin] at hnone
        exact absurd hseqno (hnone.2 p hp)
      | inr hpop =>
        rw [AckPacket.ackno_new] at hpop
        omega
  . rw [runAll_window_eq_self h hcfg hcond]
    refine ⟨resendAll cfg.env w.server, ?_, ?_⟩
    . simp only [Option.bind_some, List.drop_length]
      rfl
    . simp only [hcond, iff_false, Nat.not_lt]
      exact Nat.le_of_eq (congrArg List.length hpopped)

def gbnStarted : World :=
  (StepFn.run (step sampleGbnConfig) (dataPhase sampleGbnConfig) [.start]).get (by decide +kernel)

theorem flush_pops_gbnStarted
    : ∃ t, flush sampleGbnConfig.env gbnStarted.server gbnStarted.client = some t
        ∧ 0 < t.popped.length := by
  have hreach : StepFn.Reachable (step sampleGbnConfig) (dataPhase sampleGbnConfig) gbnStarted := by
    apply StepFn.reachable_get_run
  have hbase : gbnStarted.server.popped.length = 0 := by decide +kernel
  obtain ⟨t, ht, hpops⟩ := flush_pops_iff rfl sampleGbnConfig_valid hreach
  rw [hbase] at hpops
  exact ⟨t, ht, hpops.mpr (by decide +kernel)⟩

def gbnStuck : World :=
  (StepFn.run (step sampleGbnConfig) (dataPhase sampleGbnConfig)
    [.start, .run (.data (DataPacket.new [10, 20] 0))]).get (by decide +kernel)

theorem stuck_goBackN
    : StepFn.Reachable (step sampleGbnConfig) (dataPhase sampleGbnConfig) gbnStuck
        ∧ gbnStuck.server.window ≠ []
        ∧ gbnStuck.server.popped.length = 0
        ∧ (flush sampleGbnConfig.env gbnStuck.server gbnStuck.client).map (·.popped.length)
            = some 0 := by
  refine ⟨?_, by decide +kernel, by decide +kernel, by decide +kernel⟩
  apply StepFn.reachable_get_run

end Transfer
