import RdtProtocol.Transfer.Safety

/-!
This module determines when the packet that ends the transfer does so once the client has read it.
-/

namespace Transfer

variable {cfg : Config} {w w' : World}

def Event.readsTerminal : Event → Bool
  | .handshake (.terminal _) => true
  | .run (.terminal _) => true
  | _ => false

def Ended (cfg : Config) (w : World) : Prop :=
  w.client.done = true ∧ w.client.output = cfg.file

/--
The terminal packet ends the transfer, and an ended transfer stays so.
-/
def Concludes (cfg : Config) (w : World) (e : Event) (w' : World) : Prop :=
  e.readsTerminal = true ∨ Ended cfg w → Ended cfg w'

/--
Whether `handle_ack_timeout`, which looks at no datagram, leaves the terminal packet to `run`. The
worker of a file with data is not done before the client has left `handle_ack_timeout`.
-/
def Heeded (cfg : Config) (e : Event) : Prop :=
  cfg.file = [] → ∀ q, e ≠ .handshake (.terminal q)

theorem terminal_mem_withServer (t : RdtStrategy) (q : DataPacket)
    : .terminal q ∈ (w.withServer t).toClient ↔ .terminal q ∈ w.toClient := by
  simp only [World.withServer, List.mem_append, List.mem_map, reduceCtorEq, and_false, exists_false,
    or_false]

structure Concluding (cfg : Config) (w : World) : Prop extends Linked cfg w where
  waiting : w.receiving = false → w.client = newClientStrategy cfg
  terminal_eq : ∀ q, .terminal q ∈ w.toClient
    → q = DataPacket.new [] (1 + UInt32.ofNat (cfg.file.chunks MAX_DATA_SIZE).length)

theorem concluding_init (hmode : cfg.mode ≠ .goBackN) (hcfg : cfg.Valid)
    : Concluding cfg (init cfg) :=
  ⟨linked_init hmode hcfg, fun _ => rfl, by simp [init]⟩

theorem sendEmptyPacket_eq (hmode : cfg.mode ≠ .goBackN) (h : Linked cfg w)
    (hdone : w.server.isDone = true)
    : w.server.sendEmptyPacket
        = DataPacket.new [] (1 + UInt32.ofNat (cfg.file.chunks MAX_DATA_SIZE).length) := by
  obtain ⟨_, hpending⟩ := popped_eq_of_isDone hmode h.server hdone
  have hnext := (inv_of_serverInv hmode h.server).nextSeqNumber_eq hpending
  rw [RdtStrategy.sendEmptyPacket, hnext]

theorem concluding_step (hmode : cfg.mode ≠ .goBackN) (hcfg : cfg.Valid) (h : Concluding cfg w)
    {e : Event} (hstep : step cfg w e = some w')
    : Concluding cfg w' := by
  have hlinked := linked_step hmode hcfg h.toLinked hstep
  cases Step.of_step hstep with
  | sendRequest _ => exact ⟨hlinked, h.waiting, h.terminal_eq⟩
  | request _ _ =>
    refine ⟨hlinked, h.waiting, ?_⟩
    simpa using h.terminal_eq
  | start _ | ack _ _ _ _ | timeOut _ _ =>
    refine ⟨hlinked, h.waiting, ?_⟩
    intro q hq
    exact h.terminal_eq q ((terminal_mem_withServer _ q).mp hq)
  | resend hgbn _ _ => contradiction
  | finish _ hdone =>
    refine ⟨hlinked, h.waiting, ?_⟩
    intro q hq
    simp only [List.mem_append, List.mem_singleton, ServerDatagram.terminal.injEq] at hq
    cases hq with
    | inl hq => exact h.terminal_eq q hq
    | inr hq => rw [hq, sendEmptyPacket_eq hmode h.toLinked hdone]
  | handshake _ _ => exact ⟨hlinked, by simp, h.terminal_eq⟩
  | run hreceiving _ _ _ => exact ⟨hlinked, by simp [World.withClient, hreceiving], h.terminal_eq⟩

theorem concluding_of_reachable (hmode : cfg.mode ≠ .goBackN) (hcfg : cfg.Valid)
    (h : StepFn.Reachable (step cfg) (init cfg) w)
    : Concluding cfg w := by
  apply h.invariant (concluding_init hmode hcfg)
  intro w e w' hw hstep
  exact concluding_step hmode hcfg hw hstep

-- The client has all packets, so that the number of the terminal packet is the one it expects.
theorem ended_of_run_terminal (hmode : cfg.mode ≠ .goBackN) (hcfg : cfg.Valid)
    (h : Concluding cfg w) {q : DataPacket} (hstep : step cfg w (.run (.terminal q)) = some w')
    : Ended cfg w' := by
  have hone := hcfg.one_le_clientWindowSize
  have hsize := hcfg.clientWindowSize_lt
  rw [← h.windowSize_eq] at hone hsize
  cases Step.of_step hstep with
  | run _ _ hmem hrun =>
    obtain ⟨hfinished, _⟩ := h.terminal q hmem
    have hlt := lt_expectedSeqno_of_finished hmode hcfg h.toLinked hfinished
    have hseqno : 1 + UInt32.ofNat (cfg.file.chunks MAX_DATA_SIZE).length = w.client.expectedSeqno := by
      have hle := h.client.le_length
      have hN := hcfg.length_chunks_lt
      apply UInt32.toNat_inj.mp
      simp only [UInt32.toNat_add, UInt32.toNat_one, UInt32.toNat_ofNat']
      omega
    rw [runClient_eq hmode, ClientSelectiveRepeat.run, ServerDatagram.bytes, h.terminal_eq q hmem,
      ClientRdtStrategy.recvPacket_empty, Option.map_some, Option.some.injEq, hseqno,
      ClientSelectiveRepeat.receive_empty,
      if_pos (ClientSelectiveRepeat.inWindow_expectedSeqno hone hsize)] at hrun
    rw [← hrun]
    have houtput := ClientSelectiveRepeat.output_eq_file h.client hlt
    exact ⟨rfl, houtput⟩

theorem not_ended_of_handshake_terminal (hmode : cfg.mode ≠ .goBackN) (hcfg : cfg.Valid)
    (h : Concluding cfg w) {q : DataPacket} (hstep : step cfg w (.handshake (.terminal q)) = some w')
    : cfg.file = [] ∧ ¬ Ended cfg w' := by
  cases Step.of_step hstep with
  | handshake hreceiving hmem =>
    have hclient := h.waiting hreceiving
    obtain ⟨hfinished, _⟩ := h.terminal q hmem
    have hlt := lt_expectedSeqno_of_finished hmode hcfg h.toLinked hfinished
    rw [hclient, newClientStrategy_eq hmode] at hlt
    constructor
    . rw [← List.chunks_eq_nil_iff MAX_DATA_SIZE_pos, ← List.length_eq_zero_iff]
      exact Nat.lt_one_iff.mp hlt
    . intro hended
      have hdone : w.client.done = true := hended.1
      rw [hclient, newClientStrategy_eq hmode] at hdone
      contradiction

theorem ended_step (h : Ended cfg w) {e : Event} (hstep : step cfg w e = some w')
    : Ended cfg w' := by
  cases Step.of_step hstep with
  | run _ hdone _ _ =>
    rw [h.1] at hdone
    contradiction
  | _ => exact h

theorem concludes_along_iff (hmode : cfg.mode ≠ .goBackN) (hcfg : cfg.Valid) (es : List Event)
    : StepFn.Along (step cfg) (Concludes cfg) (init cfg) es
        ↔ StepFn.Along (step cfg) (fun _ e _ => Heeded cfg e) (init cfg) es := by
  apply StepFn.along_congr
  intro w e w' hreach hstep
  have h := concluding_of_reachable hmode hcfg hreach
  constructor
  . intro hconcludes _ q he
    subst he
    obtain ⟨_, hnot⟩ := not_ended_of_handshake_terminal hmode hcfg h hstep
    exact hnot (hconcludes (.inl rfl))
  . intro hheeded hor
    cases hor with
    | inr hended => exact ended_step hended hstep
    | inl hreads =>
      match e with
      | .handshake (.terminal q) =>
        obtain ⟨hempty, _⟩ := not_ended_of_handshake_terminal hmode hcfg h hstep
        exact absurd rfl (hheeded hempty q)
      | .run (.terminal q) => exact ended_of_run_terminal hmode hcfg h hstep

theorem concludes_sampleRun
    : StepFn.Along (step sampleConfig) (Concludes sampleConfig) (init sampleConfig) sampleRun := by
  rw [concludes_along_iff (by decide) sampleConfig_valid]
  intro es1 e es2 w w' _ _ _ hempty
  contradiction

def emptyConfig : Config :=
  { sampleConfig with file := [] }

def emptyFinished : World :=
  (StepFn.run (step emptyConfig) (init emptyConfig)
    [.sendRequest, .request .request, .start, .finish]).get (by decide +kernel)

theorem not_concludes_empty
    : ¬ StepFn.Along (step emptyConfig) (Concludes emptyConfig) (init emptyConfig)
          [
            .sendRequest, .request .request, .start, .finish,
            .handshake (.terminal (DataPacket.new [] 1))
          ] := by
  intro h
  have hconcludes := h [.sendRequest, .request .request, .start, .finish]
    (.handshake (.terminal (DataPacket.new [] 1))) [] emptyFinished
    ((step emptyConfig emptyFinished (.handshake (.terminal (DataPacket.new [] 1)))).get
      (by decide +kernel)) rfl (Option.some_get _).symm (Option.some_get _).symm
  have hdone := (hconcludes (.inl rfl)).1
  revert hdone
  decide +kernel

end Transfer
