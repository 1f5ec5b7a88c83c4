import RdtProtocol.Server.BasicLemmas
import RdtProtocol.Server.PacketSenderLemmas
import RdtProtocol.Server.Strategy.InterleavingRuns

/-!
This module contains what keeps a server going whose configuration does not stop `packet_sender`, as long
as it is not in go back N.
-/

structure PacketSenderConfig.Usable (cfg : PacketSenderConfig Nat) : Prop where
  lossSequence_ne_nil : cfg.lossSequence ≠ []
  entry_ne_zero : ∀ x ∈ cfg.lossSequence, uint64 x ≠ 0

namespace Server

structure Operational (cfg : Config) (s : Server) : Prop where
  sender : s.sender.lossSequenceIndex < cfg.packetSender.lossSequence.length
  free : ∀ u ∈ s.workers, u.stuck = false ∧ u.phase ≠ .blocked

variable {cfg : Config} {s s' : Server} {e : Event} {buffer : Nat → UInt8}

theorem operational_init (h : cfg.packetSender.Usable) : Operational cfg (init buffer) :=
  ⟨List.length_pos_of_ne_nil h.lossSequence_ne_nil, by simp [init]⟩

theorem Operational.send (husable : cfg.packetSender.Usable) (h : Operational cfg s) (sent : Nat)
    (rdt : RdtStrategy)
    : ∃ sender, s.send cfg sent rdt = some sender
        ∧ sender.lossSequenceIndex < cfg.packetSender.lossSequence.length :=
  PacketSender.sendAll_of_ne_zero husable.entry_ne_zero _ h.sender

theorem Operational.of_send (husable : cfg.packetSender.Usable) (h : Operational cfg s) {sent : Nat}
    {rdt : RdtStrategy} {sender : PacketSender} (hsend : s.send cfg sent rdt = some sender)
    : sender.lossSequenceIndex < cfg.packetSender.lossSequence.length := by
  obtain ⟨sender', hsend', hlt⟩ := h.send husable sent rdt
  rw [hsend, Option.some.injEq] at hsend'
  exact hsend' ▸ hlt

theorem Operational.setWorker (h : Operational cfg s) {t : Server} {id : Nat} {u : Worker}
    (hsender : t.sender.lossSequenceIndex < cfg.packetSender.lossSequence.length)
    (hworkers : t.workers = s.workers) (hu : u.stuck = false ∧ u.phase ≠ .blocked)
    : Operational cfg (t.setWorker id u) := by
  refine ⟨hsender, ?_⟩
  intro v hv
  cases List.mem_or_eq_of_mem_set hv with
  | inl hv => exact h.free v (hworkers ▸ hv)
  | inr heq => exact heq ▸ hu

theorem Operational.step (husable : cfg.packetSender.Usable) (hmode : cfg.mode ≠ .goBackN)
    (h : Operational cfg s) (hs : Step cfg s e s')
    : Operational cfg s' := by
  have hfree {id : Nat} {u : Worker} (hu : s.workers[id]? = some u) : u.stuck = false :=
    (h.free u (List.mem_of_getElem? hu)).1
  cases hs with
  | ack | malformed | register | insert | nullPointer | crash => exact ⟨h.sender, h.free⟩
  | request =>
    refine ⟨h.sender, ?_⟩
    intro u hu
    simp only [dispatch, recvfrom, List.mem_append, List.mem_singleton] at hu
    cases hu with
    | inl hu => exact h.free u hu
    | inr heq => simp [heq, Worker.new]
  | construct hu _ _ _ hsend =>
    have hstuck := hfree hu
    exact h.setWorker (h.of_send husable hsend) rfl ⟨hstuck, by simp⟩
  | skip hu hphase =>
    have hstuck := hfree hu
    exact h.setWorker h.sender rfl ⟨hstuck, by simp [hphase]⟩
  | block hu _ _ _ _ _ hstuck => simp [hfree hu] at hstuck
  | takeAck hu hphase _ _ _ _ hstuck _ hsend =>
    exact h.setWorker (h.of_send husable hsend) rfl ⟨hstuck, by simp [hphase]⟩
  | timeOut hu _ _ _ _ _ hsend =>
    refine h.setWorker (h.of_send husable hsend) rfl ⟨by simp [hmode], ?_⟩
    exact (h.free _ (List.mem_of_getElem? hu)).2
  | finish hu | finalize hu =>
    have hstuck := hfree hu
    exact h.setWorker h.sender rfl ⟨hstuck, by simp⟩

theorem acknowledgePacket_of_acknowledged_eq_nil {mode : Mode} (hmode : mode ≠ .goBackN) (env : Env)
    {rdt : RdtStrategy} {ack : AckPacket} (h : acknowledged mode rdt ack = [])
    : mode.acknowledgePacket env rdt ack = rdt := by
  apply Interleaving.acknowledgePacket_of_find_none hmode
  rw [← Option.toList_eq_nil_iff]
  cases mode with
  | goBackN => contradiction
  | stopAndWait => exact h
  | selectiveRepeat => exact h

end Server
