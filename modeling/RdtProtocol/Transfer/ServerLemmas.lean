import RdtProtocol.Server.Strategy.GoBackNLemmas
import RdtProtocol.Server.Strategy.SelectiveRepeatTimer
import RdtProtocol.Server.Strategy.StopAndWaitLemmas
import RdtProtocol.Transfer.Basic

/-!
This module collects what the proofs about a transfer use of its sender. What depends on the numbering
or on the timer is only about the two modes that number from 1 on.
-/

namespace Transfer

/--
The numbers of a go back N transfer start at 0, and no size is too large for the arithmetic of its fields.
-/
structure Config.Valid (cfg : Config) : Prop where
  nextSeqNumber : cfg.mode = .goBackN → cfg.nextSeqNumber = 0
  maxWindowSize : cfg.mode = .selectiveRepeat → 1 ≤ cfg.maxWindowSize ∧ cfg.maxWindowSize < 2 ^ 31 - 1
  one_le_clientWindowSize : 1 ≤ cfg.clientWindowSize
  clientWindowSize_lt : cfg.clientWindowSize < 2 ^ 31
  length_chunks_lt : (cfg.file.chunks MAX_DATA_SIZE).length < 2 ^ 32 - 1

def ServerInv (cfg : Config) (s : RdtStrategy) : Prop :=
  match cfg.mode with
  | .stopAndWait => s.InOrder 1 cfg.file 1 ∧ s.Fresh
  | .selectiveRepeat => SelectiveRepeat.Inv cfg.file cfg.maxWindowSize s ∧ SelectiveRepeat.Settled s
  | .goBackN => s.InOrder 0 cfg.file GoBackN.DEFAULT_WINDOW_SIZE ∧ s.Fresh

variable {cfg : Config} {s : RdtStrategy}

theorem serverInv_newStrategy (hcfg : cfg.Valid) : ServerInv cfg (newStrategy cfg) := by
  unfold ServerInv newStrategy Mode.newStrategy
  cases hmode : cfg.mode with
  | stopAndWait =>
    obtain ⟨hinv, hfresh, _⟩ := StopAndWait.inOrder_new cfg.file
    exact ⟨hinv, hfresh⟩
  | selectiveRepeat =>
    obtain ⟨hinv, hset, _⟩ := SelectiveRepeat.inv_new cfg.file (hcfg.maxWindowSize hmode).1
    exact ⟨hinv, hset⟩
  | goBackN =>
    obtain ⟨hinv, hfresh, _⟩ := GoBackN.inOrder_new 0 cfg.file cfg.maxWindowSize cfg.threshold
    rw [hcfg.nextSeqNumber hmode]
    exact ⟨hinv, hfresh⟩

theorem heap_newStrategy (cfg : Config) : (newStrategy cfg).heap = fun _ => {} := by
  unfold newStrategy Mode.newStrategy
  cases cfg.mode
  all_goals apply RdtStrategy.heap_new

theorem unackedPackets_newStrategy (cfg : Config) : (newStrategy cfg).unackedPackets = [] := by
  unfold newStrategy Mode.newStrategy
  cases cfg.mode
  all_goals apply RdtStrategy.unackedPackets_new

theorem serverInv_start (hcfg : cfg.Valid) : ServerInv cfg (start cfg (newStrategy cfg)) := by
  have hnew := serverInv_newStrategy hcfg
  unfold ServerInv start newStrategy Mode.start Mode.newStrategy at *
  cases hmode : cfg.mode with
  | stopAndWait =>
    simp only [hmode] at hnew
    exact StopAndWait.inOrder_start hnew.1 hnew.2 cfg.env
  | selectiveRepeat =>
    simp only [hmode] at hnew
    obtain ⟨_, _, hlen, _⟩ := SelectiveRepeat.inv_new cfg.file (hcfg.maxWindowSize hmode).1
    exact SelectiveRepeat.inv_start hnew.1 hnew.2 hlen hcfg.length_chunks_lt cfg.env
  | goBackN =>
    simp only [hmode] at hnew
    exact GoBackN.inOrder_start hnew.1 hnew.2 cfg.env

theorem serverInv_acknowledgePacket (hcfg : cfg.Valid) (h : ServerInv cfg s) (ackPkt : AckPacket)
    : ServerInv cfg (acknowledgePacket cfg s ackPkt) := by
  unfold ServerInv acknowledgePacket Mode.acknowledgePacket at *
  cases hmode : cfg.mode with
  | stopAndWait =>
    simp only [hmode] at h
    exact StopAndWait.inOrder_acknowledgePacket h.1 h.2 cfg.env ackPkt
  | selectiveRepeat =>
    simp only [hmode] at h
    exact SelectiveRepeat.inv_acknowledgePacket h.1 h.2 hcfg.length_chunks_lt
      (hcfg.maxWindowSize hmode).2 cfg.env ackPkt
  | goBackN =>
    simp only [hmode] at h
    exact GoBackN.inOrder_acknowledgePacket h.1 h.2 cfg.env ackPkt

theorem serverInv_handleTimeOut (hcfg : cfg.Valid) (h : ServerInv cfg s)
    : ServerInv cfg (handleTimeOut cfg s) := by
  unfold ServerInv handleTimeOut Mode.handleTimeOut at *
  cases hmode : cfg.mode with
  | stopAndWait =>
    simp only [hmode] at h
    exact StopAndWait.inOrder_handleTimeOut h.1 h.2 cfg.env
  | selectiveRepeat =>
    simp only [hmode] at h
    exact SelectiveRepeat.inv_handleTimeOut h.1 h.2 hcfg.length_chunks_lt cfg.env
  | goBackN => simpa only [hmode] using h

theorem serverInv_resend (hmode : cfg.mode = .goBackN) (h : ServerInv cfg s) {p : PacketPtr}
    (hp : p ∈ s.window)
    : ServerInv cfg (GoBackN.resend cfg.env s p) := by
  simp only [ServerInv, hmode] at *
  exact GoBackN.inOrder_resend h.1 h.2 cfg.env hp

theorem serverInv_timeOut (hmode : cfg.mode = .goBackN) (h : ServerInv cfg s) {p : PacketPtr}
    (hp : p ∈ s.unackedPackets)
    : ServerInv cfg (GoBackN.timeOut cfg.env s p) := by
  simp only [ServerInv, hmode] at *
  exact GoBackN.inOrder_timeOut h.1 h.2 cfg.env hp

structure ServerStep (cfg : Config) (acked : UInt32 → Prop) (s t : RdtStrategy) : Prop where
  inv : ServerInv cfg t
  popped_prefix : s.popped <+: t.popped
  isAcked : ∀ p ∈ packets 1 cfg.file, t.heap.isAcked p = true
    → s.heap.isAcked p = true ∨ acked p.packet.seqno

section

variable (hmode : cfg.mode ≠ .goBackN)
include hmode

theorem inv_of_serverInv (h : ServerInv cfg s) : s.Inv 1 cfg.file := by
  unfold ServerInv at h
  cases hm : cfg.mode with
  | stopAndWait =>
    simp only [hm] at h
    exact h.1.toInv
  | selectiveRepeat =>
    simp only [hm] at h
    exact h.1.toInv
  | goBackN => contradiction

theorem serverStep_start (hcfg : cfg.Valid)
    : ServerStep cfg (fun _ => False) (newStrategy cfg) (start cfg (newStrategy cfg)) := by
  have hnew := serverInv_newStrategy hcfg
  refine ⟨serverInv_start hcfg, ?_, ?_⟩
  all_goals
    unfold ServerInv start newStrategy Mode.start Mode.newStrategy at *
    cases hm : cfg.mode with
    | stopAndWait =>
      simp only [hm] at hnew
      simp [StopAndWait.popped_start hnew.1, StopAndWait.isAcked_start hnew.1]
    | selectiveRepeat =>
      obtain ⟨_, _, hlen, _⟩ := SelectiveRepeat.inv_new cfg.file (hcfg.maxWindowSize hm).1
      simp [SelectiveRepeat.popped_start cfg.env hlen, SelectiveRepeat.isAcked_start cfg.env hlen]
    | goBackN => contradiction

theorem serverStep_acknowledgePacket (hcfg : cfg.Valid) (h : ServerInv cfg s) (ackPkt : AckPacket)
    : ServerStep cfg (· = ackPkt.ackno) s (acknowledgePacket cfg s ackPkt) := by
  have hinv := serverInv_acknowledgePacket hcfg h ackPkt
  cases hm : cfg.mode with
  | stopAndWait =>
    have heq : acknowledgePacket cfg s ackPkt = StopAndWait.acknowledgePacket cfg.env s ackPkt := by
      simp only [acknowledgePacket, hm, Mode.acknowledgePacket]
    simp only [ServerInv, hm] at h
    rw [heq] at hinv ⊢
    refine ⟨hinv, ?_, ?_⟩
    . exact StopAndWait.popped_prefix_acknowledgePacket h.1 h.2 cfg.env ackPkt
    . intro p
      exact StopAndWait.isAcked_acknowledgePacket h.1 h.2 cfg.env ackPkt
  | selectiveRepeat =>
    have heq : acknowledgePacket cfg s ackPkt = SelectiveRepeat.acknowledgePacket cfg.env s ackPkt := by
      simp only [acknowledgePacket, hm, Mode.acknowledgePacket]
    simp only [ServerInv, hm] at h
    rw [heq] at hinv ⊢
    refine ⟨hinv, ?_, ?_⟩
    . exact SelectiveRepeat.popped_prefix_acknowledgePacket cfg.env s ackPkt
    . intro p
      exact SelectiveRepeat.isAcked_acknowledgePacket h.1 cfg.env ackPkt
  | goBackN => contradiction

theorem serverStep_handleTimeOut (hcfg : cfg.Valid) (h : ServerInv cfg s)
    : ServerStep cfg (fun _ => False) s (handleTimeOut cfg s) := by
  refine ⟨serverInv_handleTimeOut hcfg h, ?_, ?_⟩
  all_goals
    unfold handleTimeOut Mode.handleTimeOut
    cases hm : cfg.mode with
    | stopAndWait => simp [StopAndWait.popped_handleTimeOut, StopAndWait.isAcked_handleTimeOut]
    | selectiveRepeat =>
      simp [SelectiveRepeat.popped_handleTimeOut, SelectiveRepeat.isAcked_handleTimeOut]
    | goBackN => contradiction

theorem popped_eq_of_isDone (h : ServerInv cfg s) (hdone : s.isDone = true)
    : s.popped = packets 1 cfg.file ∧ s.pending = [] := by
  have hwindow : s.window = [] := List.isEmpty_iff.mp hdone
  have hcontent := (inv_of_serverInv hmode h).content
  have hrest : s.auxWindow = [] ∧ s.pending = [] := by
    unfold ServerInv at h
    cases hm : cfg.mode with
    | stopAndWait =>
      simp only [hm] at h
      exact h.1.rest_eq_nil (by decide) hwindow
    | selectiveRepeat =>
      simp only [hm] at h
      exact h.2.empty hwindow
    | goBackN => contradiction
  refine ⟨?_, hrest.2⟩
  simpa [hwindow, hrest] using hcontent

theorem timerInv_start (hcfg : cfg.Valid) (hclock : StrictMono cfg.env.now)
    : (start cfg (newStrategy cfg)).TimerInv cfg.env := by
  have hnew := serverInv_newStrategy hcfg
  have hunacked := unackedPackets_newStrategy cfg
  unfold ServerInv start newStrategy Mode.start Mode.newStrategy at *
  cases hm : cfg.mode with
  | stopAndWait =>
    simp only [hm] at hnew hunacked
    exact StopAndWait.timerInv_start hnew.1 hnew.2 hunacked hclock
  | selectiveRepeat =>
    simp only [hm] at hnew hunacked
    obtain ⟨_, _, hlen, _⟩ := SelectiveRepeat.inv_new cfg.file (hcfg.maxWindowSize hm).1
    exact SelectiveRepeat.timerInv_start hnew.2 hlen hunacked hclock
  | goBackN => contradiction

theorem timerInv_acknowledgePacket (hcfg : cfg.Valid) (hclock : StrictMono cfg.env.now)
    (h : ServerInv cfg s) (ht : s.TimerInv cfg.env) (ackPkt : AckPacket)
    : (acknowledgePacket cfg s ackPkt).TimerInv cfg.env := by
  unfold ServerInv acknowledgePacket Mode.acknowledgePacket at *
  cases hm : cfg.mode with
  | stopAndWait =>
    simp only [hm] at h
    exact StopAndWait.timerInv_acknowledgePacket h.1 h.2 ht hclock ackPkt
  | selectiveRepeat =>
    simp only [hm] at h
    exact SelectiveRepeat.timerInv_acknowledgePacket h.1 ht hclock hcfg.length_chunks_lt
      (hcfg.maxWindowSize hm).2 ackPkt
  | goBackN => contradiction

theorem timerInv_handleTimeOut (hclock : StrictMono cfg.env.now) (h : ServerInv cfg s)
    (ht : s.TimerInv cfg.env)
    : (handleTimeOut cfg s).TimerInv cfg.env := by
  unfold ServerInv handleTimeOut Mode.handleTimeOut at *
  cases hm : cfg.mode with
  | stopAndWait =>
    simp only [hm] at h
    exact StopAndWait.timerInv_handleTimeOut h.1 h.2 ht hclock
  | selectiveRepeat =>
    simp only [hm] at h
    exact SelectiveRepeat.timerInv_handleTimeOut h.2 ht hclock
  | goBackN => contradiction

variable {p : PacketPtr}

theorem head?_unackedPackets (h : ServerInv cfg s) (ht : s.TimerInv cfg.env)
    : s.unackedPackets.head? = s.window.head? := by
  unfold ServerInv at h
  cases hm : cfg.mode with
  | stopAndWait =>
    simp only [hm] at h
    rw [StopAndWait.unackedPackets_eq h.2 ht]
  | selectiveRepeat =>
    simp only [hm] at h
    exact SelectiveRepeat.head?_unackedPackets h.2.front ht.unackedPackets_eq
  | goBackN => contradiction

theorem handleTimeOut_of_front (h : ServerInv cfg s) (ht : s.TimerInv cfg.env)
    (hp : s.window.head? = some p)
    : (handleTimeOut cfg s).sent = s.sent ++ [p]
        ∧ (handleTimeOut cfg s).window.head? = some p
        ∧ (handleTimeOut cfg s).popped = s.popped := by
  unfold ServerInv handleTimeOut Mode.handleTimeOut at *
  cases hm : cfg.mode with
  | stopAndWait =>
    simp only [hm] at h
    have hwindow := StopAndWait.window_eq_singleton h.1 hp
    simp [StopAndWait.handleTimeOut_of_singleton h.2 ht hwindow, hp]
  | selectiveRepeat =>
    simp only [hm] at h
    obtain ⟨rest, hwindow⟩ := List.head?_eq_some_iff.mp hp
    obtain ⟨heq, hshrunk, _⟩ :=
      SelectiveRepeat.handleTimeOut_of_cons h.2.front ht.unackedPackets_eq cfg.env hwindow
    simp [heq, hshrunk]
  | goBackN => contradiction

theorem length_popped_acknowledgePacket (h : ServerInv cfg s) (hp : s.window.head? = some p)
    : s.popped.length
        < (acknowledgePacket cfg s (AckPacket.new p.packet.seqno)).popped.length := by
  unfold ServerInv acknowledgePacket Mode.acknowledgePacket at *
  cases hm : cfg.mode with
  | stopAndWait =>
    simp only [hm] at h
    exact StopAndWait.length_popped_acknowledgePacket h.1 h.2 cfg.env hp
  | selectiveRepeat =>
    simp only [hm] at h
    exact SelectiveRepeat.length_popped_acknowledgePacket h.2 cfg.env hp
  | goBackN => contradiction

end

end Transfer
