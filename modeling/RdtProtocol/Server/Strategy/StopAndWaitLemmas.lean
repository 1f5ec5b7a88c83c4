import RdtProtocol.Server.Strategy.InOrder
import RdtProtocol.Server.Strategy.StopAndWait

/-!
This module proves that the stop and wait sender keeps the invariants of its window and of its timer.
-/

namespace StopAndWait

theorem inOrder_new (file : Bytes)
    : (new (File.regular file) 1 1).InOrder 1 file 1 ∧ (new (File.regular file) 1 1).Fresh
        ∧ (new (File.regular file) 1 1).unackedPackets = [] := by
  obtain ⟨hinv, hfresh, _, hunacked⟩ :=
    RdtStrategy.inOrder_new 1 file 1 1 (show (0 : Int) < 1 by decide) (by decide)
  exact ⟨hinv, hfresh, hunacked⟩

variable {first : UInt32} {file : Bytes} {env : Env} {s : RdtStrategy} {p : PacketPtr}

theorem window_eq_singleton (h : s.InOrder first file 1) (hp : s.window.head? = some p)
    : s.window = [p] := by
  have hlen : s.window.length ≤ 1 := h.length_window_le
  cases hw : s.window with
  | nil => simp [hw] at hp
  | cons q rest =>
    rw [hw, List.length_cons] at hlen
    have hrest : rest = [] := List.length_eq_zero_iff.mp (by omega)
    simp only [hw, List.head?_cons, Option.some.injEq] at hp
    rw [hp, hrest]

theorem acknowledgePacket_cases (h : s.InOrder first file 1) (hs : s.Fresh) (env : Env)
    (ackPkt : AckPacket)
    : (acknowledgePacket env s ackPkt = s ∧ ∀ p ∈ s.window, p.packet.seqno ≠ ackPkt.ackno)
        ∨ ∃ p, s.window = [p] ∧ p.packet.seqno = ackPkt.ackno
            ∧ acknowledgePacket env s ackPkt
                = ((s.setAck p true).eraseUnacked p).advanceWindow env := by
  unfold acknowledgePacket
  split
  . next p hfind =>
    have hp := List.mem_of_find?_eq_some hfind
    have hackno := List.find?_some hfind
    simp only [decide_eq_true_eq] at hackno
    have hwindow : s.window = [p] := by
      cases hw : s.window with
      | nil => simp [hw] at hp
      | cons q rest =>
        have hsingle := window_eq_singleton h (p := q) (by simp [hw])
        rw [hsingle, List.mem_singleton] at hp
        rw [← hw, hsingle, hp]
    have hacked := hs.not_acked p (by simp [hwindow])
    refine .inr ⟨p, hwindow, hackno.symm, ?_⟩
    simp [hacked, hwindow]
  . next hfind =>
    refine .inl ⟨rfl, ?_⟩
    intro p hp heq
    have := List.find?_eq_none.mp hfind p hp
    simp [heq] at this

theorem advanceWindow_setAck (h : s.InOrder first file 1) (hs : s.Fresh) (hwindow : s.window = [p])
    (env : Env)
    : let t := ((s.setAck p true).eraseUnacked p).advanceWindow env
      t.InOrder first file 1 ∧ t.Fresh ∧ t.popped = s.popped ++ [p]
        ∧ (StrictMono env.now → s.TimerInv env → t.TimerInv env) := by
  have hp : p ∈ s.window := by simp [hwindow]
  have hsplit : s.window = [p] ++ [] := hwindow
  have hpre := h.ackedPrefix_setAcks hs hsplit (fun _ => Iff.rfl)
  obtain ⟨hinv, hfresh, hpopped, _, htimer⟩ :=
    RdtStrategy.advanceWindow_spec (h.setAck hp) hpre env
  refine ⟨hinv, hfresh, hpopped, ?_⟩
  intro hclock ht
  apply htimer hclock
  apply ht.setAck hp
  intro q hq _
  simpa [hwindow] using hq

theorem inOrder_acknowledgePacket (h : s.InOrder first file 1) (hs : s.Fresh) (env : Env)
    (ackPkt : AckPacket)
    : (acknowledgePacket env s ackPkt).InOrder first file 1
        ∧ (acknowledgePacket env s ackPkt).Fresh := by
  cases acknowledgePacket_cases h hs env ackPkt with
  | inl heq =>
    rw [heq.1]
    exact ⟨h, hs⟩
  | inr hex =>
    obtain ⟨p, hwindow, _, heq⟩ := hex
    obtain ⟨hinv, hfresh, _⟩ := advanceWindow_setAck h hs hwindow env
    rw [heq]
    exact ⟨hinv, hfresh⟩

theorem popped_prefix_acknowledgePacket (h : s.InOrder first file 1) (hs : s.Fresh) (env : Env)
    (ackPkt : AckPacket)
    : s.popped <+: (acknowledgePacket env s ackPkt).popped := by
  cases acknowledgePacket_cases h hs env ackPkt with
  | inl heq => simp only [heq.1, List.prefix_rfl]
  | inr hex =>
    obtain ⟨p, hwindow, _, heq⟩ := hex
    obtain ⟨_, _, hpopped, _⟩ := advanceWindow_setAck h hs hwindow env
    rw [heq, hpopped]
    apply List.prefix_append

theorem isAcked_acknowledgePacket (h : s.InOrder first file 1) (hs : s.Fresh) (env : Env)
    (ackPkt : AckPacket) (hp : p ∈ packets first file)
    (hacked : (acknowledgePacket env s ackPkt).heap.isAcked p = true)
    : s.heap.isAcked p = true ∨ p.packet.seqno = ackPkt.ackno := by
  cases acknowledgePacket_cases h hs env ackPkt with
  | inl heq =>
    rw [heq.1] at hacked
    exact .inl hacked
  | inr hex =>
    obtain ⟨q, hwindow, hseqno, heq⟩ := hex
    rw [heq, RdtStrategy.isAcked_advanceWindow, RdtStrategy.heap_eraseUnacked,
      RdtStrategy.heap_setAck, Heap.isAcked_setAck] at hacked
    split at hacked
    . next haddr =>
      have hq : q ∈ s.window := by simp [hwindow]
      rw [eq_of_mem_packets_of_addr_eq hp (h.mem_of_mem_window hq) haddr]
      exact .inr hseqno
    . exact .inl hacked

theorem length_popped_acknowledgePacket (h : s.InOrder first file 1) (hs : s.Fresh) (env : Env)
    (hp : s.window.head? = some p)
    : s.popped.length < (acknowledgePacket env s (AckPacket.new p.packet.seqno)).popped.length := by
  have hmem : p ∈ s.window := List.mem_of_mem_head? hp
  cases acknowledgePacket_cases h hs env (AckPacket.new p.packet.seqno) with
  | inl heq => exact absurd rfl (heq.2 p hmem)
  | inr hex =>
    obtain ⟨q, hwindow, _, heq⟩ := hex
    obtain ⟨_, _, hpopped, _⟩ := advanceWindow_setAck h hs hwindow env
    rw [heq, hpopped, List.length_append]
    simp

theorem popped_handleTimeOut (env : Env) (s : RdtStrategy)
    : (handleTimeOut env s).popped = s.popped := by
  unfold handleTimeOut
  split <;> rfl

theorem isAcked_handleTimeOut (env : Env) (s : RdtStrategy) (p : PacketPtr)
    : (handleTimeOut env s).heap.isAcked p = s.heap.isAcked p := by
  unfold handleTimeOut
  split
  . rfl
  . simp [sendPacket]

theorem timerInv_acknowledgePacket (h : s.InOrder first file 1) (hs : s.Fresh) (ht : s.TimerInv env)
    (hclock : StrictMono env.now) (ackPkt : AckPacket)
    : (acknowledgePacket env s ackPkt).TimerInv env := by
  cases acknowledgePacket_cases h hs env ackPkt with
  | inl heq =>
    rw [heq.1]
    exact ht
  | inr hex =>
    obtain ⟨p, hwindow, _, heq⟩ := hex
    obtain ⟨_, _, _, htimer⟩ := advanceWindow_setAck h hs hwindow env
    rw [heq]
    exact htimer hclock ht

theorem inOrder_handleTimeOut (h : s.InOrder first file 1) (hs : s.Fresh) (env : Env)
    : (handleTimeOut env s).InOrder first file 1 ∧ (handleTimeOut env s).Fresh := by
  unfold handleTimeOut
  split
  . exact ⟨h, hs⟩
  . next first _ hunacked =>
    obtain ⟨hmem, hacked⟩ := h.unacked_sub first (by simp [hunacked])
    refine ⟨(h.eraseUnacked first).transmit env hmem hacked, ?_⟩
    apply RdtStrategy.fresh_transmit
    exact ⟨rfl, by simp, hs.not_acked⟩

theorem unackedPackets_eq (hs : s.Fresh) (ht : s.TimerInv env) : s.unackedPackets = s.window := by
  rw [ht.unackedPackets_eq, List.filter_eq_self]
  intro q hq
  simpa using hs.not_acked q (by simp [hq])

theorem handleTimeOut_of_singleton (hs : s.Fresh) (ht : s.TimerInv env) (hwindow : s.window = [p])
    : handleTimeOut env s = (s.eraseUnacked p).transmit env p := by
  have hunacked := unackedPackets_eq hs ht
  rw [hwindow] at hunacked
  unfold handleTimeOut sendPacket
  split
  . next hnil => simp [hnil] at hunacked
  . next hcons =>
    rw [hcons, List.cons.injEq] at hunacked
    rw [hunacked.1]

theorem timerInv_handleTimeOut (h : s.InOrder first file 1) (hs : s.Fresh) (ht : s.TimerInv env)
    (hclock : StrictMono env.now)
    : (handleTimeOut env s).TimerInv env := by
  have hunacked := unackedPackets_eq hs ht
  cases hwindow : s.window with
  | nil =>
    rw [hwindow] at hunacked
    unfold handleTimeOut
    simpa [hunacked] using ht
  | cons p rest =>
    have hw := window_eq_singleton h (p := p) (by simp [hwindow])
    rw [handleTimeOut_of_singleton hs ht hw]
    apply RdtStrategy.TimerInv.transmit_singleton hclock
    . exact hw
    . simp [hunacked, hw, OrderedSet.erase]
    . exact hs.not_acked p (by simp [hw])

theorem start_cases (h : s.InOrder first file 1) (env : Env)
    : s.window = [] ∧ start env s = s ∨ ∃ p, s.window = [p] ∧ start env s = s.transmit env p := by
  unfold start
  cases hwindow : s.window with
  | nil => exact .inl ⟨rfl, rfl⟩
  | cons p rest =>
    have hw := window_eq_singleton h (p := p) (by simp [hwindow])
    rw [hwindow] at hw
    rw [hw]
    exact .inr ⟨p, rfl, rfl⟩

theorem popped_start (h : s.InOrder first file 1) (env : Env) : (start env s).popped = s.popped := by
  cases start_cases h env with
  | inl heq => rw [heq.2]
  | inr hex =>
    obtain ⟨p, _, heq⟩ := hex
    rw [heq, RdtStrategy.popped_transmit]

theorem isAcked_start (h : s.InOrder first file 1) (env : Env) (p : PacketPtr)
    : (start env s).heap.isAcked p = s.heap.isAcked p := by
  cases start_cases h env with
  | inl heq => rw [heq.2]
  | inr hex =>
    obtain ⟨q, _, heq⟩ := hex
    rw [heq, RdtStrategy.heap_transmit, Heap.isAcked_setTimeStamp]

theorem inOrder_start (h : s.InOrder first file 1) (hs : s.Fresh) (env : Env)
    : (start env s).InOrder first file 1 ∧ (start env s).Fresh := by
  cases start_cases h env with
  | inl heq =>
    rw [heq.2]
    exact ⟨h, hs⟩
  | inr hex =>
    obtain ⟨p, hwindow, heq⟩ := hex
    rw [heq]
    refine ⟨h.transmit env (by simp [hwindow]) ?_, RdtStrategy.fresh_transmit hs env p⟩
    exact hs.not_acked p (by simp [hwindow])

theorem timerInv_start (h : s.InOrder first file 1) (hs : s.Fresh) (hunacked : s.unackedPackets = [])
    (hclock : StrictMono env.now)
    : (start env s).TimerInv env := by
  cases start_cases h env with
  | inl heq =>
    rw [heq.2]
    refine ⟨by simp [heq.1], by simp [heq.1], by simp [heq.1, hunacked]⟩
  | inr hex =>
    obtain ⟨p, hwindow, heq⟩ := hex
    rw [heq]
    apply RdtStrategy.TimerInv.transmit_singleton hclock hwindow hunacked
    exact hs.not_acked p (by simp [hwindow])

end StopAndWait
