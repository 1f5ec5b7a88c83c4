import RdtProtocol.Server.Strategy.InterleavingLemmas

/-!
This module contains what the selective repeat sender keeps whatever the size of its window is and however
long the file is: where the packets of the file are, and that those it has put into the window are sent.
-/

def RdtStrategy.places (s : RdtStrategy) : List PacketPtr :=
  s.popped ++ (s.window ++ (s.auxWindow ++ s.pending))

namespace SelectiveRepeat

open Interleaving (Front Taken)

structure Kept (file : Bytes) (s : RdtStrategy) : Prop where
  builder : s.pktBuilder.WF
  subperm : s.places.Subperm (packets 1 file)
  -- The auxiliary window drops a packet if it already has one with the same number.
  perm : (file.chunks MAX_DATA_SIZE).length ≤ 2 ^ 32 → s.places.Perm (packets 1 file)
  popped_acked : ∀ p ∈ s.popped, s.heap.isAcked p = true
  sent : ∀ p ∈ s.popped ++ s.window, p ∈ s.sent
  front : Front s

namespace Kept

variable {file : Bytes} {env : Env} {s t : RdtStrategy} {p : PacketPtr}

theorem mem_packets (h : Kept file s) (hp : p ∈ s.places) : p ∈ packets 1 file :=
  h.subperm.subset hp

theorem distinct (h : Kept file s) : s.places.Pairwise (fun p q => p.addr ≠ q.addr) := by
  obtain ⟨l, hperm, hsub⟩ := h.subperm
  apply (hperm.pairwise_iff (fun hne => hne.symm)).mp
  apply List.Pairwise.sublist hsub
  exact (pairwise_addr_packets 1 file).imp (fun hlt => Nat.ne_of_lt hlt)

theorem eq_of_addr_eq (h : Kept file s) {q : PacketPtr} (hp : p ∈ s.window) (hq : q ∈ s.window)
    (heq : q.addr = p.addr)
    : q = p := by
  have hp := h.mem_packets (p := p) (by simp [RdtStrategy.places, hp])
  have hq := h.mem_packets (p := q) (by simp [RdtStrategy.places, hq])
  exact eq_of_mem_packets_of_addr_eq hq hp heq

theorem eraseUnacked (h : Kept file s) (p : PacketPtr) : Kept file (s.eraseUnacked p) :=
  ⟨h.builder, h.subperm, h.perm, h.popped_acked, h.sent, h.front⟩

theorem transmit (h : Kept file s) (env : Env) (p : PacketPtr) : Kept file (s.transmit env p) := by
  refine ⟨h.builder, h.subperm, h.perm, ?_, ?_, ?_⟩
  . simpa using h.popped_acked
  . intro q hq
    rw [RdtStrategy.sent_transmit]
    exact List.mem_append_left _ (h.sent q hq)
  . intro q hq
    rw [RdtStrategy.heap_transmit, Heap.isAcked_setTimeStamp]
    exact h.front q hq

theorem adjustWindowSize (h : Kept file s) : Kept file (adjustWindowSize s) :=
  ⟨h.builder, h.subperm, h.perm, h.popped_acked, h.sent, h.front⟩

theorem shrinkWindow (h : Kept file s) (newSize : Int) : Kept file (shrinkWindow s newSize) := by
  have hfront := head?_shrinkWindow s newSize
  rw [shrinkWindow_eq] at hfront ⊢
  dsimp only at hfront ⊢
  generalize sizeT (if newSize < 1 then 1 else newSize) = k at hfront ⊢
  have hsplit : s.places
      = (s.popped ++ s.window.take k) ++ ((s.window.drop k ++ s.auxWindow) ++ s.pending) := by
    simp only [RdtStrategy.places]
    conv => lhs; rw [← List.take_append_drop k s.window]
    simp only [List.append_assoc]
  refine ⟨h.builder, ?_, ?_, h.popped_acked, ?_, ?_⟩
  . apply List.Subperm.trans _ h.subperm
    rw [hsplit, RdtStrategy.places, ← List.append_assoc]
    apply (List.subperm_append_left _).mpr
    apply (List.subperm_append_right _).mpr
    exact Interleaving.subperm_foldl_insert _ _
  . intro hN
    apply List.Perm.trans _ (h.perm hN)
    rw [hsplit, RdtStrategy.places, ← List.append_assoc]
    apply List.Perm.append_left
    apply List.Perm.append_right
    apply OrderedSet.perm_foldl_insert
    have hseqno := ((h.perm hN).pairwise_iff (fun hne => hne.symm)).mpr (pairwise_seqno_packets hN)
    rw [hsplit] at hseqno
    exact (List.pairwise_append.mp (List.pairwise_append.mp hseqno).2.1).1
  . intro q hq
    apply h.sent
    rw [List.mem_append] at hq ⊢
    exact hq.imp_right List.mem_of_mem_take
  . intro q hq
    apply h.front
    exact hfront ▸ hq

theorem sendPacket (h : Kept file (s.transmit env p)) : Kept file (sendPacket env s p) := by
  cases sendPacket_cases env s p with
  | inl heq =>
    rw [heq]
    exact h
  | inr heq =>
    rw [heq]
    apply h.shrinkWindow

theorem addr_popped_ne (h : Kept file s) {q : PacketPtr} (hq : q ∈ s.popped)
    (hp : p ∈ s.window ++ (s.auxWindow ++ s.pending))
    : q.addr ≠ p.addr :=
  (List.pairwise_append.mp h.distinct).2.2 q hq p hp

theorem pushAndSend (h : Kept file s) (env : Env) (hnext : takeNext s = some (p, t))
    : Kept file (pushAndSend env t p) := by
  have hfront : Front (SelectiveRepeat.pushAndSend env t p) := front_pushAndSend hnext h.front
  have htaken : Taken s p t := Interleaving.taken_takeNext h.builder hnext
  have hplaces : ({ t.setAck p false with window := t.window ++ [p] } : RdtStrategy).places
      = s.places := by
    have : s.places = t.popped ++ (t.window ++ p :: (t.auxWindow ++ t.pending)) := by
      rw [RdtStrategy.places, htaken.rest, htaken.popped_eq, htaken.window_eq]
    rw [this]
    simp [RdtStrategy.places, RdtStrategy.pending]
  have hpopped : ∀ q ∈ s.popped, q.addr ≠ p.addr := by
    intro q hq
    apply h.addr_popped_ne hq
    simp [htaken.rest]
  obtain ⟨_, _, hsent, _⟩ := takeNext_frame hnext
  apply sendPacket
  refine ⟨htaken.builder, ?_, ?_, ?_, ?_, ?_⟩
  . exact hplaces ▸ h.subperm
  . exact hplaces ▸ h.perm
  . intro q hq
    have hq : q ∈ s.popped := htaken.popped_eq ▸ hq
    have hacked := (htaken.setAck false).isAcked_eq (hpopped q hq)
    rw [RdtStrategy.heap_transmit, Heap.isAcked_setTimeStamp]
    exact hacked.trans (h.popped_acked q hq)
  . intro q hq
    have hq : q ∈ s.popped ++ s.window ∨ q = p := by
      rw [← htaken.popped_eq, ← htaken.window_eq]
      simpa [or_assoc] using hq
    simp only [RdtStrategy.sent_transmit, RdtStrategy.sent_setAck, hsent, List.mem_append,
      List.mem_singleton]
    exact hq.imp_left (h.sent q)
  . intro q hq
    have hq' := hfront q
    simp only [SelectiveRepeat.pushAndSend, head?_sendPacket, isAcked_sendPacket] at hq'
    rw [RdtStrategy.heap_transmit, Heap.isAcked_setTimeStamp]
    exact hq' hq

theorem expandWindow (h : Kept file s) (env : Env) : Kept file (expandWindow env s) := by
  apply expandWindow_induction (P := Kept file) _ h
  intro s p t _ hnext hs
  exact hs.pushAndSend env hnext

theorem setAcked (h : Kept file s) (hp : p ∈ s.window) : Kept file (setAcked s p) := by
  have hfront := front_setAcked (p := p) (fun q hq => h.eq_of_addr_eq hp hq) h.front
  have hpopped : ∀ q ∈ s.popped, (s.heap.setAck p true).isAcked q = true := by
    intro q hq
    rw [Heap.isAcked_setAck]
    split
    . rfl
    . exact h.popped_acked q hq
  unfold SelectiveRepeat.setAcked at hfront ⊢
  dsimp only at hfront ⊢
  split
  . next hbegin =>
    rw [if_pos hbegin] at hfront
    have hsplit := List.takeWhile_append_dropWhile (p := (s.heap.setAck p true).isAcked) (l := s.window)
    have hplaces : (advanceWindow ((s.setAck p true).eraseUnacked p)).places = s.places := by
      have hwindow (rest : List PacketPtr) := congrArg (· ++ rest) hsplit
      simp only [List.append_assoc] at hwindow
      simp [RdtStrategy.places, advanceWindow, RdtStrategy.pending, hwindow]
    refine ⟨h.builder, hplaces ▸ h.subperm, hplaces ▸ h.perm, ?_, ?_, hfront⟩
    . intro q hq
      simp only [advanceWindow, List.mem_append] at hq
      cases hq with
      | inl hq => exact hpopped q hq
      | inr hq => exact List.mem_takeWhile_imp hq
    . intro q hq
      apply h.sent
      rw [← hsplit]
      simpa [advanceWindow] using hq
  . next hbegin =>
    rw [if_neg hbegin] at hfront
    exact ⟨h.builder, h.subperm, h.perm, hpopped, h.sent, hfront⟩

theorem acknowledgePacket (h : Kept file s) (env : Env) (ackPkt : AckPacket)
    : Kept file (acknowledgePacket env s ackPkt) := by
  cases acknowledgePacket_cases env s ackPkt with
  | inl heq =>
    rw [heq]
    exact h
  | inr hex =>
    obtain ⟨p, hp, _, _, heq⟩ := hex
    rw [heq]
    apply expandWindow
    apply adjustWindowSize
    exact h.setAcked hp

theorem timeOut (h : Kept file s) (env : Env) (first : PacketPtr) : Kept file (timeOut env s first) := by
  have hshrunk := (h.eraseUnacked first).shrinkWindow 1
  cases timeOut_cases env s first with
  | inl heq =>
    rw [heq]
    exact hshrunk
  | inr hex =>
    obtain ⟨p, _, heq⟩ := hex
    rw [heq]
    exact (hshrunk.transmit env p).sendPacket

theorem handleTimeOut (h : Kept file s) (env : Env) : Kept file (handleTimeOut env s) := by
  cases handleTimeOut_cases env s with
  | inl heq =>
    rw [heq]
    exact h
  | inr hex =>
    obtain ⟨first, heq⟩ := hex
    rw [heq]
    exact h.timeOut env first

theorem start (file : Bytes) (maxWindowSize : Int) (env : Env)
    : Kept file (start env (new (File.regular file) maxWindowSize)) := by
  obtain ⟨hinv, hnew, hlen, hacked⟩ := new_spec file maxWindowSize
  have hplaces : (new (File.regular file) maxWindowSize).places = packets 1 file := hinv.content
  have hpopped := hnew.popped_eq
  cases start_cases env hlen with
  | inl heq =>
    rw [heq.1]
    refine ⟨hinv.builder, hplaces ▸ List.Subperm.refl _, fun _ => hplaces ▸ List.Perm.refl _, ?_, ?_,
      fun p _ => hacked p⟩
    . simp [hpopped]
    . simp [hpopped, heq.2]
  | inr hex =>
    obtain ⟨p, hwindow, heq⟩ := hex
    rw [heq]
    apply sendPacket
    refine ⟨hinv.builder, ?_, fun _ => ?_, ?_, ?_, ?_⟩
    . exact hplaces ▸ List.Subperm.refl _
    . exact hplaces ▸ List.Perm.refl _
    . simp [hpopped]
    . simp [hpopped, hwindow]
    . intro q _
      rw [RdtStrategy.heap_transmit, Heap.isAcked_setTimeStamp]
      exact hacked q

end Kept

end SelectiveRepeat
