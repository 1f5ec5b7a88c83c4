import RdtProtocol.Server.Strategy.SelectiveRepeatLemmas

/-!
This module proves that the operations of the selective repeat sender keep what its timer relies on.
-/

namespace SelectiveRepeat

variable {file : Bytes} {maxWindowSize : Int} {env : Env} {s : RdtStrategy} {p : PacketPtr}

theorem unackedPackets_shrinkWindow (newSize : Int)
    (hunacked : s.unackedPackets = s.window.filter (fun q => !s.heap.isAcked q))
    (hne : s.window.Pairwise
      (fun q x => s.heap.isAcked q = false → s.heap.timeStamp q ≠ s.heap.timeStamp x))
    : (shrinkWindow s newSize).unackedPackets
        = (shrinkWindow s newSize).window.filter (fun q => !s.heap.isAcked q) := by
  rw [shrinkWindow_eq]
  dsimp only
  generalize sizeT (if newSize < 1 then 1 else newSize) = k
  have hsplit := List.take_append_drop k s.window
  rw [← hsplit, List.pairwise_append] at hne
  have hfilter : s.window.filter (fun q => !s.heap.isAcked q)
      = (s.window.take k).filter (fun q => !s.heap.isAcked q)
          ++ (s.window.drop k).filter (fun q => !s.heap.isAcked q) := by
    rw [← List.filter_append, hsplit]
  have htake : ∀ q ∈ (s.window.take k).filter (fun q => !s.heap.isAcked q),
      ∀ x ∈ s.window.drop k, s.heap.timeStamp q ≠ s.heap.timeStamp x := by
    intro q hq x hx
    rw [List.mem_filter, Bool.not_eq_true'] at hq
    exact hne.2.2 q hq.1 x hx hq.2
  have hdrop : ∀ q ∈ (s.window.drop k).filter (fun q => !s.heap.isAcked q),
      ¬ ∀ x ∈ s.window.drop k, s.heap.timeStamp q ≠ s.heap.timeStamp x := by
    intro q hq hall
    exact hall q (List.mem_of_mem_filter hq) rfl
  rw [hunacked, hfilter, List.filter_append,
    List.filter_eq_self.mpr (fun q hq => decide_eq_true (htake q hq)),
    List.filter_eq_nil_iff.mpr (fun q hq hc => hdrop q hq (of_decide_eq_true hc)),
    List.append_nil]

theorem timerInv_shrinkWindow (h : s.TimerInv env) (newSize : Int)
    : (shrinkWindow s newSize).TimerInv env := by
  have hne : s.window.Pairwise
      (fun q x => s.heap.isAcked q = false → s.heap.timeStamp q ≠ s.heap.timeStamp x) := by
    apply h.sorted.imp
    intro q x hlt _
    exact Nat.ne_of_lt hlt
  have hunacked := unackedPackets_shrinkWindow newSize h.unackedPackets_eq hne
  rw [shrinkWindow_eq] at hunacked ⊢
  refine ⟨?_, ?_, hunacked⟩
  . exact h.sorted.sublist (List.take_sublist _ _)
  . intro q hq
    apply h.past
    exact List.mem_of_mem_take hq

theorem timerInv_sendPacket (h : (s.transmit env p).TimerInv env)
    : (sendPacket env s p).TimerInv env := by
  cases sendPacket_cases env s p with
  | inl heq =>
    rw [heq]
    exact h
  | inr heq =>
    rw [heq]
    apply timerInv_shrinkWindow h

theorem timerInv_adjustWindowSize (h : s.TimerInv env) : (adjustWindowSize s).TimerInv env :=
  ⟨h.sorted, h.past, h.unackedPackets_eq⟩

theorem timerInv_setAcked (hinv : Inv file maxWindowSize s) (h : s.TimerInv env) (hp : p ∈ s.window)
    : (setAcked s p).TimerInv env := by
  have hacked : ((s.setAck p true).eraseUnacked p).TimerInv env := by
    apply h.setAck hp
    intro q hq
    apply eq_of_mem_packets_of_addr_eq (hinv.mem_of_mem_window hq) (hinv.mem_of_mem_window hp)
  cases setAcked_cases s p with
  | inl heq =>
    rw [heq]
    exact hacked
  | inr heq =>
    rw [heq]
    apply hacked.dropPrefix (List.takeWhile_append_dropWhile).symm
    intro q hq
    exact List.mem_takeWhile_imp hq

theorem timerInv_pushAndSend (hinv : Inv file maxWindowSize s) (h : s.TimerInv env)
    (hclock : StrictMono env.now) {s' : RdtStrategy} (hlt : s.window.length < sizeT s.windowSize)
    (hnext : takeNext s = some (p, s'))
    : (pushAndSend env s' p).TimerInv env := by
  obtain ⟨hpush, _⟩ := hinv.takeNext hlt hnext
  obtain ⟨hheap, _, _, hunacked, hreads⟩ := takeNext_frame hnext
  obtain ⟨hwindow, _⟩ := takeNext_window hnext
  have haddr : ∀ q ∈ s'.window, q.addr ≠ p.addr := by
    have := hpush.toInv.pairwise_addr_window
    simp only [List.pairwise_append, List.mem_singleton] at this
    intro q hq
    exact Nat.ne_of_lt (this.2.2 q hq p rfl)
  have hack : (s'.setAck p false).TimerInv env := by
    refine ⟨?_, ?_, ?_⟩
    . simpa [hheap, hwindow] using h.sorted
    . simpa [hheap, hwindow, hreads] using h.past
    . rw [RdtStrategy.unackedPackets_setAck, hunacked, h.unackedPackets_eq,
        RdtStrategy.window_setAck, hwindow]
      apply List.filter_congr
      intro q hq
      simp [hheap, haddr q (hwindow ▸ hq)]
  have hsent := hack.pushAndTransmit hclock haddr (by simp)
  exact timerInv_sendPacket hsent

theorem timerInv_expandWindow (hinv : Inv file maxWindowSize s) (h : s.TimerInv env)
    (hclock : StrictMono env.now) (hN : (file.chunks MAX_DATA_SIZE).length < 2 ^ 32 - 1)
    : (expandWindow env s).TimerInv env := by
  have : Inv file maxWindowSize (expandWindow env s) ∧ (expandWindow env s).TimerInv env := by
    apply expandWindow_induction (P := fun t => Inv file maxWindowSize t ∧ t.TimerInv env) ?_
      ⟨hinv, h⟩
    intro t p t' hlt hnext ht
    exact ⟨ht.1.pushAndSend hN env hlt hnext, timerInv_pushAndSend ht.1 ht.2 hclock hlt hnext⟩
  exact this.2

theorem timerInv_acknowledgePacket (hinv : Inv file maxWindowSize s) (h : s.TimerInv env)
    (hclock : StrictMono env.now) (hN : (file.chunks MAX_DATA_SIZE).length < 2 ^ 32 - 1)
    (hmax : maxWindowSize < 2 ^ 31 - 1) (ackPkt : AckPacket)
    : (acknowledgePacket env s ackPkt).TimerInv env := by
  cases acknowledgePacket_cases env s ackPkt with
  | inl heq =>
    rw [heq]
    exact h
  | inr hex =>
    obtain ⟨p, hp, _, _, heq⟩ := hex
    rw [heq]
    apply timerInv_expandWindow ((inv_setAcked hinv).adjustWindowSize hmax) ?_ hclock hN
    exact timerInv_adjustWindowSize (timerInv_setAcked hinv h hp)

theorem head?_unackedPackets (hfront : ∀ p ∈ s.window.head?, s.heap.isAcked p = false)
    (hunacked : s.unackedPackets = s.window.filter (fun p => !s.heap.isAcked p))
    : s.unackedPackets.head? = s.window.head? := by
  rw [hunacked]
  cases hwindow : s.window with
  | nil => rfl
  | cons p rest =>
    have := hfront p (by simp [hwindow])
    simp [this]

theorem timerInv_sendPacket_singleton (hclock : StrictMono env.now) (hwindow : s.window = [p])
    (hunacked : s.unackedPackets = []) (hacked : s.heap.isAcked p = false)
    : (sendPacket env s p).TimerInv env := by
  have hsent := RdtStrategy.TimerInv.transmit_singleton hclock hwindow hunacked hacked
  exact timerInv_sendPacket hsent

theorem handleTimeOut_of_cons (hfront : ∀ p ∈ s.window.head?, s.heap.isAcked p = false)
    (hunacked : s.unackedPackets = s.window.filter (fun p => !s.heap.isAcked p))
    (env : Env) {rest : List PacketPtr} (hwindow : s.window = p :: rest)
    : handleTimeOut env s = sendPacket env (shrinkWindow (s.eraseUnacked p) 1) p
        ∧ (shrinkWindow (s.eraseUnacked p) 1).window = [p]
        ∧ (shrinkWindow (s.eraseUnacked p) 1).unackedPackets = [] := by
  have hshrunk : (shrinkWindow (s.eraseUnacked p) 1).window = [p] := by
    rw [window_shrinkWindow, RdtStrategy.window_eraseUnacked, hwindow]
    rfl
  refine ⟨?_, hshrunk, ?_⟩
  . have hhead := head?_unackedPackets hfront hunacked
    rw [hwindow] at hhead
    unfold handleTimeOut timeOut
    split
    . next hnil => simp [hnil] at hhead
    . next hcons =>
      simp only [hcons, List.head?_cons, Option.some.injEq] at hhead
      subst hhead
      dsimp only
      split
      . next hnil => simp [hshrunk] at hnil
      . next hcons' =>
        simp only [hshrunk, List.cons.injEq] at hcons'
        rw [hcons'.1]
  . rw [shrinkWindow_eq]
    simp only [RdtStrategy.unackedPackets_eraseUnacked, RdtStrategy.window_eraseUnacked,
      RdtStrategy.heap_eraseUnacked, hunacked, hwindow, OrderedSet.erase]
    rw [List.filter_eq_nil_iff]
    intro q hq hc
    simp only [List.mem_filter, List.mem_cons, decide_eq_true_eq] at hq hc
    have hdrop : (p :: rest).drop (sizeT (if (1 : Int) < 1 then 1 else 1)) = rest := by rfl
    rw [hdrop] at hc
    cases hq.1.1 with
    | inl heq => simp [heq] at hq
    | inr hmem => exact hc q hmem rfl

theorem timerInv_handleTimeOut (hs : Settled s) (h : s.TimerInv env) (hclock : StrictMono env.now)
    : (handleTimeOut env s).TimerInv env := by
  cases hwindow : s.window with
  | nil =>
    have : s.unackedPackets = [] := by simp [h.unackedPackets_eq, hwindow]
    unfold handleTimeOut
    simpa [this] using h
  | cons p rest =>
    obtain ⟨heq, hshrunk, hunacked⟩ := handleTimeOut_of_cons hs.front h.unackedPackets_eq env hwindow
    rw [heq]
    apply timerInv_sendPacket_singleton hclock hshrunk hunacked
    simpa using hs.front p (by simp [hwindow])

theorem timerInv_start (hs : Settled s) (hlen : s.window.length ≤ 1) (hunacked : s.unackedPackets = [])
    (hclock : StrictMono env.now)
    : (start env s).TimerInv env := by
  cases start_cases env hlen with
  | inl heq =>
    rw [heq.1]
    refine ⟨by simp [heq.2], by simp [heq.2], by simp [heq.2, hunacked]⟩
  | inr hex =>
    obtain ⟨p, hwindow, heq⟩ := hex
    rw [heq]
    apply timerInv_sendPacket_singleton hclock hwindow hunacked
    exact hs.front p (by simp [hwindow])

end SelectiveRepeat
