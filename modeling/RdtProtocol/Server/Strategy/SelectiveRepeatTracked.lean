import RdtProtocol.Server.Strategy.SelectiveRepeatKept
import RdtProtocol.Server.Strategy.SelectiveRepeatTimer
import RdtProtocol.Server.Strategy.Tracked

/-!
This module proves that `unacked_packets` of the selective repeat sender has the packets that wait for an
ACK, as long as the set can tell their time stamps apart.
-/

namespace SelectiveRepeat

open RdtStrategy (Tracked Ticks)

variable {file : Bytes} {env : Env} {s t : RdtStrategy} {p : PacketPtr}

theorem tracked_shrinkWindow (h : s.Tracked env) (newSize : Int)
    : (shrinkWindow s newSize).Tracked env := by
  have hne : s.window.Pairwise
      (fun q x => s.heap.isAcked q = false → s.heap.timeStamp q ≠ s.heap.timeStamp x) := by
    apply h.sorted.imp
    intro q x hlt hacked
    exact Nat.ne_of_lt (hlt hacked)
  have hunacked := unackedPackets_shrinkWindow newSize h.unackedPackets_eq hne
  rw [shrinkWindow_eq] at hunacked ⊢
  refine ⟨?_, ?_, hunacked⟩
  . exact h.sorted.sublist (List.take_sublist _ _)
  . intro q hq
    apply h.past
    exact List.mem_of_mem_take hq

theorem tracked_setAcked (hk : Kept file s) (h : s.Tracked env) (hp : p ∈ s.window)
    (hacked : s.heap.isAcked p = false)
    : (setAcked s p).Tracked env := by
  have hset := h.setAck hp hacked (fun q hq => hk.eq_of_addr_eq hp hq)
  cases setAcked_cases s p with
  | inl heq =>
    rw [heq]
    exact hset
  | inr heq =>
    rw [heq]
    apply hset.dropPrefix (List.takeWhile_append_dropWhile).symm
    intro q hq
    exact List.mem_takeWhile_imp hq

theorem clockReads_sendPacket (env : Env) (s : RdtStrategy) (p : PacketPtr)
    : (sendPacket env s p).clockReads = s.clockReads + 1 := by
  cases sendPacket_cases env s p with
  | inl heq =>
    rw [heq, RdtStrategy.clockReads_transmit]
  | inr heq =>
    rw [heq, shrinkWindow_eq, RdtStrategy.clockReads_transmit]

theorem tracked_sendPacket (h : (s.transmit env p).Tracked env) : (sendPacket env s p).Tracked env := by
  cases sendPacket_cases env s p with
  | inl heq =>
    rw [heq]
    exact h
  | inr heq =>
    rw [heq]
    apply tracked_shrinkWindow h

theorem unackedPackets_sendPacket_subset (env : Env) (s : RdtStrategy) (p : PacketPtr)
    : (sendPacket env s p).unackedPackets ⊆ (s.transmit env p).unackedPackets := by
  cases sendPacket_cases env s p with
  | inl heq =>
    rw [heq]
    apply List.Subset.refl
  | inr heq =>
    rw [heq, shrinkWindow_eq]
    intro q hq
    exact List.mem_of_mem_filter hq

theorem heap_sendPacket (env : Env) (s : RdtStrategy) (p : PacketPtr)
    : (sendPacket env s p).heap = (s.transmit env p).heap := by
  cases sendPacket_cases env s p with
  | inl heq =>
    rw [heq]
  | inr heq =>
    rw [heq, heap_shrinkWindow]

theorem tracked_pushAndSend (hk : Kept file s) (h : s.Tracked env) (hclock : Monotone env.now)
    (hnext : takeNext s = some (p, t))
    (hfirst : ∀ q ∈ s.unackedPackets, s.heap.timeStamp q ≠ env.now s.clockReads)
    : (pushAndSend env t p).Tracked env
        ∧ ∀ q ∈ (pushAndSend env t p).unackedPackets,
            (pushAndSend env t p).heap.timeStamp q ≤ env.now s.clockReads := by
  obtain ⟨hheap, _, _, hunacked, hreads⟩ := takeNext_frame hnext
  obtain ⟨hwindow, _⟩ := takeNext_window hnext
  have htaken := Interleaving.taken_takeNext hk.builder hnext
  have haddr : ∀ q ∈ s.window, q.addr ≠ p.addr := by
    have hdistinct := hk.distinct
    rw [RdtStrategy.places, htaken.rest] at hdistinct
    intro q hq
    exact (List.pairwise_append.mp (List.pairwise_append.mp hdistinct).2.1).2.2 q hq p List.mem_cons_self
  have hack : (t.setAck p false).Tracked env := by
    refine ⟨?_, ?_, ?_⟩
    . simp only [RdtStrategy.window_setAck, RdtStrategy.heap_setAck, Heap.isAcked_setAck,
        Heap.timeStamp_setAck, hheap, hwindow]
      apply h.sorted.imp_of_mem
      intro q r hq _ hlt hacked
      rw [if_neg (haddr q hq)] at hacked
      exact hlt hacked
    . simpa [hheap, hwindow, hreads] using h.past
    . rw [RdtStrategy.unackedPackets_setAck, hunacked, h.unackedPackets_eq,
        RdtStrategy.window_setAck, hwindow]
      apply List.filter_congr
      intro q hq
      simp [hheap, haddr q hq]
  rw [← hwindow] at haddr
  have hfirst' : ∀ q ∈ (t.setAck p false).unackedPackets,
      (t.setAck p false).heap.timeStamp q ≠ env.now (t.setAck p false).clockReads := by
    simpa [hheap, hunacked, hreads] using hfirst
  have hsent := hack.pushAndTransmit hclock hfirst' haddr (by simp)
  have hle := hack.timeStamp_le haddr
  refine ⟨tracked_sendPacket hsent, ?_⟩
  intro q hq
  have hq := unackedPackets_sendPacket_subset _ _ _ hq
  rw [pushAndSend, heap_sendPacket, ← hreads]
  exact hle q (hsent.mem_unackedPackets.mp hq).1

theorem clockReads_pushAndSend (env : Env) (hnext : takeNext s = some (p, t))
    : (pushAndSend env t p).clockReads = s.clockReads + 1 := by
  obtain ⟨_, _, _, _, hreads⟩ := takeNext_frame hnext
  rw [pushAndSend, clockReads_sendPacket, ← hreads]
  rfl

theorem clockReads_le_expandWindow (env : Env) (s : RdtStrategy)
    : s.clockReads ≤ (expandWindow env s).clockReads := by
  apply expandWindow_induction (P := fun t => s.clockReads ≤ t.clockReads)
  . intro t p t' _ hnext ht
    rw [clockReads_pushAndSend env hnext]
    exact Nat.le_succ_of_le ht
  . exact Nat.le_refl _

theorem tracked_expandWindow (hk : Kept file s) (h : s.Tracked env) (hclock : Monotone env.now)
    (hticks : Ticks env s (expandWindow env s))
    : (expandWindow env s).Tracked env := by
  induction s using expandWindow.induct env with
  | case1 s hlt p t hnext ih =>
    have hpush := clockReads_pushAndSend env hnext
    have hreads := clockReads_le_expandWindow env (pushAndSend env t p)
    rw [expandWindow_of_some hlt hnext] at hticks ⊢
    rw [hpush] at hreads
    obtain ⟨htracked, hle⟩ := tracked_pushAndSend hk h hclock hnext (hticks.first hreads)
    exact ih (hk.pushAndSend env hnext) htracked (hticks.step hclock hpush hle)
  | case2 s hlt hnext =>
    rw [expandWindow_of_none (.inr hnext)]
    exact h
  | case3 s hlt =>
    rw [expandWindow_of_none (.inl hlt)]
    exact h

def acknowledged (s : RdtStrategy) (ackPkt : AckPacket) : List PacketPtr :=
  (s.window.find? (fun p => ackPkt.ackno = p.packet.seqno)).toList

theorem frame_setAcked (s : RdtStrategy) (p : PacketPtr)
    : (adjustWindowSize (setAcked s p)).clockReads = s.clockReads
        ∧ (adjustWindowSize (setAcked s p)).unackedPackets
            = OrderedSet.erase s.heap.timeStamp p s.unackedPackets
        ∧ ∀ q, (adjustWindowSize (setAcked s p)).heap.timeStamp q = s.heap.timeStamp q := by
  obtain heq | heq := setAcked_cases s p
    <;> simp [heq, adjustWindowSize, advanceWindow, OrderedSet.erase]

theorem tracked_acknowledgePacket (hk : Kept file s) (h : s.Tracked env) (hclock : Monotone env.now)
    (ackPkt : AckPacket)
    (hfirst : s.clockReads < (acknowledgePacket env s ackPkt).clockReads →
      ∀ p ∈ s.unackedPackets, p ∉ acknowledged s ackPkt → s.heap.timeStamp p ≠ env.now s.clockReads)
    (hnext : ∀ i, s.clockReads ≤ i → i + 1 < (acknowledgePacket env s ackPkt).clockReads
      → env.now i ≠ env.now (i + 1))
    : (acknowledgePacket env s ackPkt).Tracked env := by
  unfold acknowledgePacket acknowledged at *
  split
  . next hcksum =>
    rw [if_pos hcksum] at hfirst hnext
    split
    . next p hfind =>
      simp only [hfind, Option.toList_some, List.mem_singleton] at hfirst hnext
      split
      . exact h
      . next hacked =>
        rw [if_neg hacked] at hfirst hnext
        have hp := List.mem_of_find?_eq_some hfind
        have htracked := tracked_setAcked hk h hp (by simpa using hacked)
        obtain ⟨hreads, hunacked, hstamp⟩ := frame_setAcked s p
        apply tracked_expandWindow (hk.setAcked hp).adjustWindowSize
          (htracked.congr rfl rfl rfl rfl) hclock
        constructor
        . intro hlt q hq
          rw [hunacked, OrderedSet.mem_erase] at hq
          rw [hreads] at hlt ⊢
          rw [hstamp]
          apply hfirst hlt q hq.1
          exact fun heq => hq.2 (congrArg _ heq)
        . intro i hi
          exact hnext i (hreads ▸ hi)
    . exact h
  . exact h

theorem tracked_sendPacket_singleton (hclock : Monotone env.now) (hwindow : s.window = [p])
    (hunacked : s.unackedPackets = []) (hacked : s.heap.isAcked p = false)
    : (sendPacket env s p).Tracked env :=
  tracked_sendPacket (Tracked.transmit_singleton hclock hwindow hunacked hacked)

theorem tracked_handleTimeOut (hk : Kept file s) (h : s.Tracked env) (hclock : Monotone env.now)
    : (handleTimeOut env s).Tracked env := by
  cases hwindow : s.window with
  | nil =>
    have : s.unackedPackets = [] := by simp [h.unackedPackets_eq, hwindow]
    unfold handleTimeOut
    simpa [this] using h
  | cons p rest =>
    obtain ⟨heq, hshrunk, hunacked⟩ := handleTimeOut_of_cons hk.front h.unackedPackets_eq env hwindow
    rw [heq]
    apply tracked_sendPacket_singleton hclock hshrunk hunacked
    simpa using hk.front p (by simp [hwindow])

theorem tracked_start (file : Bytes) (maxWindowSize : Int) (hclock : Monotone env.now)
    : (start env (new (File.regular file) maxWindowSize)).Tracked env := by
  obtain ⟨_, hnew, hlen, hacked⟩ := new_spec file maxWindowSize
  have hunacked := hnew.unackedPackets_eq
  cases start_cases env hlen with
  | inl heq =>
    rw [heq.1]
    exact ⟨by simp [heq.2], by simp [heq.2], by simp [heq.2, hunacked]⟩
  | inr hex =>
    obtain ⟨p, hwindow, heq⟩ := hex
    rw [heq]
    exact tracked_sendPacket_singleton hclock hwindow hunacked (hacked p)

end SelectiveRepeat
