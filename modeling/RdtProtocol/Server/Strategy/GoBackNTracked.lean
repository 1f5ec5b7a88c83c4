import RdtProtocol.Server.Strategy.GoBackNLemmas
import RdtProtocol.Server.Strategy.InterleavingLemmas
import RdtProtocol.Server.Strategy.Tracked

/-!
This module proves that `unacked_packets` of the go back N sender has the packets that wait for an ACK, as
long as the set can tell their time stamps apart.
-/

namespace RdtStrategy

theorem clockReads_le_advanceWindow (env : Env) (s : RdtStrategy)
    : s.clockReads ≤ (s.advanceWindow env).clockReads := by
  apply advanceWindow_induction (P := fun t => s.clockReads ≤ t.clockReads)
  . exact fun _ => id
  . intro t q t' hget ht
    obtain ⟨_, _, _, rfl⟩ := getNextPacket_eq_some hget
    rw [clockReads_transmit]
    exact Nat.le_succ_of_le ht
  . exact Nat.le_refl _

structure Flow (env : Env) (s : RdtStrategy) : Prop extends s.Tracked env where
  builder : s.pktBuilder.WF
  auxWindow_eq : s.auxWindow = []
  distinct : (s.window ++ s.pending).Pairwise (fun p q => p.addr ≠ q.addr)
  not_acked : ∀ p ∈ s.pending, s.heap.isAcked p = false

namespace Flow

variable {env : Env} {s t : RdtStrategy} {p q : PacketPtr}

theorem popFront (h : s.Flow env) {rest : List PacketPtr} (hw : s.window = p :: rest)
    (hacked : s.heap.isAcked p = true)
    : s.popFront.Flow env := by
  have hwindow : s.window = [p] ++ rest := hw
  have htracked : s.popFront.Tracked env := by
    unfold RdtStrategy.popFront
    rw [hw, List.tail_cons]
    apply h.dropPrefix hwindow
    simpa using hacked
  refine ⟨htracked, h.builder, h.auxWindow_eq, ?_, h.not_acked⟩
  have := h.distinct
  rw [hw, List.cons_append, List.pairwise_cons] at this
  simpa [RdtStrategy.popFront, hw, pending] using this.2

theorem push (h : s.Flow env) (hclock : Monotone env.now) (hget : s.getNextPacket = some (q, t))
    (hnext : s.pktBuilder.hasNext = true)
    (hfirst : ∀ p ∈ s.unackedPackets, s.heap.timeStamp p ≠ env.now s.clockReads)
    : ({ t with window := t.window ++ [q] }.transmit env q).Flow env
        ∧ ∀ p ∈ ({ t with window := t.window ++ [q] }.transmit env q).window,
            ({ t with window := t.window ++ [q] }.transmit env q).heap.timeStamp p
              ≤ env.now s.clockReads := by
  obtain ⟨_, _, hget', htaken⟩ := Interleaving.taken_getNextPacket h.builder h.auxWindow_eq hnext
  rw [hget] at hget'
  cases hget'
  obtain ⟨b, n, _, heq⟩ := getNextPacket_eq_some hget
  have hreads : t.clockReads = s.clockReads := by rw [heq]
  have hheap : t.heap = s.heap := by rw [heq]
  have hunacked : t.unackedPackets = s.unackedPackets := by rw [heq]
  have haux : t.auxWindow = [] := by rw [heq, h.auxWindow_eq]
  have hwindow : t.window = s.window := by rw [heq]
  have hpending : s.pending = q :: t.pending := by
    have := htaken.rest
    rwa [haux, h.auxWindow_eq] at this
  have hdistinct := h.distinct
  have hnot := h.not_acked
  rw [hpending] at hdistinct hnot
  have haddr : ∀ p ∈ t.window, p.addr ≠ q.addr := by
    intro p hp
    exact (List.pairwise_append.mp hdistinct).2.2 p (hwindow ▸ hp) q List.mem_cons_self
  have htracked : t.Tracked env := h.toTracked.congr hwindow hheap hunacked hreads
  rw [← hheap, ← hunacked, ← hreads] at hfirst
  rw [← hheap] at hnot
  rw [← hreads]
  refine ⟨⟨htracked.pushAndTransmit hclock hfirst haddr (hnot q List.mem_cons_self), htaken.builder,
    haux, ?_, ?_⟩, htracked.timeStamp_le haddr⟩
  . rw [← hwindow] at hdistinct
    simpa [pending] using hdistinct
  . intro p hp
    rw [heap_transmit, Heap.isAcked_setTimeStamp]
    exact hnot p (List.mem_cons_of_mem q hp)

theorem advanceWindow (h : s.Flow env) (hclock : Monotone env.now)
    (hticks : Ticks env s (s.advanceWindow env))
    : (s.advanceWindow env).Tracked env := by
  induction s using RdtStrategy.advanceWindow.induct env with
  | case1 s hw =>
    rw [advanceWindow_of_front (by simp [hw])]
    exact h.toTracked
  | case2 s p rest hw hacked hnext q t hget ih =>
    rw [advanceWindow_of_some hw hacked hnext hget] at hticks ⊢
    have hsame : t.clockReads = s.clockReads := by
      obtain ⟨_, _, _, heq⟩ := getNextPacket_eq_some hget
      rw [heq]
      rfl
    have hreads : s.clockReads
        < (({ t with window := t.window ++ [q] }.transmit env q).advanceWindow env).clockReads := by
      apply Nat.lt_of_lt_of_le _ (clockReads_le_advanceWindow env _)
      rw [clockReads_transmit, hsame]
      exact Nat.lt_succ_self _
    obtain ⟨hpush, hle⟩ := (h.popFront hw hacked).push hclock hget hnext (hticks.first hreads)
    apply ih hpush
    apply hticks.step hclock
    . rw [clockReads_transmit, hsame]
    . intro p hp
      exact hle p (hpush.toTracked.mem_unackedPackets.mp hp).1
  | case3 s p rest hw hacked hnext hget =>
    rw [advanceWindow_of_none hw hacked hnext hget]
    exact (h.popFront hw hacked).toTracked
  | case4 s p rest hw hacked hnext ih =>
    rw [advanceWindow_of_end hw hacked (by simpa using hnext)] at hticks ⊢
    exact ih (h.popFront hw hacked) ⟨hticks.first, hticks.next⟩
  | case5 s p rest hw hacked =>
    rw [advanceWindow_of_front (by simpa [hw] using hacked)]
    exact h.toTracked

end Flow

theorem Tracked.setAcks {env : Env} {s : RdtStrategy} (h : s.Tracked env) {ys : List PacketPtr}
    (hys : ∀ y ∈ ys, y ∈ s.window ∧ s.heap.isAcked y = false)
    (hdistinct : ys.Pairwise (fun p q => p.addr ≠ q.addr))
    (haddr : ∀ p ∈ s.window, ∀ q ∈ s.window, q.addr = p.addr → q = p)
    : (ys.foldl (fun s p => (s.setAck p true).eraseUnacked p) s).Tracked env := by
  induction ys generalizing s with
  | nil => exact h
  | cons y ys ih =>
    rw [List.pairwise_cons] at hdistinct
    obtain ⟨hy, hacked⟩ := hys y List.mem_cons_self
    apply ih (h.setAck hy hacked (haddr y hy)) _ hdistinct.2 haddr
    intro z hz
    obtain ⟨hz', hacked'⟩ := hys z (List.mem_cons_of_mem y hz)
    refine ⟨hz', ?_⟩
    rw [heap_eraseUnacked, heap_setAck, Heap.isAcked_setAck, if_neg (hdistinct.1 z hz).symm, hacked']

theorem setAcks_frame (s : RdtStrategy) (ys : List PacketPtr)
    : let t := ys.foldl (fun s p => (s.setAck p true).eraseUnacked p) s
      t.clockReads = s.clockReads ∧ ∀ q, t.heap.timeStamp q = s.heap.timeStamp q := by
  induction ys generalizing s with
  | nil => exact ⟨rfl, fun _ => rfl⟩
  | cons y ys ih =>
    obtain ⟨hreads, hstamp⟩ := ih ((s.setAck y true).eraseUnacked y)
    refine ⟨hreads, ?_⟩
    intro q
    rw [List.foldl_cons, hstamp, heap_eraseUnacked, heap_setAck, Heap.timeStamp_setAck]

end RdtStrategy

namespace GoBackN

open RdtStrategy

def acknowledged (s : RdtStrategy) (ackPkt : AckPacket) : List PacketPtr :=
  match s.window.findIdx? (fun p => ackPkt.ackno = p.packet.seqno) with
  | some i => s.window.take (i + 1)
  | none => []

variable {first : UInt32} {file : Bytes} {n : Int} {env : Env} {s : RdtStrategy}

theorem tracked_acknowledgePacket (h : s.InOrder first file n) (hs : s.Fresh) (ht : s.Tracked env)
    (hclock : Monotone env.now) (ackPkt : AckPacket)
    (hfirst : s.clockReads < (acknowledgePacket env s ackPkt).clockReads →
      ∀ p ∈ s.unackedPackets, p ∉ acknowledged s ackPkt → s.heap.timeStamp p ≠ env.now s.clockReads)
    (hnext : ∀ i, s.clockReads ≤ i → i + 1 < (acknowledgePacket env s ackPkt).clockReads
      → env.now i ≠ env.now (i + 1))
    : (acknowledgePacket env s ackPkt).Tracked env := by
  unfold acknowledgePacket acknowledged at *
  split
  . next i hfind =>
    simp only [hfind] at hfirst hnext
    have hwindow : s.window = s.window.take (i + 1) ++ s.window.drop (i + 1) :=
      (List.take_append_drop _ _).symm
    have hmem : ∀ y ∈ (s.window.take (i + 1)).reverse, y ∈ s.window := by
      intro y hy
      rw [List.mem_reverse] at hy
      exact List.mem_of_mem_take hy
    have hnot : ∀ y ∈ s.window, s.heap.isAcked y = false := by
      intro y hy
      exact hs.not_acked y (List.mem_append_left _ hy)
    have haddr : ∀ p ∈ s.window, ∀ q ∈ s.window, q.addr = p.addr → q = p := by
      intro p hp q hq
      exact eq_of_mem_packets_of_addr_eq (h.mem_of_mem_window hq) (h.mem_of_mem_window hp)
    have hdistinct : (s.window.take (i + 1)).reverse.Pairwise (fun p q => p.addr ≠ q.addr) := by
      rw [List.pairwise_reverse]
      apply (h.pairwise_addr_window.sublist (List.take_sublist _ _)).imp
      intro p q hlt
      exact Nat.ne_of_gt hlt
    obtain ⟨hinv, hwin, hpending, _⟩ := h.setAcks _ hmem
    have hpre := h.ackedPrefix_setAcks hs hwindow (fun y => List.mem_reverse)
    have htracked := ht.setAcks (fun y hy => ⟨hmem y hy, hnot y (hmem y hy)⟩) hdistinct haddr
    obtain ⟨hreads, hstamp⟩ := setAcks_frame s (s.window.take (i + 1)).reverse
    generalize (s.window.take (i + 1)).reverse.foldl (fun s p => (s.setAck p true).eraseUnacked p) s
      = t at *
    have hflow : t.Flow env := by
      refine ⟨htracked, hinv.builder, hinv.auxWindow_eq, ?_, ?_⟩
      . have := hinv.pairwise_addr
        rw [hinv.auxWindow_eq, List.nil_append] at this
        exact (List.pairwise_append.mp this).2.1.imp (fun hlt => Nat.ne_of_lt hlt)
      . intro q hq
        exact hpre.not_acked q (List.mem_append_right _ hq)
    apply hflow.advanceWindow hclock
    constructor
    . intro hlt q hq
      obtain ⟨hq', hacked⟩ := htracked.mem_unackedPackets.mp hq
      rw [hreads] at hlt ⊢
      rw [hstamp]
      apply hfirst hlt
      . exact ht.mem_unackedPackets.mpr ⟨hwin ▸ hq', hnot q (hwin ▸ hq')⟩
      . intro htake
        simp [hpre.acked q htake] at hacked
    . intro j hj
      exact hnext j (hreads ▸ hj)
  . exact ht

theorem tracked_setTimeStamp {done : List PacketPtr} {p : PacketPtr} (h : s.Tracked env)
    (hclock : Monotone env.now) (hwindow : s.window = done ++ [p]) (haddr : ∀ q ∈ done, q.addr ≠ p.addr)
    : (s.setTimeStamp env p).Tracked env
        ∧ ∀ q ∈ s.window, (s.setTimeStamp env p).heap.timeStamp q ≤ env.now s.clockReads := by
  have htick : env.now s.clockReads ≤ env.now (s.clockReads + 1) := hclock (Nat.le_succ _)
  have hle : ∀ q ∈ s.window, (s.setTimeStamp env p).heap.timeStamp q ≤ env.now s.clockReads := by
    intro q hq
    simp only [setTimeStamp, Heap.timeStamp_setTimeStamp]
    split
    . exact Nat.le_refl _
    . exact h.past q hq
  refine ⟨⟨?_, fun q hq => Nat.le_trans (hle q hq) htick, ?_⟩, hle⟩
  . have hsorted := h.sorted
    have hpast := h.past p (by simp [hwindow])
    simp only [setTimeStamp, hwindow, Heap.isAcked_setTimeStamp, Heap.timeStamp_setTimeStamp,
      List.pairwise_append, List.pairwise_singleton, List.mem_singleton, true_and] at hsorted ⊢
    constructor
    . apply hsorted.1.imp_of_mem
      intro q r hq hr hlt
      rwa [if_neg (haddr q hq), if_neg (haddr r hr)]
    . intro q hq r hr hacked
      rw [hr, if_neg (haddr q hq), if_pos rfl]
      exact Nat.lt_of_lt_of_le (hsorted.2 q hq p rfl hacked) hpast
  . simp only [setTimeStamp, Heap.isAcked_setTimeStamp]
    exact h.unackedPackets_eq

-- `done` has been sent, each packet with two readings of the clock.
theorem tracked_foldl_send (hclock : Monotone env.now) {done ps : List PacketPtr}
    (h : { s with window := done }.Tracked env) (hacked : ∀ p ∈ ps, s.heap.isAcked p = false)
    (hdistinct : (done ++ ps).Pairwise (fun p q => p.addr ≠ q.addr))
    (hreads : s.clockReads = 2 * done.length)
    (hlast : ∀ q ∈ done, ∀ i, i + 1 = s.clockReads → s.heap.timeStamp q ≤ env.now i)
    (hticks : ∀ i, i + 1 < (done ++ ps).length → env.now (2 * i + 1) ≠ env.now (2 * i + 2))
    : { ps.foldl (fun s p => (sendPacket env s p).setTimeStamp env p) s with
        window := done ++ ps }.Tracked env := by
  induction ps generalizing s done with
  | nil =>
    rw [List.append_nil]
    exact h
  | cons p ps ih =>
    have haddr : ∀ q ∈ done, q.addr ≠ p.addr := by
      intro q hq
      exact (List.pairwise_append.mp hdistinct).2.2 q hq p List.mem_cons_self
    have hfirst : ∀ q ∈ s.unackedPackets, s.heap.timeStamp q ≠ env.now s.clockReads := by
      intro q hq
      have hq : q ∈ done := (h.mem_unackedPackets.mp hq).1
      have hlen := List.length_pos_of_mem hq
      have hi : 2 * (done.length - 1) + 2 = s.clockReads := by omega
      have hle := hlast q hq (2 * (done.length - 1) + 1) hi
      have hne := hticks (done.length - 1) (by simp; omega)
      have htick : env.now (2 * (done.length - 1) + 1) ≤ env.now (2 * (done.length - 1) + 2) :=
        hclock (Nat.le_succ _)
      rw [← hi]
      omega
    have hpush := h.pushAndTransmit hclock hfirst haddr (hacked p List.mem_cons_self)
    obtain ⟨hstamped, hle⟩ := tracked_setTimeStamp hpush hclock rfl haddr
    rw [List.foldl_cons, List.append_cons]
    apply ih hstamped
    . intro q hq
      simp only [setTimeStamp, sendPacket, heap_transmit, Heap.isAcked_setTimeStamp]
      exact hacked q (List.mem_cons_of_mem p hq)
    . rwa [← List.append_cons]
    . simp only [setTimeStamp, sendPacket, clockReads_transmit, List.length_append,
        List.length_singleton]
      omega
    . intro q hq i hi
      have hi : i = s.clockReads + 1 := by
        simp only [setTimeStamp, sendPacket, clockReads_transmit] at hi
        omega
      rw [hi]
      exact hle q hq
    . rwa [← List.append_cons]

theorem tracked_start (h : s.InOrder first file n) (hs : s.Fresh) (hclock : Monotone env.now)
    (hunacked : s.unackedPackets = []) (hreads : s.clockReads = 0)
    (hticks : ∀ i, i + 1 < s.window.length → env.now (2 * i + 1) ≠ env.now (2 * i + 2))
    : (start env s).Tracked env := by
  have hempty : { s with window := [] }.Tracked env := by
    refine ⟨by simp, by simp, by simpa using hunacked⟩
  have hsent : { start env s with window := s.window }.Tracked env := by
    apply tracked_foldl_send hclock hempty _ _ hreads (by simp) hticks
    . intro p hp
      exact hs.not_acked p (List.mem_append_left _ hp)
    . exact h.pairwise_addr_window.imp (fun hlt => Nat.ne_of_lt hlt)
  have hwindow : (start env s).window = s.window := (foldl_send_frame s env s.window).2.1
  have heq : { start env s with window := s.window } = start env s := by
    rw [← hwindow]
  exact heq ▸ hsent

end GoBackN
