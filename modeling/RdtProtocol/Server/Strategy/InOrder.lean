import RdtProtocol.Server.Strategy.BasicLemmas

/-!
This module contains the invariant of the strategies that take a packet in for each one they pop, and
the correctness proof of the loop in which they do so.
-/

namespace RdtStrategy

structure InOrder (first : UInt32) (file : Bytes) (n : Int) (s : RdtStrategy) : Prop
    extends s.Inv first file where
  windowSize_eq : s.windowSize = n
  auxWindow_eq : s.auxWindow = []
  length_window_le : s.window.length ≤ sizeT n
  full : s.window.length < sizeT n → s.pending = []
  sent_sub : ∀ p ∈ s.sent, p ∈ s.popped ++ s.window
  unacked_sub : ∀ p ∈ s.unackedPackets, p ∈ s.window ∧ s.heap.isAcked p = false

structure AckedPrefix (xs rest : List PacketPtr) (s : RdtStrategy) : Prop where
  window_eq : s.window = xs ++ rest
  acked : ∀ p ∈ xs, s.heap.isAcked p = true
  not_acked : ∀ p ∈ rest ++ s.pending, s.heap.isAcked p = false

-- Between two operations no packet of the window is acknowledged.
abbrev Fresh (s : RdtStrategy) : Prop :=
  s.AckedPrefix [] s.window

namespace InOrder

variable {first : UInt32} {file : Bytes} {n : Int} {env : Env} {s : RdtStrategy} {p : PacketPtr}

theorem transmit (h : s.InOrder first file n) (env : Env) (hp : p ∈ s.window)
    (hacked : s.heap.isAcked p = false)
    : (s.transmit env p).InOrder first file n := by
  refine ⟨h.toInv.transmit env (h.mem_of_mem_window hp), h.windowSize_eq, h.auxWindow_eq,
    h.length_window_le, h.full, ?_, ?_⟩
  . intro q hq
    rw [sent_transmit, List.mem_append, List.mem_singleton] at hq
    cases hq with
    | inl hq => exact h.sent_sub q hq
    | inr hq => exact List.mem_append_right _ (hq ▸ hp)
  . intro q hq
    rw [heap_transmit, Heap.isAcked_setTimeStamp]
    rw [unackedPackets_transmit] at hq
    cases OrderedSet.mem_or_eq_of_mem_insert hq with
    | inl hq =>
      subst hq
      exact ⟨hp, hacked⟩
    | inr hq => exact h.unacked_sub q hq

theorem rest_eq_nil (h : s.InOrder first file n) (hpos : 0 < sizeT n) (hwindow : s.window = [])
    : s.auxWindow = [] ∧ s.pending = [] := by
  refine ⟨h.auxWindow_eq, h.full ?_⟩
  rw [hwindow]
  exact hpos

theorem setTimeStamp (h : s.InOrder first file n) (env : Env) (p : PacketPtr)
    : (s.setTimeStamp env p).InOrder first file n := by
  refine ⟨⟨h.builder, h.content, h.endSeqNum, ?_, h.sent_mem⟩, h.windowSize_eq, h.auxWindow_eq,
    h.length_window_le, h.full, h.sent_sub, ?_⟩
  . intro q hq
    rw [RdtStrategy.setTimeStamp, Heap.isAcked_setTimeStamp]
    exact h.popped_acked q hq
  . intro q hq
    rw [RdtStrategy.setTimeStamp, Heap.isAcked_setTimeStamp]
    exact h.unacked_sub q hq

theorem eraseUnacked (h : s.InOrder first file n) (p : PacketPtr)
    : (s.eraseUnacked p).InOrder first file n := by
  refine ⟨h.toInv.eraseUnacked p, h.windowSize_eq, h.auxWindow_eq, h.length_window_le, h.full,
    h.sent_sub, ?_⟩
  intro q hq
  rw [unackedPackets_eraseUnacked, OrderedSet.mem_erase] at hq
  exact h.unacked_sub q hq.1

theorem setAck (h : s.InOrder first file n) (hp : p ∈ s.window)
    : ((s.setAck p true).eraseUnacked p).InOrder first file n := by
  refine ⟨(h.toInv.setAck_true p).eraseUnacked p, h.windowSize_eq, h.auxWindow_eq,
    h.length_window_le, h.full, h.sent_sub, ?_⟩
  intro q hq
  simp only [unackedPackets_eraseUnacked, unackedPackets_setAck, heap_setAck, OrderedSet.mem_erase,
    Heap.timeStamp_setAck] at hq
  obtain ⟨hwindow, hacked⟩ := h.unacked_sub q hq.1
  refine ⟨hwindow, ?_⟩
  rw [heap_eraseUnacked, heap_setAck, Heap.isAcked_setAck, if_neg]
  . exact hacked
  . intro haddr
    have heq := eq_of_mem_packets_of_addr_eq (h.mem_of_mem_window hwindow) (h.mem_of_mem_window hp)
      haddr
    exact hq.2 (heq ▸ rfl)

theorem setAcks (h : s.InOrder first file n) (ys : List PacketPtr) (hys : ∀ y ∈ ys, y ∈ s.window)
    : let t := ys.foldl (fun s p => (s.setAck p true).eraseUnacked p) s
      t.InOrder first file n ∧ t.window = s.window ∧ t.pending = s.pending ∧ t.popped = s.popped
        ∧ t.sent = s.sent
        ∧ ∀ q, t.heap.isAcked q = (s.heap.isAcked q || ys.any (fun y => q.addr = y.addr)) := by
  induction ys generalizing s with
  | nil => exact ⟨h, rfl, rfl, rfl, rfl, by simp⟩
  | cons y ys ih =>
    obtain ⟨hinv, hwindow, hpending, hpopped, hsent, hacked⟩ :=
      ih (h.setAck (hys y (by simp))) (fun z hz => hys z (by simp [hz]))
    refine ⟨hinv, hwindow, hpending, hpopped, hsent, ?_⟩
    intro q
    rw [List.foldl_cons, hacked, heap_eraseUnacked, heap_setAck, Heap.isAcked_setAck, List.any_cons]
    split <;> simp [*]

theorem ackedPrefix_setAcks (h : s.InOrder first file n) (hs : s.Fresh)
    {xs rest ys : List PacketPtr} (hwindow : s.window = xs ++ rest) (hys : ∀ y, y ∈ ys ↔ y ∈ xs)
    : (ys.foldl (fun s p => (s.setAck p true).eraseUnacked p) s).AckedPrefix xs rest := by
  obtain ⟨_, hwin, hpending, _, _, hacked⟩ := h.setAcks ys (by simp [hwindow, hys]; tauto)
  have haddr := (List.pairwise_append.mp h.pairwise_addr).2.1
  rw [hwindow, h.auxWindow_eq, List.nil_append, List.append_assoc, List.pairwise_append] at haddr
  refine ⟨hwin.trans hwindow, ?_, ?_⟩
  . intro q hq
    rw [hacked]
    simp only [Bool.or_eq_true, List.any_eq_true, decide_eq_true_eq]
    exact .inr ⟨q, (hys q).mpr hq, rfl⟩
  . intro q hq
    rw [hpending] at hq
    have hfresh := hs.not_acked q (by
      simp only [hwindow, List.append_assoc, List.mem_append] at hq ⊢
      exact .inr hq)
    rw [hacked, hfresh, Bool.false_or, List.any_eq_false]
    intro y hy heq
    have hlt := haddr.2.2 y ((hys y).mp hy) q hq
    rw [of_decide_eq_true heq] at hlt
    exact Nat.lt_irrefl _ hlt

end InOrder

section

variable {env : Env} {s s' : RdtStrategy} {p q : PacketPtr} {xs rest : List PacketPtr}

theorem advanceWindow_of_front (h : ∀ p ∈ s.window.head?, s.heap.isAcked p = false)
    : s.advanceWindow env = s := by
  rw [advanceWindow]
  split
  . rfl
  . next p _ hw =>
    have := h p (by simp [hw])
    simp [this]

theorem advanceWindow_of_some (hw : s.window = p :: rest) (hacked : s.heap.isAcked p = true)
    (hnext : s.pktBuilder.hasNext = true) (hget : s.popFront.getNextPacket = some (q, s'))
    : s.advanceWindow env
        = ({ s' with window := s'.window ++ [q] }.transmit env q).advanceWindow env := by
  rw [advanceWindow]
  split
  . next hnil => simp [hnil] at hw
  . next hcons =>
    rw [hcons, List.cons.injEq] at hw
    rw [hw.1, if_pos hacked, if_pos hnext]
    split
    . next hget' =>
      rw [hget] at hget'
      cases hget'
      rfl
    . next hget' => simp [hget] at hget'

theorem advanceWindow_of_none (hw : s.window = p :: rest) (hacked : s.heap.isAcked p = true)
    (hnext : s.pktBuilder.hasNext = true) (hget : s.popFront.getNextPacket = none)
    : s.advanceWindow env = s.popFront := by
  rw [advanceWindow]
  split
  . next hnil => simp [hnil] at hw
  . next hcons =>
    rw [hcons, List.cons.injEq] at hw
    rw [hw.1, if_pos hacked, if_pos hnext]
    split
    . next hget' => simp [hget] at hget'
    . rfl

theorem advanceWindow_of_end (hw : s.window = p :: rest) (hacked : s.heap.isAcked p = true)
    (hnext : s.pktBuilder.hasNext = false)
    : s.advanceWindow env = s.popFront.advanceWindow env := by
  rw [advanceWindow]
  split
  . next hnil => simp [hnil] at hw
  . next hcons =>
    rw [hcons, List.cons.injEq] at hw
    simp [hw.1, hacked, hnext]

theorem advanceWindow_induction {P : RdtStrategy → Prop} (hpop : ∀ s, P s → P s.popFront)
    (hpush : ∀ s q s', s.getNextPacket = some (q, s') → P s
      → P ({ s' with window := s'.window ++ [q] }.transmit env q))
    (h : P s)
    : P (s.advanceWindow env) := by
  induction s using advanceWindow.induct env with
  | case1 s hw =>
    rw [advanceWindow]
    split
    . exact h
    . next hw' => simp [hw'] at hw
  | case2 s p rest hw hacked hnext q s' hget ih =>
    rw [advanceWindow_of_some hw hacked hnext hget]
    exact ih (hpush _ q s' hget (hpop s h))
  | case3 s p rest hw hacked hnext hget =>
    rw [advanceWindow_of_none hw hacked hnext hget]
    exact hpop s h
  | case4 s p rest hw hacked hnext ih =>
    rw [advanceWindow_of_end hw hacked (by simpa using hnext)]
    exact ih (hpop s h)
  | case5 s p rest hw hacked =>
    rw [advanceWindow_of_front]
    . exact h
    . simpa [hw] using hacked

theorem isAcked_advanceWindow (env : Env) (s : RdtStrategy)
    : (s.advanceWindow env).heap.isAcked p = s.heap.isAcked p := by
  apply advanceWindow_induction (P := fun t => t.heap.isAcked p = s.heap.isAcked p)
  . exact fun _ => id
  . intro t q t' hget ht
    obtain ⟨_, _, _, rfl⟩ := getNextPacket_eq_some hget
    rw [heap_transmit, Heap.isAcked_setTimeStamp]
    exact ht
  . rfl

theorem sent_prefix_advanceWindow (env : Env) (s : RdtStrategy)
    : s.sent <+: (s.advanceWindow env).sent := by
  apply advanceWindow_induction (P := fun t => s.sent <+: t.sent)
  . exact fun _ => id
  . intro t q t' hget ht
    obtain ⟨_, _, _, rfl⟩ := getNextPacket_eq_some hget
    rw [sent_transmit]
    exact ht.trans (List.prefix_append _ _)
  . exact List.prefix_rfl

end

section

variable {first : UInt32} {file : Bytes} {n : Int} {env : Env} {s : RdtStrategy} {p : PacketPtr}
variable {xs rest : List PacketPtr}

theorem inv_popFront (h : s.Inv first file) (hw : s.window = p :: rest)
    (hacked : s.heap.isAcked p = true)
    : s.popFront.Inv first file := by
  refine ⟨h.builder, ?_, h.endSeqNum, ?_, h.sent_mem⟩
  . have := h.content
    simpa [popFront, pending, hw] using this
  . intro q hq
    simp only [popFront, hw, List.take_succ_cons, List.take_zero, List.mem_append,
      List.mem_singleton] at hq
    cases hq with
    | inl hq => exact h.popped_acked q hq
    | inr hq => exact hq ▸ hacked

structure Pass (first : UInt32) (file : Bytes) (n : Int) (env : Env) (p : PacketPtr)
    (xs rest : List PacketPtr) (s t : RdtStrategy) : Prop
    extends t.InOrder first file n, t.AckedPrefix xs (rest ++ s.pending.take 1) where
  advance_eq : s.advanceWindow env = t.advanceWindow env
  popped_eq : t.popped = s.popped ++ [p]
  pending_eq : t.pending = s.pending.drop 1
  timerInv : StrictMono env.now → s.TimerInv env → t.TimerInv env

theorem timerInv_popFront (ht : s.TimerInv env) (hw : s.window = p :: rest)
    (hacked : s.heap.isAcked p = true)
    : s.popFront.TimerInv env := by
  have hwindow : s.window = [p] ++ rest := hw
  unfold popFront
  rw [hw, List.tail_cons]
  apply ht.dropPrefix hwindow
  simpa using hacked

theorem unacked_sub_popFront (h : s.InOrder first file n) (hw : s.window = p :: rest)
    (hacked : s.heap.isAcked p = true)
    : ∀ q ∈ s.unackedPackets, q ∈ s.popFront.window ∧ s.heap.isAcked q = false := by
  intro q hq
  obtain ⟨hmem, hnot⟩ := h.unacked_sub q hq
  rw [hw, List.mem_cons] at hmem
  refine ⟨?_, hnot⟩
  cases hmem with
  | inl heq => simp [heq, hacked] at hnot
  | inr hmem => simpa [popFront, hw] using hmem

theorem pass_end (h : s.InOrder first file n) (hpre : s.AckedPrefix (p :: xs) rest)
    (hpending : s.pending = [])
    : Pass first file n env p xs rest s s.popFront := by
  have hw : s.window = p :: (xs ++ rest) := hpre.window_eq
  have hacked : s.heap.isAcked p = true := hpre.acked p (by simp)
  have hpopped : s.popFront.popped = s.popped ++ [p] := by simp [popFront, hw]
  have hwindow : s.popFront.window = xs ++ rest := by simp [popFront, hw]
  have hnext : s.pktBuilder.hasNext = false := by
    rw [← Bool.not_eq_true, h.hasNext_iff, hpending]
    simp
  have hlen := h.length_window_le
  rw [hw, List.length_cons] at hlen
  refine ⟨⟨inv_popFront h.toInv hw hacked, h.windowSize_eq, h.auxWindow_eq, ?_, fun _ => hpending,
    ?_, ?_⟩, ⟨?_, ?_, ?_⟩, advanceWindow_of_end hw hacked hnext, hpopped, ?_, ?_⟩
  . rw [hwindow]
    exact Nat.le_of_succ_le hlen
  . intro q hq
    have := h.sent_sub q hq
    rw [hw] at this
    simpa [hpopped, hwindow] using this
  . exact unacked_sub_popFront h hw hacked
  . simpa [hpending] using hwindow
  . intro q hq
    exact hpre.acked q (by simp [hq])
  . intro q hq
    apply hpre.not_acked q
    change q ∈ rest ++ s.pending.take 1 ++ s.pending at hq
    simpa [hpending] using hq
  . rw [hpending]
    exact hpending
  . intro _ ht
    exact timerInv_popFront ht hw hacked

theorem pass_next (h : s.InOrder first file n) (hpre : s.AckedPrefix (p :: xs) rest)
    {q : PacketPtr} {later : List PacketPtr} (hpending : s.pending = q :: later)
    : ∃ t, Pass first file n env p xs rest s t := by
  have hw : s.window = p :: (xs ++ rest) := hpre.window_eq
  have hacked : s.heap.isAcked p = true := hpre.acked p (by simp)
  have hpop := inv_popFront h.toInv hw hacked
  have hwindow : s.popFront.window = xs ++ rest := by simp [popFront, hw]
  have hnext : s.pktBuilder.hasNext = true := by
    rw [h.hasNext_iff, hpending]
    simp
  obtain ⟨q', s', hget, hpending', hpush⟩ := hpop.getNextPacket h.auxWindow_eq hnext
  obtain ⟨b, m, _, rfl⟩ := getNextPacket_eq_some hget
  rw [show s.popFront.pending = q :: later from hpending, List.cons.injEq] at hpending'
  obtain ⟨rfl, hlater⟩ := hpending'
  have hq : s.heap.isAcked q = false := hpre.not_acked q (by simp [hpending])
  have haddr : ∀ r ∈ s.popFront.window, r.addr ≠ q.addr := by
    have := hpush.pairwise_addr_window
    simp only [List.pairwise_append, List.mem_singleton] at this
    intro r hr
    exact Nat.ne_of_lt (this.2.2 r hr q rfl)
  have hlen := h.length_window_le
  have hfull := h.full
  rw [hw, List.length_cons, List.length_append] at hlen hfull
  have hinOrder : { s.popFront with
      pktBuilder := b, nextSeqNumber := m, window := s.popFront.window ++ [q]
      }.InOrder first file n := by
    refine ⟨hpush, h.windowSize_eq, h.auxWindow_eq, ?_, ?_, ?_, ?_⟩
    . simp only [hwindow, List.length_append, List.length_singleton]
      omega
    . intro hlt
      simp only [hwindow, List.length_append, List.length_singleton] at hlt
      simp [hpending, hlt] at hfull
    . intro r hr
      have := h.sent_sub r hr
      rw [hw] at this
      simp only [popFront, hw, List.take_succ_cons, List.take_zero, List.tail_cons,
        List.append_assoc, List.singleton_append, List.mem_append, List.mem_cons] at this ⊢
      tauto
    . intro r hr
      obtain ⟨hmem, hnot⟩ := unacked_sub_popFront h hw hacked r hr
      exact ⟨List.mem_append_left _ hmem, hnot⟩
  refine ⟨_, ⟨hinOrder.transmit env (by simp) hq, ⟨?_, ?_, ?_⟩,
    advanceWindow_of_some hw hacked hnext hget, ?_, ?_, ?_⟩⟩
  . simp [hwindow, hpending]
  . intro r hr
    rw [heap_transmit, Heap.isAcked_setTimeStamp]
    exact hpre.acked r (by simp [hr])
  . intro r hr
    rw [heap_transmit, Heap.isAcked_setTimeStamp]
    apply hpre.not_acked r
    change r ∈ rest ++ s.pending.take 1 ++ b.pending m at hr
    change later = b.pending m at hlater
    rw [← hlater] at hr
    simpa [hpending] using hr
  . simp [popFront, hw]
  . rw [hpending]
    exact hlater.symm
  . intro hclock ht
    have ht' : { s.popFront with pktBuilder := b, nextSeqNumber := m }.TimerInv env := by
      have := timerInv_popFront ht hw hacked
      exact ⟨this.sorted, this.past, this.unackedPackets_eq⟩
    exact ht'.pushAndTransmit hclock haddr hq

theorem exists_pass (h : s.InOrder first file n) (hpre : s.AckedPrefix (p :: xs) rest) (env : Env)
    : ∃ t, Pass first file n env p xs rest s t := by
  cases hpending : s.pending with
  | nil => exact ⟨_, pass_end h hpre hpending⟩
  | cons q later => exact pass_next h hpre hpending

theorem advanceWindow_spec (h : s.InOrder first file n) (hpre : s.AckedPrefix xs rest) (env : Env)
    : let t := s.advanceWindow env
      t.InOrder first file n ∧ t.Fresh ∧ t.popped = s.popped ++ xs
        ∧ t.window = rest ++ s.pending.take xs.length
        ∧ (StrictMono env.now → s.TimerInv env → t.TimerInv env) := by
  induction xs generalizing s rest with
  | nil =>
    have hwindow : s.window = rest := hpre.window_eq
    have hfront : ∀ p ∈ s.window.head?, s.heap.isAcked p = false := by
      intro p hp
      apply hpre.not_acked
      exact List.mem_append_left _ (hwindow ▸ List.mem_of_mem_head? hp)
    rw [advanceWindow_of_front hfront]
    refine ⟨h, ⟨rfl, by simp, hwindow ▸ hpre.not_acked⟩, by simp, by simp [hwindow], fun _ => id⟩
  | cons p xs ih =>
    obtain ⟨t, ht⟩ := exists_pass h hpre env
    obtain ⟨hinv, hfresh, hpopped, hwindow, htimer⟩ := ih ht.toInOrder ht.toAckedPrefix
    rw [ht.advance_eq]
    refine ⟨hinv, hfresh, ?_, ?_, ?_⟩
    . rw [hpopped, ht.popped_eq, List.append_assoc, List.singleton_append]
    . rw [hwindow, ht.pending_eq, List.append_assoc, List.length_cons, Nat.add_comm, List.take_add]
    . intro hclock hs
      exact htimer hclock (ht.timerInv hclock hs)

theorem fresh_transmit (hs : s.Fresh) (env : Env) (p : PacketPtr) : (s.transmit env p).Fresh := by
  refine ⟨rfl, by simp, ?_⟩
  intro q hq
  rw [heap_transmit, Heap.isAcked_setTimeStamp]
  exact hs.not_acked q hq

theorem inOrder_new (first : UInt32) (file : Bytes) {windowSize : Int} (maxWindowSize threshold : Int)
    (hpos : 0 < windowSize)
    (hle : MAX_DATA_SIZE * windowSize < 2 ^ 31)
    : let s := new (File.regular file) first windowSize maxWindowSize threshold
      s.InOrder first file windowSize ∧ s.Fresh ∧ s.popped = [] ∧ s.unackedPackets = [] := by
  obtain ⟨hinv, hnew⟩ := new_spec first file maxWindowSize threshold hpos hle
  refine ⟨⟨hinv, hnew.windowSize_eq, hnew.auxWindow_eq, hnew.length_window_le, ?_, ?_, ?_⟩,
    ⟨rfl, by simp, ?_⟩, hnew.popped_eq, hnew.unackedPackets_eq⟩
  . exact pending_new first file maxWindowSize threshold hpos hle
  . simp [hnew.sent_eq]
  . simp [hnew.unackedPackets_eq]
  . simp [hnew.heap_eq, Heap.isAcked]

end

end RdtStrategy
