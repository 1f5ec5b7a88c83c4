import Mathlib.Data.List.TakeWhile
import RdtProtocol.Server.Strategy.BasicLemmas
import RdtProtocol.Server.Strategy.SelectiveRepeat

/-!
This module contains the invariants of the selective repeat sender. `Inv` holds at every moment,
`Settled` only between two operations.
-/

namespace SelectiveRepeat

structure Inv (file : Bytes) (maxWindowSize : Int) (s : RdtStrategy) : Prop
    extends RdtStrategy.Inv 1 file s where
  maxWindowSize_eq : s.maxWindowSize = maxWindowSize
  one_le_windowSize : 1 ≤ s.windowSize
  windowSize_le : s.windowSize ≤ maxWindowSize
  length_window_le : (s.window.length : Int) ≤ s.windowSize
  -- Doubling a window size below the threshold stays within an `int`.
  threshold_le : s.threshold ≤ 1 ∨ 2 * s.threshold ≤ maxWindowSize

structure Settled (s : RdtStrategy) : Prop where
  front : ∀ p ∈ s.window.head?, s.heap.isAcked p = false
  empty : s.window = [] → s.auxWindow = [] ∧ s.pending = []

theorem shrinkWindow_eq (s : RdtStrategy) (newSize : Int)
    : shrinkWindow s newSize
        =
      let size := if newSize < 1 then 1 else newSize
      let moved := s.window.drop (sizeT size)
      {
        s with
          threshold := if s.windowSize.tdiv 2 < 1 then 1 else s.windowSize.tdiv 2
          windowSize := size
          unackedPackets :=
            s.unackedPackets.filter (fun y => ∀ x ∈ moved, s.heap.timeStamp y ≠ s.heap.timeStamp x)
          auxWindow :=
            moved.foldl (fun aux p => OrderedSet.insert (·.packet.seqno.toNat) p aux) s.auxWindow
          window := s.window.take (sizeT size)
      } := by
  simp only [shrinkWindow, foldl_eraseUnacked, OrderedSet.foldl_erase_eq_filter]

section

variable (env : Env) (s : RdtStrategy) (newSize : Int) (p : PacketPtr)

@[simp]
theorem heap_shrinkWindow : (shrinkWindow s newSize).heap = s.heap := by
  rw [shrinkWindow_eq]

@[simp]
theorem popped_shrinkWindow : (shrinkWindow s newSize).popped = s.popped := by
  rw [shrinkWindow_eq]

@[simp]
theorem sent_shrinkWindow : (shrinkWindow s newSize).sent = s.sent := by
  rw [shrinkWindow_eq]

@[simp]
theorem pending_shrinkWindow : (shrinkWindow s newSize).pending = s.pending := by
  rw [shrinkWindow_eq]
  rfl

@[simp]
theorem head?_shrinkWindow : (shrinkWindow s newSize).window.head? = s.window.head? := by
  have : sizeT (if newSize < 1 then 1 else newSize) ≠ 0 := by
    unfold sizeT
    grind
  rw [window_shrinkWindow, List.head?_take, if_neg this]

@[simp]
theorem head?_sendPacket : (sendPacket env s p).window.head? = s.window.head? := by
  obtain heq | heq := sendPacket_cases env s p <;> simp [heq]

@[simp]
theorem popped_sendPacket : (sendPacket env s p).popped = s.popped := by
  obtain heq | heq := sendPacket_cases env s p <;> simp [heq]

@[simp]
theorem sent_sendPacket : (sendPacket env s p).sent = s.sent ++ [p] := by
  obtain heq | heq := sendPacket_cases env s p <;> simp [heq]

@[simp]
theorem isAcked_sendPacket (q : PacketPtr)
    : (sendPacket env s p).heap.isAcked q = s.heap.isAcked q := by
  obtain heq | heq := sendPacket_cases env s p <;> simp [heq]

end

namespace Inv

variable {file : Bytes} {maxWindowSize : Int} {env : Env} {s : RdtStrategy} {p : PacketPtr}

theorem setAck_true (h : Inv file maxWindowSize s) (p : PacketPtr)
    : Inv file maxWindowSize (s.setAck p true) :=
  { h with toInv := h.toInv.setAck_true p }

theorem eraseUnacked (h : Inv file maxWindowSize s) (p : PacketPtr)
    : Inv file maxWindowSize (s.eraseUnacked p) :=
  { h with toInv := h.toInv.eraseUnacked p }

theorem transmit (h : Inv file maxWindowSize s) (env : Env) (hp : p ∈ packets 1 file)
    : Inv file maxWindowSize (s.transmit env p) :=
  { h with toInv := h.toInv.transmit env hp }

theorem foldl_insert_aux (h : Inv file maxWindowSize s)
    (hN : (file.chunks MAX_DATA_SIZE).length < 2 ^ 32 - 1) (k : Nat)
    : (s.window.drop k).foldl (fun aux p => OrderedSet.insert (·.packet.seqno.toNat) p aux)
        s.auxWindow
        = s.window.drop k ++ s.auxWindow := by
  apply OrderedSet.foldl_insert_eq_append
  have hseqno : (packets 1 file).Pairwise (fun p q => p.packet.seqno.toNat < q.packet.seqno.toNat) := by
    rw [← List.pairwise_map (f := (fun (p : PacketPtr) => p.packet.seqno.toNat)) (R := (· < ·)),
      map_seqno_packets (by simp; omega)]
    exact List.pairwise_lt_range'
  apply List.Pairwise.sublist ?_ hseqno
  rw [← h.content]
  apply List.Sublist.trans ?_ (List.sublist_append_right _ _)
  rw [← List.append_assoc]
  apply List.Sublist.trans ?_ (List.sublist_append_left _ _)
  exact List.Sublist.append (List.drop_sublist k _) (List.Sublist.refl _)

theorem shrinkWindow (h : Inv file maxWindowSize s)
    (hN : (file.chunks MAX_DATA_SIZE).length < 2 ^ 32 - 1) {newSize : Int}
    (hsize : newSize ≤ maxWindowSize)
    : Inv file maxWindowSize (shrinkWindow s newSize) := by
  have hone := h.one_le_windowSize
  have hle := h.windowSize_le
  rw [shrinkWindow_eq]
  dsimp only
  rw [h.foldl_insert_aux hN]
  generalize hk : (if newSize < 1 then 1 else newSize) = k
  have hk1 : 1 ≤ k := by split at hk <;> omega
  refine ⟨⟨h.builder, ?_, h.endSeqNum, h.popped_acked, h.sent_mem⟩, h.maxWindowSize_eq, ?_, ?_, ?_,
    ?_⟩
  . have := h.content
    rw [← List.take_append_drop (sizeT k) s.window, List.append_assoc] at this
    simp only [List.append_assoc]
    exact this
  . exact hk1
  . dsimp only
    split at hk <;> omega
  . rw [List.length_take, sizeT_of_nonneg (by omega)]
    dsimp only
    omega
  . have hhalf : s.windowSize.tdiv 2 = s.windowSize / 2 := by
      rw [tdiv_two_eq, if_pos (by omega)]
    rw [hhalf]
    dsimp only
    split <;> omega

theorem sendPacket (h : Inv file maxWindowSize s)
    (hN : (file.chunks MAX_DATA_SIZE).length < 2 ^ 32 - 1) (env : Env) (hp : p ∈ packets 1 file)
    : Inv file maxWindowSize (sendPacket env s p) := by
  have hone := h.one_le_windowSize
  have hle := h.windowSize_le
  cases sendPacket_cases env s p with
  | inl heq =>
    rw [heq]
    exact h.transmit env hp
  | inr heq =>
    rw [heq]
    apply (h.transmit env hp).shrinkWindow hN
    rw [tdiv_two_eq, if_pos (by omega)]
    omega

theorem adjustWindowSize (h : Inv file maxWindowSize s) (hmax : maxWindowSize < 2 ^ 31 - 1)
    : Inv file maxWindowSize (adjustWindowSize s) := by
  have hone := h.one_le_windowSize
  have hle := h.windowSize_le
  have hlen := h.length_window_le
  have hthreshold := h.threshold_le
  have hnew : s.windowSize ≤ (SelectiveRepeat.adjustWindowSize s).windowSize
      ∧ (SelectiveRepeat.adjustWindowSize s).windowSize ≤ maxWindowSize := by
    simp only [SelectiveRepeat.adjustWindowSize, h.maxWindowSize_eq]
    rw [int32_of_bounds (x := s.windowSize + 1) (by omega) (by omega)]
    split
    . rw [int32_of_bounds (by omega) (by omega)]
      split <;> omega
    . split <;> omega
  refine ⟨⟨h.builder, h.content, h.endSeqNum, h.popped_acked, h.sent_mem⟩, h.maxWindowSize_eq, ?_,
    hnew.2, ?_, h.threshold_le⟩
  . omega
  . exact Int.le_trans hlen hnew.1

theorem advanceWindow (h : Inv file maxWindowSize s)
    : Inv file maxWindowSize (advanceWindow s) := by
  have hsplit := List.takeWhile_append_dropWhile (p := s.heap.isAcked) (l := s.window)
  have hlen := congrArg List.length hsplit
  have hwindow := h.length_window_le
  rw [List.length_append] at hlen
  refine ⟨⟨h.builder, ?_, h.endSeqNum, ?_, h.sent_mem⟩, h.maxWindowSize_eq, h.one_le_windowSize,
    h.windowSize_le, ?_, h.threshold_le⟩
  . have := h.content
    rw [← hsplit] at this
    simp only [SelectiveRepeat.advanceWindow, List.append_assoc] at this ⊢
    exact this
  . intro q hq
    simp only [SelectiveRepeat.advanceWindow, List.mem_append] at hq ⊢
    cases hq with
    | inl hq => exact h.popped_acked q hq
    | inr hq => exact List.mem_takeWhile_imp hq
  . simp only [SelectiveRepeat.advanceWindow]
    omega

theorem takeNext (h : Inv file maxWindowSize s) {s' : RdtStrategy}
    (hlt : s.window.length < sizeT s.windowSize) (hnext : takeNext s = some (p, s'))
    : Inv file maxWindowSize { s' with window := s'.window ++ [p] }
        ∧ p ∈ s.auxWindow ++ s.pending := by
  have hlen : ((s.window ++ [p]).length : Int) ≤ s.windowSize := by
    have := h.one_le_windowSize
    rw [sizeT_of_nonneg (by omega)] at hlt
    rw [List.length_append, List.length_singleton]
    omega
  unfold SelectiveRepeat.takeNext at hnext
  split at hnext
  . next q aux haux =>
    cases hnext
    refine ⟨⟨⟨h.builder, ?_, h.endSeqNum, h.popped_acked, h.sent_mem⟩, h.maxWindowSize_eq,
      h.one_le_windowSize, h.windowSize_le, hlen, h.threshold_le⟩, ?_⟩
    . have := h.content
      rw [haux] at this
      simpa [RdtStrategy.pending] using this
    . simp [haux]
  . next haux =>
    split at hnext
    . next hhas =>
      obtain ⟨q, t, hget, hpending, hinv⟩ := h.toInv.getNextPacket haux hhas
      rw [hget] at hnext
      cases hnext
      obtain ⟨_, _, _, rfl⟩ := RdtStrategy.getNextPacket_eq_some hget
      refine ⟨⟨hinv, h.maxWindowSize_eq, h.one_le_windowSize, h.windowSize_le, hlen,
        h.threshold_le⟩, ?_⟩
      simp [hpending]
    . contradiction

theorem pushAndSend (h : Inv file maxWindowSize s)
    (hN : (file.chunks MAX_DATA_SIZE).length < 2 ^ 32 - 1) (env : Env) {s' : RdtStrategy}
    (hlt : s.window.length < sizeT s.windowSize)
    (hnext : SelectiveRepeat.takeNext s = some (p, s'))
    : Inv file maxWindowSize (pushAndSend env s' p) := by
  obtain ⟨hpush, _⟩ := h.takeNext hlt hnext
  have hmem : p ∈ packets 1 file := hpush.mem_of_mem_window (by simp)
  have hpopped : ∀ q ∈ s'.popped, q.addr ≠ p.addr := by
    intro q hq
    apply Nat.ne_of_lt
    apply hpush.addr_popped_lt hq
    simp
  have hack : Inv file maxWindowSize ({ s' with window := s'.window ++ [p] }.setAck p false) :=
    { hpush with toInv := hpush.toInv.setAck_false hpopped }
  exact hack.sendPacket hN env hmem

end Inv

section

variable {env : Env} {s : RdtStrategy}

theorem expandWindow_of_some {s' : RdtStrategy} {p : PacketPtr}
    (hlt : s.window.length < sizeT s.windowSize) (hnext : takeNext s = some (p, s'))
    : expandWindow env s = expandWindow env (pushAndSend env s' p) := by
  rw [expandWindow, if_pos hlt]
  split
  . next hnext' =>
    rw [hnext] at hnext'
    cases hnext'
    rfl
  . next hnext' => simp [hnext] at hnext'

theorem expandWindow_of_none
    (h : ¬ s.window.length < sizeT s.windowSize ∨ takeNext s = none)
    : expandWindow env s = s := by
  rw [expandWindow]
  split
  . next hlt =>
    split
    . next hnext' => simp [hlt, hnext'] at h
    . rfl
  . rfl

theorem expandWindow_induction {P : RdtStrategy → Prop}
    (hstep : ∀ s p s', s.window.length < sizeT s.windowSize → takeNext s = some (p, s') → P s
      → P (pushAndSend env s' p))
    (h : P s)
    : P (expandWindow env s) := by
  induction s using expandWindow.induct env with
  | case1 s hlt p s' hnext ih =>
    rw [expandWindow_of_some hlt hnext]
    apply ih
    exact hstep s p s' hlt hnext h
  | case2 s hlt hnext =>
    rw [expandWindow_of_none (.inr hnext)]
    exact h
  | case3 s hlt =>
    rw [expandWindow_of_none (.inl hlt)]
    exact h

theorem expandWindow_exit (env : Env) (s : RdtStrategy)
    : ¬ (expandWindow env s).window.length < sizeT (expandWindow env s).windowSize
        ∨ takeNext (expandWindow env s) = none := by
  induction s using expandWindow.induct env with
  | case1 s hlt p s' hnext ih =>
    rw [expandWindow_of_some hlt hnext]
    exact ih
  | case2 s hlt hnext =>
    rw [expandWindow_of_none (.inr hnext)]
    exact .inr hnext
  | case3 s hlt =>
    rw [expandWindow_of_none (.inl hlt)]
    exact .inl hlt

theorem takeNext_frame {s' : RdtStrategy} {p : PacketPtr} (h : takeNext s = some (p, s'))
    : s'.heap = s.heap ∧ s'.popped = s.popped ∧ s'.sent = s.sent
        ∧ s'.unackedPackets = s.unackedPackets ∧ s'.clockReads = s.clockReads := by
  obtain ⟨_, _, _, rfl⟩ := takeNext_eq_some h
  exact ⟨rfl, rfl, rfl, rfl, rfl⟩

theorem takeNext_eq_none (hwf : s.pktBuilder.WF) (hnext : takeNext s = none)
    : s.auxWindow = [] ∧ s.pending = [] := by
  unfold takeNext at hnext
  split at hnext
  . contradiction
  . next haux =>
    refine ⟨haux, ?_⟩
    by_contra hne
    have hhas : s.pktBuilder.hasNext = true := (PacketBuilder.hasNext_iff hwf s.nextSeqNumber).mpr hne
    obtain ⟨_, _, _, hget, _⟩ := PacketBuilder.exists_getNextPacket hwf hhas s.nextSeqNumber
    simp [hhas, RdtStrategy.getNextPacket, hget] at hnext

theorem front_pushAndSend {s' : RdtStrategy} {p : PacketPtr} (hnext : takeNext s = some (p, s'))
    (hfront : ∀ q ∈ s.window.head?, s.heap.isAcked q = false)
    : ∀ q ∈ (pushAndSend env s' p).window.head?, (pushAndSend env s' p).heap.isAcked q = false := by
  intro q hq
  obtain ⟨hheap, _⟩ := takeNext_frame hnext
  obtain ⟨hwindow, _⟩ := takeNext_window hnext
  simp only [pushAndSend, head?_sendPacket, RdtStrategy.window_setAck, hwindow,
    List.head?_append, isAcked_sendPacket, RdtStrategy.heap_setAck, Heap.isAcked_setAck,
    hheap] at hq ⊢
  split
  . rfl
  . next hne =>
    cases hhead : s.window.head? with
    | none => simp_all
    | some r =>
      simp only [hhead, Option.some_or, Option.mem_some_iff] at hq
      exact hfront q (by simp [hhead, hq])

theorem popped_expandWindow (env : Env) (s : RdtStrategy)
    : (expandWindow env s).popped = s.popped := by
  apply expandWindow_induction (P := fun t => t.popped = s.popped)
  . intro t p t' _ hnext ht
    simp [pushAndSend, (takeNext_frame hnext).2.1, ht]
  . rfl

theorem isAcked_of_isAcked_expandWindow (env : Env) (s : RdtStrategy) (q : PacketPtr)
    : (expandWindow env s).heap.isAcked q = true → s.heap.isAcked q = true := by
  apply expandWindow_induction (P := fun t => t.heap.isAcked q = true → s.heap.isAcked q = true)
  . intro t p t' _ hnext ht
    simp only [pushAndSend, isAcked_sendPacket, RdtStrategy.heap_setAck, Heap.isAcked_setAck,
      (takeNext_frame hnext).1]
    split
    . simp
    . exact ht
  . exact id

end

section

variable {file : Bytes} {maxWindowSize : Int} {env : Env} {s : RdtStrategy} {p : PacketPtr}

theorem setAcked_cases (s : RdtStrategy) (p : PacketPtr)
    : setAcked s p = (s.setAck p true).eraseUnacked p
        ∨ setAcked s p = advanceWindow ((s.setAck p true).eraseUnacked p) := by
  unfold setAcked
  dsimp only
  split
  . exact .inr rfl
  . exact .inl rfl

theorem isAcked_setAcked (q : PacketPtr)
    : (setAcked s p).heap.isAcked q = if q.addr = p.addr then true else s.heap.isAcked q := by
  obtain heq | heq := setAcked_cases s p <;> simp [heq, advanceWindow]

theorem popped_prefix_setAcked : s.popped <+: (setAcked s p).popped := by
  cases setAcked_cases s p with
  | inl heq =>
    rw [heq]
    apply List.prefix_rfl
  | inr heq =>
    rw [heq]
    apply List.prefix_append

theorem length_popped_setAcked_of_head (hp : s.window.head? = some p)
    : s.popped.length < (setAcked s p).popped.length := by
  cases hw : s.window with
  | nil => simp [hw] at hp
  | cons q rest =>
    simp only [hw, List.head?_cons, Option.some.injEq] at hp
    subst hp
    simp [setAcked, advanceWindow, hw]

theorem inv_setAcked (h : Inv file maxWindowSize s) : Inv file maxWindowSize (setAcked s p) := by
  have hacked := (h.setAck_true p).eraseUnacked p
  cases setAcked_cases s p with
  | inl heq =>
    rw [heq]
    exact hacked
  | inr heq =>
    rw [heq]
    exact hacked.advanceWindow

theorem front_setAcked (haddr : ∀ q ∈ s.window, q.addr = p.addr → q = p)
    (hfront : ∀ q ∈ s.window.head?, s.heap.isAcked q = false)
    : ∀ q ∈ (setAcked s p).window.head?, (setAcked s p).heap.isAcked q = false := by
  intro q hq
  by_cases hbegin : s.window.head? = some p
  . simp only [setAcked, hbegin, ↓reduceIte, advanceWindow] at hq ⊢
    have := List.head?_dropWhile_not ((s.setAck p true).eraseUnacked p).heap.isAcked
      ((s.setAck p true).eraseUnacked p).window
    rw [hq] at this
    exact this
  . simp only [setAcked, hbegin, ↓reduceIte, RdtStrategy.window_eraseUnacked,
      RdtStrategy.window_setAck, RdtStrategy.heap_eraseUnacked, RdtStrategy.heap_setAck,
      Heap.isAcked_setAck] at hq ⊢
    have hne : q.addr ≠ p.addr := by
      intro heq
      rw [haddr q (List.mem_of_mem_head? hq) heq] at hq
      exact hbegin hq
    rw [if_neg hne]
    exact hfront q hq

theorem acknowledgePacket_cases (env : Env) (s : RdtStrategy) (ackPkt : AckPacket)
    : acknowledgePacket env s ackPkt = s
        ∨ ∃ p ∈ s.window, p.packet.seqno = ackPkt.ackno ∧ s.heap.isAcked p = false
            ∧ acknowledgePacket env s ackPkt
                = expandWindow env (adjustWindowSize (setAcked s p)) := by
  unfold acknowledgePacket
  split
  . split
    . next p hfind =>
      split
      . exact .inl rfl
      . next hacked =>
        refine .inr ⟨p, List.mem_of_find?_eq_some hfind, ?_, by simpa using hacked, rfl⟩
        have := List.find?_some hfind
        simp only [decide_eq_true_eq] at this
        exact this.symm
    . exact .inl rfl
  . exact .inl rfl

theorem inv_expandWindow (h : Inv file maxWindowSize s)
    (hN : (file.chunks MAX_DATA_SIZE).length < 2 ^ 32 - 1) (env : Env)
    (hfront : ∀ p ∈ s.window.head?, s.heap.isAcked p = false)
    : Inv file maxWindowSize (expandWindow env s) ∧ Settled (expandWindow env s) := by
  have hinv : Inv file maxWindowSize (expandWindow env s)
      ∧ ∀ p ∈ (expandWindow env s).window.head?, (expandWindow env s).heap.isAcked p = false := by
    apply expandWindow_induction (P := fun t =>
      Inv file maxWindowSize t ∧ ∀ p ∈ t.window.head?, t.heap.isAcked p = false) ?_ ⟨h, hfront⟩
    intro t p t' hlt hnext ht
    exact ⟨ht.1.pushAndSend hN env hlt hnext, front_pushAndSend hnext ht.2⟩
  refine ⟨hinv.1, hinv.2, ?_⟩
  intro hempty
  have hone := hinv.1.one_le_windowSize
  have hexit := expandWindow_exit env s
  rw [hempty, sizeT_of_nonneg (by omega), List.length_nil] at hexit
  apply takeNext_eq_none hinv.1.builder
  apply hexit.resolve_left
  omega

theorem settled_shrinkWindow (hs : Settled s) (newSize : Int) : Settled (shrinkWindow s newSize) := by
  constructor
  . intro q hq
    rw [head?_shrinkWindow] at hq
    rw [heap_shrinkWindow]
    exact hs.front q hq
  . intro hempty
    have hwindow : s.window = [] := by
      rw [← List.head?_eq_none_iff, ← head?_shrinkWindow s newSize, hempty]
      rfl
    rw [pending_shrinkWindow, shrinkWindow_eq]
    simpa [hwindow] using hs.empty hwindow

theorem settled_sendPacket (hs : Settled s) (env : Env) (p : PacketPtr)
    : Settled (sendPacket env s p) := by
  have htransmit : Settled (s.transmit env p) := by
    constructor
    . simpa using hs.front
    . exact hs.empty
  cases sendPacket_cases env s p with
  | inl heq =>
    rw [heq]
    exact htransmit
  | inr heq =>
    rw [heq]
    apply settled_shrinkWindow htransmit

theorem inv_acknowledgePacket (h : Inv file maxWindowSize s) (hs : Settled s)
    (hN : (file.chunks MAX_DATA_SIZE).length < 2 ^ 32 - 1) (hmax : maxWindowSize < 2 ^ 31 - 1)
    (env : Env) (ackPkt : AckPacket)
    : Inv file maxWindowSize (acknowledgePacket env s ackPkt)
        ∧ Settled (acknowledgePacket env s ackPkt) := by
  cases acknowledgePacket_cases env s ackPkt with
  | inl heq =>
    rw [heq]
    exact ⟨h, hs⟩
  | inr hex =>
    obtain ⟨p, hp, _, _, heq⟩ := hex
    rw [heq]
    apply inv_expandWindow ((inv_setAcked h).adjustWindowSize hmax) hN
    apply front_setAcked _ hs.front
    intro q hq
    exact eq_of_mem_packets_of_addr_eq (h.mem_of_mem_window hq) (h.mem_of_mem_window hp)

theorem popped_prefix_acknowledgePacket (env : Env) (s : RdtStrategy) (ackPkt : AckPacket)
    : s.popped <+: (acknowledgePacket env s ackPkt).popped := by
  cases acknowledgePacket_cases env s ackPkt with
  | inl heq => simp only [heq, List.prefix_rfl]
  | inr hex =>
    obtain ⟨p, _, _, _, heq⟩ := hex
    rw [heq, popped_expandWindow]
    apply popped_prefix_setAcked

theorem isAcked_acknowledgePacket (h : Inv file maxWindowSize s) (env : Env) (ackPkt : AckPacket)
    (hp : p ∈ packets 1 file) (hacked : (acknowledgePacket env s ackPkt).heap.isAcked p = true)
    : s.heap.isAcked p = true ∨ p.packet.seqno = ackPkt.ackno := by
  cases acknowledgePacket_cases env s ackPkt with
  | inl heq =>
    rw [heq] at hacked
    exact .inl hacked
  | inr hex =>
    obtain ⟨q, hq, hseqno, _, heq⟩ := hex
    rw [heq] at hacked
    have hset : (adjustWindowSize (setAcked s q)).heap.isAcked p = true :=
      isAcked_of_isAcked_expandWindow _ _ _ hacked
    change (setAcked s q).heap.isAcked p = true at hset
    rw [isAcked_setAcked] at hset
    split at hset
    . next haddr =>
      rw [eq_of_mem_packets_of_addr_eq hp (h.mem_of_mem_window hq) haddr]
      exact .inr hseqno
    . exact .inl hset

theorem acknowledgePacket_new_of_head (env : Env) (hp : s.window.head? = some p)
    (hacked : s.heap.isAcked p = false)
    : acknowledgePacket env s (AckPacket.new p.packet.seqno)
        = expandWindow env (adjustWindowSize (setAcked s p)) := by
  have hfind : s.window.find? (fun q => (AckPacket.new p.packet.seqno).ackno = q.packet.seqno)
      = some p := by
    cases hw : s.window with
    | nil => simp [hw] at hp
    | cons q rest =>
      simp only [hw, List.head?_cons, Option.some.injEq] at hp
      simp [hp]
  unfold acknowledgePacket
  rw [if_pos (AckPacket.calculateChecksum_new _).symm, hfind]
  simp [hacked]

theorem length_popped_acknowledgePacket (hs : Settled s) (env : Env) (hp : s.window.head? = some p)
    : s.popped.length < (acknowledgePacket env s (AckPacket.new p.packet.seqno)).popped.length := by
  rw [acknowledgePacket_new_of_head env hp (hs.front p hp), popped_expandWindow]
  exact length_popped_setAcked_of_head hp

theorem timeOut_cases (env : Env) (s : RdtStrategy) (first : PacketPtr)
    : timeOut env s first = shrinkWindow (s.eraseUnacked first) 1
        ∨ ∃ p ∈ (shrinkWindow (s.eraseUnacked first) 1).window,
          timeOut env s first = sendPacket env (shrinkWindow (s.eraseUnacked first) 1) p := by
  unfold timeOut
  dsimp only
  split
  . exact .inl rfl
  . next p _ hwindow => exact .inr ⟨p, hwindow ▸ List.mem_cons_self, rfl⟩

theorem handleTimeOut_cases (env : Env) (s : RdtStrategy)
    : handleTimeOut env s = s ∨ ∃ first, handleTimeOut env s = timeOut env s first := by
  unfold handleTimeOut
  split
  . exact .inl rfl
  . exact .inr ⟨_, rfl⟩

theorem frame_timeOut (env : Env) (s : RdtStrategy) (first : PacketPtr)
    : (timeOut env s first).popped = s.popped
        ∧ ∀ p, (timeOut env s first).heap.isAcked p = s.heap.isAcked p := by
  cases timeOut_cases env s first with
  | inl heq => simp [heq]
  | inr hex =>
    obtain ⟨_, _, heq⟩ := hex
    simp [heq]

theorem popped_handleTimeOut (env : Env) (s : RdtStrategy)
    : (handleTimeOut env s).popped = s.popped := by
  cases handleTimeOut_cases env s with
  | inl heq => rw [heq]
  | inr hex =>
    obtain ⟨first, heq⟩ := hex
    rw [heq]
    exact (frame_timeOut env s first).1

theorem isAcked_handleTimeOut (env : Env) (s : RdtStrategy) (p : PacketPtr)
    : (handleTimeOut env s).heap.isAcked p = s.heap.isAcked p := by
  cases handleTimeOut_cases env s with
  | inl heq => rw [heq]
  | inr hex =>
    obtain ⟨first, heq⟩ := hex
    rw [heq]
    exact (frame_timeOut env s first).2 p

theorem settled_timeOut (hs : Settled s) (env : Env) (first : PacketPtr)
    : Settled (timeOut env s first) := by
  have herase : Settled (s.eraseUnacked first) := ⟨hs.front, hs.empty⟩
  have hset := settled_shrinkWindow herase 1
  cases timeOut_cases env s first with
  | inl heq =>
    rw [heq]
    exact hset
  | inr hex =>
    obtain ⟨_, _, heq⟩ := hex
    rw [heq]
    apply settled_sendPacket hset

theorem inv_timeOut (h : Inv file maxWindowSize s) (hs : Settled s)
    (hN : (file.chunks MAX_DATA_SIZE).length < 2 ^ 32 - 1) (env : Env) (first : PacketPtr)
    : Inv file maxWindowSize (timeOut env s first) ∧ Settled (timeOut env s first) := by
  have hle := h.windowSize_le
  have hone := h.one_le_windowSize
  have hinv := (h.eraseUnacked first).shrinkWindow hN (Int.le_trans hone hle)
  refine ⟨?_, settled_timeOut hs env first⟩
  cases timeOut_cases env s first with
  | inl heq =>
    rw [heq]
    exact hinv
  | inr hex =>
    obtain ⟨p, hp, heq⟩ := hex
    rw [heq]
    exact hinv.sendPacket hN env (hinv.mem_of_mem_window hp)

theorem inv_handleTimeOut (h : Inv file maxWindowSize s) (hs : Settled s)
    (hN : (file.chunks MAX_DATA_SIZE).length < 2 ^ 32 - 1) (env : Env)
    : Inv file maxWindowSize (handleTimeOut env s) ∧ Settled (handleTimeOut env s) := by
  cases handleTimeOut_cases env s with
  | inl heq =>
    rw [heq]
    exact ⟨h, hs⟩
  | inr hex =>
    obtain ⟨first, heq⟩ := hex
    rw [heq]
    apply inv_timeOut h hs hN

theorem new_spec (file : Bytes) (maxWindowSize : Int)
    : (new (File.regular file) maxWindowSize).Inv 1 file
        ∧ (new (File.regular file) maxWindowSize).IsNew 1 maxWindowSize (maxWindowSize.tdiv 2)
        ∧ (new (File.regular file) maxWindowSize).window.length ≤ 1
        ∧ ∀ p, (new (File.regular file) maxWindowSize).heap.isAcked p = false := by
  obtain ⟨hinv, hnew⟩ := RdtStrategy.new_spec 1 file maxWindowSize (maxWindowSize.tdiv 2)
    (show 0 < DEFAULT_WINDOW_SIZE by decide) (by decide)
  refine ⟨hinv, hnew, hnew.length_window_le, ?_⟩
  intro p
  simp [new, hnew.heap_eq, Heap.isAcked]

theorem settled_new (file : Bytes) (maxWindowSize : Int)
    : Settled (new (File.regular file) maxWindowSize) := by
  obtain ⟨_, hnew, _, hacked⟩ := new_spec file maxWindowSize
  constructor
  . intro p _
    exact hacked p
  . intro hempty
    refine ⟨hnew.auxWindow_eq, ?_⟩
    apply RdtStrategy.pending_new 1 file _ _ (by decide) (by decide)
    have hlength := congrArg List.length hempty
    unfold new at hlength
    rw [hlength]
    decide

theorem inv_new (file : Bytes) (hone : 1 ≤ maxWindowSize)
    : Inv file maxWindowSize (new (File.regular file) maxWindowSize)
        ∧ Settled (new (File.regular file) maxWindowSize)
        ∧ (new (File.regular file) maxWindowSize).window.length ≤ 1
        ∧ (new (File.regular file) maxWindowSize).IsNew 1 maxWindowSize (maxWindowSize.tdiv 2) := by
  obtain ⟨hinv, hnew, hlen, _⟩ := new_spec file maxWindowSize
  refine ⟨⟨hinv, hnew.maxWindowSize_eq, ?_, ?_, ?_, ?_⟩, settled_new file maxWindowSize, hlen, hnew⟩
  . exact Int.le_of_eq hnew.windowSize_eq.symm
  . exact hnew.windowSize_eq ▸ hone
  . rw [hnew.windowSize_eq]
    exact Int.ofNat_le.mpr hlen
  . rw [hnew.threshold_eq, tdiv_two_eq]
    split <;> omega

theorem start_cases (env : Env) (hlen : s.window.length ≤ 1)
    : start env s = s ∧ s.window = [] ∨ ∃ p, s.window = [p] ∧ start env s = sendPacket env s p := by
  unfold start
  cases hw : s.window with
  | nil => exact .inl ⟨rfl, rfl⟩
  | cons p rest =>
    cases rest with
    | nil => exact .inr ⟨p, rfl, rfl⟩
    | cons q rest => simp [hw] at hlen

theorem popped_start (env : Env) (hlen : s.window.length ≤ 1)
    : (start env s).popped = s.popped := by
  cases start_cases env hlen with
  | inl heq => rw [heq.1]
  | inr hex =>
    obtain ⟨p, _, heq⟩ := hex
    rw [heq, popped_sendPacket]

theorem isAcked_start (env : Env) (hlen : s.window.length ≤ 1) (p : PacketPtr)
    : (start env s).heap.isAcked p = s.heap.isAcked p := by
  cases start_cases env hlen with
  | inl heq => rw [heq.1]
  | inr hex =>
    obtain ⟨q, _, heq⟩ := hex
    rw [heq, isAcked_sendPacket]

theorem settled_start (hs : Settled s) (hlen : s.window.length ≤ 1) (env : Env)
    : Settled (start env s) := by
  cases start_cases env hlen with
  | inl heq =>
    rw [heq.1]
    exact hs
  | inr hex =>
    obtain ⟨p, _, heq⟩ := hex
    rw [heq]
    exact settled_sendPacket hs env p

theorem inv_start (h : Inv file maxWindowSize s) (hs : Settled s) (hlen : s.window.length ≤ 1)
    (hN : (file.chunks MAX_DATA_SIZE).length < 2 ^ 32 - 1) (env : Env)
    : Inv file maxWindowSize (start env s) ∧ Settled (start env s) := by
  refine ⟨?_, settled_start hs hlen env⟩
  cases start_cases env hlen with
  | inl heq =>
    rw [heq.1]
    exact h
  | inr hex =>
    obtain ⟨p, hwindow, heq⟩ := hex
    rw [heq]
    apply h.sendPacket hN env
    apply h.mem_of_mem_window
    simp [hwindow]

end

end SelectiveRepeat
