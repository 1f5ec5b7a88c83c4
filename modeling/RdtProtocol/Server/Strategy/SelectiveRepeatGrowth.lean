import Mathlib.Data.List.Count
import RdtProtocol.Server.Strategy.SelectiveRepeatRuns
import RdtProtocol.Util.SlowStart

/-!
This module contains what the selective repeat sender does in a stretch of a run in which no packet
times out and `packet_sender` does not report a third duplicate: how its window grows, and what it sends.
-/

namespace SelectiveRepeat

def Lossless (env : Env) (n : Nat) : Prop :=
  ∀ i, n ≤ i → env.tripleDupAck i = false

def ackedCount (s : RdtStrategy) : Nat :=
  s.popped.length + s.window.countP s.heap.isAcked

variable {file : Bytes} {maxWindowSize : Int} {env : Env} {s s' t : RdtStrategy} {p : PacketPtr}

theorem countP_setAck {heap : Heap} {window : List PacketPtr} (hp : p ∈ window)
    (hpair : window.Pairwise (fun p q => p.addr < q.addr)) (hacked : heap.isAcked p = false)
    : window.countP (heap.setAck p true).isAcked = window.countP heap.isAcked + 1 := by
  obtain ⟨xs, ys, rfl⟩ := List.append_of_mem hp
  rw [List.pairwise_append, List.pairwise_cons] at hpair
  have hxs : xs.countP (heap.setAck p true).isAcked = xs.countP heap.isAcked := by
    apply List.countP_congr
    intro q hq
    have hne : q.addr ≠ p.addr := Nat.ne_of_lt (hpair.2.2 q hq p List.mem_cons_self)
    simp [hne]
  have hys : ys.countP (heap.setAck p true).isAcked = ys.countP heap.isAcked := by
    apply List.countP_congr
    intro q hq
    have hne : q.addr ≠ p.addr := Nat.ne_of_gt (hpair.2.1.1 q hq)
    simp [hne]
  simp only [List.countP_append, List.countP_cons, hxs, hys, Heap.isAcked_setAck, if_true, hacked,
    Bool.false_eq_true, if_false]
  omega

theorem ackedCount_advanceWindow (s : RdtStrategy) : ackedCount (advanceWindow s) = ackedCount s := by
  have htake : (s.window.takeWhile s.heap.isAcked).countP s.heap.isAcked
      = (s.window.takeWhile s.heap.isAcked).length := by
    rw [List.countP_eq_length]
    intro q hq
    exact List.mem_takeWhile_imp hq
  have hsplit := congrArg (List.countP s.heap.isAcked)
    (List.takeWhile_append_dropWhile (p := s.heap.isAcked) (l := s.window))
  rw [List.countP_append, htake] at hsplit
  simp only [ackedCount, advanceWindow, List.length_append]
  omega

theorem ackedCount_setAcked (h : Inv file maxWindowSize s) (hp : p ∈ s.window)
    (hacked : s.heap.isAcked p = false)
    : ackedCount (setAcked s p) = ackedCount s + 1 := by
  have hset : ackedCount ((s.setAck p true).eraseUnacked p) = ackedCount s + 1 := by
    have hcount := countP_setAck hp h.pairwise_addr_window hacked
    simp only [ackedCount, RdtStrategy.popped_eraseUnacked, RdtStrategy.popped_setAck,
      RdtStrategy.window_eraseUnacked, RdtStrategy.window_setAck, RdtStrategy.heap_eraseUnacked,
      RdtStrategy.heap_setAck, hcount]
    omega
  cases setAcked_cases s p with
  | inl heq => rw [heq, hset]
  | inr heq => rw [heq, ackedCount_advanceWindow, hset]

theorem frame_setAcked_control (s : RdtStrategy) (p : PacketPtr)
    : (setAcked s p).windowSize = s.windowSize ∧ (setAcked s p).threshold = s.threshold
        ∧ (setAcked s p).maxWindowSize = s.maxWindowSize ∧ (setAcked s p).sent = s.sent := by
  cases setAcked_cases s p with
  | inl heq => simp [heq]
  | inr heq => simp [heq, advanceWindow]

theorem pushAndSend_of_lossless (hdup : env.tripleDupAck s.sent.length = false)
    (p : PacketPtr)
    : pushAndSend env s p
        = { s.setAck p false with window := s.window ++ [p] }.transmit env p := by
  have hanswer : RdtStrategy.tripleDupAck { s.setAck p false with window := s.window ++ [p] } env
      = false := hdup
  simp only [pushAndSend, sendPacket, RdtStrategy.window_setAck]
  rw [hanswer]
  rfl

theorem ackedCount_pushAndSend (h : Inv file maxWindowSize s)
    (hlt : s.window.length < sizeT s.windowSize) (hnext : takeNext s = some (p, s'))
    (hdup : env.tripleDupAck s.sent.length = false)
    : ackedCount (pushAndSend env s' p) = ackedCount s := by
  obtain ⟨hinv, _⟩ := h.takeNext hlt hnext
  obtain ⟨hheap, hpopped, hsent, _⟩ := takeNext_frame hnext
  obtain ⟨hwindow, _⟩ := takeNext_window hnext
  have hpair := hinv.pairwise_addr_window
  simp only [hwindow, List.pairwise_append] at hpair
  have hcount : s.window.countP (s.heap.setAck p false).isAcked = s.window.countP s.heap.isAcked := by
    apply List.countP_congr
    intro q hq
    have hne : q.addr ≠ p.addr := Nat.ne_of_lt (hpair.2.2 q hq p List.mem_cons_self)
    simp [hne]
  have htimes (heap : Heap) (time : Nat) (l : List PacketPtr)
      : l.countP (heap.setTimeStamp p time).isAcked = l.countP heap.isAcked := by
    apply List.countP_congr
    intro q _
    rw [Heap.isAcked_setTimeStamp]
  rw [pushAndSend_of_lossless (hsent ▸ hdup)]
  simp [ackedCount, htimes, hcount, hheap, hpopped, hwindow, List.countP_append]

theorem frame_pushAndSend_of_lossless (hnext : takeNext s = some (p, s'))
    (hdup : env.tripleDupAck s.sent.length = false)
    : (pushAndSend env s' p).windowSize = s.windowSize ∧ (pushAndSend env s' p).threshold = s.threshold
        ∧ (pushAndSend env s' p).sent = s.sent ++ [p] := by
  obtain ⟨_, _, hsent, _⟩ := takeNext_frame hnext
  have heq := pushAndSend_of_lossless (s := s') (hsent ▸ hdup) p
  obtain ⟨_, _, _, rfl⟩ := takeNext_eq_some hnext
  rw [heq]
  exact ⟨rfl, rfl, rfl⟩

structure SameControl (s t : RdtStrategy) : Prop where
  windowSize_eq : t.windowSize = s.windowSize
  threshold_eq : t.threshold = s.threshold
  ackedCount_eq : ackedCount t = ackedCount s
  sent_le : s.sent.length ≤ t.sent.length

theorem sameControl_expandWindow (h : Inv file maxWindowSize s)
    (hN : (file.chunks MAX_DATA_SIZE).length < 2 ^ 32 - 1) (hdup : Lossless env s.sent.length)
    : SameControl s (expandWindow env s) := by
  have hinv : Inv file maxWindowSize (expandWindow env s) ∧ SameControl s (expandWindow env s) := by
    apply expandWindow_induction (P := fun t => Inv file maxWindowSize t ∧ SameControl s t)
    . intro t p t' hlt hnext ht
      have hanswer := hdup _ ht.2.sent_le
      obtain ⟨hsize, hthreshold, hsent⟩ := frame_pushAndSend_of_lossless hnext hanswer
      have hle := ht.2.sent_le
      refine ⟨ht.1.pushAndSend hN env hlt hnext, hsize.trans ht.2.windowSize_eq,
        hthreshold.trans ht.2.threshold_eq, ?_, ?_⟩
      . exact (ackedCount_pushAndSend ht.1 hlt hnext hanswer).trans ht.2.ackedCount_eq
      . rw [hsent, List.length_append]
        omega
    . exact ⟨h, rfl, rfl, rfl, Nat.le_refl _⟩
  exact hinv.2

theorem windowSize_adjustWindowSize (h : Inv file maxWindowSize s) (hmax : maxWindowSize < 2 ^ 31 - 1)
    : (adjustWindowSize s).windowSize.toNat
        = SlowStart.grow maxWindowSize.toNat s.threshold.toNat s.windowSize.toNat := by
  have hone := h.one_le_windowSize
  have hle := h.windowSize_le
  have hthreshold := h.threshold_le
  simp only [adjustWindowSize, h.maxWindowSize_eq, SlowStart.grow, SlowStart.climb]
  rw [int32_of_bounds (x := s.windowSize + 1) (by omega) (by omega)]
  by_cases hlt : s.windowSize < s.threshold
  . have hnat : s.windowSize.toNat < s.threshold.toNat := by omega
    rw [if_pos hlt, int32_of_bounds (by omega) (by omega), if_pos hnat]
    split <;> omega
  . have hnat : ¬ s.windowSize.toNat < s.threshold.toNat := by omega
    rw [if_neg hlt, if_neg hnat]
    split <;> omega

structure Grows (maxWindowSize : Int) (s t : RdtStrategy) : Prop where
  windowSize_eq
    : t.windowSize.toNat
        = SlowStart.grow maxWindowSize.toNat s.threshold.toNat s.windowSize.toNat
  threshold_eq : t.threshold = s.threshold
  ackedCount_eq : ackedCount t = ackedCount s + 1
  sent_le : s.sent.length ≤ t.sent.length

theorem grows_acknowledgePacket (h : Inv file maxWindowSize s)
    (hN : (file.chunks MAX_DATA_SIZE).length < 2 ^ 32 - 1) (hmax : maxWindowSize < 2 ^ 31 - 1)
    (hdup : Lossless env s.sent.length) (ackPkt : AckPacket)
    : acknowledgePacket env s ackPkt = s ∨ Grows maxWindowSize s (acknowledgePacket env s ackPkt) := by
  cases acknowledgePacket_cases env s ackPkt with
  | inl heq => exact .inl heq
  | inr hex =>
    obtain ⟨p, hp, _, hacked, heq⟩ := hex
    right
    obtain ⟨hsize, hthreshold, _, hsent⟩ := frame_setAcked_control s p
    have hset := inv_setAcked (p := p) h
    have hlossless : Lossless env (setAcked s p).sent.length := hsent ▸ hdup
    have hexpand := sameControl_expandWindow (hset.adjustWindowSize hmax) hN hlossless
    rw [heq]
    refine ⟨?_, hexpand.threshold_eq.trans hthreshold, ?_, ?_⟩
    . rw [hexpand.windowSize_eq, windowSize_adjustWindowSize hset hmax, hsize, hthreshold]
    . exact hexpand.ackedCount_eq.trans (ackedCount_setAcked h hp hacked)
    . exact hsent ▸ hexpand.sent_le

theorem windowSize_foldl (h : Inv file maxWindowSize s ∧ Settled s)
    (hN : (file.chunks MAX_DATA_SIZE).length < 2 ^ 32 - 1) (hmax : maxWindowSize < 2 ^ 31 - 1)
    (hdup : Lossless env s.sent.length) (acks : List AckPacket)
    : (acks.foldl (acknowledgePacket env) s).threshold = s.threshold
        ∧ ∃ n, ackedCount (acks.foldl (acknowledgePacket env) s) = ackedCount s + n
          ∧ (acks.foldl (acknowledgePacket env) s).windowSize.toNat
              = (SlowStart.grow maxWindowSize.toNat s.threshold.toNat)^[n] s.windowSize.toNat := by
  induction acks generalizing s with
  | nil => exact ⟨rfl, 0, rfl, rfl⟩
  | cons ackPkt acks ih =>
    rw [List.foldl_cons]
    cases grows_acknowledgePacket h.1 hN hmax hdup ackPkt with
    | inl heq =>
      rw [heq]
      exact ih h hdup
    | inr hgrows =>
      have hle := hgrows.sent_le
      have hinv := inv_acknowledgePacket h.1 h.2 hN hmax env ackPkt
      obtain ⟨hthreshold, n, hcount, hsize⟩ := ih hinv (fun i hi => hdup i (by omega))
      refine ⟨hthreshold.trans hgrows.threshold_eq, n + 1, ?_, ?_⟩
      . rw [hcount, hgrows.ackedCount_eq]
        omega
      . rw [hsize, hgrows.threshold_eq, hgrows.windowSize_eq, Function.iterate_succ_apply]

theorem windowSize_of_acks (hN : (file.chunks MAX_DATA_SIZE).length < 2 ^ 32 - 1)
    (hone : 1 ≤ maxWindowSize) (hmax : maxWindowSize < 2 ^ 31 - 1) {init : RdtStrategy}
    (hinit : init = new (File.regular file) maxWindowSize
      ∨ init = start env (new (File.regular file) maxWindowSize))
    (h : StepFn.Reachable (step env) init s) (hsize : s.windowSize = 1)
    (hdup : Lossless env s.sent.length) (acks : List AckPacket)
    : let t := acks.foldl (acknowledgePacket env) s
      ackedCount s ≤ ackedCount t
        ∧ t.threshold = s.threshold
        ∧ t.windowSize
            = min maxWindowSize (SlowStart.sizeAfter s.threshold.toNat (ackedCount t - ackedCount s)) := by
  intro t
  have hinv := inv_of_reachable hN hone hmax hinit h
  obtain ⟨hthreshold, n, hfold, hgrow⟩ := windowSize_foldl hinv hN hmax hdup acks
  rw [hsize, Int.toNat_one, SlowStart.iterate_grow_one _ _ (by omega)] at hgrow
  have hcount : ackedCount t = ackedCount s + n := hfold
  have hn : ackedCount t - ackedCount s = n := by omega
  refine ⟨by omega, hthreshold, ?_⟩
  have hpos : 1 ≤ t.windowSize := by
    have hrun : Inv file maxWindowSize t ∧ Settled t := by
      apply List.foldlRecOn acks (acknowledgePacket env) (motive := fun t =>
        Inv file maxWindowSize t ∧ Settled t) hinv
      intro t ht ackPkt _
      exact inv_acknowledgePacket ht.1 ht.2 hN hmax env ackPkt
    exact hrun.1.one_le_windowSize
  have htoNat : t.windowSize.toNat
      = min maxWindowSize.toNat (SlowStart.sizeAfter s.threshold.toNat n) := hgrow
  rw [hn]
  omega

-- The sizes that `window_size_history.txt` shows from its start on, and after a time-out.
example
    : (List.range 12).map (fun n => min 300 (SlowStart.sizeAfter 150 n))
        = [1, 2, 4, 8, 16, 32, 64, 128, 256, 257, 258, 259] := by
  decide +kernel

example
    : (List.range 10).map (fun n => min 300 (SlowStart.sizeAfter 65 n))
        = [1, 2, 4, 8, 16, 32, 64, 128, 129, 130] := by
  decide +kernel

def losslessEnv : Env :=
  { now := id, tripleDupAck := fun _ => false }

theorem windowSize_sampleFile
    : let s := start losslessEnv (new (File.regular sampleFile) 4)
      let t := [AckPacket.new 1, AckPacket.new 3].foldl (acknowledgePacket losslessEnv) s
      t.windowSize
        = min (4 : Int) (SlowStart.sizeAfter s.threshold.toNat (ackedCount t - ackedCount s)) := by
  have hlength : (sampleFile.chunks MAX_DATA_SIZE).length = 3 := by decide +kernel
  have hsize : (start losslessEnv (new (File.regular sampleFile) 4)).windowSize = 1 := by
    obtain ⟨_, hnew, hlen, _⟩ := new_spec sampleFile 4
    cases start_cases losslessEnv hlen with
    | inl heq => rw [heq.1, hnew.windowSize_eq]
    | inr hex =>
      obtain ⟨p, _, heq⟩ := hex
      rw [heq]
      exact hnew.windowSize_eq
  exact (windowSize_of_acks (by rw [hlength]; decide) (by decide) (by decide) (.inr rfl) .init hsize
    (fun _ _ => rfl) [AckPacket.new 1, AckPacket.new 3]).2.2

structure SentOnce (s : RdtStrategy) : Prop where
  auxWindow_eq : s.auxWindow = []
  sent_eq : s.sent = s.popped ++ s.window

def Full (s : RdtStrategy) : Prop :=
  s.pending = [] ∨ (s.window.length : Int) = s.windowSize

theorem auxWindow_takeNext (haux : s.auxWindow = []) (hnext : takeNext s = some (p, s'))
    : s'.auxWindow = [] := by
  unfold takeNext at hnext
  simp only [haux, Option.ite_none_right_eq_some] at hnext
  obtain ⟨_, _, _, rfl⟩ := RdtStrategy.getNextPacket_eq_some hnext.2
  exact haux

theorem sentOnce_setAcked (h : SentOnce s) (p : PacketPtr) : SentOnce (setAcked s p) := by
  cases setAcked_cases s p with
  | inl heq =>
    rw [heq]
    exact ⟨h.auxWindow_eq, h.sent_eq⟩
  | inr heq =>
    rw [heq]
    refine ⟨h.auxWindow_eq, ?_⟩
    simp only [advanceWindow, RdtStrategy.sent_eraseUnacked, RdtStrategy.sent_setAck,
      RdtStrategy.popped_eraseUnacked, RdtStrategy.popped_setAck, List.append_assoc,
      List.takeWhile_append_dropWhile]
    exact h.sent_eq

theorem sentOnce_expandWindow (h : SentOnce s) (hinv : Inv file maxWindowSize s)
    (hN : (file.chunks MAX_DATA_SIZE).length < 2 ^ 32 - 1) (hdup : Lossless env 0)
    : SentOnce (expandWindow env s) ∧ Full (expandWindow env s) := by
  have hrun : Inv file maxWindowSize (expandWindow env s) ∧ SentOnce (expandWindow env s) := by
    apply expandWindow_induction (P := fun t => Inv file maxWindowSize t ∧ SentOnce t)
    . intro t p t' hlt hnext ht
      refine ⟨ht.1.pushAndSend hN env hlt hnext, ?_⟩
      have haux := auxWindow_takeNext ht.2.auxWindow_eq hnext
      obtain ⟨_, hpopped, hsent, _⟩ := takeNext_frame hnext
      obtain ⟨hwindow, _⟩ := takeNext_window hnext
      rw [pushAndSend_of_lossless (hdup _ (Nat.zero_le _))]
      refine ⟨haux, ?_⟩
      simp [hsent, hpopped, hwindow, ht.2.sent_eq]
    . exact ⟨hinv, h⟩
  refine ⟨hrun.2, ?_⟩
  have hone := hrun.1.one_le_windowSize
  have hle := hrun.1.length_window_le
  cases expandWindow_exit env s with
  | inl hfull =>
    rw [sizeT_of_nonneg (by omega)] at hfull
    exact .inr (by omega)
  | inr hnone => exact .inl (takeNext_eq_none hrun.1.builder hnone).2

theorem sentOnce_acknowledgePacket (h : SentOnce s) (hfull : Full s)
    (hinv : Inv file maxWindowSize s) (hN : (file.chunks MAX_DATA_SIZE).length < 2 ^ 32 - 1)
    (hmax : maxWindowSize < 2 ^ 31 - 1) (hdup : Lossless env 0) (ackPkt : AckPacket)
    : SentOnce (acknowledgePacket env s ackPkt) ∧ Full (acknowledgePacket env s ackPkt) := by
  cases acknowledgePacket_cases env s ackPkt with
  | inl heq =>
    rw [heq]
    exact ⟨h, hfull⟩
  | inr hex =>
    obtain ⟨p, _, _, _, heq⟩ := hex
    have hset := sentOnce_setAcked h p
    rw [heq]
    apply sentOnce_expandWindow _ ((inv_setAcked hinv).adjustWindowSize hmax) hN hdup
    exact ⟨hset.auxWindow_eq, hset.sent_eq⟩

theorem sentOnce_start (hdup : Lossless env 0)
    : SentOnce (start env (new (File.regular file) maxWindowSize))
        ∧ Full (start env (new (File.regular file) maxWindowSize)) := by
  obtain ⟨hinv, hnew, hlen, _⟩ := new_spec file maxWindowSize
  cases start_cases env hlen with
  | inl heq =>
    rw [heq.1]
    refine ⟨⟨hnew.auxWindow_eq, ?_⟩, .inl ((settled_new file maxWindowSize).empty heq.2).2⟩
    rw [hnew.sent_eq, hnew.popped_eq, heq.2]
    rfl
  | inr hex =>
    obtain ⟨p, hwindow, heq⟩ := hex
    have hanswer := hdup (new (File.regular file) maxWindowSize).sent.length (Nat.zero_le _)
    have hsend : sendPacket env (new (File.regular file) maxWindowSize) p
        = (new (File.regular file) maxWindowSize).transmit env p := by
      simp [sendPacket, RdtStrategy.tripleDupAck, hanswer]
    rw [heq, hsend]
    refine ⟨⟨hnew.auxWindow_eq, ?_⟩, .inr ?_⟩
    . rw [RdtStrategy.sent_transmit, RdtStrategy.popped_transmit, RdtStrategy.window_transmit,
        hnew.sent_eq, hnew.popped_eq, hwindow]
    . rw [RdtStrategy.window_transmit, RdtStrategy.windowSize_transmit, hwindow, hnew.windowSize_eq]
      rfl

theorem sent_of_acks (hN : (file.chunks MAX_DATA_SIZE).length < 2 ^ 32 - 1)
    (hone : 1 ≤ maxWindowSize) (hmax : maxWindowSize < 2 ^ 31 - 1) (hdup : Lossless env 0)
    (acks : List AckPacket)
    : let t := acks.foldl (acknowledgePacket env) (start env (new (File.regular file) maxWindowSize))
      t.sent = (packets 1 file).take (t.popped.length + t.windowSize.toNat) := by
  intro t
  have hrun : (Inv file maxWindowSize t ∧ Settled t) ∧ SentOnce t ∧ Full t := by
    apply List.foldlRecOn acks (acknowledgePacket env) (motive := fun t =>
      (Inv file maxWindowSize t ∧ Settled t) ∧ SentOnce t ∧ Full t)
    . obtain ⟨hinv, hset, hlen, _⟩ := inv_new file hone
      exact ⟨inv_start hinv hset hlen hN env, sentOnce_start hdup⟩
    . intro t ht ackPkt _
      refine ⟨inv_acknowledgePacket ht.1.1 ht.1.2 hN hmax env ackPkt, ?_⟩
      exact sentOnce_acknowledgePacket ht.2.1 ht.2.2 ht.1.1 hN hmax hdup ackPkt
  obtain ⟨⟨hinv, _⟩, hsent, hfull⟩ := hrun
  have hcontent := hinv.content
  have hle := hinv.length_window_le
  rw [hsent.auxWindow_eq, List.nil_append, ← List.append_assoc] at hcontent
  rw [hsent.sent_eq, ← hcontent]
  cases hfull with
  | inl hpending =>
    rw [hpending, List.append_nil, List.take_of_length_le]
    rw [List.length_append]
    omega
  | inr hsize =>
    have hlength : t.popped.length + t.windowSize.toNat = (t.popped ++ t.window).length := by
      rw [List.length_append]
      omega
    rw [hlength, List.take_left]

theorem sent_sampleFile
    : let t := [AckPacket.new 1, AckPacket.new 3].foldl (acknowledgePacket losslessEnv)
        (start losslessEnv (new (File.regular sampleFile) 4))
      t.sent = (packets 1 sampleFile).take (t.popped.length + t.windowSize.toNat) := by
  have hlength : (sampleFile.chunks MAX_DATA_SIZE).length = 3 := by decide +kernel
  exact sent_of_acks (by rw [hlength]; decide) (by decide) (by decide) (fun _ _ => rfl) _

end SelectiveRepeat
