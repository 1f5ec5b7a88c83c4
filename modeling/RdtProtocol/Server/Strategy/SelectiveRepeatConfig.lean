import RdtProtocol.Server.PacketSenderLemmas
import RdtProtocol.Server.Strategy.SelectiveRepeatKept
import RdtProtocol.Server.Strategy.SelectiveRepeatRuns

/-!
This module contains which numbers in the file of the server's arguments a transfer by selective repeat
can do with. Nothing tests them when they are read.
-/

namespace SelectiveRepeat

def IsInt (x : Int) : Prop :=
  -2 ^ 31 ≤ x ∧ x < 2 ^ 31

instance (x : Int) : Decidable (IsInt x) :=
  inferInstanceAs (Decidable (_ ∧ _))

structure Sized (maxWindowSize : Int) (s : RdtStrategy) : Prop where
  maxWindowSize_eq : s.maxWindowSize = maxWindowSize
  isInt : IsInt s.windowSize
  ne_zero : s.windowSize ≠ 0
  positive
    : 0 < maxWindowSize →
        1 ≤ s.windowSize ∧ s.windowSize ≤ maxWindowSize
          ∧ (s.threshold ≤ 1 ∨ 2 * s.threshold ≤ maxWindowSize)

namespace Sized

variable {maxWindowSize : Int} {env : Env} {s t : RdtStrategy} {p : PacketPtr}

theorem sizeT_pos (h : Sized maxWindowSize s) : 0 < sizeT s.windowSize := by
  have := h.isInt.1
  have := h.ne_zero
  unfold sizeT
  split <;> omega

theorem congr (h : Sized maxWindowSize s) (hmax : t.maxWindowSize = s.maxWindowSize)
    (hsize : t.windowSize = s.windowSize) (hthreshold : t.threshold = s.threshold)
    : Sized maxWindowSize t := by
  constructor
  . rw [hmax, h.maxWindowSize_eq]
  . exact hsize ▸ h.isInt
  . exact hsize ▸ h.ne_zero
  . rw [hsize, hthreshold]
    exact h.positive

theorem shrinkWindow (h : Sized maxWindowSize s) {newSize : Int} (hint : IsInt newSize)
    (hle : 0 < maxWindowSize → newSize ≤ maxWindowSize)
    : Sized maxWindowSize (shrinkWindow s newSize) := by
  obtain ⟨hmax, hs, _, hpos⟩ := h
  rw [shrinkWindow_eq]
  generalize hk : (if newSize < 1 then 1 else newSize) = k
  have hhalf := tdiv_two_eq s.windowSize
  generalize s.windowSize.tdiv 2 = half at *
  unfold IsInt at *
  refine ⟨hmax, ?_, ?_, ?_⟩
  . dsimp only [IsInt]
    split at hk <;> omega
  . dsimp only
    split at hk <;> omega
  . intro h0
    have := hpos h0
    have := hle h0
    rw [if_pos (by omega)] at hhalf
    dsimp only
    refine ⟨?_, ?_, ?_⟩
    . split at hk <;> omega
    . split at hk <;> omega
    . split <;> omega

theorem sendPacket (h : Sized maxWindowSize s) (env : Env) (p : PacketPtr)
    : Sized maxWindowSize (sendPacket env s p) := by
  have htransmit : Sized maxWindowSize (s.transmit env p) := h.congr rfl rfl rfl
  obtain ⟨_, hs, _, hpos⟩ := h
  have hhalf := tdiv_two_eq s.windowSize
  cases sendPacket_cases env s p with
  | inl heq =>
    rw [heq]
    exact htransmit
  | inr heq =>
    rw [heq]
    apply htransmit.shrinkWindow
    . rw [hhalf]
      unfold IsInt at *
      split <;> omega
    . intro h0
      have := hpos h0
      rw [hhalf]
      split <;> omega

theorem adjustWindowSize (h : Sized maxWindowSize s) (hint : IsInt maxWindowSize)
    (hne : maxWindowSize ≠ 0) (hlt : s.windowSize < 2 ^ 31 - 1)
    : Sized maxWindowSize (adjustWindowSize s) := by
  obtain ⟨hmax, hs, _, hpos⟩ := h
  have hbounds (x : Int) : IsInt (int32 x) := by
    unfold IsInt int32
    constructor
    . exact Int.le_bmod (by decide)
    . exact Int.bmod_lt (by decide)
  unfold SelectiveRepeat.adjustWindowSize
  generalize hk : (if s.windowSize < s.threshold then int32 (s.windowSize * 2)
    else int32 (s.windowSize + 1)) = k
  have hk' : IsInt k := by
    rw [← hk]
    split <;> apply hbounds
  have hk0 : 0 < maxWindowSize → 1 ≤ k := by
    intro h0
    have := hpos h0
    unfold IsInt at *
    rw [int32_of_bounds (x := s.windowSize + 1) (by omega) (by omega)] at hk
    split at hk
    . rw [int32_of_bounds (by omega) (by omega)] at hk
      omega
    . omega
  unfold IsInt at *
  refine ⟨hmax, ?_, ?_, ?_⟩
  . dsimp only [IsInt]
    rw [hmax]
    split <;> omega
  . dsimp only
    rw [hmax]
    split <;> omega
  . intro h0
    have := hk0 h0
    have := hpos h0
    dsimp only
    rw [hmax]
    split <;> omega

theorem expandWindow (h : Sized maxWindowSize s) (env : Env)
    : Sized maxWindowSize (expandWindow env s) := by
  apply expandWindow_induction (P := Sized maxWindowSize) _ h
  intro s p t _ hnext hs
  apply sendPacket
  obtain ⟨_, _, _, rfl⟩ := takeNext_eq_some hnext
  exact hs.congr rfl rfl rfl

theorem setAcked (h : Sized maxWindowSize s) (p : PacketPtr) : Sized maxWindowSize (setAcked s p) := by
  cases setAcked_cases s p with
  | inl heq =>
    rw [heq]
    exact h.congr rfl rfl rfl
  | inr heq =>
    rw [heq]
    exact h.congr rfl rfl rfl

theorem timeOut (h : Sized maxWindowSize s) (env : Env) (first : PacketPtr)
    : Sized maxWindowSize (timeOut env s first) := by
  have herase : Sized maxWindowSize (s.eraseUnacked first) := h.congr rfl rfl rfl
  have hshrunk := herase.shrinkWindow (show IsInt 1 by decide) (fun h0 => h0)
  cases timeOut_cases env s first with
  | inl heq =>
    rw [heq]
    exact hshrunk
  | inr hex =>
    obtain ⟨p, _, heq⟩ := hex
    rw [heq]
    exact hshrunk.sendPacket env p

theorem start (file : Bytes) (maxWindowSize : Int) (env : Env)
    : Sized maxWindowSize (start env (new (File.regular file) maxWindowSize)) := by
  obtain ⟨_, hnew, hlen, _⟩ := new_spec file maxWindowSize
  have hsize := hnew.windowSize_eq
  have hthreshold := hnew.threshold_eq
  have hsized : Sized maxWindowSize (new (File.regular file) maxWindowSize) := by
    refine ⟨hnew.maxWindowSize_eq, ?_, ?_, ?_⟩
    . rw [hsize]
      decide
    . rw [hsize]
      decide
    . intro h0
      rw [hsize, hthreshold, tdiv_two_eq, if_pos (by omega)]
      omega
  cases start_cases env hlen with
  | inl heq =>
    rw [heq.1]
    exact hsized
  | inr hex =>
    obtain ⟨p, _, heq⟩ := hex
    rw [heq]
    exact hsized.sendPacket env p

end Sized

theorem windowSize_setAcked (s : RdtStrategy) (p : PacketPtr)
    : (setAcked s p).windowSize = s.windowSize := by
  cases setAcked_cases s p with
  | inl heq =>
    rw [heq]
    rfl
  | inr heq =>
    rw [heq]
    rfl

def Counts (s : RdtStrategy) (ackPkt : AckPacket) : Prop :=
  ackPkt.cksum = ackPkt.calculateChecksum
    ∧ ∃ p ∈ s.window, p.packet.seqno = ackPkt.ackno ∧ s.heap.isAcked p = false

-- One more than the largest `int` is not one.
def Adjustable (s : RdtStrategy) (e : Event) : Prop :=
  ∀ ackPkt, e = .acknowledge ackPkt → Counts s ackPkt → s.windowSize < 2 ^ 31 - 1

variable {file : Bytes} {maxWindowSize : Int} {env : Env} {s t : RdtStrategy}

theorem settled_expandWindow (hk : Kept file s) (hs : Sized maxWindowSize s) (env : Env)
    : Settled (expandWindow env s) := by
  have hk := hk.expandWindow env
  have hpos := (hs.expandWindow env).sizeT_pos
  refine ⟨hk.front, ?_⟩
  intro hempty
  have hexit := expandWindow_exit env s
  rw [hempty, List.length_nil] at hexit
  apply takeNext_eq_none hk.builder
  exact hexit.resolve_left (not_not.mpr hpos)

structure ConfigInv (file : Bytes) (maxWindowSize : Int) (s : RdtStrategy) : Prop where
  kept : Kept file s
  sized : Sized maxWindowSize s
  settled : Settled s

theorem configInv_start (file : Bytes) (maxWindowSize : Int) (env : Env)
    : ConfigInv file maxWindowSize (start env (new (File.regular file) maxWindowSize)) := by
  obtain ⟨_, _, hlen, _⟩ := new_spec file maxWindowSize
  refine ⟨Kept.start file maxWindowSize env, Sized.start file maxWindowSize env, ?_⟩
  exact settled_start (settled_new file maxWindowSize) hlen env

theorem configInv_step (hint : IsInt maxWindowSize) (hne : maxWindowSize ≠ 0)
    (h : ConfigInv file maxWindowSize s) {e : Event} (hadjust : Adjustable s e)
    (hstep : step env s e = some t)
    : ConfigInv file maxWindowSize t := by
  obtain ⟨hk, hs, hset⟩ := h
  cases e with
  | acknowledge ackPkt =>
    cases hstep
    by_cases hcksum : ackPkt.cksum = ackPkt.calculateChecksum
    . cases acknowledgePacket_cases env s ackPkt with
      | inl heq =>
        rw [heq]
        exact ⟨hk, hs, hset⟩
      | inr hex =>
        obtain ⟨p, hp, hseqno, hacked, heq⟩ := hex
        have hsize := hadjust ackPkt rfl ⟨hcksum, p, hp, hseqno, hacked⟩
        have hadjusted : Sized maxWindowSize (adjustWindowSize (setAcked s p)) := by
          apply (hs.setAcked p).adjustWindowSize hint hne
          rwa [windowSize_setAcked]
        refine ⟨hk.acknowledgePacket env ackPkt, ?_, ?_⟩
        . exact heq ▸ hadjusted.expandWindow env
        . exact heq ▸ settled_expandWindow (hk.setAcked hp).adjustWindowSize hadjusted env
    . have heq : acknowledgePacket env s ackPkt = s := if_neg hcksum
      rw [heq]
      exact ⟨hk, hs, hset⟩
  | timeOut first =>
    simp only [step, Option.ite_none_left_eq_some, Option.some.injEq] at hstep
    obtain ⟨_, rfl⟩ := hstep
    exact ⟨hk.timeOut env first, hs.timeOut env first, settled_timeOut hset env first⟩

structure Alone (s : RdtStrategy) : Prop where
  builder : s.pktBuilder.WF
  length_window_le : s.window.length ≤ 1
  auxWindow_eq : s.auxWindow = []
  pending_eq : s.pending = []

namespace Alone

variable {p : PacketPtr}

theorem shrinkWindow (h : Alone s) (newSize : Int) : Alone (shrinkWindow s newSize) := by
  have hsize : 1 ≤ sizeT (if newSize < 1 then 1 else newSize) := by
    unfold sizeT
    grind
  have hmoved : s.window.drop (sizeT (if newSize < 1 then 1 else newSize)) = [] := by
    rw [List.drop_eq_nil_iff]
    exact Nat.le_trans h.length_window_le hsize
  refine ⟨?_, ?_, ?_, ?_⟩
  . rw [shrinkWindow_eq]
    exact h.builder
  . rw [window_shrinkWindow, List.length_take]
    exact Nat.le_trans (Nat.min_le_right _ _) h.length_window_le
  . rw [shrinkWindow_eq]
    dsimp only
    rw [hmoved]
    exact h.auxWindow_eq
  . rw [pending_shrinkWindow, h.pending_eq]

theorem sendPacket (h : Alone s) (env : Env) (p : PacketPtr) : Alone (sendPacket env s p) := by
  have htransmit : Alone (s.transmit env p) :=
    ⟨h.builder, h.length_window_le, h.auxWindow_eq, h.pending_eq⟩
  cases sendPacket_cases env s p with
  | inl heq =>
    rw [heq]
    exact htransmit
  | inr heq =>
    rw [heq]
    apply htransmit.shrinkWindow

theorem expandWindow_eq (h : Alone s) (env : Env) : expandWindow env s = s := by
  apply expandWindow_of_none
  right
  have hnext : ¬ s.pktBuilder.hasNext = true := by
    rw [PacketBuilder.hasNext_iff h.builder s.nextSeqNumber]
    exact not_not.mpr h.pending_eq
  unfold takeNext
  simp [h.auxWindow_eq, hnext]

theorem acknowledgePacket (h : Alone s) (env : Env) (ackPkt : AckPacket)
    : Alone (acknowledgePacket env s ackPkt) := by
  cases acknowledgePacket_cases env s ackPkt with
  | inl heq =>
    rw [heq]
    exact h
  | inr hex =>
    obtain ⟨p, _, _, _, heq⟩ := hex
    have hacked : Alone (adjustWindowSize (setAcked s p)) := by
      cases setAcked_cases s p with
      | inl heq =>
        rw [heq]
        exact ⟨h.builder, h.length_window_le, h.auxWindow_eq, h.pending_eq⟩
      | inr heq =>
        rw [heq]
        refine ⟨h.builder, ?_, h.auxWindow_eq, h.pending_eq⟩
        exact Nat.le_trans (List.length_dropWhile_le _ _) h.length_window_le
    rw [heq, hacked.expandWindow_eq env]
    exact hacked

theorem timeOut (h : Alone s) (env : Env) (first : PacketPtr) : Alone (timeOut env s first) := by
  have herase : Alone (s.eraseUnacked first) :=
    ⟨h.builder, h.length_window_le, h.auxWindow_eq, h.pending_eq⟩
  have hshrunk := herase.shrinkWindow 1
  cases timeOut_cases env s first with
  | inl heq =>
    rw [heq]
    exact hshrunk
  | inr hex =>
    obtain ⟨p, _, heq⟩ := hex
    rw [heq]
    exact hshrunk.sendPacket env p

theorem start (hlen : (file.chunks MAX_DATA_SIZE).length ≤ 1) (maxWindowSize : Int) (env : Env)
    : Alone (start env (new (File.regular file) maxWindowSize)) := by
  obtain ⟨hinv, hnew, hle, _⟩ := new_spec file maxWindowSize
  have hempty := (settled_new file maxWindowSize).empty
  have hlength := congrArg List.length hinv.content
  simp only [List.length_append, length_packets] at hlength
  have hpending : (new (File.regular file) maxWindowSize).pending = [] := by
    cases hw : (new (File.regular file) maxWindowSize).window with
    | nil => exact (hempty hw).2
    | cons p rest =>
      have hcount := congrArg List.length hw
      rw [List.length_cons] at hcount
      apply List.length_eq_zero_iff.mp
      omega
  have halone : Alone (new (File.regular file) maxWindowSize) :=
    ⟨hinv.builder, hle, hnew.auxWindow_eq, hpending⟩
  cases start_cases env hle with
  | inl heq =>
    rw [heq.1]
    exact halone
  | inr hex =>
    obtain ⟨p, _, heq⟩ := hex
    rw [heq]
    exact halone.sendPacket env p

end Alone

theorem completed_of_isDone (hk : Kept file s) (hset : Settled s)
    (hN : (file.chunks MAX_DATA_SIZE).length ≤ 2 ^ 32) (hdone : s.isDone = true) {p : PacketPtr}
    (hp : p ∈ packets 1 file)
    : p ∈ s.sent ∧ s.heap.isAcked p = true := by
  have hwindow : s.window = [] := List.isEmpty_iff.mp hdone
  obtain ⟨haux, hpending⟩ := hset.empty hwindow
  have hpopped : p ∈ s.popped := by
    have := (hk.perm hN).mem_iff.mpr hp
    simpa [RdtStrategy.places, hwindow, haux, hpending] using this
  refine ⟨?_, hk.popped_acked p hpopped⟩
  apply hk.sent
  exact List.mem_append_left _ hpopped

theorem sendPacket_singleton {p : PacketPtr} (hwindow : s.window = [p]) (hsize : s.windowSize = 1)
    (env : Env)
    : (sendPacket env s p).window = [p] ∧ (sendPacket env s p).windowSize = 1 := by
  cases sendPacket_cases env s p with
  | inl heq =>
    rw [heq]
    exact ⟨hwindow, hsize⟩
  | inr heq =>
    rw [heq, window_shrinkWindow, windowSize_shrinkWindow, RdtStrategy.window_transmit, hwindow,
      hsize]
    exact ⟨rfl, rfl⟩

theorem packets_of_new (hlen : 1 < (file.chunks MAX_DATA_SIZE).length) (maxWindowSize : Int)
    : ∃ p q rest, (new (File.regular file) maxWindowSize).window = [p]
        ∧ packets 1 file = p :: q :: rest := by
  obtain ⟨hinv, hnew, hle, _⟩ := new_spec file maxWindowSize
  have hcontent : (new (File.regular file) maxWindowSize).window
      ++ (new (File.regular file) maxWindowSize).pending = packets 1 file := by
    have := hinv.content
    rwa [hnew.popped_eq, hnew.auxWindow_eq, List.nil_append, List.nil_append] at this
  have hlength := congrArg List.length hcontent
  rw [length_packets, List.length_append] at hlength
  have hempty := (settled_new file maxWindowSize).empty
  cases hw : (new (File.regular file) maxWindowSize).window with
  | nil =>
    rw [(hempty hw).2, hw] at hlength
    simp only [List.length_nil] at hlength
    omega
  | cons p rest =>
    rw [hw, List.length_cons] at hle hlength
    have hrest : rest = [] := List.length_eq_zero_iff.mp (by omega)
    cases hpending : (new (File.regular file) maxWindowSize).pending with
    | nil =>
      rw [hpending, List.length_nil] at hlength
      omega
    | cons q later =>
      refine ⟨p, q, later, by rw [hrest], ?_⟩
      rw [← hcontent, hw, hpending, hrest]
      rfl

theorem isDone_of_zero (hlen : 1 < (file.chunks MAX_DATA_SIZE).length) (env : Env)
    : ∃ t, StepFn.ReachableWhen (step env) Adjustable (start env (new (File.regular file) 0)) t
        ∧ t.isDone = true ∧ ∃ p ∈ packets 1 file, p ∉ t.sent ∧ t.heap.isAcked p = false := by
  obtain ⟨_, hnew, _, hnewAcked⟩ := new_spec file 0
  obtain ⟨p, q, rest, hwindow, hpackets⟩ := packets_of_new hlen 0
  have haddr : q.addr ≠ p.addr := by
    have := pairwise_addr_packets 1 file
    simp only [hpackets, List.pairwise_cons, List.mem_cons] at this
    exact Nat.ne_of_gt (this.1 q (.inl rfl))
  have hstart : start env (new (File.regular file) 0) = sendPacket env (new (File.regular file) 0) p := by
    rw [start, hwindow]
    rfl
  have hmax := (Sized.start file 0 env).maxWindowSize_eq
  obtain ⟨hw, hsize⟩ := sendPacket_singleton hwindow hnew.windowSize_eq env
  rw [← hstart] at hw hsize
  have hhead : (start env (new (File.regular file) 0)).window.head? = some p := by
    rw [hw]
    rfl
  have hacked (r : PacketPtr) : (start env (new (File.regular file) 0)).heap.isAcked r = false := by
    rw [hstart, isAcked_sendPacket, hnewAcked]
  have hsent : (start env (new (File.regular file) 0)).sent = [p] := by
    rw [hstart, sent_sendPacket, hnew.sent_eq]
    rfl
  generalize start env (new (File.regular file) 0) = s at *
  have hzero : (adjustWindowSize (setAcked s p)).windowSize = 0 := by
    have hmax' : (setAcked s p).maxWindowSize = 0 := by
      rw [setAcked, if_pos hhead]
      exact hmax
    simp only [adjustWindowSize, windowSize_setAcked, hsize, hmax']
    split <;> decide
  have hstep : step env s (.acknowledge (AckPacket.new p.packet.seqno))
      = some (adjustWindowSize (setAcked s p)) := by
    simp only [step]
    rw [acknowledgePacket_new_of_head env hhead (hacked p), expandWindow_of_none]
    left
    rw [hzero]
    exact Nat.not_lt_zero _
  have hadjust : Adjustable s (.acknowledge (AckPacket.new p.packet.seqno)) := by
    intro _ _ _
    rw [hsize]
    decide
  refine ⟨_, .step .init hadjust hstep, ?_, q, by simp [hpackets], ?_, ?_⟩
  . simp [adjustWindowSize, setAcked, advanceWindow, RdtStrategy.isDone, hw]
  . have hne : q ≠ p := fun heq => haddr (congrArg _ heq)
    simpa [adjustWindowSize, setAcked, hhead, advanceWindow, hsent] using hne
  . change (setAcked s p).heap.isAcked q = false
    rw [isAcked_setAcked, if_neg haddr, hacked]

/--
A transfer is never taken for complete too early.
-/
def Completes (env : Env) (file : Bytes) (maxWindowSize : Int) : Prop :=
  ∀ s, StepFn.ReachableWhen (step env) Adjustable (start env (new (File.regular file) maxWindowSize)) s
    → s.isDone = true → ∀ p ∈ packets 1 file, p ∈ s.sent ∧ s.heap.isAcked p = true

theorem completes_of_ne_zero (hint : IsInt maxWindowSize) (hne : maxWindowSize ≠ 0)
    (hN : (file.chunks MAX_DATA_SIZE).length ≤ 2 ^ 32) (env : Env)
    : Completes env file maxWindowSize := by
  intro s hreach hdone p hp
  have hinv : ConfigInv file maxWindowSize s := by
    apply hreach.invariant (configInv_start file maxWindowSize env)
    intro s e t hs hadjust hstep
    exact configInv_step hint hne hs hadjust hstep
  exact completed_of_isDone hinv.kept hinv.settled hN hdone hp

theorem completes_of_length_le (hlen : (file.chunks MAX_DATA_SIZE).length ≤ 1) (maxWindowSize : Int)
    (env : Env)
    : Completes env file maxWindowSize := by
  intro s hreach hdone p hp
  have hinv : Kept file s ∧ Alone s := by
    apply hreach.invariant (P := fun s => Kept file s ∧ Alone s)
    . exact ⟨Kept.start file maxWindowSize env, Alone.start hlen maxWindowSize env⟩
    . intro s e t hs _ hstep
      cases e with
      | acknowledge ackPkt =>
        cases hstep
        exact ⟨hs.1.acknowledgePacket env ackPkt, hs.2.acknowledgePacket env ackPkt⟩
      | timeOut first =>
        simp only [step, Option.ite_none_left_eq_some, Option.some.injEq] at hstep
        obtain ⟨_, rfl⟩ := hstep
        exact ⟨hs.1.timeOut env first, hs.2.timeOut env first⟩
  obtain ⟨hk, ha⟩ := hinv
  exact completed_of_isDone hk ⟨hk.front, fun _ => ⟨ha.auxWindow_eq, ha.pending_eq⟩⟩ (by omega) hdone hp

theorem safe_iff {α : Type} [LT α] [DecidableLT α] {cfg : PacketSenderConfig α}
    (hloss : ∀ x ∈ cfg.lossSequence, IsInt x) (hint : IsInt maxWindowSize)
    (hN : (file.chunks MAX_DATA_SIZE).length ≤ 2 ^ 32)
    : ((∀ packets, (PacketSender.run cfg packets).isSome = true)
          ↔ cfg.lossSequence ≠ [] ∧ 0 ∉ cfg.lossSequence)
        ∧ ((∀ env, Completes env file maxWindowSize)
          ↔ maxWindowSize ≠ 0 ∨ (file.chunks MAX_DATA_SIZE).length ≤ 1) := by
  refine ⟨PacketSender.run_isSome_iff hloss, ?_, ?_⟩
  . intro h
    by_contra hzero
    simp only [ne_eq, not_or, not_not, Nat.not_le] at hzero
    obtain ⟨t, hreach, hdone, p, hp, hsent, _⟩ := isDone_of_zero hzero.2 ⟨id, fun _ => false⟩
    apply hsent
    rw [← hzero.1] at hreach
    exact (h _ t hreach hdone p hp).1
  . intro h env
    cases h with
    | inl hne => exact completes_of_ne_zero hint hne hN env
    | inr hlen => exact completes_of_length_le hlen maxWindowSize env

def sampleSent : RdtStrategy :=
  start sampleEnv (new (File.regular [7]) (-3))

def samplePacket : PacketPtr :=
  ⟨0, DataPacket.new [7] 1⟩

theorem acknowledgePacket_sampleSent
    : acknowledgePacket sampleEnv sampleSent (AckPacket.new samplePacket.packet.seqno)
        = adjustWindowSize (setAcked sampleSent samplePacket) := by
  rw [acknowledgePacket_new_of_head, expandWindow_of_none]
  . exact .inr (Option.isNone_iff_eq_none.mp (by decide +kernel))
  . decide +kernel
  . decide +kernel

theorem safe_of_negative_maxWindowSize
    : (∀ packets, (PacketSender.run PacketSender.samplePacketSenderConfig packets).isSome = true)
        ∧ ∀ p ∈ packets 1 [7],
            p ∈ (adjustWindowSize (setAcked sampleSent samplePacket)).sent
              ∧ (adjustWindowSize (setAcked sampleSent samplePacket)).heap.isAcked p = true := by
  have hloss : ∀ x ∈ PacketSender.samplePacketSenderConfig.lossSequence, IsInt x := by decide
  have hint : IsInt (-3) := by decide
  have hN : (List.chunks MAX_DATA_SIZE ([7] : Bytes)).length ≤ 2 ^ 32 := by decide
  obtain ⟨hrun, hdone⟩ := safe_iff hloss hint hN
  have hadjust : Adjustable sampleSent (.acknowledge (AckPacket.new samplePacket.packet.seqno)) := by
    intro _ _ _
    decide +kernel
  refine ⟨hrun.mpr (by decide), ?_⟩
  apply hdone.mpr (.inl (by decide)) sampleEnv _
    (.step .init hadjust (congrArg some acknowledgePacket_sampleSent))
  decide +kernel

theorem unsafe_of_zeros
    : PacketSender.run { PacketSender.samplePacketSenderConfig with lossSequence := [] }
          [DataPacket.new [7] 1] = none
        ∧ PacketSender.run { PacketSender.samplePacketSenderConfig with lossSequence := [0] }
          [DataPacket.new [7] 1] = none
        ∧ ∃ s, StepFn.Reachable (step sampleEnv) (start sampleEnv (new (File.regular sampleFile) 0)) s
          ∧ s.isDone = true
          ∧ ∃ p ∈ packets 1 sampleFile, p ∉ s.sent ∧ s.heap.isAcked p = false := by
  have hlen : 1 < (sampleFile.chunks MAX_DATA_SIZE).length := by decide +kernel
  obtain ⟨t, hreach, hrest⟩ := isDone_of_zero hlen sampleEnv
  exact ⟨rfl, by decide +kernel, t, hreach.reachable, hrest⟩

end SelectiveRepeat
