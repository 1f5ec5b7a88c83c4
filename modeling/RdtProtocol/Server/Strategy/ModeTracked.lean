import RdtProtocol.Server.Strategy.GoBackNTracked
import RdtProtocol.Server.Strategy.ModeRuns
import RdtProtocol.Server.Strategy.SelectiveRepeatTracked
import RdtProtocol.Server.Strategy.WindowRuns

/-!
This module contains when `unacked_packets` has the packets that wait for an ACK all along a run.
-/

namespace Mode

variable (mode : Mode) (env : Env) (file : Bytes)

def Constructed (s : RdtStrategy) : Prop :=
  match mode with
  | .stopAndWait => False
  | .selectiveRepeat => ∃ maxWindowSize, s = SelectiveRepeat.new (File.regular file) maxWindowSize
  | .goBackN =>
    ∃ nextSeqNumber maxWindowSize threshold,
      s = GoBackN.new (File.regular file) nextSeqNumber maxWindowSize threshold

def acknowledged (s : RdtStrategy) (ackPkt : AckPacket) : List PacketPtr :=
  match mode with
  | .stopAndWait => []
  | .selectiveRepeat => SelectiveRepeat.acknowledged s ackPkt
  | .goBackN => GoBackN.acknowledged s ackPkt

-- Go back N reads the clock twice for each packet, and it is the second reading that stays.
def StartTicks (s : RdtStrategy) : Prop :=
  mode = .goBackN → ∀ i, i + 1 < s.window.length → env.now (2 * i + 1) ≠ env.now (2 * i + 2)

-- The readings for the packets that an ACK makes room for differ from each other, and the first one from
-- the time stamps that stay in the set.
def StepTicks (s : RdtStrategy) : Event → Prop
  | .acknowledge ackPkt =>
    (s.clockReads < (mode.acknowledgePacket env s ackPkt).clockReads →
        ∀ p ∈ s.unackedPackets, p ∉ mode.acknowledged s ackPkt →
          s.heap.timeStamp p ≠ env.now s.clockReads)
      ∧ ∀ i, s.clockReads ≤ i → i + 1 < (mode.acknowledgePacket env s ackPkt).clockReads →
          env.now i ≠ env.now (i + 1)
  | .timeOut => True
  -- This is not an ACK, and a time-out only of go back N.
  | .resend _ => False

def TracksOutstanding (s : RdtStrategy) : Prop :=
  ∀ p, p ∈ s.unackedPackets ↔ p ∈ s.window ∧ p ∈ s.sent ∧ s.heap.isAcked p = false

end Mode

variable {env : Env} {file : Bytes} {s t : RdtStrategy}

theorem RdtStrategy.Tracked.tracksOutstanding (h : s.Tracked env) (hsent : ∀ p ∈ s.window, p ∈ s.sent)
    : Mode.TracksOutstanding s := by
  intro p
  rw [h.mem_unackedPackets]
  constructor
  . intro ⟨hp, hacked⟩
    exact ⟨hp, hsent p hp, hacked⟩
  . intro ⟨hp, _, hacked⟩
    exact ⟨hp, hacked⟩

theorem RdtStrategy.Tracked.not_tracksOutstanding (h : s.Tracked env) {p q : PacketPtr}
    (hq : q ∈ s.unackedPackets) (heq : s.heap.timeStamp q = env.now s.clockReads)
    (haddr : ∀ r ∈ s.window, r.addr ≠ p.addr) (hacked : s.heap.isAcked p = false)
    : ¬ Mode.TracksOutstanding ({ s with window := s.window ++ [p] }.transmit env p) := by
  have hmem : ∀ r ∈ s.unackedPackets, r.addr ≠ p.addr := by
    intro r hr
    exact haddr r (h.mem_unackedPackets.mp hr).1
  have hstamp : ∀ r ∈ s.unackedPackets,
      (s.heap.setTimeStamp p (env.now s.clockReads)).timeStamp r = s.heap.timeStamp r := by
    intro r hr
    simp [hmem r hr]
  have hsorted : OrderedSet.Sorted (s.heap.setTimeStamp p (env.now s.clockReads)).timeStamp
      s.unackedPackets := by
    apply h.sorted_unackedPackets.imp_of_mem
    intro r r' hr hr' hlt
    rwa [hstamp r hr, hstamp r' hr']
  intro htracks
  have hp := (htracks p).mpr ⟨by simp, by simp, by simpa using hacked⟩
  simp only [unackedPackets_transmit] at hp
  rw [hsorted.insert_eq_self hq (by simp [hstamp q hq, heq])] at hp
  exact hmem p hp rfl

namespace GoBackN

variable {first : UInt32}

structure TrackedInv (first : UInt32) (file : Bytes) (env : Env) (s : RdtStrategy) : Prop where
  inOrder : s.InOrder first file DEFAULT_WINDOW_SIZE
  fresh : s.Fresh
  tracked : s.Tracked env
  sent : ∀ p ∈ s.popped ++ s.window, p ∈ s.sent

theorem sent_acknowledgePacket {n : Int} (h : s.InOrder first file n)
    (hsent : ∀ p ∈ s.popped ++ s.window, p ∈ s.sent) (env : Env) (ackPkt : AckPacket)
    : let t := acknowledgePacket env s ackPkt
      ∀ p ∈ t.popped ++ t.window, p ∈ t.sent := by
  cases acknowledgePacket_cases env s ackPkt with
  | inl heq =>
    rw [heq.1]
    exact hsent
  | inr hex =>
    obtain ⟨xs, p, rest, hwindow, _, heq⟩ := hex
    have hys : ∀ y ∈ (xs ++ [p]).reverse, y ∈ s.window := by
      intro y hy
      rw [List.mem_reverse] at hy
      rw [hwindow, List.append_cons]
      exact List.mem_append_left _ hy
    obtain ⟨_, hwin, _, hpopped, hsame, _⟩ := h.setAcks _ hys
    obtain ⟨new, hnew, hpackets⟩ := RdtStrategy.sent_advanceWindow env
      ((xs ++ [p]).reverse.foldl (fun s p => (s.setAck p true).eraseUnacked p) s)
    rw [heq]
    intro t q hq
    simp only [t] at hq ⊢
    rw [hpackets, hpopped, hwin, List.mem_append] at hq
    rw [hnew, hsame, List.mem_append]
    exact hq.imp_left (hsent q)

theorem clockReads_new (file : File) (first : UInt32) (maxWindowSize threshold : Int)
    : (new file first maxWindowSize threshold).clockReads = 0 := by
  apply RdtStrategy.fillWindow_induction (P := fun s => s.clockReads = 0)
  . intro s p s' _ _ hget hs
    obtain ⟨_, _, _, rfl⟩ := RdtStrategy.getNextPacket_eq_some hget
    exact hs
  . rfl

theorem trackedInv_start (first : UInt32) (file : Bytes) (maxWindowSize threshold : Int)
    (hclock : Monotone env.now)
    (hticks : Mode.StartTicks .goBackN env (new (File.regular file) first maxWindowSize threshold))
    : TrackedInv first file env
        (start env (new (File.regular file) first maxWindowSize threshold)) := by
  obtain ⟨hinv, hfresh, hpopped, hunacked⟩ := RdtStrategy.inOrder_new first file maxWindowSize threshold
    (show 0 < DEFAULT_WINDOW_SIZE by decide) (by decide)
  obtain ⟨hinv', hfresh'⟩ := inOrder_start hinv hfresh env
  have hreads := clockReads_new (File.regular file) first maxWindowSize threshold
  refine ⟨hinv', hfresh', tracked_start hinv hfresh hclock hunacked hreads (hticks rfl), ?_⟩
  intro p hp
  obtain ⟨hpopped', hwindow, hsent⟩ := foldl_send_frame
    (new (File.regular file) first maxWindowSize threshold) env
    (new (File.regular file) first maxWindowSize threshold).window
  change p ∈ (start env _).popped ++ (start env _).window at hp
  unfold start at hp ⊢
  rw [hpopped', hwindow, new, hpopped, List.nil_append] at hp
  rw [hsent]
  exact List.mem_append_right _ hp

theorem trackedInv_acknowledgePacket (h : TrackedInv first file env s) (hclock : Monotone env.now)
    (ackPkt : AckPacket) (hticks : Mode.StepTicks .goBackN env s (.acknowledge ackPkt))
    : TrackedInv first file env (acknowledgePacket env s ackPkt) := by
  obtain ⟨hinv, hfresh⟩ := inOrder_acknowledgePacket h.inOrder h.fresh env ackPkt
  refine ⟨hinv, hfresh, ?_, sent_acknowledgePacket h.inOrder h.sent env ackPkt⟩
  exact tracked_acknowledgePacket h.inOrder h.fresh h.tracked hclock ackPkt hticks.1 hticks.2

end GoBackN

namespace Mode

variable {mode : Mode} {init : RdtStrategy}

theorem tracksOutstanding_of_reachableWhen (hclock : Monotone env.now)
    (hnew : mode.Constructed file init) (hstart : mode.StartTicks env init)
    (h : StepFn.ReachableWhen (mode.step env) (mode.StepTicks env) (mode.start env init) s)
    : TracksOutstanding s := by
  cases mode with
  | stopAndWait => exact hnew.elim
  | selectiveRepeat =>
    obtain ⟨maxWindowSize, rfl⟩ := hnew
    have hinv : SelectiveRepeat.Kept file s ∧ s.Tracked env := by
      apply h.invariant (P := fun s => SelectiveRepeat.Kept file s ∧ s.Tracked env)
      . exact ⟨.start file maxWindowSize env, SelectiveRepeat.tracked_start file maxWindowSize hclock⟩
      . intro s e t ⟨hk, ht⟩ hticks hstep
        cases e with
        | acknowledge ackPkt =>
          cases hstep
          refine ⟨hk.acknowledgePacket env ackPkt, ?_⟩
          exact SelectiveRepeat.tracked_acknowledgePacket hk ht hclock ackPkt hticks.1 hticks.2
        | timeOut =>
          simp only [step, Option.ite_none_left_eq_some, Option.some.injEq] at hstep
          obtain ⟨_, rfl⟩ := hstep
          exact ⟨hk.handleTimeOut env, SelectiveRepeat.tracked_handleTimeOut hk ht hclock⟩
        | resend index => exact hticks.elim
    apply hinv.2.tracksOutstanding
    intro p hp
    exact hinv.1.sent p (List.mem_append_right _ hp)
  | goBackN =>
    obtain ⟨first, maxWindowSize, threshold, rfl⟩ := hnew
    have hinv : GoBackN.TrackedInv first file env s := by
      apply h.invariant
      . exact GoBackN.trackedInv_start first file maxWindowSize threshold hclock hstart
      . intro s e t hs hticks hstep
        cases e with
        | acknowledge ackPkt =>
          cases hstep
          exact GoBackN.trackedInv_acknowledgePacket hs hclock ackPkt hticks
        | timeOut =>
          simp only [step, Option.ite_none_left_eq_some, Option.some.injEq] at hstep
          obtain ⟨_, rfl⟩ := hstep
          exact hs
        | resend index => exact hticks.elim
    apply hinv.tracked.tracksOutstanding
    intro p hp
    exact hinv.sent p (List.mem_append_right _ hp)

def twoPackets : Bytes :=
  List.replicate 501 7

def slowEnv : Env :=
  { now := fun i => i / 2, tripleDupAck := fun _ => false }

theorem tracksOutstanding_slowEnv
    : TracksOutstanding (GoBackN.acknowledgePacket slowEnv
        (GoBackN.start slowEnv (GoBackN.new (File.regular twoPackets) 0 0 0)) (AckPacket.new 0)) := by
  have hclock : Monotone slowEnv.now := fun i j hij => Nat.div_le_div_right hij
  have hstart : StartTicks .goBackN slowEnv (GoBackN.new (File.regular twoPackets) 0 0 0) := by
    intro _ i _
    simp only [slowEnv]
    omega
  have hreads : (GoBackN.acknowledgePacket slowEnv
      (GoBackN.start slowEnv (GoBackN.new (File.regular twoPackets) 0 0 0))
      (AckPacket.new 0)).clockReads
      = (GoBackN.start slowEnv (GoBackN.new (File.regular twoPackets) 0 0 0)).clockReads := by
    decide +kernel
  have hstep : StepTicks .goBackN slowEnv
      (GoBackN.start slowEnv (GoBackN.new (File.regular twoPackets) 0 0 0))
      (.acknowledge (AckPacket.new 0)) := by
    constructor
    . intro hlt
      exact absurd (hreads ▸ hlt) (Nat.lt_irrefl _)
    . intro i hi hlt
      have hlt : i + 1 < _ := hreads ▸ hlt
      omega
  have hnew : Constructed .goBackN twoPackets (GoBackN.new (File.regular twoPackets) 0 0 0) :=
    ⟨0, 0, 0, rfl⟩
  exact tracksOutstanding_of_reachableWhen hclock hnew hstart (.step .init hstep rfl)

theorem not_tracksOutstanding_of_start
    : Monotone (fun _ : Nat => 5)
        ∧ ¬ TracksOutstanding (GoBackN.start ⟨fun _ => 5, fun _ => false⟩
          (GoBackN.new (File.regular twoPackets) 0 0 0)) := by
  refine ⟨fun _ _ _ => Nat.le_refl _, ?_⟩
  intro h
  have := (h ⟨1, DataPacket.new [7] 1⟩).mpr (by decide +kernel)
  exact absurd this (by decide +kernel)

end Mode
