import RdtProtocol.Server.Strategy.InterleavingRuns

/-!
This module shows that neither time nor what is in `unacked_packets` matters to what the two threads do
to the windows, apart from when they do it.
-/

namespace Interleaving

structure SameWindows (mode : Mode) (s t : RdtStrategy) : Prop where
  pktBuilder_eq : t.pktBuilder = s.pktBuilder
  nextSeqNumber_eq : t.nextSeqNumber = s.nextSeqNumber
  windowSize_eq : t.windowSize = s.windowSize
  maxWindowSize_eq : t.maxWindowSize = s.maxWindowSize
  threshold_eq : t.threshold = s.threshold
  window_eq : t.window = s.window
  auxWindow_eq : t.auxWindow = s.auxWindow
  popped_eq : t.popped = s.popped
  isAcked_eq : t.heap.isAcked = s.heap.isAcked
  sent_subset : s.sent ⊆ t.sent
  -- Only selective repeat looks at the answers of `packet_sender`.
  length_sent_eq : mode = .selectiveRepeat → t.sent.length = s.sent.length

namespace SameWindows

variable {mode : Mode} {env env' : Env} {s t s' : RdtStrategy} {p : PacketPtr}

theorem refl (mode : Mode) (s : RdtStrategy) : SameWindows mode s s :=
  ⟨rfl, rfl, rfl, rfl, rfl, rfl, rfl, rfl, rfl, fun _ => id, fun _ => rfl⟩

theorem setAck (h : SameWindows mode s t) (p : PacketPtr) (acked : Bool)
    : SameWindows mode (s.setAck p acked) (t.setAck p acked) := by
  refine { h with isAcked_eq := ?_ }
  funext q
  simp [h.isAcked_eq]

theorem eraseUnacked_left (h : SameWindows mode s t) (p : PacketPtr)
    : SameWindows mode (s.eraseUnacked p) t :=
  { h with }

theorem eraseUnacked_right (h : SameWindows mode s t) (p : PacketPtr)
    : SameWindows mode s (t.eraseUnacked p) :=
  { h with }

theorem insertUnacked_left (h : SameWindows mode s t) (p : PacketPtr)
    : SameWindows mode (s.insertUnacked p) t :=
  { h with }

theorem insertUnacked_right (h : SameWindows mode s t) (p : PacketPtr)
    : SameWindows mode s (t.insertUnacked p) :=
  { h with }

theorem pushBack (h : SameWindows mode s t) (p : PacketPtr)
    : SameWindows mode (s.pushBack p) (t.pushBack p) := by
  refine { h with window_eq := ?_ }
  simp only [RdtStrategy.pushBack, h.window_eq]

theorem popFront (h : SameWindows mode s t) : SameWindows mode s.popFront t.popFront := by
  refine { h with window_eq := ?_, popped_eq := ?_ }
  . simp only [RdtStrategy.popFront, h.window_eq]
  . simp only [RdtStrategy.popFront, h.window_eq, h.popped_eq]

theorem stamp (h : SameWindows mode s t) (env env' : Env) (p : PacketPtr)
    : SameWindows mode (s.stamp env p) (t.stamp env' p) := by
  refine { h with isAcked_eq := ?_, sent_subset := ?_, length_sent_eq := ?_ }
  . funext q
    simp [RdtStrategy.stamp, RdtStrategy.setTimeStamp, h.isAcked_eq]
  . intro q hq
    simp only [RdtStrategy.stamp, RdtStrategy.setTimeStamp, List.mem_append] at hq ⊢
    exact hq.imp_left (fun hq => h.sent_subset hq)
  . intro hmode
    simp [RdtStrategy.stamp, RdtStrategy.setTimeStamp, h.length_sent_eq hmode]

theorem stamp_left (hmode : mode ≠ .selectiveRepeat) (h : SameWindows mode s t) (env : Env)
    (hp : p ∈ s.sent)
    : SameWindows mode (s.stamp env p) t := by
  refine { h with isAcked_eq := ?_, sent_subset := ?_, length_sent_eq := fun heq => absurd heq hmode }
  . funext q
    simp [RdtStrategy.stamp, RdtStrategy.setTimeStamp, h.isAcked_eq]
  . intro q hq
    simp only [RdtStrategy.stamp, RdtStrategy.setTimeStamp, List.mem_append, List.mem_singleton] at hq
    obtain hq | rfl := hq
    . exact h.sent_subset hq
    . exact h.sent_subset hp

theorem transmit (h : SameWindows mode s t) (env env' : Env) (p : PacketPtr)
    : SameWindows mode (s.transmit env p) (t.transmit env' p) :=
  ((h.stamp env env' p).insertUnacked_left p).insertUnacked_right p

theorem tripleDupAck (h : SameWindows .selectiveRepeat s t)
    (hdup : env'.tripleDupAck = env.tripleDupAck)
    : t.tripleDupAck env' = s.tripleDupAck env := by
  rw [RdtStrategy.tripleDupAck, RdtStrategy.tripleDupAck, hdup, h.length_sent_eq rfl]

theorem getNextPacket (h : SameWindows mode s t) (hget : s.getNextPacket = some (p, s'))
    : ∃ t', t.getNextPacket = some (p, t') ∧ SameWindows mode s' t' := by
  obtain ⟨b, n, hnext, rfl⟩ := RdtStrategy.getNextPacket_eq_some hget
  refine ⟨{ t with pktBuilder := b, nextSeqNumber := n }, ?_, ?_⟩
  . simp [RdtStrategy.getNextPacket, h.pktBuilder_eq, h.nextSeqNumber_eq, hnext]
  . exact { h with pktBuilder_eq := rfl, nextSeqNumber_eq := rfl }

theorem getNextPacket_eq_none (h : SameWindows mode s t) (hget : s.getNextPacket = none)
    : t.getNextPacket = none := by
  rw [RdtStrategy.getNextPacket, Option.map_eq_none_iff] at hget ⊢
  rw [h.pktBuilder_eq, h.nextSeqNumber_eq]
  exact hget

theorem takeNext (h : SameWindows mode s t) (hnext : SelectiveRepeat.takeNext s = some (p, s'))
    : ∃ t', SelectiveRepeat.takeNext t = some (p, t') ∧ SameWindows mode s' t' := by
  unfold SelectiveRepeat.takeNext at hnext ⊢
  rw [h.auxWindow_eq]
  cases haux : s.auxWindow with
  | nil =>
    simp only [haux, Option.ite_none_right_eq_some] at hnext
    obtain ⟨t', ht, hs'⟩ := h.getNextPacket hnext.2
    exact ⟨t', by simp only [h.pktBuilder_eq, hnext.1, if_true, ht], hs'⟩
  | cons q aux =>
    simp only [haux, Option.some.injEq, Prod.mk.injEq] at hnext
    obtain ⟨rfl, rfl⟩ := hnext
    exact ⟨{ t with auxWindow := aux }, rfl, { h with auxWindow_eq := rfl }⟩

theorem takeNext_eq_none (h : SameWindows mode s t) (hnext : SelectiveRepeat.takeNext s = none)
    : SelectiveRepeat.takeNext t = none := by
  unfold SelectiveRepeat.takeNext at hnext ⊢
  rw [h.auxWindow_eq]
  cases haux : s.auxWindow with
  | nil =>
    simp only [haux] at hnext
    split at hnext
    . next hb => simp only [h.pktBuilder_eq, hb, if_true, h.getNextPacket_eq_none hnext]
    . next hb => simp only [h.pktBuilder_eq, hb, Bool.false_eq_true, if_false]
  | cons q aux => simp [haux] at hnext

theorem find (h : SameWindows mode s t) (ackPkt : AckPacket)
    : Interleaving.find mode t ackPkt = Interleaving.find mode s ackPkt := by
  simp only [Interleaving.find, h.window_eq, h.isAcked_eq]

def Next (mode : Mode) (next next' : RdtStrategy × Worker) : Prop :=
  SameWindows mode next.1 next'.1 ∧ next'.2 = next.2

theorem expand (h : SameWindows .selectiveRepeat s t) (hdup : env'.tripleDupAck = env.tripleDupAck)
    : Next .selectiveRepeat (Interleaving.expand env s) (Interleaving.expand env' t) := by
  unfold Interleaving.expand
  rw [h.window_eq, h.windowSize_eq]
  split
  . cases hnext : SelectiveRepeat.takeNext s with
    | none =>
      rw [h.takeNext_eq_none hnext]
      exact ⟨h, rfl⟩
    | some next =>
      obtain ⟨t', ht, hs'⟩ := h.takeNext hnext
      have hpush := (hs'.setAck next.1 false).pushBack next.1
      rw [ht]
      refine ⟨hpush.stamp env env' next.1, ?_⟩
      simp only [hpush.tripleDupAck hdup]
  . exact ⟨h, rfl⟩

theorem shrink (h : SameWindows mode s t) (newSize : Int)
    : Next mode (Interleaving.shrink s newSize) (Interleaving.shrink t newSize) := by
  simp only [Interleaving.shrink, h.window_eq, h.windowSize_eq]
  refine ⟨{ h with threshold_eq := rfl, windowSize_eq := rfl, window_eq := rfl, auxWindow_eq := ?_ }, rfl⟩
  rw [h.auxWindow_eq]

theorem advance (h : SameWindows mode s t) (env env' : Env)
    : Next mode (Interleaving.advance env s) (Interleaving.advance env' t) := by
  induction s using Interleaving.advance.induct generalizing t with
  | case1 s hw =>
    rw [advance_of_nil hw, advance_of_nil (h.window_eq.trans hw)]
    exact ⟨h, rfl⟩
  | case2 s p rest hw hacked hnext q s' hget =>
    obtain ⟨t', ht, hs'⟩ := h.popFront.getNextPacket hget
    rw [advance_of_cons hw, advance_of_cons (h.window_eq.trans hw), h.isAcked_eq, h.pktBuilder_eq,
      if_pos hacked, if_pos hnext, if_pos hacked, if_pos hnext, hget, ht]
    exact ⟨(hs'.pushBack q).stamp env env' q, rfl⟩
  | case3 s p rest hw hacked hnext hget =>
    rw [advance_of_cons hw, advance_of_cons (h.window_eq.trans hw), h.isAcked_eq, h.pktBuilder_eq,
      if_pos hacked, if_pos hnext, if_pos hacked, if_pos hnext, hget,
      h.popFront.getNextPacket_eq_none hget]
    exact ⟨h.popFront, rfl⟩
  | case4 s p rest hw hacked hnext ih =>
    rw [advance_of_cons hw, advance_of_cons (h.window_eq.trans hw), h.isAcked_eq, h.pktBuilder_eq,
      if_pos hacked, if_neg hnext, if_pos hacked, if_neg hnext]
    exact ih h.popFront
  | case5 s p rest hw hacked =>
    rw [advance_of_cons hw, advance_of_cons (h.window_eq.trans hw), h.isAcked_eq, if_neg hacked,
      if_neg hacked]
    exact ⟨h, rfl⟩

theorem advanceWindow (h : SameWindows mode s t)
    : SameWindows mode (SelectiveRepeat.advanceWindow s) (SelectiveRepeat.advanceWindow t) := by
  refine { h with window_eq := ?_, popped_eq := ?_ }
  . simp only [SelectiveRepeat.advanceWindow, h.window_eq, h.isAcked_eq]
  . simp only [SelectiveRepeat.advanceWindow, h.window_eq, h.isAcked_eq, h.popped_eq]

theorem adjustWindowSize (h : SameWindows mode s t)
    : SameWindows mode (SelectiveRepeat.adjustWindowSize s) (SelectiveRepeat.adjustWindowSize t) := by
  refine { h with windowSize_eq := ?_ }
  simp only [SelectiveRepeat.adjustWindowSize, h.windowSize_eq, h.maxWindowSize_eq, h.threshold_eq]

theorem resume (hmode : mode ≠ .goBackN) (h : SameWindows mode s t)
    (hdup : env'.tripleDupAck = env.tripleDupAck)
    : Next mode (Interleaving.resume mode env s) (Interleaving.resume mode env' t) := by
  cases mode with
  | stopAndWait => exact h.advance env env'
  | selectiveRepeat => exact h.expand hdup
  | goBackN => contradiction

theorem acked (hmode : mode ≠ .goBackN) (h : SameWindows mode s t)
    (hdup : env'.tripleDupAck = env.tripleDupAck) (p : PacketPtr)
    : Next mode (Interleaving.acked mode env s p) (Interleaving.acked mode env' t p) := by
  cases mode with
  | stopAndWait =>
    simp only [Interleaving.acked, h.window_eq]
    split
    . exact h.advance env env'
    . exact ⟨h, rfl⟩
  | selectiveRepeat =>
    simp only [Interleaving.acked, h.window_eq]
    split
    . exact h.advanceWindow.adjustWindowSize.expand hdup
    . exact h.adjustWindowSize.expand hdup
  | goBackN => contradiction

theorem stepWorker (hmode : mode ≠ .goBackN) (h : SameWindows mode s t)
    (hdup : env'.tripleDupAck = env.tripleDupAck) (w : Worker)
    : Next mode (Interleaving.stepWorker mode env s w) (Interleaving.stepWorker mode env' t w) := by
  cases w with
  | idle => exact ⟨h, rfl⟩
  | erase p => exact ⟨(h.eraseUnacked_left p).eraseUnacked_right p, rfl⟩
  | advance p => exact h.acked hmode hdup p
  | insert p tripleDupAck => exact ⟨(h.insertUnacked_left p).insertUnacked_right p, rfl⟩
  | sent tripleDupAck =>
    simp only [Interleaving.stepWorker]
    split
    . rw [h.windowSize_eq]
      exact h.shrink _
    . exact h.resume hmode hdup
  | shrink moved =>
    cases moved with
    | nil => exact h.resume hmode hdup
    | cons p moved => exact ⟨(h.eraseUnacked_left p).eraseUnacked_right p, rfl⟩

theorem shrinkWindow (h : SameWindows mode s t) (newSize : Int)
    : SameWindows mode (SelectiveRepeat.shrinkWindow s newSize)
        (SelectiveRepeat.shrinkWindow t newSize) := by
  simp only [SelectiveRepeat.shrinkWindow, SelectiveRepeat.foldl_eraseUnacked, h.window_eq,
    h.windowSize_eq]
  refine { h with threshold_eq := rfl, windowSize_eq := rfl, window_eq := rfl, auxWindow_eq := ?_ }
  simp only [h.auxWindow_eq]

theorem sendPacket (h : SameWindows .selectiveRepeat s t)
    (hdup : env'.tripleDupAck = env.tripleDupAck) (p : PacketPtr)
    : SameWindows .selectiveRepeat (SelectiveRepeat.sendPacket env s p)
        (SelectiveRepeat.sendPacket env' t p) := by
  have hsend := h.transmit env env' p
  simp only [SelectiveRepeat.sendPacket, h.tripleDupAck hdup]
  split
  . rw [hsend.windowSize_eq]
    exact hsend.shrinkWindow _
  . exact hsend

theorem start (hmode : mode ≠ .goBackN) (h : SameWindows mode s t)
    (hdup : env'.tripleDupAck = env.tripleDupAck)
    : SameWindows mode (mode.start env s) (mode.start env' t) := by
  have hfoldl {f f' : RdtStrategy → PacketPtr → RdtStrategy}
      (hf : ∀ s t p, SameWindows mode s t → SameWindows mode (f s p) (f' t p)) (ps : List PacketPtr)
      : SameWindows mode (ps.foldl f s) (ps.foldl f' t) := by
    induction ps generalizing s t with
    | nil => exact h
    | cons p ps ih => exact ih (hf s t p h)
  cases mode with
  | stopAndWait =>
    simp only [Mode.start, StopAndWait.start, h.window_eq]
    exact hfoldl (fun _ _ p h => h.transmit env env' p) _
  | selectiveRepeat =>
    simp only [Mode.start, SelectiveRepeat.start, h.window_eq]
    exact hfoldl (fun _ _ p h => h.sendPacket hdup p) _
  | goBackN => contradiction

end SameWindows

variable {mode : Mode} {env : Env} {c : State} {s t : RdtStrategy}

structure Onward (s t : RdtStrategy) : Prop where
  sent_kept : s.sent <+: t.sent
  popped_kept : s.popped <+: t.popped

theorem Onward.refl (s : RdtStrategy) : Onward s s :=
  ⟨List.prefix_rfl, List.prefix_rfl⟩

theorem Onward.trans {r s t : RdtStrategy} (hrs : Onward r s) (hst : Onward s t) : Onward r t :=
  ⟨hrs.sent_kept.trans hst.sent_kept, hrs.popped_kept.trans hst.popped_kept⟩

theorem onward_popFront (s : RdtStrategy) : Onward s s.popFront :=
  ⟨List.prefix_rfl, List.prefix_append _ _⟩

theorem onward_advance (env : Env) (s : RdtStrategy) : Onward s (advance env s).1 := by
  induction s using advance.induct with
  | case1 s hw =>
    simp only [advance_of_nil hw]
    exact .refl s
  | case2 s p rest hw hacked hnext q s' hget =>
    simp only [advance_of_cons hw, if_pos hacked, if_pos hnext, hget]
    obtain ⟨_, _, _, rfl⟩ := RdtStrategy.getNextPacket_eq_some hget
    exact ⟨List.prefix_append _ _, List.prefix_append _ _⟩
  | case3 s p rest hw hacked hnext hget =>
    simp only [advance_of_cons hw, if_pos hacked, if_pos hnext, hget]
    exact onward_popFront s
  | case4 s p rest hw hacked hnext ih =>
    simp only [advance_of_cons hw, if_pos hacked, if_neg hnext]
    exact (onward_popFront s).trans ih
  | case5 s p rest hw hacked =>
    simp only [advance_of_cons hw, if_neg hacked]
    exact .refl s

theorem onward_expand (env : Env) (s : RdtStrategy) : Onward s (expand env s).1 := by
  unfold expand
  split
  . cases hnext : SelectiveRepeat.takeNext s with
    | none => exact .refl s
    | some next =>
      obtain ⟨_, hpopped, hsent, _⟩ := SelectiveRepeat.takeNext_frame hnext
      refine ⟨?_, ?_⟩
      . change s.sent <+: next.2.sent ++ [next.1]
        exact hsent.symm ▸ List.prefix_append _ _
      . change s.popped <+: next.2.popped
        exact hpopped.symm ▸ List.prefix_rfl
  . exact .refl s

theorem onward_stepWorker (mode : Mode) (env : Env) (s : RdtStrategy) (w : Worker)
    : Onward s (stepWorker mode env s w).1 := by
  have hresume : Onward s (resume mode env s).1 := by
    cases mode with
    | stopAndWait => exact onward_advance env s
    | selectiveRepeat => exact onward_expand env s
    | goBackN => exact .refl s
  cases w with
  | idle | erase | insert => exact ⟨List.prefix_rfl, List.prefix_rfl⟩
  | advance p =>
    cases mode with
    | stopAndWait =>
      simp only [stepWorker, acked]
      split
      . exact onward_advance env s
      . exact .refl s
    | selectiveRepeat =>
      simp only [stepWorker, acked]
      split
      . have hadvance : Onward s (SelectiveRepeat.adjustWindowSize (SelectiveRepeat.advanceWindow s)) :=
          ⟨List.prefix_rfl, List.prefix_append _ _⟩
        exact hadvance.trans (onward_expand env _)
      . have hadjust : Onward s (SelectiveRepeat.adjustWindowSize s) :=
          ⟨List.prefix_rfl, List.prefix_rfl⟩
        exact hadjust.trans (onward_expand env _)
    | goBackN => exact .refl s
  | sent tripleDupAck =>
    simp only [stepWorker]
    split
    . exact ⟨List.prefix_rfl, List.prefix_rfl⟩
    . exact hresume
  | shrink moved =>
    cases moved with
    | nil => exact hresume
    | cons p moved => exact ⟨List.prefix_rfl, List.prefix_rfl⟩

theorem Finishes.eq_of_idle (h : Finishes mode env c t) (hidle : c.worker = .idle)
    : t = c.strategy := by
  obtain ⟨n, hn⟩ := h
  cases n with
  | zero =>
    rw [List.replicate_zero] at hn
    injection hn with hn
    rw [hn]
  | succ n =>
    rw [List.replicate_succ, StepFn.run_cons] at hn
    simp [Interleaving.step, hidle] at hn

theorem Finishes.worker (h : Finishes mode env c t) (hfault : c.fault = none) (hw : c.worker ≠ .idle)
    : Finishes mode env
        {
          c with
            strategy := (stepWorker mode env c.strategy c.worker).1
            worker := (stepWorker mode env c.strategy c.worker).2
        } t := by
  obtain ⟨n, hn⟩ := h
  cases n with
  | zero =>
    rw [List.replicate_zero] at hn
    injection hn with hn
    rw [hn] at hw
    contradiction
  | succ n =>
    refine ⟨n, ?_⟩
    rw [List.replicate_succ, StepFn.run_cons] at hn
    simpa [Interleaving.step, hfault, hw] using hn

theorem Finishes.onward (h : Finishes mode env c t) : Onward c.strategy t := by
  obtain ⟨n, hn⟩ := h
  have hrun : Onward c.strategy { c with strategy := t, worker := .idle }.strategy := by
    apply StepFn.run_invariant (P := fun c' => Onward c.strategy c'.strategy) (Q := fun e => e = .worker)
      _ _ _ (.refl _) hn
    . intro s e s' hs he hstep
      subst he
      simp only [Interleaving.step, Option.ite_none_left_eq_some, Option.some.injEq] at hstep
      obtain ⟨_, _, rfl⟩ := hstep
      exact hs.trans (onward_stepWorker mode env s.strategy s.worker)
    . intro e he
      exact List.eq_of_mem_replicate he
  exact hrun

theorem SameWindows.finishes {env' : Env} {s' : RdtStrategy} (hmode : mode ≠ .goBackN)
    (hdup : env'.tripleDupAck = env.tripleDupAck) (hfault : c.fault = none)
    (h : SameWindows mode c.strategy s')
    (hfinish : Finishes mode env' { strategy := s', timer := .test, worker := c.worker, fault := none } t)
    : ∃ t', Finishes mode env c t' ∧ SameWindows mode t' t := by
  obtain ⟨n, hn⟩ := hfinish
  induction n generalizing c s' with
  | zero =>
    rw [List.replicate_zero] at hn
    injection hn with hn
    injection hn with hstrategy _ hidle
    refine ⟨c.strategy, ⟨0, ?_⟩, hstrategy ▸ h⟩
    rw [← hidle]
    rfl
  | succ n ih =>
    rw [List.replicate_succ, StepFn.run_cons] at hn
    by_cases hw : c.worker = .idle
    . simp [step, hw] at hn
    . obtain ⟨hnext, hworker⟩ := h.stepWorker hmode hdup c.worker
      simp only [step, Option.isSome_none, Bool.false_eq_true, if_false, hw, Option.bind_some, hworker]
        at hn
      have hrest := ih (c := {
        c with
          strategy := (Interleaving.stepWorker mode env c.strategy c.worker).1
          worker := (Interleaving.stepWorker mode env c.strategy c.worker).2
      }) hfault hnext hn
      obtain ⟨t', hfinish, hsame⟩ := hrest
      exact ⟨t', hfinish.step hfault hw, hsame⟩

end Interleaving
