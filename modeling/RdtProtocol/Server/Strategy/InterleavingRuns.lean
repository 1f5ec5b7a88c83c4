import RdtProtocol.Server.Strategy.InterleavingSafety

/-!
This module contains what the two threads do when neither of them is interrupted, which is what the
functions of the strategies do in one go.
-/

namespace Interleaving

variable {mode : Mode} {env : Env} {c : State} {s t : RdtStrategy} {p : PacketPtr}

def Finishes (mode : Mode) (env : Env) (c : State) (t : RdtStrategy) : Prop :=
  ∃ n, StepFn.run (step mode env) c (List.replicate n .worker)
    = some { c with strategy := t, worker := .idle }

theorem finishes_idle (c : State) (s : RdtStrategy)
    : Finishes mode env { c with strategy := s, worker := .idle } s :=
  ⟨0, rfl⟩

theorem Finishes.step {w : Worker} (hfault : c.fault = none) (hw : w ≠ .idle)
    (h : Finishes mode env
      { c with strategy := (stepWorker mode env s w).1, worker := (stepWorker mode env s w).2 } t)
    : Finishes mode env { c with strategy := s, worker := w } t := by
  obtain ⟨n, hn⟩ := h
  refine ⟨n + 1, ?_⟩
  rw [List.replicate_succ, StepFn.run_cons, Interleaving.step]
  simp only [hfault, Option.isSome_none, Bool.false_eq_true, ↓reduceIte, hw, Option.bind_some]
  rw [hfault] at hn
  exact hn

theorem finishes_advance (hfault : c.fault = none) (s : RdtStrategy)
    : Finishes .stopAndWait env
        { c with strategy := (advance env s).1, worker := (advance env s).2 } (s.advanceWindow env) := by
  induction s using RdtStrategy.advanceWindow.induct env with
  | case1 s hw =>
    rw [advance_of_nil hw, RdtStrategy.advanceWindow_of_front (by simp [hw])]
    exact finishes_idle c s
  | case2 s p rest hw hacked hnext q t hget ih =>
    rw [advance_of_cons hw, if_pos hacked, if_pos hnext, hget,
      RdtStrategy.advanceWindow_of_some hw hacked hnext hget]
    apply Finishes.step hfault (by simp)
    apply Finishes.step hfault (by simp [stepWorker])
    exact ih
  | case3 s p rest hw hacked hnext hget =>
    rw [advance_of_cons hw, if_pos hacked, if_pos hnext, hget,
      RdtStrategy.advanceWindow_of_none hw hacked hnext hget]
    exact finishes_idle c _
  | case4 s p rest hw hacked hnext ih =>
    rw [advance_of_cons hw, if_pos hacked, if_neg hnext,
      RdtStrategy.advanceWindow_of_end hw hacked (by simpa using hnext)]
    exact ih
  | case5 s p rest hw hacked =>
    rw [advance_of_cons hw, if_neg hacked, RdtStrategy.advanceWindow_of_front]
    . exact finishes_idle c s
    . simpa [hw] using hacked

theorem finishes_shrink (hfault : c.fault = none) (moved : List PacketPtr) (s : RdtStrategy)
    (h : Finishes mode env
      {
        c with
          strategy := (resume mode env (moved.foldl RdtStrategy.eraseUnacked s)).1
          worker := (resume mode env (moved.foldl RdtStrategy.eraseUnacked s)).2
      } t)
    : Finishes mode env { c with strategy := s, worker := .shrink moved } t := by
  induction moved generalizing s with
  | nil => exact Finishes.step hfault (by simp) h
  | cons p moved ih => exact Finishes.step hfault (by simp) (ih _ h)

theorem finishes_sendPacket (hfault : c.fault = none) (s : RdtStrategy) (p : PacketPtr)
    (h : Finishes .selectiveRepeat env
      {
        c with
          strategy := (expand env (SelectiveRepeat.sendPacket env s p)).1
          worker := (expand env (SelectiveRepeat.sendPacket env s p)).2
      } t)
    : Finishes .selectiveRepeat env
        { c with strategy := s.stamp env p, worker := .insert p (s.tripleDupAck env) } t := by
  unfold SelectiveRepeat.sendPacket at h
  apply Finishes.step hfault (by simp)
  apply Finishes.step hfault (by simp [stepWorker])
  cases hdup : s.tripleDupAck env with
  | true =>
    simp only [hdup, ↓reduceIte, shrinkWindow_eq_foldl] at h
    exact finishes_shrink hfault _ _ h
  | false =>
    simp only [hdup, Bool.false_eq_true, ↓reduceIte] at h
    exact h

theorem finishes_expand (hfault : c.fault = none) (s : RdtStrategy)
    : Finishes .selectiveRepeat env
        { c with strategy := (expand env s).1, worker := (expand env s).2 }
        (SelectiveRepeat.expandWindow env s) := by
  induction s using SelectiveRepeat.expandWindow.induct env with
  | case1 s hlt p t hnext ih =>
    rw [SelectiveRepeat.expandWindow_of_some hlt hnext, expand, if_pos hlt, hnext]
    exact finishes_sendPacket hfault _ p ih
  | case2 s hlt hnext =>
    rw [SelectiveRepeat.expandWindow_of_none (.inr hnext), expand, if_pos hlt, hnext]
    exact finishes_idle c s
  | case3 s hlt =>
    rw [SelectiveRepeat.expandWindow_of_none (.inl hlt), expand, if_neg hlt]
    exact finishes_idle c s

theorem acknowledgePacket_of_find_none (hmode : mode ≠ .goBackN) {ackPkt : AckPacket}
    (hfind : find mode s ackPkt = none)
    : mode.acknowledgePacket env s ackPkt = s := by
  unfold find at hfind
  cases mode with
  | stopAndWait =>
    simp only [Mode.acknowledgePacket, StopAndWait.acknowledgePacket]
    split <;> simp_all
  | selectiveRepeat =>
    simp only [Mode.acknowledgePacket, SelectiveRepeat.acknowledgePacket]
    split
    . split <;> simp_all
    . rfl
  | goBackN => contradiction

theorem finishes_acked (hmode : mode ≠ .goBackN) (hfault : c.fault = none) (env : Env)
    {ackPkt : AckPacket} (hfind : find mode c.strategy ackPkt = some p)
    : Finishes mode env { c with strategy := c.strategy.setAck p true, worker := .erase p }
        (mode.acknowledgePacket env c.strategy ackPkt) := by
  apply Finishes.step hfault (by simp)
  apply Finishes.step hfault (by simp [stepWorker])
  unfold find at hfind
  split at hfind
  . contradiction
  . next hcksum =>
    split at hfind
    . next q hq =>
      simp only [Option.ite_none_left_eq_some, Option.some.injEq] at hfind
      obtain ⟨hacked, rfl⟩ := hfind
      cases mode with
      | stopAndWait =>
        simp only [Mode.acknowledgePacket, StopAndWait.acknowledgePacket, hq, if_neg hacked, stepWorker,
          acked, RdtStrategy.window_eraseUnacked, RdtStrategy.window_setAck]
        split
        . exact finishes_advance hfault _
        . exact finishes_idle c _
      | selectiveRepeat =>
        have hcksum : ackPkt.cksum = ackPkt.calculateChecksum := by
          simpa using hcksum
        simp only [Mode.acknowledgePacket, SelectiveRepeat.acknowledgePacket, if_pos hcksum, hq,
          if_neg hacked]
        exact finishes_expand hfault _
      | goBackN => contradiction
    . contradiction

theorem run_acknowledge (hmode : mode ≠ .goBackN) (hfault : c.fault = none) (hidle : c.worker = .idle)
    (ackPkt : AckPacket)
    : ∃ n, StepFn.run (step mode env) c (.acknowledge ackPkt :: List.replicate n .worker)
        = some { c with strategy := mode.acknowledgePacket env c.strategy ackPkt } := by
  obtain ⟨s, timer, worker, fault⟩ := c
  simp only at hfault hidle
  subst hfault hidle
  cases hfind : find mode s ackPkt with
  | none =>
    refine ⟨0, ?_⟩
    simp [step, hfind, acknowledgePacket_of_find_none hmode hfind, StepFn.run]
  | some p =>
    obtain ⟨n, hn⟩ := finishes_acked (c := ⟨s, timer, .idle, none⟩) hmode rfl env hfind
    refine ⟨n, ?_⟩
    simp [StepFn.run_cons, step, hfind, hn]

theorem not_deleted_of_subset (h : deleted s p = false) (hpopped : t.popped = s.popped)
    (hsub : t.unackedPackets ⊆ s.unackedPackets)
    : deleted t p = false := by
  simp only [deleted, List.any_eq_false, hpopped] at h ⊢
  intro q hq
  apply h
  rw [List.mem_cons] at hq ⊢
  exact hq.imp_right (fun hq => hsub hq)

theorem run_timer_cons (s t : RdtStrategy) {timer : Timer} (timer' : Timer) {w : Worker} (n : Nat)
    (h : stepTimer mode env ⟨s, timer, w, none⟩ = some ⟨t, timer', w, none⟩)
    : StepFn.run (step mode env) ⟨s, timer, w, none⟩ (List.replicate (n + 1) .timer)
        = StepFn.run (step mode env) ⟨t, timer', w, none⟩ (List.replicate n .timer) := by
  rw [List.replicate_succ, StepFn.run_cons]
  simp [step, h]

-- The timer alone does what a pass of the loop of `handle_time_out` does that finds `p` overdue. It has
-- read the clock for that.
theorem run_timer (hmode : mode ≠ .goBackN) (hinv : Inv mode ⟨s, .test, .idle, none⟩)
    {rest : List PacketPtr} (hset : s.unackedPackets = p :: rest)
    (hdue : ¬ env.now s.clockReads < s.heap.timeStamp p + PACKET_TIME_OUT)
    : StepFn.run (step mode env) ⟨s, .test, .idle, none⟩ (List.replicate 6 .timer)
        = some ⟨mode.handleTimeOut env { s with clockReads := s.clockReads + 1 }, .test, .idle, none⟩ := by
  have hmem : p ∈ s.unackedPackets := by simp [hset]
  have hs : Sound [] s := hinv.sound
  have hne : s.window ≠ [] := List.ne_nil_of_mem (by simpa using hs.mem p hmem)
  have hp := hs.not_mem_popped hmem
  rw [run_timer_cons _ s .begin _ (by simp [stepTimer, hset])]
  rw [run_timer_cons _ s (.compare p) _ (by simp [stepTimer, hset])]
  rw [run_timer_cons _ { s with clockReads := s.clockReads + 1 } (.erase p) _
    (by simp [stepTimer, hp, hdue])]
  have hu : ∃ u, u = { s with clockReads := s.clockReads + 1 } ∧ Sound [] u ∧ u.window ≠ []
      ∧ u.unackedPackets = p :: rest ∧ p ∉ u.popped :=
    ⟨_, rfl, hs.congr rfl rfl rfl rfl rfl rfl rfl, hne, hset, hp⟩
  obtain ⟨u, hu, hs, hne, hset, hp⟩ := hu
  rw [← hu]
  have hd := not_deleted hs hp
  cases mode with
  | stopAndWait =>
    rw [run_timer_cons _ (u.eraseUnacked p) (.send p) _ (by simp [stepTimer, hd])]
    rw [run_timer_cons _ ((u.eraseUnacked p).stamp env p) (.insert p) _
      (by simp [stepTimer, hp])]
    have hd : deleted ((u.eraseUnacked p).stamp env p) p = false :=
      not_deleted_of_subset hd rfl (fun q hq => List.mem_of_mem_filter hq)
    rw [run_timer_cons _ (((u.eraseUnacked p).stamp env p).insertUnacked p) .test _
      (by simp [stepTimer, hd])]
    simp only [Mode.handleTimeOut, StopAndWait.handleTimeOut, hset]
    rfl
  | selectiveRepeat =>
    rw [run_timer_cons _ (u.eraseUnacked p) .list _ (by simp [stepTimer, hset, hd])]
    rw [run_timer_cons _ (u.eraseUnacked p) .front _ (by simp [stepTimer, hne])]
    obtain ⟨q, ps, hcons⟩ := List.exists_cons_of_ne_nil hne
    have hwindow : (SelectiveRepeat.shrinkWindow (u.eraseUnacked p) 1).window = [q] := by
      rw [SelectiveRepeat.window_shrinkWindow, RdtStrategy.window_eraseUnacked, hcons]
      rfl
    have hs := sound_shrinkWindow (hs.eraseUnacked p) 1
    have hd := not_deleted hs (fun hq => hs.addr_popped_ne (p := q) (q := q) hq (by simp [hwindow]) rfl)
    rw [run_timer_cons _
      (SelectiveRepeat.sendPacket env (SelectiveRepeat.shrinkWindow (u.eraseUnacked p) 1) q)
      .test _ (by simp [stepTimer, hwindow, hd])]
    simp only [Mode.handleTimeOut, SelectiveRepeat.handleTimeOut, hset, SelectiveRepeat.timeOut, hwindow]
    rfl
  | goBackN => contradiction

end Interleaving
