import RdtProtocol.Server.Strategy.InterleavingWindows
import RdtProtocol.Server.Strategy.ModeSent

/-!
This module contains what a step of the timer thread can do, and that it leaves the windows alone up to the
last one of a pass of its loop.
-/

namespace Interleaving

variable {mode : Mode} {env : Env} {c : State} {s t : RdtStrategy}

inductive TimerStep (mode : Mode) (env : Env) (c : State) : State → Prop where
  | fault (fault : Fault) : TimerStep mode env c (faulty c fault)
  | test : TimerStep mode env c { c with timer := .test }
  | begin : TimerStep mode env c { c with timer := .begin }
  | compare {p : PacketPtr}
      : p ∈ c.strategy.unackedPackets → TimerStep mode env c { c with timer := .compare p }
  | clock {p : PacketPtr} {timer : Timer}
      : c.timer = .compare p → timer = .erase p ∨ timer = .test
          → TimerStep mode env c
              {
                c with
                  strategy := { c.strategy with clockReads := c.strategy.clockReads + 1 }
                  timer
              }
  | erase {p : PacketPtr}
      : c.timer = .erase p
          → TimerStep mode env c
              {
                c with
                  strategy := c.strategy.eraseUnacked p
                  timer := if mode = .selectiveRepeat then .list else .send p
              }
  | send {p : PacketPtr}
      : c.timer = .send p
          → TimerStep mode env c { c with strategy := c.strategy.stamp env p, timer := .insert p }
  | insert {p : PacketPtr}
      : c.timer = .insert p
          → TimerStep mode env c { c with strategy := c.strategy.insertUnacked p, timer := .test }
  | list : c.timer = .list → TimerStep mode env c { c with timer := .front }
  | front {p : PacketPtr} {rest : List PacketPtr}
      : c.timer = .front → c.worker = .idle
          → (SelectiveRepeat.shrinkWindow c.strategy 1).window = p :: rest
          → TimerStep mode env c
              {
                c with
                  strategy := SelectiveRepeat.sendPacket env (SelectiveRepeat.shrinkWindow c.strategy 1) p
                  timer := .test
              }

theorem TimerStep.of_stepTimer {c' : State} (hstep : stepTimer mode env c = some c')
    : TimerStep mode env c c' := by
  unfold stepTimer at hstep
  cases ht : c.timer with
  | test =>
    simp only [ht, Option.some.injEq] at hstep
    subst hstep
    split
    . exact .test
    . exact .begin
  | begin =>
    simp only [ht] at hstep
    split at hstep
    . cases hstep
      exact .fault .emptySet
    . next p rest hcons =>
      cases hstep
      exact .compare (by simp [hcons])
  | compare p =>
    simp only [ht] at hstep
    split at hstep
    . cases hstep
      exact .fault .deleted
    . cases hstep
      apply TimerStep.clock ht
      split
      . exact .inl rfl
      . exact .inr rfl
  | erase p =>
    simp only [ht] at hstep
    split at hstep
    . cases hstep
      exact .fault .emptyString
    . split at hstep
      . cases hstep
        exact .fault .deleted
      . cases hstep
        exact .erase ht
  | send p =>
    simp only [ht] at hstep
    split at hstep
    . cases hstep
      exact .fault .deleted
    . cases hstep
      exact .send ht
  | insert p =>
    simp only [ht] at hstep
    split at hstep
    . cases hstep
      exact .fault .deleted
    . cases hstep
      exact .insert ht
  | list =>
    simp only [ht, Option.ite_none_right_eq_some] at hstep
    obtain ⟨_, hstep⟩ := hstep
    split at hstep
    . cases hstep
      exact .fault .emptyString
    . cases hstep
      exact .list ht
  | front =>
    simp only [ht, Option.ite_none_right_eq_some] at hstep
    obtain ⟨hidle, hstep⟩ := hstep
    split at hstep
    . cases hstep
      exact .fault .emptyWindow
    . next p rest hcons =>
      split at hstep
      . cases hstep
        exact .fault .deleted
      . cases hstep
        exact .front ht hidle hcons

theorem stepTimer_isSome (hidle : c.worker = .idle) : (stepTimer mode env c).isSome = true := by
  unfold stepTimer
  cases c.timer with
  | test => rfl
  | begin | compare | send | insert =>
    dsimp only
    split <;> rfl
  | erase =>
    dsimp only
    split
    . rfl
    . split <;> rfl
  | list =>
    dsimp only
    rw [if_pos hidle]
    split <;> rfl
  | front =>
    dsimp only
    rw [if_pos hidle]
    split
    . rfl
    . split <;> rfl

def Placed (mode : Mode) : Timer → Prop
  | .send _ => mode = .stopAndWait
  | .insert _ => mode = .stopAndWait
  | .list => mode = .selectiveRepeat
  | .front => mode = .selectiveRepeat
  | _ => True

structure Emitted (c : State) : Prop where
  unackedPackets : c.strategy.unackedPackets ⊆ c.strategy.sent
  worker : ∀ p tripleDupAck, c.worker = .insert p tripleDupAck → p ∈ c.strategy.sent
  timer : ∀ p ∈ c.timer.packet, p ∈ c.strategy.sent

structure TimerPlace (mode : Mode) (c : State) : Prop where
  placed : Placed mode c.timer
  emitted : mode = .stopAndWait → Emitted c

theorem timerPlace_stepTimer {c' : State} (hmode : mode ≠ .goBackN) (h : TimerPlace mode c)
    (hstep : stepTimer mode env c = some c')
    : TimerPlace mode c' := by
  have hplaced := h.placed
  cases TimerStep.of_stepTimer hstep with
  | fault fault => exact ⟨h.placed, fun hm => ⟨(h.emitted hm).1, (h.emitted hm).2, (h.emitted hm).3⟩⟩
  | test => exact ⟨trivial, fun hm => ⟨(h.emitted hm).1, (h.emitted hm).2, by simp [Timer.packet]⟩⟩
  | begin => exact ⟨trivial, fun hm => ⟨(h.emitted hm).1, (h.emitted hm).2, by simp [Timer.packet]⟩⟩
  | compare hp =>
    refine ⟨trivial, fun hm => ⟨(h.emitted hm).1, (h.emitted hm).2, ?_⟩⟩
    intro q hq
    injection hq with hq
    exact hq ▸ (h.emitted hm).1 hp
  | clock ht htimer =>
    refine ⟨?_, fun hm => ⟨(h.emitted hm).1, (h.emitted hm).2, ?_⟩⟩
    . cases htimer with
      | inl heq => exact heq ▸ trivial
      | inr heq => exact heq ▸ trivial
    . intro q hq
      cases htimer with
      | inl heq =>
        rw [heq] at hq
        exact (h.emitted hm).3 q (ht ▸ hq)
      | inr heq =>
        rw [heq] at hq
        contradiction
  | @erase p ht =>
    refine ⟨?_, fun hm => ⟨?_, (h.emitted hm).2, ?_⟩⟩
    . cases mode with
      | stopAndWait => exact (rfl : Mode.stopAndWait = .stopAndWait)
      | selectiveRepeat => exact (rfl : Mode.selectiveRepeat = .selectiveRepeat)
      | goBackN => contradiction
    . intro q hq
      exact (h.emitted hm).1 (List.mem_of_mem_filter hq)
    . intro q hq
      subst hm
      exact (h.emitted rfl).3 q (ht ▸ hq)
  | @send p ht =>
    rw [ht] at hplaced
    refine ⟨hplaced, fun hm => ⟨?_, ?_, ?_⟩⟩
    . intro q hq
      exact List.mem_append_left _ ((h.emitted hm).1 hq)
    . intro q b hq
      exact List.mem_append_left _ ((h.emitted hm).2 q b hq)
    . intro q hq
      injection hq with hq
      exact hq ▸ List.mem_append_right _ List.mem_cons_self
  | @insert p ht =>
    refine ⟨trivial, fun hm => ⟨?_, (h.emitted hm).2, by simp [Timer.packet]⟩⟩
    intro q hq
    obtain rfl | hq := OrderedSet.mem_or_eq_of_mem_insert hq
    . exact (h.emitted hm).3 q (by rw [ht]; rfl)
    . exact (h.emitted hm).1 hq
  | list ht =>
    rw [ht] at hplaced
    exact ⟨hplaced, fun hm => absurd (hm.symm.trans hplaced) (by decide)⟩
  | front ht _ _ =>
    rw [ht] at hplaced
    exact ⟨trivial, fun hm => absurd (hm.symm.trans hplaced) (by decide)⟩

theorem emitted_advance (env : Env) (s : RdtStrategy)
    : (advance env s).1.unackedPackets = s.unackedPackets
        ∧ ∀ p tripleDupAck, (advance env s).2 = .insert p tripleDupAck → p ∈ (advance env s).1.sent := by
  induction s using advance.induct with
  | case1 s hw => simp [advance_of_nil hw]
  | case2 s p rest hw hacked hnext q s' hget =>
    simp only [advance_of_cons hw, if_pos hacked, if_pos hnext, hget]
    obtain ⟨_, _, _, rfl⟩ := RdtStrategy.getNextPacket_eq_some hget
    refine ⟨rfl, ?_⟩
    intro q' b heq
    injection heq with heq
    exact heq ▸ List.mem_append_right _ List.mem_cons_self
  | case3 s p rest hw hacked hnext hget =>
    simp only [advance_of_cons hw, if_pos hacked, if_pos hnext, hget]
    exact ⟨rfl, fun _ _ heq => by cases heq⟩
  | case4 s p rest hw hacked hnext ih =>
    simp only [advance_of_cons hw, if_pos hacked, if_neg hnext]
    exact ih
  | case5 s p rest hw hacked => simp [advance_of_cons hw, hacked]

theorem emitted_stepWorker (h : Emitted c) (env : Env)
    : Emitted
        {
          c with
            strategy := (stepWorker .stopAndWait env c.strategy c.worker).1
            worker := (stepWorker .stopAndWait env c.strategy c.worker).2
        } := by
  have hsent := (onward_stepWorker .stopAndWait env c.strategy c.worker).sent_kept
  suffices hnext : (stepWorker .stopAndWait env c.strategy c.worker).1.unackedPackets
      ⊆ (stepWorker .stopAndWait env c.strategy c.worker).1.sent
        ∧ ∀ p b, (stepWorker .stopAndWait env c.strategy c.worker).2 = .insert p b
          → p ∈ (stepWorker .stopAndWait env c.strategy c.worker).1.sent from
    ⟨hnext.1, hnext.2, fun p hp => hsent.subset (h.timer p hp)⟩
  have hidle (s : RdtStrategy) {w : Worker} (hw : ∀ p b, w ≠ .insert p b)
      (hsub : s.unackedPackets ⊆ s.sent)
      : (s, w).1.unackedPackets ⊆ (s, w).1.sent ∧ ∀ p b, (s, w).2 = .insert p b → p ∈ (s, w).1.sent :=
    ⟨hsub, fun p b heq => absurd heq (hw p b)⟩
  have hadvance
      : (advance env c.strategy).1.unackedPackets ⊆ (advance env c.strategy).1.sent
        ∧ ∀ p b, (advance env c.strategy).2 = .insert p b → p ∈ (advance env c.strategy).1.sent := by
    obtain ⟨heq, hinsert⟩ := emitted_advance env c.strategy
    refine ⟨?_, hinsert⟩
    rw [heq]
    exact List.Subset.trans h.unackedPackets (onward_advance env c.strategy).sent_kept.subset
  have herase (p : PacketPtr) : (c.strategy.eraseUnacked p).unackedPackets ⊆ c.strategy.sent := by
    intro q hq
    exact h.unackedPackets (List.mem_of_mem_filter hq)
  cases hw : c.worker with
  | idle => exact hidle c.strategy (by simp) h.unackedPackets
  | erase p => exact hidle (c.strategy.eraseUnacked p) (by simp) (herase p)
  | advance p =>
    simp only [stepWorker, acked]
    split
    . exact hadvance
    . exact hidle c.strategy (by simp) h.unackedPackets
  | insert p b =>
    apply hidle (c.strategy.insertUnacked p) (by simp)
    intro q hq
    obtain rfl | hq := OrderedSet.mem_or_eq_of_mem_insert hq
    . exact h.worker q b hw
    . exact h.unackedPackets hq
  | sent tripleDupAck =>
    simp only [stepWorker]
    split
    . exact ⟨h.unackedPackets, fun p b heq => by cases heq⟩
    . exact hadvance
  | shrink moved =>
    cases moved with
    | nil => exact hadvance
    | cons p moved => exact hidle (c.strategy.eraseUnacked p) (by simp) (herase p)

theorem unackedPackets_start_subset (h : s.unackedPackets ⊆ s.sent) (env : Env)
    : (StopAndWait.start env s).unackedPackets ⊆ (StopAndWait.start env s).sent := by
  have hfoldl (ps : List PacketPtr) {s : RdtStrategy} (h : s.unackedPackets ⊆ s.sent)
      : (ps.foldl (StopAndWait.sendPacket env) s).unackedPackets
          ⊆ (ps.foldl (StopAndWait.sendPacket env) s).sent := by
    induction ps generalizing s with
    | nil => exact h
    | cons p ps ih =>
      apply ih
      intro q hq
      rw [StopAndWait.sendPacket, RdtStrategy.sent_transmit, List.mem_append, List.mem_singleton]
      exact (OrderedSet.mem_or_eq_of_mem_insert hq).symm.imp_left (fun hq => h hq)
  exact hfoldl s.window h

theorem timerPlace_start (h : TimerPlace mode c) (hidle : c.worker = .idle) (env : Env)
    : TimerPlace mode { c with strategy := mode.start env c.strategy } := by
  refine ⟨h.placed, ?_⟩
  rintro rfl
  have hemitted := h.emitted rfl
  refine ⟨unackedPackets_start_subset hemitted.unackedPackets env, ?_, ?_⟩
  . intro p b heq
    exact absurd (hidle.symm.trans heq) (by simp)
  . intro p hp
    exact (Mode.sent_prefix_start .stopAndWait env c.strategy).subset (hemitted.timer p hp)

theorem timerPlace_step {c' : State} {e : Event} (hmode : mode ≠ .goBackN) (h : TimerPlace mode c)
    (hstep : step mode env c e = some c')
    : TimerPlace mode c' := by
  simp only [step, Option.ite_none_left_eq_some] at hstep
  obtain ⟨_, hstep⟩ := hstep
  cases e with
  | acknowledge ackPkt =>
    simp only [Option.ite_none_right_eq_some] at hstep
    obtain ⟨hidle, hstep⟩ := hstep
    split at hstep
    . cases hstep
      refine ⟨h.placed, fun hm => ⟨(h.emitted hm).unackedPackets, ?_, (h.emitted hm).timer⟩⟩
      intro q b heq
      cases heq
    . cases hstep
      exact h
  | worker =>
    simp only [Option.ite_none_left_eq_some] at hstep
    obtain ⟨_, hstep⟩ := hstep
    cases hstep
    refine ⟨h.placed, ?_⟩
    rintro rfl
    exact emitted_stepWorker (h.emitted rfl) env
  | timer => exact timerPlace_stepTimer hmode h hstep

-- Selective repeat changes the windows in the last step of a pass of the loop, stop and wait never does.
theorem stepTimer_cases {c' : State} (h : TimerPlace mode c) (hstep : stepTimer mode env c = some c')
    : (c'.worker = c.worker
        ∧ ∀ t, SameWindows mode c.strategy t → SameWindows mode c'.strategy t)
      ∨ (mode = .selectiveRepeat ∧ c.worker = .idle ∧ c'.worker = .idle
        ∧ ∃ p rest, (SelectiveRepeat.shrinkWindow c.strategy 1).window = p :: rest
          ∧ c'.strategy
              = SelectiveRepeat.sendPacket env (SelectiveRepeat.shrinkWindow c.strategy 1) p) := by
  have hplaced := h.placed
  cases TimerStep.of_stepTimer hstep with
  | fault fault => exact .inl ⟨rfl, fun _ => id⟩
  | test => exact .inl ⟨rfl, fun _ => id⟩
  | begin => exact .inl ⟨rfl, fun _ => id⟩
  | compare _ => exact .inl ⟨rfl, fun _ => id⟩
  | clock _ _ => exact .inl ⟨rfl, fun _ hsame => { hsame with }⟩
  | erase _ => exact .inl ⟨rfl, fun _ hsame => hsame.eraseUnacked_left _⟩
  | @send p ht =>
    rw [ht] at hplaced
    have hmode : mode = .stopAndWait := hplaced
    subst hmode
    have hp : p ∈ c.strategy.sent := (h.emitted rfl).timer p (by rw [ht]; rfl)
    exact .inl ⟨rfl, fun _ hsame => hsame.stamp_left (by decide) env hp⟩
  | insert _ => exact .inl ⟨rfl, fun _ hsame => hsame.insertUnacked_left _⟩
  | list _ => exact .inl ⟨rfl, fun _ => id⟩
  | @front p rest ht hidle hwindow =>
    rw [ht] at hplaced
    exact .inr ⟨hplaced, hidle, hidle, p, rest, hwindow, rfl⟩

theorem SameWindows.handleTimeOut {env' : Env} (h : SameWindows .selectiveRepeat s t)
    (hdup : env'.tripleDupAck = env.tripleDupAck) (hset : t.unackedPackets ≠ []) {p : PacketPtr}
    {rest : List PacketPtr} (hwindow : (SelectiveRepeat.shrinkWindow s 1).window = p :: rest)
    : SameWindows .selectiveRepeat
        (SelectiveRepeat.sendPacket env (SelectiveRepeat.shrinkWindow s 1) p)
        (SelectiveRepeat.handleTimeOut env' t) := by
  obtain ⟨first, unacked, hcons⟩ := List.exists_cons_of_ne_nil hset
  have hshrink := (h.eraseUnacked_right first).shrinkWindow 1
  simp only [SelectiveRepeat.handleTimeOut, SelectiveRepeat.timeOut, hcons,
    hshrink.window_eq.trans hwindow]
  exact hshrink.sendPacket hdup p

end Interleaving
