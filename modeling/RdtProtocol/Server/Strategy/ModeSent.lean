import RdtProtocol.Server.Strategy.GoBackNLemmas
import RdtProtocol.Server.Strategy.Mode
import RdtProtocol.Server.Strategy.SelectiveRepeatLemmas

/-!
This module shows that no operation of a strategy takes back what has been sent.
-/

namespace SelectiveRepeat

variable (env : Env) (s : RdtStrategy)

theorem sent_prefix_expandWindow : s.sent <+: (expandWindow env s).sent := by
  apply expandWindow_induction (P := fun t => s.sent <+: t.sent)
  . intro t p t' _ hnext ht
    simp only [pushAndSend, sent_sendPacket, RdtStrategy.sent_setAck, (takeNext_frame hnext).2.2.1]
    exact ht.trans (List.prefix_append _ _)
  . exact List.prefix_rfl

theorem sent_setAcked (p : PacketPtr) : (setAcked s p).sent = s.sent := by
  obtain heq | heq := setAcked_cases s p <;> simp [heq, advanceWindow]

theorem sent_prefix_acknowledgePacket (ackPkt : AckPacket)
    : s.sent <+: (acknowledgePacket env s ackPkt).sent := by
  cases acknowledgePacket_cases env s ackPkt with
  | inl heq =>
    exact heq.symm ▸ List.prefix_rfl
  | inr hex =>
    obtain ⟨p, _, _, _, heq⟩ := hex
    have hsent : (adjustWindowSize (setAcked s p)).sent = s.sent := sent_setAcked s p
    rw [heq, ← hsent]
    apply sent_prefix_expandWindow

theorem sent_prefix_handleTimeOut : s.sent <+: (handleTimeOut env s).sent := by
  cases handleTimeOut_cases env s with
  | inl heq =>
    exact heq.symm ▸ List.prefix_rfl
  | inr hex =>
    obtain ⟨first, heq⟩ := hex
    rw [heq]
    cases timeOut_cases env s first with
    | inl heq => simp [heq]
    | inr hex =>
      obtain ⟨_, _, heq⟩ := hex
      simp [heq]

end SelectiveRepeat

namespace Mode

variable (mode : Mode) (env : Env) (s : RdtStrategy)

theorem sent_prefix_start : s.sent <+: (mode.start env s).sent := by
  have hfoldl {f : RdtStrategy → PacketPtr → RdtStrategy} (hf : ∀ t p, (f t p).sent = t.sent ++ [p])
      (ps : List PacketPtr)
      : s.sent <+: (ps.foldl f s).sent := by
    induction ps generalizing s with
    | nil => exact List.prefix_rfl
    | cons p ps ih =>
      have hp := ih (f s p)
      rw [hf] at hp
      exact (List.prefix_append _ _).trans hp
  cases mode with
  | stopAndWait => exact hfoldl (f := StopAndWait.sendPacket env) (fun _ _ => rfl) _
  | selectiveRepeat =>
    exact hfoldl (f := SelectiveRepeat.sendPacket env) (SelectiveRepeat.sent_sendPacket env) _
  | goBackN =>
    exact hfoldl (f := fun s p => (GoBackN.sendPacket env s p).setTimeStamp env p) (fun _ _ => rfl) _

theorem sent_prefix_acknowledgePacket (ackPkt : AckPacket)
    : s.sent <+: (mode.acknowledgePacket env s ackPkt).sent := by
  cases mode with
  | stopAndWait =>
    simp only [acknowledgePacket, StopAndWait.acknowledgePacket]
    split
    . split
      . exact List.prefix_rfl
      . split
        . exact RdtStrategy.sent_prefix_advanceWindow env ((s.setAck _ true).eraseUnacked _)
        . exact List.prefix_rfl
    . exact List.prefix_rfl
  | selectiveRepeat => exact SelectiveRepeat.sent_prefix_acknowledgePacket env s ackPkt
  | goBackN =>
    have hacks (ps : List PacketPtr)
        : (ps.foldl (fun s p => (s.setAck p true).eraseUnacked p) s).sent = s.sent := by
      induction ps generalizing s with
      | nil => rfl
      | cons p ps ih => exact ih _
    simp only [acknowledgePacket, GoBackN.acknowledgePacket]
    split
    . next i _ =>
      rw [← hacks (s.window.take (i + 1)).reverse]
      apply RdtStrategy.sent_prefix_advanceWindow
    . exact List.prefix_rfl

theorem sent_prefix_handleTimeOut : s.sent <+: (mode.handleTimeOut env s).sent := by
  cases mode with
  | stopAndWait =>
    simp only [handleTimeOut, StopAndWait.handleTimeOut]
    split
    . exact List.prefix_rfl
    . exact List.prefix_append _ _
  | selectiveRepeat => exact SelectiveRepeat.sent_prefix_handleTimeOut env s
  | goBackN => exact List.prefix_rfl

end Mode
