import RdtProtocol.Server.Strategy.ModeLemmas

/-!
This module contains what a sender does as long as none of its packets is acknowledged. Its window stays
as it is, and `unacked_packets` does not get empty.
-/

namespace OrderedSet

variable {α κ : Type} [LinearOrder κ] {key : α → κ}

theorem insert_ne_nil (x : α) (l : List α) : insert key x l ≠ [] := by
  unfold insert
  split
  . simp
  . split
    . simp
    . split <;> simp

theorem insert_of_key_eq {x y : α} (h : key x = key y) : insert key x [y] = [y] := by
  simp [insert, h]

end OrderedSet

namespace RdtStrategy

structure Sends (s t : RdtStrategy) (sent : List PacketPtr) : Prop where
  window_eq : t.window = s.window
  popped_eq : t.popped = s.popped
  sent_eq : t.sent = s.sent ++ sent
  isAcked_eq : ∀ p, t.heap.isAcked p = s.heap.isAcked p
  unackedPackets : sent ≠ [] ∨ s.unackedPackets ≠ [] → t.unackedPackets ≠ []

variable {s t : RdtStrategy} {env : Env} {p : PacketPtr}

theorem sends_refl (s : RdtStrategy) : s.Sends s [] := by
  refine ⟨rfl, rfl, (List.append_nil _).symm, fun _ => rfl, ?_⟩
  intro h
  exact h.resolve_left (fun h => h rfl)

theorem Sends.trans {u : RdtStrategy} {xs ys : List PacketPtr} (h1 : s.Sends t xs) (h2 : t.Sends u ys)
    : s.Sends u (xs ++ ys) := by
  refine ⟨h2.window_eq.trans h1.window_eq, h2.popped_eq.trans h1.popped_eq, ?_, ?_, ?_⟩
  . rw [h2.sent_eq, h1.sent_eq, List.append_assoc]
  . exact fun p => (h2.isAcked_eq p).trans (h1.isAcked_eq p)
  . intro h
    apply h2.unackedPackets
    by_cases hys : ys = []
    . right
      apply h1.unackedPackets
      simpa [hys] using h
    . exact .inl hys

theorem sends_transmit (s : RdtStrategy) (env : Env) (p : PacketPtr) : s.Sends (s.transmit env p) [p] := by
  refine ⟨rfl, rfl, rfl, ?_, ?_⟩
  . simp
  . intro _
    rw [unackedPackets_transmit]
    apply OrderedSet.insert_ne_nil

theorem sends_foldl {f : RdtStrategy → PacketPtr → RdtStrategy}
    (hf : ∀ (t : RdtStrategy) p, t.window = s.window → t.Sends (f t p) [p]) (ps : List PacketPtr)
    : s.Sends (ps.foldl f s) ps := by
  suffices h : ∀ t : RdtStrategy, t.window = s.window → t.Sends (ps.foldl f t) ps from h s rfl
  induction ps with
  | nil => exact fun t _ => t.sends_refl
  | cons p ps ih =>
    intro t ht
    have hp := hf t p ht
    exact hp.trans (ih (f t p) (hp.window_eq.trans ht))

structure Still (s : RdtStrategy) : Prop where
  timeStamp : ∀ p, s.heap.timeStamp p = 0
  unackedPackets : s.unackedPackets.length ≤ 1

theorem Still.setTimeStamp (h : s.Still) (hnow : env.now = fun _ => 0) (p : PacketPtr)
    : (s.setTimeStamp env p).Still := by
  refine ⟨?_, h.unackedPackets⟩
  intro q
  simp [RdtStrategy.setTimeStamp, hnow, h.timeStamp]

theorem Still.transmit (h : s.Still) (hnow : env.now = fun _ => 0) (p : PacketPtr)
    : (s.transmit env p).Still := by
  have hstamp : ∀ q, (s.heap.setTimeStamp p (env.now s.clockReads)).timeStamp q = 0 := by
    intro q
    simp [hnow, h.timeStamp]
  refine ⟨hstamp, ?_⟩
  rw [unackedPackets_transmit]
  cases hunacked : s.unackedPackets with
  | nil => simp [OrderedSet.insert]
  | cons q rest =>
    have hrest : rest = [] := by
      have := h.unackedPackets
      simpa [hunacked] using this
    rw [hrest, OrderedSet.insert_of_key_eq ((hstamp p).trans (hstamp q).symm), List.length_singleton]

theorem Still.foldl_eraseUnacked (h : s.Still) {ps : List PacketPtr} (hps : ps ≠ [])
    : (ps.foldl RdtStrategy.eraseUnacked s).unackedPackets = [] := by
  rw [SelectiveRepeat.foldl_eraseUnacked, OrderedSet.foldl_erase_eq_filter]
  obtain ⟨p, hp⟩ := List.exists_mem_of_ne_nil ps hps
  rw [List.filter_eq_nil_iff]
  intro q _ hkept
  simp only [h.timeStamp, decide_eq_true_eq] at hkept
  exact hkept p hp rfl

end RdtStrategy

namespace SelectiveRepeat

variable {s : RdtStrategy} {env : Env}

theorem shrinkWindow_of_length_le (hlen : s.window.length ≤ 1) (newSize : Int)
    : (shrinkWindow s newSize).window = s.window
        ∧ (shrinkWindow s newSize).unackedPackets = s.unackedPackets := by
  have hsize : s.window.length ≤ sizeT (if newSize < 1 then 1 else newSize) := by
    unfold sizeT
    grind
  rw [shrinkWindow_eq]
  simp [List.take_of_length_le hsize, List.drop_of_length_le hsize]

theorem sends_sendPacket (hlen : s.window.length ≤ 1) (env : Env) (p : PacketPtr)
    : s.Sends (sendPacket env s p) [p] := by
  have htransmit := s.sends_transmit env p
  cases sendPacket_cases env s p with
  | inl heq => exact heq ▸ htransmit
  | inr heq =>
    obtain ⟨hwindow, hunacked⟩ :=
      shrinkWindow_of_length_le (s := s.transmit env p) hlen (s.windowSize.tdiv 2)
    rw [heq]
    refine ⟨hwindow, popped_shrinkWindow _ _, sent_shrinkWindow _ _, ?_, ?_⟩
    . simp
    . rw [hunacked]
      exact htransmit.unackedPackets

theorem still_sendPacket (h : s.Still) (hlen : s.window.length ≤ 1) (hnow : env.now = fun _ => 0)
    (p : PacketPtr)
    : (sendPacket env s p).Still := by
  have htransmit := h.transmit hnow p
  cases sendPacket_cases env s p with
  | inl heq => exact heq ▸ htransmit
  | inr heq =>
    obtain ⟨_, hunacked⟩ :=
      shrinkWindow_of_length_le (s := s.transmit env p) hlen (s.windowSize.tdiv 2)
    rw [heq]
    refine ⟨?_, ?_⟩
    . rw [heap_shrinkWindow]
      exact htransmit.timeStamp
    . rw [hunacked]
      exact htransmit.unackedPackets

end SelectiveRepeat

namespace Mode

variable {mode : Mode} {env : Env} {s : RdtStrategy}

theorem sends_start (hlen : mode = .selectiveRepeat → s.window.length ≤ 1) (env : Env)
    : s.Sends (mode.start env s) s.window := by
  cases mode with
  | stopAndWait => exact RdtStrategy.sends_foldl (fun t p _ => t.sends_transmit env p) _
  | selectiveRepeat =>
    apply RdtStrategy.sends_foldl (f := SelectiveRepeat.sendPacket env)
    intro t p ht
    exact SelectiveRepeat.sends_sendPacket (ht ▸ hlen rfl) env p
  | goBackN =>
    apply RdtStrategy.sends_foldl (f := fun s p => (GoBackN.sendPacket env s p).setTimeStamp env p)
    intro t p _
    obtain ⟨hwindow, hpopped, hsent, hacked, hunacked⟩ := t.sends_transmit env p
    refine ⟨hwindow, hpopped, hsent, ?_, hunacked⟩
    intro q
    rw [← hacked]
    simp [RdtStrategy.setTimeStamp, GoBackN.sendPacket]

theorem still_start (h : s.Still) (hlen : mode = .selectiveRepeat → s.window.length ≤ 1)
    (hnow : env.now = fun _ => 0)
    : (mode.start env s).Still := by
  have hfoldl {f : RdtStrategy → PacketPtr → RdtStrategy}
      (hf : ∀ t p, t.Still → t.window = s.window → (f t p).Still ∧ (f t p).window = s.window)
      (ps : List PacketPtr)
      : (ps.foldl f s).Still := by
    suffices hall : ∀ t : RdtStrategy, t.Still → t.window = s.window → (ps.foldl f t).Still from
      hall s h rfl
    induction ps with
    | nil => exact fun _ ht _ => ht
    | cons p ps ih =>
      intro t ht hwindow
      obtain ⟨hp, hwindow'⟩ := hf t p ht hwindow
      exact ih _ hp hwindow'
  cases mode with
  | stopAndWait =>
    apply hfoldl (f := StopAndWait.sendPacket env)
    intro t p ht hwindow
    exact ⟨ht.transmit hnow p, hwindow⟩
  | selectiveRepeat =>
    apply hfoldl (f := SelectiveRepeat.sendPacket env)
    intro t p ht hwindow
    have hlen := hwindow ▸ hlen rfl
    refine ⟨SelectiveRepeat.still_sendPacket ht hlen hnow p, ?_⟩
    rw [(SelectiveRepeat.sends_sendPacket hlen env p).window_eq, hwindow]
  | goBackN =>
    apply hfoldl (f := fun s p => (GoBackN.sendPacket env s p).setTimeStamp env p)
    intro t p ht hwindow
    exact ⟨(ht.transmit hnow p).setTimeStamp hnow p, hwindow⟩

end Mode
