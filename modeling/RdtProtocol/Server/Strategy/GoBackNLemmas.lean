import RdtProtocol.Server.Strategy.GoBackN
import RdtProtocol.Server.Strategy.InOrder

/-!
This module proves that the go back N sender keeps the invariant of its window, and how far a
cumulative ACK moves the window.
-/

namespace GoBackN

theorem inOrder_new (first : UInt32) (file : Bytes) (maxWindowSize threshold : Int)
    : (new (File.regular file) first maxWindowSize threshold).InOrder first file DEFAULT_WINDOW_SIZE
        ∧ (new (File.regular file) first maxWindowSize threshold).Fresh
        ∧ (new (File.regular file) first maxWindowSize threshold).popped = [] := by
  obtain ⟨hinv, hfresh, hpopped, _⟩ := RdtStrategy.inOrder_new first file maxWindowSize threshold
    (show 0 < DEFAULT_WINDOW_SIZE by decide) (by decide)
  exact ⟨hinv, hfresh, hpopped⟩

variable {first : UInt32} {file : Bytes} {env : Env} {s : RdtStrategy} {p : PacketPtr}

theorem acknowledgePacket_cases (env : Env) (s : RdtStrategy) (ackPkt : AckPacket)
    : (acknowledgePacket env s ackPkt = s ∧ ∀ p ∈ s.window, p.packet.seqno ≠ ackPkt.ackno)
        ∨ ∃ xs p rest, s.window = xs ++ p :: rest ∧ p.packet.seqno = ackPkt.ackno
            ∧ acknowledgePacket env s ackPkt
                = ((xs ++ [p]).reverse.foldl (fun s p => (s.setAck p true).eraseUnacked p)
                    s).advanceWindow env := by
  unfold acknowledgePacket
  split
  . next i hfind =>
    obtain ⟨hlt, hackno, _⟩ := List.findIdx?_eq_some_iff_getElem.mp hfind
    simp only [decide_eq_true_eq] at hackno
    refine .inr ⟨s.window.take i, s.window[i], s.window.drop (i + 1), ?_, hackno.symm, ?_⟩
    . rw [← List.drop_eq_getElem_cons hlt, List.take_append_drop]
    . rw [List.take_append_getElem hlt]
  . next hfind =>
    refine .inl ⟨rfl, ?_⟩
    intro p hp heq
    have := List.findIdx?_eq_none_iff.mp hfind p hp
    simp [heq] at this

theorem advanceWindow_setAcks {n : Int} (h : s.InOrder first file n) (hs : s.Fresh)
    {xs rest : List PacketPtr} (hwindow : s.window = xs ++ p :: rest) (env : Env)
    : let t := ((xs ++ [p]).reverse.foldl (fun s p => (s.setAck p true).eraseUnacked p)
        s).advanceWindow env
      t.InOrder first file n ∧ t.Fresh ∧ t.popped = s.popped ++ (xs ++ [p])
        ∧ rest.length ≤ t.window.length ∧ s.sent <+: t.sent := by
  have hys : ∀ y ∈ (xs ++ [p]).reverse, y ∈ s.window := by
    intro y hy
    rw [List.mem_reverse] at hy
    rw [hwindow, List.append_cons]
    exact List.mem_append_left _ hy
  obtain ⟨hinv, _, _, hpopped, hsent, _⟩ := h.setAcks _ hys
  have hsplit : s.window = xs ++ [p] ++ rest := by
    rw [hwindow, List.append_cons]
  have hpre := h.ackedPrefix_setAcks hs hsplit (fun y => List.mem_reverse)
  obtain ⟨hinv', hfresh, hpopped', hwindow', _⟩ := RdtStrategy.advanceWindow_spec hinv hpre env
  refine ⟨hinv', hfresh, ?_, ?_, ?_⟩
  . rw [hpopped', hpopped]
  . rw [hwindow', List.length_append]
    omega
  . rw [← hsent]
    apply RdtStrategy.sent_prefix_advanceWindow

theorem inOrder_acknowledgePacket {n : Int} (h : s.InOrder first file n) (hs : s.Fresh) (env : Env)
    (ackPkt : AckPacket)
    : (acknowledgePacket env s ackPkt).InOrder first file n
        ∧ (acknowledgePacket env s ackPkt).Fresh := by
  cases acknowledgePacket_cases env s ackPkt with
  | inl heq =>
    rw [heq.1]
    exact ⟨h, hs⟩
  | inr hex =>
    obtain ⟨xs, p, rest, hwindow, _, heq⟩ := hex
    obtain ⟨hinv, hfresh, _⟩ := advanceWindow_setAcks h hs hwindow env
    rw [heq]
    exact ⟨hinv, hfresh⟩

theorem toNat_seqno_eq {n : Int} (h : s.InOrder 0 file n)
    (hN : (file.chunks MAX_DATA_SIZE).length ≤ 2 ^ 32) {xs rest : List PacketPtr}
    (hwindow : s.window = xs ++ p :: rest)
    : p.packet.seqno.toNat = s.popped.length + xs.length := by
  have hp : p ∈ s.window := by simp [hwindow]
  have haddr : p.addr = (s.popped ++ xs).length := by
    have hsplit : s.popped ++ (s.window ++ (s.auxWindow ++ s.pending))
        = (s.popped ++ xs) ++ p :: (rest ++ (s.auxWindow ++ s.pending)) := by
      simp [hwindow]
    exact h.addr_eq hsplit
  rw [toNat_seqno_of_mem_packets (h.mem_of_mem_window hp) (by simpa using hN), haddr,
    List.length_append]
  simp

theorem length_popped_acknowledgePacket {n : Int} (h : s.InOrder 0 file n) (hs : s.Fresh)
    (hN : (file.chunks MAX_DATA_SIZE).length ≤ 2 ^ 32) (env : Env) (ackPkt : AckPacket)
    : (acknowledgePacket env s ackPkt = s ∧ ∀ p ∈ s.window, p.packet.seqno ≠ ackPkt.ackno)
        ∨ s.popped.length ≤ ackPkt.ackno.toNat
          ∧ ackPkt.ackno.toNat < s.popped.length + s.window.length
          ∧ (acknowledgePacket env s ackPkt).popped.length = ackPkt.ackno.toNat + 1
          ∧ s.popped.length + s.window.length
              ≤ (acknowledgePacket env s ackPkt).popped.length
                + (acknowledgePacket env s ackPkt).window.length := by
  cases acknowledgePacket_cases env s ackPkt with
  | inl heq => exact .inl heq
  | inr hex =>
    obtain ⟨xs, p, rest, hwindow, hackno, heq⟩ := hex
    obtain ⟨_, _, hpopped, hlen, _⟩ := advanceWindow_setAcks h hs hwindow env
    have hseqno := toNat_seqno_eq h hN hwindow
    rw [hackno] at hseqno
    refine .inr ⟨?_, ?_, ?_, ?_⟩
    . omega
    . rw [hwindow, List.length_append, List.length_cons]
      omega
    . rw [heq, hpopped, hseqno]
      simp only [List.length_append, List.length_singleton]
      omega
    . rw [heq, hpopped, hwindow]
      simp only [List.length_append, List.length_cons, List.length_nil]
      omega

theorem sent_prefix_acknowledgePacket {n : Int} (h : s.InOrder first file n) (hs : s.Fresh) (env : Env)
    (ackPkt : AckPacket)
    : s.sent <+: (acknowledgePacket env s ackPkt).sent := by
  cases acknowledgePacket_cases env s ackPkt with
  | inl heq => simp only [heq.1, List.prefix_rfl]
  | inr hex =>
    obtain ⟨xs, p, rest, hwindow, _, heq⟩ := hex
    obtain ⟨_, _, _, _, hsent⟩ := advanceWindow_setAcks h hs hwindow env
    rw [heq]
    exact hsent

theorem fresh_setTimeStamp (hs : s.Fresh) (env : Env) (p : PacketPtr)
    : (s.setTimeStamp env p).Fresh := by
  refine ⟨rfl, by simp, ?_⟩
  intro q hq
  rw [RdtStrategy.setTimeStamp, Heap.isAcked_setTimeStamp]
  exact hs.not_acked q hq

theorem inOrder_sendPacket {n : Int} (h : s.InOrder first file n) (hs : s.Fresh) (env : Env)
    (hp : p ∈ s.window)
    : (sendPacket env s p).InOrder first file n ∧ (sendPacket env s p).Fresh :=
  ⟨h.transmit env hp (hs.not_acked p (by simp [hp])), RdtStrategy.fresh_transmit hs env p⟩

theorem inOrder_resend {n : Int} (h : s.InOrder first file n) (hs : s.Fresh) (env : Env)
    (hp : p ∈ s.window)
    : (resend env s p).InOrder first file n ∧ (resend env s p).Fresh :=
  inOrder_sendPacket (h.setTimeStamp env p) (fresh_setTimeStamp hs env p) env hp

theorem inOrder_timeOut {n : Int} (h : s.InOrder first file n) (hs : s.Fresh) (env : Env)
    (hp : p ∈ s.unackedPackets)
    : (timeOut env s p).InOrder first file n ∧ (timeOut env s p).Fresh := by
  obtain ⟨hinv, hfresh⟩ := inOrder_resend h hs env (h.unacked_sub p hp).1
  refine ⟨{ hinv with unacked_sub := ?_ }, ⟨rfl, by simp, hfresh.not_acked⟩⟩
  intro q hq
  rw [timeOut, RdtStrategy.stamp, RdtStrategy.setTimeStamp, RdtStrategy.setTimeStamp,
    Heap.isAcked_setTimeStamp, Heap.isAcked_setTimeStamp]
  exact h.unacked_sub q hq

theorem inOrder_foldl_send {n : Int} (h : s.InOrder first file n) (hs : s.Fresh) (env : Env)
    {ps : List PacketPtr} (hps : ∀ p ∈ ps, p ∈ s.window)
    : let t := ps.foldl (fun s p => (sendPacket env s p).setTimeStamp env p) s
      t.InOrder first file n ∧ t.Fresh := by
  induction ps generalizing s with
  | nil => exact ⟨h, hs⟩
  | cons p ps ih =>
    obtain ⟨hinv, hfresh⟩ := inOrder_sendPacket h hs env (hps p (by simp))
    exact ih (hinv.setTimeStamp env p) (fresh_setTimeStamp hfresh env p)
      (fun q hq => hps q (by simp [hq]))

theorem foldl_send_frame (s : RdtStrategy) (env : Env) (ps : List PacketPtr)
    : let t := ps.foldl (fun s p => (sendPacket env s p).setTimeStamp env p) s
      t.popped = s.popped ∧ t.window = s.window ∧ t.sent = s.sent ++ ps := by
  induction ps generalizing s with
  | nil => simp
  | cons p ps ih =>
    obtain ⟨hpopped, hwindow, hsent⟩ := ih ((sendPacket env s p).setTimeStamp env p)
    refine ⟨hpopped, hwindow, hsent.trans ?_⟩
    simp [RdtStrategy.setTimeStamp, sendPacket]

theorem inOrder_start {n : Int} (h : s.InOrder first file n) (hs : s.Fresh) (env : Env)
    : (start env s).InOrder first file n ∧ (start env s).Fresh :=
  inOrder_foldl_send h hs env (fun _ => id)

end GoBackN
