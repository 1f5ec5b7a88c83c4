import RdtProtocol.Server.Strategy.GoBackNLemmas
import RdtProtocol.Server.Strategy.StopAndWaitLemmas
import RdtProtocol.Util.StepFn

/-!
This module contains where the window of the stop and wait sender and of the go back N sender is after
any sequence of ACKs, and what a single ACK moves.
-/

namespace RdtStrategy

variable {first : UInt32} {file : Bytes} {n : Int} {env : Env} {s t : RdtStrategy}

structure WindowInv (first : UInt32) (file : Bytes) (n : Nat) (s : RdtStrategy) : Prop where
  seqnos_eq
    : s.window.map (·.packet.seqno.toNat)
        = List.range' (first.toNat + s.popped.length) s.window.length
  length_eq : s.window.length = min n ((packets first file).length - s.popped.length)
  not_acked : ∀ p ∈ s.window, s.heap.isAcked p = false
  popped_eq : s.window = [] → s.popped = packets first file

structure Advanced (ackno : UInt32) (s t : RdtStrategy) : Prop where
  inside
    : (∃ p ∈ s.window, p.packet.seqno = ackno) →
        ∃ new,
          t.popped = s.popped ++ s.window.filter (fun p => p.packet.seqno ≤ ackno)
            ∧ t.window = s.window.filter (fun p => ackno < p.packet.seqno) ++ new
            ∧ t.sent = s.sent ++ new
  outside : (∀ p ∈ s.window, p.packet.seqno ≠ ackno) → t = s

/--
What holds of the state between two ACKs, and of what the next one does.
-/
def FollowsAcks (first : UInt32) (file : Bytes) (n : Nat)
    (acknowledgePacket : RdtStrategy → AckPacket → RdtStrategy) (s : RdtStrategy)
    : Prop :=
  s.WindowInv first file n ∧ ∀ ackPkt, Advanced ackPkt.ackno s (acknowledgePacket s ackPkt)

theorem InOrder.length_eq (h : s.InOrder first file n)
    : s.popped.length + s.window.length + s.pending.length = (packets first file).length := by
  rw [← h.content, h.auxWindow_eq]
  simp only [List.nil_append, List.length_append]
  omega

theorem InOrder.windowInv (h : s.InOrder first file n) (hs : s.Fresh) (hpos : 0 < n)
    (hfits : first.toNat + (file.chunks MAX_DATA_SIZE).length < 2 ^ 32)
    : s.WindowInv first file n.toNat := by
  have hsize : sizeT n = n.toNat := sizeT_of_nonneg (by omega)
  have hlength := h.length_eq
  have hle := h.length_window_le
  have hfull := h.full
  rw [hsize] at hle hfull
  have hempty : s.window.length < n.toNat → s.pending.length = 0 := by
    intro hlt
    rw [hfull hlt, List.length_nil]
  refine ⟨?_, ?_, ?_, ?_⟩
  . have hmap : (packets first file).map (·.packet.seqno.toNat)
        = List.range' first.toNat (file.chunks MAX_DATA_SIZE).length :=
      map_seqno_packets (by omega)
    rw [← length_packets first, ← h.content, List.map_append, List.map_append, eq_comm,
      List.range'_eq_append_iff] at hmap
    obtain ⟨k, _, hpopped, hmap⟩ := hmap
    rw [eq_comm, List.range'_eq_append_iff] at hmap
    obtain ⟨m, _, hwindow, _⟩ := hmap
    have hk := congrArg List.length hpopped
    have hm := congrArg List.length hwindow
    rw [List.length_map, List.length_range'] at hk hm
    rw [hwindow, hk, hm, Nat.mul_one]
  . omega
  . intro p hp
    exact hs.not_acked p (List.mem_append_left _ hp)
  . intro hwindow
    rw [hwindow, List.length_nil] at hempty
    have hpending := List.length_eq_zero_iff.mp (hempty (by omega))
    rw [← h.content, hwindow, h.auxWindow_eq, hpending]
    simp

theorem sent_advanceWindow (env : Env) (s : RdtStrategy)
    : ∃ new, (s.advanceWindow env).sent = s.sent ++ new
        ∧ (s.advanceWindow env).popped ++ (s.advanceWindow env).window
            = s.popped ++ s.window ++ new := by
  apply advanceWindow_induction (P := fun t => ∃ new, t.sent = s.sent ++ new
    ∧ t.popped ++ t.window = s.popped ++ s.window ++ new)
  . intro t ⟨new, hsent, hpackets⟩
    refine ⟨new, hsent, ?_⟩
    simp only [popFront]
    rw [← hpackets, List.append_assoc, ← List.drop_one, List.take_append_drop]
  . intro t q t' hget ⟨new, hsent, hpackets⟩
    obtain ⟨_, _, _, rfl⟩ := getNextPacket_eq_some hget
    refine ⟨new ++ [q], ?_, ?_⟩
    . rw [sent_transmit, ← List.append_assoc, ← hsent]
    . rw [popped_transmit, window_transmit, ← List.append_assoc, hpackets, List.append_assoc]
  . exact ⟨[], by simp, by simp⟩

theorem advanced_of_split (h : s.WindowInv first file n.toNat) {xs rest new : List PacketPtr}
    {p : PacketPtr} (hwindow : s.window = xs ++ p :: rest)
    (hpopped : t.popped = s.popped ++ (xs ++ [p])) (htail : t.window = rest ++ new)
    (hsent : t.sent = s.sent ++ new)
    : Advanced p.packet.seqno s t := by
  have hsorted : s.window.Pairwise (fun p q => p.packet.seqno.toNat < q.packet.seqno.toNat) := by
    rw [← List.pairwise_map (f := fun (p : PacketPtr) => p.packet.seqno.toNat) (R := (· < ·)),
      h.seqnos_eq]
    exact List.pairwise_lt_range'
  simp only [hwindow, List.pairwise_append, List.pairwise_cons, List.mem_cons] at hsorted
  obtain ⟨_, ⟨hrest, _⟩, hxs⟩ := hsorted
  have hbefore : ∀ q ∈ xs, q.packet.seqno < p.packet.seqno := by
    intro q hq
    exact UInt32.lt_iff_toNat_lt.mpr (hxs q hq p (.inl rfl))
  have hbehind : ∀ q ∈ rest, p.packet.seqno < q.packet.seqno := by
    intro q hq
    exact UInt32.lt_iff_toNat_lt.mpr (hrest q hq)
  constructor
  . intro _
    refine ⟨new, ?_, ?_, hsent⟩
    . have hle : xs.filter (fun q => q.packet.seqno ≤ p.packet.seqno) = xs := by
        simpa using fun q hq => UInt32.le_of_lt (hbefore q hq)
      have hgt : rest.filter (fun q => q.packet.seqno ≤ p.packet.seqno) = [] := by
        simpa using hbehind
      rw [hpopped, hwindow, List.filter_append, List.filter_cons_of_pos (by simp), hle, hgt]
    . have hle : xs.filter (fun q => p.packet.seqno < q.packet.seqno) = [] := by
        simpa using fun q hq => UInt32.le_of_lt (hbefore q hq)
      have hgt : rest.filter (fun q => p.packet.seqno < q.packet.seqno) = rest := by
        simpa using hbehind
      rw [htail, hwindow, List.filter_append, List.filter_cons_of_neg (by simp), hle, hgt,
        List.nil_append]
  . intro hout
    exact absurd rfl (hout p (by simp [hwindow]))

theorem advanced_advanceWindow (h : s.InOrder first file n) (hs : s.Fresh) (hpos : 0 < n)
    (hfits : first.toNat + (file.chunks MAX_DATA_SIZE).length < 2 ^ 32)
    {xs rest ys : List PacketPtr} {p : PacketPtr} (hwindow : s.window = xs ++ p :: rest)
    (hys : ∀ y, y ∈ ys ↔ y ∈ xs ++ [p]) (env : Env)
    : Advanced p.packet.seqno s
        ((ys.foldl (fun s p => (s.setAck p true).eraseUnacked p) s).advanceWindow env) := by
  have hsplit : s.window = (xs ++ [p]) ++ rest := by
    rw [hwindow, List.append_cons]
  have hmem : ∀ y ∈ ys, y ∈ s.window := by
    intro y hy
    rw [hsplit]
    exact List.mem_append_left _ ((hys y).mp hy)
  obtain ⟨hinv, hwin, hpending, hpop, hsent, _⟩ := h.setAcks ys hmem
  have hpre := h.ackedPrefix_setAcks hs hsplit hys
  generalize ys.foldl (fun s p => (s.setAck p true).eraseUnacked p) s = t at *
  obtain ⟨_, _, hpopped, hwindow', _⟩ := advanceWindow_spec hinv hpre env
  obtain ⟨new, hsent', hpackets⟩ := sent_advanceWindow env t
  have hnew : t.pending.take (xs ++ [p]).length = new := by
    rw [hpopped, hwindow', hwin, hsplit] at hpackets
    simpa using hpackets
  rw [hnew] at hwindow'
  apply advanced_of_split (h.windowInv hs hpos hfits) hwindow
  . rw [hpopped, hpop]
  . exact hwindow'
  . rw [hsent', hsent]

theorem followsAcks_foldl {acknowledgePacket : RdtStrategy → AckPacket → RdtStrategy} (env : Env)
    (hpos : 0 < n)
    (hfits : first.toNat + (file.chunks MAX_DATA_SIZE).length < 2 ^ 32)
    (hstep : ∀ s ackPkt, s.InOrder first file n → s.Fresh →
      (acknowledgePacket s ackPkt).InOrder first file n ∧ (acknowledgePacket s ackPkt).Fresh)
    (hcases : ∀ s ackPkt, s.InOrder first file n → s.Fresh →
      (acknowledgePacket s ackPkt = s ∧ ∀ p ∈ s.window, p.packet.seqno ≠ ackPkt.ackno)
        ∨ ∃ (xs : List PacketPtr) (p : PacketPtr) (rest ys : List PacketPtr),
          s.window = xs ++ p :: rest ∧ p.packet.seqno = ackPkt.ackno
          ∧ (∀ y, y ∈ ys ↔ y ∈ xs ++ [p])
          ∧ acknowledgePacket s ackPkt
              = (ys.foldl (fun s p => (s.setAck p true).eraseUnacked p) s).advanceWindow env)
    (h : s.InOrder first file n) (hs : s.Fresh) (acks : List AckPacket)
    : FollowsAcks first file n.toNat acknowledgePacket (acks.foldl acknowledgePacket s) := by
  have hrun := List.foldlRecOn acks acknowledgePacket
    (motive := fun s => s.InOrder first file n ∧ s.Fresh) ⟨h, hs⟩
    (fun t ht ackPkt _ => hstep t ackPkt ht.1 ht.2)
  generalize acks.foldl acknowledgePacket s = t at *
  obtain ⟨ht, hfresh⟩ := hrun
  refine ⟨ht.windowInv hfresh hpos hfits, ?_⟩
  intro ackPkt
  cases hcases t ackPkt ht hfresh with
  | inl hout =>
    obtain ⟨heq, hout⟩ := hout
    constructor
    . intro ⟨p, hp, hseqno⟩
      exact absurd hseqno (hout p hp)
    . intro _
      exact heq
  | inr hin =>
    obtain ⟨xs, p, rest, ys, hwindow, hseqno, hys, heq⟩ := hin
    rw [heq, ← hseqno]
    exact advanced_advanceWindow ht hfresh hpos hfits hwindow hys env

end RdtStrategy

open RdtStrategy

variable {first : UInt32} {file : Bytes}

theorem GoBackN.followsAcks_foldl (maxWindowSize threshold : Int) (env : Env)
    (hfits : first.toNat + (file.chunks MAX_DATA_SIZE).length < 2 ^ 32) (acks : List AckPacket)
    : FollowsAcks first file 200 (acknowledgePacket env)
        (acks.foldl (acknowledgePacket env)
          (start env (new (File.regular file) first maxWindowSize threshold))) := by
  have hpos : 0 < DEFAULT_WINDOW_SIZE := by decide
  obtain ⟨hnew, hfresh, _⟩ :=
    RdtStrategy.inOrder_new first file maxWindowSize threshold hpos (by decide)
  obtain ⟨hstart, hfresh⟩ := inOrder_start hnew hfresh env
  apply RdtStrategy.followsAcks_foldl env hpos hfits ?_ ?_ hstart hfresh
  . intro s ackPkt h hs
    exact inOrder_acknowledgePacket h hs env ackPkt
  . intro s ackPkt _ _
    apply (acknowledgePacket_cases env s ackPkt).imp_right
    intro ⟨xs, p, rest, hwindow, hseqno, heq⟩
    exact ⟨xs, p, rest, (xs ++ [p]).reverse, hwindow, hseqno, fun _ => List.mem_reverse, heq⟩

theorem StopAndWait.followsAcks_foldl (maxWindowSize threshold : Int) (env : Env)
    (hfits : first.toNat + (file.chunks MAX_DATA_SIZE).length < 2 ^ 32) (acks : List AckPacket)
    : FollowsAcks first file 1 (acknowledgePacket env)
        (acks.foldl (acknowledgePacket env)
          (start env (RdtStrategy.new (File.regular file) first 1 maxWindowSize threshold))) := by
  have hpos : (0 : Int) < 1 := by decide
  obtain ⟨hnew, hfresh, _⟩ :=
    RdtStrategy.inOrder_new first file maxWindowSize threshold hpos (by decide)
  obtain ⟨hstart, hfresh⟩ := inOrder_start hnew hfresh env
  apply RdtStrategy.followsAcks_foldl env hpos hfits ?_ ?_ hstart hfresh
  . intro s ackPkt h hs
    exact inOrder_acknowledgePacket h hs env ackPkt
  . intro s ackPkt h hs
    apply (acknowledgePacket_cases h hs env ackPkt).imp_right
    intro ⟨p, hwindow, hseqno, heq⟩
    exact ⟨[], p, [], [p], hwindow, hseqno, fun _ => Iff.rfl, heq⟩

theorem followsAcks_of_acks (maxWindowSize threshold : Int) (env : Env)
    (hfits : first.toNat + (file.chunks MAX_DATA_SIZE).length < 2 ^ 32) (acks : List AckPacket)
    : FollowsAcks first file 200 (GoBackN.acknowledgePacket env)
          (acks.foldl (GoBackN.acknowledgePacket env)
            (GoBackN.start env (GoBackN.new (File.regular file) first maxWindowSize threshold)))
        ∧ FollowsAcks first file 1 (StopAndWait.acknowledgePacket env)
          (acks.foldl (StopAndWait.acknowledgePacket env)
            (StopAndWait.start env
              (RdtStrategy.new (File.regular file) first 1 maxWindowSize threshold))) :=
  ⟨GoBackN.followsAcks_foldl maxWindowSize threshold env hfits acks,
    StopAndWait.followsAcks_foldl maxWindowSize threshold env hfits acks⟩

def quietEnv : Env :=
  { now := id, tripleDupAck := fun _ => false }

theorem followsAcks_of_two_acks
    : FollowsAcks 7 [1, 2, 3] 200 (GoBackN.acknowledgePacket quietEnv)
          ([AckPacket.new 9, AckPacket.new 7].foldl (GoBackN.acknowledgePacket quietEnv)
            (GoBackN.start quietEnv (GoBackN.new (File.regular [1, 2, 3]) 7 0 0)))
        ∧ FollowsAcks 7 [1, 2, 3] 1 (StopAndWait.acknowledgePacket quietEnv)
          ([AckPacket.new 9, AckPacket.new 7].foldl (StopAndWait.acknowledgePacket quietEnv)
            (StopAndWait.start quietEnv (RdtStrategy.new (File.regular [1, 2, 3]) 7 1 0 0))) :=
  followsAcks_of_acks 0 0 quietEnv (by decide) [AckPacket.new 9, AckPacket.new 7]
