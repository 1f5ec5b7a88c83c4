import Mathlib.Data.List.Nodup
import Mathlib.Order.Monotone.Defs
import RdtProtocol.Server.Packets
import RdtProtocol.Server.Strategy.Basic

/-!
This module contains the two invariants that the server strategies share. `Inv` says where the packets
of the file are, `TimerInv` what the timer has to wait for.
-/

namespace RdtStrategy

-- The packets that have not been put into the window yet.
def pending (s : RdtStrategy) : List PacketPtr :=
  s.pktBuilder.pending s.nextSeqNumber

structure Inv (first : UInt32) (file : Bytes) (s : RdtStrategy) : Prop where
  builder : s.pktBuilder.WF
  content : s.popped ++ (s.window ++ (s.auxWindow ++ s.pending)) = packets first file
  endSeqNum
    : s.pktBuilder.endSeqNum s.nextSeqNumber
        = first + UInt32.ofNat (file.chunks MAX_DATA_SIZE).length
  popped_acked : ∀ p ∈ s.popped, s.heap.isAcked p = true
  sent_mem : ∀ p ∈ s.sent, p ∈ packets first file

namespace Inv

variable {first : UInt32} {file : Bytes} {env : Env} {s : RdtStrategy} {p : PacketPtr}

theorem mem_of_mem_window (h : s.Inv first file) (hp : p ∈ s.window) : p ∈ packets first file := by
  rw [← h.content]
  simp [hp]

theorem pairwise_addr (h : s.Inv first file)
    : (s.popped ++ (s.window ++ (s.auxWindow ++ s.pending))).Pairwise
        (fun p q => p.addr < q.addr) := by
  rw [h.content]
  apply pairwise_addr_packets

theorem pairwise_addr_window (h : s.Inv first file)
    : s.window.Pairwise (fun p q => p.addr < q.addr) := by
  have := h.pairwise_addr
  simp only [List.pairwise_append] at this
  exact this.2.1.1

theorem addr_popped_lt (h : s.Inv first file) {q : PacketPtr} (hq : q ∈ s.popped)
    (hp : p ∈ s.window ++ (s.auxWindow ++ s.pending))
    : q.addr < p.addr := by
  have := h.pairwise_addr
  rw [List.pairwise_append] at this
  exact this.2.2 q hq p hp

theorem addr_eq (h : s.Inv first file) {xs rest : List PacketPtr}
    (hsplit : s.popped ++ (s.window ++ (s.auxWindow ++ s.pending)) = xs ++ p :: rest)
    : p.addr = xs.length := by
  have hmap := congrArg (List.map (·.addr)) hsplit
  rw [h.content, map_addr_packets, List.map_append, List.map_cons] at hmap
  have hget := congrArg (·[xs.length]?) hmap
  simp only [List.getElem?_append_right (List.length_map _).le, List.length_map, Nat.sub_self,
    List.getElem?_cons_zero] at hget
  obtain ⟨_, heq⟩ := List.getElem?_eq_some_iff.mp hget
  simpa using heq.symm

theorem setAck_true (h : s.Inv first file) (p : PacketPtr) : (s.setAck p true).Inv first file := by
  refine ⟨h.builder, h.content, h.endSeqNum, ?_, h.sent_mem⟩
  intro q hq
  rw [heap_setAck, Heap.isAcked_setAck]
  split
  . rfl
  . apply h.popped_acked
    exact hq

theorem setAck_false (h : s.Inv first file) (hp : ∀ q ∈ s.popped, q.addr ≠ p.addr)
    : (s.setAck p false).Inv first file := by
  refine ⟨h.builder, h.content, h.endSeqNum, ?_, h.sent_mem⟩
  intro q hq
  rw [heap_setAck, Heap.isAcked_setAck, if_neg (hp q hq)]
  apply h.popped_acked
  exact hq

theorem eraseUnacked (h : s.Inv first file) (p : PacketPtr) : (s.eraseUnacked p).Inv first file :=
  ⟨h.builder, h.content, h.endSeqNum, h.popped_acked, h.sent_mem⟩

theorem transmit (h : s.Inv first file) (env : Env) (hp : p ∈ packets first file)
    : (s.transmit env p).Inv first file := by
  refine ⟨h.builder, h.content, h.endSeqNum, ?_, ?_⟩
  . intro q hq
    rw [heap_transmit, Heap.isAcked_setTimeStamp]
    apply h.popped_acked
    exact hq
  . intro q hq
    rw [sent_transmit, List.mem_append, List.mem_singleton] at hq
    cases hq with
    | inl hq => exact h.sent_mem q hq
    | inr hq => exact hq ▸ hp

theorem getNextPacket (h : s.Inv first file) (haux : s.auxWindow = [])
    (hnext : s.pktBuilder.hasNext = true)
    : ∃ p s', s.getNextPacket = some (p, s') ∧ s.pending = p :: s'.pending
        ∧ { s' with window := s.window ++ [p] }.Inv first file := by
  obtain ⟨p, b, n, hget, hwf, hpending, hend⟩ :=
    PacketBuilder.exists_getNextPacket h.builder hnext s.nextSeqNumber
  refine ⟨p, { s with pktBuilder := b, nextSeqNumber := n }, ?_, hpending, hwf, ?_, ?_, ?_, ?_⟩
  . simp [RdtStrategy.getNextPacket, hget]
  . have := h.content
    simp only [pending, haux, hpending] at this
    simp only [pending, haux, List.append_assoc, List.nil_append, List.singleton_append]
    exact this
  . rw [hend]
    exact h.endSeqNum
  . exact h.popped_acked
  . exact h.sent_mem

theorem hasNext_iff (h : s.Inv first file) : s.pktBuilder.hasNext = true ↔ s.pending ≠ [] :=
  PacketBuilder.hasNext_iff h.builder _

theorem nextSeqNumber_eq (h : s.Inv first file) (hpending : s.pending = [])
    : s.nextSeqNumber = first + UInt32.ofNat (file.chunks MAX_DATA_SIZE).length := by
  rw [← h.endSeqNum]
  simp only [pending, PacketBuilder.pending, List.append_eq_nil_iff] at hpending
  have hfp := congrArg List.length hpending.2
  rw [PacketPtr.length_number, List.length_nil] at hfp
  simp [PacketBuilder.endSeqNum, hfp]

end Inv

theorem fillWindow_of_some {s s' : RdtStrategy} {p : PacketPtr}
    (hc : s.window.length < sizeT s.windowSize ∧ s.pktBuilder.hasNext = true)
    (hget : s.getNextPacket = some (p, s'))
    : s.fillWindow = { s' with window := s.window ++ [p] }.fillWindow := by
  rw [fillWindow, if_pos hc]
  split
  . next hget' =>
    rw [hget] at hget'
    cases hget'
    rfl
  . next hget' => simp [hget] at hget'

theorem fillWindow_of_none {s : RdtStrategy}
    (h : ¬ (s.window.length < sizeT s.windowSize ∧ s.pktBuilder.hasNext = true)
      ∨ s.getNextPacket = none)
    : s.fillWindow = s := by
  rw [fillWindow]
  split
  . next hc =>
    split
    . next hget' => simp [hc, hget'] at h
    . rfl
  . rfl

theorem fillWindow_induction {P : RdtStrategy → Prop}
    (hstep : ∀ s p s', s.window.length < sizeT s.windowSize → s.pktBuilder.hasNext = true
      → s.getNextPacket = some (p, s') → P s → P { s' with window := s.window ++ [p] })
    (s : RdtStrategy) (h : P s)
    : P s.fillWindow := by
  induction s using RdtStrategy.fillWindow.induct with
  | case1 s hc p s' hget ih =>
    rw [fillWindow_of_some hc hget]
    apply ih
    exact hstep s p s' hc.1 hc.2 hget h
  | case2 s hc hget =>
    rw [fillWindow_of_none (.inr hget)]
    exact h
  | case3 s hc =>
    rw [fillWindow_of_none (.inl hc)]
    exact h

theorem heap_new (file : File) (first : UInt32) (windowSize maxWindowSize threshold : Int)
    : (new file first windowSize maxWindowSize threshold).heap = fun _ => {} := by
  apply fillWindow_induction (P := fun s => s.heap = fun _ => {})
  . intro s p s' _ _ hget hs
    obtain ⟨_, _, _, rfl⟩ := getNextPacket_eq_some hget
    exact hs
  . rfl

theorem unackedPackets_new (file : File) (first : UInt32)
    (windowSize maxWindowSize threshold : Int)
    : (new file first windowSize maxWindowSize threshold).unackedPackets = [] := by
  apply fillWindow_induction (P := fun s => s.unackedPackets = [])
  . intro s p s' _ _ hget hs
    obtain ⟨_, _, _, rfl⟩ := getNextPacket_eq_some hget
    exact hs
  . rfl

theorem fillWindow_exit (s : RdtStrategy)
    : ¬ (s.fillWindow.window.length < sizeT s.fillWindow.windowSize
          ∧ s.fillWindow.pktBuilder.hasNext = true)
        ∨ s.fillWindow.getNextPacket = none := by
  induction s using RdtStrategy.fillWindow.induct with
  | case1 s hc p s' hget ih =>
    rw [fillWindow_of_some hc hget]
    exact ih
  | case2 s hc hget =>
    rw [fillWindow_of_none (.inr hget)]
    exact .inr hget
  | case3 s hc =>
    rw [fillWindow_of_none (.inl hc)]
    exact .inl hc

structure IsNew (windowSize maxWindowSize threshold : Int) (s : RdtStrategy) : Prop where
  windowSize_eq : s.windowSize = windowSize
  maxWindowSize_eq : s.maxWindowSize = maxWindowSize
  threshold_eq : s.threshold = threshold
  auxWindow_eq : s.auxWindow = []
  unackedPackets_eq : s.unackedPackets = []
  heap_eq : s.heap = fun _ => {}
  popped_eq : s.popped = []
  sent_eq : s.sent = []
  length_window_le : s.window.length ≤ sizeT windowSize

section

variable (first : UInt32) (file : Bytes) {windowSize : Int} (maxWindowSize threshold : Int)

theorem new_spec (hpos : 0 < windowSize) (hle : MAX_DATA_SIZE * windowSize < 2 ^ 31)
    : let s := new (File.regular file) first windowSize maxWindowSize threshold
      s.Inv first file ∧ s.IsNew windowSize maxWindowSize threshold := by
  apply fillWindow_induction (P := fun s =>
    s.Inv first file ∧ s.IsNew windowSize maxWindowSize threshold)
  . intro s p s' hlt hnext hget hs
    obtain ⟨hinv, hnew⟩ := hs
    obtain ⟨_, _, hget', _, hinv'⟩ := hinv.getNextPacket hnew.auxWindow_eq hnext
    rw [hget] at hget'
    cases hget'
    obtain ⟨_, _, _, rfl⟩ := getNextPacket_eq_some hget
    refine ⟨hinv', { hnew with length_window_le := ?_ }⟩
    rw [← hnew.windowSize_eq, List.length_append]
    exact hlt
  . refine ⟨⟨?_, ?_, rfl, by simp, by simp⟩, ⟨rfl, rfl, rfl, rfl, rfl, rfl, rfl, rfl, by simp⟩⟩
    . exact PacketBuilder.wf_new hpos hle
    . simp only [pending, PacketBuilder.pending_new, List.nil_append]

theorem pending_new (hpos : 0 < windowSize) (hle : MAX_DATA_SIZE * windowSize < 2 ^ 31)
    : let s := new (File.regular file) first windowSize maxWindowSize threshold
      s.window.length < sizeT windowSize → s.pending = [] := by
  intro s hlt
  obtain ⟨hinv, hnew⟩ := new_spec first file maxWindowSize threshold hpos hle
  have hexit : ¬ (s.window.length < sizeT s.windowSize ∧ s.pktBuilder.hasNext = true)
      ∨ s.getNextPacket = none := by
    apply fillWindow_exit
  rw [hnew.windowSize_eq] at hexit
  have hnext : ¬ s.pktBuilder.hasNext = true := by
    intro hnext
    obtain ⟨_, _, hget, _⟩ := hinv.getNextPacket hnew.auxWindow_eq hnext
    simp [hlt, hnext, s, hget] at hexit
  rw [hinv.hasNext_iff] at hnext
  exact not_not.mp hnext

end

structure TimerInv (env : Env) (s : RdtStrategy) : Prop where
  sorted : s.window.Pairwise (fun p q => s.heap.timeStamp p < s.heap.timeStamp q)
  past : ∀ p ∈ s.window, s.heap.timeStamp p < env.now s.clockReads
  unackedPackets_eq : s.unackedPackets = s.window.filter (fun p => !s.heap.isAcked p)

namespace TimerInv

variable {env : Env} {s : RdtStrategy} {p : PacketPtr}

theorem eq_of_timeStamp_eq (h : s.TimerInv env) {q : PacketPtr} (hp : p ∈ s.window)
    (hq : q ∈ s.window) (heq : s.heap.timeStamp p = s.heap.timeStamp q)
    : p = q := by
  have hnodup : (s.window.map s.heap.timeStamp).Nodup := by
    rw [List.Nodup, List.pairwise_map]
    exact h.sorted.imp (fun hlt => Nat.ne_of_lt hlt)
  exact List.inj_on_of_nodup_map hnodup hp hq heq

theorem setAck (h : s.TimerInv env) (hp : p ∈ s.window)
    (haddr : ∀ q ∈ s.window, q.addr = p.addr → q = p)
    : ((s.setAck p true).eraseUnacked p).TimerInv env := by
  refine ⟨?_, ?_, ?_⟩
  . simpa using h.sorted
  . simpa using h.past
  . simp only [unackedPackets_eraseUnacked, unackedPackets_setAck, h.unackedPackets_eq, heap_setAck,
      Heap.timeStamp_setAck, OrderedSet.erase, List.filter_filter, window_eraseUnacked,
      window_setAck, heap_eraseUnacked, Heap.isAcked_setAck]
    apply List.filter_congr
    intro q hq
    by_cases hqp : q.addr = p.addr
    . simp [haddr q hq hqp]
    . have hne : s.heap.timeStamp q ≠ s.heap.timeStamp p := by
        intro heq
        exact hqp (congrArg _ (h.eq_of_timeStamp_eq hq hp heq))
      simp [hqp, hne]

theorem dropPrefix (h : s.TimerInv env) {xs rest : List PacketPtr} (hwindow : s.window = xs ++ rest)
    (hacked : ∀ q ∈ xs, s.heap.isAcked q = true) (popped : List PacketPtr)
    : { s with window := rest, popped }.TimerInv env := by
  refine ⟨?_, ?_, ?_⟩
  . have := h.sorted
    rw [hwindow, List.pairwise_append] at this
    exact this.2.1
  . intro q hq
    apply h.past
    simp [hwindow, hq]
  . have hxs : xs.filter (fun q => !s.heap.isAcked q) = [] := by
      simpa using hacked
    simp only [h.unackedPackets_eq, hwindow, List.filter_append, hxs, List.nil_append]

theorem pushAndTransmit (h : s.TimerInv env) (hclock : StrictMono env.now)
    (haddr : ∀ q ∈ s.window, q.addr ≠ p.addr) (hacked : s.heap.isAcked p = false)
    : ({ s with window := s.window ++ [p] }.transmit env p).TimerInv env := by
  have htick : env.now s.clockReads < env.now (s.clockReads + 1) := hclock (Nat.lt_succ_self _)
  have hstamp : ∀ q ∈ s.window,
      (s.heap.setTimeStamp p (env.now s.clockReads)).timeStamp q = s.heap.timeStamp q := by
    intro q hq
    simp [haddr q hq]
  refine ⟨?_, ?_, ?_⟩
  . simp only [window_transmit, heap_transmit, List.pairwise_append, List.pairwise_singleton,
      List.mem_singleton, true_and]
    constructor
    . apply h.sorted.imp_of_mem
      intro q r hq hr hlt
      rwa [hstamp q hq, hstamp r hr]
    . intro q hq r hr
      rw [hr, hstamp q hq]
      simpa using h.past q hq
  . intro q hq
    simp only [window_transmit, List.mem_append, List.mem_singleton] at hq
    simp only [heap_transmit, clockReads_transmit]
    cases hq with
    | inl hq =>
      rw [hstamp q hq]
      exact Nat.lt_trans (h.past q hq) htick
    | inr hq => simpa [hq] using htick
  . simp only [unackedPackets_transmit, window_transmit, heap_transmit, Heap.isAcked_setTimeStamp,
      List.filter_append, h.unackedPackets_eq]
    rw [OrderedSet.insert_eq_append]
    . simp [hacked]
    . intro q hq
      have hq := List.mem_of_mem_filter hq
      rw [hstamp q hq]
      simpa using h.past q hq

theorem transmit_singleton (hclock : StrictMono env.now) (hwindow : s.window = [p])
    (hunacked : s.unackedPackets = []) (hacked : s.heap.isAcked p = false)
    : (s.transmit env p).TimerInv env := by
  have hempty : { s with window := [] }.TimerInv env := by
    refine ⟨by simp, by simp, by simpa using hunacked⟩
  have hs : { s with window := [] ++ [p] } = s := by
    rw [List.nil_append, ← hwindow]
  rw [← hs]
  exact hempty.pushAndTransmit hclock (by simp) hacked

end TimerInv

end RdtStrategy
