import RdtProtocol.Server.Strategy.BasicLemmas

/-!
This module contains what the timer waits for when the clock may stand still between two readings. A
packet whose time stamp is that of another one in `unacked_packets` would not be inserted, and only the
packets that wait for an ACK are in there.
-/

namespace RdtStrategy

structure Tracked (env : Env) (s : RdtStrategy) : Prop where
  sorted
    : s.window.Pairwise
        (fun p q => s.heap.isAcked p = false → s.heap.timeStamp p < s.heap.timeStamp q)
  past : ∀ p ∈ s.window, s.heap.timeStamp p ≤ env.now s.clockReads
  unackedPackets_eq : s.unackedPackets = s.window.filter (fun p => !s.heap.isAcked p)

structure Ticks (env : Env) (s t : RdtStrategy) : Prop where
  first
    : s.clockReads < t.clockReads →
        ∀ p ∈ s.unackedPackets, s.heap.timeStamp p ≠ env.now s.clockReads
  next : ∀ i, s.clockReads ≤ i → i + 1 < t.clockReads → env.now i ≠ env.now (i + 1)

theorem Ticks.step {env : Env} {s t u : RdtStrategy} (h : Ticks env s t) (hclock : Monotone env.now)
    (hreads : u.clockReads = s.clockReads + 1)
    (hle : ∀ p ∈ u.unackedPackets, u.heap.timeStamp p ≤ env.now s.clockReads)
    : Ticks env u t := by
  constructor
  . intro hlt p hp
    rw [hreads] at hlt ⊢
    have hne := h.next s.clockReads (Nat.le_refl _) hlt
    have htick : env.now s.clockReads ≤ env.now (s.clockReads + 1) := hclock (Nat.le_succ _)
    have := hle p hp
    omega
  . intro i hi
    apply h.next
    omega

namespace Tracked

variable {env : Env} {s t : RdtStrategy} {p : PacketPtr}

theorem congr (h : s.Tracked env) (hwindow : t.window = s.window) (hheap : t.heap = s.heap)
    (hunacked : t.unackedPackets = s.unackedPackets) (hreads : t.clockReads = s.clockReads)
    : t.Tracked env := by
  refine ⟨?_, ?_, ?_⟩
  . rw [hwindow, hheap]
    exact h.sorted
  . rw [hwindow, hheap, hreads]
    exact h.past
  . rw [hunacked, hwindow, hheap]
    exact h.unackedPackets_eq

theorem mem_unackedPackets (h : s.Tracked env)
    : p ∈ s.unackedPackets ↔ p ∈ s.window ∧ s.heap.isAcked p = false := by
  rw [h.unackedPackets_eq, List.mem_filter, Bool.not_eq_true']

theorem sorted_unackedPackets (h : s.Tracked env)
    : OrderedSet.Sorted s.heap.timeStamp s.unackedPackets := by
  have hfilter := h.sorted.filter (fun p => !s.heap.isAcked p)
  rw [← h.unackedPackets_eq] at hfilter
  apply hfilter.imp_of_mem
  intro p q hp _ hlt
  exact hlt (h.mem_unackedPackets.mp hp).2

theorem eq_of_timeStamp_eq (h : s.Tracked env) {q : PacketPtr} (hp : p ∈ s.unackedPackets)
    (hq : q ∈ s.unackedPackets) (heq : s.heap.timeStamp p = s.heap.timeStamp q)
    : p = q := by
  have hnodup : (s.unackedPackets.map s.heap.timeStamp).Nodup := by
    rw [List.Nodup, List.pairwise_map]
    exact h.sorted_unackedPackets.imp (fun hlt => Nat.ne_of_lt hlt)
  exact List.inj_on_of_nodup_map hnodup hp hq heq

theorem setAck (h : s.Tracked env) (hp : p ∈ s.window) (hacked : s.heap.isAcked p = false)
    (haddr : ∀ q ∈ s.window, q.addr = p.addr → q = p)
    : ((s.setAck p true).eraseUnacked p).Tracked env := by
  refine ⟨?_, ?_, ?_⟩
  . apply h.sorted.imp
    intro q r hlt hq
    simp only [heap_eraseUnacked, heap_setAck, Heap.isAcked_setAck, Heap.timeStamp_setAck] at hq ⊢
    split at hq
    . contradiction
    . exact hlt hq
  . simpa using h.past
  . simp only [unackedPackets_eraseUnacked, unackedPackets_setAck, heap_setAck,
      Heap.timeStamp_setAck, OrderedSet.erase, h.unackedPackets_eq, List.filter_filter,
      window_eraseUnacked, window_setAck, heap_eraseUnacked, Heap.isAcked_setAck]
    apply List.filter_congr
    intro q hq
    by_cases hqp : q.addr = p.addr
    . simp [haddr q hq hqp]
    . cases hq' : s.heap.isAcked q with
      | true => simp
      | false =>
        have hne : s.heap.timeStamp q ≠ s.heap.timeStamp p := by
          intro heq
          have hqmem := h.mem_unackedPackets.mpr ⟨hq, hq'⟩
          have hpmem := h.mem_unackedPackets.mpr ⟨hp, hacked⟩
          exact hqp (congrArg _ (h.eq_of_timeStamp_eq hqmem hpmem heq))
        simp [hqp, hne]

theorem dropPrefix (h : s.Tracked env) {xs rest : List PacketPtr} (hwindow : s.window = xs ++ rest)
    (hacked : ∀ q ∈ xs, s.heap.isAcked q = true) (popped : List PacketPtr)
    : { s with window := rest, popped }.Tracked env := by
  refine ⟨?_, ?_, ?_⟩
  . have := h.sorted
    rw [hwindow, List.pairwise_append] at this
    exact this.2.1
  . intro q hq
    apply h.past
    simp [hwindow, hq]
  . have hxs : xs.filter (fun q => !s.heap.isAcked q) = [] := by
      simpa using hacked
    simp only [h.unackedPackets_eq, hwindow, List.filter_append, hxs, List.nil_append]

theorem pushAndTransmit (h : s.Tracked env) (hclock : Monotone env.now)
    (hfirst : ∀ q ∈ s.unackedPackets, s.heap.timeStamp q ≠ env.now s.clockReads)
    (haddr : ∀ q ∈ s.window, q.addr ≠ p.addr) (hacked : s.heap.isAcked p = false)
    : ({ s with window := s.window ++ [p] }.transmit env p).Tracked env := by
  have htick : env.now s.clockReads ≤ env.now (s.clockReads + 1) := hclock (Nat.le_succ _)
  have hstamp : ∀ q ∈ s.window,
      (s.heap.setTimeStamp p (env.now s.clockReads)).timeStamp q = s.heap.timeStamp q := by
    intro q hq
    simp [haddr q hq]
  have hlt : ∀ q ∈ s.window, s.heap.isAcked q = false
      → s.heap.timeStamp q < env.now s.clockReads := by
    intro q hq hq'
    apply Nat.lt_of_le_of_ne (h.past q hq)
    exact hfirst q (h.mem_unackedPackets.mpr ⟨hq, hq'⟩)
  refine ⟨?_, ?_, ?_⟩
  . simp only [window_transmit, heap_transmit, Heap.isAcked_setTimeStamp, List.pairwise_append,
      List.pairwise_singleton, List.mem_singleton, true_and]
    constructor
    . apply h.sorted.imp_of_mem
      intro q r hq hr hqr
      rwa [hstamp q hq, hstamp r hr]
    . intro q hq r hr hq'
      rw [hr, hstamp q hq]
      simpa using hlt q hq hq'
  . intro q hq
    simp only [window_transmit, List.mem_append, List.mem_singleton] at hq
    simp only [heap_transmit, clockReads_transmit]
    cases hq with
    | inl hq =>
      rw [hstamp q hq]
      exact Nat.le_trans (h.past q hq) htick
    | inr hq => simpa [hq] using htick
  . simp only [unackedPackets_transmit, window_transmit, heap_transmit, Heap.isAcked_setTimeStamp,
      List.filter_append, h.unackedPackets_eq]
    rw [OrderedSet.insert_eq_append]
    . simp [hacked]
    . intro q hq
      rw [List.mem_filter, Bool.not_eq_true'] at hq
      rw [hstamp q hq.1]
      simpa using hlt q hq.1 hq.2

theorem timeStamp_le (h : s.Tracked env) (haddr : ∀ q ∈ s.window, q.addr ≠ p.addr)
    : let t := { s with window := s.window ++ [p] }.transmit env p
      ∀ q ∈ t.window, t.heap.timeStamp q ≤ env.now s.clockReads := by
  intro t q hq
  simp only [t, window_transmit, List.mem_append, List.mem_singleton] at hq
  simp only [t, heap_transmit, Heap.timeStamp_setTimeStamp]
  cases hq with
  | inl hq =>
    rw [if_neg (haddr q hq)]
    exact h.past q hq
  | inr hq => simp [hq]

theorem transmit_singleton (hclock : Monotone env.now) (hwindow : s.window = [p])
    (hunacked : s.unackedPackets = []) (hacked : s.heap.isAcked p = false)
    : (s.transmit env p).Tracked env := by
  have hempty : { s with window := [] }.Tracked env := by
    refine ⟨by simp, by simp, by simpa using hunacked⟩
  have hs : { s with window := [] ++ [p] } = s := by
    rw [List.nil_append, ← hwindow]
  rw [← hs]
  exact hempty.pushAndTransmit hclock (by simp [hunacked]) (by simp) hacked

end Tracked

end RdtStrategy
