import RdtProtocol.Server.Strategy.InOrder
import RdtProtocol.Server.Strategy.Interleaving
import RdtProtocol.Server.Strategy.SelectiveRepeatLemmas

/-!
This module contains what every stretch of code of the two threads preserves, whatever the clock says,
however long the file is and whatever the size of the window.
-/

namespace Interleaving

structure Sound (moved : List PacketPtr) (s : RdtStrategy) : Prop where
  builder : s.pktBuilder.WF
  distinct : (s.popped ++ (s.window ++ (s.auxWindow ++ s.pending))).Pairwise
    (fun p q => p.addr ≠ q.addr)
  sorted : OrderedSet.Sorted s.heap.timeStamp s.unackedPackets
  mem : ∀ q ∈ s.unackedPackets, q ∈ s.window ∨ q ∈ moved
  moved : ∀ q ∈ moved, ∀ r ∈ s.popped, q.addr ≠ r.addr

namespace Sound

variable {env : Env} {moved : List PacketPtr} {s : RdtStrategy} {p q : PacketPtr}

theorem addr_popped_ne (h : Sound moved s) (hp : p ∈ s.popped) (hq : q ∈ s.window)
    : p.addr ≠ q.addr := by
  have := h.distinct
  rw [List.pairwise_append] at this
  apply this.2.2 p hp
  simp [hq]

theorem eq_of_addr_eq (h : Sound moved s) (hp : p ∈ s.window) (hq : q ∈ s.window)
    (heq : p.addr = q.addr)
    : p = q := by
  have hpairwise := h.distinct
  rw [List.pairwise_append, List.pairwise_append] at hpairwise
  have hinj := List.inj_on_of_nodup_map (f := fun (p : PacketPtr) => p.addr) (List.pairwise_map.mpr hpairwise.2.1.1)
  exact hinj hp hq heq

theorem not_mem_popped (h : Sound moved s) (hq : q ∈ s.unackedPackets) : q ∉ s.popped := by
  intro hpopped
  cases h.mem q hq with
  | inl hwindow => exact h.addr_popped_ne hpopped hwindow rfl
  | inr hmoved => exact h.moved q hmoved q hpopped rfl

theorem setAck (h : Sound moved s) (p : PacketPtr) (acked : Bool) : Sound moved (s.setAck p acked) := by
  refine ⟨h.builder, h.distinct, ?_, h.mem, h.moved⟩
  simpa [OrderedSet.Sorted] using h.sorted

theorem eraseUnacked (h : Sound moved s) (p : PacketPtr) : Sound moved (s.eraseUnacked p) := by
  refine ⟨h.builder, h.distinct, h.sorted.filter _, ?_, h.moved⟩
  intro q hq
  apply h.mem
  exact List.mem_of_mem_filter hq

theorem eraseMoved (h : Sound (p :: moved) s) : Sound moved (s.eraseUnacked p) := by
  refine ⟨h.builder, h.distinct, h.sorted.filter _, ?_, ?_⟩
  . intro q hq
    rw [RdtStrategy.unackedPackets_eraseUnacked, OrderedSet.mem_erase] at hq
    have hne : q ≠ p := fun heq => hq.2 (congrArg _ heq)
    simpa [hne] using h.mem q hq.1
  . intro q hq
    exact h.moved q (List.mem_cons_of_mem p hq)

theorem insertUnacked (h : Sound moved s) (hp : p ∈ s.window) : Sound moved (s.insertUnacked p) := by
  refine ⟨h.builder, h.distinct, h.sorted.insert, ?_, h.moved⟩
  intro q hq
  cases OrderedSet.mem_or_eq_of_mem_insert hq with
  | inl heq => exact .inl (heq ▸ hp)
  | inr hq => exact h.mem q hq

theorem stamp (h : Sound moved s) (env : Env) (hp : ∀ q ∈ s.unackedPackets, q.addr ≠ p.addr)
    : Sound moved (s.stamp env p) := by
  refine ⟨h.builder, h.distinct, ?_, h.mem, h.moved⟩
  apply h.sorted.imp_of_mem
  intro q r hq hr hlt
  simpa [RdtStrategy.stamp, RdtStrategy.setTimeStamp, hp q hq, hp r hr] using hlt

theorem pop (h : Sound [] s) {xs rest : List PacketPtr} (hwindow : s.window = xs ++ rest)
    (hxs : ∀ q ∈ xs, q ∉ s.unackedPackets)
    : Sound [] { s with window := rest, popped := s.popped ++ xs } := by
  refine ⟨h.builder, ?_, h.sorted, ?_, by simp⟩
  . have := h.distinct
    rw [hwindow] at this
    simpa [RdtStrategy.pending] using this
  . intro q hq
    have hmem : q ∈ xs ∨ q ∈ rest := by
      simpa [hwindow] using h.mem q hq
    exact .inl (hmem.resolve_left (fun hx => hxs q hx hq))

theorem congr {t : RdtStrategy} (h : Sound moved s) (hbuilder : t.pktBuilder = s.pktBuilder)
    (hseqno : t.nextSeqNumber = s.nextSeqNumber) (hpopped : t.popped = s.popped)
    (hwindow : t.window = s.window) (haux : t.auxWindow = s.auxWindow)
    (hunacked : t.unackedPackets = s.unackedPackets) (hheap : t.heap = s.heap)
    : Sound moved t := by
  constructor
  . rw [hbuilder]
    exact h.builder
  . rw [hpopped, hwindow, haux, RdtStrategy.pending, hbuilder, hseqno]
    exact h.distinct
  . rw [hheap, hunacked]
    exact h.sorted
  . rw [hunacked, hwindow]
    exact h.mem
  . rw [hpopped]
    exact h.moved

end Sound

variable {mode : Mode} {env : Env} {s t : RdtStrategy} {p : PacketPtr}

structure Taken (s : RdtStrategy) (p : PacketPtr) (t : RdtStrategy) : Prop where
  builder : t.pktBuilder.WF
  rest : s.auxWindow ++ s.pending = p :: (t.auxWindow ++ t.pending)
  window_eq : t.window = s.window
  unackedPackets_eq : t.unackedPackets = s.unackedPackets
  heap_eq : ∀ addr, addr ≠ p.addr → t.heap addr = s.heap addr
  popped_eq : t.popped = s.popped

theorem taken_getNextPacket (hwf : s.pktBuilder.WF) (haux : s.auxWindow = [])
    (hnext : s.pktBuilder.hasNext = true)
    : ∃ p t, s.getNextPacket = some (p, t) ∧ Taken s p t := by
  obtain ⟨p, b, n, hget, hb, hpending, _⟩ :=
    PacketBuilder.exists_getNextPacket hwf hnext s.nextSeqNumber
  refine ⟨p, { s with pktBuilder := b, nextSeqNumber := n }, ?_, hb, ?_, rfl, rfl, fun _ _ => rfl,
    rfl⟩
  . simp [RdtStrategy.getNextPacket, hget]
  . rw [haux, List.nil_append]
    exact hpending

theorem taken_takeNext (hwf : s.pktBuilder.WF) (hnext : SelectiveRepeat.takeNext s = some (p, t))
    : Taken s p t := by
  unfold SelectiveRepeat.takeNext at hnext
  split at hnext
  . next q aux haux =>
    cases hnext
    exact ⟨hwf, by rw [haux]; rfl, rfl, rfl, fun _ _ => rfl, rfl⟩
  . next haux =>
    split at hnext
    . next hhas =>
      obtain ⟨q, u, hget, htaken⟩ := taken_getNextPacket hwf haux hhas
      rw [hget] at hnext
      cases hnext
      exact htaken
    . contradiction

namespace Taken

theorem addr_ne (h : Taken s p t) (hs : Sound [] s) {q : PacketPtr} (hq : q ∈ s.window)
    : q.addr ≠ p.addr := by
  have hdistinct := hs.distinct
  rw [h.rest, List.pairwise_append, List.pairwise_append] at hdistinct
  exact hdistinct.2.1.2.2 q hq p List.mem_cons_self

theorem isAcked_eq (h : Taken s p t) {q : PacketPtr} (hq : q.addr ≠ p.addr)
    : t.heap.isAcked q = s.heap.isAcked q := by
  rw [Heap.isAcked, h.heap_eq _ hq, Heap.isAcked]

theorem setAck (h : Taken s p t) (acked : Bool) : Taken s p (t.setAck p acked) := by
  refine ⟨h.builder, h.rest, h.window_eq, h.unackedPackets_eq, ?_, h.popped_eq⟩
  intro addr haddr
  rw [RdtStrategy.heap_setAck, Heap.setAck, Function.update_of_ne haddr, h.heap_eq addr haddr]

theorem sound (h : Taken s p t) (hs : Sound [] s) : Sound [] (t.pushBack p) := by
  have hdistinct := hs.distinct
  rw [h.rest, ← h.popped_eq, ← h.window_eq] at hdistinct
  have hmem : ∀ q ∈ s.unackedPackets, q ∈ s.window := by
    simpa using hs.mem
  have hstamp : ∀ q ∈ s.unackedPackets, t.heap.timeStamp q = s.heap.timeStamp q := by
    intro q hq
    rw [Heap.timeStamp, h.heap_eq _ (h.addr_ne hs (hmem q hq)), Heap.timeStamp]
  refine ⟨h.builder, ?_, ?_, ?_, by simp⟩
  . simpa [RdtStrategy.pushBack, RdtStrategy.pending] using hdistinct
  . simp only [RdtStrategy.pushBack, h.unackedPackets_eq]
    apply hs.sorted.imp_of_mem
    intro q r hq hr hlt
    rwa [hstamp q hq, hstamp r hr]
  . intro q hq
    have := hmem q (h.unackedPackets_eq ▸ hq)
    simp [RdtStrategy.pushBack, h.window_eq, this]

end Taken

def Front (s : RdtStrategy) : Prop :=
  ∀ p ∈ s.window.head?, s.heap.isAcked p = false

def Worker.moved : Worker → List PacketPtr
  | .shrink moved => moved
  | _ => []

def WorkerInv (mode : Mode) (s : RdtStrategy) : Worker → Prop
  | .idle => Front s
  | .erase p => p ∈ s.window ∧ ∀ q ∈ s.window.head?, s.heap.isAcked q = true → q = p
  | .advance p => p ∈ s.window ∧ ∀ q ∈ s.window.head?, s.heap.isAcked q = true → q = p
  | .insert p tripleDupAck =>
    Front s ∧ (tripleDupAck = true → mode = .selectiveRepeat) ∧ p ∈ s.window
      ∧ s.heap.isAcked p = false ∧ ∀ q ∈ s.unackedPackets, q.addr ≠ p.addr
  | .sent tripleDupAck =>
    Front s ∧ (tripleDupAck = true → mode = .selectiveRepeat) ∧ s.window ≠ []
  | .shrink _ => Front s ∧ mode = .selectiveRepeat ∧ s.window ≠ []

structure Single (s : RdtStrategy) : Prop where
  length_window_le : s.window.length ≤ 1
  auxWindow_eq : s.auxWindow = []
  pending : ∀ p ∈ s.pending, s.heap.isAcked p = false

structure Stretch (mode : Mode) (s : RdtStrategy) (next : RdtStrategy × Worker) : Prop where
  sound : Sound [] next.1
  unackedPackets_eq : next.1.unackedPackets = s.unackedPackets
  popped_subset : s.popped ⊆ next.1.popped
  popped : ∀ p ∈ next.1.popped, p ∈ s.popped ∨ p ∈ s.window.takeWhile s.heap.isAcked
  window : ∀ p ∈ s.window, p ∈ next.1.window ∨ p ∈ s.window.takeWhile s.heap.isAcked
  isAcked : ∀ p ∈ s.unackedPackets, next.1.heap.isAcked p = true → s.heap.isAcked p = true
  worker : WorkerInv mode next.1 next.2
  cases : next.2 = .idle ∨ ∃ p tripleDupAck, next.2 = .insert p tripleDupAck
    ∧ ∀ q ∈ s.window, q.addr ≠ p.addr

theorem takeWhile_of_front (h : Front s) : s.window.takeWhile s.heap.isAcked = [] := by
  cases hw : s.window with
  | nil => rfl
  | cons p rest => simp [h p (by simp [hw])]

theorem stretch_idle (hs : Sound [] s) (hf : Front s) : Stretch mode s (s, .idle) :=
  ⟨hs, rfl, fun _ hp => hp, fun _ hp => .inl hp, fun _ hp => .inl hp, fun _ _ hp => hp, hf, .inl rfl⟩

theorem stretch_push (hs : Sound [] s) (hf : Front s) (h : Taken s p t)
    (hacked : t.heap.isAcked p = false) (env : Env) {tripleDupAck : Bool}
    (hmode : tripleDupAck = true → mode = .selectiveRepeat)
    : Stretch mode s ((t.pushBack p).stamp env p, .insert p tripleDupAck) := by
  have hset : ∀ q ∈ (t.pushBack p).unackedPackets, q.addr ≠ p.addr := by
    intro q hq
    apply h.addr_ne hs
    simpa using hs.mem q (h.unackedPackets_eq ▸ hq)
  have hisAcked (q : PacketPtr)
      : ((t.pushBack p).stamp env p).heap.isAcked q = t.heap.isAcked q := by
    simp [RdtStrategy.stamp, RdtStrategy.setTimeStamp, RdtStrategy.pushBack]
  have hwindow : ((t.pushBack p).stamp env p).window = s.window ++ [p] := by
    rw [← h.window_eq]
    rfl
  refine ⟨(h.sound hs).stamp env hset, h.unackedPackets_eq, ?_, ?_, ?_, ?_, ⟨?_, hmode, ?_, ?_, hset⟩,
    .inr ⟨p, _, rfl, fun q hq => h.addr_ne hs hq⟩⟩
  . exact fun q hq => h.popped_eq ▸ hq
  . intro q hq
    exact .inl (h.popped_eq ▸ hq)
  . intro q hq
    left
    simp [hwindow, hq]
  . intro q hq hacked
    rwa [hisAcked, h.isAcked_eq (hset q (h.unackedPackets_eq ▸ hq))] at hacked
  . intro q hq
    rw [hwindow, List.head?_append] at hq
    rw [hisAcked]
    cases hw : s.window.head? with
    | none =>
      simp only [hw, List.head?_cons, Option.or_some, Option.getD_none, Option.mem_some] at hq
      rw [← hq]
      exact hacked
    | some r =>
      simp only [hw, List.head?_cons, Option.or_some, Option.getD_some, Option.mem_some] at hq
      rw [hq] at hw
      rw [h.isAcked_eq (h.addr_ne hs (List.mem_of_head? hw))]
      exact hf q hw
  . simp [hwindow]
  . rw [hisAcked]
    exact hacked

theorem Stretch.of_pop {next : RdtStrategy × Worker} {xs rest : List PacketPtr}
    (hwindow : s.window = xs ++ rest) (hxs : ∀ p ∈ xs, s.heap.isAcked p = true)
    (h : Stretch mode { s with window := rest, popped := s.popped ++ xs } next)
    : Stretch mode s next := by
  have htake : s.window.takeWhile s.heap.isAcked = xs ++ rest.takeWhile s.heap.isAcked := by
    rw [hwindow, List.takeWhile_append_of_pos hxs]
  refine ⟨h.sound, h.unackedPackets_eq, ?_, ?_, ?_, h.isAcked, h.worker, h.cases.imp_right ?_⟩
  . intro p hp
    exact h.popped_subset (List.mem_append_left xs hp)
  . intro p hp
    have := h.popped p hp
    rw [htake]
    simp only [List.mem_append] at this ⊢
    tauto
  . intro p hp
    rw [htake]
    rw [hwindow, List.mem_append] at hp
    cases hp with
    | inl hp => exact .inr (List.mem_append_left _ hp)
    | inr hp => exact (h.window p hp).imp_right (List.mem_append_right _)
  . intro hex
    obtain ⟨p, b, heq, hrest⟩ := hex
    have hworker := h.worker
    rw [heq] at hworker
    refine ⟨p, b, heq, ?_⟩
    intro q hq
    rw [hwindow, List.mem_append] at hq
    cases hq with
    | inl hq =>
      exact h.sound.addr_popped_ne (h.popped_subset (List.mem_append_right _ hq)) hworker.2.2.1
    | inr hq => exact hrest q hq

theorem stretch_expand (hs : Sound [] s) (hf : Front s) (env : Env)
    : Stretch .selectiveRepeat s (expand env s) := by
  unfold expand
  split
  . split
    . next p t hnext =>
      apply stretch_push hs hf ((taken_takeNext hs.builder hnext).setAck false) _ env (fun _ => rfl)
      simp
    . exact stretch_idle hs hf
  . exact stretch_idle hs hf

theorem front_dropWhile (s : RdtStrategy) (popped : List PacketPtr)
    : Front { s with window := s.window.dropWhile s.heap.isAcked, popped } := by
  intro q hq
  have := List.head?_dropWhile_not s.heap.isAcked s.window
  simp only [Option.mem_def] at hq
  rw [hq] at this
  exact this

theorem stretch_acked_selectiveRepeat (hs : Sound [] s)
    (hset : ∀ q ∈ s.unackedPackets, s.heap.isAcked q = false)
    (hfront : ∀ q ∈ s.window.head?, s.heap.isAcked q = true → q = p) (env : Env)
    : Stretch .selectiveRepeat s (acked .selectiveRepeat env s p) := by
  have hadjust {u : RdtStrategy} (hu : Sound [] u) (hf : Front u)
      : Stretch .selectiveRepeat u (expand env (SelectiveRepeat.adjustWindowSize u)) := by
    have h : Stretch .selectiveRepeat _ (expand env (SelectiveRepeat.adjustWindowSize u)) :=
      stretch_expand (s := SelectiveRepeat.adjustWindowSize u) (hu.congr rfl rfl rfl rfl rfl rfl rfl) hf env
    exact ⟨h.sound, h.unackedPackets_eq, h.popped_subset, h.popped, h.window, h.isAcked, h.worker,
      h.cases⟩
  simp only [acked]
  split
  . have hxs : ∀ q ∈ s.window.takeWhile s.heap.isAcked, s.heap.isAcked q = true :=
      fun q hq => List.mem_takeWhile_imp hq
    have hpop := hs.pop List.takeWhile_append_dropWhile.symm (fun q hq hmem => by
      simpa [hset q hmem] using hxs q hq)
    exact Stretch.of_pop List.takeWhile_append_dropWhile.symm hxs
      (hadjust hpop (front_dropWhile s _))
  . next hne =>
    apply hadjust hs
    intro q hq
    by_contra hacked
    exact hne (hfront q hq (by simpa using hacked) ▸ hq)

theorem advance_of_nil (hwindow : s.window = []) : advance env s = (s, .idle) := by
  unfold advance
  split
  . rfl
  . next heq => simp [hwindow] at heq

theorem advance_of_cons {rest : List PacketPtr} (hwindow : s.window = p :: rest)
    : advance env s
        =
      if s.heap.isAcked p then
        if s.pktBuilder.hasNext then
          match s.popFront.getNextPacket with
          | some (q, t) => ((t.pushBack q).stamp env q, .insert q false)
          | none => (s.popFront, .idle)
        else
          advance env s.popFront
      else
        (s, .idle) := by
  rw [advance]
  split
  . next hnil => simp [hnil] at hwindow
  . next hcons =>
    rw [hcons, List.cons.injEq] at hwindow
    obtain ⟨rfl, _⟩ := hwindow
    rfl

theorem single_push (hsingle : Single s) (hwindow : s.window = [])
    (hget : s.getNextPacket = some (p, t)) (htaken : Taken s p t)
    : t.heap.isAcked p = false ∧ Single ((t.pushBack p).stamp env p) := by
  have hrest := htaken.rest
  obtain ⟨_, _, _, rfl⟩ := RdtStrategy.getNextPacket_eq_some hget
  simp only [hsingle.auxWindow_eq, List.nil_append] at hrest
  refine ⟨hsingle.pending p (by simp [hrest]), ?_, hsingle.auxWindow_eq, ?_⟩
  . simp [RdtStrategy.stamp, RdtStrategy.setTimeStamp, RdtStrategy.pushBack, hwindow]
  . intro q hq
    have hmem : q ∈ s.pending := by
      rw [hrest]
      exact List.mem_cons_of_mem p hq
    simpa [RdtStrategy.stamp, RdtStrategy.setTimeStamp, RdtStrategy.pushBack]
      using hsingle.pending q hmem

theorem stretch_advance (hs : Sound [] s) (hsingle : Single s)
    (hset : ∀ q ∈ s.unackedPackets, s.heap.isAcked q = false) (env : Env)
    : Stretch .stopAndWait s (advance env s) ∧ Single (advance env s).1 := by
  cases hwindow : s.window with
  | nil =>
    rw [advance_of_nil hwindow]
    refine ⟨stretch_idle hs ?_, hsingle⟩
    simp [Front, hwindow]
  | cons p rest =>
    have hrest : rest = [] := by
      have := hsingle.length_window_le
      rw [hwindow, List.length_cons] at this
      exact List.length_eq_zero_iff.mp (by omega)
    subst hrest
    have hpopFront : s.popFront = { s with window := [], popped := s.popped ++ [p] } := by
      simp [RdtStrategy.popFront, hwindow]
    have hsinglePop : Single s.popFront := by
      rw [hpopFront]
      exact ⟨by simp, hsingle.auxWindow_eq, hsingle.pending⟩
    have hfrontPop : Front s.popFront := by
      simp [Front, hpopFront]
    rw [advance_of_cons hwindow]
    split
    . next hacked =>
      have hpop : Sound [] s.popFront := by
        rw [hpopFront]
        apply hs.pop (by simp [hwindow])
        intro q hq hmem
        rw [List.mem_singleton] at hq
        simp [hset q hmem, ← hq] at hacked
      have hpopped {next : RdtStrategy × Worker} (h : Stretch .stopAndWait s.popFront next)
          : Stretch .stopAndWait s next := by
        rw [hpopFront] at h
        exact h.of_pop (by simp [hwindow]) (by simpa using hacked)
      split
      . next hnext =>
        obtain ⟨q, t, hget, htaken⟩ := taken_getNextPacket hpop.builder hsinglePop.auxWindow_eq hnext
        obtain ⟨hunacked, hsinglePush⟩ := single_push hsinglePop (by rw [hpopFront]) hget htaken
        rw [hget]
        exact ⟨hpopped (stretch_push hpop hfrontPop htaken hunacked env (by simp)), hsinglePush⟩
      . rw [advance_of_nil (by rw [hpopFront])]
        exact ⟨hpopped (stretch_idle hpop hfrontPop), hsinglePop⟩
    . next hacked =>
      refine ⟨stretch_idle hs ?_, hsingle⟩
      simpa [Front, hwindow] using hacked

theorem stretch_acked_stopAndWait (hs : Sound [] s) (hsingle : Single s)
    (hset : ∀ q ∈ s.unackedPackets, s.heap.isAcked q = false)
    (hfront : ∀ q ∈ s.window.head?, s.heap.isAcked q = true → q = p) (env : Env)
    : Stretch .stopAndWait s (acked .stopAndWait env s p)
        ∧ Single (acked .stopAndWait env s p).1 := by
  simp only [acked]
  split
  . exact stretch_advance hs hsingle hset env
  . next hne =>
    refine ⟨stretch_idle hs ?_, hsingle⟩
    intro q hq
    by_contra hacked
    exact hne (hfront q hq (by simpa using hacked) ▸ hq)

theorem subperm_foldl_insert (moved aux : List PacketPtr)
    : (moved.foldl (fun aux p => OrderedSet.insert (·.packet.seqno.toNat) p aux) aux).Subperm
        (moved ++ aux) := by
  induction moved generalizing aux with
  | nil => exact List.Subperm.refl _
  | cons p moved ih =>
    rw [List.foldl_cons, List.cons_append]
    apply (ih _).trans
    apply List.Subperm.trans _ (List.perm_middle.subperm)
    exact (List.subperm_append_left moved).mpr (OrderedSet.insert_subperm p aux)

theorem sound_shrink (hs : Sound [] s) (newSize : Int)
    : Sound (shrink s newSize).2.moved (shrink s newSize).1 := by
  generalize hk : sizeT (if newSize < 1 then 1 else newSize) = k
  simp only [shrink, hk, Worker.moved]
  refine ⟨hs.builder, ?_, hs.sorted, ?_, ?_⟩
  . have hdistinct := hs.distinct
    have hsub : (s.popped ++ (s.window.take k ++ ((s.window.drop k).foldl
          (fun aux p => OrderedSet.insert (·.packet.seqno.toNat) p aux) s.auxWindow ++ s.pending))).Subperm
        (s.popped ++ (s.window ++ (s.auxWindow ++ s.pending))) := by
      apply (List.subperm_append_left _).mpr
      conv => rhs; rw [← List.take_append_drop k s.window, List.append_assoc]
      apply (List.subperm_append_left _).mpr
      rw [← List.append_assoc]
      exact (List.subperm_append_right _).mpr (subperm_foldl_insert _ _)
    obtain ⟨l, hperm, hsublist⟩ := hsub
    exact (hperm.pairwise_iff (fun hne => hne.symm)).mp (hdistinct.sublist hsublist)
  . intro q hq
    have hmem : q ∈ s.window := by
      simpa using hs.mem q hq
    rwa [← List.take_append_drop k s.window, List.mem_append] at hmem
  . intro q hq r hr
    exact (hs.addr_popped_ne hr (List.mem_of_mem_drop hq)).symm

end Interleaving
