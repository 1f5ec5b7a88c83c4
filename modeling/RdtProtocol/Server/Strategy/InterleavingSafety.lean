import RdtProtocol.Server.Strategy.InterleavingLemmas
import RdtProtocol.Server.Strategy.ModeLemmas

/-!
This module contains what keeps the timer and the worker apart. The condition names the four places where
an ACK can come between two critical sections of `handle_time_out` that rely on each other.
-/

namespace Interleaving

variable (mode : Mode) (env : Env)

def Timer.packet : Timer → Option PacketPtr
  | .compare p => some p
  | .erase p => some p
  | .send p => some p
  | .insert p => some p
  | _ => none

def Refilled (s : RdtStrategy) : Prop :=
  (∃ p ∈ s.window, s.heap.isAcked p = false)
    ∨ (0 < sizeT (SelectiveRepeat.adjustWindowSize s).windowSize
      ∧ (s.auxWindow ≠ [] ∨ s.pktBuilder.hasNext = true))

/--
The timer relies on a packet in `unacked_packets`: it has seen that the set is not empty and has yet
to read its first element, or, in selective repeat, to print it.
-/
def Timer.Relies : Timer → Prop
  | .begin => True
  | .compare _ => mode = .selectiveRepeat
  | .erase _ => mode = .selectiveRepeat
  | _ => False

/--
When `p` is erased from `unacked_packets`, another packet stays there.
-/
def Accompanied (s : RdtStrategy) (p : PacketPtr) : Prop :=
  ∃ q ∈ s.unackedPackets, s.heap.timeStamp q ≠ s.heap.timeStamp p

def Undisturbed (c : State) : Event → Prop
  | .acknowledge _ => True
  | .worker =>
    match c.worker with
    | .erase p => c.timer.Relies mode → Accompanied c.strategy p
    | .shrink (p :: _) => c.timer.Relies mode → Accompanied c.strategy p
    | .advance _ =>
      (∀ p ∈ c.timer.packet, p ∉ c.strategy.window.takeWhile c.strategy.heap.isAcked)
        ∧ (mode = .selectiveRepeat → c.timer ≠ .test → c.timer ≠ .begin → Refilled c.strategy)
    | _ => True
  | .timer =>
    match c.timer with
    | .insert p => c.strategy.heap.isAcked p = false ∨ c.worker = .erase p
    | _ => True

instance (s : RdtStrategy) : Decidable (Refilled s) :=
  inferInstanceAs (Decidable (_ ∨ _))

instance (timer : Timer) : Decidable (timer.Relies mode) :=
  match timer with
  | .begin => .isTrue trivial
  | .compare _ | .erase _ => inferInstanceAs (Decidable (mode = .selectiveRepeat))
  | .test | .send _ | .insert _ | .list | .front => .isFalse id

instance (s : RdtStrategy) (p : PacketPtr) : Decidable (Accompanied s p) :=
  inferInstanceAs (Decidable (∃ q ∈ s.unackedPackets, _))

instance (c : State) (e : Event) : Decidable (Undisturbed mode c e) :=
  match e with
  | .acknowledge _ => .isTrue trivial
  | .worker =>
    match h : c.worker with
    | .erase p =>
      decidable_of_iff (c.timer.Relies mode → Accompanied c.strategy p)
        (by simp only [Undisturbed, h])
    | .shrink (p :: _) =>
      decidable_of_iff (c.timer.Relies mode → Accompanied c.strategy p)
        (by simp only [Undisturbed, h])
    | .advance _ =>
      decidable_of_iff
        ((∀ p ∈ c.timer.packet, p ∉ c.strategy.window.takeWhile c.strategy.heap.isAcked)
          ∧ (mode = .selectiveRepeat → c.timer ≠ .test → c.timer ≠ .begin → Refilled c.strategy))
        (by simp only [Undisturbed, h])
    | .idle | .insert _ _ | .sent _ | .shrink [] =>
      .isTrue (by simp only [Undisturbed, h])
  | .timer =>
    match h : c.timer with
    | .insert p =>
      decidable_of_iff (c.strategy.heap.isAcked p = false ∨ c.worker = .erase p)
        (by simp only [Undisturbed, h])
    | .test | .begin | .compare _ | .erase _ | .send _ | .list | .front =>
      .isTrue (by simp only [Undisturbed, h])

def Chosen (s : RdtStrategy) (w : Worker) (p : PacketPtr) : Prop :=
  match mode with
  | .stopAndWait => p ∈ s.window ∧ ∀ q tripleDupAck, w = .insert q tripleDupAck → q.addr ≠ p.addr
  | .selectiveRepeat => p ∉ s.popped ∧ s.window ≠ []
  | .goBackN => False

def TimerInv (s : RdtStrategy) (w : Worker) : Timer → Prop
  | .test => True
  | .begin => True
  | .compare p => Chosen mode s w p
  | .erase p => Chosen mode s w p
  | .send p => mode = .stopAndWait ∧ Chosen mode s w p ∧ ∀ q ∈ s.unackedPackets, q.addr ≠ p.addr
  | .insert p => mode = .stopAndWait ∧ Chosen mode s w p ∧ ∀ q ∈ s.unackedPackets, q.addr ≠ p.addr
  | .list => mode = .selectiveRepeat ∧ s.window ≠ []
  | .front => mode = .selectiveRepeat ∧ s.window ≠ []

structure Inv (c : State) : Prop where
  fault_eq : c.fault = none
  sound : Sound c.worker.moved c.strategy
  acked : ∀ q ∈ c.strategy.unackedPackets, c.strategy.heap.isAcked q = true → c.worker = .erase q
  worker : WorkerInv mode c.strategy c.worker
  single : mode = .stopAndWait → Single c.strategy
  timer : TimerInv mode c.strategy c.worker c.timer
  relied : c.timer.Relies mode → c.strategy.unackedPackets ≠ []

variable {mode : Mode} {env : Env} {c c' : State} {s t : RdtStrategy} {w w' : Worker} {p : PacketPtr}

theorem Chosen.not_mem_popped {moved : List PacketPtr} (h : Chosen mode s w p) (hs : Sound moved s)
    : p ∉ s.popped := by
  cases mode with
  | stopAndWait => exact fun hp => hs.addr_popped_ne hp h.1 rfl
  | selectiveRepeat => exact h.1
  | goBackN => exact h.elim

theorem Chosen.idle (h : Chosen mode s w p) (hwindow : t.window = s.window)
    (hpopped : t.popped = s.popped) (hw : ∀ q tripleDupAck, w' ≠ .insert q tripleDupAck)
    : Chosen mode t w' p := by
  cases mode with
  | stopAndWait => exact ⟨hwindow ▸ h.1, fun q b heq => absurd heq (hw q b)⟩
  | selectiveRepeat => exact ⟨hpopped ▸ h.1, hwindow ▸ h.2⟩
  | goBackN => exact h

theorem Timer.ne_of_mem_packet {timer : Timer} (h : p ∈ timer.packet)
    : timer ≠ .test ∧ timer ≠ .begin := by
  constructor
  . rintro rfl
    contradiction
  . rintro rfl
    contradiction

theorem TimerInv.imp {timer : Timer} (h : TimerInv mode s w timer)
    (hchosen : ∀ p ∈ timer.packet, Chosen mode s w p → Chosen mode t w' p)
    (hset : ∀ p, mode = .stopAndWait → Chosen mode s w p → (∀ q ∈ s.unackedPackets, q.addr ≠ p.addr)
      → ∀ q ∈ t.unackedPackets, q.addr ≠ p.addr)
    (hwindow : mode = .selectiveRepeat → timer ≠ .test → timer ≠ .begin → s.window ≠ []
      → t.window ≠ [])
    : TimerInv mode t w' timer := by
  cases timer with
  | test => trivial
  | begin => trivial
  | compare p => exact hchosen p rfl h
  | erase p => exact hchosen p rfl h
  | send p =>
    obtain ⟨hm, hp, hne⟩ := h
    exact ⟨hm, hchosen p rfl hp, hset p hm hp hne⟩
  | insert p =>
    obtain ⟨hm, hp, hne⟩ := h
    exact ⟨hm, hchosen p rfl hp, hset p hm hp hne⟩
  | list =>
    obtain ⟨hm, hne⟩ := h
    exact ⟨hm, hwindow hm (by simp) (by simp) hne⟩
  | front =>
    obtain ⟨hm, hne⟩ := h
    exact ⟨hm, hwindow hm (by simp) (by simp) hne⟩

theorem timerInv_of_subset {timer : Timer} (h : TimerInv mode s w timer)
    (hwindow : t.window = s.window) (hpopped : t.popped = s.popped)
    (hsub : t.unackedPackets ⊆ s.unackedPackets)
    (hw : ∀ q tripleDupAck, w' ≠ .insert q tripleDupAck)
    : TimerInv mode t w' timer := by
  apply h.imp
  . exact fun p _ hchosen => hchosen.idle hwindow hpopped hw
  . exact fun p _ _ hset q hq => hset q (hsub hq)
  . exact fun _ _ _ hne => hwindow ▸ hne

theorem Chosen.stretch {next : RdtStrategy × Worker} (h : Chosen mode s w p)
    (hs : Stretch mode s next) (hp : p ∉ s.window.takeWhile s.heap.isAcked)
    (hne : mode = .selectiveRepeat → next.1.window ≠ [])
    : Chosen mode next.1 next.2 p := by
  cases mode with
  | stopAndWait =>
    refine ⟨(hs.window p h.1).resolve_right hp, ?_⟩
    intro q b heq
    cases hs.cases with
    | inl hidle => simp [hidle] at heq
    | inr hex =>
      obtain ⟨r, b', heq', hr⟩ := hex
      rw [heq'] at heq
      cases heq
      exact (hr p h.1).symm
  | selectiveRepeat =>
    refine ⟨?_, hne rfl⟩
    intro hpopped
    cases hs.popped p hpopped with
    | inl hpopped => exact h.1 hpopped
    | inr htake => exact hp htake
  | goBackN => exact h

theorem timerInv_stretch {next : RdtStrategy × Worker} {timer : Timer} (h : TimerInv mode s w timer)
    (hs : Stretch mode s next)
    (hp : ∀ p ∈ timer.packet, p ∉ s.window.takeWhile s.heap.isAcked)
    (hne : mode = .selectiveRepeat → timer ≠ .test → timer ≠ .begin → next.1.window ≠ [])
    : TimerInv mode next.1 next.2 timer := by
  apply h.imp
  . intro p hmem hchosen
    obtain ⟨htest, hbegin⟩ := Timer.ne_of_mem_packet hmem
    exact hchosen.stretch hs (hp p hmem) (fun hm => hne hm htest hbegin)
  . intro p _ _ hset
    rw [hs.unackedPackets_eq]
    exact hset
  . exact fun hm htest hbegin _ => hne hm htest hbegin

theorem Inv.not_acked (h : Inv mode c) (hne : ∀ q, c.worker ≠ .erase q)
    : ∀ q ∈ c.strategy.unackedPackets, c.strategy.heap.isAcked q = false := by
  intro q hq
  by_contra hacked
  exact hne q (h.acked q hq (by simpa using hacked))

theorem inv_stretch (h : Inv mode c) (hset : ∀ q ∈ c.strategy.unackedPackets,
      c.strategy.heap.isAcked q = false)
    {next : RdtStrategy × Worker} (hs : Stretch mode c.strategy next)
    (hsingle : mode = .stopAndWait → Single next.1)
    (hp : ∀ p ∈ c.timer.packet, p ∉ c.strategy.window.takeWhile c.strategy.heap.isAcked)
    (hne : mode = .selectiveRepeat → c.timer ≠ .test → c.timer ≠ .begin → next.1.window ≠ [])
    : Inv mode { c with strategy := next.1, worker := next.2 } := by
  have hmoved : next.2.moved = [] := by
    cases hs.cases with
    | inl hidle => rw [hidle]; rfl
    | inr hex =>
      obtain ⟨p, b, heq, _⟩ := hex
      rw [heq]
      rfl
  refine ⟨h.fault_eq, ?_, ?_, hs.worker, hsingle, timerInv_stretch h.timer hs hp hne, ?_⟩
  . rw [hmoved]
    exact hs.sound
  . intro q hq hacked
    rw [hs.unackedPackets_eq] at hq
    have := hs.isAcked q hq hacked
    simp [hset q hq] at this
  . rw [hs.unackedPackets_eq]
    exact h.relied

theorem stretch_resume (hmode : mode ≠ .goBackN) (hs : Sound [] s) (hf : Front s)
    (hset : ∀ q ∈ s.unackedPackets, s.heap.isAcked q = false)
    (hsingle : mode = .stopAndWait → Single s) (env : Env)
    : Stretch mode s (resume mode env s)
        ∧ (mode = .stopAndWait → Single (resume mode env s).1) := by
  cases mode with
  | stopAndWait =>
    have := stretch_advance hs (hsingle rfl) hset env
    exact ⟨this.1, fun _ => this.2⟩
  | selectiveRepeat => exact ⟨stretch_expand hs hf env, by simp⟩
  | goBackN => contradiction

theorem inv_resume (hmode : mode ≠ .goBackN) (h : Inv mode c) (hs : Sound [] c.strategy)
    (hf : Front c.strategy) (hne : c.strategy.window ≠ [])
    (hset : ∀ q ∈ c.strategy.unackedPackets, c.strategy.heap.isAcked q = false)
    : let next := resume mode env c.strategy
      Inv mode { c with strategy := next.1, worker := next.2 } := by
  obtain ⟨hstretch, hsingle⟩ := stretch_resume hmode hs hf hset h.single env
  apply inv_stretch h hset hstretch hsingle
  . simp [takeWhile_of_front hf]
  . intro _ _ _
    obtain ⟨p, hp⟩ := List.exists_mem_of_ne_nil _ hne
    have := hstretch.window p hp
    simp only [takeWhile_of_front hf, List.not_mem_nil, or_false] at this
    exact List.ne_nil_of_mem this

theorem window_expand_ne_nil (hwf : s.pktBuilder.WF) (hroom : 0 < sizeT s.windowSize)
    (hnext : s.auxWindow ≠ [] ∨ s.pktBuilder.hasNext = true)
    : (expand env s).1.window ≠ [] := by
  unfold expand
  split
  . split
    . simp [RdtStrategy.stamp, RdtStrategy.setTimeStamp, RdtStrategy.pushBack]
    . next hnone =>
      unfold SelectiveRepeat.takeNext at hnone
      split at hnone
      . contradiction
      . next haux =>
        have hnext := hnext.resolve_left (not_not.mpr haux)
        obtain ⟨p, t, hget, _⟩ := taken_getNextPacket hwf haux hnext
        rw [if_pos hnext, hget] at hnone
        contradiction
  . next hfull =>
    apply List.ne_nil_of_length_pos
    exact Nat.lt_of_lt_of_le hroom (Nat.not_lt.mp hfull)

theorem window_acked_ne_nil (hs : Sound [] s)
    (hset : ∀ q ∈ s.unackedPackets, s.heap.isAcked q = false)
    (hfront : ∀ q ∈ s.window.head?, s.heap.isAcked q = true → q = p) (h : Refilled s)
    : (acked .selectiveRepeat env s p).1.window ≠ [] := by
  cases h with
  | inl hex =>
    obtain ⟨q, hq, hacked⟩ := hex
    cases (stretch_acked_selectiveRepeat hs hset hfront env).window q hq with
    | inl hmem => exact List.ne_nil_of_mem hmem
    | inr htake =>
      have := List.mem_takeWhile_imp htake
      simp [hacked] at this
  | inr hroom =>
    simp only [acked]
    split
    . exact window_expand_ne_nil hs.builder hroom.1 hroom.2
    . exact window_expand_ne_nil hs.builder hroom.1 hroom.2

theorem inv_acked (hmode : mode ≠ .goBackN) (h : Inv mode c) (hw : c.worker = .advance p)
    (hc : Undisturbed mode c .worker)
    : let next := acked mode env c.strategy p
      Inv mode { c with strategy := next.1, worker := next.2 } := by
  have hs := h.sound
  have hfront := h.worker
  rw [hw] at hs hfront
  have hset := h.not_acked (by simp [hw])
  simp only [Undisturbed, hw] at hc
  cases mode with
  | stopAndWait =>
    obtain ⟨hstretch, hsingle⟩ := stretch_acked_stopAndWait hs (h.single rfl) hset hfront.2 env
    exact inv_stretch h hset hstretch (fun _ => hsingle) hc.1 (by simp)
  | selectiveRepeat =>
    have hstretch := stretch_acked_selectiveRepeat hs hset hfront.2 env
    apply inv_stretch h hset hstretch (by simp) hc.1
    intro hm htest hbegin
    exact window_acked_ne_nil hs hset hfront.2 (hc.2 hm htest hbegin)
  | goBackN => contradiction

theorem Single.eraseUnacked (h : Single s) (p : PacketPtr) : Single (s.eraseUnacked p) :=
  ⟨h.length_window_le, h.auxWindow_eq, h.pending⟩

theorem Single.insertUnacked (h : Single s) (p : PacketPtr) : Single (s.insertUnacked p) :=
  ⟨h.length_window_le, h.auxWindow_eq, h.pending⟩

theorem Accompanied.ne_nil (h : Accompanied s p) : (s.eraseUnacked p).unackedPackets ≠ [] := by
  obtain ⟨q, hq, hne⟩ := h
  apply List.ne_nil_of_mem (a := q)
  rw [RdtStrategy.unackedPackets_eraseUnacked, OrderedSet.mem_erase]
  exact ⟨hq, hne⟩

theorem inv_erase (h : Inv mode c) (hw : c.worker = .erase p) (hc : Undisturbed mode c .worker)
    : Inv mode { c with strategy := c.strategy.eraseUnacked p, worker := .advance p } := by
  have hs := h.sound
  have hworker := h.worker
  rw [hw] at hs hworker
  simp only [Undisturbed, hw] at hc
  refine ⟨h.fault_eq, hs.eraseUnacked p, ?_, hworker, fun hm => (h.single hm).eraseUnacked p, ?_,
    fun hr => (hc hr).ne_nil⟩
  . intro q hq hacked
    rw [RdtStrategy.unackedPackets_eraseUnacked, OrderedSet.mem_erase] at hq
    have heq := h.acked q hq.1 hacked
    rw [hw] at heq
    cases heq
    exact absurd rfl hq.2
  . apply timerInv_of_subset (t := c.strategy.eraseUnacked p) h.timer rfl rfl
    . exact fun q hq => List.mem_of_mem_filter hq
    . simp

theorem inv_insert {tripleDupAck : Bool} (h : Inv mode c) (hw : c.worker = .insert p tripleDupAck)
    : Inv mode { c with strategy := c.strategy.insertUnacked p, worker := .sent tripleDupAck } := by
  have hs := h.sound
  have hworker := h.worker
  rw [hw] at hs hworker
  obtain ⟨hf, hdup, hmem, hacked, hset⟩ := hworker
  have hinsert : ∀ q ∈ (c.strategy.insertUnacked p).unackedPackets,
      q = p ∨ q ∈ c.strategy.unackedPackets :=
    fun q hq => OrderedSet.mem_or_eq_of_mem_insert hq
  refine ⟨h.fault_eq, hs.insertUnacked hmem, ?_, ⟨hf, hdup, List.ne_nil_of_mem hmem⟩,
    fun hm => (h.single hm).insertUnacked p, ?_, ?_⟩
  . intro q hq hq'
    cases hinsert q hq with
    | inl heq =>
      rw [heq] at hq'
      exact absurd (hq'.symm.trans hacked) (by simp)
    | inr hq =>
      have := h.acked q hq hq'
      simp [hw] at this
  . apply h.timer.imp
    . exact fun q _ hchosen => hchosen.idle rfl rfl (by simp)
    . intro q hm hchosen hne r hr
      cases hinsert r hr with
      | inl heq =>
        subst hm
        exact heq ▸ hchosen.2 p tripleDupAck hw
      | inr hr => exact hne r hr
    . exact fun _ _ _ hne => hne
  . intro hr
    obtain ⟨q, hq⟩ := List.exists_mem_of_ne_nil _ (h.relied hr)
    exact List.ne_nil_of_mem (OrderedSet.mem_insert_of_mem hq)

theorem window_shrink_head (s : RdtStrategy) (newSize : Int)
    : (shrink s newSize).1.window.head? = s.window.head? := by
  rw [← SelectiveRepeat.head?_shrinkWindow s newSize, SelectiveRepeat.window_shrinkWindow]
  rfl

theorem inv_shrink (h : Inv mode c) (hw : c.worker = .sent true)
    : let next := shrink c.strategy (c.strategy.windowSize.tdiv 2)
      Inv mode { c with strategy := next.1, worker := next.2 } := by
  have hs := h.sound
  have hworker := h.worker
  rw [hw] at hs hworker
  obtain ⟨hf, hmode, hne⟩ := hworker
  have hmode := hmode rfl
  have hhead := window_shrink_head c.strategy (c.strategy.windowSize.tdiv 2)
  have hne' : (shrink c.strategy (c.strategy.windowSize.tdiv 2)).1.window ≠ [] := by
    rwa [Ne, ← List.head?_eq_none_iff, hhead, List.head?_eq_none_iff]
  refine ⟨h.fault_eq, sound_shrink hs _, ?_, ⟨?_, hmode, hne'⟩, by simp [hmode], ?_, h.relied⟩
  . intro q hq hacked
    have := h.acked q hq hacked
    simp [hw] at this
  . rw [Front, hhead]
    exact hf
  . subst hmode
    apply h.timer.imp
    . exact fun q _ hchosen => ⟨hchosen.1, hne'⟩
    . simp
    . exact fun _ _ _ _ => hne'

theorem inv_eraseMoved {moved : List PacketPtr} (h : Inv mode c)
    (hw : c.worker = .shrink (p :: moved)) (hc : Undisturbed mode c .worker)
    : Inv mode { c with strategy := c.strategy.eraseUnacked p, worker := .shrink moved } := by
  have hs := h.sound
  have hworker := h.worker
  rw [hw] at hs hworker
  simp only [Undisturbed, hw] at hc
  refine ⟨h.fault_eq, hs.eraseMoved, ?_, hworker, fun hm => (h.single hm).eraseUnacked p, ?_,
    fun hr => (hc hr).ne_nil⟩
  . intro q hq hacked
    rw [RdtStrategy.unackedPackets_eraseUnacked, OrderedSet.mem_erase] at hq
    have := h.acked q hq.1 hacked
    simp [hw] at this
  . apply timerInv_of_subset (t := c.strategy.eraseUnacked p) h.timer rfl rfl
    . exact fun q hq => List.mem_of_mem_filter hq
    . simp

theorem inv_stepWorker (hmode : mode ≠ .goBackN) (h : Inv mode c) (hidle : c.worker ≠ .idle)
    (hc : Undisturbed mode c .worker)
    : let next := stepWorker mode env c.strategy c.worker
      Inv mode { c with strategy := next.1, worker := next.2 } := by
  have hs := h.sound
  have hworker := h.worker
  cases hw : c.worker with
  | idle => contradiction
  | erase p => exact inv_erase h hw hc
  | advance p => exact inv_acked hmode h hw hc
  | insert p b => exact inv_insert h hw
  | sent b =>
    rw [hw] at hs hworker
    cases b with
    | true => exact inv_shrink h hw
    | false => exact inv_resume hmode h hs hworker.1 hworker.2.2 (h.not_acked (by simp [hw]))
  | shrink moved =>
    cases moved with
    | nil =>
      rw [hw] at hs hworker
      exact inv_resume hmode h hs hworker.1 hworker.2.2 (h.not_acked (by simp [hw]))
    | cons p moved => exact inv_eraseMoved h hw hc

theorem shrinkWindow_eq_foldl (s : RdtStrategy) (newSize : Int)
    : SelectiveRepeat.shrinkWindow s newSize
        = (shrink s newSize).2.moved.foldl RdtStrategy.eraseUnacked (shrink s newSize).1 := by
  simp only [SelectiveRepeat.shrinkWindow, shrink, Worker.moved, SelectiveRepeat.foldl_eraseUnacked]

theorem sound_shrinkWindow (hs : Sound [] s) (newSize : Int)
    : Sound [] (SelectiveRepeat.shrinkWindow s newSize) := by
  have hfoldl (moved : List PacketPtr) (t : RdtStrategy) (ht : Sound moved t)
      : Sound [] (moved.foldl RdtStrategy.eraseUnacked t) := by
    induction moved generalizing t with
    | nil => exact ht
    | cons p moved ih => exact ih _ ht.eraseMoved
  rw [shrinkWindow_eq_foldl]
  exact hfoldl _ _ (sound_shrink hs newSize)

theorem window_shrinkWindow_singleton (hwindow : s.window = [p]) (newSize : Int)
    : (SelectiveRepeat.shrinkWindow s newSize).window = [p] := by
  have hhead := SelectiveRepeat.head?_shrinkWindow s newSize
  rw [SelectiveRepeat.window_shrinkWindow, hwindow] at hhead ⊢
  cases hk : sizeT (if newSize < 1 then 1 else newSize) with
  | zero => simp [hk] at hhead
  | succ k => simp

-- The set has nothing but `p` in it, so that it is sorted whatever the clock says.
theorem sound_transmit_singleton (hs : Sound [] s) (hwindow : s.window = [p]) (env : Env)
    : Sound [] (s.transmit env p) := by
  have hmem : ∀ q ∈ s.unackedPackets, q = p := by
    simpa [hwindow] using hs.mem
  have hunacked : (s.transmit env p).unackedPackets = [p] := by
    rw [RdtStrategy.unackedPackets_transmit]
    cases hset : s.unackedPackets with
    | nil => rfl
    | cons q rest =>
      have hq : q = p := hmem q (by simp [hset])
      cases rest with
      | nil => simp [OrderedSet.insert, hq]
      | cons r rest =>
        have hr : r = p := hmem r (by simp [hset])
        have hsorted := hs.sorted
        simp [hset, OrderedSet.Sorted, hq, hr] at hsorted
  refine ⟨hs.builder, hs.distinct, ?_, ?_, by simp⟩
  . rw [hunacked]
    exact List.pairwise_singleton _ _
  . rw [hunacked]
    simp [hwindow]

theorem sound_sendPacket_singleton (hs : Sound [] s) (hwindow : s.window = [p]) (env : Env)
    : let t := SelectiveRepeat.sendPacket env s p
      Sound [] t ∧ t.window = [p] := by
  have htransmit := sound_transmit_singleton hs hwindow env
  have hwindow' : (s.transmit env p).window = [p] := by
    rw [RdtStrategy.window_transmit, hwindow]
  simp only [SelectiveRepeat.sendPacket]
  split
  . exact ⟨sound_shrinkWindow htransmit _, window_shrinkWindow_singleton hwindow' _⟩
  . exact ⟨htransmit, hwindow'⟩

theorem not_deleted {moved : List PacketPtr} (hs : Sound moved s) (hp : p ∉ s.popped)
    : deleted s p = false := by
  simp only [deleted, List.any_eq_false, List.mem_cons, decide_eq_true_eq]
  intro q hq
  cases hq with
  | inl heq => exact heq ▸ hp
  | inr hq => exact hs.not_mem_popped hq

theorem inv_front (h : Inv mode c) (ht : c.timer = .front) (hidle : c.worker = .idle) (env : Env)
    : ∃ p, let s := SelectiveRepeat.shrinkWindow c.strategy 1
      s.window = [p] ∧ deleted s p = false
        ∧ Inv mode { c with strategy := SelectiveRepeat.sendPacket env s p, timer := .test } := by
  have hs := h.sound
  have hf := h.worker
  have htimer := h.timer
  rw [hidle] at hs hf
  rw [ht] at htimer
  obtain ⟨hmode, hne⟩ := htimer
  obtain ⟨p, rest, hcons⟩ := List.exists_cons_of_ne_nil hne
  have hwindow : (SelectiveRepeat.shrinkWindow c.strategy 1).window = [p] := by
    rw [SelectiveRepeat.window_shrinkWindow, hcons]
    rfl
  have hshrunk := sound_shrinkWindow hs 1
  obtain ⟨hsend, hwindow'⟩ := sound_sendPacket_singleton hshrunk hwindow env
  have hacked : (SelectiveRepeat.sendPacket env (SelectiveRepeat.shrinkWindow c.strategy 1) p).heap.isAcked p
      = false := by
    rw [SelectiveRepeat.isAcked_sendPacket, SelectiveRepeat.heap_shrinkWindow]
    apply hf
    simp [hcons]
  refine ⟨p, hwindow, ?_, h.fault_eq, ?_, ?_, ?_, by simp [hmode], trivial, False.elim⟩
  . exact not_deleted hshrunk (fun hp => hshrunk.addr_popped_ne hp (by simp [hwindow]) rfl)
  . simp only [hidle]
    exact hsend
  . intro q hq hq'
    have heq : q = p := by
      simpa [hwindow'] using hsend.mem q hq
    rw [heq] at hq'
    exact absurd (hq'.symm.trans hacked) (by simp)
  . simp only [hidle]
    intro q hq
    simp only [hwindow', List.head?_cons, Option.mem_some] at hq
    rw [← hq]
    exact hacked

theorem Single.congr (h : Single s) (hwindow : t.window = s.window) (haux : t.auxWindow = s.auxWindow)
    (hpending : t.pending = s.pending) (hacked : ∀ q, t.heap.isAcked q = s.heap.isAcked q)
    : Single t := by
  refine ⟨hwindow ▸ h.length_window_le, haux ▸ h.auxWindow_eq, ?_⟩
  rw [hpending]
  intro q hq
  rw [hacked]
  exact h.pending q hq

theorem WorkerInv.congr (h : WorkerInv mode s w) (hwindow : t.window = s.window)
    (hacked : ∀ q, t.heap.isAcked q = s.heap.isAcked q)
    (hset : ∀ p tripleDupAck, w = .insert p tripleDupAck → ∀ q ∈ t.unackedPackets, q.addr ≠ p.addr)
    : WorkerInv mode t w := by
  have hfront (hf : Front s) : Front t := by
    intro q hq
    rw [hacked]
    exact hf q (hwindow ▸ hq)
  have hhead {p : PacketPtr} (hf : ∀ q ∈ s.window.head?, s.heap.isAcked q = true → q = p)
      : ∀ q ∈ t.window.head?, t.heap.isAcked q = true → q = p := by
    intro q hq
    rw [hacked]
    exact hf q (hwindow ▸ hq)
  cases w with
  | idle => exact hfront h
  | erase p => exact ⟨hwindow ▸ h.1, hhead h.2⟩
  | advance p => exact ⟨hwindow ▸ h.1, hhead h.2⟩
  | insert p b =>
    obtain ⟨hf, hdup, hmem, hp, _⟩ := h
    exact ⟨hfront hf, hdup, hwindow ▸ hmem, (hacked p).trans hp, hset p b rfl⟩
  | sent b => exact ⟨hfront h.1, h.2.1, hwindow ▸ h.2.2⟩
  | shrink moved => exact ⟨hfront h.1, h.2.1, hwindow ▸ h.2.2⟩

theorem inv_timer (h : Inv mode c) {timer : Timer} (hs : Sound c.worker.moved t)
    (hwindow : t.window = c.strategy.window) (haux : t.auxWindow = c.strategy.auxWindow)
    (hpending : t.pending = c.strategy.pending)
    (hacked : ∀ q, t.heap.isAcked q = c.strategy.heap.isAcked q)
    (hset : ∀ q ∈ t.unackedPackets, q ∈ c.strategy.unackedPackets
      ∨ ((c.strategy.heap.isAcked q = false ∨ c.worker = .erase q)
        ∧ ∀ p tripleDupAck, c.worker = .insert p tripleDupAck → p.addr ≠ q.addr))
    (ht : TimerInv mode t c.worker timer) (hr : timer.Relies mode → t.unackedPackets ≠ [])
    : Inv mode { c with strategy := t, timer } := by
  refine ⟨h.fault_eq, hs, ?_, h.worker.congr hwindow hacked ?_,
    fun hm => (h.single hm).congr hwindow haux hpending hacked, ht, hr⟩
  . intro q hq hq'
    rw [hacked] at hq'
    cases hset q hq with
    | inl hq => exact h.acked q hq hq'
    | inr hq =>
      apply hq.1.resolve_left
      simp [hq']
  . intro p b hw q hq
    cases hset q hq with
    | inl hq =>
      have hworker := h.worker
      rw [hw] at hworker
      exact hworker.2.2.2.2 q hq
    | inr hq => exact (hq.2 p b hw).symm

theorem chosen_of_mem (hmode : mode ≠ .goBackN) (h : Inv mode c) (hp : p ∈ c.strategy.unackedPackets)
    : Chosen mode c.strategy c.worker p := by
  have hworker := h.worker
  have hmem := h.sound.mem p hp
  cases mode with
  | stopAndWait =>
    refine ⟨hmem.resolve_right ?_, ?_⟩
    . cases hw : c.worker with
      | shrink moved =>
        rw [hw] at hworker
        exact absurd hworker.2.1 (by simp)
      | _ => simp [Worker.moved]
    . intro q b hw
      rw [hw] at hworker
      exact (hworker.2.2.2.2 p hp).symm
  | selectiveRepeat =>
    refine ⟨h.sound.not_mem_popped hp, ?_⟩
    cases hw : c.worker with
    | shrink moved =>
      rw [hw] at hworker
      exact hworker.2.2
    | _ =>
      simp only [hw, Worker.moved, List.not_mem_nil, or_false] at hmem
      exact List.ne_nil_of_mem hmem
  | goBackN => contradiction

theorem Chosen.congr (h : Chosen mode s w p) (hwindow : t.window = s.window)
    (hpopped : t.popped = s.popped)
    : Chosen mode t w p := by
  cases mode with
  | stopAndWait => exact ⟨hwindow ▸ h.1, h.2⟩
  | selectiveRepeat => exact ⟨hpopped ▸ h.1, hwindow ▸ h.2⟩
  | goBackN => exact h

theorem inv_stepTimer (hmode : mode ≠ .goBackN) (h : Inv mode c) (hc : Undisturbed mode c .timer)
    (hstep : stepTimer mode env c = some c')
    : Inv mode c' := by
  have hs := h.sound
  have htimer := h.timer
  have hrelied := h.relied
  unfold stepTimer at hstep
  cases ht : c.timer with
  | test =>
    simp only [ht, Option.some.injEq] at hstep
    subst hstep
    apply inv_timer h hs rfl rfl rfl (fun _ => rfl) (fun _ hq => .inl hq)
    . split <;> trivial
    . split
      . exact False.elim
      . next hempty => exact fun _ => by simpa using hempty
  | begin =>
    have hset := hrelied (by rw [ht]; trivial)
    obtain ⟨p, rest, hcons⟩ := List.exists_cons_of_ne_nil hset
    simp only [ht, hcons, Option.some.injEq] at hstep
    subst hstep
    apply inv_timer h hs rfl rfl rfl (fun _ => rfl) (fun _ hq => .inl hq)
    . exact chosen_of_mem hmode h (by simp [hcons])
    . exact fun _ => hset
  | compare p =>
    rw [ht] at htimer
    have hchosen : Chosen mode c.strategy c.worker p := htimer
    simp only [ht, hchosen.not_mem_popped hs, ↓reduceIte, Option.some.injEq] at hstep
    subst hstep
    apply inv_timer (t := { c.strategy with clockReads := c.strategy.clockReads + 1 }) h
      (hs.congr rfl rfl rfl rfl rfl rfl rfl) rfl rfl rfl (fun _ => rfl) (fun _ hq => .inl hq)
    . split
      . exact hchosen.congr rfl rfl
      . trivial
    . split
      . exact fun hr => hrelied (by rw [ht]; exact hr)
      . exact False.elim
  | erase p =>
    rw [ht] at htimer
    have hchosen : Chosen mode c.strategy c.worker p := htimer
    have hset : ¬ (mode = .selectiveRepeat ∧ c.strategy.unackedPackets = []) :=
      fun hempty => hrelied (by rw [ht]; exact hempty.1) hempty.2
    simp only [ht, if_neg hset, not_deleted hs (hchosen.not_mem_popped hs), Bool.false_eq_true,
      ↓reduceIte, Option.some.injEq] at hstep
    subst hstep
    apply inv_timer h (hs.eraseUnacked p) rfl rfl rfl (fun _ => rfl)
      (fun _ hq => .inl (List.mem_of_mem_filter hq))
    . cases mode with
      | stopAndWait =>
        refine ⟨rfl, hchosen.congr rfl rfl, ?_⟩
        intro q hq haddr
        rw [RdtStrategy.unackedPackets_eraseUnacked, OrderedSet.mem_erase] at hq
        have hwindow := (chosen_of_mem hmode h hq.1).1
        exact hq.2 (congrArg _ (hs.eq_of_addr_eq hwindow hchosen.1 haddr))
      | selectiveRepeat => exact ⟨rfl, hchosen.2⟩
      | goBackN => contradiction
    . split <;> exact False.elim
  | send p =>
    rw [ht] at htimer
    obtain ⟨hm, hchosen, hset⟩ := htimer
    simp only [ht, hchosen.not_mem_popped hs, ↓reduceIte, Option.some.injEq] at hstep
    subst hstep
    apply inv_timer h (hs.stamp env hset) rfl rfl rfl _ (fun _ hq => .inl hq)
    . exact ⟨hm, hchosen.congr rfl rfl, hset⟩
    . exact False.elim
    . simp [RdtStrategy.stamp, RdtStrategy.setTimeStamp]
  | insert p =>
    rw [ht] at htimer
    obtain ⟨hm, hchosen, _⟩ := htimer
    simp only [ht, not_deleted hs (hchosen.not_mem_popped hs), Bool.false_eq_true, ↓reduceIte,
      Option.some.injEq] at hstep
    subst hstep
    subst hm
    simp only [Undisturbed, ht] at hc
    apply inv_timer h (hs.insertUnacked hchosen.1) rfl rfl rfl (fun _ => rfl)
    . intro q hq
      cases OrderedSet.mem_or_eq_of_mem_insert hq with
      | inl heq => exact .inr (heq ▸ ⟨hc, hchosen.2⟩)
      | inr hq => exact .inl hq
    . trivial
    . exact False.elim
  | list =>
    rw [ht] at htimer
    simp only [ht, if_neg htimer.2, Option.ite_none_right_eq_some, Option.some.injEq] at hstep
    obtain ⟨_, rfl⟩ := hstep
    exact inv_timer h hs rfl rfl rfl (fun _ => rfl) (fun _ hq => .inl hq) htimer False.elim
  | front =>
    simp only [ht, Option.ite_none_right_eq_some] at hstep
    obtain ⟨hidle, hstep⟩ := hstep
    obtain ⟨p, hwindow, hdeleted, hinv⟩ := inv_front h ht hidle env
    simp only [hwindow, hdeleted, Bool.false_eq_true, ↓reduceIte, Option.some.injEq] at hstep
    exact hstep ▸ hinv

theorem mem_of_find {ackPkt : AckPacket} (h : find mode s ackPkt = some p)
    : p ∈ s.window ∧ s.heap.isAcked p = false := by
  unfold find at h
  split at h
  . contradiction
  . split at h
    . next q hfind =>
      simp only [Option.ite_none_left_eq_some, Bool.not_eq_true, Option.some.injEq] at h
      obtain ⟨hacked, rfl⟩ := h
      exact ⟨List.mem_of_find?_eq_some hfind, hacked⟩
    . contradiction

theorem inv_setAck (h : Inv mode c) (hidle : c.worker = .idle) (hp : p ∈ c.strategy.window)
    : Inv mode { c with strategy := c.strategy.setAck p true, worker := .erase p } := by
  have hs := h.sound
  have hf := h.worker
  rw [hidle] at hs hf
  have hacked {q : PacketPtr} (hq : q ∈ c.strategy.window)
      (hacked : (c.strategy.setAck p true).heap.isAcked q = true)
      : q = p ∨ c.strategy.heap.isAcked q = true := by
    rw [RdtStrategy.heap_setAck, Heap.isAcked_setAck] at hacked
    split at hacked
    . next haddr => exact .inl (hs.eq_of_addr_eq hq hp haddr)
    . exact .inr hacked
  refine ⟨h.fault_eq, hs.setAck p true, ?_, ⟨hp, ?_⟩, ?_, ?_, h.relied⟩
  . intro q hq hq'
    have hwindow : q ∈ c.strategy.window := by
      simpa [Worker.moved] using hs.mem q hq
    cases hacked hwindow hq' with
    | inl heq => exact heq ▸ rfl
    | inr hq' =>
      have := h.acked q hq hq'
      simp [hidle] at this
  . intro q hq hq'
    apply (hacked (List.mem_of_head? hq) hq').resolve_right
    simp [hf q hq]
  . intro hm
    refine ⟨(h.single hm).length_window_le, (h.single hm).auxWindow_eq, ?_⟩
    intro q hq
    have hdistinct := hs.distinct
    rw [List.pairwise_append, List.pairwise_append] at hdistinct
    have hne := hdistinct.2.1.2.2 p hp q (List.mem_append_right _ hq)
    rw [RdtStrategy.heap_setAck, Heap.isAcked_setAck, if_neg hne.symm]
    exact (h.single hm).pending q hq
  . apply timerInv_of_subset (t := c.strategy.setAck p true) h.timer rfl rfl (fun _ hq => hq)
    simp

theorem inv_step (hmode : mode ≠ .goBackN) {e : Event} (h : Inv mode c) (hc : Undisturbed mode c e)
    (hstep : step mode env c e = some c')
    : Inv mode c' := by
  unfold step at hstep
  rw [if_neg (by simp [h.fault_eq])] at hstep
  cases e with
  | acknowledge ackPkt =>
    simp only [Option.ite_none_right_eq_some] at hstep
    obtain ⟨hidle, hstep⟩ := hstep
    split at hstep
    . next p hfind =>
      cases hstep
      exact inv_setAck h hidle (mem_of_find hfind).1
    . cases hstep
      exact h
  | worker =>
    simp only [Option.ite_none_left_eq_some, Option.some.injEq] at hstep
    obtain ⟨hidle, rfl⟩ := hstep
    exact inv_stepWorker hmode h hidle hc
  | timer => exact inv_stepTimer hmode h hc hstep

theorem sound_of_inv {first : UInt32} {file : Bytes} (h : s.Inv first file)
    (hunacked : s.unackedPackets = [])
    : Sound [] s := by
  refine ⟨h.builder, h.pairwise_addr.imp (fun hlt => Nat.ne_of_lt hlt), ?_, ?_, by simp⟩
  . rw [hunacked]
    exact List.Pairwise.nil
  . simp [hunacked]

theorem inv_init (hmode : mode ≠ .goBackN) (env : Env) (file : Bytes) (nextSeqNumber : UInt32)
    (maxWindowSize threshold : Int)
    : Inv mode (init mode env file nextSeqNumber maxWindowSize threshold) := by
  generalize hs : mode.newStrategy (File.regular file) nextSeqNumber maxWindowSize threshold = s
  have hspec : ∃ maxWindowSize threshold, s.Inv 1 file ∧ s.IsNew 1 maxWindowSize threshold := by
    rw [← hs]
    cases mode with
    | stopAndWait => exact ⟨_, _, RdtStrategy.new_spec 1 file _ _ (by decide) (by decide)⟩
    | selectiveRepeat => exact ⟨_, _, RdtStrategy.new_spec 1 file _ _ (by decide) (by decide)⟩
    | goBackN => contradiction
  obtain ⟨_, _, hinv, hnew⟩ := hspec
  have hsound := sound_of_inv hinv hnew.unackedPackets_eq
  have hlen := hnew.length_window_le
  have hacked (p : PacketPtr) : s.heap.isAcked p = false := by
    simp [hnew.heap_eq, Heap.isAcked]
  suffices Sound [] (mode.start env s) ∧ (∀ p, (mode.start env s).heap.isAcked p = false)
      ∧ (mode = .stopAndWait → Single (mode.start env s)) by
    obtain ⟨hsound, hacked, hsingle⟩ := this
    simp only [init, hs]
    refine ⟨rfl, hsound, ?_, ?_, hsingle, trivial, False.elim⟩
    . simp [hacked]
    . exact fun p _ => hacked p
  have hsingle : Single s := ⟨hlen, hnew.auxWindow_eq, fun p _ => hacked p⟩
  cases mode with
  | stopAndWait =>
    simp only [Mode.start, StopAndWait.start]
    cases hwindow : s.window with
    | nil => exact ⟨hsound, hacked, fun _ => hsingle⟩
    | cons p rest =>
      rw [hwindow, List.length_cons] at hlen
      have hrest : rest = [] := List.length_eq_zero_iff.mp (Nat.le_zero.mp (Nat.le_of_succ_le_succ hlen))
      subst hrest
      have hacked' (q : PacketPtr) : (s.transmit env p).heap.isAcked q = s.heap.isAcked q := by
        rw [RdtStrategy.heap_transmit, Heap.isAcked_setTimeStamp]
      refine ⟨sound_transmit_singleton hsound hwindow env, fun q => (hacked' q).trans (hacked q), ?_⟩
      exact fun _ => hsingle.congr rfl rfl rfl hacked'
  | selectiveRepeat =>
    simp only [Mode.start]
    cases SelectiveRepeat.start_cases env hlen with
    | inl heq =>
      rw [heq.1]
      exact ⟨hsound, hacked, by simp⟩
    | inr hex =>
      obtain ⟨p, hwindow, heq⟩ := hex
      rw [heq]
      refine ⟨(sound_sendPacket_singleton hsound hwindow env).1, ?_, by simp⟩
      simpa using hacked
  | goBackN => contradiction

theorem fault_eq_none_of_reachableWhen (hmode : mode ≠ .goBackN) {file : Bytes}
    {nextSeqNumber : UInt32} {maxWindowSize threshold : Int}
    (h : StepFn.ReachableWhen (step mode env) (Undisturbed mode)
      (init mode env file nextSeqNumber maxWindowSize threshold) c)
    : c.fault = none := by
  have : Inv mode c := by
    apply h.invariant (inv_init hmode env file nextSeqNumber maxWindowSize threshold)
    intro c e c' hinv hc hstep
    exact inv_step hmode hinv hc hstep
  exact this.fault_eq

def sampleEnv : Env :=
  {
    now := fun i => i * PACKET_TIME_OUT
    tripleDupAck := fun _ => false
  }

def sampleState : State :=
  (StepFn.run (StepFn.guarded (step .stopAndWait sampleEnv) (Undisturbed .stopAndWait))
    (init .stopAndWait sampleEnv [7] 1 1 0)
    [
      .timer, .timer, .timer, .timer, .timer, .timer, .acknowledge (AckPacket.new 1), .worker, .timer,
      .worker, .timer
    ]).get (by decide +kernel)

theorem fault_eq_none_sampleState : sampleState.fault = none := by
  have hreach : StepFn.ReachableWhen (step .stopAndWait sampleEnv) (Undisturbed .stopAndWait)
      (init .stopAndWait sampleEnv [7] 1 1 0) sampleState := by
    apply StepFn.reachableWhen_of_guarded
    apply StepFn.reachable_get_run
  exact fault_eq_none_of_reachableWhen (by decide) hreach

theorem fault_of_one_packet
    : (∃ c, StepFn.Reachable (step .selectiveRepeat sampleEnv)
          (init .selectiveRepeat sampleEnv [7] 1 4 0) c
        ∧ c.fault = some .emptySet)
      ∧ (∃ c, StepFn.Reachable (step .selectiveRepeat sampleEnv)
          (init .selectiveRepeat sampleEnv [7] 1 4 0) c
        ∧ c.fault = some .emptyString ∧ c.strategy.unackedPackets = [] ∧ c.strategy.window ≠ [])
      ∧ (∃ c, StepFn.Reachable (step .selectiveRepeat sampleEnv)
          (init .selectiveRepeat sampleEnv [7] 1 4 0) c
        ∧ c.fault = some .emptyString ∧ c.timer = .list ∧ c.strategy.window = [])
      ∧ (∃ c, StepFn.Reachable (step .selectiveRepeat sampleEnv)
          (init .selectiveRepeat sampleEnv [7] 1 4 0) c
        ∧ c.fault = some .emptyWindow)
      ∧ (∃ c, StepFn.Reachable (step .stopAndWait sampleEnv) (init .stopAndWait sampleEnv [7] 1 1 0) c
        ∧ c.fault = some .deleted) := by
  refine ⟨⟨_, StepFn.reachable_get_run
      [.timer, .acknowledge (AckPacket.new 1), .worker, .timer] (by decide +kernel), ?_⟩,
    ⟨_, StepFn.reachable_get_run
      [.timer, .timer, .timer, .acknowledge (AckPacket.new 1), .worker, .timer] (by decide +kernel), ?_⟩,
    ⟨_, StepFn.reachable_get_run
      [.timer, .timer, .timer, .timer, .acknowledge (AckPacket.new 1), .worker, .worker, .timer]
      (by decide +kernel), ?_⟩,
    ⟨_, StepFn.reachable_get_run
      [.timer, .timer, .timer, .timer, .timer, .acknowledge (AckPacket.new 1), .worker, .worker, .timer]
      (by decide +kernel), ?_⟩,
    ⟨_, StepFn.reachable_get_run
      [.timer, .timer, .acknowledge (AckPacket.new 1), .worker, .worker, .timer] (by decide +kernel),
      ?_⟩⟩
  . decide +kernel
  . decide +kernel
  . decide +kernel
  . decide +kernel
  . decide +kernel

end Interleaving
