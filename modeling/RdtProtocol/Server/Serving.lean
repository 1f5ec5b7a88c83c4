import RdtProtocol.Server.BasicLemmas
import RdtProtocol.Server.PacketSenderLemmas
import RdtProtocol.Server.Strategy.Unanswered

/-!
This module contains what a worker does that has been dispatched for a file with something to send, as long
as it has no ACK for a packet of its first window.
-/

namespace Server

def Matches (mode : Mode) (window : List PacketPtr) (ack : AckPacket) : Prop :=
  (mode = .selectiveRepeat → ack.cksum = ack.calculateChecksum)
    ∧ ∃ p ∈ window, p.packet.seqno = ack.ackno

def Config.firstWindow (cfg : Config) (id : Nat) (file : File) : List PacketPtr :=
  cfg.mode.firstWindow (cfg.nextSeqNumber id) file.content

structure Serving (cfg : Config) (id : Nat) (file : File) (rdt : RdtStrategy) : Prop where
  window_eq : rdt.window = cfg.firstWindow id file
  popped_eq : rdt.popped = []
  isAcked : ∀ p, rdt.heap.isAcked p = false
  unackedPackets : rdt.unackedPackets ≠ []

variable {cfg : Config} {id : Nat} {file : File} {rdt next : RdtStrategy} {ack : AckPacket}
variable {s : Server} {u : Worker}

theorem acknowledged_eq_nil_iff {mode : Mode} (hacked : ∀ p, rdt.heap.isAcked p = false)
    : acknowledged mode rdt ack = [] ↔ ¬ Matches mode rdt.window ack := by
  have hfind : (rdt.window.find? (fun p => ack.ackno = p.packet.seqno)).toList = []
      ↔ ¬ ∃ p ∈ rdt.window, p.packet.seqno = ack.ackno := by
    rw [Option.toList_eq_nil_iff, List.find?_eq_none]
    simp only [decide_eq_true_eq, not_exists, not_and]
    exact ⟨fun h p hp heq => h p hp heq.symm, fun h p hp heq => h p hp heq.symm⟩
  have hsome (h : ¬ (mode = .selectiveRepeat ∧ ack.cksum ≠ ack.calculateChecksum))
      : Interleaving.find mode rdt ack
        = rdt.window.find? (fun p => ack.ackno = p.packet.seqno) := by
    rw [Interleaving.find, if_neg h]
    cases rdt.window.find? (fun p => ack.ackno = p.packet.seqno) <;> simp [hacked]
  unfold acknowledged Matches
  cases mode with
  | stopAndWait =>
    dsimp only
    rw [hsome (by simp), hfind]
    simp
  | selectiveRepeat =>
    dsimp only
    by_cases hcksum : ack.cksum = ack.calculateChecksum
    . rw [hsome (by simp [hcksum]), hfind]
      simp [hcksum]
    . simp [Interleaving.find, hcksum]
  | goBackN =>
    dsimp only
    split
    . next i hi =>
      obtain ⟨hlt, hp, _⟩ := List.findIdx?_eq_some_iff_getElem.mp hi
      simp only [decide_eq_true_eq] at hp
      have hne : rdt.window ≠ [] := List.ne_nil_of_length_pos (by omega)
      simp only [List.reverse_eq_nil_iff, List.take_eq_nil_iff, hne, reduceCtorEq, false_implies,
        true_and, or_self, false_iff, not_not]
      exact ⟨rdt.window[i], List.getElem_mem hlt, hp.symm⟩
    . next hi =>
      have := List.findIdx?_eq_none_iff.mp hi
      simp only [true_iff, reduceCtorEq, false_implies, true_and, not_exists, not_and]
      intro p hp heq
      have := this p hp
      simp [heq] at this

theorem length_firstWindow_le (cfg : Config) (id : Nat) (file : File)
    (hmode : cfg.mode = .selectiveRepeat)
    : (cfg.firstWindow id file).length ≤ 1 := by
  have hsize : cfg.mode.firstWindowSize.toNat = 1 := by
    rw [hmode]
    rfl
  exact hsize ▸ cfg.mode.length_firstWindow_le (cfg.nextSeqNumber id) file.content

theorem window_newStrategy (cfg : Config) (id : Nat) (hsize : 0 < file.size)
    (hreadable : file.Readable cfg.mode.firstWindowSize)
    : (cfg.newStrategy id file).ranDry = false
        ∧ (cfg.newStrategy id file).window = cfg.firstWindow id file := by
  obtain ⟨hdry, hwindow⟩ := cfg.mode.newStrategy_of_size_pos (cfg.nextSeqNumber id) cfg.maxWindowSize
    cfg.threshold hsize
  have hdry : (cfg.newStrategy id file).ranDry = false := by
    rw [← Bool.not_eq_true]
    exact hdry.not.mpr (not_not.mpr hreadable)
  exact ⟨hdry, hwindow hdry⟩

theorem serving_start (cfg : Config) (id : Nat) (hsize : 0 < file.size)
    (hreadable : file.Readable cfg.mode.firstWindowSize)
    : Serving cfg id file (cfg.start id file)
        ∧ (cfg.start id file).sent = cfg.firstWindow id file := by
  obtain ⟨_, hwindow⟩ := window_newStrategy cfg id hsize hreadable
  obtain ⟨_, hpopped, hsent, hheap⟩ := cfg.mode.newStrategy_spec (cfg.nextSeqNumber id)
    cfg.maxWindowSize cfg.threshold file
  have hlen : cfg.mode = .selectiveRepeat → (cfg.newStrategy id file).window.length ≤ 1 := by
    rw [hwindow]
    exact length_firstWindow_le cfg id file
  have hstart := Mode.sends_start hlen (cfg.env id)
  rw [hwindow] at hstart
  refine ⟨⟨hstart.window_eq.trans hwindow, hstart.popped_eq.trans hpopped, ?_, ?_⟩, ?_⟩
  . intro p
    rw [Config.start, hstart.isAcked_eq, Config.newStrategy, hheap]
    rfl
  . exact hstart.unackedPackets (.inl (cfg.mode.firstWindow_ne_nil _ hsize hreadable))
  . rw [Config.start, hstart.sent_eq, Config.newStrategy, hsent, List.nil_append]

theorem sends_timer (htimer : timer cfg id rdt = some next) (hwindow : rdt.window ≠ [])
    (hlen : cfg.mode = .selectiveRepeat → rdt.window.length ≤ 1)
    : ∃ p, rdt.Sends next [p] := by
  unfold timer at htimer
  cases hunacked : rdt.unackedPackets with
  | nil => simp [hunacked] at htimer
  | cons p rest =>
    cases hmode : cfg.mode with
    | stopAndWait =>
      simp only [hunacked, hmode, Option.some.injEq, Mode.handleTimeOut,
        StopAndWait.handleTimeOut] at htimer
      subst htimer
      obtain ⟨h1, h2, h3, h4, h5⟩ := (rdt.eraseUnacked p).sends_transmit (cfg.env id) p
      exact ⟨p, h1, h2, h3, h4, fun _ => h5 (.inl (by simp))⟩
    | selectiveRepeat =>
      simp only [hunacked, hmode, Option.some.injEq, Mode.handleTimeOut,
        SelectiveRepeat.handleTimeOut, SelectiveRepeat.timeOut] at htimer
      have hlen := hlen hmode
      obtain ⟨hshrunk, _⟩ :=
        SelectiveRepeat.shrinkWindow_of_length_le (s := rdt.eraseUnacked p) hlen 1
      rw [RdtStrategy.window_eraseUnacked] at hshrunk
      rw [hshrunk] at htimer
      split at htimer
      . contradiction
      . next q _ heq =>
        subst htimer
        have hlen' : (SelectiveRepeat.shrinkWindow (rdt.eraseUnacked p) 1).window.length ≤ 1 := by
          rw [hshrunk]
          exact hlen
        obtain ⟨h1, _, _, _, h5⟩ := SelectiveRepeat.sends_sendPacket hlen' (cfg.env id) q
        refine ⟨q, h1.trans hshrunk, ?_, ?_, ?_, fun _ => h5 (.inl (by simp))⟩
        . simp
        . simp
        . simp
    | goBackN =>
      simp only [hunacked, hmode, Option.some.injEq] at htimer
      subst htimer
      refine ⟨p, rfl, rfl, rfl, ?_, ?_⟩
      . simp [GoBackN.timeOut, RdtStrategy.stamp, RdtStrategy.setTimeStamp]
      . intro _
        change rdt.unackedPackets ≠ []
        simp [hunacked]

theorem Serving.of_sends {sent : List PacketPtr} (h : Serving cfg id file rdt)
    (hsends : rdt.Sends next sent)
    : Serving cfg id file next :=
  ⟨hsends.window_eq.trans h.window_eq, hsends.popped_eq.trans h.popped_eq,
    fun p => (hsends.isAcked_eq p).trans (h.isAcked p), hsends.unackedPackets (.inr h.unackedPackets)⟩

theorem Serving.timerFails_eq (h : Serving cfg id file rdt) (hwindow : cfg.firstWindow id file ≠ [])
    : timerFails cfg.mode rdt = false := by
  rw [← h.window_eq] at hwindow
  have hunacked := h.unackedPackets
  unfold timerFails
  cases cfg.mode <;> simp [h.popped_eq, hwindow, hunacked]

theorem Serving.acknowledged_eq (h : Serving cfg id file rdt)
    : acknowledged cfg.mode rdt ack = [] ↔ ¬ Matches cfg.mode (cfg.firstWindow id file) ack := by
  rw [acknowledged_eq_nil_iff h.isAcked, h.window_eq]

theorem Serving.isDone_eq (h : Serving cfg id file rdt) (hwindow : cfg.firstWindow id file ≠ [])
    : rdt.isDone = false := by
  simpa [RdtStrategy.isDone, h.window_eq] using hwindow

theorem Serving.exists_timer (h : Serving cfg id file rdt)
    : ∃ next, timer cfg id rdt = some next := by
  unfold timer
  cases hunacked : rdt.unackedPackets with
  | nil => exact absurd hunacked h.unackedPackets
  | cons p rest => cases cfg.mode <;> exact ⟨_, rfl⟩

end Server
