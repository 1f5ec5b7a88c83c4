import RdtProtocol.Server.Strategy.SelectiveRepeatLemmas
import RdtProtocol.Util.StepFn

/-!
This module contains the loop of `expand_window` one iteration after the other. The packets come from
any source in place of the reader of a file, such as one that never runs out of them.
-/

namespace SelectiveRepeat

structure Bounded (s : RdtStrategy) : Prop where
  one_le : 1 ≤ s.windowSize
  length_le : (s.window.length : Int) ≤ s.windowSize

theorem bounded_shrinkWindow (s : RdtStrategy) (newSize : Int) : Bounded (shrinkWindow s newSize) := by
  have hone : 1 ≤ (shrinkWindow s newSize).windowSize := by
    rw [windowSize_shrinkWindow]
    split <;> omega
  refine ⟨hone, ?_⟩
  rw [window_shrinkWindow, ← windowSize_shrinkWindow s newSize, List.length_take,
    sizeT_of_nonneg (by omega)]
  omega

theorem bounded_sendPacket {s : RdtStrategy} (h : Bounded s) (env : Env) (p : PacketPtr)
    : Bounded (sendPacket env s p) := by
  cases sendPacket_cases env s p with
  | inl heq =>
    rw [heq]
    exact ⟨h.one_le, h.length_le⟩
  | inr heq =>
    rw [heq]
    apply bounded_shrinkWindow

theorem bounded_pushAndSend {s : RdtStrategy} (h : Bounded s)
    (hlt : s.window.length < sizeT s.windowSize) (env : Env) (p : PacketPtr)
    : Bounded (pushAndSend env s p) := by
  have hone := h.one_le
  rw [sizeT_of_nonneg (by omega)] at hlt
  apply bounded_sendPacket
  constructor
  . exact hone
  . simp only [RdtStrategy.window_setAck, RdtStrategy.windowSize_setAck, List.length_append,
      List.length_singleton]
    omega

theorem head?_pushAndSend (env : Env) (s : RdtStrategy) (p : PacketPtr)
    : (pushAndSend env s p).window.head? = (s.window ++ [p]).head? := by
  simp [pushAndSend]

section

variable (s : RdtStrategy) (b : PacketBuilder)

def withBuilder : RdtStrategy :=
  { s with pktBuilder := b }

theorem shrinkWindow_withBuilder (newSize : Int)
    : shrinkWindow (withBuilder s b) newSize = withBuilder (shrinkWindow s newSize) b := by
  rw [shrinkWindow_eq, shrinkWindow_eq]
  rfl

theorem sendPacket_withBuilder (env : Env) (p : PacketPtr)
    : sendPacket env (withBuilder s b) p = withBuilder (sendPacket env s p) b := by
  have htriple : (withBuilder s b).tripleDupAck env = s.tripleDupAck env := rfl
  have htransmit : (withBuilder s b).transmit env p = withBuilder (s.transmit env p) b := rfl
  unfold sendPacket
  dsimp only
  rw [htriple, htransmit]
  split
  . apply shrinkWindow_withBuilder
  . rfl

theorem pushAndSend_withBuilder (env : Env) (p : PacketPtr)
    : pushAndSend env (withBuilder s b) p = withBuilder (pushAndSend env s p) b := by
  unfold pushAndSend
  dsimp only
  rw [← sendPacket_withBuilder]
  rfl

end

/--
`packet_builder` as the loop sees it, which calls `get_next_packet` only after `has_next`.
-/
structure PacketSource (β : Type) where
  hasNext : β → Bool
  getNextPacket (b : β) (nextSeqNum : UInt32) (h : hasNext b = true) : PacketPtr × β × UInt32

namespace PacketSource

variable {β : Type}

structure State (β : Type) where
  strategy : RdtStrategy
  builder : β

def State.window (t : State β) : List PacketPtr :=
  t.strategy.window

def State.windowSize (t : State β) : Int :=
  t.strategy.windowSize

def takeNext (src : PacketSource β) (t : State β) : Option (PacketPtr × State β) :=
  match t.strategy.auxWindow with
  | p :: aux => some (p, { t with strategy := { t.strategy with auxWindow := aux } })
  | [] =>
    if h : src.hasNext t.builder then
      let next := src.getNextPacket t.builder t.strategy.nextSeqNumber h
      some (
        next.1,
        { strategy := { t.strategy with nextSeqNumber := next.2.2 }, builder := next.2.1 }
      )
    else
      none

-- One iteration of the loop of `expand_window`, undefined where its condition does not hold.
def expandStep (src : PacketSource β) (env : Env) (t : State β) (_ : Unit) : Option (State β) :=
  if t.window.length < sizeT t.windowSize then
    (src.takeNext t).map (fun next =>
      { next.2 with strategy := pushAndSend env next.2.strategy next.1 })
  else
    none

variable {src : PacketSource β} {env : Env} {t u : State β} {p : PacketPtr}

theorem takeNext_eq_none_iff
    : src.takeNext t = none ↔ t.strategy.auxWindow = [] ∧ src.hasNext t.builder = false := by
  unfold takeNext
  split
  . next haux => simp [haux]
  . next haux => by_cases h : src.hasNext t.builder = true <;> simp [haux, h]

theorem takeNext_window (h : src.takeNext t = some (p, u))
    : u.window = t.window ∧ u.windowSize = t.windowSize := by
  unfold takeNext at h
  split at h
  . cases h
    exact ⟨rfl, rfl⟩
  . split at h
    . cases h
      exact ⟨rfl, rfl⟩
    . contradiction

theorem expandStep_eq_some (h : src.expandStep env t () = some u)
    : t.window.length < sizeT t.windowSize
        ∧ ∃ (s : RdtStrategy) (p : PacketPtr), s.window = t.window ∧ s.windowSize = t.windowSize
          ∧ u.strategy = pushAndSend env s p := by
  simp only [expandStep, Option.ite_none_right_eq_some, Option.map_eq_some_iff, Prod.exists] at h
  obtain ⟨hlt, p, t', hnext, rfl⟩ := h
  obtain ⟨hwindow, hsize⟩ := takeNext_window hnext
  exact ⟨hlt, t'.strategy, p, hwindow, hsize, rfl⟩

theorem expandStep_eq_none_iff
    : src.expandStep env t () = none
        ↔ ¬ t.window.length < sizeT t.windowSize
          ∨ t.strategy.auxWindow = [] ∧ src.hasNext t.builder = false := by
  rw [← takeNext_eq_none_iff]
  unfold expandStep
  split
  . next hlt => simp [hlt]
  . next hlt => simp [hlt]

theorem bounded_expandStep (ht : Bounded t.strategy) (h : src.expandStep env t () = some u)
    : Bounded u.strategy
        ∧ sizeT u.windowSize - u.window.length < sizeT t.windowSize - t.window.length := by
  obtain ⟨hlt, s, p, hwindow, hsize, hu⟩ := expandStep_eq_some h
  rw [← hwindow, ← hsize] at hlt ⊢
  unfold State.window State.windowSize
  rw [hu]
  constructor
  . apply bounded_pushAndSend _ hlt
    constructor
    . rw [hsize]
      exact ht.one_le
    . rw [hsize, hwindow]
      exact ht.length_le
  . exact pushAndSend_room_lt env s p hlt

theorem head?_expandStep {q : PacketPtr} (hq : t.window.head? = some q)
    (h : src.expandStep env t () = some u)
    : u.window.head? = some q := by
  obtain ⟨_, s, p, hwindow, _, hu⟩ := expandStep_eq_some h
  rw [State.window, hu, head?_pushAndSend, hwindow, List.head?_append, hq]
  rfl

structure Expands (src : PacketSource β) (env : Env) (t : State β) (n : Nat) (u : State β)
    : Prop where
  run_eq : StepFn.run (src.expandStep env) t (List.replicate n ()) = some u
  ends : src.expandStep env u () = none
  le : (n : Int) ≤ t.windowSize - t.window.length
  filled
    : (u.window.length : Int) = u.windowSize
        ∨ u.strategy.auxWindow = [] ∧ src.hasNext u.builder = false

theorem exists_expands (src : PacketSource β) (env : Env) {t : State β} (ht : Bounded t.strategy)
    : ∃ n u, src.Expands env t n u := by
  obtain ⟨n, hn, u, hrun, hend⟩ := StepFn.exists_run_replicate (e := ())
    (P := fun v : State β => Bounded v.strategy)
    (f := fun v : State β => sizeT v.windowSize - v.window.length)
    (fun _ _ hv hstep => bounded_expandStep hv hstep) ht
  have hu : Bounded u.strategy := StepFn.run_invariant (Q := fun _ => True)
    (P := fun v : State β => Bounded v.strategy)
    (fun _ _ _ hv _ hstep => (bounded_expandStep hv hstep).1) _ (fun _ _ => trivial) ht hrun
  refine ⟨n, u, hrun, hend, ?_, ?_⟩
  . have hone := ht.one_le
    have hle := ht.length_le
    rw [State.windowSize, State.window, sizeT_of_nonneg (by omega)] at hn
    unfold State.windowSize State.window
    omega
  . cases expandStep_eq_none_iff.mp hend with
    | inl hfull =>
      left
      have hone := hu.one_le
      have hle := hu.length_le
      rw [State.windowSize, State.window, sizeT_of_nonneg (by omega)] at hfull
      unfold State.windowSize State.window
      omega
    | inr hexhausted => exact .inr hexhausted

theorem head?_run {q : PacketPtr} (hq : t.window.head? = some q) {n : Nat}
    (h : StepFn.run (src.expandStep env) t (List.replicate n ()) = some u)
    : u.window.head? = some q :=
  StepFn.run_invariant (Q := fun _ => True) (P := fun v : State β => v.window.head? = some q)
    (fun _ _ _ hv _ hstep => head?_expandStep hv hstep) _ (fun _ _ => trivial) hq h

theorem expandWindow_terminates (src : PacketSource β) (env : Env) (t : State β)
    (hone : 1 ≤ t.windowSize) (hle : (t.window.length : Int) ≤ t.windowSize)
    : (∃ n u, src.Expands env t n u)
        ∧ ∀ n u, StepFn.run (src.expandStep env) t (List.replicate n ()) = some u
          → t.window ≠ [] → u.window ≠ [] := by
  constructor
  . exact src.exists_expands env ⟨hone, hle⟩
  . intro n u hrun hne
    obtain ⟨q, rest, hwindow⟩ := List.exists_cons_of_ne_nil hne
    have hq : t.window.head? = some q := by
      rw [hwindow]
      rfl
    have := head?_run hq hrun
    intro hnil
    rw [hnil] at this
    contradiction

def endless : PacketSource Nat :=
  {
    hasNext := fun _ => true
    getNextPacket := fun b n _ => (⟨b, DataPacket.new [0] n⟩, b + 1, n + 1)
  }

def endlessState : State Nat :=
  {
    strategy := {
      pktBuilder := PacketBuilder.new (File.regular []) 1
      nextSeqNumber := 2
      windowSize := 4
      maxWindowSize := 8
      threshold := 4
      window := [⟨0, DataPacket.new [0] 1⟩]
      auxWindow := []
      unackedPackets := []
      heap := fun _ => {}
      popped := []
      sent := []
      clockReads := 0
    }
    builder := 1
  }

theorem expandWindow_endless
    : (∃ n u, endless.Expands { now := id, tripleDupAck := fun _ => true } endlessState n u)
        ∧ ∀ n u,
          StepFn.run (endless.expandStep { now := id, tripleDupAck := fun _ => true }) endlessState
            (List.replicate n ()) = some u
          → endlessState.window ≠ [] → u.window ≠ [] :=
  expandWindow_terminates endless { now := id, tripleDupAck := fun _ => true } endlessState
    (by decide) (by decide)

def ofFile : PacketSource { b : PacketBuilder // b.WF } :=
  {
    hasNext := fun b => b.val.hasNext
    getNextPacket := fun b n h =>
      let next := (b.val.getNextPacket n).get (PacketBuilder.getNextPacket_isSome b.property h n)
      (
        next.1,
        ⟨next.2.1, PacketBuilder.wf_getNextPacket b.property h (Option.some_get _).symm⟩,
        next.2.2
      )
  }

def State.toStrategy (t : State { b : PacketBuilder // b.WF }) : RdtStrategy :=
  withBuilder t.strategy t.builder.val

theorem takeNext_toStrategy (t : State { b : PacketBuilder // b.WF })
    : SelectiveRepeat.takeNext t.toStrategy
        = (ofFile.takeNext t).map (fun next => (next.1, next.2.toStrategy)) := by
  unfold SelectiveRepeat.takeNext takeNext
  have haux : t.toStrategy.auxWindow = t.strategy.auxWindow := rfl
  rw [haux]
  cases t.strategy.auxWindow with
  | cons p aux => rfl
  | nil =>
    dsimp only
    by_cases h : t.builder.val.hasNext = true
    . have h' : ofFile.hasNext t.builder = true := h
      rw [if_pos (show t.toStrategy.pktBuilder.hasNext = true from h), dif_pos h']
      have hsome := PacketBuilder.getNextPacket_isSome t.builder.property h t.strategy.nextSeqNumber
      exact congrArg (Option.map _) (Option.some_get hsome).symm
    . have h' : ¬ ofFile.hasNext t.builder = true := h
      rw [if_neg (show ¬ t.toStrategy.pktBuilder.hasNext = true from h), dif_neg h']
      rfl

theorem expandWindow_expandStep {t u : State { b : PacketBuilder // b.WF }}
    (h : ofFile.expandStep env t () = some u)
    : expandWindow env t.toStrategy = expandWindow env u.toStrategy := by
  simp only [expandStep, Option.ite_none_right_eq_some, Option.map_eq_some_iff, Prod.exists] at h
  obtain ⟨hlt, p, t', hnext, rfl⟩ := h
  have hnext' : SelectiveRepeat.takeNext t.toStrategy = some (p, t'.toStrategy) := by
    rw [takeNext_toStrategy, hnext]
    rfl
  rw [expandWindow_of_some (show t.toStrategy.window.length < sizeT t.toStrategy.windowSize from hlt)
    hnext']
  apply congrArg (expandWindow env)
  apply pushAndSend_withBuilder

theorem Expands.expandWindow_eq {t u : State { b : PacketBuilder // b.WF }} {n : Nat}
    (h : ofFile.Expands env t n u)
    : expandWindow env t.toStrategy = u.toStrategy := by
  have hrun : expandWindow env u.toStrategy = expandWindow env t.toStrategy :=
    StepFn.run_invariant (Q := fun _ => True)
      (P := fun v => expandWindow env v.toStrategy = expandWindow env t.toStrategy)
      (fun _ _ _ hv _ hstep => (expandWindow_expandStep hstep).symm.trans hv) _ (fun _ _ => trivial)
      rfl h.run_eq
  rw [← hrun]
  apply expandWindow_of_none
  rw [takeNext_toStrategy, Option.map_eq_none_iff, takeNext_eq_none_iff]
  exact expandStep_eq_none_iff.mp h.ends

end PacketSource

end SelectiveRepeat
