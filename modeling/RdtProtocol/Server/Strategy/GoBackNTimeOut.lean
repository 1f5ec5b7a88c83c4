import RdtProtocol.Server.Strategy.GoBackN
import RdtProtocol.Server.Strategy.Interleaving

/-!
This module contains one pass of the loop of `go_back_N_strategy::handle_time_out`, with `set_mutex` as
it is held by the timer thread. The thread waits for ever where it locks the mutex while it is held: no
other thread unlocks what this one has locked.
-/

namespace GoBackNTimeOut

-- What is done next, `send` and `insert` in `send_packet`. The number is the place of the packet in
-- `unacked_packets` that the loop is at.
inductive Pc where
  | begin
  | compare (firstUnackedPkt : PacketPtr)
  | lock
  | loop (i : Nat)
  | send (i : Nat) (packet : PacketPtr)
  | lockSend (i : Nat) (packet : PacketPtr)
  | insert (i : Nat) (packet : PacketPtr)
  | clear
  | refill
  | sleep
  | done
  deriving DecidableEq, Repr

structure State where
  strategy : RdtStrategy
  locked : Bool
  temp : List PacketPtr
  pc : Pc

def init (s : RdtStrategy) : State :=
  {
    strategy := s
    locked := false
    temp := []
    pc := .begin
  }

-- Undefined where the thread waits, and after the pass.
def step (env : Env) (t : State) (_ : Unit) : Option State :=
  let s := t.strategy
  match t.pc with
  | .begin =>
    if t.locked then
      none
    else
      -- The first element of an empty set is undefined.
      match s.unackedPackets with
      | [] => none
      | firstUnackedPkt :: _ => some { t with pc := .compare firstUnackedPkt }
  | .compare firstUnackedPkt =>
    let overdue := ¬ env.now s.clockReads < s.heap.timeStamp firstUnackedPkt + PACKET_TIME_OUT
    let s := { s with clockReads := s.clockReads + 1 }
    some { t with strategy := s, pc := if overdue then .lock else .sleep }
  | .lock => if t.locked then none else some { t with locked := true, pc := .loop 0 }
  | .loop i =>
    match s.unackedPackets[i]? with
    | some it => some { t with strategy := s.setTimeStamp env it, pc := .send i it }
    | none => some { t with pc := .clear }
  | .send i it => some { t with strategy := s.stamp env it, pc := .lockSend i it }
  | .lockSend i it => if t.locked then none else some { t with locked := true, pc := .insert i it }
  | .insert i it =>
    some {
      strategy := s.insertUnacked it
      locked := false
      temp := t.temp ++ [it]
      pc := .loop (i + 1)
    }
  | .clear => some { t with strategy := { s with unackedPackets := [] }, pc := .refill }
  | .refill =>
    some { t with
      strategy := t.temp.foldl RdtStrategy.insertUnacked s
      locked := false
      pc := .done
    }
  | .sleep => none
  | .done => none

/--
The pass has ended, and has sent once each packet that it has found in `unacked_packets`.
-/
structure Completed (s : RdtStrategy) (t : State) : Prop where
  done : t.pc = .done
  unlocked : t.locked = false
  sent : ∃ resent, t.strategy.sent = s.sent ++ resent ∧ resent.Perm s.unackedPackets
  members : t.strategy.unackedPackets.Perm s.unackedPackets
  sorted : OrderedSet.Sorted t.strategy.heap.timeStamp t.strategy.unackedPackets

def Stuck (s : RdtStrategy) (first : PacketPtr) (t : State) : Prop :=
  match t.pc with
  | .begin => t.strategy = s ∧ t.locked = false
  | .compare p => p = first ∧ t.strategy = s ∧ t.locked = false
  | .lock => t.strategy.unackedPackets = s.unackedPackets ∧ t.locked = false
  | .loop i => i = 0 ∧ t.strategy.unackedPackets = s.unackedPackets ∧ t.locked = true
  | .send _ _ => t.locked = true
  | .lockSend _ _ => t.locked = true
  | _ => False

variable {env : Env} {s : RdtStrategy} {first : PacketPtr} {rest : List PacketPtr} {t t' : State}

-- The mutex is held when `send_packet` locks it, so that the thread never gets past that.
theorem stuck_step (hfirst : s.unackedPackets = first :: rest)
    (hoverdue : s.heap.timeStamp first + PACKET_TIME_OUT ≤ env.now s.clockReads)
    (h : Stuck s first t) (hstep : step env t () = some t')
    : Stuck s first t' := by
  cases t with
  | mk strategy locked temp pc =>
    cases pc with
    | begin =>
      obtain ⟨hs, rfl⟩ := h
      have hs : strategy = s := hs
      subst hs
      simp only [step, hfirst, Bool.false_eq_true, if_false, Option.some.injEq] at hstep
      rw [← hstep]
      exact ⟨rfl, rfl, rfl⟩
    | compare p =>
      obtain ⟨rfl, hs, rfl⟩ := h
      have hs : strategy = s := hs
      subst hs
      simp only [step, Nat.not_lt.mpr hoverdue, not_false_eq_true, if_true, Option.some.injEq]
        at hstep
      rw [← hstep]
      exact ⟨rfl, rfl⟩
    | lock =>
      obtain ⟨hunacked, rfl⟩ := h
      simp only [step, Bool.false_eq_true, if_false, Option.some.injEq] at hstep
      rw [← hstep]
      exact ⟨rfl, hunacked, rfl⟩
    | loop i =>
      obtain ⟨rfl, hunacked, rfl⟩ := h
      have hunacked : strategy.unackedPackets = s.unackedPackets := hunacked
      simp only [step, hunacked, hfirst, List.getElem?_cons_zero, Option.some.injEq] at hstep
      rw [← hstep]
      rfl
    | send i p =>
      injection hstep with hstep
      rw [← hstep]
      exact h
    | lockSend i p =>
      have hlocked : locked = true := h
      simp [step, hlocked] at hstep
    | insert | clear | refill | sleep | done => exact absurd h id

theorem stuck_of_reachable (hfirst : s.unackedPackets = first :: rest)
    (hoverdue : s.heap.timeStamp first + PACKET_TIME_OUT ≤ env.now s.clockReads)
    (h : StepFn.Reachable (step env) (init s) t)
    : Stuck s first t := by
  have hinit : Stuck s first (init s) := ⟨rfl, rfl⟩
  apply h.invariant (P := Stuck s first) hinit
  intro t e t' ht hstep
  exact stuck_step hfirst hoverdue ht hstep

theorem not_completed_of_stuck (h : Stuck s first t) : ¬ Completed s t := by
  intro hcompleted
  unfold Stuck at h
  rw [hcompleted.done] at h
  exact h

theorem not_completed (hfirst : s.unackedPackets = first :: rest)
    (hoverdue : s.heap.timeStamp first + PACKET_TIME_OUT ≤ env.now s.clockReads)
    : ¬ ∃ t, StepFn.Reachable (step env) (init s) t ∧ Completed s t := by
  intro ⟨t, ht, hcompleted⟩
  exact not_completed_of_stuck (stuck_of_reachable hfirst hoverdue ht) hcompleted

theorem blocked_of_overdue (hfirst : s.unackedPackets = first :: rest)
    (hoverdue : s.heap.timeStamp first + PACKET_TIME_OUT ≤ env.now s.clockReads)
    : ∃ t, StepFn.Reachable (step env) (init s) t ∧ t.pc = .lockSend 0 first ∧ t.locked = true
        ∧ t.strategy = GoBackN.timeOut env { s with clockReads := s.clockReads + 1 } first
        ∧ step env t () = none := by
  let s1 := { s with clockReads := s.clockReads + 1 }
  let s2 := s1.setTimeStamp env first
  have h1 : step env (init s) () = some { init s with pc := .compare first } := by
    simp [step, init, hfirst]
  have h2 : step env { init s with pc := .compare first } ()
      = some { init s1 with pc := .lock } := by
    simp [step, init, s1, hoverdue]
  have h3 : step env { init s1 with pc := .lock } ()
      = some { init s1 with locked := true, pc := .loop 0 } := by
    simp [step, init]
  have h4 : step env { init s1 with locked := true, pc := .loop 0 } ()
      = some { init s2 with locked := true, pc := .send 0 first } := by
    simp [step, init, s1, s2, hfirst]
  have h5 : step env { init s2 with locked := true, pc := .send 0 first } ()
      = some { init (s2.stamp env first) with locked := true, pc := .lockSend 0 first } := by
    simp [step, init]
  refine ⟨{ init (s2.stamp env first) with locked := true, pc := .lockSend 0 first }, ?_, rfl, rfl, rfl,
    ?_⟩
  . apply StepFn.ReachableWhen.step _ trivial h5
    apply StepFn.ReachableWhen.step _ trivial h4
    apply StepFn.ReachableWhen.step _ trivial h3
    apply StepFn.ReachableWhen.step _ trivial h2
    exact StepFn.ReachableWhen.step .init trivial h1
  . simp [step]

def overdueEnv : Env :=
  { now := fun i => i * PACKET_TIME_OUT, tripleDupAck := fun _ => false }

def sampleOverdue : RdtStrategy :=
  GoBackN.start overdueEnv (GoBackN.new (File.regular [1]) 0 0 0)

def samplePacket : PacketPtr :=
  ⟨0, DataPacket.new [1] 0⟩

theorem unackedPackets_sampleOverdue : sampleOverdue.unackedPackets = samplePacket :: [] := by
  decide +kernel

theorem overdue_sampleOverdue
    : sampleOverdue.heap.timeStamp samplePacket + PACKET_TIME_OUT
        ≤ overdueEnv.now sampleOverdue.clockReads := by
  decide +kernel

theorem not_completed_sampleOverdue
    : ¬ ∃ t, StepFn.Reachable (step overdueEnv) (init sampleOverdue) t
        ∧ Completed sampleOverdue t :=
  not_completed unackedPackets_sampleOverdue overdue_sampleOverdue

theorem blocked_sampleOverdue
    : StrictMono overdueEnv.now ∧ sampleOverdue.unackedPackets = [samplePacket]
        ∧ sampleOverdue.heap.timeStamp samplePacket + PACKET_TIME_OUT
          ≤ overdueEnv.now sampleOverdue.clockReads
        ∧ (init sampleOverdue).locked = false
        ∧ ∀ t, StepFn.Reachable (step overdueEnv) (init sampleOverdue) t →
            ¬ Completed sampleOverdue t := by
  refine ⟨?_, unackedPackets_sampleOverdue, overdue_sampleOverdue, rfl, ?_⟩
  . intro i j hlt
    exact Nat.mul_lt_mul_of_pos_right hlt (by decide)
  . intro t ht
    apply not_completed_of_stuck
    exact stuck_of_reachable unackedPackets_sampleOverdue overdue_sampleOverdue ht

end GoBackNTimeOut
