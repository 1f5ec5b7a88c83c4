import Mathlib.Data.Fintype.EquivFin
import RdtProtocol.Server.Sessions

/-!
This module contains which threads the tables of the server know, and the proof that the main thread
can always create another one.
-/

namespace Server

variable {cfg : Config} {buffer : Nat → UInt8} {s s' : Server} {e : Event} {u : Worker} {id : Nat}

structure Allotted (s : Server) : Prop where
  registering : ∀ address t, s.mainThread = .registering address t
    → ∃ u ∈ s.workers, u.address = address ∧ u.tid = t
  inserting : ∀ t, s.mainThread = .inserting t → ∃ u ∈ s.workers, u.tid = t
  registered : ∀ address t, s.registeredClients address = some t
    → ∃ u ∈ s.workers, u.address = address ∧ u.tid = t
  entry : ∀ t, (s.workingThreads t).isSome = true → ∃ u ∈ s.workers, u.tid = t

theorem allotted_init : Allotted (init buffer) := by
  constructor
  all_goals simp [init]

theorem Allotted.congr (h : Allotted s)
    (hworkers : ∀ u ∈ s.workers, ∃ u' ∈ s'.workers, u'.address = u.address ∧ u'.tid = u.tid)
    (hmain : s'.mainThread = s.mainThread) (hregistered : s'.registeredClients = s.registeredClients)
    (hentry : ∀ t, (s'.workingThreads t).isSome = true → (s.workingThreads t).isSome = true)
    : Allotted s' := by
  refine ⟨?_, ?_, ?_, ?_⟩
  . intro address t hregistering
    obtain ⟨u, hu, haddress, htid⟩ := h.registering address t (hmain ▸ hregistering)
    obtain ⟨u', hu', haddress', htid'⟩ := hworkers u hu
    exact ⟨u', hu', haddress'.trans haddress, htid'.trans htid⟩
  . intro t hinserting
    obtain ⟨u, hu, htid⟩ := h.inserting t (hmain ▸ hinserting)
    obtain ⟨u', hu', _, htid'⟩ := hworkers u hu
    exact ⟨u', hu', htid'.trans htid⟩
  . intro address t ht
    obtain ⟨u, hu, haddress, htid⟩ := h.registered address t (hregistered ▸ ht)
    obtain ⟨u', hu', haddress', htid'⟩ := hworkers u hu
    exact ⟨u', hu', haddress'.trans haddress, htid'.trans htid⟩
  . intro t ht
    obtain ⟨u, hu, htid⟩ := h.entry t (hentry t ht)
    obtain ⟨u', hu', _, htid'⟩ := hworkers u hu
    exact ⟨u', hu', htid'.trans htid⟩

theorem Allotted.step (h : Allotted s) (hs : Step cfg s e s') : Allotted s' := by
  have hworkers : ∀ u ∈ s.workers, ∃ u' ∈ s'.workers, u'.address = u.address ∧ u'.tid = u.tid := by
    intro u hu
    obtain ⟨i, hi⟩ := List.mem_iff_getElem?.mp hu
    obtain ⟨u', hu', haddress, _, htid⟩ := worker_of_step hs hi
    exact ⟨u', List.mem_of_getElem? hu', haddress, htid⟩
  cases hs with
  | ack | malformed | construct | skip | block | takeAck | timeOut | finish | nullPointer | crash =>
    exact h.congr hworkers rfl rfl (fun _ ht => ht)
  | @request address _ tid request hmain =>
    refine ⟨?_, by simp [dispatch], ?_, ?_⟩
    . intro a t hregistering
      simp only [dispatch, MainThread.registering.injEq] at hregistering
      exact ⟨Worker.new tid address request.data, List.mem_append_right _ List.mem_cons_self,
        hregistering.1, hregistering.2⟩
    . intro a t ht
      obtain ⟨u, hu, hspec⟩ := h.registered a t ht
      exact ⟨u, List.mem_append_left _ hu, hspec⟩
    . intro t ht
      obtain ⟨u, hu, htid⟩ := h.entry t ht
      exact ⟨u, List.mem_append_left _ hu, htid⟩
  | @register address tid hmain =>
    obtain ⟨u, hu, haddress, htid⟩ := h.registering address tid hmain
    refine ⟨by simp, ?_, ?_, h.entry⟩
    . intro t ht
      simp only [MainThread.inserting.injEq] at ht
      exact ⟨u, hu, htid.trans ht⟩
    . intro a t ht
      dsimp only at ht
      by_cases ha : a = address
      . rw [ha, Function.update_self, Option.some.injEq] at ht
        exact ⟨u, hu, haddress.trans ha.symm, htid.trans ht⟩
      . rw [Function.update_of_ne ha] at ht
        exact h.registered a t ht
  | @insert tid hmain =>
    refine ⟨by simp, by simp, h.registered, ?_⟩
    intro t ht
    dsimp only at ht
    by_cases heq : t = tid
    . exact heq ▸ h.inserting tid hmain
    . rw [Function.update_of_ne heq] at ht
      exact h.entry t ht
  | @finalize id u th hu hphase hth =>
    apply h.congr hworkers rfl rfl
    intro t ht
    by_cases heq : t = u.tid
    . simp [heq, hth]
    . simpa [setWorker, heq] using ht

theorem exists_tid (hc : Consistent s) (ha : Allotted s)
    : ∃ tid, s.fresh tid = true ∧ s.workerThreadsAcks tid = [] := by
  obtain ⟨tid, htid⟩ := Infinite.exists_notMem_finset (s.workers.map (·.tid)).toFinset
  have hne : ∀ u ∈ s.workers, u.tid ≠ tid := by
    intro u hu heq
    apply htid
    rw [List.mem_toFinset, List.mem_map]
    exact ⟨u, hu, heq⟩
  refine ⟨tid, ?_, ?_⟩
  . simp only [fresh, List.all_eq_true, decide_eq_true_eq]
    intro u hu _
    exact hne u hu
  . by_contra hqueue
    obtain ⟨u, hu, heq⟩ := ha.entry tid (hc.queued tid hqueue)
    exact hne u hu heq

end Server
