import RdtProtocol.Server.Routing

/-!
This module contains the `worker_thread` objects behind the table of working threads, and the proof that a
worker marks its own object as done if the main thread has entered that object before.
-/

/--
The objects are in the order of their creation, so that the `i`-th one is that of the `i`-th worker.
-/
structure Registry where
  server : Server
  objects : List WorkerThread
  -- The table as it is in the source, with pointers.
  workingThreads : Nat → Option Nat
  -- The pointer that a worker has found in the table for its own thread in the end, null is `none`.
  found : Nat → Option (Option Nat)

namespace Registry

open Server

def markDone (r : Registry) (id : Nat) (u : Worker) : Registry :=
  let pointer := r.workingThreads u.tid
  {
    r with
      found := Function.update r.found id (some pointer)
      objects :=
        match pointer with
        | some object => r.objects.set object ⟨true⟩
        | none => r.objects
  }

def update (r : Registry) : Event → Registry
  | .recvfrom address datagram _ =>
    if r.server.registeredClients address = none
        ∧ (DataPacket.unpack (truncate datagram)).isSome = true then
      { r with objects := r.objects ++ [⟨false⟩] }
    else
      r
  | .insert =>
    match r.server.mainThread with
    | .inserting tid =>
      let workingThreads := Function.update r.workingThreads tid (some (r.objects.length - 1))
      { r with workingThreads }
    | _ => r
  | .finalize id =>
    match r.server.workers[id]? with
    | some u => r.markDone id u
    | none => r
  | _ => r

def step (cfg : Config) (r : Registry) (e : Event) : Option Registry :=
  (Server.step cfg r.server e).map (fun server => { r.update e with server })

def init (buffer : Nat → UInt8) : Registry :=
  {
    server := Server.init buffer
    objects := []
    workingThreads := fun _ => none
    found := fun _ => none
  }

variable {cfg : Config} {buffer : Nat → UInt8} {r r' : Registry} {s' : Server} {e : Event} {id : Nat}

theorem update_of_crash {s : Server} {u : Worker} (r : Registry) (h : Server.Crash cfg s id u e)
    : r.update e = r := by
  cases h <;> rfl

/--
The main thread is back from the `dispatch_worker_thread` that has created the thread.
-/
def Entered (r : Registry) : Event → Prop
  | .finalize id => r.server.mainThread = .receiving ∨ id + 1 < r.server.workers.length
  | _ => True

instance (r : Registry) (e : Event) : Decidable (Entered r e) :=
  match e with
  | .finalize _ => inferInstanceAs (Decidable (_ ∨ _))
  | .recvfrom _ _ _ | .register | .insert | .construct _ | .takeAck _ | .timeOut _ | .race _
  | .finish _ =>
    .isTrue trivial

/--
What a worker has marked is its own object, and the objects of the workers that have ended are done.
-/
structure Completed (r : Registry) : Prop where
  own : ∀ id pointer, r.found id = some pointer → pointer = some id
  done : ∀ (id : Nat) (u : Worker), r.server.workers[id]? = some u → u.phase = .ended
    → r.objects[id]? = some ⟨true⟩

def Dispatching (s : Server) (tid : Nat) : Prop :=
  (∃ address, s.mainThread = .registering address tid) ∨ s.mainThread = .inserting tid

structure Inv (r : Registry) : Prop where
  consistent : Consistent r.server
  length_objects : r.objects.length = r.server.workers.length
  workingThreads_eq : ∀ t, r.server.workingThreads t = (r.workingThreads t).bind (r.objects[·]?)
  pointee : ∀ t object, r.workingThreads t = some object
    → ∃ u, r.server.workers[object]? = some u ∧ u.tid = t
      ∧ (r.server.mainThread = .receiving ∨ object + 1 < r.server.workers.length)
  own : ∀ (id : Nat) (u : Worker), r.server.workers[id]? = some u → u.live = true
    → r.workingThreads u.tid = some id
      ∨ r.server.mainThread ≠ .receiving ∧ id + 1 = r.server.workers.length
  last : ∀ t, Dispatching r.server t
    → r.objects[r.server.workers.length - 1]? = some ⟨false⟩
      ∧ (∃ u, r.server.workers[r.server.workers.length - 1]? = some u ∧ u.tid = t)
      ∧ ∀ (id : Nat) (u : Worker), r.server.workers[id]? = some u → u.live = true → u.tid = t
        → id + 1 = r.server.workers.length

theorem inv_init : Inv (init buffer) := by
  refine ⟨consistent_init, rfl, fun _ => rfl, ?_, ?_, ?_⟩
  . simp [init]
  . simp [init, Server.init]
  . simp [init, Server.init, Dispatching]

namespace Inv

theorem lt_length_objects (h : Inv r) {u : Worker} (hu : r.server.workers[id]? = some u)
    : id < r.objects.length := by
  rw [h.length_objects]
  exact (List.getElem?_eq_some_iff.mp hu).1

theorem congr (h : Inv r) (hc : Consistent s') (hworkers : s'.workers = r.server.workers)
    (hmain : s'.mainThread = r.server.mainThread)
    (hthreads : s'.workingThreads = r.server.workingThreads)
    : Inv { r with server := s' } := by
  refine ⟨hc, ?_, ?_, ?_, ?_, ?_⟩
  . rw [hworkers]
    exact h.length_objects
  . rw [hthreads]
    exact h.workingThreads_eq
  . rw [hworkers, hmain]
    exact h.pointee
  . rw [hworkers, hmain]
    exact h.own
  . unfold Dispatching
    rw [hworkers, hmain]
    exact h.last

theorem setWorker (h : Inv r) {u u' : Worker} (hu : r.server.workers[id]? = some u)
    (hworkers : s'.workers = r.server.workers.set id u') (htid : u'.tid = u.tid)
    (hlive : u'.live = true → u.live = true) (hc : Consistent s')
    (hmain : s'.mainThread = r.server.mainThread)
    (hthreads : s'.workingThreads = r.server.workingThreads)
    : Inv { r with server := s' } := by
  have hold {i : Nat} {v : Worker} (hv : s'.workers[i]? = some v)
      : ∃ w, r.server.workers[i]? = some w ∧ v.tid = w.tid ∧ (v.live = true → w.live = true) := by
    rw [hworkers] at hv
    exact exists_of_getElem?_set hu htid hlive hv
  have hnew {i : Nat} {v : Worker} (hv : r.server.workers[i]? = some v)
      : ∃ w, s'.workers[i]? = some w ∧ w.tid = v.tid := by
    rw [hworkers, List.getElem?_set]
    have := (List.getElem?_eq_some_iff.mp hv).1
    by_cases heq : id = i
    . subst heq
      rw [hu] at hv
      cases hv
      exact ⟨u', by simp [this], htid⟩
    . exact ⟨v, by simp [heq, hv], rfl⟩
  have hlength : s'.workers.length = r.server.workers.length := by
    rw [hworkers, List.length_set]
  refine ⟨hc, ?_, ?_, ?_, ?_, ?_⟩
  . rw [hlength]
    exact h.length_objects
  . rw [hthreads]
    exact h.workingThreads_eq
  . intro t object hobject
    obtain ⟨v, hv, hvt, hbefore⟩ := h.pointee t object hobject
    obtain ⟨w, hw, hwt⟩ := hnew hv
    refine ⟨w, hw, hwt.trans hvt, ?_⟩
    rw [hlength, hmain]
    exact hbefore
  . intro i v hv hl
    obtain ⟨w, hw, hwt, hwl⟩ := hold hv
    rw [hlength, hmain, hwt]
    exact h.own i w hw (hwl hl)
  . intro t ht
    have ht' : Dispatching r.server t := by
      unfold Dispatching at ht ⊢
      rw [hmain] at ht
      exact ht
    obtain ⟨hobject, ⟨v, hv, hvt⟩, hothers⟩ := h.last t ht'
    obtain ⟨w, hw, hwt⟩ := hnew hv
    rw [hlength]
    refine ⟨hobject, ⟨w, hw, hwt.trans hvt⟩, ?_⟩
    intro i v hv hl heq
    obtain ⟨w, hw, hwt, hwl⟩ := hold hv
    exact hothers i w hw (hwl hl) (hwt ▸ heq)

theorem dispatch (h : Inv r) {address : Address} {tid : Nat} (hmain : r.server.mainThread = .receiving)
    (hfresh : r.server.fresh tid = true) (filePath : Bytes)
    (hc : Consistent (r.server.dispatch address tid filePath))
    : Inv {
        r with
          server := r.server.dispatch address tid filePath
          objects := r.objects ++ [⟨false⟩]
      } := by
  have hlength : (r.server.dispatch address tid filePath).workers.length
      = r.server.workers.length + 1 := by
    simp [Server.dispatch]
  have hlast : (r.server.dispatch address tid filePath).workers[r.server.workers.length]?
      = some (Worker.new tid address filePath) := by
    simp [Server.dispatch]
  have hold {i : Nat} (hi : i < r.server.workers.length)
      : (r.server.dispatch address tid filePath).workers[i]? = r.server.workers[i]? :=
    List.getElem?_append_left hi
  refine ⟨hc, ?_, ?_, ?_, ?_, ?_⟩
  . rw [hlength, ← h.length_objects, List.length_append, List.length_singleton]
  . intro t
    change r.server.workingThreads t = _
    rw [h.workingThreads_eq]
    cases hobject : r.workingThreads t with
    | none => rfl
    | some object =>
      obtain ⟨u, hu, _⟩ := h.pointee t object hobject
      exact (List.getElem?_append_left (h.lt_length_objects hu)).symm
  . intro t object hobject
    obtain ⟨u, hu, hut, _⟩ := h.pointee t object hobject
    have hlt := (List.getElem?_eq_some_iff.mp hu).1
    refine ⟨u, (hold hlt).trans hu, hut, .inr ?_⟩
    rw [hlength]
    omega
  . intro i u hu hl
    by_cases hi : i < r.server.workers.length
    . left
      rw [hold hi] at hu
      have hown := h.own i u hu hl
      rw [hmain] at hown
      simpa using hown
    . right
      have hlt := (List.getElem?_eq_some_iff.mp hu).1
      rw [hlength] at hlt
      refine ⟨by simp [Server.dispatch], ?_⟩
      rw [hlength]
      omega
  . intro t ht
    have heq : tid = t := by
      simpa [Dispatching, Server.dispatch] using ht
    rw [hlength, Nat.add_sub_cancel]
    refine ⟨?_, ⟨_, hlast, heq⟩, ?_⟩
    . rw [← h.length_objects]
      simp
    . intro i u hu hl hut
      have hlt := (List.getElem?_eq_some_iff.mp hu).1
      rw [hlength] at hlt
      by_cases hi : i < r.server.workers.length
      . rw [hold hi] at hu
        simp only [fresh, List.all_eq_true, decide_eq_true_eq] at hfresh
        exact absurd (hut.trans heq.symm) (hfresh u (List.mem_of_getElem? hu) hl)
      . omega

theorem insert (h : Inv r) {tid : Nat} (hmain : r.server.mainThread = .inserting tid)
    (hc : Consistent s') (hworkers : s'.workers = r.server.workers) (hmain' : s'.mainThread = .receiving)
    (hthreads : s'.workingThreads = Function.update r.server.workingThreads tid (some ⟨false⟩))
    : Inv {
        r with
          server := s'
          workingThreads := Function.update r.workingThreads tid (some (r.objects.length - 1))
      } := by
  obtain ⟨hobject, ⟨u, hu, htid⟩, hothers⟩ := h.last tid (.inr hmain)
  refine ⟨hc, ?_, ?_, ?_, ?_, ?_⟩
  . rw [hworkers]
    exact h.length_objects
  . intro t
    simp only [hthreads, Function.update_apply]
    split
    . rw [Option.bind_some, h.length_objects, hobject]
    . exact h.workingThreads_eq t
  . intro t object hpointer
    simp only [Function.update_apply] at hpointer
    rw [hworkers]
    split at hpointer
    . next heq =>
      cases hpointer
      rw [h.length_objects]
      exact ⟨u, hu, htid.trans heq.symm, .inl hmain'⟩
    . obtain ⟨v, hv, hvt, _⟩ := h.pointee t object hpointer
      exact ⟨v, hv, hvt, .inl hmain'⟩
  . intro i v hv hl
    left
    rw [hworkers] at hv
    simp only [Function.update_apply]
    split
    . next heq =>
      have := hothers i v hv hl heq
      rw [h.length_objects]
      congr 1
      omega
    . next hne =>
      cases h.own i v hv hl with
      | inl hown => exact hown
      | inr hlast =>
        have hi : i = r.server.workers.length - 1 := by omega
        rw [hi, hu] at hv
        cases hv
        exact absurd htid hne
  . intro t ht
    simp [Dispatching, hmain'] at ht

theorem markDone (h : Inv r) {u : Worker} {object : Nat} (hpointer : r.workingThreads u.tid = some object)
    (hthreads : s'.workingThreads = Function.update r.server.workingThreads u.tid (some ⟨true⟩))
    (h' : Inv { r with server := { s' with workingThreads := r.server.workingThreads } })
    (hc : Consistent s')
    : Inv {
        r with
          server := s'
          objects := r.objects.set object ⟨true⟩
          found := Function.update r.found id (some (some object))
      } := by
  obtain ⟨v, hv, hvt, hbefore⟩ := h'.pointee u.tid object hpointer
  refine ⟨hc, ?_, ?_, h'.pointee, h'.own, ?_⟩
  . rw [List.length_set]
    exact h'.length_objects
  . intro t
    simp only [hthreads, Function.update_apply]
    split
    . next heq => rw [heq, hpointer, Option.bind_some, List.getElem?_set_self (h'.lt_length_objects hv)]
    . next hne =>
      rw [h.workingThreads_eq]
      cases hother : r.workingThreads t with
      | none => rfl
      | some other =>
        have hneq : object ≠ other := by
          intro heq
          obtain ⟨w, hw, hwt, _⟩ := h'.pointee t other hother
          rw [← heq, hv] at hw
          cases hw
          exact hne (hwt.symm.trans hvt)
        rw [Option.bind_some, Option.bind_some, List.getElem?_set_ne hneq]
  . intro t ht
    obtain ⟨hobject, hlast, hothers⟩ := h'.last t ht
    refine ⟨?_, hlast, hothers⟩
    rw [List.getElem?_set_ne]
    . exact hobject
    . cases hbefore with
      | inl hmain =>
        have hmain : s'.mainThread = .receiving := hmain
        simp [Dispatching, hmain] at ht
      | inr hlt =>
        have hlt : object + 1 < s'.workers.length := hlt
        change object ≠ s'.workers.length - 1
        omega

theorem step (h : Inv r) (hs : Registry.step cfg r e = some r') : Inv r' := by
  rw [Registry.step, Option.map_eq_some_iff] at hs
  obtain ⟨s', hs, rfl⟩ := hs
  have hs := Step.of_step hs
  have hc := h.consistent.step hs
  cases hs with
  | @ack address datagram tid t _ ht =>
    have hupdate : r.update (.recvfrom address datagram tid) = r := by
      simp [update, ht]
    rw [hupdate]
    exact h.congr hc rfl rfl rfl
  | @request address datagram tid request hmain hnone hunpack hfresh =>
    have hupdate : r.update (.recvfrom address datagram tid)
        = { r with objects := r.objects ++ [⟨false⟩] } := by
      simp [update, hnone, hunpack]
    have hrecv : Inv { r with server := r.server.recvfrom datagram } :=
      h.congr (h.consistent.recvfrom datagram) rfl rfl rfl
    rw [hupdate]
    exact hrecv.dispatch hmain hfresh request.data hc
  | @malformed address datagram tid _ _ hunpack =>
    have hupdate : r.update (.recvfrom address datagram tid) = r := by
      simp [update, hunpack]
    rw [hupdate]
    exact h.congr hc rfl rfl rfl
  | @register address tid hmain =>
    refine ⟨hc, h.length_objects, h.workingThreads_eq, ?_, ?_, ?_⟩
    . intro t object hobject
      obtain ⟨u, hu, hut, hbefore⟩ := h.pointee t object hobject
      refine ⟨u, hu, hut, .inr ?_⟩
      simpa [hmain] using hbefore
    . intro i u hu hl
      have hown := h.own i u hu hl
      rw [hmain] at hown
      simpa [update] using hown
    . intro t ht
      have heq : tid = t := by
        simpa [Dispatching] using ht
      apply h.last
      exact .inl ⟨address, heq ▸ hmain⟩
  | @insert tid hmain =>
    have hupdate : r.update .insert
        = { r with workingThreads :=
              Function.update r.workingThreads tid (some (r.objects.length - 1)) } := by
      simp [update, hmain]
    rw [hupdate]
    exact h.insert hmain hc rfl rfl rfl
  | construct hu hphase =>
    exact h.setWorker hu rfl rfl (by simp [Worker.live, hphase]) hc rfl rfl
  | skip hu | takeAck hu | timeOut hu => exact h.setWorker hu rfl rfl (fun hl => hl) hc rfl rfl
  | block hu hphase => exact h.setWorker hu rfl rfl (by simp [Worker.live, hphase]) hc rfl rfl
  | crash _ hcrash =>
    rw [update_of_crash r hcrash]
    exact h.congr hc rfl rfl rfl
  | finish hu hphase => exact h.setWorker hu rfl rfl (by simp [Worker.live, hphase]) hc rfl rfl
  | @finalize id u th hu hphase hth =>
    rw [h.workingThreads_eq, Option.bind_eq_some_iff] at hth
    obtain ⟨object, hpointer, _⟩ := hth
    have hupdate : r.update (.finalize id)
        = {
            r with
              objects := r.objects.set object ⟨true⟩
              found := Function.update r.found id (some (some object))
          } := by
      simp [update, hu, Registry.markDone, hpointer]
    have hended : Consistent (r.server.setWorker id { u with phase := .ended }) :=
      h.consistent.setWorker hu rfl rfl (by simp [Worker.live])
    have hset : Inv { r with server := r.server.setWorker id { u with phase := .ended } } :=
      h.setWorker hu rfl rfl (by simp [Worker.live]) hended rfl rfl
    rw [hupdate]
    exact h.markDone hpointer rfl hset hc
  | @nullPointer id u hu hphase hth =>
    have hpointer : r.workingThreads u.tid = none := by
      cases hpointer : r.workingThreads u.tid with
      | none => rfl
      | some object =>
        obtain ⟨v, hv, _⟩ := h.pointee u.tid object hpointer
        rw [h.workingThreads_eq, hpointer, Option.bind_some,
          List.getElem?_eq_getElem (h.lt_length_objects hv)] at hth
        contradiction
    have hcrash : Inv { r with server := r.server.crash } := h.congr hc rfl rfl rfl
    simp only [update, hu, Registry.markDone, hpointer]
    exact ⟨hc, hcrash.length_objects, hcrash.workingThreads_eq, hcrash.pointee, hcrash.own,
      hcrash.last⟩

end Inv

theorem inv_of_reachable (h : StepFn.Reachable (step cfg) (init buffer) r) : Inv r := by
  apply h.invariant inv_init
  intro r e r' hinv hstep
  exact hinv.step hstep

theorem found_iff (h : Inv r) {u : Worker} (hu : r.server.workers[id]? = some u) (hl : u.live = true)
    : r.workingThreads u.tid = some id ↔ Entered r (.finalize id) := by
  constructor
  . intro hpointer
    obtain ⟨_, _, _, hbefore⟩ := h.pointee u.tid id hpointer
    exact hbefore
  . intro hentered
    cases h.own id u hu hl with
    | inl hown => exact hown
    | inr hlast =>
      cases hentered with
      | inl hmain => exact absurd hmain hlast.1
      | inr hlt => omega

theorem Completed.mono (h : Completed r) (hfound : r'.found = r.found)
    (hobjects : r.objects <+: r'.objects)
    (hended : ∀ (i : Nat) (u : Worker), r'.server.workers[i]? = some u → u.phase = .ended
      → ∃ v, r.server.workers[i]? = some v ∧ v.phase = .ended)
    : Completed r' := by
  constructor
  . rw [hfound]
    exact h.own
  . intro i u hu hphase
    obtain ⟨v, hv, hvphase⟩ := hended i u hu hphase
    obtain ⟨rest, hrest⟩ := hobjects
    have hobject := h.done i v hv hvphase
    rw [← hrest, List.getElem?_append_left (List.getElem?_eq_some_iff.mp hobject).1]
    exact hobject

theorem ended_setWorker {s : Server} {u u' v : Worker} {i : Nat} (hu : s.workers[id]? = some u)
    (hphase : u'.phase = .ended → u.phase = .ended) (hv : (s.workers.set id u')[i]? = some v)
    (hended : v.phase = .ended)
    : ∃ w, s.workers[i]? = some w ∧ w.phase = .ended := by
  rw [List.getElem?_set] at hv
  split at hv
  . next heq =>
    split at hv
    . cases hv
      exact ⟨u, heq ▸ hu, hphase hended⟩
    . contradiction
  . exact ⟨v, hv, hended⟩

theorem completed_step (hinv : Inv r) (h : Completed r) (he : Entered r e)
    (hs : Registry.step cfg r e = some r')
    : Completed r' := by
  rw [Registry.step, Option.map_eq_some_iff] at hs
  obtain ⟨s', hs, rfl⟩ := hs
  have hs := Step.of_step hs
  cases hs with
  | @ack address datagram tid t _ ht =>
    apply h.mono
    . simp [update, ht]
    . simp [update, ht]
    . exact fun i u hu hphase => ⟨u, hu, hphase⟩
  | @request address datagram tid request _ hnone hunpack =>
    apply h.mono
    . simp [update, hnone, hunpack]
    . simp [update, hnone, hunpack]
    . intro i u hu hphase
      refine ⟨u, ?_, hphase⟩
      simp only [dispatch, List.getElem?_append, List.getElem?_singleton] at hu
      split at hu
      . exact hu
      . split at hu
        . cases hu
          simp [Worker.new] at hphase
        . contradiction
  | @malformed address datagram tid _ _ hunpack =>
    apply h.mono
    . simp [update, hunpack]
    . simp [update, hunpack]
    . exact fun i u hu hphase => ⟨u, hu, hphase⟩
  | register => exact ⟨h.own, h.done⟩
  | insert hmain =>
    apply h.mono
    . simp [update, hmain]
    . simp [update, hmain]
    . exact fun i u hu hphase => ⟨u, hu, hphase⟩
  | construct hu | skip hu | block hu | takeAck hu | timeOut hu | finish hu =>
    exact h.mono rfl List.prefix_rfl (fun _ _ hv => ended_setWorker hu (by simp) hv)
  | crash _ hcrash =>
    rw [update_of_crash r hcrash]
    exact ⟨h.own, h.done⟩
  | @finalize id u th hu hphase =>
    have hpointer := (found_iff hinv hu (by simp [Worker.live, hphase])).mpr he
    have hupdate : r.update (.finalize id)
        = {
            r with
              objects := r.objects.set id ⟨true⟩
              found := Function.update r.found id (some (some id))
          } := by
      simp [update, hu, markDone, hpointer]
    rw [hupdate]
    constructor
    . intro i pointer hfound
      simp only [Function.update_apply] at hfound
      split at hfound
      . next heq =>
        cases hfound
        rw [heq]
      . exact h.own i pointer hfound
    . intro i v hv hended
      rw [List.getElem?_set]
      split
      . next heq => simp [hinv.lt_length_objects hu]
      . next hne =>
        have hv : (r.server.workers.set id { u with phase := .ended })[i]? = some v := hv
        rw [List.getElem?_set_ne hne] at hv
        exact h.done i v hv hended
  | @nullPointer id u hu hphase hth =>
    have hpointer := (found_iff hinv hu (by simp [Worker.live, hphase])).mpr he
    rw [hinv.workingThreads_eq, hpointer, Option.bind_some,
      List.getElem?_eq_getElem (hinv.lt_length_objects hu)] at hth
    contradiction

theorem completed_of_reachableWhen (h : StepFn.ReachableWhen (step cfg) Entered (init buffer) r)
    : Completed r := by
  have hboth : Inv r ∧ Completed r := by
    apply h.invariant (P := fun r => Inv r ∧ Completed r)
    . exact ⟨inv_init, by simp [init], by simp [init, Server.init]⟩
    . intro r e r' hr he hstep
      exact ⟨hr.1.step hstep, completed_step hr.1 hr.2 he hstep⟩
  exact hboth.2

theorem entered_of_completed (hinv : Inv r) (hs : step cfg r e = some r') (h : Completed r')
    : Entered r e := by
  rw [step, Option.map_eq_some_iff] at hs
  obtain ⟨s', hs, rfl⟩ := hs
  have hs := Step.of_step hs
  cases e with
  | recvfrom | register | insert | construct | takeAck | timeOut | race | finish => trivial
  | finalize id =>
    have hu : ∃ u, r.server.workers[id]? = some u ∧ u.phase = .finalizing := by
      cases hs with
      | finalize hu hphase => exact ⟨_, hu, hphase⟩
      | nullPointer hu hphase => exact ⟨_, hu, hphase⟩
      | crash _ hcrash => cases hcrash
    obtain ⟨u, hu, hphase⟩ := hu
    apply (found_iff hinv hu (by simp [Worker.live, hphase])).mp
    apply h.own id
    simp [update, hu, markDone]

theorem completed_along_iff (es : List Event)
    : StepFn.Along (step cfg) (fun _ _ r' => Completed r') (init buffer) es
        ↔ StepFn.Along (step cfg) (fun r e _ => Entered r e) (init buffer) es := by
  constructor
  . intro h es1 e es2 r r' hes hrun hstep
    have hinv := inv_of_reachable (StepFn.reachable_of_run es1 .init hrun)
    exact entered_of_completed hinv hstep (h es1 e es2 r r' hes hrun hstep)
  . intro h es1 e es2 r r' hes hrun hstep
    have hbefore : StepFn.Along (step cfg) (fun r e _ => Entered r e) (init buffer) es1 :=
      StepFn.Along.left (hes ▸ h)
    have hreach := StepFn.reachableWhen_of_along es1 .init hbefore hrun
    apply completed_of_reachableWhen
    exact .step hreach (h es1 e es2 r r' hes hrun hstep) hstep

def sampleRegistry : Registry :=
  (StepFn.run (StepFn.guarded (step sampleConfig) Entered) (init (fun _ => 0))
    [
      .recvfrom (sampleClient 1) (sampleRequest [1]) 5, .construct 0, .register, .finish 0, .insert,
      .finalize 0, .recvfrom (sampleClient 2) (sampleRequest [1]) 5, .construct 1, .register, .insert,
      .finish 1, .finalize 1
    ]).get (by decide +kernel)

example : sampleRegistry.objects = [⟨true⟩, ⟨true⟩] := by
  decide +kernel

-- The worker is done before the main thread goes on. The pointer it finds is null, or points to the object
-- of the thread that had the identifier before.
def nullRegistry : Registry :=
  (StepFn.run (step sampleConfig) (init (fun _ => 0))
    [
      .recvfrom (sampleClient 1) (sampleRequest [1]) 5, .construct 0, .finish 0, .finalize 0
    ]).get (by decide +kernel)

def staleRegistry : Registry :=
  (StepFn.run (step sampleConfig) (init (fun _ => 0))
    [
      .recvfrom (sampleClient 1) (sampleRequest [1]) 5, .register, .insert, .construct 0, .finish 0,
      .finalize 0, .recvfrom (sampleClient 2) (sampleRequest [1]) 5, .construct 1, .finish 1,
      .finalize 1, .register, .insert
    ]).get (by decide +kernel)

theorem not_completed_empty
    : StepFn.Reachable (step sampleConfig) (init (fun _ => 0)) nullRegistry
        ∧ nullRegistry.found 0 = some none
        ∧ ¬ Completed nullRegistry
        ∧ StepFn.Reachable (step sampleConfig) (init (fun _ => 0)) staleRegistry
        ∧ staleRegistry.found 1 = some (some 0)
        ∧ staleRegistry.objects = [⟨true⟩, ⟨false⟩]
        ∧ ¬ Completed staleRegistry := by
  have hnull : nullRegistry.found 0 = some none := by decide +kernel
  have hstale : staleRegistry.found 1 = some (some 0) := by decide +kernel
  refine ⟨?_, hnull, ?_, ?_, hstale, by decide +kernel, ?_⟩
  . apply StepFn.reachable_get_run
  . intro h
    have := h.own 0 none hnull
    contradiction
  . apply StepFn.reachable_get_run
  . intro h
    have := h.own 1 (some 0) hstale
    contradiction

end Registry
