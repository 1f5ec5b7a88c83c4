import Mathlib.Data.List.Infix
import RdtProtocol.Server.BasicLemmas

/-!
This module contains the proof that each worker takes the ACKs of its own client, as long as no thread
identifier that has been given out again mixes up two of them.
-/

namespace Server

/--
How the tables of the server and the workers fit together in every state that it can reach.
-/
structure Consistent (s : Server) : Prop where
  distinct : ∀ (i j : Nat) (u v : Worker), s.workers[i]? = some u → s.workers[j]? = some v → u.live = true
    → v.live = true → u.tid = v.tid → i = j
  registered : ∀ u ∈ s.workers, s.registeredClients u.address = some u.tid
    ∨ s.mainThread = .registering u.address u.tid
  unregistered : ∀ address tid, s.mainThread = .registering address tid
    → s.registeredClients address = none
  received_eq : ∀ address, s.registeredClients address = none → s.received address = []
  entry : ∀ address t, s.registeredClients address = some t
    → (s.workingThreads t).isSome = true ∨ s.mainThread = .inserting t
  queued : ∀ t, s.workerThreadsAcks t ≠ [] → (s.workingThreads t).isSome = true

theorem mem_set_cases {u v : Worker} {workers : List Worker} {id : Nat} (h : v ∈ workers.set id u)
    : v = u ∨ ∃ j, j ≠ id ∧ workers[j]? = some v := by
  obtain ⟨j, hj⟩ := List.mem_iff_getElem?.mp h
  rw [List.getElem?_set] at hj
  split at hj
  . split at hj
    . exact .inl (Option.some.inj hj).symm
    . contradiction
  . next hne => exact .inr ⟨j, Ne.symm hne, hj⟩

variable {cfg : Config} {buffer : Nat → UInt8} {s s' : Server} {e : Event} {u u' v : Worker} {id : Nat}

theorem consistent_init : Consistent (init buffer) := by
  constructor
  all_goals simp [init]

theorem exists_of_getElem?_set (hu : s.workers[id]? = some u) (htid : u'.tid = u.tid)
    (hlive : u'.live = true → u.live = true) {i : Nat} (hv : (s.workers.set id u')[i]? = some v)
    : ∃ w, s.workers[i]? = some w ∧ v.tid = w.tid ∧ (v.live = true → w.live = true) := by
  rw [List.getElem?_set] at hv
  split at hv
  . next heq =>
    split at hv
    . cases hv
      exact ⟨u, heq ▸ hu, htid, hlive⟩
    . contradiction
  . exact ⟨v, hv, rfl, fun hl => hl⟩

namespace Consistent

theorem setWorker (h : Consistent s) (hu : s.workers[id]? = some u) (htid : u'.tid = u.tid)
    (haddress : u'.address = u.address) (hlive : u'.live = true → u.live = true)
    : Consistent (s.setWorker id u') := by
  refine ⟨?_, ?_, h.unregistered, h.received_eq, h.entry, h.queued⟩
  . intro i j v w hv hw hlv hlw heq
    obtain ⟨v0, hv0, htv, hlv0⟩ := exists_of_getElem?_set hu htid hlive hv
    obtain ⟨w0, hw0, htw, hlw0⟩ := exists_of_getElem?_set hu htid hlive hw
    apply h.distinct i j v0 w0 hv0 hw0 (hlv0 hlv) (hlw0 hlw)
    rw [← htv, heq, htw]
  . intro v hv
    cases mem_set_cases hv with
    | inl heq =>
      rw [heq, htid, haddress]
      exact h.registered u (List.mem_of_getElem? hu)
    | inr hv =>
      obtain ⟨j, _, hj⟩ := hv
      exact h.registered v (List.mem_of_getElem? hj)

theorem recvfrom (h : Consistent s) (datagram : Bytes) : Consistent (s.recvfrom datagram) :=
  ⟨h.distinct, h.registered, h.unregistered, h.received_eq, h.entry, h.queued⟩

theorem crash (h : Consistent s) : Consistent s.crash :=
  ⟨h.distinct, h.registered, h.unregistered, h.received_eq, h.entry, h.queued⟩

theorem withSender (h : Consistent s) (sender : PacketSender) : Consistent { s with sender } :=
  ⟨h.distinct, h.registered, h.unregistered, h.received_eq, h.entry, h.queued⟩

theorem pop (h : Consistent s) (tid : Nat) : Consistent (s.pop tid) := by
  refine ⟨h.distinct, h.registered, h.unregistered, h.received_eq, h.entry, ?_⟩
  intro t hqueue
  apply h.queued
  intro hnil
  apply hqueue
  by_cases heq : t = tid
  . simp [Server.pop, ← heq, hnil]
  . simp [Server.pop, heq, hnil]

theorem pushAck (h : Consistent s) {address : Address} {t : Nat} (hmain : s.mainThread = .receiving)
    (ht : s.registeredClients address = some t) (ack : AckPacket)
    : Consistent (s.pushAck address t ack) := by
  refine ⟨h.distinct, h.registered, h.unregistered, ?_, h.entry, ?_⟩
  . intro address' hnone
    have hne : address' ≠ address := by
      intro heq
      simp [heq, Server.pushAck, ht] at hnone
    simpa [Server.pushAck, hne] using h.received_eq address' hnone
  . intro t' hqueue
    by_cases heq : t' = t
    . have := h.entry address t ht
      simpa [Server.pushAck, hmain, heq] using this
    . apply h.queued
      simpa [Server.pushAck, heq] using hqueue

theorem dispatch (h : Consistent s) {address : Address} {tid : Nat}
    (hmain : s.mainThread = .receiving) (hnone : s.registeredClients address = none)
    (hfresh : s.fresh tid = true) (filePath : Bytes)
    : Consistent (s.dispatch address tid filePath) := by
  have hnew {v : Worker} (hv : v ∈ s.workers) (hl : v.live = true) : v.tid ≠ tid := by
    simp only [fresh, List.all_eq_true, decide_eq_true_eq] at hfresh
    exact hfresh v hv hl
  refine ⟨?_, ?_, ?_, h.received_eq, ?_, h.queued⟩
  . intro i j v w hv hw hlv hlw heq
    simp only [Server.dispatch, List.getElem?_append, List.getElem?_singleton] at hv hw
    split at hv
    . split at hw
      . exact h.distinct i j v w hv hw hlv hlw heq
      . have hw : w = Worker.new tid address filePath := by
          simp_all
        have := hnew (List.mem_of_getElem? hv) hlv
        simp [heq, hw, Worker.new] at this
    . split at hw
      . have hv : v = Worker.new tid address filePath := by
          simp_all
        have := hnew (List.mem_of_getElem? hw) hlw
        simp [← heq, hv, Worker.new] at this
      . grind
  . intro v hv
    simp only [Server.dispatch, List.mem_append, List.mem_singleton] at hv
    cases hv with
    | inl hv =>
      have := h.registered v hv
      rw [hmain] at this
      exact .inl (this.resolve_right (by simp))
    | inr hv => exact .inr (by simp [Server.dispatch, hv, Worker.new])
  . intro address' tid' heq
    cases heq
    exact hnone
  . intro address' t ht
    have := h.entry address' t ht
    rw [hmain] at this
    exact .inl (this.resolve_right (by simp))

theorem register (h : Consistent s) {address : Address} {tid : Nat}
    (hmain : s.mainThread = .registering address tid)
    : Consistent {
        s with
          registeredClients := Function.update s.registeredClients address (some tid)
          mainThread := .inserting tid
      } := by
  refine ⟨h.distinct, ?_, ?_, ?_, ?_, h.queued⟩
  . intro v hv
    left
    have := h.registered v hv
    by_cases heq : v.address = address
    . simp only [heq, h.unregistered _ _ hmain, hmain, reduceCtorEq, false_or,
        MainThread.registering.injEq, true_and] at this
      simp [heq, this]
    . simpa [hmain, heq, Ne.symm heq] using this
  . intro _ _ hmain'
    contradiction
  . intro address' hnone
    have hne : address' ≠ address := by
      intro heq
      simp [heq] at hnone
    apply h.received_eq
    simpa [hne] using hnone
  . intro address' t ht
    by_cases heq : address' = address
    . right
      simpa [heq] using ht
    . left
      have := h.entry address' t (by simpa [heq] using ht)
      simpa [hmain] using this

theorem updateWorkingThreads (h : Consistent s) (tid : Nat) (th : WorkerThread)
    : Consistent
        { s with workingThreads := Function.update s.workingThreads tid (some th) } := by
  have hsome {t : Nat} (ht : (s.workingThreads t).isSome = true)
      : (Function.update s.workingThreads tid (some th) t).isSome = true := by
    rw [Function.update_apply]
    split <;> simp [ht]
  refine ⟨h.distinct, h.registered, h.unregistered, h.received_eq, ?_, ?_⟩
  . intro address t ht
    exact (h.entry address t ht).imp_left hsome
  . intro t hqueue
    apply hsome
    apply h.queued
    exact hqueue

theorem insert (h : Consistent s) {tid : Nat} (hmain : s.mainThread = .inserting tid)
    : Consistent {
        s with
          workingThreads := Function.update s.workingThreads tid (some ⟨false⟩)
          mainThread := .receiving
      } := by
  have hupdate := h.updateWorkingThreads tid ⟨false⟩
  refine ⟨h.distinct, ?_, ?_, h.received_eq, ?_, hupdate.queued⟩
  . intro v hv
    have := h.registered v hv
    simpa [hmain] using this
  . intro _ _ hmain'
    contradiction
  . intro address t ht
    left
    cases hupdate.entry address t ht with
    | inl hsome => exact hsome
    | inr heq =>
      have heq : tid = t := by
        simpa [hmain] using heq
      simp [heq]

theorem step (h : Consistent s) (hs : Step cfg s e s') : Consistent s' := by
  cases hs with
  | ack hmain ht => exact (h.recvfrom _).pushAck hmain ht _
  | request hmain hnone _ hfresh => exact (h.recvfrom _).dispatch hmain hnone hfresh _
  | malformed => exact (h.recvfrom _).crash
  | register hmain => exact h.register hmain
  | insert hmain => exact h.insert hmain
  | construct hu hphase =>
    exact (h.withSender _).setWorker hu rfl rfl (by simp [Worker.live, hphase])
  | skip hu => exact (h.pop _).setWorker hu rfl rfl (fun hl => hl)
  | block hu hphase => exact (h.pop _).setWorker hu rfl rfl (by simp [Worker.live, hphase])
  | takeAck hu => exact ((h.pop _).withSender _).setWorker hu rfl rfl (fun hl => hl)
  | timeOut hu => exact (h.withSender _).setWorker hu rfl rfl (fun hl => hl)
  | finish hu hphase =>
    refine setWorker ⟨h.distinct, h.registered, h.unregistered, h.received_eq, h.entry, h.queued⟩ hu
      rfl rfl ?_
    simp [Worker.live, hphase]
  | finalize hu =>
    refine setWorker (h.updateWorkingThreads _ _) hu rfl rfl ?_
    simp [Worker.live]
  | nullPointer | crash => exact h.crash

end Consistent

/--
No ACK and no new worker meets a thread identifier that another client's worker has or has had.
-/
def Unmixed (s : Server) : Event → Prop
  | .recvfrom address _ tid =>
    match s.registeredClients address with
    | some t => ∀ u ∈ s.workers, u.live = true → u.tid = t → u.address = address
    | none => s.workerThreadsAcks tid = []
  | _ => True

instance (s : Server) (e : Event) : Decidable (Unmixed s e) :=
  match e with
  | .recvfrom address _ tid =>
    match h : s.registeredClients address with
    | some t =>
      decidable_of_iff (∀ u ∈ s.workers, u.live = true → u.tid = t → u.address = address)
        (by simp only [Unmixed, h])
    | none => decidable_of_iff (s.workerThreadsAcks tid = []) (by simp only [Unmixed, h])
  | .register | .insert | .construct _ | .takeAck _ | .timeOut _ | .race _ | .finish _
  | .finalize _ =>
    .isTrue trivial

structure Routed (s : Server) (u : Worker) : Prop where
  live : u.live = true → u.taken ++ s.workerThreadsAcks u.tid = s.received u.address
  prefix_taken : u.taken <+: s.received u.address

theorem routed_setWorker (h : ∀ v ∈ s.workers, Routed s v) (hu : s.workers[id]? = some u)
    (htid : u'.tid = u.tid) (haddress : u'.address = u.address) (htaken : u'.taken = u.taken)
    (hlive : u'.live = true → u.live = true)
    : ∀ v ∈ (s.setWorker id u').workers, Routed (s.setWorker id u') v := by
  intro v hv
  cases mem_set_cases hv with
  | inl heq =>
    have hr := h u (List.mem_of_getElem? hu)
    rw [heq]
    constructor
    . intro hl
      rw [htid, haddress, htaken]
      apply hr.live
      exact hlive hl
    . rw [haddress, htaken]
      exact hr.prefix_taken
  | inr hv =>
    obtain ⟨j, _, hj⟩ := hv
    have hr := h v (List.mem_of_getElem? hj)
    exact ⟨hr.live, hr.prefix_taken⟩

theorem routed_pushAck (h : ∀ v ∈ s.workers, Routed s v) (hc : Consistent s) {address : Address}
    {t : Nat} (hmain : s.mainThread = .receiving) (ht : s.registeredClients address = some t)
    (hun : ∀ u ∈ s.workers, u.live = true → u.tid = t → u.address = address) (ack : AckPacket)
    : ∀ v ∈ s.workers, Routed (s.pushAck address t ack) v := by
  intro v hv
  have hr := h v hv
  have htid : v.address = address → v.tid = t := by
    intro heq
    have := hc.registered v hv
    simpa [hmain, heq, ht, eq_comm] using this
  constructor
  . intro hl
    have := hr.live hl
    by_cases heq : v.address = address
    . simp [pushAck, heq, htid heq] at this ⊢
      rw [← this, List.append_assoc]
    . have hne : v.tid ≠ t := fun hvt => heq (hun v hv hl hvt)
      simpa [pushAck, heq, hne] using this
  . by_cases heq : v.address = address
    . have := hr.prefix_taken
      rw [heq] at this
      simpa [pushAck, heq] using this.trans (List.prefix_append _ _)
    . simpa [pushAck, heq] using hr.prefix_taken

theorem routed_dispatch (h : ∀ v ∈ s.workers, Routed s v) (hc : Consistent s) {address : Address}
    {tid : Nat} (hnone : s.registeredClients address = none) (hqueue : s.workerThreadsAcks tid = [])
    (filePath : Bytes)
    : ∀ v ∈ (s.dispatch address tid filePath).workers,
        Routed (s.dispatch address tid filePath) v := by
  intro v hv
  simp only [dispatch, List.mem_append, List.mem_singleton] at hv
  cases hv with
  | inl hv => exact ⟨(h v hv).live, (h v hv).prefix_taken⟩
  | inr hv =>
    have hreceived := hc.received_eq address hnone
    rw [hv]
    constructor
    . intro _
      simp [dispatch, Worker.new, hqueue, hreceived]
    . simp [dispatch, Worker.new]

theorem routed_takeAck (h : ∀ v ∈ s.workers, Routed s v) (hc : Consistent s)
    (hu : s.workers[id]? = some u) (hlive : u.live = true) {a : AckPacket} {acks : List AckPacket}
    (hacks : s.workerThreadsAcks u.tid = a :: acks) (htid : u'.tid = u.tid)
    (haddress : u'.address = u.address) (htaken : u'.taken = u.taken ++ [a]) (sender : PacketSender)
    : let t := { s.pop u.tid with sender }.setWorker id u'
      ∀ v ∈ t.workers, Routed t v := by
  intro t v hv
  have hqueue : t.workerThreadsAcks = Function.update s.workerThreadsAcks u.tid acks := by
    simp only [t, setWorker, pop, hacks, List.tail_cons]
  have hreceived := (h u (List.mem_of_getElem? hu)).live hlive
  rw [hacks, List.append_cons] at hreceived
  cases mem_set_cases hv with
  | inl heq =>
    rw [heq, ← haddress] at *
    constructor
    . intro _
      rw [hqueue, htid, htaken, Function.update_self]
      exact hreceived
    . rw [htaken]
      exact ⟨acks, hreceived⟩
  | inr hv =>
    obtain ⟨j, hne, hj⟩ := hv
    have hr := h v (List.mem_of_getElem? hj)
    refine ⟨?_, hr.prefix_taken⟩
    intro hl
    have htid : v.tid ≠ u.tid := fun heq => hne (hc.distinct j id v u hj hu hl hlive heq)
    rw [hqueue, Function.update_of_ne htid]
    exact hr.live hl

theorem routed_step (hc : Consistent s) (h : ∀ u ∈ s.workers, Routed s u) (hun : Unmixed s e)
    (hs : Step cfg s e s')
    : ∀ u ∈ s'.workers, Routed s' u := by
  have hsame {t : Server} (hworkers : t.workers = s.workers)
      (hacks : t.workerThreadsAcks = s.workerThreadsAcks) (hreceived : t.received = s.received)
      : ∀ u ∈ t.workers, Routed t u := by
    intro u hu
    rw [hworkers] at hu
    constructor
    . rw [hacks, hreceived]
      exact (h u hu).live
    . rw [hreceived]
      exact (h u hu).prefix_taken
  cases hs with
  | @ack address datagram tid t hmain ht =>
    simp only [Unmixed, ht] at hun
    exact routed_pushAck (s := s.recvfrom datagram) (hsame rfl rfl rfl) (hc.recvfrom _) hmain ht hun _
  | @request address datagram tid _ _ hnone =>
    simp only [Unmixed, hnone] at hun
    exact routed_dispatch (s := s.recvfrom datagram) (hsame rfl rfl rfl) (hc.recvfrom _) hnone hun _
  | malformed => exact hsame rfl rfl rfl
  | register => exact hsame rfl rfl rfl
  | insert => exact hsame rfl rfl rfl
  | construct hu hphase =>
    exact routed_setWorker (hsame rfl rfl rfl) hu rfl rfl rfl (by simp [Worker.live, hphase])
  | skip hu hphase _ _ hacks | block hu hphase _ _ hacks | takeAck hu hphase _ _ hacks =>
    apply routed_takeAck h hc hu (by simp [Worker.live, hphase]) hacks
    all_goals rfl
  | timeOut hu => exact routed_setWorker (hsame rfl rfl rfl) hu rfl rfl rfl (fun hl => hl)
  | finish hu hphase =>
    refine routed_setWorker (hsame rfl rfl rfl) hu rfl rfl rfl ?_
    simp [Worker.live, hphase]
  | finalize hu =>
    refine routed_setWorker (hsame rfl rfl rfl) hu rfl rfl rfl ?_
    simp [Worker.live]
  | nullPointer | crash => exact hsame rfl rfl rfl

theorem routed_of_reachableWhen (h : StepFn.ReachableWhen (step cfg) Unmixed (init buffer) s)
    : ∀ u ∈ s.workers, Routed s u := by
  have hinv : Consistent s ∧ ∀ u ∈ s.workers, Routed s u := by
    apply StepFn.ReachableWhen.invariant (P := fun s => Consistent s ∧ ∀ u ∈ s.workers, Routed s u) _ _
      h
    . exact ⟨consistent_init, by simp [init]⟩
    . intro s e s' hs hun hstep
      have hstep := Step.of_step hstep
      exact ⟨hs.1.step hstep, routed_step hs.1 hs.2 hun hstep⟩
  exact hinv.2

theorem taken_prefix_of_reachableWhen
    (h : StepFn.ReachableWhen (step cfg) Unmixed (init buffer) s)
    : ∀ u ∈ s.workers, u.taken <+: s.received u.address := by
  intro u hu
  exact (routed_of_reachableWhen h u hu).prefix_taken

def sampleConfig : Config :=
  {
    mode := .stopAndWait
    env := fun _ => { now := fun reads => reads, tripleDupAck := fun _ => false }
    packetSender := { lossSequence := [10], lossProbability := 0, distribution := fun _ => 1 }
    files := fun path =>
      if path = [1] then
        .whole []
      else if path = [2] then
        .whole [10, 20]
      else
        .missing
    nextSeqNumber := fun _ => 0
    maxWindowSize := 1
    threshold := 1
  }

def sampleClient (port : UInt16) : Address :=
  { ip := 0x7F000001, port }

def sampleRequest (path : Bytes) : Bytes :=
  (DataPacket.new path 0).pack

def sampleServer : Server :=
  (StepFn.run (StepFn.guarded (step sampleConfig) Unmixed) (init (fun _ => 0))
    [
      .recvfrom (sampleClient 1) (sampleRequest [2]) 5, .register, .insert, .construct 0,
      .recvfrom (sampleClient 2) (sampleRequest [2]) 6, .register, .construct 1, .insert,
      .recvfrom (sampleClient 1) (AckPacket.new 1).pack 7, .takeAck 0, .finish 0, .finalize 0
    ]).get (by decide +kernel)

theorem taken_prefix_sampleServer
    : [AckPacket.new 1] <+: sampleServer.received (sampleClient 1) := by
  have hreach : StepFn.ReachableWhen (step sampleConfig) Unmixed (init (fun _ => 0)) sampleServer := by
    apply StepFn.reachableWhen_of_guarded
    apply StepFn.reachable_get_run
  have hworker
      : ∃ u ∈ sampleServer.workers, u.address = sampleClient 1 ∧ u.taken = [AckPacket.new 1] := by
    decide +kernel
  obtain ⟨u, hu, haddress, htaken⟩ := hworker
  have hprefix := taken_prefix_of_reachableWhen hreach u hu
  rw [haddress, htaken] at hprefix
  exact hprefix

-- The thread that served the first client is gone when its ACK arrives, and the second client's worker
-- has the identifier of that thread.
def reusedServer : Server :=
  (StepFn.run (step sampleConfig) (init (fun _ => 0))
    [
      .recvfrom (sampleClient 1) (sampleRequest [1]) 5, .register, .insert, .construct 0,
      .finish 0, .finalize 0,
      .recvfrom (sampleClient 2) (sampleRequest [2]) 5, .register, .insert, .construct 1,
      .recvfrom (sampleClient 1) (AckPacket.new 1).pack 6, .takeAck 1
    ]).get (by decide +kernel)

theorem misrouted_reusedServer
    : ¬ ∀ s, StepFn.Reachable (step sampleConfig) (init (fun _ => 0)) s
        → ∀ u ∈ s.workers, u.taken <+: s.received u.address := by
  intro h
  have hprefix := h reusedServer (StepFn.reachable_get_run _ _)
  revert hprefix
  decide +kernel

end Server
