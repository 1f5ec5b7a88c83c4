import Mathlib.Data.List.Nodup
import RdtProtocol.Server.Routing
import RdtProtocol.Shared.PacketLemmas

/-!
This module contains what the server makes of the datagrams of one address over a whole run. Nothing is
ever taken out of `registered_clients`, so that an address is served once.
-/

namespace Server

variable {cfg : Config} {buffer : Nat → UInt8} {s s' : Server} {e : Event} {u u' : Worker} {id : Nat}

theorem worker_of_step (hs : Step cfg s e s') (hu : s.workers[id]? = some u)
    : ∃ u', s'.workers[id]? = some u' ∧ u'.address = u.address ∧ u'.filePath = u.filePath
        ∧ u'.tid = u.tid := by
  have hset {t : Server} {i : Nat} {v v' : Worker} (hworkers : t.workers = s.workers)
      (hv : s.workers[i]? = some v) (haddress : v'.address = v.address)
      (hpath : v'.filePath = v.filePath) (htid : v'.tid = v.tid)
      : ∃ u', (t.setWorker i v').workers[id]? = some u' ∧ u'.address = u.address
          ∧ u'.filePath = u.filePath ∧ u'.tid = u.tid := by
    simp only [setWorker, hworkers, List.getElem?_set]
    split
    . next heq =>
      subst heq
      rw [hu] at hv
      cases hv
      rw [if_pos (List.getElem?_eq_some_iff.mp hu).1]
      exact ⟨v', rfl, haddress, hpath, htid⟩
    . exact ⟨u, hu, rfl, rfl, rfl⟩
  cases hs with
  | ack | malformed | register | insert | nullPointer | crash => exact ⟨u, hu, rfl, rfl, rfl⟩
  | request =>
    refine ⟨u, ?_, rfl, rfl, rfl⟩
    simp only [dispatch, recvfrom]
    rw [List.getElem?_append_left (List.getElem?_eq_some_iff.mp hu).1]
    exact hu
  | construct hv | skip hv | block hv | takeAck hv | timeOut hv | finish hv | finalize hv =>
    exact hset rfl hv rfl rfl rfl

def Requests (s : Server) (e : Event) (address : Address) (filePath : Bytes) : Prop :=
  s.mainThread = .receiving ∧ s.registeredClients address = none
    ∧ ∃ datagram tid request, e = .recvfrom address datagram tid
        ∧ DataPacket.unpack (truncate datagram) = some request ∧ request.data = filePath

theorem worker_origin (hs : Step cfg s e s') (hu' : u' ∈ s'.workers)
    : (∃ u ∈ s.workers, u.address = u'.address ∧ u.filePath = u'.filePath)
        ∨ Requests s e u'.address u'.filePath := by
  have hset {t : Server} {i : Nat} {v v' : Worker} (hmem : u' ∈ (t.setWorker i v').workers)
      (hworkers : t.workers = s.workers) (hv : s.workers[i]? = some v)
      (haddress : v'.address = v.address) (hpath : v'.filePath = v.filePath)
      : ∃ u ∈ s.workers, u.address = u'.address ∧ u.filePath = u'.filePath := by
    rw [setWorker, hworkers] at hmem
    cases mem_set_cases hmem with
    | inl heq => exact ⟨v, List.mem_of_getElem? hv, by rw [heq, haddress], by rw [heq, hpath]⟩
    | inr hold =>
      obtain ⟨j, _, hj⟩ := hold
      exact ⟨u', List.mem_of_getElem? hj, rfl, rfl⟩
  cases hs with
  | ack | malformed | register | insert | nullPointer | crash => exact .inl ⟨u', hu', rfl, rfl⟩
  | @request a datagram tid request hmain hnone hunpack =>
    simp only [dispatch, recvfrom, List.mem_append, List.mem_singleton] at hu'
    cases hu' with
    | inl hold => exact .inl ⟨u', hold, rfl, rfl⟩
    | inr heq =>
      rw [heq]
      exact .inr ⟨hmain, hnone, datagram, tid, request, rfl, hunpack, rfl⟩
  | construct hv | skip hv | block hv | takeAck hv | timeOut hv | finish hv | finalize hv =>
    exact .inl (hset hu' rfl hv rfl rfl)

theorem outgoing_origin {address : Address} {b : Bytes} (hs : Step cfg s e s')
    (hb : (address, b) ∈ s'.outgoing)
    : (address, b) ∈ s.outgoing
        ∨ (b = (AckPacket.new 0).pack ∧ ∃ filePath, Requests s e address filePath)
        ∨ ∃ u ∈ s.workers, u.address = address ∧ ∃ n, b = (DataPacket.new [] n).pack := by
  cases hs with
  | ack | malformed | register | insert | nullPointer | crash => exact .inl hb
  | construct | skip | block | takeAck | timeOut | finalize => exact .inl hb
  | @request a datagram tid request hmain hnone hunpack =>
    simp only [dispatch, recvfrom, List.mem_append, List.mem_singleton, Prod.mk.injEq] at hb
    cases hb with
    | inl hold => exact .inl hold
    | inr heq =>
      obtain ⟨rfl, rfl⟩ := heq
      exact .inr (.inl ⟨rfl, _, hmain, hnone, datagram, tid, request, rfl, hunpack, rfl⟩)
  | @finish id u rdt hu =>
    simp only [finish, setWorker, List.mem_append, List.mem_singleton, Prod.mk.injEq] at hb
    cases hb with
    | inl hold => exact .inl hold
    | inr heq => exact .inr (.inr ⟨u, List.mem_of_getElem? hu, heq.1.symm, _, heq.2⟩)

theorem eq_of_address_eq (hd : s.workers.Pairwise (fun u v => u.address ≠ v.address))
    (hu : u ∈ s.workers) (hu' : u' ∈ s.workers) (heq : u.address = u'.address)
    : u = u' := by
  have hnodup : (s.workers.map Worker.address).Nodup := List.pairwise_map.mpr hd
  exact List.inj_on_of_nodup_map hnodup hu hu' heq

theorem mem_setWorker_iff (hu : s.workers[id]? = some u) (v : Worker)
    (hd : s.workers.Pairwise (fun u v => u.address ≠ v.address))
    : v ∈ (s.setWorker id u').workers ↔ v = u' ∨ v ∈ s.workers ∧ v.address ≠ u.address := by
  have hlt := (List.getElem?_eq_some_iff.mp hu).1
  have hget := (List.getElem?_eq_some_iff.mp hu).2
  constructor
  . intro hv
    cases mem_set_cases hv with
    | inl heq => exact .inl heq
    | inr hj =>
      obtain ⟨j, hne, hj⟩ := hj
      refine .inr ⟨List.mem_of_getElem? hj, ?_⟩
      obtain ⟨hltj, hgetj⟩ := List.getElem?_eq_some_iff.mp hj
      rw [List.pairwise_iff_getElem] at hd
      cases Nat.lt_or_gt_of_ne hne with
      | inl hlt' =>
        rw [← hget, ← hgetj]
        exact hd j id hltj hlt hlt'
      | inr hgt =>
        rw [← hget, ← hgetj]
        exact (hd id j hlt hltj hgt).symm
  . intro hv
    rw [setWorker, List.mem_iff_getElem?]
    cases hv with
    | inl heq => exact ⟨id, by simp [heq, hlt]⟩
    | inr hv =>
      obtain ⟨j, hj⟩ := List.mem_iff_getElem?.mp hv.1
      have hne : id ≠ j := by
        intro heq
        subst heq
        rw [hu, Option.some.injEq] at hj
        exact hv.2 (congrArg _ hj.symm)
      exact ⟨j, by rw [List.getElem?_set_ne hne, hj]⟩

theorem pairwise_address_setWorker (hd : s.workers.Pairwise (fun u v => u.address ≠ v.address))
    (hu : s.workers[id]? = some u) (haddress : u'.address = u.address)
    : (s.setWorker id u').workers.Pairwise (fun u v => u.address ≠ v.address) := by
  have hset : (s.workers.set id u').map Worker.address = s.workers.map Worker.address := by
    obtain ⟨hlt, hget⟩ := List.getElem?_eq_some_iff.mp hu
    apply List.ext_getElem
    . simp
    . intro i h1 h2
      simp only [List.getElem_map, List.getElem_set]
      split
      . next heq =>
        subst heq
        rw [haddress, hget]
      . rfl
  rw [← List.pairwise_map (f := Worker.address) (R := (· ≠ ·))] at hd ⊢
  rw [setWorker, hset]
  exact hd

theorem address_ne_of_unregistered (hc : Consistent s) (hmain : s.mainThread = .receiving)
    {address : Address} (hnone : s.registeredClients address = none)
    : ∀ u ∈ s.workers, u.address ≠ address := by
  intro u hu heq
  have := hc.registered u hu
  simp [hmain, heq, hnone] at this

theorem pairwise_address_step (hc : Consistent s)
    (hd : s.workers.Pairwise (fun u v => u.address ≠ v.address)) (hs : Step cfg s e s')
    : s'.workers.Pairwise (fun u v => u.address ≠ v.address) := by
  cases hs with
  | ack | malformed | register | insert | nullPointer | crash => exact hd
  | request hmain hnone =>
    simp only [dispatch, recvfrom, List.pairwise_append, List.pairwise_singleton,
      List.mem_singleton, true_and]
    refine ⟨hd, ?_⟩
    intro u hu v hv
    rw [hv]
    exact address_ne_of_unregistered hc hmain hnone u hu
  | construct hu | skip hu | block hu | takeAck hu | timeOut hu | finish hu | finalize hu =>
    exact pairwise_address_setWorker (s := { s with .. }) hd hu rfl

def arrivals (address : Address) (es : List Event) : List Bytes :=
  es.filterMap fun e =>
    match e with
    | .recvfrom a datagram _ => if a = address then some datagram else none
    | _ => none

/--
The bytes that a short datagram does not have are left over from an earlier one.
-/
def Decodes (datagram : Bytes) (ack : AckPacket) : Prop :=
  ∃ buffer, ackPacket (fill buffer (truncate datagram)) = ack

/--
The first datagram is the request for the only file that the address will ever get. Each later one is an
ACK, whatever it was sent as. The worker has taken it or it is in the queue of the worker's thread.
-/
def Serves (s : Server) (address : Address) : List Bytes → Prop
  | [] => s.registeredClients address = none ∧ ∀ u ∈ s.workers, u.address ≠ address
  | request :: later =>
    ∃ p u acks, DataPacket.unpack (truncate request) = some p ∧ u ∈ s.workers
      ∧ u.address = address ∧ u.filePath = p.data ∧ (∀ v ∈ s.workers, v.address = address → v = u)
      ∧ (s.registeredClients address = some u.tid ∨ s.mainThread = .registering address u.tid)
      ∧ List.Forall₂ Decodes later acks ∧ u.taken <+: acks
      ∧ (u.live = true → u.taken ++ s.workerThreadsAcks u.tid = acks)

def Recorded (s : Server) (address : Address) : List Bytes → Prop
  | [] => s.registeredClients address = none ∧ ∀ u ∈ s.workers, u.address ≠ address
  | request :: later =>
    (∃ p u, DataPacket.unpack (truncate request) = some p ∧ u ∈ s.workers ∧ u.address = address
        ∧ u.filePath = p.data ∧ ∀ v ∈ s.workers, v.address = address → v = u)
      ∧ List.Forall₂ Decodes later (s.received address)

theorem Recorded.serves {address : Address} {datagrams : List Bytes} (h : Recorded s address datagrams)
    (hc : Consistent s) (hrouted : ∀ u ∈ s.workers, Routed s u)
    : Serves s address datagrams := by
  cases datagrams with
  | nil => exact h
  | cons request later =>
    obtain ⟨⟨p, u, hp, hu, haddress, hpath, hunique⟩, hacks⟩ := h
    have hregistered := hc.registered u hu
    obtain ⟨hlive, htaken⟩ := hrouted u hu
    rw [haddress] at hregistered hlive htaken
    exact ⟨p, u, s.received address, hp, hu, haddress, hpath, hunique, hregistered, hacks, htaken, hlive⟩

section

variable {address : Address}

theorem unpack_ackPacket (s : Server) {datagram : Bytes} (h : ACK_PKT_LEN ≤ datagram.length)
    : AckPacket.unpack datagram = some (ackPacket (s.recvfrom datagram).buffer) := by
  have hlen : ACK_PKT_LEN ≤ (truncate datagram).length := by
    rw [truncate, List.length_take]
    simp only [ACK_PKT_LEN, MAX_UDP_BUFFER_SIZE] at *
    omega
  have hstring : string (s.recvfrom datagram).buffer ACK_PKT_LEN = datagram.take ACK_PKT_LEN := by
    rw [recvfrom, string_fill _ hlen, truncate, List.take_take]
    rfl
  simp only [ackPacket, Option.some_get, hstring]
  obtain ⟨_, _, _, _, _, _, _, _, _, rfl⟩ := eq_header_append h
  rfl

theorem Recorded.setWorker {later : List Bytes} (h : Recorded s address later)
    (hd : s.workers.Pairwise (fun u v => u.address ≠ v.address)) (hu : s.workers[id]? = some u)
    (haddress : u'.address = u.address) (hpath : u'.filePath = u.filePath)
    : Recorded (s.setWorker id u') address later := by
  cases later with
  | nil =>
    refine ⟨h.1, ?_⟩
    intro v hv
    cases (mem_setWorker_iff hu v hd).mp hv with
    | inl heq =>
      rw [heq, haddress]
      exact h.2 u (List.mem_of_getElem? hu)
    | inr hv => exact h.2 v hv.1
  | cons request later =>
    obtain ⟨⟨p, w, hp, hw, hwaddress, hwpath, hunique⟩, hqueue⟩ := h
    refine ⟨?_, hqueue⟩
    by_cases heq : u.address = address
    . have hwu : u = w := hunique u (List.mem_of_getElem? hu) heq
      refine ⟨p, u', hp, (mem_setWorker_iff hu u' hd).mpr (.inl rfl), haddress.trans heq, ?_, ?_⟩
      . rw [hpath, hwu, hwpath]
      . intro v hv hvaddress
        cases (mem_setWorker_iff hu v hd).mp hv with
        | inl hv => exact hv
        | inr hv => exact absurd (hvaddress.trans heq.symm) hv.2
    . have hne : w.address ≠ u.address := fun h => heq (h ▸ hwaddress)
      refine ⟨p, w, hp, (mem_setWorker_iff hu w hd).mpr (.inr ⟨hw, hne⟩), hwaddress, hwpath, ?_⟩
      intro v hv hvaddress
      cases (mem_setWorker_iff hu v hd).mp hv with
      | inl hv =>
        rw [hv, haddress] at hvaddress
        exact absurd hvaddress heq
      | inr hv => exact hunique v hv.1 hvaddress

theorem Recorded.congr {later : List Bytes} (h : Recorded s address later)
    (hregistered : s'.registeredClients address = s.registeredClients address)
    (hworkers : s'.workers = s.workers) (hreceived : s'.received address = s.received address)
    : Recorded s' address later := by
  unfold Recorded at *
  rw [hregistered, hworkers, hreceived]
  exact h

theorem Recorded.pushAck {later : List Bytes} (h : Recorded s address later) {a : Address} {t : Nat}
    (ht : s.registeredClients a = some t) (datagram : Bytes)
    : Recorded ((s.recvfrom datagram).pushAck a t (ackPacket (s.recvfrom datagram).buffer)) address
        (later ++ if a = address then [datagram] else []) := by
  by_cases heq : a = address
  . subst heq
    cases later with
    | nil => simp [h.1] at ht
    | cons request later =>
      refine ⟨h.1, ?_⟩
      simp only [if_true, Server.pushAck, Function.update_self]
      apply List.rel_append h.2
      exact .cons ⟨s.buffer, rfl⟩ .nil
  . simp only [heq, if_false, List.append_nil]
    refine h.congr rfl rfl ?_
    simp [Server.pushAck, recvfrom, Ne.symm heq]

theorem Recorded.dispatch {later : List Bytes} (h : Recorded s address later) (hc : Consistent s)
    (hmain : s.mainThread = .receiving) {a : Address} {datagram : Bytes} {request : DataPacket}
    (hnone : s.registeredClients a = none)
    (hunpack : DataPacket.unpack (truncate datagram) = some request) (tid : Nat)
    : Recorded ((s.recvfrom datagram).dispatch a tid request.data) address
        (later ++ if a = address then [datagram] else []) := by
  have hmem {v : Worker} : v ∈ ((s.recvfrom datagram).dispatch a tid request.data).workers
      ↔ v ∈ s.workers ∨ v = Worker.new tid a request.data := by
    simp [Server.dispatch, recvfrom]
  by_cases heq : a = address
  . subst heq
    have hne := address_ne_of_unregistered hc hmain hnone
    cases later with
    | cons _ later =>
      obtain ⟨⟨_, w, _, hw, hwaddress, _⟩, _⟩ := h
      exact absurd hwaddress (hne w hw)
    | nil =>
      simp only [if_true, List.nil_append]
      refine ⟨⟨request, Worker.new tid a request.data, hunpack, hmem.mpr (.inr rfl), rfl, rfl, ?_⟩, ?_⟩
      . intro v hv hvaddress
        exact (hmem.mp hv).resolve_left (fun hv => hne v hv hvaddress)
      . have hreceived : ((s.recvfrom datagram).dispatch a tid request.data).received a = [] :=
          hc.received_eq a hnone
        rw [hreceived]
        exact .nil
  . simp only [heq, if_false, List.append_nil]
    have hnew : (Worker.new tid a request.data).address ≠ address := heq
    cases later with
    | nil =>
      refine ⟨h.1, ?_⟩
      intro v hv
      cases hmem.mp hv with
      | inl hv => exact h.2 v hv
      | inr hv => rwa [hv]
    | cons _ later =>
      obtain ⟨⟨p, w, hp, hw, hwaddress, hwpath, hunique⟩, hqueue⟩ := h
      refine ⟨⟨p, w, hp, hmem.mpr (.inl hw), hwaddress, hwpath, ?_⟩, hqueue⟩
      intro v hv hvaddress
      cases hmem.mp hv with
      | inl hv => exact hunique v hv hvaddress
      | inr hv => exact absurd (hv ▸ hvaddress) hnew

theorem arrivals_concat (es : List Event) (e : Event)
    : arrivals address (es ++ [e]) = arrivals address es ++ arrivals address [e] := by
  rw [arrivals, List.filterMap_append]
  rfl

theorem registering_step (h : ∀ a t, s.mainThread = .registering a t → ∃ u ∈ s.workers, u.address = a)
    (hs : Step cfg s e s')
    : ∀ a t, s'.mainThread = .registering a t → ∃ u ∈ s'.workers, u.address = a := by
  intro a t hmain
  have hkept (hmain : s.mainThread = .registering a t) : ∃ u ∈ s'.workers, u.address = a := by
    obtain ⟨u, hu, haddress⟩ := h a t hmain
    obtain ⟨i, hi⟩ := List.mem_iff_getElem?.mp hu
    obtain ⟨v, hv, hvaddress, _⟩ := worker_of_step hs hi
    exact ⟨v, List.mem_of_getElem? hv, hvaddress.trans haddress⟩
  cases hs with
  | request =>
    simp only [dispatch, MainThread.registering.injEq] at hmain
    exact ⟨_, List.mem_append_right _ List.mem_cons_self, hmain.1⟩
  | register => contradiction
  | insert => contradiction
  | _ => exact hkept hmain

structure History (es : List Event) (s : Server) : Prop where
  consistent : Consistent s
  distinct : s.workers.Pairwise (fun u v => u.address ≠ v.address)
  registering : ∀ a t, s.mainThread = .registering a t → ∃ u ∈ s.workers, u.address = a
  recorded : s.running = true → ∀ address, Recorded s address (arrivals address es)

theorem arrivals_recvfrom (a : Address) (datagram : Bytes) (tid : Nat)
    : arrivals address [.recvfrom a datagram tid] = if a = address then [datagram] else [] := by
  unfold arrivals
  by_cases h : a = address <;> simp [h]

theorem Recorded.register {later : List Bytes} (h : Recorded s address later) {a : Address} {tid : Nat}
    (hex : ∃ u ∈ s.workers, u.address = a)
    : Recorded {
        s with
          registeredClients := Function.update s.registeredClients a (some tid)
          mainThread := .inserting tid
      } address later := by
  cases later with
  | cons _ _ => exact h
  | nil =>
    obtain ⟨u, hu, haddress⟩ := hex
    have hne : address ≠ a := fun heq => h.2 u hu (haddress.trans heq.symm)
    refine h.congr ?_ rfl rfl
    simp [hne]

theorem History.step {es : List Event} (h : History es s) (hrun : s.running = true)
    (hs : Step cfg s e s')
    : History (es ++ [e]) s' := by
  refine ⟨h.consistent.step hs, pairwise_address_step h.consistent h.distinct hs,
    registering_step h.registering hs, ?_⟩
  intro hrun' address
  have hrecorded := h.recorded hrun address
  rw [arrivals_concat]
  cases hs with
  | malformed | nullPointer | crash => contradiction
  | ack _ ht =>
    rw [arrivals_recvfrom]
    exact hrecorded.pushAck ht _
  | request hmain hnone hunpack =>
    rw [arrivals_recvfrom]
    exact hrecorded.dispatch h.consistent hmain hnone hunpack _
  | register hmain =>
    rw [show arrivals address [.register] = [] from rfl, List.append_nil]
    exact hrecorded.register (h.registering _ _ hmain)
  | insert =>
    rw [show arrivals address [.insert] = [] from rfl, List.append_nil]
    exact hrecorded.congr rfl rfl rfl
  | construct hu | skip hu | block hu | takeAck hu | timeOut hu | finish hu | finalize hu =>
    rw [show arrivals address [_] = [] from rfl, List.append_nil]
    refine Recorded.setWorker (s := { s with .. }) ?_ h.distinct hu rfl rfl
    exact hrecorded.congr rfl rfl rfl

end

theorem serves_of_run {es : List Event}
    (h : StepFn.run (StepFn.guarded (step cfg) Unmixed) (init buffer) es = some s)
    (hrun : s.running = true) (address : Address)
    : Serves s address (arrivals address es) := by
  have hinit : History [] (init buffer) := by
    refine ⟨consistent_init, by simp [init], by simp [init], ?_⟩
    intro _ address
    simp [arrivals, Recorded, init]
  have hhistory : History ([] ++ es) s := by
    apply StepFn.run_history (P := History) _ es hinit h
    intro es s e s' hs hstep
    simp only [StepFn.guarded, Option.ite_none_right_eq_some] at hstep
    exact hs.step (running_of_step hstep.2) (.of_step hstep.2)
  have hreach : StepFn.ReachableWhen (step cfg) Unmixed (init buffer) s :=
    StepFn.reachableWhen_of_guarded (StepFn.reachable_of_run es .init h)
  exact (hhistory.recorded hrun address).serves hhistory.consistent (routed_of_reachableWhen hreach)

def sampleSession : List Event :=
  [
    .recvfrom (sampleClient 1) (sampleRequest [2]) 5, .register, .insert, .construct 0,
    .recvfrom (sampleClient 1) (sampleRequest [1]) 6, .takeAck 0
  ]

def servedServer : Server :=
  (StepFn.run (StepFn.guarded (step sampleConfig) Unmixed) (init (fun _ => 0)) sampleSession).get
    (by decide +kernel)

theorem serves_servedServer
    : Serves servedServer (sampleClient 1) [sampleRequest [2], sampleRequest [1]] := by
  have hrun : StepFn.run (StepFn.guarded (step sampleConfig) Unmixed) (init (fun _ => 0)) sampleSession
      = some servedServer :=
    (Option.some_get _).symm
  exact serves_of_run hrun (by decide +kernel) (sampleClient 1)

end Server
