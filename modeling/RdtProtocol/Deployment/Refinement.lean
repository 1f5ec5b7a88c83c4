import RdtProtocol.Client.Strategy.Recvfrom
import RdtProtocol.Deployment.Basic
import RdtProtocol.Server.Strategy.ModeSent
import RdtProtocol.Shared.Format
import RdtProtocol.Transfer.Regular

/-!
This module contains the proof that a deployment, seen from one of its clients, is a single transfer:
whatever the other clients and their workers do, what a client and its worker go through is a run of the
transition system of one transfer.
-/

namespace Deployment

def stage : Phase → Transfer.Stage
  | .created => .created
  | .running => .running
  | .blocked => .running
  | .finalizing => .finished
  | .ended => .finished

/--
The transfer of a client whose worker is the one with the number `id`.
-/
def transferConfig (cfg : Config) (cc : ClientConfig) (id : Nat) (file : Bytes) : Transfer.Config :=
  {
    mode := cfg.server.mode
    env := cfg.server.env id
    file
    reqFileName := cc.reqFileName
    nextSeqNumber := cfg.server.nextSeqNumber id
    maxWindowSize := cfg.server.maxWindowSize
    threshold := cfg.server.threshold
    clientWindowSize := cc.windowSize
  }

/--
What the server finds under the path that the client asks for.
-/
def requested (cfg : Config) (cc : ClientConfig) : FileStatus :=
  match DataPacket.unpack (Server.truncate cc.createReqDatagram) with
  | some request => cfg.server.files request.data
  | none => .missing

/--
Both sides have been started with a mode of the same kind.
-/
def Compatible (cfg : Config) (cc : ClientConfig) : Prop :=
  cc.mode = .goBackN ↔ cfg.server.mode = .goBackN

instance (cfg : Config) (cc : ClientConfig) : Decidable (Compatible cfg cc) :=
  inferInstanceAs (Decidable (_ ↔ _))

/--
A go back N timer that waits for its own mutex has not put its packet into `unacked_packets` again.
-/
def Follows (mode : Mode) (u : Worker) (rdt : RdtStrategy) : Prop :=
  (u.stuck = true → mode = .goBackN)
    ∧ ∃ unackedPackets, u.rdt = some { rdt with unackedPackets }
      ∧ (u.stuck = false → unackedPackets = rdt.unackedPackets)

/--
`w` is what the client at `address` and its worker make of the state.
-/
structure Projects (cfg : Config) (tcfg : Transfer.Config) (address : Address) (s : State)
    (w : Transfer.World) : Prop where
  running : (s.clients address).running = true
  receiving : w.receiving = (s.clients address).receiving
  client : w.client = (s.clients address).rdt
  toServer : w.toServer.map (·.bytes tcfg) = (s.clients address).sent
  toClient : ∀ b, b ∈ s.toClient address ↔ ∃ d ∈ w.toClient, d.bytes = b
  unserved : (∀ u ∈ s.server.workers, u.address ≠ address) → w.stage = .unregistered
  served : ∀ u ∈ s.server.workers, u.address = address
    → w.stage = stage u.phase ∧ cfg.server.files u.filePath = .whole tcfg.file
      ∧ (if u.phase = .created then u.rdt = none ∧ u.stuck = false
        else Follows cfg.server.mode u w.server)
  received : ∀ ack ∈ s.server.received address,
    ∃ d ∈ w.toServer, AckPacket.unpack (d.bytes tcfg) = some ack

theorem Follows.sent_eq {mode : Mode} {u : Worker} {rdt : RdtStrategy} (h : Follows mode u rdt)
    : u.rdt.elim [] (·.sent) = rdt.sent := by
  obtain ⟨_, unackedPackets, hrdt, _⟩ := h
  rw [hrdt]
  rfl

theorem Follows.eq_of_not_stuck {mode : Mode} {u : Worker} {rdt rdt' : RdtStrategy}
    (h : Follows mode u rdt) (hrdt' : u.rdt = some rdt') (hstuck : u.stuck = false)
    : rdt = rdt' := by
  obtain ⟨_, unackedPackets, hrdt, heq⟩ := h
  rw [hrdt, heq hstuck, Option.some.injEq] at hrdt'
  exact hrdt'

theorem follows_of_not_stuck {mode : Mode} {u : Worker} {rdt : RdtStrategy} (hrdt : u.rdt = some rdt)
    (hstuck : u.stuck = false)
    : Follows mode u rdt :=
  ⟨by simp [hstuck], rdt.unackedPackets, hrdt, fun _ => rfl⟩

theorem mem_toClient {s : State} {address : Address} {b : Bytes}
    : b ∈ s.toClient address
        ↔ (address, b) ∈ s.server.outgoing
          ∨ ∃ u ∈ s.server.workers, u.address = address
            ∧ ∃ p ∈ u.rdt.elim [] (·.sent), p.packet.pack = b := by
  simp only [State.toClient, List.mem_append, List.mem_map, List.mem_filter, List.mem_flatMap,
    decide_eq_true_eq, Prod.exists]
  constructor
  . rintro (⟨a, b', ⟨hmem, rfl⟩, rfl⟩ | ⟨u, ⟨hu, haddress⟩, p, hp, rfl⟩)
    . exact .inl hmem
    . exact .inr ⟨u, hu, haddress, p, hp, rfl⟩
  . rintro (hmem | ⟨u, hu, haddress, p, hp, rfl⟩)
    . exact .inl ⟨address, b, ⟨hmem, rfl⟩, rfl⟩
    . exact .inr ⟨u, ⟨hu, haddress⟩, p, hp, rfl⟩

section

variable {cfg : Config} {tcfg : Transfer.Config} {address : Address} {s s' : State}
variable {w w' : Transfer.World}

theorem Projects.congr (h : Projects cfg tcfg address s w)
    (hclient : s'.clients address = s.clients address)
    (hworkers : ∀ u, u.address = address → (u ∈ s'.server.workers ↔ u ∈ s.server.workers))
    (houtgoing : ∀ b, (address, b) ∈ s'.server.outgoing ↔ (address, b) ∈ s.server.outgoing)
    (hreceived : s'.server.received address = s.server.received address)
    : Projects cfg tcfg address s' w := by
  refine ⟨by rw [hclient, h.running], by rw [hclient, h.receiving], by rw [hclient, h.client],
    by rw [hclient, h.toServer], ?_, ?_, ?_, by rw [hreceived]; exact h.received⟩
  . intro b
    rw [← h.toClient b, mem_toClient, mem_toClient, houtgoing]
    constructor
    . rintro (hmem | ⟨u, hu, haddress, hp⟩)
      . exact .inl hmem
      . exact .inr ⟨u, (hworkers u haddress).mp hu, haddress, hp⟩
    . rintro (hmem | ⟨u, hu, haddress, hp⟩)
      . exact .inl hmem
      . exact .inr ⟨u, (hworkers u haddress).mpr hu, haddress, hp⟩
  . intro hnone
    apply h.unserved
    intro u hu haddress
    exact hnone u ((hworkers u haddress).mpr hu) haddress
  . intro u hu haddress
    exact h.served u ((hworkers u haddress).mp hu) haddress

theorem Projects.setClient_of_ne (h : Projects cfg tcfg address s w) {a : Address} (hne : a ≠ address)
    (c : Client)
    : Projects cfg tcfg address (s.setClient a c) w := by
  apply h.congr
  . simp [State.setClient, Ne.symm hne]
  . exact fun _ _ => Iff.rfl
  . exact fun _ => Iff.rfl
  . rfl

theorem toClient_setClient (a : Address) (c : Client)
    : (s.setClient a c).toClient address = s.toClient address := by
  rfl

theorem Projects.setClient (h : Projects cfg tcfg address s w) {c : Client}
    (hrunning : c.running = true) (hreceiving : w'.receiving = c.receiving) (hclient : w'.client = c.rdt)
    (hsent : w'.toServer.map (·.bytes tcfg) = c.sent) (htoServer : w.toServer <+: w'.toServer)
    (htoClient : w'.toClient = w.toClient) (hstage : w'.stage = w.stage)
    (hserver : w'.server = w.server)
    : Projects cfg tcfg address (s.setClient address c) w' := by
  refine ⟨?_, ?_, ?_, ?_, ?_, ?_, ?_, ?_⟩
  . simpa [State.setClient] using hrunning
  . simpa [State.setClient] using hreceiving
  . simpa [State.setClient] using hclient
  . simpa [State.setClient] using hsent
  . intro b
    rw [toClient_setClient, htoClient]
    exact h.toClient b
  . rw [hstage]
    exact h.unserved
  . rw [hstage, hserver]
    exact h.served
  . intro ack hack
    obtain ⟨d, hd, heq⟩ := h.received ack hack
    exact ⟨d, htoServer.subset hd, heq⟩

theorem Projects.setWorker_of_ne (h : Projects cfg tcfg address s w)
    (hd : s.server.workers.Pairwise (fun u v => u.address ≠ v.address)) {id : Nat} {u u' : Worker}
    (hu : s.server.workers[id]? = some u) (hne : u.address ≠ address)
    (haddress : u'.address = u.address) {t : Server} (hworkers : t.workers = s.server.workers)
    (houtgoing : ∀ b, (address, b) ∈ t.outgoing ↔ (address, b) ∈ s.server.outgoing)
    (hreceived : t.received address = s.server.received address)
    : Projects cfg tcfg address { s with server := t.setWorker id u' } w := by
  rw [← hworkers] at hd hu
  have hother (v : Worker) (hv : v.address = address)
      : v ∈ (t.setWorker id u').workers ↔ v ∈ s.server.workers := by
    rw [Server.mem_setWorker_iff hu v hd, ← hworkers]
    constructor
    . rintro (heq | hv)
      . rw [heq, haddress] at hv
        exact absurd hv hne
      . exact hv.1
    . intro hmem
      exact .inr ⟨hmem, by rw [hv]; exact hne.symm⟩
  exact h.congr rfl hother houtgoing hreceived

theorem Projects.setWorker (h : Projects cfg tcfg address s w)
    (hd : s.server.workers.Pairwise (fun u v => u.address ≠ v.address)) {id : Nat} {u u' : Worker}
    (hu : s.server.workers[id]? = some u) (hmine : u.address = address)
    (haddress : u'.address = u.address) (hpath : u'.filePath = u.filePath)
    {t : Server} (hworkers : t.workers = s.server.workers)
    (hreceived : t.received address = s.server.received address)
    (hreceiving : w'.receiving = w.receiving) (hclient : w'.client = w.client)
    (htoServer : w'.toServer = w.toServer) (hstage : w'.stage = stage u'.phase)
    (hrdt : if u'.phase = .created then u'.rdt = none ∧ u'.stuck = false
      else Follows cfg.server.mode u' w'.server)
    (htoClient : ∀ b, ((address, b) ∈ t.outgoing
        ∨ ∃ p ∈ u'.rdt.elim [] (·.sent), p.packet.pack = b) ↔ ∃ d ∈ w'.toClient, d.bytes = b)
    : Projects cfg tcfg address { s with server := t.setWorker id u' } w' := by
  rw [← hworkers] at hd hu
  have hmem (v : Worker) (hv : v.address = address) : v ∈ (t.setWorker id u').workers ↔ v = u' := by
    rw [Server.mem_setWorker_iff hu v hd]
    simp [hv, hmine]
  have hown : u'.address = address := haddress.trans hmine
  refine ⟨h.running, hreceiving.trans h.receiving, hclient.trans h.client,
    by rw [htoServer]; exact h.toServer, ?_, ?_, ?_, ?_⟩
  . intro b
    rw [mem_toClient, ← htoClient b]
    apply or_congr Iff.rfl
    constructor
    . rintro ⟨v, hv, hvaddress, hp⟩
      rw [(hmem v hvaddress).mp hv] at hp
      exact hp
    . intro hp
      exact ⟨u', (hmem u' hown).mpr rfl, hown, hp⟩
  . intro hnone
    exact absurd hown (hnone u' ((hmem u' hown).mpr rfl))
  . intro v hv hvaddress
    rw [(hmem v hvaddress).mp hv]
    refine ⟨hstage, ?_, hrdt⟩
    rw [hpath]
    exact (h.served u (by rw [← hworkers]; exact List.mem_of_getElem? hu) hmine).2.1
  . intro ack hack
    rw [htoServer]
    apply h.received
    rw [← hreceived]
    exact hack

theorem Projects.sent_iff (h : Projects cfg tcfg address s w)
    (hd : s.server.workers.Pairwise (fun u v => u.address ≠ v.address)) {u : Worker}
    (hu : u ∈ s.server.workers) (hmine : u.address = address) (b : Bytes)
    : ((address, b) ∈ s.server.outgoing ∨ ∃ p ∈ u.rdt.elim [] (·.sent), p.packet.pack = b)
        ↔ ∃ d ∈ w.toClient, d.bytes = b := by
  rw [← h.toClient b, mem_toClient]
  apply or_congr Iff.rfl
  constructor
  . intro hp
    exact ⟨u, hu, hmine, hp⟩
  . rintro ⟨v, hv, hvaddress, hp⟩
    have heq : v = u := Server.eq_of_address_eq hd hv hu (hvaddress.trans hmine.symm)
    exact heq ▸ hp

theorem exists_mem_concat {ds : List Transfer.ServerDatagram} {d : Transfer.ServerDatagram} {b : Bytes}
    : (∃ x ∈ ds ++ [d], x.bytes = b) ↔ (∃ x ∈ ds, x.bytes = b) ∨ d.bytes = b := by
  simp only [List.mem_append, List.mem_singleton, or_and_right, exists_or, exists_eq_left]

theorem mem_toClient_withServer {t : RdtStrategy} {b : Bytes}
    : (∃ d ∈ (w.withServer t).toClient, d.bytes = b)
        ↔ (∃ d ∈ w.toClient, d.bytes = b)
          ∨ ∃ p ∈ t.sent.drop w.server.sent.length, p.packet.pack = b := by
  simp only [Transfer.World.withServer, List.mem_append, List.mem_map]
  constructor
  . rintro ⟨d, hd | ⟨p, hp, rfl⟩, rfl⟩
    . exact .inl ⟨d, hd, rfl⟩
    . exact .inr ⟨p, hp, rfl⟩
  . rintro (⟨d, hd, rfl⟩ | ⟨p, hp, rfl⟩)
    . exact ⟨d, .inl hd, rfl⟩
    . exact ⟨.data p.packet, .inr ⟨p, hp, rfl⟩, rfl⟩

theorem Projects.setStrategy (h : Projects cfg tcfg address s w)
    (hd : s.server.workers.Pairwise (fun u v => u.address ≠ v.address)) {id : Nat} {u u' : Worker}
    (hu : s.server.workers[id]? = some u) (hmine : u.address = address)
    (haddress : u'.address = u.address) (hpath : u'.filePath = u.filePath)
    {t : Server} (hworkers : t.workers = s.server.workers) (houtgoing : t.outgoing = s.server.outgoing)
    (hreceived : t.received address = s.server.received address) {rdt : RdtStrategy}
    (hsent : u.rdt.elim [] (·.sent) = w.server.sent) (hsub : w.server.sent <+: rdt.sent)
    (hphase : u'.phase ≠ .created) (hrdt : Follows cfg.server.mode u' rdt)
    : Projects cfg tcfg address { s with server := t.setWorker id u' }
        { w.withServer rdt with stage := stage u'.phase } := by
  refine h.setWorker hd hu hmine haddress hpath hworkers hreceived rfl rfl rfl rfl ?_ ?_
  . rw [if_neg hphase]
    exact hrdt
  . intro b
    obtain ⟨new, hnew⟩ := hsub
    have hdrop : rdt.sent.drop w.server.sent.length = new := by
      rw [← hnew, List.drop_left]
    have hold := h.sent_iff hd (List.mem_of_getElem? hu) hmine b
    have hnet := mem_toClient_withServer (w := w) (t := rdt) (b := b)
    rw [hdrop, ← hold, hsent, or_assoc] at hnet
    refine Iff.trans ?_ hnet.symm
    rw [hrdt.sent_eq, houtgoing, ← hnew]
    simp only [List.mem_append, or_and_right, exists_or]

theorem Projects.sent_eq (h : Projects cfg tcfg address s w) (hregular : Transfer.Regular tcfg w)
    {u : Worker} (hu : u ∈ s.server.workers) (hmine : u.address = address)
    : u.rdt.elim [] (·.sent) = w.server.sent := by
  obtain ⟨hstage, _, hrdt⟩ := h.served u hu hmine
  split at hrdt
  . next hphase =>
    rw [hphase] at hstage
    rw [hrdt.1, hregular.server (.inr hstage), Transfer.sent_newStrategy]
    rfl
  . exact hrdt.sent_eq

def Simulated (cfg : Config) (tcfg : Transfer.Config) (address : Address) (s : State) : Prop :=
  ∃ w, StepFn.Reachable (Transfer.step tcfg) (Transfer.init tcfg) w ∧ Projects cfg tcfg address s w

section

variable {cc : ClientConfig} {id : Nat} {file : Bytes}

theorem runClient_transferConfig (hmode : Compatible cfg cc) (c : ClientRdtStrategy)
    (datagram : Bytes)
    : Transfer.runClient (transferConfig cfg cc id file) c datagram = cc.run c datagram := by
  unfold Compatible at hmode
  unfold Transfer.runClient ClientConfig.run transferConfig
  cases hc : cc.mode <;> cases hs : cfg.server.mode <;> simp_all

theorem newClientStrategy_transferConfig (hmode : Compatible cfg cc)
    : Transfer.newClientStrategy (transferConfig cfg cc id file) = cc.newStrategy := by
  unfold Compatible at hmode
  unfold Transfer.newClientStrategy ClientConfig.newStrategy transferConfig
  cases hc : cc.mode <;> cases hs : cfg.server.mode <;> simp_all

theorem Projects.sendRequest (hw : Projects cfg (transferConfig cfg cc id file) address s w)
    : Projects cfg (transferConfig cfg cc id file) address
        (s.setClient address {
          s.clients address with sent := (s.clients address).sent ++ [cc.createReqDatagram]
        })
        { w with toServer := w.toServer ++ [.request] } := by
  refine hw.setClient hw.running hw.receiving hw.client ?_ (List.prefix_append _ _) rfl rfl rfl
  simp only [List.map_append, hw.toServer]
  rfl

theorem Projects.handshake (hw : Projects cfg tcfg address s w)
    : Projects cfg tcfg address
        (s.setClient address { s.clients address with receiving := true })
        { w with receiving := true } :=
  hw.setClient hw.running rfl hw.client hw.toServer List.prefix_rfl rfl rfl rfl

theorem run_isSome (cc : ClientConfig) (c : ClientRdtStrategy) {datagram : Bytes}
    (hlen : HEADER_SIZE ≤ datagram.length)
    : ∃ rdt, cc.run c datagram = some rdt := by
  obtain ⟨p, hp⟩ := Option.isSome_iff_exists.mp (ClientRdtStrategy.recvPacket_isSome hlen)
  unfold ClientConfig.run
  cases cc.mode
  all_goals
    simp only [ClientSelectiveRepeat.run, ClientGoBackN.run, hp, Option.map_some]
    exact ⟨_, rfl⟩

theorem Projects.run (hw : Projects cfg tcfg address s w) {d : Transfer.ServerDatagram}
    {rdt : ClientRdtStrategy} (hrdt : cc.run (s.clients address).rdt d.bytes = some rdt)
    : Projects cfg tcfg address
        (s.setClient address ((s.clients address).read cc d.bytes)) (w.withClient rdt) := by
  have hread : (s.clients address).read cc d.bytes = (s.clients address).withStrategy rdt := by
    rw [Client.read, hrdt]
  rw [hread]
  refine hw.setClient hw.running hw.receiving rfl ?_ (List.prefix_append _ _) rfl rfl rfl
  simp only [Transfer.World.withClient, List.map_append, hw.toServer, Client.withStrategy, hw.client,
    List.map_map]
  rfl

/--
Nobody but the server sends anything to the client at `address`.
-/
def Genuine (address : Address) : Event → Prop
  | .foreign a _ => a ≠ address
  | _ => True

instance (address : Address) (e : Event) : Decidable (Genuine address e) :=
  match e with
  | .foreign a _ => inferInstanceAs (Decidable (a ≠ address))
  | .server _ | .sendRequest _ | .handshake _ _ | .run _ _ => .isTrue trivial

theorem simulated_client (hmode : Compatible cfg cc) (hcc : cfg.clients address = some cc)
    (hsizes : cfg.server.mode = .selectiveRepeat → (transferConfig cfg cc id file).Valid)
    (h : Simulated cfg (transferConfig cfg cc id file) address s) {e : Event}
    (hserver : ∀ e', e ≠ .server e') (hgenuine : Genuine address e) (hs : Step cfg s e s')
    : Simulated cfg (transferConfig cfg cc id file) address s' := by
  obtain ⟨w, hreach, hw⟩ := h
  cases hs with
  | server => exact absurd rfl (hserver _)
  | @sendRequest a cc' hcc' _ hreceiving =>
    by_cases ha : a = address
    . subst ha
      rw [hcc] at hcc'
      cases hcc'
      refine ⟨_, hreach.step (e := .sendRequest) trivial ?_, hw.sendRequest⟩
      simp [Transfer.step, hw.receiving, hreceiving]
    . exact ⟨w, hreach, hw.setClient_of_ne ha _⟩
  | @handshake a cc' datagram hcc' _ hreceiving hmem =>
    by_cases ha : a = address
    . subst ha
      obtain ⟨d, hd, _⟩ := (hw.toClient datagram).mp hmem
      refine ⟨_, hreach.step (e := .handshake d) trivial ?_, hw.handshake⟩
      simp [Transfer.step, hw.receiving, hreceiving, hd]
    . exact ⟨w, hreach, hw.setClient_of_ne ha _⟩
  | @run a cc' datagram hcc' _ hreceiving hdone hmem =>
    by_cases ha : a = address
    . subst ha
      rw [hcc] at hcc'
      cases hcc'
      obtain ⟨d, hd, rfl⟩ := (hw.toClient datagram).mp hmem
      have hheader := (Transfer.supplied_of_reachable hsizes hreach).header d hd
      obtain ⟨rdt, hrdt⟩ := run_isSome cc (s.clients a).rdt hheader
      refine ⟨_, hreach.step (e := .run d) trivial ?_, hw.run hrdt⟩
      have hrun : Transfer.runClient (transferConfig cfg cc id file) w.client d.bytes = some rdt := by
        rw [runClient_transferConfig hmode, hw.client, hrdt]
      rw [← hw.client] at hdone
      simp [Transfer.step, hw.receiving, hreceiving, hdone, hd, hrun]
    . exact ⟨w, hreach, hw.setClient_of_ne ha _⟩
  | drop => exact ⟨w, hreach, hw⟩
  | foreign => exact ⟨w, hreach, hw.setClient_of_ne hgenuine _⟩

def ServedBy (address : Address) (id : Nat) (server : Server) : Prop :=
  ∀ i u, server.workers[i]? = some u → u.address = address → i = id

section

variable {server : Server} {e : Server.Event}

theorem simulated_other (h : Simulated cfg tcfg address s) {server : Server}
    (hworkers : ∀ u, u.address = address → (u ∈ server.workers ↔ u ∈ s.server.workers))
    (houtgoing : ∀ b, (address, b) ∈ server.outgoing ↔ (address, b) ∈ s.server.outgoing)
    (hreceived : server.received address = s.server.received address)
    : Simulated cfg tcfg address { s with server } := by
  obtain ⟨w, hreach, hw⟩ := h
  exact ⟨w, hreach, hw.congr rfl hworkers houtgoing hreceived⟩

theorem truncate_createReqDatagram (cc : ClientConfig)
    : Server.truncate cc.createReqDatagram = cc.createReqDatagram := by
  apply List.take_of_length_le
  have hle := DataPacket.length_pack_le (DataPacket.new cc.reqFileName 0)
  have hlt := (DataPacket.new cc.reqFileName 0).len.toNat_lt
  simp only [MAX_UDP_BUFFER_SIZE, ClientConfig.createReqDatagram]
  omega

theorem unpack_createReqDatagram (hfile : requested cfg cc = .whole file)
    : ∃ request, DataPacket.unpack cc.createReqDatagram = some request
        ∧ cfg.server.files request.data = .whole file := by
  unfold requested at hfile
  rw [truncate_createReqDatagram] at hfile
  split at hfile
  . next request hrequest => exact ⟨request, hrequest, hfile⟩
  . contradiction

theorem Projects.pushAck (hcc : cfg.clients address = some cc)
    (hfile : requested cfg cc = .whole file) {a : Address} {datagram : Bytes} {tid t : Nat}
    (harrives : arrives cfg s (.recvfrom a datagram tid) = true)
    (hregular : Transfer.Regular (transferConfig cfg cc id file) w)
    (hw : Projects cfg (transferConfig cfg cc id file) address s w)
    : Projects cfg (transferConfig cfg cc id file) address {
        s with
          server := (s.server.recvfrom datagram).pushAck a t
            (Server.ackPacket (s.server.recvfrom datagram).buffer)
      } w := by
  refine ⟨hw.running, hw.receiving, hw.client, hw.toServer, hw.toClient, hw.unserved, hw.served, ?_⟩
  intro ack hack
  by_cases ha : a = address
  . subst ha
    simp only [Server.pushAck, Server.recvfrom, Function.update_self, List.mem_append,
      List.mem_singleton] at hack
    cases hack with
    | inl hack => exact hw.received ack hack
    | inr hack =>
      simp only [arrives, hcc, Option.isNone_some, Bool.false_or, List.contains_iff_mem] at harrives
      rw [← hw.toServer, List.mem_map] at harrives
      obtain ⟨d, hd, hbytes⟩ := harrives
      refine ⟨d, hd, ?_⟩
      have hlen : ACK_PKT_LEN ≤ datagram.length := by
        rw [← hbytes]
        cases d with
        | request =>
          obtain ⟨request, hrequest, _⟩ := unpack_createReqDatagram hfile
          apply Nat.le_of_not_lt
          intro hlt
          have hnone := DataPacket.unpack_eq_none hlt
          rw [Transfer.ClientDatagram.bytes] at hnone
          rw [ClientConfig.createReqDatagram] at hrequest
          exact absurd (hrequest.symm.trans hnone) (by simp)
        | ack packet =>
          obtain ⟨n, rfl⟩ := hregular.ack packet hd
          rfl
      rw [hack, hbytes]
      exact Server.unpack_ackPacket s.server hlen
  . apply hw.received
    simpa [Server.pushAck, Server.recvfrom, Ne.symm ha] using hack

theorem simulated_ack (hcc : cfg.clients address = some cc)
    (hfile : requested cfg cc = .whole file) {a : Address} {datagram : Bytes} {tid t : Nat}
    (harrives : arrives cfg s (.recvfrom a datagram tid) = true)
    (h : Simulated cfg (transferConfig cfg cc id file) address s)
    : Simulated cfg (transferConfig cfg cc id file) address {
        s with
          server := (s.server.recvfrom datagram).pushAck a t
            (Server.ackPacket (s.server.recvfrom datagram).buffer)
      } := by
  obtain ⟨w, hreach, hw⟩ := h
  exact ⟨w, hreach, hw.pushAck hcc hfile harrives (Transfer.regular_of_reachable hreach)⟩

theorem Projects.dispatch (hw : Projects cfg tcfg address s w)
    (hne : ∀ u ∈ s.server.workers, u.address ≠ address) {filePath : Bytes}
    (hpath : cfg.server.files filePath = .whole tcfg.file) (datagram : Bytes) (tid : Nat)
    : Projects cfg tcfg address
        { s with server := (s.server.recvfrom datagram).dispatch address tid filePath }
        { w with stage := .created, toClient := w.toClient ++ [.requestAck] } := by
  refine ⟨hw.running, hw.receiving, hw.client, hw.toServer, ?_, ?_, ?_, hw.received⟩
  . intro b
    rw [exists_mem_concat, ← hw.toClient b, mem_toClient, mem_toClient]
    have hack : b = (AckPacket.new 0).pack ↔ Transfer.ServerDatagram.requestAck.bytes = b :=
      eq_comm
    simp only [Server.dispatch, Server.recvfrom, List.mem_append, List.mem_singleton,
      Prod.mk.injEq, true_and, exists_or, or_and_right, Worker.new, exists_eq_left,
      Option.elim_none, List.not_mem_nil, false_and, exists_false, and_false, or_false, hack]
    tauto
  . intro hnone
    exact absurd rfl (hnone _ (List.mem_append_right _ List.mem_cons_self))
  . intro u hu haddress
    simp only [Server.dispatch, Server.recvfrom, List.mem_append, List.mem_singleton] at hu
    cases hu with
    | inl hu => exact absurd haddress (hne u hu)
    | inr hu =>
      subst hu
      exact ⟨rfl, hpath, rfl, rfl⟩

theorem simulated_request (hcc : cfg.clients address = some cc)
    (hfile : requested cfg cc = .whole file) (hc : Server.Consistent s.server)
    (hmain : s.server.mainThread = .receiving) {a : Address} {datagram : Bytes} {tid : Nat}
    {request : DataPacket} (hnone : s.server.registeredClients a = none)
    (hunpack : DataPacket.unpack (Server.truncate datagram) = some request)
    (harrives : arrives cfg s (.recvfrom a datagram tid) = true)
    (h : Simulated cfg (transferConfig cfg cc id file) address s)
    : Simulated cfg (transferConfig cfg cc id file) address
        { s with server := (s.server.recvfrom datagram).dispatch a tid request.data } := by
  have hne := Server.address_ne_of_unregistered hc hmain hnone
  by_cases ha : a = address
  . subst ha
    obtain ⟨w, hreach, hw⟩ := h
    have hregular := Transfer.regular_of_reachable hreach
    have hstage := hw.unserved hne
    simp only [arrives, hcc, Option.isNone_some, Bool.false_or, List.contains_iff_mem] at harrives
    rw [← hw.toServer, List.mem_map] at harrives
    obtain ⟨d, hd, hbytes⟩ := harrives
    cases hregular.request hstage d hd
    have hdatagram : datagram = cc.createReqDatagram := hbytes.symm
    rw [hdatagram, truncate_createReqDatagram] at hunpack
    obtain ⟨request', hrequest, hregularFile⟩ := unpack_createReqDatagram hfile
    rw [hunpack, Option.some.injEq] at hrequest
    subst hrequest
    refine ⟨_, hreach.step (e := .request .request) trivial ?_, hw.dispatch hne hregularFile _ _⟩
    have hunpack' : DataPacket.unpack (Transfer.ClientDatagram.request.bytes
        (transferConfig cfg cc id file)) = some request := hunpack
    simp [Transfer.step, hstage, hd, hunpack']
  . apply simulated_other h
    . intro u hu
      have hnew : u ≠ Worker.new tid a request.data := fun heq => ha (by rw [← hu, heq]; rfl)
      simp [Server.dispatch, Server.recvfrom, hnew]
    . intro b
      simp [Server.dispatch, Server.recvfrom, Ne.symm ha]
    . rfl

-- `rdt` is what the worker, or its timer, makes of its strategy.
theorem simulated_setWorker (hd : s.server.workers.Pairwise (fun u v => u.address ≠ v.address))
    {i : Nat} {u u' : Worker} (hu : s.server.workers[i]? = some u) {t : Server}
    (haddress : u'.address = u.address) (hpath : u'.filePath = u.filePath)
    (hworkers : t.workers = s.server.workers) (houtgoing : t.outgoing = s.server.outgoing)
    (hreceived : t.received = s.server.received)
    (hstep : u.address = address → ∀ w, StepFn.Reachable (Transfer.step tcfg) (Transfer.init tcfg) w
      → Projects cfg tcfg address s w
      → ∃ rdt, u'.phase ≠ .created ∧ w.server.sent <+: rdt.sent ∧ Follows cfg.server.mode u' rdt
        ∧ ∃ e, Transfer.step tcfg w e = some { w.withServer rdt with stage := stage u'.phase })
    (h : Simulated cfg tcfg address s)
    : Simulated cfg tcfg address { s with server := t.setWorker i u' } := by
  obtain ⟨w, hreach, hw⟩ := h
  by_cases ha : u.address = address
  . obtain ⟨rdt, hphase, hprefix, hrdt, e, he⟩ := hstep ha w hreach hw
    refine ⟨_, hreach.step trivial he, ?_⟩
    exact hw.setStrategy hd hu ha haddress hpath hworkers houtgoing (congrFun hreceived _)
      (hw.sent_eq (Transfer.regular_of_reachable hreach) (List.mem_of_getElem? hu) ha) hprefix hphase hrdt
  . refine ⟨w, hreach, hw.setWorker_of_ne hd hu ha haddress hworkers ?_ (congrFun hreceived _)⟩
    intro b
    rw [houtgoing]

theorem simulated_idle (hd : s.server.workers.Pairwise (fun u v => u.address ≠ v.address))
    {i : Nat} {u u' : Worker} (hu : s.server.workers[i]? = some u) {t : Server}
    (haddress : u'.address = u.address) (hpath : u'.filePath = u.filePath) (hrdt : u'.rdt = u.rdt)
    (hstuck : u'.stuck = u.stuck) (hstage : stage u'.phase = stage u.phase)
    (hcreated : u.phase ≠ .created ∧ u'.phase ≠ .created) (hworkers : t.workers = s.server.workers)
    (houtgoing : t.outgoing = s.server.outgoing) (hreceived : t.received = s.server.received)
    (h : Simulated cfg tcfg address s)
    : Simulated cfg tcfg address { s with server := t.setWorker i u' } := by
  obtain ⟨w, hreach, hw⟩ := h
  refine ⟨w, hreach, ?_⟩
  by_cases ha : u.address = address
  . obtain ⟨hstage', _, hserved⟩ := hw.served u (List.mem_of_getElem? hu) ha
    rw [if_neg hcreated.1] at hserved
    refine hw.setWorker hd hu ha haddress hpath hworkers (congrFun hreceived _) rfl rfl rfl
      (hstage'.trans hstage.symm) ?_ ?_
    . rw [if_neg hcreated.2]
      simpa only [Follows, hrdt, hstuck] using hserved
    . intro b
      rw [houtgoing, hrdt]
      exact hw.sent_iff hd (List.mem_of_getElem? hu) ha b
  . apply hw.setWorker_of_ne hd hu ha haddress hworkers _ (congrFun hreceived _)
    intro b
    rw [houtgoing]

theorem Projects.constructed (hw : Projects cfg tcfg address s w) {i : Nat} {u : Worker}
    (hu : s.server.workers[i]? = some u) (hmine : u.address = address) {rdt : RdtStrategy}
    (hrdt : u.rdt = some rdt)
    : Follows cfg.server.mode u w.server ∧ u.phase ≠ .created ∧ w.stage = stage u.phase := by
  obtain ⟨hstage, _, hserved⟩ := hw.served u (List.mem_of_getElem? hu) hmine
  split at hserved
  . simp [hrdt] at hserved
  . next hphase => exact ⟨hserved, hphase, hstage⟩

-- A go back N timer sends the first of `unacked_packets`, which is one of the window.
theorem step_timer {next : RdtStrategy} {u : Worker} (hstarted : w.started = true)
    (hreach : StepFn.Reachable (Transfer.step (transferConfig cfg cc id file))
      (Transfer.init (transferConfig cfg cc id file)) w)
    (htimer : Server.timer cfg.server id w.server = some next)
    (hu : u.rdt = some next) (hstuck : u.stuck = decide (cfg.server.mode = .goBackN))
    : ∃ rdt, w.server.sent <+: rdt.sent ∧ Follows cfg.server.mode u rdt
        ∧ ∃ e, Transfer.step (transferConfig cfg cc id file) w e = some (w.withServer rdt) := by
  unfold Server.timer at htimer
  cases hunacked : w.server.unackedPackets with
  | nil => simp [hunacked] at htimer
  | cons p rest =>
    cases hmode : cfg.server.mode with
    | stopAndWait | selectiveRepeat =>
      simp only [hunacked, hmode, Option.some.injEq] at htimer
      subst htimer
      refine ⟨_, Mode.sent_prefix_handleTimeOut _ _ _,
        follows_of_not_stuck hu (by simp [hstuck, hmode]), .timeOut, ?_⟩
      simp only [Transfer.step, hstarted, hunacked, ne_eq, reduceCtorEq, not_false_eq_true, and_self,
        if_true, Transfer.handleTimeOut, transferConfig, hmode]
    | goBackN =>
      simp only [hunacked, hmode, Option.some.injEq] at htimer
      subst htimer
      have hgbn : (transferConfig cfg cc id file).mode = .goBackN := hmode
      have horderly := (Transfer.supplied_of_reachable (by simp [hgbn]) hreach).orderly
      simp only [Mode.Orderly, hgbn] at horderly
      obtain ⟨hwindow, _⟩ := horderly.1.unacked_sub p (by simp [hunacked])
      obtain ⟨index, hindex⟩ := List.mem_iff_getElem?.mp hwindow
      refine ⟨GoBackN.resend (cfg.server.env id) w.server p, List.prefix_append _ _,
        ⟨fun _ => rfl, w.server.unackedPackets, hu, by simp [hstuck, hmode]⟩, .resend index, ?_⟩
      simp only [Transfer.step, hgbn, hstarted, and_self, if_true, hindex, Option.map_some]
      rfl

theorem Projects.finish (hw : Projects cfg tcfg address s w)
    (hd : s.server.workers.Pairwise (fun u v => u.address ≠ v.address)) {i : Nat} {u : Worker}
    (hu : s.server.workers[i]? = some u) (hmine : u.address = address) {rdt : RdtStrategy}
    (hrdt : u.rdt = some rdt) (hnext : rdt.nextSeqNumber = w.server.nextSeqNumber)
    : Projects cfg tcfg address { s with server := s.server.finish i u rdt }
        {
          w with
            stage := .finished
            toClient := w.toClient ++ [.terminal w.server.sendEmptyPacket]
        } := by
  obtain ⟨hfollows, _⟩ := hw.constructed hu hmine hrdt
  apply hw.setWorker hd hu hmine
  all_goals try rfl
  . exact hfollows
  . intro b
    rw [exists_mem_concat, ← hw.sent_iff hd (List.mem_of_getElem? hu) hmine b]
    have hterminal : b = rdt.sendEmptyPacket.pack
        ↔ (Transfer.ServerDatagram.terminal w.server.sendEmptyPacket).bytes = b := by
      rw [RdtStrategy.sendEmptyPacket, hnext]
      exact eq_comm
    simp only [List.mem_append, List.mem_singleton, Prod.mk.injEq, hmine, true_and, hterminal]
    rw [or_right_comm]

theorem simulated_finish (hd : s.server.workers.Pairwise (fun u v => u.address ≠ v.address))
    {i : Nat} {u : Worker} (hu : s.server.workers[i]? = some u) (hphase : u.phase = .running)
    {rdt : RdtStrategy} (hrdt : u.rdt = some rdt) (hdone : rdt.isDone = true)
    (h : Simulated cfg tcfg address s)
    : Simulated cfg tcfg address { s with server := s.server.finish i u rdt } := by
  obtain ⟨w, hreach, hw⟩ := h
  by_cases ha : u.address = address
  . obtain ⟨⟨_, unackedPackets, hrdt', _⟩, _, hstage⟩ := hw.constructed hu ha hrdt
    rw [hrdt, Option.some.injEq] at hrdt'
    rw [hphase, stage] at hstage
    have hdone' : w.server.isDone = true := by
      rw [hrdt'] at hdone
      exact hdone
    refine ⟨_, hreach.step (e := .finish) trivial ?_, hw.finish hd hu ha hrdt (by rw [hrdt'])⟩
    simp [Transfer.step, hstage, hdone']
  . refine ⟨w, hreach, ?_⟩
    unfold Server.finish
    apply hw.setWorker_of_ne hd hu ha
    all_goals try rfl
    intro b
    simp [Ne.symm ha]

theorem start_transferConfig (hregular : Transfer.Regular (transferConfig cfg cc id file) w)
    (hstage : w.stage = .created)
    : Transfer.start (transferConfig cfg cc id file) w.server
        = cfg.server.start id (File.regular file) := by
  rw [hregular.server (.inr hstage)]
  rfl

theorem simulated_server (hcc : cfg.clients address = some cc)
    (hfile : requested cfg cc = .whole file) (hc : Server.Consistent s.server)
    (hd : s.server.workers.Pairwise (fun u v => u.address ≠ v.address))
    (hrouted : ∀ u ∈ s.server.workers, Server.Routed s.server u)
    (hid : ServedBy address id s.server) (harrives : arrives cfg s e = true)
    (h : Simulated cfg (transferConfig cfg cc id file) address s)
    (hs : Server.Step cfg.server s.server e server)
    : Simulated cfg (transferConfig cfg cc id file) address { s with server } := by
  cases hs with
  | ack => exact simulated_ack hcc hfile harrives h
  | request hmain hnone hunpack =>
    exact simulated_request hcc hfile hc hmain hnone hunpack harrives h
  | malformed | register | insert | nullPointer | crash =>
    exact simulated_other h (fun _ _ => Iff.rfl) (fun _ => Iff.rfl) rfl
  | @construct i u f sender hu hphase hfopen _ =>
    apply simulated_setWorker hd hu _ _ _ _ _ _ h
    all_goals try rfl
    intro ha w hreach hw
    cases hid i u hu ha
    obtain ⟨hstage, hpath, hserved⟩ := hw.served u (List.mem_of_getElem? hu) ha
    rw [hphase] at hstage
    rw [if_pos hphase] at hserved
    rw [hpath, FileStatus.whole, FileStatus.fopen, Option.some.injEq] at hfopen
    have hf : File.regular file = f := hfopen
    have hstart := start_transferConfig (Transfer.regular_of_reachable hreach) hstage
    rw [hf] at hstart
    have hprefix : w.server.sent <+: (cfg.server.start id f).sent := by
      rw [← hstart]
      exact Mode.sent_prefix_start _ _ _
    refine ⟨cfg.server.start id f, by simp, hprefix, follows_of_not_stuck rfl hserved.2, .start, ?_⟩
    simp only [Transfer.step, hstage, stage, if_true, hstart]
  | skip hu hphase =>
    apply simulated_idle hd hu _ _ _ _ _ _ _ _ _ h
    all_goals try rfl
    simp [hphase]
  | block hu hphase =>
    apply simulated_idle hd hu _ _ _ _ _ _ _ _ _ h
    all_goals try rfl
    . rw [hphase]
      rfl
    . simp [hphase]
  | @takeAck i u rdt a acks sender hu hphase hrdt hdone hacks _ hstuck =>
    apply simulated_setWorker hd hu _ _ _ _ _ _ h
    all_goals try rfl
    intro ha w hreach hw
    cases hid i u hu ha
    obtain ⟨hfollows, hcreated, hstage⟩ := hw.constructed hu ha hrdt
    obtain rfl := hfollows.eq_of_not_stuck hrdt hstuck
    have hreceived : a ∈ s.server.received address := by
      rw [← ha, ← (hrouted u (List.mem_of_getElem? hu)).live (by simp [Worker.live, hphase]), hacks]
      exact List.mem_append_right _ List.mem_cons_self
    obtain ⟨d, hd', hunpack⟩ := hw.received a hreceived
    have hrunning : w.stage = .running := by rw [hstage, hphase, stage]
    refine ⟨_, hcreated, Mode.sent_prefix_acknowledgePacket _ _ _ _, follows_of_not_stuck rfl hstuck,
      .ack d, ?_⟩
    rw [← hstage]
    simp only [Transfer.step, hrunning, hdone, hd', and_self, if_true, hunpack, Option.map_some]
    rw [← hrunning]
    rfl
  | @timeOut i u rdt next sender hu hrdt _ hstuck _ htimer =>
    apply simulated_setWorker hd hu _ _ _ _ _ _ h
    all_goals try rfl
    intro ha w hreach hw
    cases hid i u hu ha
    obtain ⟨hfollows, hcreated, hstage⟩ := hw.constructed hu ha hrdt
    obtain rfl := hfollows.eq_of_not_stuck hrdt hstuck
    have hstarted : w.started = true := by
      cases hphase : u.phase with
      | created => exact absurd hphase hcreated
      | running | blocked | finalizing | ended =>
        simp [Transfer.World.started, hstage, hphase, stage]
    obtain ⟨rdt, hprefix, hfollows', he⟩ := step_timer
      (u := { u with rdt := some next, stuck := decide (cfg.server.mode = .goBackN) })
      hstarted hreach htimer rfl rfl
    refine ⟨rdt, hcreated, hprefix, hfollows', ?_⟩
    rw [← hstage]
    exact he
  | finish hu hphase hrdt hdone => exact simulated_finish hd hu hphase hrdt hdone h
  | finalize hu hphase _ =>
    apply simulated_idle hd hu _ _ _ _ _ _ _ _ _ h
    all_goals try rfl
    . rw [hphase]
      rfl
    . simp [hphase]

end

theorem ServedBy.of_step {server : Server} {e : Server.Event} (h : ServedBy address id server)
    (hs : Server.Step cfg.server s.server e server)
    : ServedBy address id s.server := by
  intro i u hu ha
  obtain ⟨u', hu', haddress, _⟩ := Server.worker_of_step hs hu
  exact h i u' hu' (haddress.trans ha)

theorem projects_init (hmode : Compatible cfg cc) (hcc : cfg.clients address = some cc)
    (buffer : Nat → UInt8)
    : Projects cfg (transferConfig cfg cc id file) address (init cfg buffer)
        (Transfer.init (transferConfig cfg cc id file)) := by
  have hclient : (init cfg buffer).clients address = Client.new cc := by
    simp only [init, hcc]
  refine ⟨?_, ?_, ?_, ?_, ?_, fun _ => rfl, ?_, ?_⟩
  . rw [hclient]
    rfl
  . rw [hclient]
    rfl
  . rw [hclient]
    exact newClientStrategy_transferConfig hmode
  . rw [hclient]
    rfl
  . simp [mem_toClient, init, Server.init, Transfer.init]
  . simp [init, Server.init]
  . simp [init, Server.init]

end

end

/--
No thread identifier that has been given out again mixes up two clients.
-/
def Unmixed (s : State) : Event → Prop
  | .server e => Server.Unmixed s.server e
  | _ => True

instance (s : State) (e : Event) : Decidable (Unmixed s e) :=
  match e with
  | .server e => inferInstanceAs (Decidable (Server.Unmixed s.server e))
  | .sendRequest _ | .handshake _ _ | .run _ _ | .foreign _ _ => .isTrue trivial

/--
What the client at `address` relies on: its ACKs do not get to the worker of another client, nor what others
than the server send to the client itself.
-/
def Undisturbed (address : Address) (s : State) (e : Event) : Prop :=
  Unmixed s e ∧ Genuine address e

instance (address : Address) (s : State) (e : Event) : Decidable (Undisturbed address s e) :=
  inferInstanceAs (Decidable (_ ∧ _))

structure Ordered (server : Server) : Prop where
  consistent : Server.Consistent server
  distinct : server.workers.Pairwise (fun u v => u.address ≠ v.address)
  routed : ∀ u ∈ server.workers, Server.Routed server u

section

variable {cfg : Config} {cc : ClientConfig} {address : Address} {id : Nat} {file : Bytes}
variable {buffer : Nat → UInt8} {s s' : State} {e : Event}

theorem ordered_init (buffer : Nat → UInt8) : Ordered (Server.init buffer) :=
  ⟨Server.consistent_init, by simp [Server.init], by simp [Server.init]⟩

theorem Ordered.step {server server' : Server} {e : Server.Event} (h : Ordered server)
    (hun : Server.Unmixed server e) (hs : Server.Step cfg.server server e server')
    : Ordered server' :=
  ⟨h.consistent.step hs, Server.pairwise_address_step h.consistent h.distinct hs,
    Server.routed_step h.consistent h.routed hun hs⟩

theorem ordered_step (h : Ordered s.server) (hun : Unmixed s e) (hs : Step cfg s e s')
    : Ordered s'.server := by
  cases hs with
  | server _ hserver => exact h.step hun hserver
  | sendRequest | handshake | run | drop | foreign => exact h

theorem ordered_of_reachable
    (h : StepFn.ReachableWhen (step cfg) (Undisturbed address) (init cfg buffer) s)
    : Ordered s.server := by
  apply h.invariant (P := fun s => Ordered s.server) (ordered_init buffer)
  intro s e s' hordered hun hstep
  exact ordered_step hordered hun.1 (.of_step hstep)

-- The number of the worker of the address is fixed when it is created, so that the simulation holds for
-- all those that are still possible.
theorem simulated_step (hmode : Compatible cfg cc) (hcc : cfg.clients address = some cc)
    (hfile : requested cfg cc = .whole file)
    (hsizes : ∀ id, cfg.server.mode = .selectiveRepeat → (transferConfig cfg cc id file).Valid)
    (hordered : Ordered s.server) (hun : Undisturbed address s e)
    (h : ∀ id, ServedBy address id s.server
      → Simulated cfg (transferConfig cfg cc id file) address s)
    (hs : Step cfg s e s') (hid : ServedBy address id s'.server)
    : Simulated cfg (transferConfig cfg cc id file) address s' := by
  have hclient (hserver : ∀ e', e ≠ .server e') (hid : ServedBy address id s.server)
      : Simulated cfg (transferConfig cfg cc id file) address s' :=
    simulated_client hmode hcc (hsizes id) (h id hid) hserver hun.2 hs
  cases hs with
  | server harrives hserver =>
    have hid := hid.of_step hserver
    exact simulated_server hcc hfile hordered.consistent hordered.distinct hordered.routed hid harrives
      (h id hid) hserver
  | sendRequest | handshake | run | drop | foreign => exact hclient (by simp) hid

theorem simulated_of_reachable (hmode : Compatible cfg cc) (hcc : cfg.clients address = some cc)
    (hfile : requested cfg cc = .whole file)
    (hsizes : ∀ id, cfg.server.mode = .selectiveRepeat → (transferConfig cfg cc id file).Valid)
    (h : StepFn.ReachableWhen (step cfg) (Undisturbed address) (init cfg buffer) s)
    (hid : ServedBy address id s.server)
    : Simulated cfg (transferConfig cfg cc id file) address s := by
  have hinv : Ordered s.server
      ∧ ∀ id, ServedBy address id s.server
          → Simulated cfg (transferConfig cfg cc id file) address s := by
    apply h.invariant
      (P := fun s => Ordered s.server
        ∧ ∀ id, ServedBy address id s.server
            → Simulated cfg (transferConfig cfg cc id file) address s)
    . exact ⟨ordered_init buffer, fun id _ => ⟨_, .init, projects_init hmode hcc buffer⟩⟩
    . intro s e s' hs hun hstep
      refine ⟨ordered_step hs.1 hun.1 (.of_step hstep), ?_⟩
      intro id
      exact simulated_step hmode hcc hfile hsizes hs.1 hun hs.2 (.of_step hstep)
  exact hinv.2 id hid

end

end Deployment
