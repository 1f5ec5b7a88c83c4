import RdtProtocol.Server.Sessions
import RdtProtocol.Transfer.Basic

/-!
This module contains a whole deployment as a transition system: the server with the workers of all its
clients, and any number of clients, each a process with an address of its own. A datagram stays in the
network for good. What arrives at the server from an address where no client runs is arbitrary, and so is
what a client gets from others than the server.
-/

namespace Deployment

structure ClientConfig where
  mode : Mode
  reqFileName : Bytes
  defaultWindowSize : Int
  deriving DecidableEq, Repr

structure Config where
  server : Server.Config
  clients : Address → Option ClientConfig

structure Client where
  -- A client stops that unpacks a datagram without a full header.
  running : Bool
  receiving : Bool
  rdt : ClientRdtStrategy
  sent : List Bytes

structure State where
  server : Server
  clients : Address → Client

inductive Event where
  | server (e : Server.Event)
  | sendRequest (address : Address)
  | handshake (address : Address) (datagram : Bytes)
  | run (address : Address) (datagram : Bytes)
  -- What somebody else than the server sends to a client.
  | foreign (address : Address) (datagram : Bytes)
  deriving DecidableEq, Repr

namespace ClientConfig

def windowSize (cc : ClientConfig) : Int :=
  match cc.mode with
  | .stopAndWait => 1
  | .selectiveRepeat => cc.defaultWindowSize
  | .goBackN => cc.defaultWindowSize

def newStrategy (cc : ClientConfig) : ClientRdtStrategy :=
  match cc.mode with
  | .stopAndWait => ClientSelectiveRepeat.new cc.windowSize
  | .selectiveRepeat => ClientSelectiveRepeat.new cc.windowSize
  | .goBackN => ClientGoBackN.new cc.windowSize

def run (cc : ClientConfig) (c : ClientRdtStrategy) (datagram : Bytes) : Option ClientRdtStrategy :=
  match cc.mode with
  | .stopAndWait => ClientSelectiveRepeat.run c datagram
  | .selectiveRepeat => ClientSelectiveRepeat.run c datagram
  | .goBackN => ClientGoBackN.run c datagram

def createReqDatagram (cc : ClientConfig) : Bytes :=
  (DataPacket.new cc.reqFileName 0).pack

end ClientConfig

namespace Client

def new (cc : ClientConfig) : Client :=
  { running := true, receiving := false, rdt := cc.newStrategy, sent := [] }

def withStrategy (c : Client) (rdt : ClientRdtStrategy) : Client :=
  { c with rdt, sent := c.sent ++ (rdt.acks.drop c.rdt.acks.length).map (·.pack) }

def read (cc : ClientConfig) (c : Client) (datagram : Bytes) : Client :=
  match cc.run c.rdt datagram with
  | some rdt => c.withStrategy rdt
  | none => { c with running := false }

end Client

namespace State

def setClient (s : State) (address : Address) (c : Client) : State :=
  { s with clients := Function.update s.clients address c }

def toClient (s : State) (address : Address) : List Bytes :=
  (s.server.outgoing.filter (·.1 = address)).map (·.2)
    ++ (s.server.workers.filter (·.address = address)).flatMap (fun u =>
      (u.rdt.elim [] (·.sent)).map (·.packet.pack))

end State

def arrives (cfg : Config) (s : State) : Server.Event → Bool
  | .recvfrom address datagram _ =>
    (cfg.clients address).isNone || (s.clients address).sent.contains datagram
  | _ => true

def stepServer (cfg : Config) (s : State) (e : Server.Event) : Option State :=
  if arrives cfg s e then
    (Server.step cfg.server s.server e).map (fun server => { s with server })
  else
    none

def sendRequest (s : State) (address : Address) (cc : ClientConfig) : Option State :=
  let c := s.clients address
  if c.running ∧ c.receiving = false then
    some (s.setClient address { c with sent := c.sent ++ [cc.createReqDatagram] })
  else
    none

def handshake (s : State) (address : Address) (datagram : Bytes) : Option State :=
  let c := s.clients address
  if c.running ∧ c.receiving = false ∧ datagram ∈ s.toClient address then
    some (s.setClient address { c with receiving := true })
  else
    none

def run (s : State) (address : Address) (cc : ClientConfig) (datagram : Bytes) : Option State :=
  let c := s.clients address
  if c.running ∧ c.receiving ∧ c.rdt.done = false ∧ datagram ∈ s.toClient address then
    some (s.setClient address (c.read cc datagram))
  else
    none

-- `handle_ack_timeout` drops what is not from the server, the two strategies do not look at the sender.
def foreign (s : State) (address : Address) (cc : ClientConfig) (datagram : Bytes) : Option State :=
  let c := s.clients address
  if c.running ∧ c.rdt.done = false then
    some (if c.receiving then s.setClient address (c.read cc datagram) else s)
  else
    none

/--
A step of the server, or of one of its clients.
-/
def step (cfg : Config) (s : State) : Event → Option State
  | .server e => stepServer cfg s e
  | .sendRequest address => (cfg.clients address).bind (sendRequest s address)
  | .handshake address datagram =>
    (cfg.clients address).bind (fun _ => handshake s address datagram)
  | .run address datagram => (cfg.clients address).bind (run s address · datagram)
  | .foreign address datagram => (cfg.clients address).bind (foreign s address · datagram)

inductive Step (cfg : Config) (s : State) : Event → State → Prop where
  | server {e : Server.Event} {server : Server}
      : arrives cfg s e = true → Server.Step cfg.server s.server e server
          → Step cfg s (.server e) { s with server }
  | sendRequest {address : Address} {cc : ClientConfig}
      : cfg.clients address = some cc → (s.clients address).running = true
          → (s.clients address).receiving = false
          → Step cfg s (.sendRequest address)
              (s.setClient address {
                s.clients address with sent := (s.clients address).sent ++ [cc.createReqDatagram]
              })
  | handshake {address : Address} {cc : ClientConfig} {datagram : Bytes}
      : cfg.clients address = some cc → (s.clients address).running = true
          → (s.clients address).receiving = false → datagram ∈ s.toClient address
          → Step cfg s (.handshake address datagram)
              (s.setClient address { s.clients address with receiving := true })
  | run {address : Address} {cc : ClientConfig} {datagram : Bytes}
      : cfg.clients address = some cc → (s.clients address).running = true
          → (s.clients address).receiving = true → (s.clients address).rdt.done = false
          → datagram ∈ s.toClient address
          → Step cfg s (.run address datagram)
              (s.setClient address ((s.clients address).read cc datagram))
  | drop {address : Address} {cc : ClientConfig} {datagram : Bytes}
      : cfg.clients address = some cc → (s.clients address).running = true
          → (s.clients address).receiving = false → (s.clients address).rdt.done = false
          → Step cfg s (.foreign address datagram) s
  | foreign {address : Address} {cc : ClientConfig} {datagram : Bytes}
      : cfg.clients address = some cc → (s.clients address).running = true
          → (s.clients address).receiving = true → (s.clients address).rdt.done = false
          → Step cfg s (.foreign address datagram)
              (s.setClient address ((s.clients address).read cc datagram))

theorem Step.of_step {cfg : Config} {s s' : State} {e : Event} (h : step cfg s e = some s')
    : Step cfg s e s' := by
  cases e with
  | server e =>
    simp only [step, stepServer, Option.ite_none_right_eq_some, Option.map_eq_some_iff] at h
    obtain ⟨harrives, server, hserver, rfl⟩ := h
    exact .server harrives (.of_step hserver)
  | sendRequest address =>
    simp only [step, Deployment.sendRequest, Option.bind_eq_some_iff, Option.ite_none_right_eq_some,
      Option.some.injEq] at h
    obtain ⟨cc, hcc, hc, rfl⟩ := h
    exact .sendRequest hcc hc.1 hc.2
  | handshake address datagram =>
    simp only [step, Deployment.handshake, Option.bind_eq_some_iff, Option.ite_none_right_eq_some,
      Option.some.injEq] at h
    obtain ⟨cc, hcc, hc, rfl⟩ := h
    exact .handshake hcc hc.1 hc.2.1 hc.2.2
  | run address datagram =>
    simp only [step, Deployment.run, Option.bind_eq_some_iff, Option.ite_none_right_eq_some,
      Option.some.injEq] at h
    obtain ⟨cc, hcc, hc, rfl⟩ := h
    exact .run hcc hc.1 hc.2.1 hc.2.2.1 hc.2.2.2
  | foreign address datagram =>
    simp only [step, Deployment.foreign, Option.bind_eq_some_iff, Option.ite_none_right_eq_some,
      Option.some.injEq] at h
    obtain ⟨cc, hcc, ⟨hrunning, hdone⟩, rfl⟩ := h
    split
    . next hreceiving => exact .foreign hcc hrunning hreceiving hdone
    . next hreceiving => exact .drop hcc hrunning (by simpa using hreceiving) hdone

def init (cfg : Config) (buffer : Nat → UInt8) : State :=
  {
    server := Server.init buffer
    clients := fun address =>
      match cfg.clients address with
      | some cc => Client.new cc
      | none => { running := false, receiving := false, rdt := ClientRdtStrategy.new 0 0, sent := [] }
  }

end Deployment
