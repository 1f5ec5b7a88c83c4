import RdtProtocol.Server.BasicLemmas

/-!
This module contains the rule that carries what holds of a single strategy over to all the workers of a
server.
-/

namespace Server

-- `P` is about the worker with a number that has been asked for a path.
def AllStrategies (P : Nat → Bytes → RdtStrategy → Prop) (s : Server) : Prop :=
  ∀ (id : Nat) (u : Worker) (rdt : RdtStrategy), s.workers[id]? = some u → u.rdt = some rdt
    → P id u.filePath rdt

structure Preserves (cfg : Config) (P : Nat → Bytes → RdtStrategy → Prop) : Prop where
  start : ∀ (id : Nat) (filePath : Bytes) (file : File), (cfg.files filePath).fopen = some file
    → P id filePath (cfg.start id file)
  acknowledgePacket : ∀ (id : Nat) (filePath : Bytes) (rdt : RdtStrategy) (ack : AckPacket),
    P id filePath rdt → P id filePath (cfg.acknowledgePacket id rdt ack)
  timer : ∀ (id : Nat) (filePath : Bytes) (rdt next : RdtStrategy), P id filePath rdt
    → timer cfg id rdt = some next → P id filePath next

variable {cfg : Config} {P : Nat → Bytes → RdtStrategy → Prop} {s s' : Server} {e : Event}
variable {buffer : Nat → UInt8}

theorem AllStrategies.setWorker (h : AllStrategies P s) {id : Nat} {u' : Worker}
    (hu' : ∀ rdt, u'.rdt = some rdt → P id u'.filePath rdt)
    : AllStrategies P (s.setWorker id u') := by
  intro id' v rdt hv hrdt
  simp only [Server.setWorker, List.getElem?_set] at hv
  split at hv
  . next heq =>
    split at hv
    . cases hv
      exact heq ▸ hu' rdt hrdt
    . contradiction
  . exact h id' v rdt hv hrdt

theorem AllStrategies.step (hP : Preserves cfg P) (h : AllStrategies P s) (hs : Step cfg s e s')
    : AllStrategies P s' := by
  have hsame {t : Server} (hworkers : t.workers = s.workers) : AllStrategies P t := by
    intro id u rdt hu
    exact h id u rdt (hworkers ▸ hu)
  cases hs with
  | ack | malformed | register | insert | nullPointer | crash => exact hsame rfl
  | request =>
    intro id u rdt hu hrdt
    simp only [dispatch, recvfrom, List.getElem?_append, List.getElem?_singleton] at hu
    split at hu
    . exact h id u rdt hu hrdt
    . split at hu
      . cases hu
        contradiction
      . contradiction
  | construct hu _ hfile =>
    apply (hsame rfl).setWorker
    intro rdt hrdt
    cases hrdt
    exact hP.start _ _ _ hfile
  | takeAck hu _ hrdt =>
    have hold := h _ _ _ hu hrdt
    apply (hsame rfl).setWorker
    intro rdt' hrdt'
    cases hrdt'
    exact hP.acknowledgePacket _ _ _ _ hold
  | timeOut hu hrdt _ _ _ htimer =>
    have hold := h _ _ _ hu hrdt
    apply (hsame rfl).setWorker
    intro rdt' hrdt'
    cases hrdt'
    exact hP.timer _ _ _ _ hold htimer
  | @skip _ u _ _ _ hu | @block _ u _ _ _ hu | @finish _ u _ hu | @finalize _ u _ hu =>
    have hold : ∀ rdt, u.rdt = some rdt → P _ u.filePath rdt := fun _ hrdt => h _ u _ hu hrdt
    exact (hsame rfl).setWorker hold

theorem allStrategies_init : AllStrategies P (init buffer) := by
  intro id u rdt hu
  simp [init] at hu

end Server
