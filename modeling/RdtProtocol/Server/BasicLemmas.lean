import RdtProtocol.Server.Basic

namespace Server

theorem string_fill (buffer : Nat → UInt8) {bytes : Bytes} {n : Nat} (h : n ≤ bytes.length)
    : string (fill buffer bytes) n = bytes.take n := by
  apply List.ext_getElem
  . simp [string, h]
  . intro i h1 h2
    rw [List.length_take] at h2
    have hi : i < bytes.length := by
      omega
    simp [string, fill, hi]

theorem string_recvfrom (s : Server) (datagram : Bytes)
    : string (s.recvfrom datagram).buffer (truncate datagram).length = truncate datagram := by
  rw [recvfrom, string_fill _ (Nat.le_refl _), List.take_length]

variable {cfg : Config} {s s' : Server} {e : Event}

theorem running_of_step (h : step cfg s e = some s') : s.running = true := by
  unfold step at h
  split at h
  . assumption
  . contradiction

theorem Step.of_start {address : Address} {datagram : Bytes} {tid : Nat}
    (hmain : s.mainThread = .receiving) (h : s.start address datagram tid = some s')
    : Step cfg s (.recvfrom address datagram tid) s' := by
  have hreg : (s.recvfrom datagram).registeredClients = s.registeredClients := by
    rfl
  simp only [start, hreg, string_recvfrom] at h
  cases ht : s.registeredClients address with
  | some t =>
    simp only [ht, Option.some.injEq] at h
    rw [← h]
    exact .ack hmain ht
  | none =>
    cases hunpack : DataPacket.unpack (truncate datagram) with
    | some request =>
      simp only [ht, hunpack, Option.ite_none_right_eq_some, Option.some.injEq] at h
      obtain ⟨hfresh, rfl⟩ := h
      exact .request hmain ht hunpack hfresh
    | none =>
      simp only [ht, hunpack, Option.some.injEq] at h
      rw [← h]
      exact .malformed hmain ht hunpack

theorem Step.of_stepMain (h : s.stepMain e = some s') : Step cfg s e s' := by
  cases e with
  | recvfrom address datagram tid =>
    simp only [stepMain, Option.ite_none_right_eq_some] at h
    exact .of_start h.1 h.2
  | register =>
    simp only [stepMain] at h
    split at h
    . next hmain =>
      cases h
      exact .register hmain
    . contradiction
  | insert =>
    simp only [stepMain] at h
    split at h
    . next hmain =>
      cases h
      exact .insert hmain
    . contradiction
  | construct | takeAck | timeOut | race | finish | finalize => contradiction

section

variable {id : Nat} {u : Worker} {rdt : RdtStrategy} {ack : AckPacket} {acks : List AckPacket}

theorem Step.of_construct (hu : s.workers[id]? = some u) (hphase : u.phase = .created)
    : Step cfg s (.construct id) (s.construct cfg id u) := by
  unfold Server.construct
  split
  . next hopen => exact .crash hu (.exit hphase hopen)
  . next file hopen =>
    split
    . next hdry => exact .crash hu (.dry hphase hopen hdry)
    . next hdry =>
      have hdry := (Bool.not_eq_true _).mp hdry
      dsimp only
      split
      . next hsend => exact .crash hu (.unsent hphase hopen hdry hsend)
      . next hsend => exact .construct hu hphase hopen hdry hsend

theorem Step.of_takeAck (hu : s.workers[id]? = some u) (hphase : u.phase = .running)
    (hrdt : u.rdt = some rdt) (hdone : rdt.isDone = false)
    (hacks : s.workerThreadsAcks u.tid = ack :: acks)
    : Step cfg s (.takeAck id) (s.takeAck cfg id u rdt ack) := by
  unfold Server.takeAck
  dsimp only
  split
  . next hacked => exact .skip hu hphase hrdt hdone hacks hacked
  . next hacked =>
    split
    . next hstuck => exact .block hu hphase hrdt hdone hacks hacked hstuck
    . next hstuck =>
      have hstuck := (Bool.not_eq_true _).mp hstuck
      split
      . next hdry => exact .crash hu (.ackDry hphase hrdt hdone hacks hacked hstuck hdry)
      . next hdry =>
        have hdry := (Bool.not_eq_true _).mp hdry
        split
        . next hsend =>
          exact .crash hu (.ackUnsent hphase hrdt hdone hacks hacked hstuck hdry hsend)
        . next hsend => exact .takeAck hu hphase hrdt hdone hacks hacked hstuck hdry hsend

theorem Step.of_timeOut (hu : s.workers[id]? = some u) (hrdt : u.rdt = some rdt)
    (h : s.timeOut cfg id u rdt = some s')
    : Step cfg s (.timeOut id) s' := by
  unfold Server.timeOut at h
  split at h
  . contradiction
  . next hc =>
    simp only [not_or, Bool.not_eq_true] at hc
    obtain ⟨hsent, hstuck⟩ := hc
    split at h
    . next hfails =>
      cases h
      exact .crash hu (.timer hrdt hsent hstuck hfails)
    . next hfails =>
      have hfails := (Bool.not_eq_true _).mp hfails
      rw [Option.map_eq_some_iff] at h
      obtain ⟨next, htimer, rfl⟩ := h
      split
      . next hsend => exact .crash hu (.timerUnsent hrdt hsent hstuck hfails htimer hsend)
      . next hsend => exact .timeOut hu hrdt hsent hstuck hfails htimer hsend

end

theorem Step.of_finalize {id : Nat} {u : Worker} (hu : s.workers[id]? = some u)
    (hphase : u.phase = .finalizing)
    : Step cfg s (.finalize id) (s.finalize id u) := by
  unfold Server.finalize
  split
  . next hth => exact .nullPointer hu hphase hth
  . next hth => exact .finalize hu hphase hth

theorem Step.of_stepWorker {id : Nat} {u : Worker} (hid : e.worker = some id)
    (hu : s.workers[id]? = some u) (h : s.stepWorker cfg id u e = some s')
    : Step cfg s e s' := by
  cases e with
  | recvfrom | register | insert => contradiction
  | construct i =>
    cases hid
    simp only [stepWorker, Option.ite_none_right_eq_some, Option.some.injEq] at h
    rw [← h.2]
    exact .of_construct hu h.1
  | takeAck i =>
    cases hid
    simp only [stepWorker] at h
    split at h
    . next rdt ack acks hphase hrdt hacks =>
      simp only [Option.ite_none_left_eq_some, Option.some.injEq, Bool.not_eq_true] at h
      rw [← h.2]
      exact .of_takeAck hu hphase hrdt h.1 hacks
    . contradiction
  | timeOut i =>
    cases hid
    simp only [stepWorker, Option.bind_eq_some_iff] at h
    obtain ⟨rdt, hrdt, h⟩ := h
    exact .of_timeOut hu hrdt h
  | race i =>
    cases hid
    simp only [stepWorker] at h
    split at h
    . next rdt ack acks hphase hrdt hacks =>
      simp only [Option.ite_none_right_eq_some, Option.some.injEq] at h
      obtain ⟨⟨hdone, hstuck, hempties⟩, rfl⟩ := h
      exact .crash hu (.race hphase hrdt hdone hacks hstuck hempties)
    . contradiction
  | finish i =>
    cases hid
    simp only [stepWorker] at h
    split at h
    . next rdt hphase hrdt =>
      simp only [Option.ite_none_right_eq_some, Option.some.injEq] at h
      rw [← h.2]
      exact .finish hu hphase hrdt h.1
    . contradiction
  | finalize i =>
    cases hid
    simp only [stepWorker, Option.ite_none_right_eq_some, Option.some.injEq] at h
    rw [← h.2]
    exact .of_finalize hu h.1

theorem Step.of_step (h : step cfg s e = some s') : Step cfg s e s' := by
  simp only [step, running_of_step h, if_true] at h
  cases hid : e.worker with
  | none =>
    simp only [hid] at h
    exact .of_stepMain h
  | some id =>
    simp only [hid, Option.bind_eq_some_iff] at h
    obtain ⟨u, hu, h⟩ := h
    exact .of_stepWorker hid hu h

section

variable {u : Worker} {id : Nat}

theorem step_worker (hrunning : s.running = true) (hid : e.worker = some id)
    (hu : s.workers[id]? = some u)
    : Server.step cfg s e = s.stepWorker cfg id u e := by
  simp [Server.step, hrunning, hid, hu]

theorem Crash.stepWorker_eq (h : Crash cfg s id u e)
    : e.worker = some id ∧ s.stepWorker cfg id u e = some s.crash := by
  cases h with
  | exit hphase hopen => simp [Event.worker, stepWorker, hphase, construct, hopen]
  | dry hphase hopen hdry => simp [Event.worker, stepWorker, hphase, construct, hopen, hdry]
  | unsent hphase hopen hdry hsend =>
    simp [Event.worker, stepWorker, hphase, construct, hopen, hdry, hsend]
  | ackDry hphase hrdt hdone hacks hacked hstuck hdry =>
    simp [Event.worker, stepWorker, hphase, hrdt, hdone, hacks, Server.takeAck, hacked, hstuck, hdry]
  | ackUnsent hphase hrdt hdone hacks hacked hstuck hdry hsend =>
    simp [Event.worker, stepWorker, hphase, hrdt, hdone, hacks, Server.takeAck, hacked, hstuck, hdry,
      hsend]
  | timer hrdt hsent hstuck hfails =>
    simp [Event.worker, stepWorker, hrdt, Server.timeOut, hsent, hstuck, hfails]
  | timerUnsent hrdt hsent hstuck hfails htimer hsend =>
    simp [Event.worker, stepWorker, hrdt, Server.timeOut, hsent, hstuck, hfails, htimer, hsend]
  | race hphase hrdt hdone hacks hstuck hempties =>
    simp [Event.worker, stepWorker, hphase, hrdt, hacks, hdone, hstuck, hempties]

theorem Step.step_eq (h : Step cfg s e s') (hrunning : s.running = true)
    : Server.step cfg s e = some s' := by
  have hregistered (datagram : Bytes)
      : (s.recvfrom datagram).registeredClients = s.registeredClients := rfl
  have hfresh (datagram : Bytes) (tid : Nat) : (s.recvfrom datagram).fresh tid = s.fresh tid := rfl
  cases h with
  | ack hmain ht =>
    simp [Server.step, hrunning, Event.worker, stepMain, hmain, start, hregistered, ht]
  | request hmain hnone hunpack htid =>
    simp [Server.step, hrunning, Event.worker, stepMain, hmain, start, hregistered, hnone,
      string_recvfrom, hunpack, hfresh, htid]
  | malformed hmain hnone hunpack =>
    simp [Server.step, hrunning, Event.worker, stepMain, hmain, start, hregistered, hnone,
      string_recvfrom, hunpack]
  | register hmain => simp [Server.step, hrunning, Event.worker, stepMain, hmain]
  | insert hmain => simp [Server.step, hrunning, Event.worker, stepMain, hmain]
  | construct hu hphase hopen hdry hsend =>
    rw [step_worker hrunning rfl hu]
    simp [stepWorker, hphase, Server.construct, hopen, hdry, hsend]
  | skip hu hphase hrdt hdone hacks hacked =>
    rw [step_worker hrunning rfl hu]
    simp [stepWorker, hphase, hrdt, hdone, hacks, Server.takeAck, hacked]
  | block hu hphase hrdt hdone hacks hacked hstuck =>
    rw [step_worker hrunning rfl hu]
    simp [stepWorker, hphase, hrdt, hdone, hacks, Server.takeAck, hacked, hstuck]
  | takeAck hu hphase hrdt hdone hacks hacked hstuck hdry hsend =>
    rw [step_worker hrunning rfl hu]
    simp [stepWorker, hphase, hrdt, hdone, hacks, Server.takeAck, hacked, hstuck, hdry, hsend]
  | timeOut hu hrdt hsent hstuck hfails htimer hsend =>
    rw [step_worker hrunning rfl hu]
    simp [stepWorker, hrdt, Server.timeOut, hsent, hstuck, hfails, htimer, hsend]
  | finish hu hphase hrdt hdone =>
    simp [Server.step, hrunning, Event.worker, hu, stepWorker, hphase, hrdt, hdone]
  | finalize hu hphase hth | nullPointer hu hphase hth =>
    simp [Server.step, hrunning, Event.worker, hu, stepWorker, hphase, Server.finalize, hth]
  | crash hu hcrash =>
    obtain ⟨hid, heq⟩ := hcrash.stepWorker_eq
    rw [step_worker hrunning hid hu, heq]

end

end Server
