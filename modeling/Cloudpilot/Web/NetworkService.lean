import Mathlib.Logic.Function.Basic
import Mathlib.Tactic

/-! # Network sessions

The guest suspends the emulator for a connection or for a remote call. The service then gives
the suspension to a session, whose tasks exclude each other, and the session resumes or cancels
it when its backend has answered. One event is what happens without waiting in between.
-/
namespace Cloudpilot.Web

/-- Why the emulator is suspended, and for a remote call whether it was sent. -/
inductive Suspend where
  | networkConnect
  | networkRpc (sent : Bool)
  | other
deriving DecidableEq

def Suspend.isNetwork : Suspend → Bool
  | networkConnect => true
  | networkRpc _ => true
  | other => false

def Suspend.isRpc : Suspend → Bool
  | networkRpc _ => true
  | _ => false

inductive NetworkTask where
  | handleConnect
  | handleRpc
  | disconnect
deriving DecidableEq

/-- A session and its backend: whether it still has the emulator, whether the service watches
its backend, the tasks that wait for its mutex, the one that waits for the backend, and whether
the backend has a socket. -/
structure NetworkSession where
  cloudpilot : Bool
  watched : Bool
  queue : List NetworkTask
  running : Option NetworkTask
  socket : Bool
deriving DecidableEq

def NetworkSession.create : NetworkSession := ⟨true, true, [], none, false⟩

def NetworkSession.runExclusive (s : NetworkSession) (task : NetworkTask) : NetworkSession :=
  { s with queue := s.queue ++ [task] }

def NetworkSession.terminate (s : NetworkSession) : NetworkSession :=
  { s with cloudpilot := false }.runExclusive .disconnect

structure NetworkState where
  suspend : Option Suspend
  openCount : ℕ
  session : Option ℕ
  sessions : ℕ → NetworkSession
  nextSession : ℕ

namespace NetworkState

/-- No session yet. -/
def initial : NetworkState := ⟨none, 0, none, fun _ => ⟨false, false, [], none, false⟩, 0⟩

def setSession (w : NetworkState) (i : ℕ) (s : NetworkSession) : NetworkState :=
  { w with sessions := Function.update w.sessions i s }

def networkSuspended (w : NetworkState) : Bool := w.suspend.any Suspend.isNetwork

def rpcSuspended (w : NetworkState) : Bool := w.suspend.any Suspend.isRpc

/-- `NetworkService.reset` -/
def resetService (w : NetworkState) : NetworkState :=
  match w.session with
  | none => w
  | some i =>
    { w.setSession i { (w.sessions i) with watched := false }.terminate with session := none }

def createNewSession (w : NetworkState) (backend : Bool) : NetworkState :=
  let w := w.resetService
  if backend then
    { w.setSession w.nextSession .create with
      session := some w.nextSession
      nextSession := w.nextSession + 1 }
  else w

/-- `handleSuspend`: the task goes to the session, or the suspension is cancelled. -/
def handleSuspend (w : NetworkState) (task : NetworkTask) : NetworkState :=
  match w.session with
  | some i => w.setSession i ((w.sessions i).runExclusive task)
  | none => { w with suspend := none }

def open_ (w : NetworkState) (backend : Bool) : NetworkState :=
  if w.openCount > 0 then w
  else ({ w with suspend := some .networkConnect }.createNewSession backend).handleSuspend .handleConnect

def sendAndSuspend (w : NetworkState) : NetworkState :=
  if w.openCount = 0 then w
  else { w with suspend := some (.networkRpc false) }.handleSuspend .handleRpc

def close (w : NetworkState) : NetworkState :=
  if w.openCount = 0 then w
  else if w.openCount = 1 then { w.resetService with openCount := 0 }
  else { w with openCount := w.openCount - 1 }

/-- `NetworkProxy::Reset` -/
def resetProxy (w : NetworkState) : NetworkState :=
  if w.openCount > 0 then
    { w.resetService with
      suspend := if w.networkSuspended then none else w.suspend
      openCount := 0 }
  else w

/-- `EmSession::Reset` cancels every suspension. -/
def resetEmulator (w : NetworkState) : NetworkState := { w.resetProxy with suspend := none }

/-- Network redirection is switched off. -/
def disableRedirection (w : NetworkState) : NetworkState := w.resetProxy.resetService

/-- A task enters the mutex and runs to its first wait. -/
def startTask (w : NetworkState) (i : ℕ) : NetworkState :=
  let s := w.sessions i
  match s.running, s.queue with
  | none, .handleConnect :: queue =>
    w.setSession i { s with queue := queue, running := some .handleConnect }
  | none, .handleRpc :: queue =>
    if s.cloudpilot && w.rpcSuspended then
      if s.socket then
        { w.setSession i { s with queue := queue, running := some .handleRpc } with
          suspend := some (.networkRpc true) }
      else { w.setSession i { s with queue := queue } with suspend := none }
    else w.setSession i { s with queue := queue }
  | none, .disconnect :: queue => w.setSession i { s with queue := queue, socket := false }
  | _, _ => w

/-- `connect` has returned; a session that has failed to connect resets the service. -/
def connected (w : NetworkState) (i : ℕ) (success : Bool) : NetworkState :=
  let s := w.sessions i
  let w' := w.setSession i { s with running := none, socket := s.socket || success }
  let w' :=
    if s.cloudpilot && decide (w.suspend = some .networkConnect) then
      { w' with suspend := none, openCount := if success then w.openCount + 1 else w.openCount }
    else w'
  if success then w' else w'.resetService

/-- `handleRpc` of the backend has returned. -/
def dispatched (w : NetworkState) (i : ℕ) (success : Bool) : NetworkState :=
  let s := w.sessions i
  let w' := w.setSession i { s with running := none }
  if !success && (s.cloudpilot && w.rpcSuspended) then { w' with suspend := none } else w'

/-- The backend has answered the task that runs. -/
def finishTask (w : NetworkState) (i : ℕ) (success : Bool) : NetworkState :=
  match (w.sessions i).running with
  | some .handleConnect => w.connected i success
  | some .handleRpc => w.dispatched i success
  | _ => w

/-- `onRpcResult` -/
def rpcResult (w : NetworkState) (i : ℕ) : NetworkState :=
  if (w.sessions i).socket && ((w.sessions i).cloudpilot && w.rpcSuspended) then
    { w with suspend := none }
  else w

/-- The socket is lost: a text frame, an error or a close. -/
def unexpectedClose (w : NetworkState) (i : ℕ) : NetworkState :=
  let s := w.sessions i
  if s.socket then
    let w := w.setSession i { s with socket := false }
    if s.watched then w.resetService else w
  else w

end NetworkState

inductive NetworkEvent where
  | open_ (backend : Bool)
  | call
  | close
  | suspendOther
  | resumeOther
  | startTask (i : ℕ)
  | finishTask (i : ℕ) (success : Bool)
  | rpcResult (i : ℕ)
  | unexpectedClose (i : ℕ)
  | resetService
  | resetProxy
  | resetEmulator
  | disableRedirection

/-- The guest does nothing while the emulator is suspended. -/
def networkStep (w : NetworkState) : NetworkEvent → NetworkState
  | .open_ backend => if w.suspend = none then w.open_ backend else w
  | .call => if w.suspend = none then w.sendAndSuspend else w
  | .close => if w.suspend = none then w.close else w
  | .suspendOther => if w.suspend = none then { w with suspend := some .other } else w
  | .resumeOther => if w.suspend = some .other then { w with suspend := none } else w
  | .startTask i => w.startTask i
  | .finishTask i success => w.finishTask i success
  | .rpcResult i => w.rpcResult i
  | .unexpectedClose i => w.unexpectedClose i
  | .resetService => w.resetService
  | .resetProxy => w.resetProxy
  | .resetEmulator => w.resetEmulator
  | .disableRedirection => w.disableRedirection

end Cloudpilot.Web
