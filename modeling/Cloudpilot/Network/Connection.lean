import Mathlib.Tactic
import Cloudpilot.Network.OpenCount

/-! # Connections of the proxy server

A connection serves one request after the other and keeps the sockets of the guest in a table,
whose indices are the handles. What the operating system answers is part of a request.
-/

namespace Cloudpilot.Network

def netErrParamErr : Err := netErrorClass ||| 4#16

def netErrNoMoreSockets : Err := netErrorClass ||| 5#16

/-- `MAX_HANDLE`, the length of the table. -/
def maxHandle : ℕ := 31

/-- What a handler may raise. An error of the operating system carries the code that the tables
give for it. -/
inductive PyError
  | invalidHandle (handle : ℤ)
  | invalidAddress (address : ℤ)
  | badPacket
  | noMoreSockets
  | indexError
  | valueError
  | structError
  | os (err : Err)
  deriving DecidableEq, Repr

def exceptionToErr : PyError → Err
  | .os err => err
  | .invalidHandle _ => netErrParamErr
  | .invalidAddress _ => netErrInternal
  | .badPacket => netErrParamErr
  | .noMoreSockets => netErrNoMoreSockets
  | .indexError => netErrInternal
  | .valueError => netErrInternal
  | .structError => netErrInternal

inductive SocketKind
  | stream
  | dgram
  | raw
  deriving DecidableEq, Repr

/-- `SOCKET_TYPE`. -/
def socketType (type : BitVec 32) : Option SocketKind :=
  if type = 1#32 then some .stream
  else if type = 2#32 then some .dgram
  else if type = 3#32 then some .raw
  else none

/-- A context; a socket object is known by the order in which it was created. -/
structure SocketContext where
  socket : ℕ
  type : SocketKind
  bound : Bool := false
  nonblocking : Bool := false
  deriving DecidableEq, Repr

structure Connection where
  sockets : Fin maxHandle → Option SocketContext := fun _ => none
  forceBind : Bool := false
  created : ℕ := 0

namespace Connection

/-- Indexing the table with a number that is not negative. -/
def item (c : Connection) (handle : ℕ) : Except PyError (Option SocketContext) :=
  if h : handle < maxHandle then .ok (c.sockets ⟨handle, h⟩) else .error .indexError

def put (c : Connection) (handle : ℕ) (ctx : Option SocketContext) : Connection :=
  { c with sockets := fun i => if i.val = handle then ctx else c.sockets i }

def getSocketCtx (c : Connection) (handle : ℤ) : Except PyError SocketContext :=
  if handle < 1 ∨ handle > maxHandle then .error (.invalidHandle handle)
  else
    match c.item handle.toNat with
    | .error e => .error e
    | .ok none => .error (.invalidHandle handle)
    | .ok (some ctx) => .ok ctx

def getFreeHandle (c : Connection) : Except PyError ℕ :=
  match (List.finRange maxHandle).find? fun handle => 0 < handle.val ∧ c.sockets handle = none with
  | some handle => .ok handle.val
  | none => .error .noMoreSockets

def fdSetToHandles (fds width : BitVec 32) : List ℕ :=
  let width := max (min width.toNat 32) 0
  (List.range' 1 (width - 1)).filter fun handle => fds.toNat &&& (1 <<< handle) > 0

/-- The sockets of the handles whose entry is not `None`. -/
def socketsOf (c : Connection) : List ℕ → Except PyError (List ℕ)
  | [] => .ok []
  | handle :: handles => do
    let ctx ← c.item handle
    let rest ← c.socketsOf handles
    return (ctx.map SocketContext.socket).toList ++ rest

def fdSetToSockets (c : Connection) (fds width : BitVec 32) : Except PyError (List ℕ) :=
  c.socketsOf (fdSetToHandles fds width)

def packHandle (c : Connection) (sockets : List ℕ) (packed : ℕ) (handle : Fin maxHandle) : ℕ :=
  match c.sockets handle with
  | none => packed
  | some ctx => if ctx.socket ∈ sockets then packed ||| (1 <<< handle.val) else packed

def socketsToFdSet (c : Connection) (sockets : List ℕ) : ℕ :=
  (List.finRange maxHandle).foldl (c.packHandle sockets) 0

end Connection

/-- The requests that look up a socket, call it and leave the table alone. A connect may have to
bind first, and setting the option for nonblocking calls does not reach the system. -/
inductive SocketCall
  | bind
  | addr
  | send
  | receive
  | connect (bindReply : Except PyError Unit)
  | optionSet (nonBlocking : Option Bool)
  | optionGet
  | listen
  | shutdown

/-- A request with the system's reply to it; a `select` is answered with the sockets that are
ready. -/
inductive Request
  | socketOpen (type protocol : BitVec 32) (reply : Except PyError Unit)
  | socketAccept (handle : BitVec 32) (reply : Except PyError Unit)
  | socketClose (handle : BitVec 32) (reply : Except PyError Unit)
  | onSocket (call : SocketCall) (handle : BitVec 32) (reply : Except PyError Unit)
  | select (width readFDs writeFDs exceptFDs : BitVec 32)
    (reply : Except PyError ((ℕ → Bool) × (ℕ → Bool) × (ℕ → Bool)))
  | other (err : Err)

inductive Response
  | socketOpen (handle : ℤ) (err : Err)
  | socketAccept (handle : ℤ) (err : Err)
  | select (readFDs writeFDs exceptFDs : ℕ) (err : Err)
  | plain (err : Err)

def Response.err : Response → Err
  | socketOpen _ err => err
  | socketAccept _ err => err
  | select _ _ _ err => err
  | plain err => err

/-- The handle that an open or an accept returns; -1 is none. -/
def Response.newHandle : Response → Option ℤ
  | socketOpen handle _ => if handle = -1 then none else some handle
  | socketAccept handle _ => if handle = -1 then none else some handle
  | select .. => none
  | plain _ => none

/-- The state after a request, the response, and the sockets that were given to `select`. -/
structure Served where
  connection : Connection
  response : Response
  selected : Option (List ℕ × List ℕ × List ℕ) := none

def SocketCall.exec (forceBind : Bool) (ctx : SocketContext) (reply : Except PyError Unit) :
    SocketCall → SocketContext × Except PyError Unit
  | .bind =>
    match reply with
    | .error e => (ctx, .error e)
    | .ok _ => ({ ctx with bound := true }, .ok ())
  | .connect bindReply =>
    if forceBind = true ∧ ctx.bound = false then
      match bindReply with
      | .error e => (ctx, .error e)
      | .ok _ => ({ ctx with bound := true }, reply)
    else (ctx, reply)
  | .optionSet (some value) => ({ ctx with nonblocking := value }, reply)
  | _ => (ctx, reply)

namespace Connection

def addSocket (c : Connection) (handle : ℕ) (type : SocketKind) : Connection :=
  { c.put handle (some { socket := c.created, type := type }) with created := c.created + 1 }

def handleSocketOpen (c : Connection) (type protocol : BitVec 32) (reply : Except PyError Unit) :
    Served :=
  match socketType type with
  | none => ⟨c, .socketOpen (-1) netErrParamErr, none⟩
  | some sockType =>
    if sockType = .raw ∧ protocol ≠ 255#32 ∧ protocol ≠ 1#32 then
      ⟨c, .socketOpen (-1) netErrParamErr, none⟩
    else
      match c.getFreeHandle with
      | .error e => ⟨c, .socketOpen (-1) (exceptionToErr e), none⟩
      | .ok handle =>
        match reply with
        | .error e => ⟨c, .socketOpen (-1) (exceptionToErr e), none⟩
        | .ok _ => ⟨c.addSocket handle sockType, .socketOpen handle 0#16, none⟩

def handleSocketAccept (c : Connection) (handle : BitVec 32) (reply : Except PyError Unit) :
    Served :=
  match c.getFreeHandle with
  | .error e => ⟨c, .socketAccept (-1) (exceptionToErr e), none⟩
  | .ok free =>
    match c.getSocketCtx handle.toInt with
    | .error e => ⟨c, .socketAccept (-1) (exceptionToErr e), none⟩
    | .ok ctx =>
      match reply with
      | .error e => ⟨c, .socketAccept (-1) (exceptionToErr e), none⟩
      | .ok _ => ⟨c.addSocket free ctx.type, .socketAccept free 0#16, none⟩

def handleSocketClose (c : Connection) (handle : BitVec 32) (reply : Except PyError Unit) :
    Served :=
  match c.getSocketCtx handle.toInt with
  | .error e => ⟨c, .plain (exceptionToErr e), none⟩
  | .ok _ =>
    match reply with
    | .error e => ⟨c.put handle.toNat none, .plain (exceptionToErr e), none⟩
    | .ok _ => ⟨c.put handle.toNat none, .plain 0#16, none⟩

def handleSocketCall (c : Connection) (call : SocketCall) (handle : BitVec 32)
    (reply : Except PyError Unit) : Served :=
  match c.getSocketCtx handle.toInt with
  | .error e => ⟨c, .plain (exceptionToErr e), none⟩
  | .ok ctx =>
    match call.exec c.forceBind ctx reply with
    | (ctx, .error e) => ⟨c.put handle.toNat (some ctx), .plain (exceptionToErr e), none⟩
    | (ctx, .ok _) => ⟨c.put handle.toNat (some ctx), .plain 0#16, none⟩

/-- The three lists of `select.select`. -/
def selectLists (c : Connection) (width readFDs writeFDs exceptFDs : BitVec 32) :
    Except PyError (List ℕ × List ℕ × List ℕ) := do
  let rlist ← c.fdSetToSockets readFDs width
  let wlist ← c.fdSetToSockets writeFDs width
  let xlist ← c.fdSetToSockets exceptFDs width
  return (rlist, wlist, xlist)

def handleSelect (c : Connection) (width readFDs writeFDs exceptFDs : BitVec 32)
    (reply : Except PyError ((ℕ → Bool) × (ℕ → Bool) × (ℕ → Bool))) : Served :=
  match c.selectLists width readFDs writeFDs exceptFDs with
  | .error e => ⟨c, .select 0 0 0 (exceptionToErr e), none⟩
  | .ok (rlist, wlist, xlist) =>
    match reply with
    | .error e => ⟨c, .select 0 0 0 (exceptionToErr e), some (rlist, wlist, xlist)⟩
    | .ok (readable, writable, exceptional) =>
      ⟨c,
        .select (c.socketsToFdSet (rlist.filter readable)) (c.socketsToFdSet (wlist.filter writable))
          (c.socketsToFdSet (xlist.filter exceptional)) 0#16,
        some (rlist, wlist, xlist)⟩

def serve (c : Connection) : Request → Served
  | .socketOpen type protocol reply => c.handleSocketOpen type protocol reply
  | .socketAccept handle reply => c.handleSocketAccept handle reply
  | .socketClose handle reply => c.handleSocketClose handle reply
  | .onSocket call handle reply => c.handleSocketCall call handle reply
  | .select width readFDs writeFDs exceptFDs reply =>
    c.handleSelect width readFDs writeFDs exceptFDs reply
  | .other err => ⟨c, .plain err, none⟩

end Connection

end Cloudpilot.Network
