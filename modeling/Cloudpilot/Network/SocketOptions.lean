import Cloudpilot.Library.Words
import Cloudpilot.Network.Connection

/-! # Socket options

The value of a socket option goes from the memory of the guest into a request, through the proxy
server to the operating system, and back. The guest's words are big endian, a message carries a
signed word, and the server packs the two words of the linger option in its own byte order.
-/

namespace Cloudpilot.Network

open Library.LittleEndian

def netErrUnimplemented : Err := netErrorClass ||| 14#16

def netSocketOptLevelIP : BitVec 16 := 0#16
def netSocketOptLevelTCP : BitVec 16 := 6#16
def netSocketOptLevelSocket : BitVec 16 := 0xffff#16

def netSocketOptIPOptions : BitVec 16 := 1#16
def netSocketOptTCPNoDelay : BitVec 16 := 1#16
def netSocketOptTCPMaxSeg : BitVec 16 := 2#16
def netSocketOptSockLinger : BitVec 16 := 0x0080#16
def netSocketOptSockNonBlocking : BitVec 16 := 0x2000#16
def netSocketOptSockRequireErrClear : BitVec 16 := 0x2001#16
def netSocketOptSockMultiPktAddr : BitVec 16 := 0x2002#16

/-- The socket options that the server knows, with the names of the system's constants. -/
def sockoptNames : List (BitVec 16 × String) :=
  [(0x0001#16, "SO_DEBUG"), (0x0002#16, "SO_ACCEPTCONN"), (0x0004#16, "SO_REUSEADDR"),
    (0x0008#16, "SO_KEEPALIVE"), (0x0010#16, "SO_DONTROUTE"), (0x0020#16, "SO_BROADCAST"),
    (0x0040#16, "SO_USELOOPBACK"), (0x0080#16, "SO_LINGER"), (0x0100#16, "SO_OOBINLINE"),
    (0x1001#16, "SO_SNDBUF"), (0x1002#16, "SO_RCVBUF"), (0x1003#16, "SO_SNDLOWAT"),
    (0x1004#16, "SO_RCVLOWAT"), (0x1005#16, "SO_SNDTIMEO"), (0x1006#16, "SO_RCVTIMEO"),
    (0x1007#16, "SO_ERROR"), (0x1008#16, "SO_TYPE")]

inductive OptionValue
  | intval (v : BitVec 32)
  | bufval (bytes : List Byte)
  deriving DecidableEq, Repr

inductive SocketOptionType
  | flagval
  | intval
  | bufval
  deriving DecidableEq, Repr

local instance lawfulBEq : LawfulBEq (BitVec 16) := inferInstance

def determineSocketOptionType (level option : BitVec 16) : SocketOptionType :=
  if level = netSocketOptLevelIP then .bufval
  else if level = netSocketOptLevelTCP then
    if option = netSocketOptTCPNoDelay then .flagval else .intval
  else if option ∈ [netSocketOptSockLinger, 0x1001#16, 0x1002#16, 0x1003#16, 0x1004#16, 0x1005#16,
      0x1006#16, 0x1007#16, 0x1008#16] then .intval
  else .flagval

/-- The option whose value is a pair of words. -/
def IsLinger (level option : BitVec 16) : Prop :=
  level = netSocketOptLevelSocket ∧ option = netSocketOptSockLinger

def IsNonBlocking (level option : BitVec 16) : Prop :=
  level = netSocketOptLevelSocket ∧ option = netSocketOptSockNonBlocking

instance (level option : BitVec 16) : Decidable (IsLinger level option) :=
  inferInstanceAs (Decidable (_ ∧ _))

instance (level option : BitVec 16) : Decidable (IsNonBlocking level option) :=
  inferInstanceAs (Decidable (_ ∧ _))

def flagWord (value : Bool) : BitVec 32 := if value then 1#32 else 0#32

def lingerWord (onOff time : BitVec 16) : BitVec 32 :=
  onOff.setWidth 32 ||| time.setWidth 32 <<< 16

/-- What the guest's bytes become in a message. -/
def encodeOption (level option : BitVec 16) (value : List Byte) : Except Err OptionValue :=
  if IsLinger level option then
    match value with
    | [a, b, c, d] => .ok (.intval (lingerWord (a ++ b) (c ++ d)))
    | _ => .error netErrParamErr
  else
    match determineSocketOptionType level option with
    | .bufval => if value.length > 40 then .error netErrParamErr else .ok (.bufval value)
    | .flagval =>
      match value with
      | [a] => .ok (.intval (flagWord (a ≠ 0#8)))
      | [a, b] => .ok (.intval (flagWord (a ++ b ≠ 0#16)))
      | [a, b, c, d] => .ok (.intval (flagWord (a ++ b ++ c ++ d ≠ 0#32)))
      | _ => .error netErrParamErr
    | .intval =>
      match value with
      | [a, b] => .ok (.intval ((a ++ b).setWidth 32))
      | [a, b, c, d] => .ok (.intval (a ++ b ++ c ++ d))
      | _ => .error netErrParamErr

/-- `SocketOptionSet`: an error, or success without a message, or the value of the message. -/
def socketOptionSet (level option : BitVec 16) (value : List Byte) :
    Except Err (Option OptionValue) :=
  if level = netSocketOptLevelSocket ∧ option = netSocketOptSockMultiPktAddr then
    .error netErrUnimplemented
  else if level = netSocketOptLevelSocket ∧ option = netSocketOptSockRequireErrClear then .ok none
  else (encodeOption level option value).map some

def put16 (v : BitVec 16) : List Byte := [(v >>> 8).setWidth 8, v.setWidth 8]

def put32 (v : BitVec 32) : List Byte := put16 ((v >>> 16).setWidth 16) ++ put16 (v.setWidth 16)

/-- The answer of the server to a request for an option. -/
structure OptionResponse where
  err : Err
  value : Option OptionValue := none
  deriving DecidableEq, Repr

/-- What `SocketOptionGetSuccess` writes into a buffer of the guest. -/
def socketOptionGetSuccess (level option : BitVec 16) (len : ℕ) (response : OptionResponse) :
    Except Err (List Byte) :=
  if response.err ≠ 0#16 then .error response.err
  else if IsLinger level option then
    match response.value with
    | some (.intval v) =>
      if len ≠ 4 then .error netErrParamErr
      else
        .ok (put16 ((v &&& 0xffff#32).setWidth 16) ++
          put16 ((v.sshiftRight 16 &&& 0xffff#32).setWidth 16))
    | _ => .error netErrInternal
  else
    match determineSocketOptionType level option, response.value with
    | .bufval, some (.bufval bytes) =>
      if bytes.length > 40 then .error netErrInternal
      else if len < bytes.length then .error netErrParamErr
      else .ok bytes
    | .intval, some (.intval v) =>
      if len = 2 then .ok (put16 (v.setWidth 16))
      else if len = 4 then .ok (put32 v)
      else .error netErrParamErr
    | .flagval, some (.intval v) =>
      if len = 1 then .ok [(flagWord (v ≠ 0#32)).setWidth 8]
      else if len = 2 then .ok (put16 ((flagWord (v ≠ 0#32)).setWidth 16))
      else if len = 4 then .ok (put32 (flagWord (v ≠ 0#32)))
      else .error netErrParamErr
    | _, _ => .error netErrInternal

/-- The system's constants, and the byte order of its words. -/
structure Platform where
  constant : String → Option ℤ
  bigEndian : Bool

/-- What the system is given for an option. -/
inductive NativeValue
  | int (v : ℤ)
  | bytes (data : List Byte)
  deriving DecidableEq, Repr

inductive NativeLevel
  | solSocket
  | solIp
  | solTcp
  deriving DecidableEq, Repr

/-- A socket, with the values that its options were set to. -/
structure OptionContext where
  nonblocking : Bool
  options : NativeLevel → ℤ → Option NativeValue

namespace Platform

variable (p : Platform)

def packInt (v : BitVec 32) : List Byte := if p.bigEndian then (word v).reverse else word v

def unpackInt (data : List Byte) : BitVec 32 :=
  wordAt (if p.bigEndian then data.reverse else data) 0

/-- `unpack('ii', data)`. -/
def unpack (data : List Byte) : Except PyError (BitVec 32 × BitVec 32) :=
  if data.length = 8 then .ok (p.unpackInt (data.take 4), p.unpackInt (data.drop 4))
  else .error .structError

def lookupSockoptName (level option : BitVec 16) : Option String :=
  if level = netSocketOptLevelIP then
    if option = netSocketOptIPOptions then some "IP_OPTIONS" else none
  else if level = netSocketOptLevelTCP then
    if option = netSocketOptTCPNoDelay then some "TCP_NODELAY"
    else if option = netSocketOptTCPMaxSeg then some "TCP_MAXSEG"
    else none
  else if level = netSocketOptLevelSocket then sockoptNames.lookup option
  else none

def translateSockoptOption (level option : BitVec 16) : Option ℤ :=
  (lookupSockoptName level option).bind p.constant

def translateSockoptLevel (level : BitVec 16) : Option NativeLevel :=
  if level = netSocketOptLevelSocket then some .solSocket
  else if level = netSocketOptLevelIP then some .solIp
  else if level = netSocketOptLevelTCP then some .solTcp
  else none

def sockoptValue (level option : BitVec 16) : OptionValue → NativeValue
  | .bufval bytes => .bytes bytes
  | .intval v =>
    if IsLinger level option then
      .bytes (p.packInt (v &&& 0xffff#32) ++ p.packInt (v.sshiftRight 16 &&& 0xffff#32))
    else .int v.toInt

end Platform

/-- `bool(value)`. -/
def NativeValue.truth : NativeValue → Bool
  | int v => v ≠ 0
  | bytes data => data ≠ []

/-- A 32 bit field of a message refuses numbers that it cannot hold. -/
def setInt32 (v : ℤ) : Except PyError (BitVec 32) :=
  if -2 ^ 31 ≤ v ∧ v < 2 ^ 31 then .ok (BitVec.ofInt 32 v) else .error .valueError

namespace OptionContext

def setsockopt (ctx : OptionContext) (level : NativeLevel) (option : ℤ) (value : NativeValue) :
    OptionContext :=
  { ctx with
    options := fun l o => if l = level ∧ o = option then some value else ctx.options l o }

def getsockopt (ctx : OptionContext) (level : NativeLevel) (option : ℤ) : Except PyError ℤ :=
  match ctx.options level option with
  | some (.int v) => .ok v
  | _ => .error (.os netErrInternal)

/-- `getsockopt` with the size of a buffer. -/
def getsockoptBytes (ctx : OptionContext) (level : NativeLevel) (option : ℤ) (size : ℕ) :
    Except PyError (List Byte) :=
  match ctx.options level option with
  | some (.bytes data) => .ok (data.take size)
  | _ => .error (.os netErrInternal)

end OptionContext

def handleSocketOptionSet (p : Platform) (ctx : OptionContext) (level option : BitVec 16)
    (value : OptionValue) : OptionContext × Err :=
  let value := p.sockoptValue level option value
  if IsNonBlocking level option then ({ ctx with nonblocking := value.truth }, 0#16)
  else
    match Platform.translateSockoptLevel level, p.translateSockoptOption level option with
    | some nativeLevel, some nativeOption => (ctx.setsockopt nativeLevel nativeOption value, 0#16)
    | _, _ => (ctx, netErrParamErr)

/-- The field that `handleSocketOptionGet` sets, for an option that the system has. -/
def readOption (p : Platform) (ctx : OptionContext) (level option : BitVec 16)
    (nativeLevel : NativeLevel) (nativeOption : ℤ) : Except PyError OptionValue :=
  if IsLinger level option then do
    let data ← ctx.getsockoptBytes nativeLevel nativeOption 8
    let (onoff, linger) ← p.unpack data
    let v ← setInt32 ((onoff &&& 0xffff#32).toNat ||| (linger &&& 0xffff#32).toNat <<< 16 : ℕ)
    return .intval v
  else if level = netSocketOptLevelIP then do
    let data ← ctx.getsockoptBytes nativeLevel nativeOption 40
    return .bufval data
  else do
    let v ← ctx.getsockopt nativeLevel nativeOption
    let v ← setInt32 v
    return .intval v

def handleSocketOptionGet (p : Platform) (ctx : OptionContext) (level option : BitVec 16) :
    OptionResponse :=
  if IsNonBlocking level option then
    { err := 0#16, value := some (.intval (flagWord ctx.nonblocking)) }
  else
    match Platform.translateSockoptLevel level, p.translateSockoptOption level option with
    | some nativeLevel, some nativeOption =>
      match readOption p ctx level option nativeLevel nativeOption with
      | .ok value => { err := 0#16, value := some value }
      | .error e => { err := exceptionToErr e }
    | _, _ => { err := netErrParamErr }

/-- An option is set and then read into a buffer of the same length. -/
def throughProxy (p : Platform) (ctx : OptionContext) (level option : BitVec 16)
    (message : OptionValue) (len : ℕ) : Except Err (List Byte) :=
  let served := handleSocketOptionSet p ctx level option message
  if served.2 ≠ 0#16 then .error served.2
  else if level = netSocketOptLevelSocket ∧
      (option = netSocketOptSockRequireErrClear ∨ option = netSocketOptSockMultiPktAddr) then
    .error netErrUnimplemented
  else socketOptionGetSuccess level option len (handleSocketOptionGet p served.1 level option)

section Words

variable {a b c d : Byte} {onOff time : BitVec 16} {v : BitVec 32}

theorem lingerWord_eq (onOff time : BitVec 16) : lingerWord onOff time = time ++ onOff := by
  ext i hi
  rw [← BitVec.getLsbD_eq_getElem, ← BitVec.getLsbD_eq_getElem, lingerWord, BitVec.getLsbD_or,
    BitVec.getLsbD_append, BitVec.getLsbD_setWidth, BitVec.getLsbD_shiftLeft,
    BitVec.getLsbD_setWidth]
  by_cases hlow : i < 16 <;> grind

theorem low_append : (time ++ onOff) &&& 0xffff#32 = onOff.setWidth 32 := by
  ext i hi
  have hmask : (0xffff#32).getLsbD i = decide (i < 16) := by
    interval_cases i <;> decide
  rw [← BitVec.getLsbD_eq_getElem, ← BitVec.getLsbD_eq_getElem, BitVec.getLsbD_and, hmask,
    BitVec.getLsbD_append, BitVec.getLsbD_setWidth]
  by_cases hlow : i < 16
  · simp [hlow, hi]
  · simp [hlow, BitVec.getLsbD_of_ge onOff i (by omega)]

theorem high_append : (time ++ onOff).sshiftRight 16 &&& 0xffff#32 = time.setWidth 32 := by
  ext i hi
  have hmask : (0xffff#32).getLsbD i = decide (i < 16) := by
    interval_cases i <;> decide
  rw [← BitVec.getLsbD_eq_getElem, ← BitVec.getLsbD_eq_getElem, BitVec.getLsbD_and, hmask,
    BitVec.getLsbD_setWidth, BitVec.getLsbD_sshiftRight, BitVec.getLsbD_append]
  by_cases hlow : i < 16
  · simp [hlow, hi, show 16 + i < 32 by omega]
  · simp [hlow, BitVec.getLsbD_of_ge time i (by omega)]

theorem put16_append (a b : Byte) : put16 (a ++ b) = [a, b] := by
  have hhigh : ((a ++ b) >>> 8).setWidth 8 = a := by grind
  have hlow : (a ++ b).setWidth 8 = b := by grind
  rw [put16, hhigh, hlow]

theorem setWidth_append (time onOff : BitVec 16) :
    (time ++ onOff : BitVec 32).setWidth 16 = onOff := by grind

theorem setWidth_shiftRight_append (time onOff : BitVec 16) :
    ((time ++ onOff : BitVec 32) >>> 16).setWidth 16 = time := by grind

theorem append_assoc_bytes (a b c d : Byte) :
    (a ++ b ++ c ++ d : BitVec 32) = (a ++ b) ++ (c ++ d) := by grind

theorem put32_append (a b c d : Byte) : put32 (a ++ b ++ c ++ d) = [a, b, c, d] := by
  simp [append_assoc_bytes, put32, setWidth_append, setWidth_shiftRight_append, put16_append]

theorem toNat_low (w : BitVec 16) : (w.setWidth 32 &&& 0xffff#32).toNat = w.toNat := by
  have hmask : (0xffff#32).toNat = 2 ^ 16 - 1 := by decide
  rw [BitVec.toNat_and, hmask, Nat.and_two_pow_sub_one_eq_mod, BitVec.toNat_setWidth]
  omega

theorem toNat_append_lt (time onOff : BitVec 16) :
    (time ++ onOff : BitVec 32).toNat < 2 ^ 31 ↔ time.toNat < 2 ^ 15 := by
  have hlt := onOff.isLt
  rw [BitVec.toNat_append, ← Nat.shiftLeft_add_eq_or_of_lt hlt, Nat.shiftLeft_eq]
  omega

theorem setInt32_toInt (v : BitVec 32) : setInt32 v.toInt = .ok v := by
  grind [setInt32, BitVec.ofInt_toInt]

/-- A number that is not negative fits unless the topmost bit is set. -/
theorem setInt32_toNat (v : BitVec 32) :
    setInt32 (v.toNat : ℕ) = if v.toNat < 2 ^ 31 then .ok v else .error .valueError := by
  simp [setInt32]

@[simp] theorem length_packInt (p : Platform) (v : BitVec 32) : (p.packInt v).length = 4 := by
  rw [Platform.packInt]
  split_ifs <;> simp

theorem setInt32_linger (onOff time : BitVec 16) :
    setInt32 ((onOff.setWidth 32 &&& 0xffff#32).toNat |||
        (time.setWidth 32 &&& 0xffff#32).toNat <<< 16 : ℕ) =
      if time.toNat < 2 ^ 15 then .ok (time ++ onOff) else .error .valueError := by
  rw [toNat_low, toNat_low, Nat.or_comm, ← BitVec.toNat_append, setInt32_toNat]
  by_cases hlt : time.toNat < 2 ^ 15
  · rw [if_pos hlt, if_pos ((toNat_append_lt time onOff).mpr hlt)]
  · rw [if_neg hlt, if_neg fun h => hlt ((toNat_append_lt time onOff).mp h)]

theorem unpack_packInt (p : Platform) (a b : BitVec 32) :
    p.unpack (p.packInt a ++ p.packInt b) = .ok (a, b) := by
  have hunpack : ∀ v, p.unpackInt (p.packInt v) = v := by
    grind [Platform.unpackInt, Platform.packInt, List.reverse_reverse, wordAt_word]
  rw [Platform.unpack, if_pos (by simp), List.take_left' (length_packInt p a),
    List.drop_left' (length_packInt p a), hunpack, hunpack]

end Words

theorem ok_bind {α β : Type} (a : α) (f : α → Except PyError β) :
    (Except.ok a >>= f) = f a :=
  rfl

section Survival

variable {p : Platform} {ctx : OptionContext} {level option : BitVec 16} {value : List Byte}

/-- The server knows the option, and the system has it. -/
def Supported (p : Platform) (level option : BitVec 16) : Prop :=
  IsNonBlocking level option ∨ ((Platform.translateSockoptLevel level).isSome = true ∧
    (p.translateSockoptOption level option).isSome = true)

/-- The value of a flag is whether any of its bits is set. -/
def SameValue (level option : BitVec 16) (value value' : List Byte) : Prop :=
  if determineSocketOptionType level option = .flagval then
    value'.length = value.length ∧ value'.any (· ≠ 0#8) = value.any (· ≠ 0#8)
  else value' = value

/-- What the guest sets through a message is what it reads back. -/
def Survives (p : Platform) (ctx : OptionContext) (level option : BitVec 16)
    (value : List Byte) : Prop :=
  ∀ message, socketOptionSet level option value = .ok (some message) → Supported p level option →
    ∃ value', throughProxy p ctx level option message value.length = .ok value' ∧
      SameValue level option value value'

def LingerOverflows (p : Platform) (level option : BitVec 16) (value : List Byte) : Prop :=
  IsLinger level option ∧ Supported p level option ∧
    ∃ a b c d, value = [a, b, c, d] ∧ 2 ^ 15 ≤ (c ++ d : BitVec 16).toNat

theorem not_isNonBlocking_of_isLinger (h : IsLinger level option) :
    ¬ IsNonBlocking level option := by
  rintro ⟨-, hoption⟩
  exact absurd (h.2.symm.trans hoption) (by decide)

theorem not_isNonBlocking_of_ip (option : BitVec 16) (h : level = netSocketOptLevelIP) :
    ¬ IsNonBlocking level option := by
  rintro ⟨hlevel, -⟩
  exact absurd (h.symm.trans hlevel) (by decide)

theorem not_isLinger_of_ip (h : level = netSocketOptLevelIP) : ¬ IsLinger level option := by
  rintro ⟨hlevel, -⟩
  exact absurd (h.symm.trans hlevel) (by decide)

theorem Supported.native (h : Supported p level option) (hnot : ¬ IsNonBlocking level option) :
    ∃ nativeLevel nativeOption, Platform.translateSockoptLevel level = some nativeLevel ∧
      p.translateSockoptOption level option = some nativeOption := by
  obtain ⟨hlevel, hoption⟩ := h.resolve_left hnot
  obtain ⟨nativeLevel, hlevel⟩ := Option.isSome_iff_exists.mp hlevel
  obtain ⟨nativeOption, hoption⟩ := Option.isSome_iff_exists.mp hoption
  exact ⟨nativeLevel, nativeOption, hlevel, hoption⟩

theorem options_setsockopt (ctx : OptionContext) (nativeLevel : NativeLevel) (nativeOption : ℤ)
    (native : NativeValue) :
    (ctx.setsockopt nativeLevel nativeOption native).options nativeLevel nativeOption =
      some native :=
  if_pos ⟨rfl, rfl⟩

theorem flagWord_truth (f : Bool) : (NativeValue.int (flagWord f).toInt).truth = f := by
  cases f <;> rfl

theorem served_intval (ctx : OptionContext) (v : BitVec 32) (hlinger : ¬ IsLinger level option)
    (hip : level ≠ netSocketOptLevelIP) (h : Supported p level option)
    (hflag : IsNonBlocking level option → ∃ f, v = flagWord f) :
    (handleSocketOptionSet p ctx level option (.intval v)).2 = 0#16 ∧
      handleSocketOptionGet p (handleSocketOptionSet p ctx level option (.intval v)).1 level option =
        { err := 0#16, value := some (.intval v) } := by
  have hvalue : p.sockoptValue level option (.intval v) = .int v.toInt := if_neg hlinger
  simp only [handleSocketOptionSet, handleSocketOptionGet, hvalue]
  by_cases hnb : IsNonBlocking level option
  · obtain ⟨f, rfl⟩ := hflag hnb
    rw [if_pos hnb, if_pos hnb, flagWord_truth]
    exact ⟨rfl, rfl⟩
  · obtain ⟨nativeLevel, nativeOption, hlevel, hoption⟩ := h.native hnb
    have hread : readOption p (ctx.setsockopt nativeLevel nativeOption (.int v.toInt)) level option
        nativeLevel nativeOption = .ok (.intval v) := by
      rw [readOption, if_neg hlinger, if_neg hip, OptionContext.getsockopt, options_setsockopt]
      exact congrArg (fun r => r >>= fun v => Except.ok (OptionValue.intval v)) (setInt32_toInt v)
    rw [if_neg hnb, if_neg hnb, hlevel, hoption]
    dsimp only
    rw [hread]
    exact ⟨rfl, rfl⟩

theorem served_linger (ctx : OptionContext) (onOff time : BitVec 16)
    (hlinger : IsLinger level option) (h : Supported p level option) :
    (handleSocketOptionSet p ctx level option (.intval (lingerWord onOff time))).2 = 0#16 ∧
      handleSocketOptionGet p
          (handleSocketOptionSet p ctx level option (.intval (lingerWord onOff time))).1 level
          option =
        if time.toNat < 2 ^ 15 then { err := 0#16, value := some (.intval (time ++ onOff)) }
        else { err := netErrInternal } := by
  have hnb := not_isNonBlocking_of_isLinger hlinger
  obtain ⟨nativeLevel, nativeOption, hlevel, hoption⟩ := h.native hnb
  have hvalue : p.sockoptValue level option (.intval (lingerWord onOff time)) =
      .bytes (p.packInt (onOff.setWidth 32) ++ p.packInt (time.setWidth 32)) := by
    rw [Platform.sockoptValue, if_pos hlinger, lingerWord_eq, low_append, high_append]
  have hlength : (p.packInt (onOff.setWidth 32) ++ p.packInt (time.setWidth 32)).length ≤ 8 := by
    simp
  have hread : readOption p (ctx.setsockopt nativeLevel nativeOption
      (.bytes (p.packInt (onOff.setWidth 32) ++ p.packInt (time.setWidth 32)))) level option
      nativeLevel nativeOption =
        if time.toNat < 2 ^ 15 then .ok (.intval (time ++ onOff)) else .error .valueError := by
    rw [readOption, if_pos hlinger, OptionContext.getsockoptBytes, options_setsockopt]
    dsimp only
    rw [List.take_of_length_le hlength, ok_bind, unpack_packInt, ok_bind, setInt32_linger]
    split_ifs <;> rfl
  simp [handleSocketOptionSet, handleSocketOptionGet, hvalue, if_neg hnb, hlevel, hoption, hread]
  split_ifs <;> rfl

theorem served_bufval (ctx : OptionContext) {bytes : List Byte} (hip : level = netSocketOptLevelIP)
    (hlength : bytes.length ≤ 40) (h : Supported p level option) :
    (handleSocketOptionSet p ctx level option (.bufval bytes)).2 = 0#16 ∧
      handleSocketOptionGet p (handleSocketOptionSet p ctx level option (.bufval bytes)).1 level
          option = { err := 0#16, value := some (.bufval bytes) } := by
  have hnb := not_isNonBlocking_of_ip option hip
  obtain ⟨nativeLevel, nativeOption, hlevel, hoption⟩ := h.native hnb
  have hread : readOption p (ctx.setsockopt nativeLevel nativeOption (.bytes bytes)) level option
      nativeLevel nativeOption = .ok (.bufval bytes) := by
    rw [readOption, if_neg (not_isLinger_of_ip hip), if_pos hip, OptionContext.getsockoptBytes,
      options_setsockopt]
    simp only [List.take_of_length_le hlength]
    rfl
  simp only [handleSocketOptionSet, handleSocketOptionGet, Platform.sockoptValue, if_neg hnb,
    hlevel, hoption, hread, and_self]

theorem throughProxy_eq {message : OptionValue} {len : ℕ} {response : OptionResponse}
    (hset : socketOptionSet level option value = .ok (some message))
    (hserved : (handleSocketOptionSet p ctx level option message).2 = 0#16 ∧
      handleSocketOptionGet p (handleSocketOptionSet p ctx level option message).1 level option =
        response) :
    throughProxy p ctx level option message len =
      socketOptionGetSuccess level option len response := by
  rw [socketOptionSet] at hset
  split_ifs at hset with hmulti herr
  · cases hset
  rw [throughProxy, if_neg (not_not.mpr hserved.1), if_neg (by tauto), hserved.2]

theorem encodeOption_of_set {message : OptionValue}
    (hset : socketOptionSet level option value = .ok (some message)) :
    encodeOption level option value = .ok message := by
  rw [socketOptionSet] at hset
  split_ifs at hset
  · cases hset
  · cases hencode : encodeOption level option value with
    | error e =>
      rw [hencode] at hset
      cases hset
    | ok m =>
      rw [hencode] at hset
      cases hset
      rfl

section

variable (hlinger : IsLinger level option)

include hlinger

theorem getSuccess_linger (a b c d : Byte) : socketOptionGetSuccess level option 4
      { err := 0#16, value := some (.intval ((c ++ d : BitVec 16) ++ (a ++ b : BitVec 16))) } =
        .ok [a, b, c, d] := by
  have hword : ∀ w : BitVec 16, (w.setWidth 32).setWidth 16 = w := by simp
  rw [socketOptionGetSuccess, if_neg (by simp), if_pos hlinger]
  dsimp only
  rw [if_neg (by simp), low_append, high_append, hword, hword, put16_append, put16_append]
  rfl

theorem encodeOption_linger {message : OptionValue}
    (h : encodeOption level option value = .ok message) :
    ∃ a b c d, value = [a, b, c, d] ∧ message = .intval (lingerWord (a ++ b) (c ++ d)) := by
  unfold encodeOption at h
  rw [if_pos hlinger] at h
  split at h
  · grind
  · cases h

theorem survives_linger_iff :
    Survives p ctx level option value ↔ ¬ LingerOverflows p level option value := by
  constructor
  · rintro hsurvives ⟨-, hsupported, a, b, c, d, rfl, hlarge⟩
    have hset : socketOptionSet level option [a, b, c, d] =
        .ok (some (.intval (lingerWord (a ++ b) (c ++ d)))) := by
      have hmulti : netSocketOptSockLinger ≠ netSocketOptSockMultiPktAddr := by decide
      have herr : netSocketOptSockLinger ≠ netSocketOptSockRequireErrClear := by decide
      rw [socketOptionSet, hlinger.2, if_neg (fun h => hmulti h.2), if_neg (fun h => herr h.2),
        encodeOption, if_pos ⟨hlinger.1, rfl⟩]
      rfl
    obtain ⟨value', hthrough, -⟩ := hsurvives _ hset hsupported
    have hserved := served_linger ctx (a ++ b) (c ++ d) hlinger hsupported
    rw [if_neg (Nat.not_lt.mpr hlarge)] at hserved
    rw [throughProxy_eq hset hserved, socketOptionGetSuccess,
      if_pos (by decide : netErrInternal ≠ 0#16)] at hthrough
    cases hthrough
  · intro hnot message hset hsupported
    obtain ⟨a, b, c, d, rfl, rfl⟩ := encodeOption_linger hlinger (encodeOption_of_set hset)
    have hsmall : (c ++ d : BitVec 16).toNat < 2 ^ 15 := by
      by_contra hlarge
      exact hnot ⟨hlinger, hsupported, a, b, c, d, rfl, Nat.not_lt.mp hlarge⟩
    have hserved := served_linger ctx (a ++ b) (c ++ d) hlinger hsupported
    rw [if_pos hsmall] at hserved
    refine ⟨[a, b, c, d], ?_, ?_⟩
    · rw [throughProxy_eq hset hserved]
      exact getSuccess_linger hlinger a b c d
    · simp [SameValue]

end

def flagBytes (f : Bool) : ℕ → List Byte
  | 1 => [(flagWord f).setWidth 8]
  | 2 => put16 ((flagWord f).setWidth 16)
  | _ => put32 (flagWord f)

theorem flagWord_ne_zero (f : Bool) : decide (flagWord f ≠ 0#32) = f := by
  cases f <;> rfl

theorem append_ne_zero_iff {v w : ℕ} (a : BitVec v) (b : BitVec w) :
    a ++ b ≠ 0#(v + w) ↔ a ≠ 0#v ∨ b ≠ 0#w := by
  rw [← not_and_or, not_iff_not, ← BitVec.toNat_inj, ← BitVec.toNat_inj, ← BitVec.toNat_inj,
    BitVec.toNat_append]
  simp

theorem any_two (a b : Byte) : [a, b].any (· ≠ 0#8) = decide (a ++ b ≠ 0#16) := by
  rw [Bool.eq_iff_iff, decide_eq_true_eq, append_ne_zero_iff a b]
  simp

theorem any_four (a b c d : Byte) :
    [a, b, c, d].any (· ≠ 0#8) = decide (a ++ b ++ c ++ d ≠ 0#32) := by
  rw [Bool.eq_iff_iff, decide_eq_true_eq, append_ne_zero_iff (a ++ b ++ c) d,
    append_ne_zero_iff (a ++ b) c, append_ne_zero_iff a b]
  simp [or_assoc]

theorem encodeOption_flagval (hlinger : ¬ IsLinger level option)
    (htype : determineSocketOptionType level option = .flagval) {message : OptionValue}
    (h : encodeOption level option value = .ok message) :
    (value.length = 1 ∨ value.length = 2 ∨ value.length = 4) ∧
      message = .intval (flagWord (value.any (· ≠ 0#8))) := by
  unfold encodeOption at h
  rw [if_neg hlinger, htype] at h
  dsimp only at h
  split at h
  · cases h
    simp
  · cases h
    rw [any_two]
    exact ⟨by simp, rfl⟩
  · cases h
    rw [any_four]
    exact ⟨by simp, rfl⟩
  · cases h

theorem getSuccess_flagval (hlinger : ¬ IsLinger level option)
    (htype : determineSocketOptionType level option = .flagval) {len : ℕ}
    (hlen : len = 1 ∨ len = 2 ∨ len = 4) (f : Bool) :
    socketOptionGetSuccess level option len
      { err := 0#16, value := some (.intval (flagWord f)) } = .ok (flagBytes f len) := by
  rw [socketOptionGetSuccess, if_neg (by simp), if_neg hlinger, htype]
  dsimp only
  rw [flagWord_ne_zero]
  rcases hlen with rfl | rfl | rfl <;> rfl

theorem length_flagBytes (f : Bool) {len : ℕ} (hlen : len = 1 ∨ len = 2 ∨ len = 4) :
    (flagBytes f len).length = len := by
  rcases hlen with rfl | rfl | rfl <;> rfl

theorem any_flagBytes (f : Bool) {len : ℕ} (hlen : len = 1 ∨ len = 2 ∨ len = 4) :
    (flagBytes f len).any (· ≠ 0#8) = f := by
  rcases hlen with rfl | rfl | rfl <;> cases f <;> decide

theorem encodeOption_intval (hlinger : ¬ IsLinger level option)
    (htype : determineSocketOptionType level option = .intval) {message : OptionValue}
    (h : encodeOption level option value = .ok message) :
    ∃ v, message = .intval v ∧ socketOptionGetSuccess level option value.length
      { err := 0#16, value := some (.intval v) } = .ok value := by
  unfold encodeOption at h
  rw [if_neg hlinger, htype] at h
  dsimp only at h
  have hget : ∀ len v, socketOptionGetSuccess level option len
      { err := 0#16, value := some (.intval v) } =
        if len = 2 then .ok (put16 (v.setWidth 16)) else if len = 4 then .ok (put32 v)
        else .error netErrParamErr := by
    intro len v
    rw [socketOptionGetSuccess, if_neg (by simp), if_neg hlinger, htype]
  split at h
  · next a b =>
    cases h
    refine ⟨_, rfl, ?_⟩
    rw [hget, if_pos (by simp), BitVec.setWidth_setWidth_of_le _ (by omega), BitVec.setWidth_eq,
      put16_append]
  · next a b c d =>
    cases h
    refine ⟨_, rfl, ?_⟩
    rw [hget, if_neg (by simp), if_pos (by simp), put32_append]
  · cases h

theorem encodeOption_bufval (hlinger : ¬ IsLinger level option)
    (htype : determineSocketOptionType level option = .bufval) {message : OptionValue}
    (h : encodeOption level option value = .ok message) :
    value.length ≤ 40 ∧ message = .bufval value := by
  unfold encodeOption at h
  rw [if_neg hlinger, htype] at h
  · grind

theorem getSuccess_bufval (hlinger : ¬ IsLinger level option)
    (htype : determineSocketOptionType level option = .bufval) (hlength : value.length ≤ 40) :
    socketOptionGetSuccess level option value.length
      { err := 0#16, value := some (.bufval value) } = .ok value := by
  rw [socketOptionGetSuccess, if_neg (by simp), if_neg hlinger, htype]
  dsimp only
  rw [if_neg (Nat.not_lt.mpr hlength), if_neg (lt_irrefl _)]

theorem determineSocketOptionType_bufval_iff (level option : BitVec 16) :
    determineSocketOptionType level option = .bufval ↔ level = netSocketOptLevelIP := by
  rw [determineSocketOptionType]
  split_ifs <;> simp_all

theorem determineSocketOptionType_nonBlocking (h : IsNonBlocking level option) :
    determineSocketOptionType level option = .flagval := by
  rw [h.1, h.2]
  decide

/-- Options survive the proxy, but for linger times from 2^15 on. -/
theorem survives_iff (p : Platform) (ctx : OptionContext) (level option : BitVec 16)
    (value : List Byte) :
    Survives p ctx level option value ↔ ¬ LingerOverflows p level option value := by
  by_cases hlinger : IsLinger level option
  · exact survives_linger_iff hlinger
  · refine iff_of_true ?_ fun h => hlinger h.1
    intro message hset hsupported
    have hencode := encodeOption_of_set hset
    cases htype : determineSocketOptionType level option with
    | flagval =>
      obtain ⟨hlen, rfl⟩ := encodeOption_flagval hlinger htype hencode
      have hip : level ≠ netSocketOptLevelIP := by
        rw [Ne, ← determineSocketOptionType_bufval_iff level option, htype]
        simp
      have hserved := served_intval ctx (flagWord (value.any (· ≠ 0#8))) hlinger hip hsupported
        fun _ => ⟨_, rfl⟩
      refine ⟨_, (throughProxy_eq hset hserved).trans (getSuccess_flagval hlinger htype hlen _), ?_⟩
      rw [SameValue, if_pos htype]
      exact ⟨length_flagBytes _ hlen, any_flagBytes _ hlen⟩
    | intval =>
      obtain ⟨v, rfl, hget⟩ := encodeOption_intval hlinger htype hencode
      have hip : level ≠ netSocketOptLevelIP := by
        rw [Ne, ← determineSocketOptionType_bufval_iff level option, htype]
        simp
      have hserved := served_intval ctx v hlinger hip hsupported fun hnb => by
        rw [determineSocketOptionType_nonBlocking hnb] at htype
        cases htype
      refine ⟨value, (throughProxy_eq hset hserved).trans hget, ?_⟩
      rw [SameValue, htype, if_neg (by simp)]
    | bufval =>
      obtain ⟨hlength, rfl⟩ := encodeOption_bufval hlinger htype hencode
      have hip := (determineSocketOptionType_bufval_iff level option).mp htype
      have hserved := served_bufval ctx hip hlength hsupported
      refine ⟨value, (throughProxy_eq hset hserved).trans
        (getSuccess_bufval hlinger htype hlength), ?_⟩
      rw [SameValue, htype, if_neg (by simp)]

/-- A platform with the linger option. -/
def linux : Platform where
  constant name := if name = "SO_LINGER" then some 13 else none
  bigEndian := false

/-- Lingering for 2^15 seconds cannot be read back. -/
theorem linger_not_survives :
    ¬ Survives linux ⟨false, fun _ _ => none⟩ netSocketOptLevelSocket netSocketOptSockLinger
      [0#8, 1#8, 0x80#8, 0#8] := by
  rw [survives_iff, not_not]
  exact ⟨⟨rfl, rfl⟩, Or.inr ⟨rfl, by decide⟩, 0#8, 1#8, 0x80#8, 0#8, rfl, by decide⟩

end Survival

end Cloudpilot.Network
