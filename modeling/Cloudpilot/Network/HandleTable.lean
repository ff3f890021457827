import Mathlib.Data.Nat.Bitwise
import Cloudpilot.Network.Connection

/-! # The handle table of a connection

Handles come from the guest as arbitrary words. They are bounded three times: by the table, by
`getSocketCtx` and by the width of `select`, and the last two admit the index that lies behind
the table.
-/

namespace Cloudpilot.Network

open Cloudpilot.Library.PartialRun List Option Nat

namespace Connection

variable {c c' : Connection} {handle fds width : BitVec 32} {i : ℕ} {ctx : SocketContext}

/-- The entry of a handle, which is empty outside of the table. -/
def entry (c : Connection) (handle : ℕ) : Option SocketContext :=
  if h : handle < maxHandle then c.sockets ⟨handle, h⟩ else none

def Open (c : Connection) (handle : ℤ) : Prop := ∃ i : ℕ, handle = i ∧ (c.entry i).isSome = true

/-- A bit of a set of descriptors that `select` has to consider. -/
def Requested (c : Connection) (fds width : BitVec 32) (i : ℕ) : Prop :=
  fds.getLsbD i = true ∧ i < width.toNat ∧ (c.entry i).isSome = true

def Considers (c : Connection) (fds width : BitVec 32) (sockets : List ℕ) : Prop :=
  ∀ socket, socket ∈ sockets ↔ ∃ i, c.Requested fds width i ∧
    (c.entry i).map SocketContext.socket = some socket

def Reports (c : Connection) (fds width : BitVec 32) (reported : ℕ) : Prop :=
  ∀ i, reported.testBit i = true → c.Requested fds width i

/-- What a request for `select` does. -/
def Selects (c : Connection) (width readFDs writeFDs exceptFDs : BitVec 32) (served : Served) :
    Prop :=
  (∃ rlist wlist xlist, served.selected = some (rlist, wlist, xlist) ∧
    c.Considers readFDs width rlist ∧ c.Considers writeFDs width wlist ∧
    c.Considers exceptFDs width xlist) ∧
  ∀ r w x err, served.response = .select r w x err →
    c.Reports readFDs width r ∧ c.Reports writeFDs width w ∧ c.Reports exceptFDs width x

end Connection

def Request.handle : Request → Option (BitVec 32)
  | socketAccept handle _ => some handle
  | socketClose handle _ => some handle
  | onSocket _ handle _ => some handle
  | socketOpen .. => none
  | select .. => none
  | other _ => none

namespace Connection

variable {c c' : Connection} {handle fds width : BitVec 32} {i : ℕ} {ctx : SocketContext}

structure Sound (c : Connection) (request : Request) : Prop where
  allocated : ∀ handle, (c.serve request).response.newHandle = some handle →
    1 ≤ handle ∧ handle ≤ 30 ∧ ¬ c.Open handle
  refused : ∀ handle, request.handle = some handle → ¬ c.Open handle.toInt →
    (c.serve request).response.err = netErrParamErr ∧ (c.serve request).connection = c
  selects : ∀ width readFDs writeFDs exceptFDs reply,
    request = .select width readFDs writeFDs exceptFDs reply →
      c.Selects width readFDs writeFDs exceptFDs (c.serve request)

/-- The request does not reach the index behind the table, and an accept has a free handle or an
open socket. -/
structure Proper (c : Connection) (request : Request) : Prop where
  handle : request.handle ≠ some 31#32
  accept : ∀ handle reply, request = .socketAccept handle reply → ¬ c.Open handle.toInt →
    ∃ i : ℕ, 1 ≤ i ∧ i ≤ 30 ∧ ¬ c.Open i
  select : ∀ width readFDs writeFDs exceptFDs reply,
    request = .select width readFDs writeFDs exceptFDs reply → 32 ≤ width.toNat →
      (readFDs ||| writeFDs ||| exceptFDs).getLsbD 31 = false

/-- Handle 0 is never given away, and every entry has a socket of its own. -/
structure Inv (c : Connection) : Prop where
  zero : c.entry 0 = none
  injective : ∀ i j ctx ctx', c.entry i = some ctx → c.entry j = some ctx' →
    ctx.socket = ctx'.socket → i = j
  created : ∀ i ctx, c.entry i = some ctx → ctx.socket < c.created

theorem inv_initial (forceBind : Bool) : Inv { forceBind := forceBind } := by
  have hentry : ∀ i, entry { forceBind := forceBind } i = none := by
    simp [entry]
  constructor <;> simp [hentry]

theorem entry_eq_none (h : maxHandle ≤ i) : c.entry i = none := dif_neg (by omega)

theorem item_eq (h : i < maxHandle) : c.item i = .ok (c.entry i) := by grind [item, entry]

theorem entry_put {handle : ℕ} {entry : Option SocketContext} (h : handle < maxHandle) (i : ℕ) :
    (c.put handle entry).entry i = if i = handle then entry else c.entry i := by
  rw [Connection.entry, Connection.entry]
  by_cases hi : i < maxHandle
  · rw [dif_pos hi, dif_pos hi]
    rfl
  · grind

theorem open_natCast (i : ℕ) : c.Open i ↔ (c.entry i).isSome = true := by
  constructor
  · rintro ⟨j, hj, hsome⟩
    rwa [← Int.ofNat_inj.mp hj] at hsome
  · intro hsome
    exact ⟨i, rfl, hsome⟩

theorem Open.bounds (hc : c.Inv) {handle : ℤ} (h : c.Open handle) : 1 ≤ handle ∧ handle ≤ 30 := by
  obtain ⟨i, rfl, hsome⟩ := h
  have hzero : i ≠ 0 := by grind [hc.zero]
  have hlt : i < maxHandle := by
    by_contra hge
    rw [entry_eq_none (not_lt.mp hge)] at hsome
    cases hsome
  rw [maxHandle] at hlt
  omega

theorem getSocketCtx_of_open (hc : c.Inv) {handle : ℤ} (h : c.Open handle) :
    ∃ ctx, c.entry handle.toNat = some ctx ∧ c.getSocketCtx handle = .ok ctx := by
  have hbounds := h.bounds hc
  obtain ⟨i, rfl, hsome⟩ := h
  obtain ⟨ctx, hctx⟩ := isSome_iff_exists.mp hsome
  refine ⟨ctx, hctx, ?_⟩
  rw [getSocketCtx, if_neg (by rw [maxHandle]; omega), Int.toNat_natCast,
    item_eq (by rw [maxHandle]; omega), hctx]

theorem getSocketCtx_of_not_open {handle : ℤ} (h : ¬ c.Open handle) (hne : handle ≠ 31) :
    c.getSocketCtx handle = .error (.invalidHandle handle) := by
  rw [getSocketCtx]
  by_cases hbounds : handle < 1 ∨ handle > maxHandle
  · grind
  · rw [if_neg hbounds]
    rw [maxHandle] at hbounds
    obtain ⟨i, rfl⟩ := Int.eq_ofNat_of_zero_le (by omega : 0 ≤ handle)
    rw [open_natCast, not_isSome_iff_eq_none] at h
    rw [Int.toNat_natCast, item_eq (by rw [maxHandle]; omega), h]

theorem getSocketCtx_31 : c.getSocketCtx 31 = .error .indexError := rfl

theorem getFreeHandle_ok {free : ℕ} (h : c.getFreeHandle = .ok free) :
    1 ≤ free ∧ free ≤ 30 ∧ c.entry free = none := by
  rw [getFreeHandle] at h
  split at h
  case h_2 => cases h
  case h_1 handle hfind =>
    cases h
    have hfree := List.find?_some hfind
    rw [decide_eq_true_eq] at hfree
    have hlt : handle.val < 31 := handle.isLt
    refine ⟨hfree.1, by omega, ?_⟩
    rw [entry, dif_pos handle.isLt]
    exact hfree.2

theorem getFreeHandle_error {e : PyError} (h : c.getFreeHandle = .error e) :
    e = .noMoreSockets ∧ ∀ i : ℕ, 1 ≤ i → i ≤ 30 → (c.entry i).isSome = true := by
  rw [getFreeHandle] at h
  split at h
  case h_1 => cases h
  case h_2 hfind =>
    cases h
    refine ⟨rfl, ?_⟩
    intro i hi hle
    have hlt : i < maxHandle := by rw [maxHandle]; omega
    have hused := List.find?_eq_none.mp hfind ⟨i, hlt⟩ (mem_finRange _)
    rw [entry, dif_pos hlt, isSome_iff_ne_none]
    intro hnone
    apply hused
    rw [decide_eq_true_eq]
    exact ⟨hi, hnone⟩

theorem mem_fdSetToHandles :
    i ∈ fdSetToHandles fds width ↔
      1 ≤ i ∧ i < 32 ∧ i < width.toNat ∧ fds.getLsbD i = true := by
  have hbit : fds.toNat &&& 1 <<< i > 0 ↔ fds.getLsbD i = true := by
    rw [one_shiftLeft, and_two_pow, BitVec.getLsbD]
    cases fds.toNat.testBit i <;> simp
  rw [fdSetToHandles, mem_filter, mem_range'_1, decide_eq_true_eq, hbit]
  have hwidth : max (min width.toNat 32) 0 = min width.toNat 32 := max_zero _
  constructor <;> grind

theorem socketsOf_ok {handles : List ℕ} (h : ∀ i ∈ handles, i < maxHandle) :
    c.socketsOf handles =
      .ok (handles.flatMap fun i => ((c.entry i).map SocketContext.socket).toList) := by
  induction handles with
  | nil => rfl
  | cons i handles ih =>
    rw [socketsOf, item_eq (h i mem_cons_self),
      ih fun j hj => h j (mem_cons_of_mem i hj), flatMap_cons]
    rfl

theorem socketsOf_error {handles : List ℕ} (h : ∃ i ∈ handles, maxHandle ≤ i) :
    c.socketsOf handles = .error .indexError := by
  induction handles with
  | nil => grind
  | cons j handles ih =>
    rw [socketsOf]
    by_cases hj : j < maxHandle
    · rw [item_eq hj]
      obtain ⟨i, hi, hle⟩ := h
      rcases mem_cons.mp hi with rfl | hrest
      · omega
      · rw [ih ⟨i, hrest, hle⟩]
        rfl
    · rw [item, dif_neg hj]
      rfl

def Reaches31 (fds width : BitVec 32) : Prop := 32 ≤ width.toNat ∧ fds.getLsbD 31 = true

theorem fdSetToSockets_ok (hc : c.Inv) (h : ¬ Reaches31 fds width) :
    ∃ sockets, c.fdSetToSockets fds width = .ok sockets ∧ c.Considers fds width sockets := by
  have hlt : ∀ i ∈ fdSetToHandles fds width, i < maxHandle := by
    intro i hi
    rw [mem_fdSetToHandles] at hi
    by_contra hge
    rw [maxHandle] at hge
    obtain rfl : i = 31 := by omega
    exact h ⟨hi.2.2.1, hi.2.2.2⟩
  refine ⟨_, socketsOf_ok hlt, ?_⟩
  intro socket
  simp only [mem_flatMap, mem_toList, mem_fdSetToHandles, Requested]
  constructor
  · rintro ⟨i, ⟨-, -, hwidth, hset⟩, hsocket⟩
    refine ⟨i, ⟨hset, hwidth, ?_⟩, hsocket⟩
    rw [← isSome_map, hsocket]
    rfl
  · rintro ⟨i, ⟨hset, hwidth, hsome⟩, hsocket⟩
    have hbounds := Open.bounds hc ((open_natCast i).mpr hsome)
    exact ⟨i, ⟨by omega, by omega, hwidth, hset⟩, hsocket⟩

theorem fdSetToSockets_error (h : Reaches31 fds width) :
    c.fdSetToSockets fds width = .error .indexError :=
  socketsOf_error ⟨31, mem_fdSetToHandles.mpr ⟨by decide, by decide, h.1, h.2⟩, le_refl 31⟩

theorem testBit_or_shiftLeft (n i j : ℕ) :
    (n ||| 1 <<< j).testBit i = true ↔ n.testBit i = true ∨ j = i := by
  rw [testBit_or, one_shiftLeft, testBit_two_pow]
  simp

theorem testBit_foldl (sockets : List ℕ) (handles : List (Fin maxHandle)) (packed : ℕ) (i : ℕ) :
    (handles.foldl (c.packHandle sockets) packed).testBit i = true ↔
      packed.testBit i = true ∨ ∃ handle ∈ handles, handle.val = i ∧
        ∃ ctx, c.sockets handle = some ctx ∧ ctx.socket ∈ sockets := by
  induction handles generalizing packed with
  | nil => simp
  | cons handle handles ih =>
    rw [foldl_cons, ih, packHandle]
    cases hctx : c.sockets handle with
    | none => simp [hctx]
    | some ctx =>
      by_cases hmem : ctx.socket ∈ sockets
      · simp only [hmem, if_true, testBit_or_shiftLeft, exists_mem_cons_iff, hctx,
          some.injEq, exists_eq_left', and_true]
        tauto
      · simp [hmem, hctx]

theorem testBit_socketsToFdSet {sockets : List ℕ} :
    (c.socketsToFdSet sockets).testBit i = true ↔
      ∃ ctx, c.entry i = some ctx ∧ ctx.socket ∈ sockets := by
  rw [socketsToFdSet, testBit_foldl]
  simp only [zero_testBit, Bool.false_eq_true, false_or, mem_finRange, true_and]
  constructor <;> grind [entry]

theorem reports_filter (hc : c.Inv) {sockets : List ℕ} (h : c.Considers fds width sockets)
    (ready : ℕ → Bool) : c.Reports fds width (c.socketsToFdSet (sockets.filter ready)) := by
  intro i hi
  obtain ⟨ctx, hctx, hmem⟩ := testBit_socketsToFdSet.mp hi
  obtain ⟨j, hrequested, hsocket⟩ := (h ctx.socket).mp (mem_of_mem_filter hmem)
  obtain ⟨ctx', hctx', heq⟩ := map_eq_some_iff.mp hsocket
  rwa [hc.injective i j ctx ctx' hctx hctx' heq.symm]

theorem reports_zero : c.Reports fds width 0 := by
  intro i hi
  simp at hi

theorem Inv.put (hc : c.Inv) {handle : ℕ} {entry : Option SocketContext} (hpos : 1 ≤ handle)
    (hlt : handle < maxHandle)
    (h : ∀ ctx, entry = some ctx → ∃ old, c.entry handle = some old ∧ old.socket = ctx.socket) :
    (c.put handle entry).Inv := by
  have hold : ∀ i ctx, (c.put handle entry).entry i = some ctx →
      ∃ old, c.entry i = some old ∧ old.socket = ctx.socket := by
    intro i ctx hctx
    rw [entry_put hlt] at hctx
    split_ifs at hctx with hi <;> grind
  constructor
  · rw [entry_put hlt, if_neg (by omega)]
    exact hc.zero
  · intro i j ctx ctx' hi hj heq
    obtain ⟨old, hi, hsocket⟩ := hold i ctx hi
    obtain ⟨old', hj, hsocket'⟩ := hold j ctx' hj
    exact hc.injective i j old old' hi hj (by rw [hsocket, hsocket', heq])
  · intro i ctx hi
    obtain ⟨old, hi, hsocket⟩ := hold i ctx hi
    rw [← hsocket]
    exact hc.created i old hi

theorem entry_addSocket {free : ℕ} {type : SocketKind} (h : free < maxHandle) (i : ℕ) :
    (c.addSocket free type).entry i =
      if i = free then some { socket := c.created, type := type } else c.entry i :=
  entry_put h i

theorem Inv.addSocket (hc : c.Inv) {free : ℕ} (h : c.getFreeHandle = .ok free)
    (type : SocketKind) : (c.addSocket free type).Inv := by
  obtain ⟨hpos, hle, -⟩ := getFreeHandle_ok h
  have hlt : free < maxHandle := by rw [maxHandle]; omega
  constructor
  · rw [entry_addSocket hlt, if_neg (by omega)]
    exact hc.zero
  · intro i j ctx ctx' hi hj heq
    rw [entry_addSocket hlt] at hi hj
    split_ifs at hi hj with hi' hj' hj'
    · rw [hi', hj']
    · cases hi
      exact absurd (hc.created j ctx' hj) (by rw [← heq]; exact lt_irrefl _)
    · cases hj
      exact absurd (hc.created i ctx hi) (by rw [heq]; exact lt_irrefl _)
    · exact hc.injective i j ctx ctx' hi hj heq
  · intro i ctx hi
    rw [entry_addSocket hlt] at hi
    split_ifs at hi
    · cases hi
      exact lt_succ_self _
    · exact lt_succ_of_lt (hc.created i ctx hi)

theorem toNat_of_open (hc : c.Inv) (h : c.Open handle.toInt) :
    handle.toInt.toNat = handle.toNat ∧ 1 ≤ handle.toNat ∧ handle.toNat < maxHandle := by
  have hbounds := h.bounds hc
  rw [BitVec.toInt_eq_toNat_cond] at hbounds ⊢
  rw [maxHandle]
  split_ifs at hbounds ⊢ <;> omega

theorem getSocketCtx_error (h : ¬ c.Open handle.toInt) :
    c.getSocketCtx handle.toInt =
      .error (if handle = 31#32 then .indexError else .invalidHandle handle.toInt) := by
  by_cases h31 : handle = 31#32
  · rw [if_pos h31, h31]
    exact getSocketCtx_31
  · rw [if_neg h31]
    apply getSocketCtx_of_not_open h
    intro heq
    exact h31 (BitVec.eq_of_toInt_eq heq)

theorem exceptionToErr_lookup :
    exceptionToErr (if handle = 31#32 then .indexError else .invalidHandle handle.toInt) =
      netErrParamErr ↔ handle ≠ 31#32 := by
  split_ifs with h31
  · simp only [h31, ne_eq, not_true_eq_false, iff_false]
    decide
  · simp only [h31, ne_eq, not_false_eq_true, iff_true]
    rfl

theorem socket_exec (call : SocketCall) (forceBind : Bool) (ctx : SocketContext)
    (reply : Except PyError Unit) : (call.exec forceBind ctx reply).1.socket = ctx.socket := by
  cases call with
  | bind => cases reply <;> rfl
  | connect bindReply =>
    simp only [SocketCall.exec]
    split_ifs
    · grind
    · rfl
  | optionSet nonBlocking => cases nonBlocking <;> rfl
  | _ => rfl

theorem Inv.serve (hc : c.Inv) (request : Request) : (c.serve request).connection.Inv := by
  cases request with
  | socketOpen type protocol reply =>
    simp only [Connection.serve, handleSocketOpen]
    cases socketType type with
    | none => exact hc
    | some sockType =>
      dsimp only
      split_ifs
      · exact hc
      · cases hfree : c.getFreeHandle with
        | error e => exact hc
        | ok free =>
          cases reply with
          | error e => exact hc
          | ok _ => exact hc.addSocket hfree sockType
  | socketAccept handle reply =>
    simp only [Connection.serve, handleSocketAccept]
    cases hfree : c.getFreeHandle with
    | error e => exact hc
    | ok free =>
      cases c.getSocketCtx handle.toInt with
      | error e => exact hc
      | ok ctx =>
        cases reply with
        | error e => exact hc
        | ok _ => exact hc.addSocket hfree ctx.type
  | socketClose handle reply =>
    simp only [Connection.serve, handleSocketClose]
    by_cases hopen : c.Open handle.toInt
    · obtain ⟨ctx, -, hget⟩ := getSocketCtx_of_open hc hopen
      obtain ⟨-, hpos, hlt⟩ := toNat_of_open hc hopen
      rw [hget]
      cases reply <;> exact hc.put hpos hlt (by simp)
    · rwa [getSocketCtx_error hopen]
  | onSocket call handle reply =>
    simp only [Connection.serve, handleSocketCall]
    by_cases hopen : c.Open handle.toInt
    · obtain ⟨ctx, hctx, hget⟩ := getSocketCtx_of_open hc hopen
      obtain ⟨heq, hpos, hlt⟩ := toNat_of_open hc hopen
      rw [heq] at hctx
      have hsocket := socket_exec call c.forceBind ctx reply
      have hput : (c.put handle.toNat (some (call.exec c.forceBind ctx reply).1)).Inv := by
        apply hc.put hpos hlt
        intro ctx' hctx'
        cases hctx'
        exact ⟨ctx, hctx, hsocket.symm⟩
      rw [hget]
      dsimp only
      cases hexec : call.exec c.forceBind ctx reply with
      | mk ctx' result => grind
    · rwa [getSocketCtx_error hopen]
  | select width readFDs writeFDs exceptFDs reply =>
    simp only [Connection.serve, handleSelect]
    cases c.selectLists width readFDs writeFDs exceptFDs with
    | error e => exact hc
    | ok lists => cases reply <;> exact hc
  | other err => exact hc

theorem not_open_of_free {free : ℕ} (h : c.getFreeHandle = .ok free) : ¬ c.Open free := by
  rw [open_natCast, (getFreeHandle_ok h).2.2]
  simp

theorem allocated (request : Request) {handle : ℤ}
    (h : (c.serve request).response.newHandle = some handle) :
    1 ≤ handle ∧ handle ≤ 30 ∧ ¬ c.Open handle := by
  have hfree : ∃ free, c.getFreeHandle = .ok free ∧ handle = free := by
    cases request with
    | socketOpen type protocol reply =>
      simp only [Connection.serve, handleSocketOpen] at h
      cases htype : socketType type with
      | none => simp [htype, Response.newHandle] at h
      | some sockType =>
        simp only [htype] at h
        split_ifs at h
        · simp [Response.newHandle] at h
        · cases hfree : c.getFreeHandle with
          | error e => simp [hfree, Response.newHandle] at h
          | ok free =>
            cases reply with
            | error e => simp [hfree, Response.newHandle] at h
            | ok _ =>
              simp only [hfree, Response.newHandle] at h
              exact ⟨free, rfl, (some.inj (ite_none_left_eq_some.mp h).2).symm⟩
    | socketAccept handle reply =>
      simp only [Connection.serve, handleSocketAccept] at h
      cases hfree : c.getFreeHandle with
      | error e => simp [hfree, Response.newHandle] at h
      | ok free =>
        cases hctx : c.getSocketCtx handle.toInt with
        | error e => simp [hfree, hctx, Response.newHandle] at h
        | ok ctx =>
          cases reply with
          | error e => simp [hfree, hctx, Response.newHandle] at h
          | ok _ =>
            simp only [hfree, hctx, Response.newHandle] at h
            exact ⟨free, rfl, (some.inj (ite_none_left_eq_some.mp h).2).symm⟩
    | socketClose handle reply =>
      simp only [Connection.serve, handleSocketClose] at h
      cases hctx : c.getSocketCtx handle.toInt with
      | error e => simp [hctx, Response.newHandle] at h
      | ok ctx => cases reply <;> simp [hctx, Response.newHandle] at h
    | onSocket call handle reply =>
      simp only [Connection.serve, handleSocketCall] at h
      cases hctx : c.getSocketCtx handle.toInt with
      | error e => simp [hctx, Response.newHandle] at h
      | ok ctx =>
        simp only [hctx] at h
        split at h <;> simp [Response.newHandle] at h
    | select width readFDs writeFDs exceptFDs reply =>
      simp only [Connection.serve, handleSelect] at h
      split at h
      · simp [Response.newHandle] at h
      · grind [Response.newHandle]
    | other err => simp [Connection.serve, Response.newHandle] at h
  obtain ⟨free, hget, rfl⟩ := hfree
  obtain ⟨hpos, hle, -⟩ := getFreeHandle_ok hget
  exact ⟨by omega, by omega, not_open_of_free hget⟩

theorem refused_accept_iff {reply : Except PyError Unit} (h : ¬ c.Open handle.toInt) :
    ((c.serve (.socketAccept handle reply)).response.err = netErrParamErr ∧
        (c.serve (.socketAccept handle reply)).connection = c) ↔
      handle ≠ 31#32 ∧ ∃ i : ℕ, 1 ≤ i ∧ i ≤ 30 ∧ ¬ c.Open i := by
  simp only [Connection.serve, handleSocketAccept]
  cases hfree : c.getFreeHandle with
  | error e =>
    obtain ⟨rfl, hused⟩ := getFreeHandle_error hfree
    have hne : netErrNoMoreSockets ≠ netErrParamErr := by decide
    refine iff_of_false ?_ ?_
    · rintro ⟨herr, -⟩
      exact hne herr
    · rintro ⟨-, i, hpos, hle, hnot⟩
      exact hnot ((open_natCast i).mpr (hused i hpos hle))
  | ok free =>
    obtain ⟨hpos, hle, -⟩ := getFreeHandle_ok hfree
    rw [getSocketCtx_error h]
    simp only [Response.err, and_true]
    rw [exceptionToErr_lookup, iff_self_and]
    intro _
    exact ⟨free, hpos, hle, not_open_of_free hfree⟩

theorem refused_close_iff {reply : Except PyError Unit} (h : ¬ c.Open handle.toInt) :
    ((c.serve (.socketClose handle reply)).response.err = netErrParamErr ∧
        (c.serve (.socketClose handle reply)).connection = c) ↔ handle ≠ 31#32 := by
  simp only [Connection.serve, handleSocketClose]
  rw [getSocketCtx_error h]
  simp only [Response.err, and_true]
  exact exceptionToErr_lookup

theorem refused_onSocket_iff {call : SocketCall} {reply : Except PyError Unit}
    (h : ¬ c.Open handle.toInt) :
    ((c.serve (.onSocket call handle reply)).response.err = netErrParamErr ∧
        (c.serve (.onSocket call handle reply)).connection = c) ↔ handle ≠ 31#32 := by
  simp only [Connection.serve, handleSocketCall]
  rw [getSocketCtx_error h]
  simp only [Response.err, and_true]
  exact exceptionToErr_lookup

theorem not_open_31 (hc : c.Inv) : ¬ c.Open (31#32 : BitVec 32).toInt := by
  intro h
  exact absurd (h.bounds hc).2 (by decide)

theorem getLsbD_or_31 (readFDs writeFDs exceptFDs width : BitVec 32) :
    (32 ≤ width.toNat → (readFDs ||| writeFDs ||| exceptFDs).getLsbD 31 = false) ↔
      ¬ Reaches31 readFDs width ∧ ¬ Reaches31 writeFDs width ∧ ¬ Reaches31 exceptFDs width := by
  simp only [Reaches31, BitVec.getLsbD_or, Bool.or_eq_false_iff, not_and, Bool.not_eq_true]
  tauto

/-- `select` looks at the requested bits unless it reaches the index behind the table. -/
theorem selects_iff (hc : c.Inv) (width readFDs writeFDs exceptFDs : BitVec 32)
    (reply : Except PyError ((ℕ → Bool) × (ℕ → Bool) × (ℕ → Bool))) :
    c.Selects width readFDs writeFDs exceptFDs
        (c.serve (.select width readFDs writeFDs exceptFDs reply)) ↔
      (32 ≤ width.toNat → (readFDs ||| writeFDs ||| exceptFDs).getLsbD 31 = false) := by
  rw [getLsbD_or_31]
  constructor
  · rintro ⟨⟨rlist, wlist, xlist, hselected, -⟩, -⟩
    simp only [Connection.serve, handleSelect] at hselected
    by_contra hnot
    have herror : c.selectLists width readFDs writeFDs exceptFDs = .error .indexError := by
      rw [selectLists]
      by_cases hr : Reaches31 readFDs width
      · rw [fdSetToSockets_error hr]
        rfl
      · obtain ⟨r, hr', -⟩ := fdSetToSockets_ok hc hr
        rw [hr']
        by_cases hw : Reaches31 writeFDs width
        · rw [fdSetToSockets_error hw]
          rfl
        · obtain ⟨w, hw', -⟩ := fdSetToSockets_ok hc hw
          have hx : Reaches31 exceptFDs width := by grind
          rw [hw', fdSetToSockets_error hx]
          rfl
    rw [herror] at hselected
    cases hselected
  · rintro ⟨hr, hw, hx⟩
    obtain ⟨rlist, hr', hrlist⟩ := fdSetToSockets_ok hc hr
    obtain ⟨wlist, hw', hwlist⟩ := fdSetToSockets_ok hc hw
    obtain ⟨xlist, hx', hxlist⟩ := fdSetToSockets_ok hc hx
    have hlists : c.selectLists width readFDs writeFDs exceptFDs = .ok (rlist, wlist, xlist) := by
      rw [selectLists, hr', hw', hx']
      rfl
    simp only [Connection.serve, handleSelect, hlists]
    cases reply with
    | error e =>
      refine ⟨⟨rlist, wlist, xlist, rfl, hrlist, hwlist, hxlist⟩, ?_⟩
      intro r w x err heq
      cases heq
      exact ⟨reports_zero, reports_zero, reports_zero⟩
    | ok ready =>
      obtain ⟨readable, writable, exceptional⟩ := ready
      refine ⟨⟨rlist, wlist, xlist, rfl, hrlist, hwlist, hxlist⟩, ?_⟩
      intro r w x err heq
      cases heq
      exact ⟨reports_filter hc hrlist readable, reports_filter hc hwlist writable,
        reports_filter hc hxlist exceptional⟩

/-- A request is served as it should be exactly when it stays away from the index behind the
table, and an accept is not refused for want of a handle first. -/
theorem sound_iff_proper (hc : c.Inv) (request : Request) :
    c.Sound request ↔ c.Proper request := by
  constructor
  · intro h
    constructor
    · intro h31
      have hrefused := h.refused 31#32 h31 (not_open_31 hc)
      cases request with
      | socketAccept handle reply =>
        cases h31
        exact ((refused_accept_iff (not_open_31 hc)).mp hrefused).1 rfl
      | socketClose handle reply =>
        cases h31
        exact (refused_close_iff (not_open_31 hc)).mp hrefused rfl
      | onSocket call handle reply =>
        cases h31
        exact (refused_onSocket_iff (not_open_31 hc)).mp hrefused rfl
      | _ => cases h31
    · rintro handle reply rfl hnot
      exact ((refused_accept_iff hnot).mp (h.refused handle rfl hnot)).2
    · rintro width readFDs writeFDs exceptFDs reply rfl
      exact (selects_iff hc ..).mp (h.selects width readFDs writeFDs exceptFDs reply rfl)
  · intro h
    constructor
    · intro handle
      exact allocated request
    · intro handle hnamed hnot
      have hne := h.handle
      rw [hnamed] at hne
      have hne31 : handle ≠ 31#32 := fun heq => hne (congrArg some heq)
      cases request with
      | socketAccept handle reply =>
        cases hnamed
        exact (refused_accept_iff hnot).mpr ⟨hne31, h.accept handle reply rfl hnot⟩
      | socketClose handle reply =>
        cases hnamed
        exact (refused_close_iff hnot).mpr hne31
      | onSocket call handle reply =>
        cases hnamed
        exact (refused_onSocket_iff hnot).mpr hne31
      | _ => cases hnamed
    · rintro width readFDs writeFDs exceptFDs reply rfl
      exact (selects_iff hc ..).mpr (h.select width readFDs writeFDs exceptFDs reply rfl)

/-- The state after a request. -/
def next (c : Connection) (request : Request) : Option Connection :=
  some (c.serve request).connection

/-- Every request of a connection is served as it should be exactly when every request is
proper. -/
theorem everyStep_sound_iff (forceBind : Bool) (requests : List Request) :
    EveryStep next Sound { forceBind := forceBind } requests ↔
      EveryStep next Proper { forceBind := forceBind } requests := by
  have hnext : ∀ (c : Connection) request, c.Inv → ∀ c', c.next request = some c' → c'.Inv := by
    intro c request hc c' h
    cases h
    exact hc.serve request
  constructor
  · intro h
    apply h.of_invariant _ (inv_initial forceBind)
    intro c request hc hsound
    exact ⟨(sound_iff_proper hc request).mp hsound, hnext c request hc⟩
  · intro h
    apply h.of_invariant _ (inv_initial forceBind)
    intro c request hc hproper
    exact ⟨(sound_iff_proper hc request).mpr hproper, hnext c request hc⟩

/-- Closing handle 31 is answered with an internal error. -/
theorem close_31_not_sound : ¬ EveryStep next Sound {} [.socketClose 31#32 (.ok ())] := by
  intro h
  have herr := (h.1.refused 31#32 rfl (not_open_31 (inv_initial false))).1
  cases herr

end Connection

end Cloudpilot.Network
