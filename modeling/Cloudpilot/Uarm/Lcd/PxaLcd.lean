import Mathlib.Tactic
import Cloudpilot.Uarm.Memory

/-! # RAM with a tracked framebuffer

The RAM and its mirror share one buffer, and each has its own idea of where the
framebuffer is. A write compares its offset with the bounds for its size, which are
computed in 32 bits when the framebuffer is set.
-/

namespace Cloudpilot.Uarm.Lcd

open Cpu

def ramBase : Word := 0xA0000000

/-- `deviceGetRamSize`. -/
def deviceGetRamSize : Word := 16 <<< 20

structure ArmRam where
  adr : Word
  framebufferStart : Word
  framebufferStart_2 : Word
  framebufferStart_4 : Word
  framebufferStart_8 : Word
  framebufferStart_16 : Word
  framebufferStart_32 : Word
  framebufferStart_64 : Word
  framebufferEnd : Word

def ramSetFramebuffer (ram : ArmRam) (base size : Word) : ArmRam :=
  if size > 0 then
    { ram with
      framebufferStart := base - ram.adr
      framebufferStart_2 := base - ram.adr - 2
      framebufferStart_4 := base - ram.adr - 4
      framebufferStart_8 := base - ram.adr - 8
      framebufferStart_16 := base - ram.adr - 16
      framebufferStart_32 := base - ram.adr - 32
      framebufferStart_64 := base - ram.adr - 64
      framebufferEnd := base - ram.adr + size }
  else
    { ram with
      framebufferStart := base - ram.adr
      framebufferStart_2 := 0
      framebufferStart_4 := 0
      framebufferStart_8 := 0
      framebufferStart_16 := 0
      framebufferStart_32 := 0
      framebufferStart_64 := 0
      framebufferEnd := 0xffffffff }

theorem ramSetFramebuffer_adr (ram : ArmRam) (base size : Word) :
    (ramSetFramebuffer ram base size).adr = ram.adr := by
  unfold ramSetFramebuffer
  split <;> rfl

def ramInit (adr : Word) : ArmRam := ramSetFramebuffer ⟨adr, 0, 0, 0, 0, 0, 0, 0, 0⟩ 0 0

namespace ArmRam

/-- The lower bound for the offsets of writes of a size. -/
def startFor (ram : ArmRam) : ℕ → Option Word
  | 1 => some ram.framebufferStart
  | 2 => some ram.framebufferStart_2
  | 4 => some ram.framebufferStart_4
  | 8 => some ram.framebufferStart_8
  | 16 => some ram.framebufferStart_16
  | 32 => some ram.framebufferStart_32
  | 64 => some ram.framebufferStart_64
  | _ => none

def marks (ram : ArmRam) (offset start : Word) : Bool := offset < ram.framebufferEnd ∧ offset ≥ start

end ArmRam

/-- What the guest reads: the buffer of the RAM, and words of all other regions. -/
structure Memory where
  ram : ℕ → Byte
  elsewhere : Word → Word

namespace Memory

def wordAt (ram : ℕ → Byte) (offset : ℕ) : Word :=
  (ram offset).setWidth 32 ||| (ram (offset + 1)).setWidth 32 <<< 8 |||
    (ram (offset + 2)).setWidth 32 <<< 16 ||| (ram (offset + 3)).setWidth 32 <<< 24

/-- `pxaLcdPrvGetWord`. -/
def getWord (mem : Memory) (addr : Word) : Word :=
  if regionContains ramBase deviceGetRamSize addr then wordAt mem.ram (addr - ramBase).toNat
  else if regionContains (ramBase + deviceGetRamSize) deviceGetRamSize addr then
    wordAt mem.ram (addr - (ramBase + deviceGetRamSize)).toNat
  else mem.elsewhere addr

def words (mem : Memory) (addr : Word) (n : ℕ) : List Word :=
  (List.range n).map fun k => mem.getWord (addr + 4 * BitVec.ofNat 32 k)

def store (ram : ℕ → Byte) (offset : ℕ) (bytes : List Byte) : ℕ → Byte := fun k =>
  if offset ≤ k then bytes.getD (k - offset) (ram k) else ram k

theorem toNat_offset {addr : Word} (h : ramBase ≤ addr) :
    (addr - ramBase).toNat = addr.toNat - ramBase.toNat := by
  rw [BitVec.toNat_sub]
  rw [BitVec.le_def] at h
  omega

end Memory

/-- The size of the panel. -/
structure DeviceDisplayConfiguration where
  width : BitVec 16
  height : BitVec 16
  pos : 0 < width.toNat * height.toNat
  whole : width.toNat * height.toNat % 32 = 0
  small : width.toNat * height.toNat < 2 ^ 25

def deviceGetDisplayConfiguration (frankenE2 : Bool) : DeviceDisplayConfiguration :=
  if frankenE2 then ⟨320, 480, by decide, by decide, by decide⟩
  else ⟨320, 320, by decide, by decide, by decide⟩

inductive LcdState where
  | idle
  | dma0Start
  | dma0End
  deriving DecidableEq, Repr

structure PxaLcd where
  lccr0 : Word
  lccr1 : Word
  lccr2 : Word
  lccr3 : Word
  lccr4 : Word
  lccr5 : Word
  liicr : Word
  trgbr : Word
  tcr : Word
  fbr : Vector Word 7
  fdadr : Vector Word 7
  fsadr : Vector Word 7
  fidr : Vector Word 7
  ldcmd : Vector Word 7
  lcsr : BitVec 16
  intMask : BitVec 16
  state : LcdState
  intWasPending : Bool
  enbChanged : Bool
  palette : ℕ → Byte
  paletteMapped : ℕ → Word
  display : DeviceDisplayConfiguration
  frontBuffer : ℕ → Word
  backBuffer : ℕ → Word
  iPixel : ℕ
  framePending : Bool
  frameNum : Word
  framebufferBase : Word
  framebufferSize : Word
  framebufferBpp : Byte
  framebufferDirty : Bool
  framebufferTrackingActive : Bool

def unpackRgb16 (rgb16 : BitVec 16) : Word :=
  let r : Byte := ((rgb16 >>> 11) &&& 0x1f).setWidth 8
  let g : Byte := ((rgb16 >>> 5) &&& 0x3f).setWidth 8
  let b : Byte := (rgb16 &&& 0x1f).setWidth 8
  let r := (r <<< 3) ||| (r >>> 2)
  let g := (g <<< 2) ||| (g >>> 4)
  let b := (b <<< 3) ||| (b >>> 2)
  0xff000000 ||| b.setWidth 32 <<< 16 ||| g.setWidth 32 <<< 8 ||| r.setWidth 32

def byteOf (word : Word) (i : ℕ) : Byte := (word >>> (8 * i)).setWidth 8

/-- The pixels of a word of the framebuffer, for depths of 1, 2, 4, 8 and 16 bits. -/
def wordPixels (bpp : Byte) (palette : ℕ → Word) (word : Word) : List Word :=
  match bpp.toNat with
  | 0 => (List.range 4).flatMap fun i =>
    (List.range 8).map fun j => palette ((byteOf word i >>> j) &&& 1).toNat
  | 1 => (List.range 4).flatMap fun i =>
    (List.range 4).map fun j => palette ((byteOf word i >>> (2 * j)) &&& 3).toNat
  | 2 => (List.range 4).flatMap fun i =>
    (List.range 2).map fun j => palette ((byteOf word i >>> (4 * j)) &&& 15).toNat
  | 3 => (List.range 4).map fun i => palette (byteOf word i).toNat
  | 4 => [unpackRgb16 (word.setWidth 16), unpackRgb16 ((word >>> 16).setWidth 16)]
  | _ => []

namespace PxaLcd

def pixels (lcd : PxaLcd) : ℕ := lcd.display.width.toNat * lcd.display.height.toNat

/-- The length of a frame of a depth. -/
def fullLength (lcd : PxaLcd) (bpp : Byte) : Word := (BitVec.ofNat 32 lcd.pixels <<< bpp.toNat) >>> 3

def updateInts (lcd : PxaLcd) : PxaLcd :=
  let ints := lcd.lcsr &&& lcd.intMask
  if (ints ≠ 0 ∧ ¬ lcd.intWasPending) ∨ (ints = 0 ∧ lcd.intWasPending) then
    { lcd with intWasPending := ints ≠ 0 }
  else lcd

/-- The interrupts that `LCCR0` lets through. -/
def intMaskFor (val : Word) : BitVec 16 :=
  let v16 : BitVec 16 := 0x7C8E
  let v16 := if val &&& 0x00200000 ≠ 0 then v16 ||| 0x0040 else v16
  let v16 := if val &&& 0x00100000 ≠ 0 then v16 ||| 0x0200 else v16
  let v16 := if val &&& 0x00000800 ≠ 0 then v16 ||| 0x0001 else v16
  let v16 := if val &&& 0x00000040 ≠ 0 then v16 ||| 0x0080 else v16
  let v16 := if val &&& 0x00000020 ≠ 0 then v16 ||| 0x0030 else v16
  if val &&& 0x00000010 ≠ 0 then v16 ||| 0x0002 else v16

def writeReg (lcd : PxaLcd) (pa : ℕ) (val : Word) : PxaLcd :=
  match pa with
  | 0 => updateInts { lcd with
      enbChanged := if (lcd.lccr0 ^^^ val) &&& 0x0001 ≠ 0 then true else lcd.enbChanged
      lccr0 := val
      intMask := intMaskFor val }
  | 1 => { lcd with lccr1 := val }
  | 2 => { lcd with lccr2 := val }
  | 3 => { lcd with lccr3 := val }
  | 4 => { lcd with lccr4 := val }
  | 5 => { lcd with lccr5 := val }
  | 8 => { lcd with fbr := lcd.fbr.set 0 val }
  | 9 => { lcd with fbr := lcd.fbr.set 1 val }
  | 10 => { lcd with fbr := lcd.fbr.set 2 val }
  | 11 => { lcd with fbr := lcd.fbr.set 3 val }
  | 13 => { lcd with fbr := lcd.fbr.set 5 val }
  | 68 => { lcd with fbr := lcd.fbr.set 5 val }
  | 69 => { lcd with fbr := lcd.fbr.set 6 val }
  | 14 => updateInts { lcd with lcsr := lcd.lcsr &&& ~~~val.setWidth 16 }
  | 15 => { lcd with liicr := val }
  | 16 => { lcd with trgbr := val }
  | 17 => { lcd with tcr := val }
  | 128 => { lcd with fdadr := lcd.fdadr.set 0 val }
  | 132 => { lcd with fdadr := lcd.fdadr.set 1 val }
  | 136 => { lcd with fdadr := lcd.fdadr.set 2 val }
  | 140 => { lcd with fdadr := lcd.fdadr.set 3 val }
  | 144 => { lcd with fdadr := lcd.fdadr.set 4 val }
  | 148 => { lcd with fdadr := lcd.fdadr.set 5 val }
  | 152 => { lcd with fdadr := lcd.fdadr.set 6 val }
  | _ => lcd

def mapEntry (palette : ℕ → Byte) (mapped : Bool × (ℕ → Word)) (i : ℕ) : Bool × (ℕ → Word) :=
  let entry : BitVec 16 := (palette (2 * i)).setWidth 16 ||| (palette (2 * i + 1)).setWidth 16 <<< 8
  let dirty : Bool := mapped.1 || unpackRgb16 entry ≠ mapped.2 i
  (dirty, if dirty then Function.update mapped.2 i (unpackRgb16 entry) else mapped.2)

def updatePalette (lcd : PxaLcd) (len : ℕ) : PxaLcd :=
  let (dirty, mapped) := (List.range (len / 2)).foldl (mapEntry lcd.palette) (false, lcd.paletteMapped)
  { lcd with
    paletteMapped := mapped
    framebufferDirty := if dirty then true else lcd.framebufferDirty }

/-- `pxaLcdPrvScreenDataPixel`. -/
def drawPixel (lcd : PxaLcd) (color : Word) : PxaLcd :=
  let backBuffer := Function.update lcd.backBuffer lcd.iPixel color
  if lcd.iPixel + 1 = lcd.pixels then
    { lcd with
      iPixel := 0
      framePending := true
      frontBuffer := backBuffer
      backBuffer := lcd.frontBuffer }
  else { lcd with backBuffer := backBuffer, iPixel := lcd.iPixel + 1 }

/-- The start of a tick: the controller has been switched on or off. -/
def handleEnable (lcd : PxaLcd) : PxaLcd :=
  if lcd.enbChanged then
    if lcd.lccr0 &&& 0x0001 ≠ 0 then { lcd with enbChanged := false }
    else { lcd with enbChanged := false, lcsr := lcd.lcsr ||| 0x0080, state := .idle }
  else lcd

def startOfFrame (lcd : PxaLcd) : PxaLcd :=
  { lcd with
    lcsr := if lcd.ldcmd[0] &&& 0x00400000 ≠ 0 then lcd.lcsr ||| 0x0002 else lcd.lcsr
    state := .dma0End }

def frameLength (lcd : PxaLcd) : Word := lcd.ldcmd[0] &&& 0x000FFFFF

def bpp (lcd : PxaLcd) : Byte := ((lcd.lccr3 >>> 24) &&& 7).setWidth 8

/-- The address of the next descriptor, behind a branch if there is one. -/
def branch (lcd : PxaLcd) : Word × PxaLcd :=
  if lcd.fbr[0] &&& 1 ≠ 0 then
    let fbr := lcd.fbr[0] &&& ~~~(1 : Word)
    (fbr &&& ~~~(0xf : Word), { lcd with
      fbr := lcd.fbr.set 0 fbr
      lcsr := if fbr &&& 2 ≠ 0 then lcd.lcsr ||| 0x0200 else lcd.lcsr })
  else (lcd.fdadr[0], lcd)

end PxaLcd

/-- A frame as the DMA processes it. -/
structure Frame where
  addr : Word
  len : Word
  bpp : Byte
  deriving DecidableEq, Repr

structure Screen where
  lcd : PxaLcd
  ram : ArmRam
  ramMirror : ArmRam
  mem : Memory

namespace Screen

def init (display : DeviceDisplayConfiguration) (mem : Memory) : Screen where
  lcd := {
    lccr0 := 0, lccr1 := 0, lccr2 := 0, lccr3 := 0, lccr4 := 0, lccr5 := 0, liicr := 0, trgbr := 0
    tcr := 0
    fbr := .replicate 7 0
    fdadr := .replicate 7 0
    fsadr := .replicate 7 0
    fidr := .replicate 7 0
    ldcmd := .replicate 7 0
    lcsr := 0
    intMask := 0x7C8E
    state := .idle
    intWasPending := false
    enbChanged := false
    palette := fun _ => 0
    paletteMapped := fun _ => 0
    display := display
    frontBuffer := fun _ => 0
    backBuffer := fun _ => 0
    iPixel := 0
    framePending := false
    frameNum := 0
    framebufferBase := 0
    framebufferSize := 0
    framebufferBpp := 0
    framebufferDirty := false
    framebufferTrackingActive := false }
  ram := ramInit ramBase
  ramMirror := ramInit (ramBase + deviceGetRamSize)
  mem := mem

/-- The size that remains of a framebuffer that is to be tracked: none outside of the RAM. -/
def trackedSize (start size : Word) : Word :=
  if start < ramBase ∨ start - ramBase + size > deviceGetRamSize then 0 else size

/-- A framebuffer that is not the one of the last DMA. -/
def reconfigure (m : Screen) (frame : Frame) : Screen :=
  let lcd := { m.lcd with
    framebufferBase := frame.addr
    framebufferSize := frame.len
    framebufferBpp := frame.bpp
    framebufferDirty := true }
  if frame.len = m.lcd.fullLength frame.bpp then
    { m with
      lcd := { lcd with framebufferTrackingActive := trackedSize frame.addr frame.len ≠ 0 }
      ram := ramSetFramebuffer m.ram frame.addr (trackedSize frame.addr frame.len) }
  else
    { m with
      lcd := { lcd with framebufferTrackingActive := false }
      ram := ramSetFramebuffer m.ram 0 (trackedSize 0 0) }

/-- The colors of a frame in memory, with the palette as it is. -/
def picture (m : Screen) (frame : Frame) : List Word :=
  (m.mem.words frame.addr (frame.len.toNat / 4)).flatMap (wordPixels frame.bpp m.lcd.paletteMapped)

def draw (m : Screen) (frame : Frame) : Screen :=
  { m with lcd := { (m.picture frame).foldl PxaLcd.drawPixel m.lcd with framebufferDirty := false } }

/-- `pxaLcdPrvScreenDataDma`. -/
def screenDataDma (m : Screen) (frame : Frame) : Screen :=
  let m :=
    if frame.addr ≠ m.lcd.framebufferBase ∨ frame.len ≠ m.lcd.framebufferSize ∨
        frame.bpp ≠ m.lcd.framebufferBpp then m.reconfigure frame
    else m
  if m.lcd.framebufferTrackingActive ∧ ¬ m.lcd.framebufferDirty then m else m.draw frame

def fetchDescriptor (m : Screen) : Screen :=
  let (descrAddr, lcd) := m.lcd.branch
  { m with lcd := { lcd with
    fdadr := lcd.fdadr.set 0 (m.mem.getWord (descrAddr + 0))
    fsadr := lcd.fsadr.set 0 (m.mem.getWord (descrAddr + 4))
    fidr := lcd.fidr.set 0 (m.mem.getWord (descrAddr + 8))
    ldcmd := lcd.ldcmd.set 0 (m.mem.getWord (descrAddr + 12))
    state := .dma0Start } }

/-- Palette data from memory, byte by byte. -/
def loadPalette (m : Screen) (addr : Word) (len : ℕ) : PxaLcd :=
  { m.lcd with palette := fun i =>
      if i < len then byteOf (m.mem.getWord (addr + 4 * BitVec.ofNat 32 (i / 4))) (i % 4)
      else m.lcd.palette i }

def startDma (m : Screen) : Option Frame × Screen :=
  let m : Screen := { m with lcd := m.lcd.startOfFrame }
  if m.lcd.ldcmd[0] &&& 0x04000000 ≠ 0 then
    let len := min m.lcd.frameLength.toNat 512
    (none, { m with lcd := (m.loadPalette m.lcd.fsadr[0] len).updatePalette len })
  else
    let m : Screen := { m with lcd := { m.lcd with frameNum := m.lcd.frameNum + 1 } }
    let frame : Frame := ⟨m.lcd.fsadr[0], m.lcd.frameLength, m.lcd.bpp⟩
    if m.lcd.frameNum &&& 63 = 0 then (some frame, m.screenDataDma frame) else (none, m)

def endDma (m : Screen) : Screen :=
  { m with lcd := { m.lcd with
    lcsr := if m.lcd.ldcmd[0] &&& 0x00200000 ≠ 0 then m.lcd.lcsr ||| 0x0100 else m.lcd.lcsr
    state := .idle } }

/-- The middle part of `pxaLcdTick`: one step of the DMA, when the controller is enabled. -/
def dmaStep (m : Screen) : Option Frame × Screen :=
  if m.lcd.lccr0 &&& 0x0001 ≠ 0 then
    if m.lcd.lccr0 &&& 0x400 ≠ 0 then
      (none, { m with lcd := { m.lcd with
        lcsr := m.lcd.lcsr ||| 0x0001
        state := .idle
        lccr0 := m.lcd.lccr0 &&& ~~~(1 : Word) } })
    else match m.lcd.state with
      | .idle => (none, m.fetchDescriptor)
      | .dma0Start => m.startDma
      | .dma0End => (none, m.endDma)
  else (none, m)

/-- `pxaLcdTick`, with the frame that it processes. -/
def tick (m : Screen) : Option Frame × Screen :=
  let (frame, m) := { m with lcd := m.lcd.handleEnable }.dmaStep
  (frame, { m with lcd := m.lcd.updateInts })

/-- A write through the RAM or its mirror. -/
def ramAccessF (m : Screen) (ram : ArmRam) (pa : Word) (bytes : List Byte) : Screen :=
  match ram.startFor bytes.length with
  | none => m
  | some start =>
    { m with
      lcd := if ram.marks (pa - ram.adr) start then { m.lcd with framebufferDirty := true } else m.lcd
      mem := { m.mem with ram := Memory.store m.mem.ram (pa - ram.adr).toNat bytes } }

def ramWrite (m : Screen) (pa : Word) (bytes : List Byte) : Screen :=
  if regionContains ramBase deviceGetRamSize pa then m.ramAccessF m.ram pa bytes
  else if regionContains (ramBase + deviceGetRamSize) deviceGetRamSize pa then
    m.ramAccessF m.ramMirror pa bytes
  else m

end Screen

/-- What the guest, the scheduler, and other devices do. -/
inductive Event where
  | ramWrite (pa : Word) (bytes : List Byte)
  | lcdWrite (reg : ℕ) (val : Word)
  | elsewhere (words : Word → Word)
  | resetPendingFrame
  | tick

def Screen.step (m : Screen) : Event → Option Frame × Screen
  | .ramWrite pa bytes => (none, m.ramWrite pa bytes)
  | .lcdWrite reg val => (none, { m with lcd := m.lcd.writeReg reg val })
  | .elsewhere words => (none, { m with mem := { m.mem with elsewhere := words } })
  | .resetPendingFrame => (none, { m with lcd := { m.lcd with framePending := false } })
  | .tick => m.tick

def Screen.run (m : Screen) (events : List Event) : Screen :=
  events.foldl (fun m event => (m.step event).2) m

end Cloudpilot.Uarm.Lcd
