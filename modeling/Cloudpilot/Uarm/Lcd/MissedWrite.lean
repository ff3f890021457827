import Cloudpilot.Uarm.Lcd.FrameRuns

/-! # A descriptor that points to itself

Three ticks make a frame, and every 64th frame is processed. With this, a write to a
framebuffer at the start of the RAM is followed to the next frame that is processed.
-/
namespace Cloudpilot.Uarm.Lcd
open Cpu

variable {m m' : Screen} {n : ℕ}

theorem run_append (m : Screen) (first rest : List Event) :
    m.run (first ++ rest) = (m.run first).run rest := List.foldl_append ..

/-- The controller is enabled and between two frames of a descriptor that points to itself and asks
for no interrupts. -/
structure Looping (m : Screen) : Prop where
  state : m.lcd.state = .idle
  enbChanged : m.lcd.enbChanged = false
  lccr0 : m.lcd.lccr0 = 1
  fbr : getElem m.lcd.fbr 0 (by decide) = 0
  fdadr : m.lcd.fdadr.set 0 (m.mem.getWord (getElem m.lcd.fdadr 0 (by decide) + 0)) (by decide) =
    m.lcd.fdadr
  fsadr : m.lcd.fsadr.set 0 (m.mem.getWord (getElem m.lcd.fdadr 0 (by decide) + 4)) (by decide) =
    m.lcd.fsadr
  fidr : m.lcd.fidr.set 0 (m.mem.getWord (getElem m.lcd.fdadr 0 (by decide) + 8)) (by decide) =
    m.lcd.fidr
  ldcmd : m.lcd.ldcmd.set 0 (m.mem.getWord (getElem m.lcd.fdadr 0 (by decide) + 12)) (by decide) =
    m.lcd.ldcmd
  flags : getElem m.lcd.ldcmd 0 (by decide) &&& 0x04600000 = 0
  lcsr : m.lcd.lcsr = 0
  intWasPending : m.lcd.intWasPending = false

/-- The end of a tick. -/
def Screen.settled (m : Screen) : Screen := { m with lcd := m.lcd.updateInts }

/-- A descriptor at 1 MiB that points to itself and to the start of the RAM, for 320 lines of 320
pixels with 16 bits. -/
def loopMemory : Memory where
  ram := Memory.store (fun _ => 0) 0x100000
    [0x00, 0x00, 0x10, 0xa0, 0x00, 0x00, 0x00, 0xa0, 0, 0, 0, 0, 0x00, 0x20, 0x03, 0x00]
  elsewhere := fun _ => 0

def loopFrame : Frame := ⟨ramBase, 0x32000, 4⟩

/-- The first frame has loaded the descriptor. -/
structure Started (m : Screen) : Prop extends Looping m where
  frameNum : m.lcd.frameNum = 1
  addr : getElem m.lcd.fsadr 0 (by decide) = loopFrame.addr
  len : m.lcd.frameLength = loopFrame.len
  bpp : m.lcd.bpp = loopFrame.bpp
  fdadr_eq : getElem m.lcd.fdadr 0 (by decide) = 0xa0100000
  iPixel : m.lcd.iPixel = 0
  framebufferBase : m.lcd.framebufferBase = 0
  display : m.lcd.display = deviceGetDisplayConfiguration false
  adr : m.ram.adr = ramBase
  mem_eq : m.mem = loopMemory

/-- The state in which the first frame that is processed is drawn. -/
def Screen.configured (m : Screen) : Screen :=
  { m with
    lcd := { m.lcd with
      frameNum := 64
      state := .dma0End
      framebufferBase := loopFrame.addr
      framebufferSize := loopFrame.len
      framebufferBpp := loopFrame.bpp
      framebufferDirty := true
      framebufferTrackingActive := true }
    ram := ramSetFramebuffer m.ram ramBase 0x32000 }

end Cloudpilot.Uarm.Lcd
