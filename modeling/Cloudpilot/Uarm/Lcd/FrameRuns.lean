import Cloudpilot.Uarm.Lcd.FrameSkipping

/-! # What the panel shows over whole runs

The frame DMA either draws what is in memory or finds that the panel shows it already,
from the reset on and for any interleaving of writes, palettes and frames.
-/
namespace Cloudpilot.Uarm.Lcd
open Cpu

variable {lcd lcd' : PxaLcd} {m m' : Screen} {frame : Frame} {event : Event} {events : List Event}

/-- The framebuffer is the one of the last DMA, it is tracked, and nothing marked it. -/
structure Skips (m : Screen) (frame : Frame) : Prop where
  current : frame = m.lcd.current
  tracking : m.lcd.framebufferTrackingActive = true
  clean : m.lcd.framebufferDirty = false

/-- Full frames start at the first pixel, unless they are skipped. -/
def InPhase (m : Screen) (processed : Option Frame) : Prop :=
  ∀ frame, processed = some frame → frame.Full m.lcd → Skips m frame ∨ m.lcd.iPixel = 0

/-- A write that reaches the tracked framebuffer marks it: through the RAM, if it is a single byte
or the framebuffer is not closer to the start of the RAM than the write is long, and through the
mirror, if it is not a single byte. -/
def HarmlessWrite (m : Screen) (pa : Word) (bytes : List Byte) : Prop :=
  if regionContains ramBase deviceGetRamSize pa then
    Reaches m (pa - ramBase).toNat bytes.length → bytes.length = 1 ∨ bytes.length ≤ m.lcd.start
  else if regionContains (ramBase + deviceGetRamSize) deviceGetRamSize pa then
    Reaches m (pa - (ramBase + deviceGetRamSize)).toNat bytes.length → bytes.length ≠ 1
  else True

/-- Writes are noticed, and full frames that are drawn start at the first pixel. -/
def Event.Harmless (m : Screen) : Event → Prop
  | .ramWrite pa bytes => HarmlessWrite m pa bytes
  | .lcdWrite _ _ => True
  | .elsewhere _ => True
  | .resetPendingFrame => True
  | .tick => InPhase m m.tick.1

def AllHarmless : Screen → List Event → Prop
  | _, [] => True
  | m, event :: events => event.Harmless m ∧ AllHarmless (m.step event).2 events

end Cloudpilot.Uarm.Lcd
