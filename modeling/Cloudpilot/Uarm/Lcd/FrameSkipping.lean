import Cloudpilot.Uarm.Lcd.PxaLcd

/-! # Drawing a frame

A frame that starts at the first pixel and has as many pixels as the panel fills the back
buffer from end to end, and its last pixel brings it to the front.
-/

namespace Cloudpilot.Uarm.Lcd

open Cpu BitVec List

section

variable {lcd lcd' : PxaLcd} {m : Screen} {frame : Frame} {colors : List Word}

/-- Drawing changes the buffers and the state of drawing only. -/
def Redrawn (lcd lcd' : PxaLcd) : Prop := ∃ frontBuffer backBuffer iPixel framePending,
  lcd' = { lcd with
    frontBuffer := frontBuffer
    backBuffer := backBuffer
    iPixel := iPixel
    framePending := framePending }

theorem Redrawn.refl (lcd : PxaLcd) : Redrawn lcd lcd :=
  ⟨lcd.frontBuffer, lcd.backBuffer, lcd.iPixel, lcd.framePending, rfl⟩

theorem Redrawn.trans {lcd'' : PxaLcd} (h : Redrawn lcd lcd') (h' : Redrawn lcd' lcd'') :
    Redrawn lcd lcd'' := by
  obtain ⟨front, back, i, pending, rfl⟩ := h
  obtain ⟨front', back', i', pending', rfl⟩ := h'
  exact ⟨front', back', i', pending', rfl⟩

theorem Redrawn.pixels (h : Redrawn lcd lcd') : lcd'.pixels = lcd.pixels := by
  obtain ⟨front, back, i, pending, rfl⟩ := h
  rfl

/-- A frame of a depth that is supported, as long as the panel has pixels. -/
structure Frame.Full (frame : Frame) (lcd : PxaLcd) : Prop where
  bpp : frame.bpp.toNat ≤ 4
  len : frame.len = lcd.fullLength frame.bpp

theorem toNat_fullLength (lcd : PxaLcd) {bpp : Byte} (h : bpp.toNat ≤ 4) :
    (lcd.fullLength bpp).toNat = lcd.pixels * 2 ^ bpp.toNat / 8 := by
  have hsmall := lcd.display.small
  change lcd.pixels < 2 ^ 25 at hsmall
  have hpow : 2 ^ bpp.toNat ≤ 16 := Nat.pow_le_pow_right (by decide) h
  have hbound : lcd.pixels * 2 ^ bpp.toNat < 2 ^ 32 := by
    calc lcd.pixels * 2 ^ bpp.toNat ≤ lcd.pixels * 16 := Nat.mul_le_mul_left _ hpow
      _ < 2 ^ 32 := by omega
  have hmod : lcd.pixels % 2 ^ 32 = lcd.pixels := Nat.mod_eq_of_lt (by omega)
  rw [PxaLcd.fullLength, toNat_ushiftRight, toNat_shiftLeft, BitVec.toNat_ofNat, hmod,
    Nat.shiftLeft_eq, Nat.mod_eq_of_lt hbound, Nat.shiftRight_eq_div_pow]

theorem Frame.Full.words (h : frame.Full lcd) :
    frame.len.toNat = 4 * (frame.len.toNat / 4) ∧
      frame.len.toNat / 4 * 32 = lcd.pixels * 2 ^ frame.bpp.toNat := by
  have hwhole := lcd.display.whole
  change lcd.pixels % 32 = 0 at hwhole
  obtain ⟨q, hq⟩ := Nat.dvd_of_mod_eq_zero hwhole
  rw [h.len, toNat_fullLength lcd h.bpp, hq]
  generalize 2 ^ frame.bpp.toNat = depth
  have hbytes : 32 * q * depth / 8 = 4 * (q * depth) := by grind
  rw [hbytes, Nat.mul_div_cancel_left _ (by decide)]
  exact ⟨rfl, by ring⟩

/-- What the panel shows. -/
def Screen.shown (m : Screen) : List Word := (List.range m.lcd.pixels).map m.lcd.frontBuffer

end

variable {lcd lcd' : PxaLcd} {m m' : Screen} {frame : Frame} {event : Event}

/-- The frame of the last DMA. -/
def PxaLcd.current (lcd : PxaLcd) : Frame :=
  ⟨lcd.framebufferBase, lcd.framebufferSize, lcd.framebufferBpp⟩

/-- Two states of the controller with the same picture and the same framebuffer. -/
structure Unseen (lcd lcd' : PxaLcd) : Prop where
  display : lcd'.display = lcd.display
  frontBuffer : lcd'.frontBuffer = lcd.frontBuffer
  iPixel : lcd'.iPixel = lcd.iPixel
  current : lcd'.current = lcd.current
  tracking : lcd'.framebufferTrackingActive = lcd.framebufferTrackingActive
  dirty : lcd'.framebufferDirty = lcd.framebufferDirty
  paletteMapped : lcd'.paletteMapped = lcd.paletteMapped

theorem Unseen.refl (lcd : PxaLcd) : Unseen lcd lcd := ⟨rfl, rfl, rfl, rfl, rfl, rfl, rfl⟩

theorem Unseen.trans {lcd'' : PxaLcd} (h : Unseen lcd lcd') (h' : Unseen lcd' lcd'') :
    Unseen lcd lcd'' :=
  ⟨h'.display.trans h.display, h'.frontBuffer.trans h.frontBuffer, h'.iPixel.trans h.iPixel,
    h'.current.trans h.current, h'.tracking.trans h.tracking, h'.dirty.trans h.dirty,
    h'.paletteMapped.trans h.paletteMapped⟩

theorem Unseen.pixels (h : Unseen lcd lcd') : lcd'.pixels = lcd.pixels := by
  rw [PxaLcd.pixels, h.display, PxaLcd.pixels]

theorem Unseen.full (h : Unseen lcd lcd') : frame.Full lcd' ↔ frame.Full lcd := by
  have hlength : lcd'.fullLength frame.bpp = lcd.fullLength frame.bpp := by
    simp [PxaLcd.fullLength, h.pixels]
  constructor
  · intro hfull
    exact ⟨hfull.bpp, hfull.len.trans hlength⟩
  · intro hfull
    exact ⟨hfull.bpp, hfull.len.trans hlength.symm⟩

def PxaLcd.start (lcd : PxaLcd) : ℕ := (lcd.framebufferBase - ramBase).toNat

/-- A framebuffer whose writes are to be noticed. -/
structure Tracked (m : Screen) : Prop where
  base : ramBase ≤ m.lcd.framebufferBase
  fits : m.lcd.start + m.lcd.framebufferSize.toNat ≤ deviceGetRamSize.toNat
  size : m.lcd.framebufferSize ≠ 0
  ram_eq : m.ram = ramSetFramebuffer (ramInit ramBase) m.lcd.framebufferBase m.lcd.framebufferSize

/-- The bounds in the RAM belong to the framebuffer, and those in the mirror to none. -/
structure Tracking (m : Screen) : Prop where
  iPixel_lt : m.lcd.iPixel < m.lcd.pixels
  adr : m.ram.adr = ramBase
  mirror : m.ramMirror = ramInit (ramBase + deviceGetRamSize)
  tracked : m.lcd.framebufferTrackingActive = true → Tracked m

/-- A clean framebuffer is on the panel. -/
def Shown (m : Screen) : Prop :=
  m.lcd.framebufferTrackingActive = true → m.lcd.framebufferDirty = false →
    m.lcd.current.Full m.lcd → m.shown = m.picture m.lcd.current

theorem Tracking.of_same (h : Tracking m) (hdisplay : lcd'.display = m.lcd.display)
    (hpixel : lcd'.iPixel = m.lcd.iPixel) (hcurrent : lcd'.current = m.lcd.current)
    (htracking : lcd'.framebufferTrackingActive = m.lcd.framebufferTrackingActive) :
    Tracking { m with lcd := lcd' } := by
  have hbase : lcd'.framebufferBase = m.lcd.framebufferBase := congrArg Frame.addr hcurrent
  have hsize : lcd'.framebufferSize = m.lcd.framebufferSize := congrArg Frame.len hcurrent
  refine ⟨?_, h.adr, h.mirror, fun hactive => ?_⟩
  · rw [hpixel, PxaLcd.pixels, hdisplay]
    exact h.iPixel_lt
  · have ht := h.tracked (htracking.symm.trans hactive)
    refine ⟨?_, ?_, ?_, ?_⟩
    · rw [hbase]
      exact ht.base
    · rw [PxaLcd.start, hbase, hsize]
      exact ht.fits
    · rw [hsize]
      exact ht.size
    · rw [hbase, hsize]
      exact ht.ram_eq

/-- A write reaches the tracked framebuffer. -/
structure Reaches (m : Screen) (offset len : ℕ) : Prop where
  tracking : m.lcd.framebufferTrackingActive = true
  before_end : offset < m.lcd.start + m.lcd.framebufferSize.toNat
  after_start : m.lcd.start < offset + len

end Cloudpilot.Uarm.Lcd
