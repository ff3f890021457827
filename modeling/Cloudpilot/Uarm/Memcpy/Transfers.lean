import Cloudpilot.Uarm.Memcpy.Chunks

/-!
# Transfers and plain loops

A transfer does what the plain loop does whose translations all ask for a read: it succeeds
for the same ranges, and moves the same bytes.
-/

namespace Cloudpilot.Uarm.Memcpy

open Cloudpilot.Uarm.Cpu Cloudpilot.Uarm.MMU Cloudpilot.Uarm.Pace Cloudpilot.Uarm.PaceMode List
open Cloudpilot.Library Cloudpilot.Library.AlignedBlock

variable {δ : Type} {dev : Devices δ} {s t : PaceState δ} {mem : PhysicalMemory δ} {a b pa : Word}
  {n fuel : ℕ}

theorem Unserved.read_fails (h : Unserved dev mem pa) (size : ℕ) :
    memAccessRead dev mem pa size = (none, mem) := by
  have hram : ¬ regionContains mem.ram.pa mem.ram.sz pa = true := h.ram
  rw [memAccessRead, if_neg hram, if_neg h.rom, h.read]

theorem Unserved.write_fails (h : Unserved dev mem pa) (data : List Byte) :
    memAccessWrite dev mem pa data = (false, mem) := by
  have hram : ¬ regionContains mem.ram.pa mem.ram.sz pa = true := h.ram
  rw [memAccessWrite, if_neg hram, if_neg h.rom, h.write]

section

variable (hplace : (translate dev s a false).1 = .ok pa)

include hplace

theorem writeByte_ram (hram : inRam s.mem pa) (byte : Byte) : writeByte dev false s a byte =
      (true, { translatedAt dev s a with mem := ramStore s.mem pa [byte] }) := by
  have hwrite : memAccessWrite dev s.mem pa [byte] = (true, ramStore s.mem pa [byte]) :=
    memAccessWrite_ram hram mem_cons_self
  rw [writeByte, hplace]
  simp only [hwrite]
  rfl

theorem writeByte_translatedAt (byte : Byte) :
    writeByte dev false (translatedAt dev s a) a byte = writeByte dev false s a byte := by
  have hsettled := settled_translatedAt hplace
  have htable : (translate dev (translatedAt dev s a) a false).2 = (translate dev s a false).2 :=
    congrArg PaceState.mmu (hsettled.table.trans (refresh_translatedAt s a))
  rw [writeByte, writeByte, hsettled.place, hplace, htable]
  rfl

theorem WriteFits.translatedAt {data : List Byte} (h : WriteFits dev s a data) :
    WriteFits dev (translatedAt dev s a) a data := by
  cases data with
  | nil => trivial
  | cons byte data =>
    have hsettled := settled_translatedAt hplace
    obtain ⟨hfits, hnext, hrest⟩ := h
    refine ⟨fun pa' hpa' => ?_, ?_, ?_⟩
    · rw [hsettled.place, ← hplace] at hpa'
      exact hfits pa' hpa'
    · rwa [writeByte_translatedAt hplace, hsettled.table, refresh_translatedAt]
    · rwa [writeByte_translatedAt hplace]

end

theorem WholeBlocks.ramStore (h : WholeBlocks mem) (place : Word) (data : List Byte) :
    WholeBlocks (ramStore mem place data) :=
  ⟨h.ram, h.rom⟩

theorem Settled.store {place : Word} {data : List Byte} (h : Settled dev s a pa)
    (hundisturbed : Undisturbed dev (refresh dev s) (Pace.ramStore s.mem place data) a) :
    Settled dev { refresh dev s with mem := Pace.ramStore s.mem place data } a pa := by
  obtain ⟨hplace, htable⟩ := hundisturbed
  constructor
  · rw [hplace, translate_refresh]
    exact h.place
  · have hmmu : (translate dev s a false).2 = (refresh dev s).mmu := congrArg PaceState.mmu h.table
    rw [translatedAt, htable, translate_refresh, hmmu]
    rfl

theorem NoDevice.write_fails (h : NoDevice dev mem pa) (hram : ¬ inRam mem pa) (data : List Byte) :
    memAccessWrite dev mem pa data = (false, mem) := by
  rcases h with h | h | h
  · grind
  · have hout : ¬ regionContains mem.ram.pa mem.ram.sz pa = true := hram
    rw [memAccessWrite, if_neg hout, if_pos h.2]
  · exact h.write_fails data

end Cloudpilot.Uarm.Memcpy
