import PTunes.Glossy.Flood

/-!
# `PTunes.Glossy.SlotLength`: the estimate of the slot length over all floods

`glossy_estimate_slot_lengths` keeps three static variables, and `glossy_start` does not reset
them. `SlotWindow` are the three, and `add` is what the function does with the length of a slot
that it has measured.

A node goes through one flood after the other here, each with its own arguments. The machine
records the lengths that were measured since start-up. Before that the three variables are zero,
and nothing is assumed of the rest of the memory.
-/

set_option autoImplicit false

namespace PTunes.Glossy

/-- `T_slot_h`, `T_slot_h_sum` and `win_cnt`. -/
structure SlotWindow where
  tSlotH : UInt16
  tSlotHSum : UInt32
  winCnt : UInt8
deriving DecidableEq, Repr

/-- Static variables at start-up. -/
def SlotWindow.zero : SlotWindow := ⟨0, 0, 0⟩

/-- `glossy_estimate_slot_lengths`, from `T_slot_h_tmp` on. -/
def SlotWindow.add (w : SlotWindow) (tSlotHTmp : UInt16) : SlotWindow :=
  let sum := w.tSlotHSum + tSlotHTmp.toUInt32
  let win := w.winCnt + 1
  if win.toNat = glossySyncWindow then ⟨(sum / 64).toUInt16, sum / 2, win / 2⟩
  else ⟨if win = 1 then tSlotHTmp else w.tSlotH, sum, win⟩

namespace Flood

/-- The variables of the estimate. -/
def window (s : Flood) : SlotWindow := ⟨s.tSlotH, s.tSlotHSum, s.winCnt⟩

/-- `T_slot_h_tmp`, if `glossy_estimate_slot_lengths` measures the slots. -/
def slotLength (s : Flood) (tRxStopTmp : UInt16) : Option UInt16 :=
  if s.rxCnt > 1 && s.packet.slot.toNat == s.txSlotLast.toNat + 2 then
    some (((s.tTxStop - s.tTxStart) + (s.tRxStart - s.tTxStop) + (tRxStopTmp - s.tRxStart) +
      (s.tTxStart - s.tRxStop)) / 2)
  else none

/-- The slot length that an interrupt measures. -/
def measures (C : FloodConf) (s : Flood) (i : Interrupt) : Option UInt16 :=
  match dispatch s i with
  | .endRx =>
    let s := countPacket C s i.fifo
    if i.crcOk && (C.sync && s.packet.slot < 200) then s.slotLength i.tbccr1 else none
  | _ => none

end Flood

/-- A node, with the slot lengths that it has measured since start-up. -/
structure SlotNode where
  conf : FloodConf
  run : FloodRun
  lengths : List UInt16
deriving DecidableEq, Repr

/-- What happens at the node: `glossy_start`, or a step of the flood. -/
inductive SlotAction where
  | start (C : FloodConf) (data : List UInt8) (memory : Packet) (now : UInt16)
  | flood (a : FloodAction)

/-- What a step of a flood measures. -/
def FloodRun.measures (C : FloodConf) (r : FloodRun) : FloodAction → Option UInt16
  | .interrupt i => r.flood.measures C i
  | .rxTimeout | .stop => none

/-- A node from start-up on. -/
def slotMachine (C : FloodConf) (memory : Flood) : Machine SlotNode SlotAction where
  init := ⟨C, ⟨{ memory with tSlotH := 0, tSlotHSum := 0, winCnt := 0 }, none⟩, []⟩
  step n
    | .start C data memory now =>
      some { n with conf := C, run := ⟨n.run.flood.glossyStart C data memory now, none⟩ }
    | .flood a =>
      ((floodMachine n.conf n.run.flood).step n.run a).map fun r =>
        { n with run := r, lengths := n.lengths ++ (n.run.measures n.conf a).toList }

end PTunes.Glossy
