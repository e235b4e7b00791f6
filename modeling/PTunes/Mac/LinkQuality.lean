import PTunes.Mac.Lpp
import PTunes.Mac.LppNew
import PTunes.Mac.Xmac

/-!
# `PTunes.Mac.LinkQuality`: the link quality that a MAC reports

X-MAC, LPP and LPP_NEW count handshakes with a neighbor in `handshakes_total` and
`handshakes_succ`, and halve both counters in a long run. `MAC_GET_PRR` computes the packet
reception ratio from them, in thousandths. The three MACs differ in when they halve the
counters and in how they treat zero.

The history of the counters is a machine: an attempt begins, it may succeed, and it is over.
`MAC_GET_PRR` is called in an interrupt, so at any time, and the counters are reset by a
process, so between two attempts.
-/

set_option autoImplicit false

namespace PTunes.Mac

/-- What is particular to a MAC: when `handshakes_total` is so large that both counters are
halved, and its `MAC_GET_PRR`. -/
structure PrrRule where
  old : UInt32 → Bool
  getPrr : Handshakes → UInt16

/-- The update of the counters after an attempt. -/
def PrrRule.age (r : PrrRule) (h : Handshakes) : Handshakes :=
  if r.old h.total then ⟨h.total >>> 1, h.succ >>> 1⟩ else h

/-- `xmac_get_prr`. -/
def xmacGetPrr (h : Handshakes) : UInt16 :=
  if h.succ ≠ 0 ∧ h.total ≠ 0 then (h.succ * 1000 / h.total).toUInt16
  -- Avoid returning 0 as a PRR.
  else 1

/-- X-MAC, with the update in `send_packet`. -/
def xmacPrr : PrrRule := ⟨fun total => total ≥ Handshakes.resetPeriod, xmacGetPrr⟩

/-- `lpp_get_prr`. -/
def lppGetPrr (h : Handshakes) : UInt16 :=
  if h.succ ≠ 0 then (h.succ * 1000 / h.total).toUInt16 else 1000

/-- LPP, with the update in `send_packet_to_radio`. -/
def lppPrr : PrrRule := ⟨fun total => total > Lpp.handshakesResetPeriod, lppGetPrr⟩

/-- `lpp_new_get_prr`. -/
def lppNewGetPrr (h : Handshakes) : UInt16 :=
  ((h.succ + 1) * 1000 / (h.total + 1)).toUInt16

/-- LPP_NEW, with the update in `remove_packet_from_buffer`. -/
def lppNewPrr : PrrRule := ⟨fun total => total ≥ LppNew.handshakesResetPeriod, lppNewGetPrr⟩

/-! ### The history of the counters -/

/-- The counters, and the attempt that is under way: whether it has succeeded. -/
structure LinkQuality where
  counters : Handshakes
  attempt : Option Bool
deriving DecidableEq, Repr

namespace LinkQuality

/-- What happens to the counters. -/
inductive Event where
  | begins
  | succeeds
  | ends
  | resetPrr
deriving DecidableEq, Repr

/-- One event. An attempt succeeds at most once. -/
def step (r : PrrRule) (s : LinkQuality) : Event → Option LinkQuality
  | .begins => if s.attempt = none then some ⟨s.counters.attempt, some false⟩ else none
  | .succeeds => if s.attempt = some false then some ⟨s.counters.success, some true⟩ else none
  | .ends => if s.attempt ≠ none then some ⟨r.age s.counters, none⟩ else none
  | .resetPrr => if s.attempt = none then some ⟨⟨0, 0⟩, none⟩ else none

end LinkQuality

/-- The counters of a MAC from the start of the node on. -/
def linkQuality (r : PrrRule) : Machine LinkQuality LinkQuality.Event where
  init := ⟨⟨0, 0⟩, none⟩
  step := LinkQuality.step r

end PTunes.Mac
