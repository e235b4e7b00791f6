/-!
# `PTunes.Controller.WaitNotify`: waiting for a number of notifications

`WaitNotify.java`. A trigger thread sleeps in `doWait` until `wasSignalled` has reached
`period`. Each method runs in the monitor, so it is one step, except that `doWait` gives up
the monitor while it sleeps: `tryWait` is one evaluation of its loop condition.
-/

set_option autoImplicit false

namespace PTunes.Controller

/-- `WaitNotify`. -/
structure WaitNotify where
  wasSignalled : Int
  period : Int
  deriving DecidableEq, Repr

namespace WaitNotify

/-- `WaitNotify(int period)`. -/
def new (period : Int) : WaitNotify := { wasSignalled := 0, period := period }

/-- One turn of the loop of `doWait`: `none` when the thread goes to sleep, and otherwise
what `doWait` leaves. -/
def tryWait (w : WaitNotify) : Option WaitNotify :=
  if w.wasSignalled < w.period then none else some { w with wasSignalled := 0 }

/-- `WaitNotify.doNotify`, without the wake-up of the sleeping thread. -/
def doNotify (w : WaitNotify) : WaitNotify := { w with wasSignalled := w.wasSignalled + 1 }

/-- `WaitNotify.setPeriod`. -/
def setPeriod (_ : WaitNotify) (period : Int) : WaitNotify :=
  { wasSignalled := 0, period := period }

end WaitNotify

end PTunes.Controller
