import PTunes.Glossy.Receiver
import PTunes.Mac.Adaptation

/-!
# `PTunes.Rime.ScheduleSend`: when relunicast sends (`schedule_send` in `relunicast.c`)

`schedule_send` sets the timer of relunicast to the requested delay, unless the send would come
too close to the next Glossy phase. Delays are in ticks of the clock, the time to the phase in
ticks of the real-time timer. `int` has 16 bits. `clock_time_t` is unsigned and has 16 bits, so
a difference with it is unsigned before it is stored in an `int`. The model of relunicast in
`PTunes.Rime.Relunicast` keeps only that the timer is set.
-/

set_option autoImplicit false

namespace PTunes.Rime

open PTunes.Mac
open PTunes.Glossy

/-- `time_to_glossy`. -/
def timeToGlossyTicks (timeToGlossy : UInt32) : Int16 :=
  (timeToGlossy / clockTick.toUInt32).toUInt16.toInt16

/-- `glossy_duration`. -/
def glossyDurationTicks : Int16 := (glossyDuration / clockTick).toInt16

/-- `send_buffer`. -/
def sendBuffer (c : MacConfig) (timeToGlossy : UInt32) (scheduledTime : UInt16) : Int16 :=
  ((timeToGlossyTicks timeToGlossy).toUInt16 - scheduledTime -
    c.slackBeforeGlossy.toUInt16).toInt16

/-- `time_after_glossy`. -/
def timeAfterGlossy (timeToGlossy : UInt32) (scheduledTime : UInt16) : Int16 :=
  scheduledTime.toInt16 - timeToGlossyTicks timeToGlossy - glossyDurationTicks -
    slackAfterGlossy

/-- `schedule_send`: the time to which it sets the timer. `timeToGlossy` is
`TIME_TO_GLOSSY`. -/
def scheduleSendTime (c : MacConfig) (timeToGlossy : UInt32) (scheduledTime : UInt16) :
    UInt16 :=
  if sendBuffer c timeToGlossy scheduledTime ≥ 0 then
    -- There is enough time before Glossy starts.
    scheduledTime
  else if timeAfterGlossy timeToGlossy scheduledTime ≥ 0 then
    -- The send is scheduled after Glossy.
    scheduledTime
  else
    -- Too close to the start of Glossy or even during Glossy.
    (timeToGlossyTicks timeToGlossy + glossyDurationTicks + slackAfterGlossy).toUInt16

end PTunes.Rime
