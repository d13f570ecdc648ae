import GoLayout.Text.FixedPlaces

/-! # Elapsed times

    How long something took, in seconds, as log lines show it: less than a second in
    milliseconds with one place, anything else in seconds with two. -/

namespace GoLayout.Elapsed

/-- The time without a negative amount, as a clock that was set back would give. What is not
    below zero stays as it is. -/
def clamp (seconds : Float) : Float := if seconds < 0.0 then 0.0 else seconds

/-- The text of an elapsed time. -/
def text (seconds : Float) : Text :=
  let s := clamp seconds
  if s < 1.0 then Text.concat [(Binary.ofBits (s * 1000.0).toBits).fixed 1, "ms"]
  else Text.concat [(Binary.ofBits s.toBits).fixed 2, "s"]

end GoLayout.Elapsed
