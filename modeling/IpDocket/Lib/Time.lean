/-!
# Times

Timestamps and durations in microseconds. A program takes the clock readings it makes as
arguments, so that nothing is assumed about clocks.
-/

namespace IpDocket.Lib

abbrev Time := Int

def seconds (n : Int) : Time := n * 1000000

end IpDocket.Lib
