import Montage.Machine
import Montage.Timeline.Clip

/-!
# Sources on the disk
-/

namespace Montage.Media

/-- Whether the file of a source can be found. -/
def sourceExists (machine : Machine) (source : Source) : Outcome Bool :=
  if source.path.truthy then machine.disk.holds source.path else .ok false

end Montage.Media
