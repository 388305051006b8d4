import IncastGovernor.Detect.Synchrony
import IncastGovernor.Foundation.ExactWord
import IncastGovernor.Governor.Bindings
import IncastGovernor.Governor.Bounds

/-! The time arithmetic of an evaluation. Validation bounds the signs and the order of instants and
durations and not their size, so a sum or a difference of two of them can leave the 64 bits it is
computed in. -/

namespace IncastGovernor

open Foundation

/-! ### The computations -/

section Age

variable {bundle : EvidenceBundle} {policy : GovernorPolicy} {klass : EvidenceClass}

end Age

/-! ### Arrivals -/

section Arrivals

variable {bundle : EvidenceBundle} {policy : GovernorPolicy}

end Arrivals

/-! ### Durations -/

section Durations

variable {bounds : MitigationBounds}

section Weighted

variable (h : GovernorPolicy.BoundsValid bounds)
  (hfit : (bounds.maxDuration.nanos.toInt - bounds.minDuration.nanos.toInt) * 4 < 2 ^ 63)
include h hfit

end Weighted

end Durations

/-! ### Expiries -/

section Expiries

variable {bundle : EvidenceBundle} {policy : GovernorPolicy}

end Expiries

end IncastGovernor
