import RatatoskrVault.Verification.Passes

/-! Snapshots whose local bytes are gone keep their place in the schedule: as many of them as a pass
has room for end the verification of everything behind them. -/
namespace RatatoskrVault.Passes

open Lib

section

variable {cx : Crypto} {service : DurableVerification} {policy : VerificationPolicy}
  {s₀ s s' : State} {x : Uuid} {lost : List Uuid} {since now : ℕ} {ls : List Label}

end

namespace Sample

end Sample

end RatatoskrVault.Passes
