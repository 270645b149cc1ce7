import RatatoskrVault.Gitrunner.CredentialFile
import RatatoskrVault.Lib.Replacing

/-! What the runner takes out of an output before it leaves: the secrets of its operation. -/
namespace RatatoskrVault

open Lib Replacing

/-- The placeholder substituted for a secret. -/
def redacted : Bytes := asBytes "[redacted]"

/-- The first window that is the secret. -/
def position (secret : Bytes) : Bytes → Option ℕ
  | [] => none
  | b :: rest => if secret <+: b :: rest then some 0 else (position secret rest).map (· + 1)

/-- A byte and where in the capture it stood; a byte of a placeholder stood nowhere. -/
structure Cell where
  byte : UInt8
  origin : Option ℕ
  deriving DecidableEq

def cells (captured : Bytes) : List Cell := captured.mapIdx fun n b => { byte := b, origin := some n }

def placeholder : List Cell := redacted.map fun b => { byte := b, origin := none }

/-- The capture without the occurrences of the secrets, which are cut out one secret after the
other. -/
def gaps (captured : Bytes) (secrets : List Bytes) : List (Option Cell) :=
  cutEach Cell.byte secrets ((cells captured).map some)

/-- No secret is found over a placeholder when its turn comes. -/
def FindsNoPlaceholder (captured : Bytes) (secrets : List Bytes) : Prop :=
  Quiet Cell.byte placeholder (fun cell => cell.origin = none) secrets ((cells captured).map some)

/-- The secrets are apart from each other, from themselves and from the placeholder. -/
structure Apart (captured : Bytes) (secrets : List Bytes) : Prop where
  quiet : FindsNoPlaceholder captured secrets
  covered : ∀ cell, some cell ∈ gaps captured secrets →
    ¬Inside Cell.byte secrets (cells captured) cell
  clear : ∀ secret ∈ secrets, secret ≠ [] →
    ∀ block, block <:+: render placeholder (gaps captured secrets) →
      block.map Cell.byte = secret → ∀ cell ∈ block, cell.origin ≠ none

section

variable {captured : Bytes} {secrets : List Bytes}

end

end RatatoskrVault
