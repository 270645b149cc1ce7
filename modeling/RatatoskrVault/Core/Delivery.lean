import RatatoskrVault.Core.TargetState

/-! Desired-state deliveries, their validation, and the typed errors of the store operations. -/
namespace RatatoskrVault

abbrev Uuid := ℕ

/-- UTC Unix seconds. -/
abbrev Time := ℕ

/-- The largest value of a `bigint` column. -/
def i64Max : ℕ := 9223372036854775807

/-- The largest value of an `integer` column. -/
def i32Max : ℕ := 2147483647

inductive VaultError
  | invalidDelivery (field : String)
  | illegalTransition (fromStatus toStatus : String)
  | duplicateDelivery
  | storageFailed
  deriving DecidableEq

inductive PreservationLevel
  | none | metadataOnly | gitMirror | gitMirrorWithLfs | completeArchive
  deriving DecidableEq

/-- The policy level a delivered text names. -/
def PreservationLevel.parse : String → Option PreservationLevel
  | "none" => some .none
  | "metadata_only" => some .metadataOnly
  | "git_mirror" => some .gitMirror
  | "git_mirror_with_lfs" => some .gitMirrorWithLfs
  | "complete_archive" => some .completeArchive
  | _ => Option.none

/-- A desired-state record exactly as delivered. -/
structure DesiredStateDelivery where
  preservationLevel : String
  pinned : Option Bool
  includeWiki : Option Bool
  includeReleases : Option Bool
  includeIssues : Option Bool
  offsiteRequired : Option Bool
  correlationId : String
  policyRevision : Option ℕ
  deriving DecidableEq

structure IncomingDelivery where
  provider : String
  externalRepositoryId : String
  source : String
  messageId : Uuid
  delivery : DesiredStateDelivery
  deriving DecidableEq

/-- The validated form of a delivery; only this may drive planning and persistence. -/
structure ValidatedDelivery where
  preservationLevel : PreservationLevel
  pinned : Option Bool
  includeWiki : Option Bool
  includeReleases : Option Bool
  includeIssues : Option Bool
  offsiteRequired : Option Bool
  correlationId : String
  policyRevision : Option ℕ
  deriving DecidableEq

/-- Fields are checked in contract order. -/
def validateDelivery (delivery : DesiredStateDelivery) : Except VaultError ValidatedDelivery :=
  match PreservationLevel.parse delivery.preservationLevel with
  | .none => .error (.invalidDelivery "preservation_level")
  | some level =>
    if delivery.policyRevision.isNone then .error (.invalidDelivery "policy_revision")
    else if delivery.correlationId.isEmpty then .error (.invalidDelivery "correlation_id")
    else
      .ok
        { preservationLevel := level
          pinned := delivery.pinned
          includeWiki := delivery.includeWiki
          includeReleases := delivery.includeReleases
          includeIssues := delivery.includeIssues
          offsiteRequired := delivery.offsiteRequired
          correlationId := delivery.correlationId
          policyRevision := delivery.policyRevision }

/-- The revision every governed record must carry, within the storage range. -/
def governedInputs (delivery : ValidatedDelivery) : Except VaultError ℕ :=
  match delivery.policyRevision with
  | .none => .error (.invalidDelivery "policy_revision")
  | some revision =>
    if i64Max < revision then .error (.invalidDelivery "policy_revision")
    else if delivery.correlationId.isEmpty then .error (.invalidDelivery "correlation_id")
    else .ok revision

end RatatoskrVault
