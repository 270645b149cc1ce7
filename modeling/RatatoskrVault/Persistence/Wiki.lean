import RatatoskrVault.Persistence.PolicyLane

/-! `record_wiki_discovery`: the wiki of a repository target becomes a target of its own, under a
revision derived from the one that governs its parent. -/
namespace RatatoskrVault

inductive WikiDiscovery
  | present | absent
  | failed (failureClass : String)
  deriving DecidableEq

def Db.wikiTarget? (db : Db) (parentTargetId : Uuid) : Option Target :=
  db.targets.find? fun t => t.targetKind == .wiki && t.parentTargetId == some parentTargetId

/-- The revision of a wiki target: a Git mirror without the flags of its parent. -/
def wikiRevision (child : Uuid) (parent : Revision) : Revision :=
  { targetId := child
    policyRevision := parent.policyRevision
    preservationLevel := .gitMirror
    pinned := parent.pinned
    includeWiki := false
    includeReleases := false
    includeIssues := false
    offsiteRequired := parent.offsiteRequired
    correlationId := parent.correlationId
    source := none }

/-- The revision a discovery adds, unless the wiki target has one of that number. -/
def Db.wikiRevisions (db : Db) (child parentTargetId : Uuid) : List Revision :=
  ((db.governing? parentTargetId).toList.map (wikiRevision child)).filter fun row =>
    !db.revisions.any fun r => r.targetId == child && r.policyRevision == row.policyRevision

/-- One transaction that holds the parent row from its first statement to its commit. -/
def recordWikiDiscovery (db : Db) (fresh : Uuid) (parentTargetId : Uuid) :
    WikiDiscovery → Option (List Lock × List Write)
  | .failed failureClass =>
    if 0 < failureClass.utf8ByteSize ∧ failureClass.utf8ByteSize ≤ 64 then
      (db.target? parentTargetId).bind fun parent =>
        if parent.targetKind = .repository then some ([.target parentTargetId], []) else none
    else none
  | .absent =>
    (db.target? parentTargetId).bind fun parent =>
      if parent.targetKind = .repository then some ([.target parentTargetId], []) else none
  | .present =>
    (db.target? parentTargetId).bind fun parent =>
      if parent.targetKind = .repository then
        match db.wikiTarget? parentTargetId with
        | some child =>
          some ([.target parentTargetId, .target child.targetId],
            (db.wikiRevisions child.targetId parentTargetId).map .insertRevision)
        | none =>
          some ([.target parentTargetId],
            .insertTarget
              { targetId := fresh
                provider := parent.provider
                externalRepositoryId := parent.externalRepositoryId
                targetKind := .wiki
                parentTargetId := some parentTargetId
                status := .requested } ::
              (db.wikiRevisions fresh parentTargetId).map .insertRevision)
      else none

end RatatoskrVault
