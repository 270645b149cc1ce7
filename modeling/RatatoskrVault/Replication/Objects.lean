import RatatoskrVault.Replication.Steps
import RatatoskrVault.Retention.Orphans

/-! The objects of a bucket: a key is determined by the prefix and the digest it is derived from, an
upload writes one object, and a deletion stage removes at most the one it names. -/
namespace RatatoskrVault

open Lib

section Keys

/-- The part of a key behind the prefix. -/
def contentKey (digest : Digest) : String :=
  "sha256/" ++ ((hexDigest digest).take 2).toString ++ "/" ++ hexDigest digest

theorem objectKey_eq (keyPrefix : String) (reference : BlobRef) :
    objectKey keyPrefix reference
      = if keyPrefix.isEmpty then contentKey reference.sha256
        else keyPrefix ++ "/" ++ contentKey reference.sha256 := rfl

/-- A key ends with the digest it is derived from. -/
theorem exists_objectKey_toList (keyPrefix : String) (reference : BlobRef) :
    ∃ front, (objectKey keyPrefix reference).toList
      = front ++ (hexDigest reference.sha256).toList := by
  rw [objectKey_eq]
  let inner := ("sha256/" ++ ((hexDigest reference.sha256).take 2).toString ++ "/").toList
  split_ifs
  · exact ⟨inner, by rw [contentKey, String.toList_append]⟩
  · refine ⟨(keyPrefix ++ "/").toList ++ inner, ?_⟩
    rw [contentKey, String.toList_append, String.toList_append (s := _ ++ "/"), List.append_assoc]

theorem sha256_eq_of_objectKey {keyPrefix keyPrefix' : String} {reference reference' : BlobRef}
    (h : objectKey keyPrefix reference = objectKey keyPrefix' reference') :
    reference.sha256 = reference'.sha256 := by
  obtain ⟨front, hfront⟩ := exists_objectKey_toList keyPrefix reference
  obtain ⟨front', hfront'⟩ := exists_objectKey_toList keyPrefix' reference'
  have hlists : front ++ (hexDigest reference.sha256).toList
      = front' ++ (hexDigest reference'.sha256).toList := by
    rw [← hfront, ← hfront', h]
  refine hexDigest_injective (List.append_inj_right' hlists ?_)
  rw [hexDigest_length, hexDigest_length]

/-- Keys of one content under two prefixes differ. -/
theorem keyPrefix_eq_of_objectKey {keyPrefix keyPrefix' : String} {reference reference' : BlobRef}
    (h : objectKey keyPrefix reference = objectKey keyPrefix' reference') :
    keyPrefix = keyPrefix' := by
  have hcontent := sha256_eq_of_objectKey h
  have hlength : ∀ (p q : String), p.isEmpty = false →
      q ≠ p ++ "/" ++ q := by
    intro p q _ heq
    have hcount := congrArg (fun t : String => t.toList.length) heq
    simp only [String.toList_append, List.length_append] at hcount
    have hslash : ("/" : String).toList.length = 1 := rfl
    omega
  rw [objectKey_eq, objectKey_eq, hcontent] at h
  split_ifs at h with hp hp' hp'
  · rw [String.isEmpty_iff.mp hp, String.isEmpty_iff.mp hp']
  · exact absurd h (hlength _ _ (by simpa using hp'))
  · exact absurd h.symm (hlength _ _ (by simpa using hp))
  · have hlists := congrArg String.toList h
    simp only [String.toList_append, List.append_cancel_right_eq] at hlists
    exact String.toList_inj.mp hlists

end Keys

namespace Replication

section Put

variable {world : World} {location location' : RemoteLocation} {key key' : String}
  {artifactId : Uuid} {bytes : Bytes}

end Put

section Removal

variable {settings : RetentionWorkerSettings} {storage : Storage} {io : IoResult} {job : Job}

theorem deletionEffect_replica {e : DeletionExecutionArtifact} {stored : DeletionExecutionReplica}
    (hunit : job.unit = .replica e stored) :
    deletionEffect settings job storage io
      = match settings.replicas stored.replicaTargetId with
        | none => (storage, false)
        | some replica => deleteVerifiedReplica settings replica storage e.blob stored io := by
  cases hreplica : settings.replicas stored.replicaTargetId with
  | none => simp only [deletionEffect, hunit, hreplica]
  | some replica => simp only [deletionEffect, hunit, hreplica]

/-- What a deletion stage takes from a target: the object its placement names, under the key that
the current prefix gives it. -/
theorem remote_of_deletionEffect (replicaTargetId : Uuid) (key : String) :
    (deletionEffect settings job storage io).1.remote replicaTargetId key
        = storage.remote replicaTargetId key ∨
      ∃ e stored replica, job.unit = .replica e stored ∧ stored.replicaTargetId = replicaTargetId ∧
        stored.objectKey = key ∧ settings.replicas replicaTargetId = some replica ∧
        key = objectKey replica.keyPrefix e.blob := by
  cases hunit : job.unit with
  | artifact e =>
    unfold deletionEffect
    rw [hunit]
    exact Or.inl rfl
  | mirror =>
    unfold deletionEffect
    rw [hunit]
    cases io <;> exact Or.inl rfl
  | replica e stored =>
    rw [deletionEffect_replica hunit]
    cases hreplica : settings.replicas stored.replicaTargetId with
    | none => exact Or.inl rfl
    | some replica =>
      simp only
      unfold deleteVerifiedReplica
      split_ifs with hvalid
      · exact Or.inl rfl
      · push Not at hvalid
        split
        · exact Or.inl rfl
        · exact Or.inl rfl
        · split_ifs
          · by_cases hat : stored.replicaTargetId = replicaTargetId ∧ stored.objectKey = key
            · obtain ⟨rfl, rfl⟩ := hat
              exact Or.inr ⟨e, stored, replica, rfl, rfl, rfl, hreplica, hvalid.2.2⟩
            · left
              by_cases htarget : replicaTargetId = stored.replicaTargetId
              · subst htarget
                have hkey : key ≠ stored.objectKey := fun hkey => hat ⟨rfl, hkey.symm⟩
                simp [hkey]
              · simp [htarget]
          · exact Or.inl rfl

/-- A deletion stage that reports success has seen the key of its placement under the current
prefix. -/
theorem objectKey_of_success {e : DeletionExecutionArtifact} {stored : DeletionExecutionReplica}
    (hunit : job.unit = .replica e stored)
    (h : (deletionEffect settings job storage io).2 = true) :
    ∃ replica, settings.replicas stored.replicaTargetId = some replica ∧
      stored.objectKey = objectKey replica.keyPrefix e.blob ∧
      (deletionEffect settings job storage io).1.remote stored.replicaTargetId stored.objectKey
        = none := by
  rw [deletionEffect_replica hunit] at h ⊢
  cases hreplica : settings.replicas stored.replicaTargetId with
  | none => rw [hreplica] at h; cases h
  | some replica =>
    rw [hreplica] at h
    simp only at h ⊢
    have habsent := Retention.Orphans.absent_of_deleteVerifiedReplica h
    refine ⟨replica, rfl, ?_, not_not.mp habsent⟩
    unfold deleteVerifiedReplica at h
    split_ifs at h with hvalid
    push Not at hvalid
    exact hvalid.2.2

end Removal

section After

variable {settings : Settings} {c : Catalog} {world : World} {io : IoResult} {job : Job}

theorem remote_storage (replicaTargetId : Uuid) (key : String) :
    (world.storage c).remote replicaTargetId key
      = (remoteObject c world replicaTargetId key).map (·.bytes) := rfl

theorem replicas_current {replicaTargetId : Uuid} {replica : ReplicaSettings}
    (h : (settings.current c).worker.replicas replicaTargetId = some replica) :
    ∃ store, c.store? settings.replication replicaTargetId = some store ∧
      replica.keyPrefix = store.keyPrefix ∧ replica.maxObjectBytes = store.maxObjectBytes ∧
      validKeyPrefix store.keyPrefix = true := by
  simp only [Settings.current] at h
  obtain ⟨store, hstore, hreplica⟩ := Option.bind_eq_some_iff.mp h
  split_ifs at hreplica with hvalid
  cases hreplica
  exact ⟨store, hstore, rfl, rfl, hvalid⟩

/-- A deletion stage leaves an object, or removes the one its placement names at its target. -/
theorem objects_after_effect (location : RemoteLocation) (key : String) :
    (world.after c (deletionEffect (settings.current c).worker job (world.storage c) io).1).objects
        location key = world.objects location key ∨
      (world.after c (deletionEffect (settings.current c).worker job (world.storage c) io).1).objects
        location key = none ∧
      ∃ e stored store, job.unit = .replica e stored ∧ stored.objectKey = key ∧
        (∃ target ∈ c.replicaTargets, target.replicaTargetId = stored.replicaTargetId ∧
          target.location = location) ∧
        c.store? settings.replication stored.replicaTargetId = some store ∧
        key = objectKey store.keyPrefix e.blob := by
  unfold World.after
  simp only
  split_ifs with hgone
  · right
    refine ⟨rfl, ?_⟩
    obtain ⟨target, hmem, htarget⟩ := List.any_eq_true.mp hgone
    simp only [Bool.and_eq_true, beq_iff_eq] at htarget
    obtain ⟨⟨hlocation, hbefore⟩, hafter⟩ := htarget
    have hremote := @remote_of_deletionEffect (settings.current c).worker (world.storage c) io job
      target.replicaTargetId key
    rcases hremote with hsame | hremoved
    · rw [hsame] at hafter
      rw [Option.isNone_iff_eq_none] at hafter
      rw [hafter] at hbefore
      cases hbefore
    · obtain ⟨e, stored, replica, hunit, hid, hkey, hreplica, hderived⟩ := hremoved
      rw [← hid] at hreplica
      obtain ⟨store, hstore, hkeyed, -⟩ := replicas_current hreplica
      exact ⟨e, stored, store, hunit, hkey, ⟨target, hmem, hid.symm, hlocation⟩, hstore,
        hkeyed ▸ hderived⟩
  · exact Or.inl rfl

/-- The object of a placement is gone when its deletion stage reports success. -/
theorem gone_after_effect {e : DeletionExecutionArtifact} {stored : DeletionExecutionReplica}
    (hunit : job.unit = .replica e stored)
    (h : (deletionEffect (settings.current c).worker job (world.storage c) io).2 = true) :
    remoteObject c (world.after c
      (deletionEffect (settings.current c).worker job (world.storage c) io).1)
      stored.replicaTargetId stored.objectKey = none := by
  obtain ⟨replica, -, -, hnone⟩ := objectKey_of_success hunit h
  unfold remoteObject
  cases htarget : c.replicaTarget? stored.replicaTargetId with
  | none => rfl
  | some target =>
    have hid : target.replicaTargetId = stored.replicaTargetId := by
      simpa using List.find?_some htarget
    have hmem : target ∈ c.replicaTargets := List.mem_of_find?_eq_some htarget
    change (world.after c _).objects target.location stored.objectKey = none
    unfold World.after
    simp only
    split_ifs with hgone
    · rfl
    · by_contra hpresent
      refine hgone (List.any_eq_true.mpr ⟨target, hmem, ?_⟩)
      rw [hid, hnone, remote_storage]
      unfold remoteObject
      rw [htarget]
      simpa [Option.isSome_iff_ne_none] using hpresent

end After

end Replication

end RatatoskrVault
