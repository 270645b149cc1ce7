import RatatoskrVault.Core.Manifest
import RatatoskrVault.Core.ReplicaConfig
import RatatoskrVault.Lib.Asks
import RatatoskrVault.Replication.Worker

/-! The replica adapter: `upload_and_verify` in its plain and its cancellable form, and
`delete_verified`, over what they ask the provider, the source file and the runtime. -/
namespace RatatoskrVault.Adapter

open Lib

def multipartChunkBytes : ℕ := 8 * 1024 * 1024

def absenceCheckAttempts : ℕ := 3

/-- A reference before its digest text has been looked at. -/
abbrev BlobRef := Manifest.BlobRef

/-- What is left of an asynchronous byte stream: the pieces its reads return, and how it ends. -/
inductive Body
  | finished
  | failed
  | stalled
  | piece (bytes : Bytes) (rest : Body)
  deriving DecidableEq

inductive GetAnswer
  | notFound
  | failed
  | found (body : Body)
  deriving DecidableEq

structure Metadata where
  isFile : Bool
  len : ℕ
  deriving DecidableEq

/-- What a transfer waits for. -/
inductive Request (ObjectPath : Type)
  | metadata
  | openSource
  | get (location : ObjectPath)
  | delete (location : ObjectPath)
  | putMultipart (location : ObjectPath)
  | putPart (bytes : Bytes)
  | complete
  | abort
  | yieldNow
  | stall
  deriving DecidableEq

/-- The answers; `none` and `false` are failures, and a stalled stream has none. -/
abbrev Answer {ObjectPath : Type} : Request ObjectPath → Type
  | .metadata => Option Metadata
  | .openSource => Option Body
  | .get _ => GetAnswer
  | .delete _ | .putMultipart _ | .putPart _ | .complete | .abort => Bool
  | .yieldNow => Unit
  | .stall => Empty

/-- How a worker looks at its shutdown signal. -/
inductive Signal
  | borrow | changed
  deriving DecidableEq

abbrev Transfer (ObjectPath : Type) := Asks (Request ObjectPath) Answer ReplicaError

abbrev CancellableTransfer (ObjectPath : Type) :=
  Asks (Request ObjectPath ⊕ Signal) (Sum.elim Answer fun _ => Bool) ReplicaError

section Requests

variable {ObjectPath : Type}

def request (q : Request ObjectPath) : Transfer ObjectPath (Answer q) := Asks.question q

def symlinkMetadata : Transfer ObjectPath (Option Metadata) := request .metadata

def openSource : Transfer ObjectPath (Option Body) := request .openSource

def getObject (location : ObjectPath) : Transfer ObjectPath GetAnswer :=
  request (.get location)

def deleteObject (location : ObjectPath) : Transfer ObjectPath Bool :=
  request (.delete location)

def putMultipart (location : ObjectPath) : Transfer ObjectPath Bool :=
  request (.putMultipart location)

def putPart (bytes : Bytes) : Transfer ObjectPath Bool := request (.putPart bytes)

def complete : Transfer ObjectPath Bool := request .complete

def abort : Transfer ObjectPath Bool := request .abort

def yieldNow : Transfer ObjectPath Unit := request .yieldNow

/-- A read that never returns. -/
def stall {α : Type} : Transfer ObjectPath α := .ask .stall nofun

def shutdownRequested : CancellableTransfer ObjectPath Bool := Asks.signal .borrow

/-- A future raced against the shutdown signal. -/
def unlessShutdown {α : Type} (transfer : Transfer ObjectPath α) :
    CancellableTransfer ObjectPath α :=
  transfer.select .changed id .cancelled

end Requests

structure ReplicaPlacement where
  target : String
  objectKey : String
  sizeBytes : ℕ
  sha256 : String
  deriving DecidableEq

inductive ReplicaDeleteOutcome
  | deleted | alreadyAbsent
  deriving DecidableEq

structure ReplicaStore where
  target : String
  keyPrefix : String
  maxObjectBytes : ℕ
  bounded : maxObjectBytes ≤ u64Max

def ReplicaStore.new (target : String) (config : ReplicaTargetConfig) :
    Except ReplicaError ReplicaStore :=
  if target.isEmpty || config.maxObjectBytes == 0 then .error .invalidInput
  else .ok
    { target
      keyPrefix := trimSlashes config.keyPrefix
      maxObjectBytes := config.maxObjectBytes
      bounded := config.bounded }

def validDigest (text : String) : Bool :=
  text.toList.length == 64 && text.toList.all isHex

def objectKey (keyPrefix : String) (reference : BlobRef) : Except ReplicaError String :=
  if validKeyPrefix keyPrefix then
    let shard := String.ofList (reference.sha256.toList.take 2)
    if keyPrefix.isEmpty then .ok ("sha256/" ++ shard ++ "/" ++ reference.sha256)
    else .ok (keyPrefix ++ "/sha256/" ++ shard ++ "/" ++ reference.sha256)
  else .error .invalidInput

namespace ReplicaStore

variable {ObjectPath : Type} (parse : String → Option ObjectPath) (cx : Crypto)
  (store : ReplicaStore) (reference : BlobRef)

def validateReference : Bool :=
  reference.owner == owner && validDigest reference.sha256 && !reference.mediaType.isEmpty &&
    decide (reference.sizeBytes ≤ store.maxObjectBytes)

def placement (objectKey : String) : ReplicaPlacement :=
  { target := store.target
    objectKey
    sizeBytes := reference.sizeBytes
    sha256 := reference.sha256 }

/-- The key of a valid reference, and the location it names. -/
def locate : Except ReplicaError (String × ObjectPath) :=
  if !store.validateReference reference then .error .invalidInput
  else match RatatoskrVault.Adapter.objectKey store.keyPrefix reference with
    | .error error => .error error
    | .ok key =>
      match parse key with
      | none => .error .invalidInput
      | some location => .ok (key, location)

/-- The downloaded pieces so far, and those to come. -/
def verifyBody (received : Bytes) : Body → Transfer ObjectPath Unit
  | .stalled => stall
  | .failed => throw .remote
  | .piece bytes rest =>
    let read := received.length + bytes.length
    if u64Max < read then throw .sizeLimitExceeded
    else if store.maxObjectBytes < read || reference.sizeBytes < read then throw .remoteOversized
    else verifyBody (received ++ bytes) rest
  | .finished =>
    if received.length < reference.sizeBytes then throw .remoteTruncated
    else if hexDigest (cx.sha256 received) != reference.sha256 then throw .remoteChecksumMismatch
    else pure ()

def verifyRemote (location : ObjectPath) : Transfer ObjectPath Unit := do
  match ← getObject location with
  | .notFound => throw .notFound
  | .failed => throw .remote
  | .found body => store.verifyBody cx reference [] body

/-- The rest of `stream_parts`, when the parts sent so far hold `sent`. -/
def streamBody (sent : Bytes) : Body → Transfer ObjectPath Unit
  | .stalled => stall
  | .failed => throw .sourceIo
  | .piece bytes rest =>
    let read := sent.length + bytes.length
    if u64Max < read || store.maxObjectBytes < read then throw .sizeLimitExceeded
    else do
      Asks.ensure (← putPart bytes) .remote
      streamBody (sent ++ bytes) rest
  | .finished =>
    if sent.length == reference.sizeBytes && hexDigest (cx.sha256 sent) == reference.sha256 then
      pure ()
    else throw .digestMismatch

def streamParts : Transfer ObjectPath Unit := do
  match ← openSource with
  | none => throw .sourceIo
  | some reads => store.streamBody cx reference [] reads

def uploadSource (location : ObjectPath) : Transfer ObjectPath Unit := do
  match ← symlinkMetadata with
  | none => throw .sourceIo
  | some metadata => do
    Asks.ensure (metadata.isFile && decide (metadata.len ≤ store.maxObjectBytes)) .invalidInput
    Asks.ensure (metadata.len == reference.sizeBytes) .digestMismatch
    Asks.ensure (← putMultipart location) .remote
    match ← Asks.attempt (store.streamParts cx reference) with
    | .error error => do
      let _ignored ← abort
      throw error
    | .ok () =>
      if ← complete then pure ()
      else do
        let _ignored ← abort
        throw .remote

def uploadAndVerify : Transfer ObjectPath ReplicaPlacement :=
  match store.locate parse reference with
  | .error error => throw error
  | .ok (key, location) => do
    match ← Asks.attempt (store.verifyRemote cx reference location) with
    | .ok () => pure (store.placement reference key)
    | .error .notFound => do
      store.uploadSource cx reference location
      store.verifyRemote cx reference location
      pure (store.placement reference key)
    | .error error => throw error

def streamBodyCancellable (sent : Bytes) : Body → CancellableTransfer ObjectPath Unit
  | .stalled => do
    Asks.ensure (!(← shutdownRequested)) .cancelled
    Asks.lift stall
  | .failed => do
    Asks.ensure (!(← shutdownRequested)) .cancelled
    throw .sourceIo
  | .piece bytes rest => do
    Asks.ensure (!(← shutdownRequested)) .cancelled
    let read := sent.length + bytes.length
    if u64Max < read || store.maxObjectBytes < read then throw .sizeLimitExceeded
    else do
      unlessShutdown do
        Asks.ensure (← putPart bytes) .remote
      streamBodyCancellable (sent ++ bytes) rest
  | .finished => do
    Asks.ensure (!(← shutdownRequested)) .cancelled
    if sent.length == reference.sizeBytes && hexDigest (cx.sha256 sent) == reference.sha256 then
      pure ()
    else throw .digestMismatch

def streamPartsCancellable : CancellableTransfer ObjectPath Unit := do
  match ← Asks.lift openSource with
  | none => throw .sourceIo
  | some reads => store.streamBodyCancellable cx reference [] reads

def uploadSourceCancellable (location : ObjectPath) : CancellableTransfer ObjectPath Unit := do
  match ← Asks.lift symlinkMetadata with
  | none => throw .sourceIo
  | some metadata => do
    Asks.ensure (metadata.isFile && decide (metadata.len ≤ store.maxObjectBytes)) .invalidInput
    Asks.ensure (metadata.len == reference.sizeBytes) .digestMismatch
    unlessShutdown do
      Asks.ensure (← putMultipart location) .remote
    match ← Asks.attempt (store.streamPartsCancellable cx reference) with
    | .error error => do
      let _aborted ← Asks.lift abort
      throw error
    | .ok () =>
      match ← Asks.attempt (unlessShutdown do Asks.ensure (← complete) .remote) with
      | .error error => do
        let _aborted ← Asks.lift abort
        throw error
      | .ok () => pure ()

def uploadAndVerifyCancellable : CancellableTransfer ObjectPath ReplicaPlacement := do
  Asks.ensure (!(← shutdownRequested)) .cancelled
  match store.locate parse reference with
  | .error error => throw error
  | .ok (key, location) => do
    match ← Asks.attempt (unlessShutdown (store.verifyRemote cx reference location)) with
    | .ok () => pure (store.placement reference key)
    | .error .notFound => do
      store.uploadSourceCancellable cx reference location
      unlessShutdown (store.verifyRemote cx reference location)
      pure (store.placement reference key)
    | .error error => throw error

/-- The reads after a DELETE, while any of them is left. -/
def absenceChecks (location : ObjectPath) : ℕ → Transfer ObjectPath ReplicaDeleteOutcome
  | 0 => throw .remoteStillPresent
  | attempts + 1 => do
    let again : Transfer ObjectPath ReplicaDeleteOutcome :=
      if attempts = 0 then throw .remoteStillPresent
      else do
        yieldNow
        absenceChecks location attempts
    match ← Asks.attempt (store.verifyRemote cx reference location) with
    | .error .notFound => pure .deleted
    | .ok () | .error .remoteChecksumMismatch | .error .remoteTruncated
    | .error .remoteOversized => again
    | .error error => throw error

def deleteVerifiedInner (location : ObjectPath) : Transfer ObjectPath ReplicaDeleteOutcome := do
  match ← Asks.attempt (store.verifyRemote cx reference location) with
  | .ok () => do
    Asks.ensure (← deleteObject location) .remote
    store.absenceChecks cx reference location absenceCheckAttempts
  | .error .notFound => pure .alreadyAbsent
  | .error error => throw error

def deleteVerified (placement : ReplicaPlacement) : Transfer ObjectPath ReplicaDeleteOutcome :=
  if !store.validateReference reference then throw .invalidInput
  else match RatatoskrVault.Adapter.objectKey store.keyPrefix reference with
    | .error error => throw error
    | .ok expectedKey =>
      if placement.target ≠ store.target ∨ placement.objectKey ≠ expectedKey ∨
          placement.sha256 ≠ reference.sha256 ∨ placement.sizeBytes ≠ reference.sizeBytes then
        throw .invalidInput
      else match parse placement.objectKey with
        | none => throw .invalidInput
        | some location => store.deleteVerifiedInner cx reference location

end ReplicaStore

/-- A transfer under the request deadline: the requests it issues and what it returns. -/
def timeout {Q : Type} {A : Q → Type} {α : Type} (env : Surroundings Q A)
    (transfer : Asks Q A ReplicaError α) : List (Event Q A) × Except ReplicaError α :=
  let out := transfer.exec env []
  (out.1, out.2.getD (.error .timeout))

theorem returned_of_timeout {Q : Type} {A : Q → Type} {α : Type} {env : Surroundings Q A}
    {transfer : Asks Q A ReplicaError α} {a : α} (h : (timeout env transfer).2 = .ok a) :
    (transfer.exec env []).2 = some (.ok a) := by
  unfold timeout at h
  cases hr : (transfer.exec env []).2 with
  | none => simp [hr] at h
  | some r => simpa [hr] using h

theorem answered_of_timeout {Q : Type} {A : Q → Type} {α : Type} {env : Surroundings Q A}
    {transfer : Asks Q A ReplicaError α} {error : ReplicaError}
    (h : (timeout env transfer).2 = .error error) (hne : error ≠ .timeout) :
    (transfer.exec env []).2 ≠ none := by
  intro hr
  unfold timeout at h
  simp only [hr, Option.getD_none, Except.error.injEq] at h
  exact hne h.symm

/-- The bytes a stream delivers when it is read to its end. -/
def Body.delivers : Body → Option Bytes
  | .finished => some []
  | .failed | .stalled => none
  | .piece bytes rest => rest.delivers.map (bytes ++ ·)

/-- The bytes are those the reference names. -/
def BlobRef.Names (cx : Crypto) (reference : BlobRef) (bytes : Bytes) : Prop :=
  bytes.length = reference.sizeBytes ∧ hexDigest (cx.sha256 bytes) = reference.sha256

abbrev RequestEvent (ObjectPath : Type) := Event (Request ObjectPath) Answer

section Reads

variable {ObjectPath : Type} {cx : Crypto} {store : ReplicaStore} {reference : BlobRef}
  {location : ObjectPath}

/-- A read at the location that returned exactly the referenced bytes. -/
def ReadsBack (cx : Crypto) (reference : BlobRef) (location : ObjectPath)
    (e : RequestEvent ObjectPath) : Prop :=
  ∃ body bytes, e = ⟨.get location, some (.found body)⟩ ∧ body.delivers = some bytes ∧
    reference.Names cx bytes

/-- The conversations of `verify_remote`. -/
inductive Verifies (cx : Crypto) (reference : BlobRef) (location : ObjectPath) :
    List (RequestEvent ObjectPath) → Option (Except ReplicaError Unit) → Prop
  | intact (e : RequestEvent ObjectPath) (h : ReadsBack cx reference location e) :
      Verifies cx reference location [e] (some (.ok ()))
  | absent : Verifies cx reference location [⟨.get location, some .notFound⟩]
      (some (.error .notFound))
  | refused : Verifies cx reference location [⟨.get location, some .failed⟩]
      (some (.error .remote))
  | damaged (body : Body) (e : ReplicaError) (he : e ≠ .notFound) :
      Verifies cx reference location [⟨.get location, some (.found body)⟩] (some (.error e))
  | dropped : Verifies cx reference location [⟨.get location, none⟩] none
  | stalled (body : Body) : Verifies cx reference location
      [⟨.get location, some (.found body)⟩, ⟨.stall, none⟩] none

/-- A body is checked without a further request, unless it stalls. -/
theorem verifyBody_holds {received : Bytes} (hreceived : received.length ≤ reference.sizeBytes)
    (body : Body) :
    Asks.Holds (store.verifyBody cx reference received body : Transfer ObjectPath Unit)
      fun t r =>
        (t = [] ∧ r = some (.ok ()) ∧
          ∃ rest, body.delivers = some rest ∧ reference.Names cx (received ++ rest)) ∨
        (∃ e, t = [] ∧ r = some (.error e) ∧ e ≠ .notFound) ∨ (t = [⟨.stall, none⟩] ∧ r = none) := by
  induction body generalizing received with
  | finished =>
    unfold ReplicaStore.verifyBody
    split_ifs with hshort hdigest
    · exact Asks.holds_throw (.inr (.inl ⟨_, rfl, rfl, nofun⟩))
    · exact Asks.holds_throw (.inr (.inl ⟨_, rfl, rfl, nofun⟩))
    · refine Asks.holds_pure (.inl ⟨rfl, rfl, [], rfl, ?_⟩)
      rw [List.append_nil]
      exact ⟨by omega, by simpa using hdigest⟩
  | failed => exact Asks.holds_throw (.inr (.inl ⟨_, rfl, rfl, nofun⟩))
  | stalled =>
    intro t r hsays
    cases hsays with
    | answered never => exact nomatch never
    | dropped => exact .inr (.inr ⟨rfl, rfl⟩)
  | piece bytes rest ih =>
    unfold ReplicaStore.verifyBody
    simp only
    split_ifs with hoverflow hlong
    · exact Asks.holds_throw (.inr (.inl ⟨_, rfl, rfl, nofun⟩))
    · exact Asks.holds_throw (.inr (.inl ⟨_, rfl, rfl, nofun⟩))
    · have hread : (received ++ bytes).length ≤ reference.sizeBytes := by
        simp only [Bool.or_eq_true, decide_eq_true_eq] at hlong
        rw [List.length_append]
        omega
      refine (ih hread).mono fun t r h => ?_
      obtain ⟨ht, hr, rest', hrest, hnames⟩ | h := h
      · refine .inl ⟨ht, hr, bytes ++ rest', ?_, ?_⟩
        · simp [Body.delivers, hrest]
        · rwa [← List.append_assoc]
      · exact .inr h

theorem verifyRemote_holds :
    Asks.Holds (store.verifyRemote cx reference location) (Verifies cx reference location) := by
  unfold ReplicaStore.verifyRemote
  refine Asks.holds_question_bind (fun answer => ?_) .dropped
  cases answer with
  | notFound => exact Asks.holds_throw .absent
  | failed => exact Asks.holds_throw .refused
  | found body =>
    refine (verifyBody_holds (Nat.zero_le _) body).mono ?_
    rintro t r (⟨rfl, rfl, bytes, hbytes, hnames⟩ | ⟨e, rfl, rfl, he⟩ | ⟨rfl, rfl⟩)
    · exact .intact _ ⟨body, bytes, rfl, hbytes, hnames⟩
    · exact .damaged body e he
    · exact .stalled body

end Reads

end RatatoskrVault.Adapter
