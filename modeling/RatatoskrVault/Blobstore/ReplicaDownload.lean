import RatatoskrVault.Blobstore.MultipartParts

/-! `download_verified`: a replica object streamed into a file that must be new, the digest taken
beside the writes, and the file removed where anything but the deadline ends the download. -/
namespace RatatoskrVault.Adapter

open Lib

namespace Download

/-- What a download waits for. -/
inductive Request (ObjectPath : Type)
  /-- `OpenOptions` with `create_new`. -/
  | create
  | get (location : ObjectPath)
  | write (bytes : Bytes)
  | sync
  | remove
  | stall
  deriving DecidableEq

/-- The answers; `false` is a failure, and a stalled stream has none. -/
abbrev Answer {ObjectPath : Type} : Request ObjectPath → Type
  | .get _ => GetAnswer
  | .create | .write _ | .sync | .remove => Bool
  | .stall => Empty

abbrev Event (ObjectPath : Type) := Lib.Event (Request ObjectPath) Answer

end Download

abbrev DownloadTransfer (ObjectPath : Type) :=
  Asks (Download.Request ObjectPath) Download.Answer ReplicaError

namespace Download

variable {ObjectPath : Type}

def request (q : Request ObjectPath) : DownloadTransfer ObjectPath (Answer q) := Asks.question q

def createNew : DownloadTransfer ObjectPath Bool := request .create

def getObject (location : ObjectPath) : DownloadTransfer ObjectPath GetAnswer :=
  request (.get location)

def writeAll (bytes : Bytes) : DownloadTransfer ObjectPath Bool := request (.write bytes)

def syncAll : DownloadTransfer ObjectPath Bool := request .sync

def removeFile : DownloadTransfer ObjectPath Bool := request .remove

/-- A read that never returns. -/
def stall {α : Type} : DownloadTransfer ObjectPath α := .ask .stall nofun

/-- A failed download leaves no file. -/
def discard {α : Type} (error : ReplicaError) : DownloadTransfer ObjectPath α := do
  let _ignored ← removeFile
  throw error

end Download

namespace ReplicaStore

variable {ObjectPath : Type} (parse : String → Option ObjectPath) (cx : Crypto)
  (store : ReplicaStore) (reference : BlobRef)

/-- The pieces that have been written, and those to come. -/
def downloadBody (read : Bytes) : Body → DownloadTransfer ObjectPath Unit
  | .stalled => Download.stall
  | .failed => throw .remote
  | .piece bytes rest =>
    let length := read.length + bytes.length
    if u64Max < length then throw .remoteOversized
    else if store.maxObjectBytes < length || reference.sizeBytes < length then
      throw .remoteOversized
    else do
      Asks.ensure (← Download.writeAll bytes) .sourceIo
      downloadBody (read ++ bytes) rest
  | .finished =>
    if read.length < reference.sizeBytes then throw .remoteTruncated
    else if hexDigest (cx.sha256 read) != reference.sha256 then throw .remoteChecksumMismatch
    else pure ()

def downloadRemoteTo (location : ObjectPath) : DownloadTransfer ObjectPath Unit := do
  match ← Download.getObject location with
  | .notFound => throw .notFound
  | .failed => throw .remote
  | .found body => store.downloadBody cx reference [] body

def downloadVerifiedInner : DownloadTransfer ObjectPath ReplicaPlacement :=
  match store.locate parse reference with
  | .error error => throw error
  | .ok (key, location) => do
    Asks.ensure (← Download.createNew) .sourceIo
    match ← Asks.attempt (store.downloadRemoteTo cx reference location) with
    | .error error => Download.discard error
    | .ok () =>
      if ← Download.syncAll then pure (store.placement reference key)
      else Download.discard .sourceIo

/-- The requests of a download under its deadline, and what it returns. -/
def downloadVerified (env : Surroundings (Download.Request ObjectPath) Download.Answer) :
    List (Download.Event ObjectPath) × Except ReplicaError ReplicaPlacement :=
  timeout env (store.downloadVerifiedInner parse cx reference)

end ReplicaStore

section Destination

variable {ObjectPath : Type}

/-- What one request can make of the file at the destination. A write that fails, or that nobody
waits for, has written some of its bytes. -/
def Becomes (before after : Option Bytes) : Download.Event ObjectPath → Prop
  | ⟨.create, some true⟩ => before = none ∧ after = some []
  | ⟨.create, some false⟩ => after = before
  | ⟨.create, none⟩ => after = before ∨ before = none ∧ after = some []
  | ⟨.write bytes, some true⟩ => after = before.map (· ++ bytes)
  | ⟨.write bytes, some false⟩ => ∃ part, part <+: bytes ∧ after = before.map (· ++ part)
  | ⟨.write bytes, none⟩ => ∃ part, part <+: bytes ∧ after = before.map (· ++ part)
  | ⟨.remove, some true⟩ => after = none
  | ⟨.remove, some false⟩ => after = before
  | ⟨.remove, none⟩ => after = before ∨ after = none
  | ⟨.get _, _⟩ => after = before
  | ⟨.sync, _⟩ => after = before
  | ⟨.stall, _⟩ => after = before

/-- What a conversation can make of it. -/
def Leaves (before : Option Bytes) : List (Download.Event ObjectPath) → Option Bytes → Prop
  | [], after => after = before
  | e :: t, after => ∃ between, Becomes before between e ∧ Leaves between t after

variable {before after : Option Bytes} {t t' : List (Download.Event ObjectPath)}

end Destination

section Downloads

variable {ObjectPath : Type} {cx : Crypto} {store : ReplicaStore} {reference : BlobRef}
  {location : ObjectPath}

/-- A file that was there is not touched. -/
def Untouched (t : List (Download.Event ObjectPath))
    (r : Option (Except ReplicaError ReplicaPlacement)) : Prop :=
  ∀ content after, Leaves (some content) t after →
    after = some content ∧ ∀ placement, r ≠ some (.ok placement)

namespace Sample

end Sample

end Downloads

end RatatoskrVault.Adapter
