import RatatoskrVault.Retention.Chains

/-! How long a parent chain grows. Every capture links to the newest snapshot of its mirror, so the
chain of the newest is the whole history of the mirror, and its verification is a matter of the
depth the verifier is given. -/
namespace RatatoskrVault

open Lib

/-- The snapshots of a mirror, in the order they were recorded. -/
def Db.history (db : Db) (targetId mirrorId : Uuid) : List Snapshot :=
  db.snapshots.filter fun s => s.targetId == targetId && s.mirrorId == mirrorId

/-- The newest snapshot of a mirror. -/
def Db.newest? (db : Db) (targetId mirrorId : Uuid) : Option Snapshot :=
  match db.history targetId mirrorId with
  | [] => none
  | first :: rest => some (rest.foldl Db.laterSnapshot first)

namespace Retention

/-- The first trusted key of the signer's name accepts what the signer signs. -/
def VerifierSettings.Trusts (v : VerifierSettings) (cx : Crypto) (signer : ManifestSigningKey) :
    Prop :=
  ∃ key, v.trustedKeys.find? (fun key => key.keyId == signer.keyId) = some key ∧
    ∀ unsigned : UnsignedManifest, cx.verifies key.publicKey unsigned (cx.sign unsigned) = true

/-- Captures of one mirror, one after another, and no deletions. -/
def Capturing (settings : Settings) (occurring : Occurring) (targetId mirrorId : Uuid) (s : State)
    (label : Label) : Prop :=
  (machine settings).Alone s label ∧ Publishes settings occurring s label ∧
    match label with
    | .start _ (.capture request) =>
      request.source.targetId = targetId ∧ request.source.mirrorId = mirrorId
    | .start _ _ => False
    | _ => True

/-- A mirror without snapshots, in a catalogue whose ids are used and a store of occurring
blobs. -/
structure Unrecorded (occurring : Occurring) (targetId mirrorId : Uuid) (db : Db)
    (storage : Storage) (fresh : ℕ) : Prop where
  history : db.history targetId mirrorId = []
  manifests : ∀ row ∈ db.manifests, row.snapshotId < fresh
  stored : ∀ digest bytes, storage.blobs.files digest = some bytes → bytes ∈ occurring.blobs

/-- The newest snapshot of the mirror verifies, after any number of captures. -/
def NewestVerifies (settings : Settings) (occurring : Occurring) (v : VerifierSettings)
    (targetId mirrorId : Uuid) (s₀ : State) : Prop :=
  ∀ s, Reach (machine settings).step (Capturing settings occurring targetId mirrorId) s₀ s →
    s.db.history targetId mirrorId ≠ [] →
    ∃ newest, s.db.newest? targetId mirrorId = some newest ∧
      Verifies settings.worker.crypto v s.db s.world newest.snapshotId

namespace Depth

section Order

/-- The order in which `snapshot_parent` reads the snapshots. -/
def Before (a b : Snapshot) : Prop := a.createdAt ≤ b.createdAt ∧ a.snapshotId < b.snapshotId

/-- Snapshots recorded one after another, before `now` and under used ids. -/
structure Ordered (history : List Snapshot) (now : Time) (fresh : ℕ) : Prop where
  pairwise : history.Pairwise Before
  past : ∀ s ∈ history, s.createdAt ≤ now ∧ s.snapshotId < fresh

variable {history : List Snapshot} {now now' : Time} {fresh fresh' : ℕ} {row : Snapshot}

theorem Ordered.mono (h : Ordered history now fresh) (hnow : now ≤ now') (hfresh : fresh ≤ fresh') :
    Ordered history now' fresh' := by
  refine ⟨h.pairwise, fun s hs => ?_⟩
  obtain ⟨hcreated, hid⟩ := h.past s hs
  exact ⟨le_trans hcreated hnow, Nat.lt_of_lt_of_le hid hfresh⟩

theorem Ordered.append (h : Ordered history now fresh) (hcreated : row.createdAt = now)
    (hid : row.snapshotId = fresh) : Ordered (history ++ [row]) now (fresh + 1) := by
  constructor
  · refine List.pairwise_append.mpr ⟨h.pairwise, List.pairwise_singleton _ _, fun s hs t ht => ?_⟩
    rw [List.mem_singleton.mp ht]
    unfold Before
    rw [hcreated, hid]
    exact h.past s hs
  · intro s hs
    rcases List.mem_append.mp hs with hold | hnew
    · exact (h.mono le_rfl (Nat.le_succ fresh)).past s hold
    · rw [List.mem_singleton.mp hnew, hcreated, hid]
      exact ⟨le_rfl, Nat.lt_succ_self fresh⟩

theorem laterSnapshot_of_before {a b : Snapshot} (h : Before a b) : Db.laterSnapshot a b = b := by
  unfold Db.laterSnapshot
  rw [if_pos]
  rcases Nat.lt_or_eq_of_le h.1 with hlt | heq
  · exact Or.inl hlt
  · exact Or.inr ⟨heq, h.2⟩

/-- The newest of snapshots recorded in order is the one recorded last. -/
theorem foldl_laterSnapshot {first : Snapshot} {rest : List Snapshot}
    (h : (first :: rest).Pairwise Before) :
    some (rest.foldl Db.laterSnapshot first) = (first :: rest).getLast? := by
  induction rest generalizing first with
  | nil => rfl
  | cons second rest ih =>
    have hfirst := List.rel_of_pairwise_cons h (List.mem_cons_self ..)
    rw [List.foldl_cons, laterSnapshot_of_before hfirst, ih (List.Pairwise.of_cons h),
      List.getLast?_cons_cons]

theorem newest?_of_ordered {db : Db} {targetId mirrorId : Uuid}
    (h : Ordered (db.history targetId mirrorId) now fresh) :
    db.newest? targetId mirrorId = (db.history targetId mirrorId).getLast? := by
  have hpairwise := h.pairwise
  unfold Db.newest?
  cases hhistory : db.history targetId mirrorId with
  | nil => rfl
  | cons first rest =>
    rw [hhistory] at hpairwise
    exact foldl_laterSnapshot hpairwise

end Order

section Aside

/-- Writes that touch neither snapshots nor manifests. -/
def Aside : Write → Prop
  | .insertSnapshot _ => False
  | .setSnapshotDeleted _ => False
  | .insertManifest _ => False
  | _ => True

theorem aside_applyAll (db : Db) {writes : List Write} (h : ∀ w ∈ writes, Aside w) :
    (db.applyAll writes).snapshots = db.snapshots ∧
      (db.applyAll writes).manifests = db.manifests := by
  refine foldl_invariant (I := fun d : Db => d.snapshots = db.snapshots ∧
    d.manifests = db.manifests) (fun d w hw hd => ?_) ⟨rfl, rfl⟩
  have hkind := h w hw
  cases w with
  | insertSnapshot row => exact hkind.elim
  | setSnapshotDeleted id => exact hkind.elim
  | insertManifest row => exact hkind.elim
  | _ => exact hd

theorem aside_operate {m : Moment} {db : Db} {o : Op} {locks : List Lock} {writes : List Write}
    (h : operate db m o = some (locks, writes)) : ∀ w ∈ writes, Aside w := by
  cases o with
  | createDeletionPlan request =>
    simp only [operate, createDeletionPlan] at h
    split_ifs at h <;> cases h <;> simp [Aside]
  | pinSnapshot snapshotId source sourceReference =>
    simp only [operate] at h
    split_ifs at h <;> cases h <;> simp [Aside]
  | revokeSnapshotPin pinId =>
    simp only [operate] at h
    split at h <;> cases h
    simp [Aside]

end Aside

section Dates

variable {settings : Settings} {occurring : Occurring} {targetId mirrorId : Uuid}

/-- A session that is under way captures, in a transaction that began after all it sees. -/
def Seen (targetId mirrorId : Uuid) (db : Db) (clock : Time) (fresh : ℕ)
    (σ : Session Write Loc) : Prop :=
  σ.loc.isIdle = false → (∃ at_, σ.loc = .capture at_) ∧ σ.began.getD clock ≤ clock ∧
    Ordered ((db.applyAll σ.log).history targetId mirrorId) (σ.began.getD clock) fresh

structure Dated (targetId mirrorId : Uuid) (s : State) : Prop where
  recorded : Ordered (s.db.history targetId mirrorId) s.clock s.fresh
  seen : ∀ i, Seen targetId mirrorId s.db s.clock s.fresh (s.session i)

/-- A statement of a capture records a snapshot at the start of its transaction, or none. -/
theorem history_stmt {m : Moment} {db : Db} {storage : Storage} {io : IoResult} {at_ : CaptureLoc}
    {locks : List Lock} {writes : List Write} {next : Loc}
    (h : Ordered (db.history targetId mirrorId) m.now m.fresh)
    (hact : act settings (.capture at_) m db storage io = some (.stmt locks writes next)) :
    Ordered ((db.applyAll writes).history targetId mirrorId) m.now (m.fresh + 1) := by
  have hkept := h.mono le_rfl (Nat.le_succ m.fresh)
  obtain ⟨n, rfl, hstmt⟩ := act_capture_stmt hact
  cases hstmt with
  | @insertSnapshot built row hid htarget hmirror hparent hstatus hrefs hlfs =>
    have hcreated : row.createdAt = m.now := by
      simp only [act, captureSnapshot, Option.map_some, Action.map, Option.some.injEq,
        Action.stmt.injEq, List.cons.injEq, Write.insertSnapshot.injEq] at hact
      rw [← hact.2.1.1]
    unfold Db.history Db.applyAll
    simp only [List.foldl_cons, List.foldl_nil, Db.apply, List.filter_append]
    rw [List.filter_singleton]
    cases row.targetId == targetId && row.mirrorId == mirrorId with
    | true => exact h.append hcreated hid
    | false =>
      rw [cond_false, List.append_nil]
      exact hkept
  | _ => exact hkept

theorem Dated.moved {s s' : State} {i : ℕ} {σ : Session Write Loc}
    (hidle : ∀ j, j ≠ i → (s.session j).loc.isIdle = true)
    (hsession : s'.session = (s.setSession i σ).session)
    (hrecorded : Ordered (s'.db.history targetId mirrorId) s'.clock s'.fresh)
    (hσ : Seen targetId mirrorId s'.db s'.clock s'.fresh σ) : Dated targetId mirrorId s' := by
  refine ⟨hrecorded, fun j => ?_⟩
  rw [hsession]
  by_cases hji : j = i
  · rw [hji, State.setSession_session_self]
    exact hσ
  · rw [State.setSession_session_of_ne hji]
    intro hbusy
    rw [hidle j hji] at hbusy
    cases hbusy

/-- Between transactions a session sees what is committed. -/
theorem seen_rest {db : Db} {clock : Time} {fresh : ℕ} {loc : Loc}
    (hloc : loc.isIdle = false → ∃ at_, loc = .capture at_)
    (h : Ordered (db.history targetId mirrorId) clock fresh) :
    Seen targetId mirrorId db clock fresh ⟨loc, [], none⟩ :=
  fun hbusy => ⟨hloc hbusy, le_rfl, h⟩

theorem dated_step : ∀ s l s', Dated targetId mirrorId s →
    Capturing settings occurring targetId mirrorId s l →
    (machine settings).step s l = some s' → Dated targetId mirrorId s' := by
  refine Machine.step_induction ?_ ?_ ?_ ?_ ?_ ?_ ?_ ?_ ?_
  · intro s i proc h hok _
    refine Dated.moved (i := i) hok.1 rfl h.recorded (seen_rest (fun _ => ?_) h.recorded)
    cases proc with
    | capture request => exact ⟨_, rfl⟩
    | _ => exact hok.2.2.elim
  · intro s i io locks writes next h hok hact _
    change act settings (s.session i).loc (s.moment i) _ s.world io = _ at hact
    obtain ⟨⟨at_, hloc⟩, hnow, hordered⟩ := h.seen i (busy_of_act hact)
    rw [hloc] at hact
    refine Dated.moved (i := i) hok.1 rfl (h.recorded.mono le_rfl (Nat.le_succ _)) fun _ => ?_
    refine ⟨?_, hnow, ?_⟩
    · obtain ⟨n, rfl, -⟩ := act_capture_stmt hact
      exact ⟨n, rfl⟩
    · rw [Db.applyAll_append]
      exact history_stmt hordered hact
  · intro s i io locks writes next h hok hact _
    change act settings (s.session i).loc (s.moment i) _ s.world io = _ at hact
    obtain ⟨⟨at_, hloc⟩, -, -⟩ := h.seen i (busy_of_act hact)
    rw [hloc] at hact
    obtain ⟨n, rfl, -, rfl, -⟩ := act_capture_auto hact
    have hrecorded := h.recorded.mono le_rfl (Nat.le_succ s.fresh)
    exact Dated.moved (i := i) hok.1 rfl hrecorded (seen_rest (fun _ => ⟨n, rfl⟩) hrecorded)
  · intro s i io next h hok hact
    change act settings (s.session i).loc (s.moment i) _ s.world io = _ at hact
    obtain ⟨⟨at_, hloc⟩, hnow, hordered⟩ := h.seen i (busy_of_act hact)
    rw [hloc] at hact
    obtain ⟨built, snapshotId, -, rfl⟩ := act_capture_commit hact
    have hrecorded := hordered.mono hnow le_rfl
    exact Dated.moved (i := i) hok.1 rfl hrecorded (seen_rest (fun _ => ⟨_, rfl⟩) hrecorded)
  · intro s i io next h hok hact
    change act settings (s.session i).loc (s.moment i) _ s.world io = _ at hact
    obtain ⟨⟨at_, hloc⟩, -, -⟩ := h.seen i (busy_of_act hact)
    rw [hloc] at hact
    obtain rfl := act_capture_rollback hact
    exact Dated.moved (i := i) hok.1 rfl h.recorded (seen_rest (fun _ => ⟨_, rfl⟩) h.recorded)
  · intro s i io world next h hok hact
    change act settings (s.session i).loc (s.moment i) _ s.world io = _ at hact
    obtain ⟨⟨at_, hloc⟩, -, -⟩ := h.seen i (busy_of_act hact)
    rw [hloc] at hact
    obtain ⟨reference, bytes, n, -, -, rfl⟩ := act_capture_call hact
    have hrecorded := h.recorded.mono le_rfl (Nat.le_succ s.fresh)
    exact Dated.moved (i := i) hok.1 rfl hrecorded (seen_rest (fun _ => ⟨_, rfl⟩) hrecorded)
  · intro s i h _
    refine ⟨h.recorded, fun j => ?_⟩
    by_cases hji : j = i
    · have hself : (Machine.afterRollback s i Loc.idle).session j = ⟨.idle, [], none⟩ := by
        rw [hji]
        exact State.setSession_session_self
      rw [hself]
      intro hbusy
      cases hbusy
    · have hsame : (Machine.afterRollback s i Loc.idle).session j = s.session j :=
        State.setSession_session_of_ne hji
      rw [hsame]
      exact h.seen j
  · intro s o locks writes h hok hop _
    obtain ⟨hsnapshots, -⟩ := aside_applyAll s.db (aside_operate hop)
    have hhistory : (s.db.applyAll writes).history targetId mirrorId
        = s.db.history targetId mirrorId := by
      unfold Db.history
      rw [hsnapshots]
    refine ⟨?_, fun j hbusy => ?_⟩
    · change Ordered ((s.db.applyAll writes).history targetId mirrorId) s.clock (s.fresh + 1)
      rw [hhistory]
      exact h.recorded.mono le_rfl (Nat.le_succ _)
    · have hidle : (s.session j).loc.isIdle = true := hok.1 j
      exact absurd (hidle.symm.trans hbusy) Bool.noConfusion
  · intro s n h _
    refine ⟨h.recorded.mono (Nat.le_add_right _ _) le_rfl, fun j hbusy => ?_⟩
    obtain ⟨hloc, hnow, hordered⟩ := h.seen j hbusy
    refine ⟨hloc, ?_, hordered.mono ?_ le_rfl⟩
    · cases hbegan : (s.session j).began with
      | none => exact le_rfl
      | some t =>
        rw [hbegan] at hnow
        exact le_trans hnow (Nat.le_add_right _ _)
    · cases hbegan : (s.session j).began with
      | none => exact Nat.le_add_right _ _
      | some t => exact le_rfl

end Dates

section Links

variable (cx : Crypto) (v : VerifierSettings) (targetId mirrorId : Uuid)

/-- The manifests of the mirror, newest first. -/
def links (db : Db) : List BlobRef :=
  ((db.history targetId mirrorId).filterMap fun s =>
    (db.manifest? s.snapshotId).map ManifestRow.reference).reverse

/-- A stored manifest that extends the chain, with all it names. -/
structure Extends (storage : Storage) (older : List BlobRef) (reference : BlobRef) : Prop where
  link : ∃ evidence, (v.on storage).loadManifest cx reference = .ok evidence ∧
    evidence.verifySignature cx v.trustedKeys = .ok () ∧ evidence.parentManifest = older.head?
  contents : ∀ evidence, (v.on storage).loadManifest cx reference = .ok evidence →
    ∀ content ∈ evidence.contents, (v.on storage).blobPasses cx content = true

/-- Every snapshot of the mirror has a stored manifest, which extends the chain before it. -/
structure Chained (occurring : Occurring) (db : Db) (storage : Storage) (fresh : ℕ) : Prop where
  complete : ∀ s ∈ db.history targetId mirrorId, (db.manifest? s.snapshotId).isSome = true
  manifests : ∀ row ∈ db.manifests, row.snapshotId < fresh
  extended : ∀ newer reference older, links targetId mirrorId db = newer ++ reference :: older →
    Extends cx v storage older reference
  stored : ∀ digest bytes, storage.blobs.files digest = some bytes → bytes ∈ occurring.blobs

variable {cx v targetId mirrorId} {occurring : Occurring} {db : Db} {storage storage' : Storage}
  {fresh : ℕ} {older : List BlobRef} {reference : BlobRef}

theorem loadManifest_kept (h : storage.blobs.Kept storage'.blobs) {evidence : SnapshotManifest}
    (hload : (v.on storage).loadManifest cx reference = .ok evidence) :
    (v.on storage').loadManifest cx reference = .ok evidence := by
  obtain ⟨bytes, hfile, -, -⟩ := ArtifactVerifier.file_of_loadManifest hload
  have hfile' : storage'.blobs.files reference.sha256 = storage.blobs.files reference.sha256 :=
    (h.files _ _ hfile).trans hfile.symm
  have hverify : storage'.blobs.verify cx reference = storage.blobs.verify cx reference :=
    LocalBlobStore.verify_congr cx h.maxBytes hfile'
  unfold ArtifactVerifier.loadManifest VerifierSettings.on at hload ⊢
  simp only at hload ⊢
  rw [hverify, hfile']
  exact hload

theorem blobPasses_iff {content : BlobRef} : (v.on storage).blobPasses cx content = true ↔
    storage.blobs.verify cx content = .ok () := by
  unfold ArtifactVerifier.blobPasses VerifierSettings.on
  cases hverify : storage.blobs.verify cx content with
  | error e => simp [Except.isOk, Except.toBool]
  | ok _ => simp [Except.isOk, Except.toBool]

theorem Extends.kept (h : Extends cx v storage older reference)
    (hkept : storage.blobs.Kept storage'.blobs) : Extends cx v storage' older reference := by
  obtain ⟨evidence, hload, htrusted, hparent⟩ := h.link
  have hload' := loadManifest_kept hkept hload
  refine ⟨⟨evidence, hload', htrusted, hparent⟩, fun evidence' hevidence content hcontent => ?_⟩
  obtain rfl := Except.ok.inj (hload'.symm.trans hevidence)
  rw [blobPasses_iff]
  exact hkept.verify cx (blobPasses_iff.mp (h.contents evidence hload content hcontent))

/-- The manifests of a mirror are linked. -/
theorem Chained.linked (h : Chained cx v targetId mirrorId occurring db storage fresh) :
    Links cx v.trustedKeys ((v.on storage).loadManifest cx) (links targetId mirrorId db) := by
  have hsuffix : ∀ references newer, links targetId mirrorId db = newer ++ references →
      Links cx v.trustedKeys ((v.on storage).loadManifest cx) references := by
    intro references
    induction references with
    | nil => exact fun _ _ => trivial
    | cons reference older ih =>
      intro newer heq
      refine ⟨(h.extended newer reference older heq).link, ih (newer ++ [reference]) ?_⟩
      rw [heq, List.append_assoc, List.singleton_append]
  exact hsuffix _ [] rfl

theorem Chained.length_links (h : Chained cx v targetId mirrorId occurring db storage fresh) :
    (links targetId mirrorId db).length = (db.history targetId mirrorId).length := by
  unfold links
  rw [List.length_reverse]
  refine List.filterMap_length_eq_length.mpr ?_
  intro s hs
  rw [Option.isSome_map]
  exact h.complete s hs

/-- The first link is the manifest of the snapshot recorded last. -/
theorem Chained.head?_links (h : Chained cx v targetId mirrorId occurring db storage fresh)
    {newest : Snapshot} (hnewest : (db.history targetId mirrorId).getLast? = some newest) :
    ∃ row older, db.manifest? newest.snapshotId = some row ∧
      links targetId mirrorId db = row.reference :: older := by
  obtain ⟨earlier, hhistory⟩ := List.getLast?_eq_some_iff.mp hnewest
  have hmem : newest ∈ db.history targetId mirrorId := List.mem_of_getLast? hnewest
  obtain ⟨row, hrow⟩ := Option.isSome_iff_exists.mp (h.complete newest hmem)
  refine ⟨row, (earlier.filterMap fun s =>
    (db.manifest? s.snapshotId).map ManifestRow.reference).reverse, hrow, ?_⟩
  unfold links
  rw [hhistory, List.filterMap_append, List.reverse_append]
  simp [hrow]

/-- The chain of the newest snapshot is the whole history, so only its length can be in the way of
its verification. -/
theorem verifies_iff (h : Chained cx v targetId mirrorId occurring db storage fresh)
    {newest : Snapshot} (hnewest : (db.history targetId mirrorId).getLast? = some newest) :
    Verifies cx v db storage newest.snapshotId ↔
      (db.history targetId mirrorId).length ≤ v.maxChainDepth := by
  obtain ⟨row, older, hrow, hlinks⟩ := h.head?_links hnewest
  obtain ⟨⟨evidence, hload, -, -⟩, hcontents⟩ := h.extended [] row.reference older hlinks
  have hlength : older.length + 1 = (db.history targetId mirrorId).length := by
    rw [← h.length_links, hlinks, List.length_cons]
  have hlinked := h.linked
  rw [hlinks] at hlinked
  have hnodup := hlinked.nodup fun a b m n ha hb hsha => by
    obtain ⟨bytes, hfile, -, hdecode⟩ := ArtifactVerifier.file_of_loadManifest ha
    obtain ⟨bytes', hfile', -, hdecode'⟩ := ArtifactVerifier.file_of_loadManifest hb
    rw [← hsha, hfile] at hfile'
    rw [← Option.some.inj hfile', hdecode] at hdecode'
    exact Option.some.inj hdecode'
  have hwalk : (v.on storage).chain cx row.reference
      = if older.length < v.maxChainDepth then .ok (row.reference :: older)
        else .error .chainTooDeep :=
    verifyManifestChainFrom_links hlinked hnodup (by simp)
  unfold Verifies
  constructor
  · rintro ⟨row', hrow', hpasses⟩
    obtain rfl := Option.some.inj (hrow.symm.trans hrow')
    obtain ⟨_, references, -, hchain, -⟩ := ArtifactVerifier.passes_iff.mp hpasses
    rw [hwalk] at hchain
    split_ifs at hchain with hdepth
    omega
  · intro hdepth
    have hshort : older.length < v.maxChainDepth := by omega
    refine ⟨row, hrow, ArtifactVerifier.passes_iff.mpr ⟨evidence, row.reference :: older, hload, ?_,
      hcontents evidence hload⟩⟩
    rw [hwalk, if_pos hshort]

end Links

section Captures

variable (cx : Crypto) (v : VerifierSettings) (targetId mirrorId : Uuid)

def OfMirror (source : SnapshotSource) : Prop :=
  source.targetId = targetId ∧ source.mirrorId = mirrorId

/-- What has been published is stored. -/
def Published (storage : Storage) (references : List BlobRef) : Prop :=
  ∀ reference ∈ references, storage.blobs.verify cx reference = .ok ()

/-- The transaction has appended the snapshot to the mirror. -/
structure Appended (db view : Db) (snapshotId : Uuid) : Prop where
  history : ∃ row : Snapshot, row.snapshotId = snapshotId ∧
    view.history targetId mirrorId = db.history targetId mirrorId ++ [row]
  unused : ∀ row ∈ db.manifests, row.snapshotId ≠ snapshotId

/-- `db` is what is committed and `view` what the capture sees. -/
def CaptureAt (db view : Db) (storage : Storage) (fresh : ℕ) : CaptureLoc → Prop
  | .publishLfs request objects _ =>
      view = db ∧ OfMirror targetId mirrorId request.source ∧ Published cx storage objects
  | .selectSource request objects =>
      view = db ∧ OfMirror targetId mirrorId request.source ∧ Published cx storage objects
  | .selectParent request objects =>
      view = db ∧ OfMirror targetId mirrorId request.source ∧ Published cx storage objects
  | .publishBundle request objects parent =>
      view = db ∧ OfMirror targetId mirrorId request.source ∧ Published cx storage objects ∧
        parent.map (·.manifest) = (links targetId mirrorId db).head?
  | .publishManifest request objects parent bundle =>
      view = db ∧ OfMirror targetId mirrorId request.source ∧
        Published cx storage (bundle :: objects) ∧
        parent.map (·.manifest) = (links targetId mirrorId db).head?
  | .recordSource built =>
      view = db ∧ OfMirror targetId mirrorId built.source ∧
        Extends cx v storage (links targetId mirrorId db) built.manifest
  | .recordParent built =>
      view = db ∧ OfMirror targetId mirrorId built.source ∧
        Extends cx v storage (links targetId mirrorId db) built.manifest
  | .insertSnapshot built =>
      view = db ∧ OfMirror targetId mirrorId built.source ∧
        Extends cx v storage (links targetId mirrorId db) built.manifest
  | .artifactStart built snapshotId _ =>
      view.manifests = db.manifests ∧ Appended targetId mirrorId db view snapshotId ∧
        Extends cx v storage (links targetId mirrorId db) built.manifest ∧ snapshotId < fresh
  | .artifactLock built snapshotId _ _ _ _ =>
      view.manifests = db.manifests ∧ Appended targetId mirrorId db view snapshotId ∧
        Extends cx v storage (links targetId mirrorId db) built.manifest ∧ snapshotId < fresh
  | .insertManifest built snapshotId =>
      view.manifests = db.manifests ∧ Appended targetId mirrorId db view snapshotId ∧
        Extends cx v storage (links targetId mirrorId db) built.manifest ∧ snapshotId < fresh
  | .commit built snapshotId =>
      (∃ row : ManifestRow, row.snapshotId = snapshotId ∧ row.reference = built.manifest ∧
        view.manifests = db.manifests ++ [row]) ∧
        Appended targetId mirrorId db view snapshotId ∧
        Extends cx v storage (links targetId mirrorId db) built.manifest ∧ snapshotId < fresh
  | .finished _ => True

def SessionAt (db : Db) (storage : Storage) (fresh : ℕ) (log : List Write) (loc : Loc) : Prop :=
  loc.isIdle = false →
    ∃ at_, loc = .capture at_ ∧
      CaptureAt cx v targetId mirrorId db (db.applyAll log) storage fresh at_

variable {cx v targetId mirrorId} {occurring : Occurring} {db view : Db}
  {storage storage' : Storage} {fresh : ℕ} {m : Moment} {locks : List Lock} {writes : List Write}

theorem Published.kept {references : List BlobRef} (h : Published cx storage references)
    (hkept : storage.blobs.Kept storage'.blobs) : Published cx storage' references :=
  fun reference hmem => hkept.verify cx (h reference hmem)

theorem Chained.kept (h : Chained cx v targetId mirrorId occurring db storage fresh)
    {fresh' : ℕ} (hfresh : fresh ≤ fresh') (hkept : storage.blobs.Kept storage'.blobs)
    (hstored : ∀ digest bytes, storage'.blobs.files digest = some bytes →
      bytes ∈ occurring.blobs) :
    Chained cx v targetId mirrorId occurring db storage' fresh' := by
  refine ⟨h.complete, fun row hrow => Nat.lt_of_lt_of_le (h.manifests row hrow) hfresh, ?_,
    hstored⟩
  intro newer reference older hlinks
  exact (h.extended newer reference older hlinks).kept hkept

theorem Chained.mono (h : Chained cx v targetId mirrorId occurring db storage fresh)
    {fresh' : ℕ} (hfresh : fresh ≤ fresh') :
    Chained cx v targetId mirrorId occurring db storage fresh' :=
  h.kept hfresh (.refl _) h.stored

/-- The parent a capture selects is the newest link. -/
theorem snapshotParent?_links {now : Time} {source : SnapshotSource}
    (h : Chained cx v targetId mirrorId occurring db storage fresh)
    (hordered : Ordered (db.history targetId mirrorId) now fresh)
    (hsource : OfMirror targetId mirrorId source) :
    (db.snapshotParent? source).map (·.manifest) = (links targetId mirrorId db).head? := by
  have hcandidates : (db.snapshots.filter fun s =>
      s.targetId == source.targetId && s.mirrorId == source.mirrorId &&
        db.manifests.any fun row => row.snapshotId == s.snapshotId)
      = db.history targetId mirrorId := by
    unfold Db.history
    rw [hsource.1, hsource.2]
    refine List.filter_congr fun s hs => ?_
    cases hmatch : s.targetId == targetId && s.mirrorId == mirrorId with
    | false => rfl
    | true =>
      have hcomplete := h.complete s (List.mem_filter.mpr ⟨hs, hmatch⟩)
      unfold Db.manifest? at hcomplete
      rw [List.find?_isSome] at hcomplete
      exact List.any_eq_true.mpr hcomplete
  have hpairwise := hordered.pairwise
  unfold Db.snapshotParent?
  simp only [hcandidates]
  cases hhistory : db.history targetId mirrorId with
  | nil => simp [links, hhistory]
  | cons first rest =>
    rw [hhistory] at hpairwise
    have hnewest := foldl_laterSnapshot hpairwise
    rw [← hhistory] at hnewest
    obtain ⟨row, older, hrow, hlinks⟩ := h.head?_links hnewest.symm
    unfold Db.manifest? at hrow
    simp only [hrow, hlinks]
    rfl

theorem captureAt_stmt {at_ n : CaptureLoc} (hfresh : m.fresh = fresh)
    (h : Chained cx v targetId mirrorId occurring db storage fresh)
    (hat : CaptureAt cx v targetId mirrorId db view storage fresh at_)
    (hstmt : CaptureStmt m view at_ locks writes n) :
    CaptureAt cx v targetId mirrorId db (view.applyAll writes) storage (fresh + 1) n := by
  cases hstmt with
  | recordSource => exact hat
  | recordParent => exact hat
  | @insertSnapshot built row hid htarget hmirror hparent hstatus hrefs hlfs =>
    obtain ⟨rfl, hsource, hextends⟩ := hat
    have hmatch : (row.targetId == targetId && row.mirrorId == mirrorId) = true := by
      simp [htarget, hmirror, hsource.1, hsource.2]
    refine ⟨rfl, ⟨⟨row, hid, ?_⟩, fun mrow hmrow => ?_⟩, hextends, ?_⟩
    · unfold Db.history
      simp only [Db.applyAll, List.foldl_cons, List.foldl_nil, Db.apply, List.filter_append]
      rw [List.filter_singleton, hmatch, cond_true]
    · rw [hfresh]
      exact Nat.ne_of_lt (h.manifests mrow hmrow)
    · rw [hfresh]
      exact Nat.lt_succ_self fresh
  | artifactStart =>
    obtain ⟨hmanifests, happended, hextends, hid⟩ := hat
    exact ⟨hmanifests, happended, hextends, Nat.lt_succ_of_lt hid⟩
  | artifactsDone =>
    obtain ⟨hmanifests, happended, hextends, hid⟩ := hat
    exact ⟨hmanifests, happended, hextends, Nat.lt_succ_of_lt hid⟩
  | artifactLock =>
    obtain ⟨hmanifests, ⟨hhistory, hunused⟩, hextends, hid⟩ := hat
    exact ⟨hmanifests, ⟨hhistory, hunused⟩, hextends, Nat.lt_succ_of_lt hid⟩
  | @insertManifest built snapshotId =>
    obtain ⟨hmanifests, ⟨hhistory, hunused⟩, hextends, hid⟩ := hat
    have hinserted : (view.applyAll [.insertManifest
        { snapshotId
          manifestHash := built.manifest.sha256
          blobOwner := built.manifest.owner
          mediaType := built.manifest.mediaType
          sizeBytes := built.manifest.sizeBytes }]).manifests = _ ++ [_] := rfl
    rw [hmanifests] at hinserted
    exact ⟨⟨_, rfl, by rfl, hinserted⟩, ⟨hhistory, hunused⟩, hextends, Nat.lt_succ_of_lt hid⟩

/-- The links once the snapshot is committed. -/
theorem links_committed {built : BuiltSnapshot} {snapshotId : Uuid}
    (h : Chained cx v targetId mirrorId occurring db storage fresh)
    (hat : CaptureAt cx v targetId mirrorId db view storage fresh (.commit built snapshotId)) :
    links targetId mirrorId view = built.manifest :: links targetId mirrorId db ∧
      ∀ s ∈ view.history targetId mirrorId, (view.manifest? s.snapshotId).isSome = true := by
  obtain ⟨⟨mrow, hmid, hreference, hmanifests⟩, ⟨⟨row, hid, hhistory⟩, hunused⟩, -, -⟩ := hat
  have hold : ∀ s ∈ db.history targetId mirrorId,
      view.manifest? s.snapshotId = db.manifest? s.snapshotId := by
    intro s hs
    obtain ⟨found, hfound⟩ := Option.isSome_iff_exists.mp (h.complete s hs)
    unfold Db.manifest? at hfound ⊢
    rw [hmanifests, List.find?_append, hfound, Option.some_or]
  have hnew : view.manifest? row.snapshotId = some mrow := by
    have hnone : db.manifests.find? (fun r => r.snapshotId == row.snapshotId) = none := by
      rw [List.find?_eq_none]
      intro r hr
      simpa [hid] using hunused r hr
    unfold Db.manifest?
    rw [hmanifests, List.find?_append, hnone, Option.none_or]
    simp [hid, hmid]
  constructor
  · have hsame : (db.history targetId mirrorId).filterMap
        (fun s => (view.manifest? s.snapshotId).map ManifestRow.reference)
        = (db.history targetId mirrorId).filterMap
          fun s => (db.manifest? s.snapshotId).map ManifestRow.reference :=
      List.filterMap_congr fun s hs => by rw [hold s hs]
    unfold links
    rw [hhistory, List.filterMap_append, List.reverse_append, hsame]
    simp [hnew, hreference]
  · intro s hs
    rw [hhistory] at hs
    rcases List.mem_append.mp hs with hmem | hlast
    · rw [hold s hmem]
      exact h.complete s hmem
    · rw [List.mem_singleton.mp hlast, hnew]
      rfl

theorem chained_commit {built : BuiltSnapshot} {snapshotId : Uuid}
    (h : Chained cx v targetId mirrorId occurring db storage fresh)
    (hat : CaptureAt cx v targetId mirrorId db view storage fresh (.commit built snapshotId)) :
    Chained cx v targetId mirrorId occurring view storage fresh := by
  obtain ⟨hlinks, hcomplete⟩ := links_committed h hat
  obtain ⟨⟨mrow, hmid, -, hmanifests⟩, -, hextends, hid⟩ := hat
  refine ⟨hcomplete, fun row hrow => ?_, fun newer reference older heq => ?_, h.stored⟩
  · rw [hmanifests] at hrow
    rcases List.mem_append.mp hrow with hold | hnew
    · exact h.manifests row hold
    · rw [List.mem_singleton.mp hnew, hmid]
      exact hid
  · rw [hlinks] at heq
    cases newer with
    | nil =>
      obtain ⟨rfl, rfl⟩ := List.cons.inj heq
      exact hextends
    | cons first newer => exact h.extended newer reference older (List.cons.inj heq).2

theorem verify_publish {reference : BlobRef} {bytes : Bytes} {io : IoResult}
    (h : (publish cx storage reference bytes io).2 = true) :
    (publish cx storage reference bytes io).1.blobs.verify cx reference = .ok () := by
  unfold publish at h ⊢
  split at h
  · cases h
  · cases h
  · rename_i blobs _ hpublished
    exact LocalBlobStore.verify_publishFile cx storage.blobs hpublished

theorem kept_publish (cx : Crypto) (storage : Storage) (reference : BlobRef) (bytes : Bytes)
    (io : IoResult) :
    storage.blobs.Kept (publish cx storage reference bytes io).1.blobs := by
  unfold publish
  split
  · exact .refl _
  · exact .refl _
  · rename_i blobs _ hpublished
    exact LocalBlobStore.kept_publishFile cx storage.blobs hpublished

/-- A manifest that verifies in a store of occurring blobs is the one its digest is of. -/
theorem loadManifest_of_verify (hfaithful : occurring.Faithful cx) {evidence : SnapshotManifest}
    (hdigest : reference.sha256 = cx.sha256 (cx.encode evidence))
    (hencoded : cx.encode evidence ∈ occurring.blobs) (hoccurs : evidence ∈ occurring.manifests)
    (hstored : ∀ digest bytes, storage.blobs.files digest = some bytes → bytes ∈ occurring.blobs)
    (hverify : storage.blobs.verify cx reference = .ok ()) :
    (v.on storage).loadManifest cx reference = .ok evidence := by
  obtain ⟨bytes, hfile, hsha⟩ := storage.blobs.file_of_verify cx hverify
  have hbytes : bytes = cx.encode evidence :=
    hfaithful.injective (hstored _ _ hfile) hencoded (hsha.trans hdigest)
  unfold ArtifactVerifier.loadManifest VerifierSettings.on
  simp only [hverify, hfile, hbytes, hfaithful.decode_encode evidence hoccurs]

theorem sha256_of_referenceForFile {bytes : Bytes} {mediaType : String}
    (h : storage.blobs.referenceForFile cx bytes mediaType = .ok reference) :
    reference.sha256 = cx.sha256 bytes := by
  unfold LocalBlobStore.referenceForFile at h
  split_ifs at h
  cases h
  rfl

theorem mem_lfsEvidence {request : CaptureRequest} {objects : List BlobRef} {lfs : LfsEvidence}
    (hlfs : lfsEvidence cx request objects = some lfs) {object : LfsObjectEvidence}
    (hobject : object ∈ lfs.objects) : object.blob ∈ objects := by
  obtain ⟨_, -, rfl⟩ := Option.map_eq_some_iff.mp hlfs
  obtain ⟨blob, hblob, rfl⟩ := List.mem_map.mp ((List.mem_mergeSort).mp hobject)
  exact hblob

/-- A new manifest of published blobs extends the chain it was made for. -/
theorem extends_new {settings : SnapshotSettings} {request : CaptureRequest}
    {objects : List BlobRef} {parent : Option BlobRef} {bundle : BlobRef}
    {evidence : SnapshotManifest} (htrusts : v.Trusts cx settings.signer)
    (hnew : SnapshotManifest.new cx settings.generatorVersion request.refs [bundle] parent
      request.createdAt (lfsEvidence cx request objects) settings.signer = .ok evidence)
    (hload : (v.on storage).loadManifest cx reference = .ok evidence)
    (hpublished : Published cx storage (bundle :: objects)) (hparent : parent = older.head?) :
    Extends cx v storage older reference := by
  obtain ⟨-, hbundles, hlinked, hlfs, hsigner, hsignature⟩ := SnapshotManifest.new_spec hnew
  obtain ⟨key, hkey, hverifies⟩ := htrusts
  refine ⟨⟨evidence, hload, ?_, hlinked.trans hparent⟩, fun evidence' hevidence' content hmem => ?_⟩
  · unfold SnapshotManifest.verifySignature
    simp only [hsigner, hkey, hsignature, hverifies, if_true]
  · obtain rfl := Except.ok.inj (hload.symm.trans hevidence')
    rw [blobPasses_iff]
    refine hpublished content ?_
    unfold SnapshotManifest.contents at hmem
    rw [hbundles, hlfs] at hmem
    rcases List.mem_append.mp hmem with hbundle | hobject
    · exact List.mem_cons.mpr (Or.inl (List.mem_singleton.mp hbundle))
    · refine List.mem_cons_of_mem _ ?_
      cases hcollected : lfsEvidence cx request objects with
      | none =>
        rw [hcollected] at hobject
        cases hobject
      | some lfs =>
        rw [hcollected] at hobject
        obtain ⟨object, hin, rfl⟩ := List.mem_map.mp hobject
        exact mem_lfsEvidence hcollected hin

theorem captureAt_publish {settings : SnapshotSettings} (hfaithful : occurring.Faithful cx)
    (htrusts : v.Trusts cx settings.signer) {bytes : Bytes} {at_ n : CaptureLoc} {io : IoResult}
    (hstored : ∀ digest stored, storage.blobs.files digest = some stored →
      stored ∈ occurring.blobs)
    (hat : CaptureAt cx v targetId mirrorId db view storage fresh at_)
    (hpublish : CapturePublish cx settings storage at_ reference bytes n)
    (hblob : bytes ∈ occurring.blobs)
    (hmanifest : ∀ built, n = .recordSource built → built.evidence ∈ occurring.manifests)
    (hdone : (publish cx storage reference bytes io).2 = true) :
    CaptureAt cx v targetId mirrorId db db (publish cx storage reference bytes io).1 (fresh + 1)
      n := by
  have hkept := kept_publish cx storage reference bytes io
  have hverify := verify_publish hdone
  cases hpublish with
  | lfs href =>
    obtain ⟨-, hsource, hobjects⟩ := hat
    refine ⟨rfl, hsource, fun object hobject => ?_⟩
    rcases List.mem_append.mp hobject with hold | hnew
    · exact hobjects.kept hkept object hold
    · rw [List.mem_singleton.mp hnew]
      exact hverify
  | bundle href =>
    obtain ⟨-, hsource, hobjects, hparent⟩ := hat
    refine ⟨rfl, hsource, fun object hobject => ?_, hparent⟩
    rcases List.mem_cons.mp hobject with hbundle | hold
    · rw [hbundle]
      exact hverify
    · exact hobjects.kept hkept object hold
  | manifest hevidence href =>
    obtain ⟨-, hsource, hpublished, hparent⟩ := hat
    have hload := loadManifest_of_verify (v := v) hfaithful (sha256_of_referenceForFile href) hblob
      (hmanifest _ rfl) (Chains.stored_publish cx reference io hstored hblob) hverify
    exact ⟨rfl, hsource, extends_new htrusts hevidence hload (hpublished.kept hkept) hparent⟩

end Captures

section Reached

variable {settings : Settings} {occurring : Occurring} {v : VerifierSettings}
  {targetId mirrorId : Uuid}

theorem sessionAt_idle {cx : Crypto} {db : Db} {storage : Storage} {fresh : ℕ} {log : List Write}
    {loc : Loc} (h : loc.isIdle = true) :
    SessionAt cx v targetId mirrorId db storage fresh log loc :=
  fun hbusy => absurd (h.symm.trans hbusy) Bool.noConfusion

theorem captureAt_auto {cx : Crypto} {db view : Db} {storage : Storage} {fresh : ℕ} {now : Time}
    {at_ n : CaptureLoc} (h : Chained cx v targetId mirrorId occurring db storage fresh)
    (hordered : Ordered (db.history targetId mirrorId) now fresh)
    (hat : CaptureAt cx v targetId mirrorId db view storage fresh at_)
    (hauto : CaptureAuto view at_ n) :
    CaptureAt cx v targetId mirrorId db db storage (fresh + 1) n := by
  cases hauto with
  | collected => exact ⟨rfl, hat.2⟩
  | selectSource => exact ⟨rfl, hat.2⟩
  | selectParent =>
    obtain ⟨rfl, hsource, hobjects⟩ := hat
    exact ⟨rfl, hsource, hobjects, snapshotParent?_links h hordered hsource⟩

/-- The chain of the mirror, and what its capture is about to add. -/
def Inv (settings : Settings) (occurring : Occurring) (v : VerifierSettings)
    (targetId mirrorId : Uuid) : State → Prop :=
  Machine.Serial (Chained settings.worker.crypto v targetId mirrorId occurring)
    (SessionAt settings.worker.crypto v targetId mirrorId)

theorem inv_step (hfaithful : occurring.Faithful settings.worker.crypto)
    (htrusts : v.Trusts settings.worker.crypto settings.capture.signer) :
    ∀ s l s', Inv settings occurring v targetId mirrorId s →
      Capturing settings occurring targetId mirrorId s l ∧ Dated targetId mirrorId s →
      (machine settings).step s l = some s' → Inv settings occurring v targetId mirrorId s' := by
  refine Machine.Serial.step (fun _ _ hok => hok.1.1) (fun _ _ _ _ _ hidle => sessionAt_idle hidle)
    rfl ?_ ?_ ?_ ?_ ?_ ?_ ?_
  · intro s i proc _ hok _
    cases proc with
    | capture request => exact ⟨_, rfl, rfl, hok.1.2.2, fun _ hmem => absurd hmem List.not_mem_nil⟩
    | _ => exact hok.1.2.2.elim
  · intro s i io locks writes next hG _ hS hact
    change act settings (s.session i).loc (s.moment i) _ s.world io = _ at hact
    obtain ⟨at_, hloc, hat⟩ := hS (busy_of_act hact)
    rw [hloc] at hact
    obtain ⟨n, rfl, hstmt⟩ := act_capture_stmt hact
    refine ⟨hG.mono (Nat.le_succ _), fun _ => ⟨n, rfl, ?_⟩⟩
    rw [Db.applyAll_append]
    exact captureAt_stmt rfl hG hat hstmt
  · intro s i io locks writes next hG hok hS hact
    change act settings (s.session i).loc (s.moment i) _ s.world io = _ at hact
    obtain ⟨at_, hloc, hat⟩ := hS (busy_of_act hact)
    rw [hloc] at hact
    obtain ⟨n, rfl, -, rfl, hauto⟩ := act_capture_auto hact
    exact ⟨hG.mono (Nat.le_succ _),
      fun _ => ⟨n, rfl, captureAt_auto hG hok.2.recorded hat hauto⟩⟩
  · intro s i io next hG _ hS hact
    change act settings (s.session i).loc (s.moment i) _ s.world io = _ at hact
    obtain ⟨at_, hloc, hat⟩ := hS (busy_of_act hact)
    rw [hloc] at hact
    obtain ⟨built, snapshotId, rfl, rfl⟩ := act_capture_commit hact
    exact ⟨chained_commit hG hat, fun _ => ⟨_, rfl, trivial⟩⟩
  · intro s i io next hG _ hS hact
    change act settings (s.session i).loc (s.moment i) _ s.world io = _ at hact
    obtain ⟨at_, hloc, -⟩ := hS (busy_of_act hact)
    rw [hloc] at hact
    obtain rfl := act_capture_rollback hact
    exact fun _ => ⟨_, rfl, trivial⟩
  · intro s i io world next hG hok hS hact
    change act settings (s.session i).loc (s.moment i) _ s.world io = _ at hact
    obtain ⟨at_, hloc, hat⟩ := hS (busy_of_act hact)
    rw [hloc] at hact
    obtain ⟨reference, bytes, n, hpublish, rfl, rfl⟩ := act_capture_call hact
    obtain ⟨hblob, hmanifest⟩ := hok.1.2.1 at_ reference bytes n hloc hpublish
    refine ⟨hG.kept (Nat.le_succ _) (kept_publish _ _ _ _ _)
      (Chains.stored_publish _ reference io hG.stored hblob), fun _ => ⟨_, rfl, ?_⟩⟩
    split_ifs with hdone
    · exact captureAt_publish hfaithful htrusts hG.stored hat hpublish hblob hmanifest hdone
    · trivial
  · intro s o locks writes hG _ hop
    obtain ⟨hsnapshots, hmanifests⟩ := aside_applyAll s.db (aside_operate hop)
    have hhistory : (s.db.applyAll writes).history targetId mirrorId
        = s.db.history targetId mirrorId := by
      unfold Db.history
      rw [hsnapshots]
    have hmanifest : ∀ id, (s.db.applyAll writes).manifest? id = s.db.manifest? id := by
      intro id
      unfold Db.manifest?
      rw [hmanifests]
    have hlinks : links targetId mirrorId (s.db.applyAll writes) = links targetId mirrorId s.db := by
      unfold links
      simp only [hhistory, hmanifest]
    have hkept := hG.mono (Nat.le_succ s.fresh)
    change Chained settings.worker.crypto v targetId mirrorId occurring (s.db.applyAll writes)
      s.world (s.fresh + 1)
    refine ⟨fun t ht => ?_, fun row hrow => ?_, fun newer reference older heq => ?_, hkept.stored⟩
    · rw [hmanifest]
      exact hkept.complete t (hhistory ▸ ht)
    · exact hkept.manifests row (hmanifests ▸ hrow)
    · exact hkept.extended newer reference older (hlinks.symm.trans heq)

end Reached

end Depth

section

variable {settings : Settings} {occurring : Occurring} {v : VerifierSettings}
  {targetId mirrorId : Uuid} {db : Db} {storage : Storage} {fresh : ℕ} {s : State}

/-- After `n` captures of a mirror its newest snapshot verifies exactly when the verifier walks
`n` manifests. -/
theorem newest_verifies_iff (hfaithful : occurring.Faithful settings.worker.crypto)
    (htrusts : v.Trusts settings.worker.crypto settings.capture.signer)
    (h : Unrecorded occurring targetId mirrorId db storage fresh) (clock : ℕ)
    (hreach : Reach (machine settings).step (Capturing settings occurring targetId mirrorId)
      (initial db storage clock fresh) s) (hsome : s.db.history targetId mirrorId ≠ []) :
    ∃ newest, s.db.newest? targetId mirrorId = some newest ∧
      (Verifies settings.worker.crypto v s.db s.world newest.snapshotId ↔
        (s.db.history targetId mirrorId).length ≤ v.maxChainDepth) := by
  have hdated₀ : Depth.Dated targetId mirrorId (initial db storage clock fresh) := by
    refine ⟨?_, fun i hbusy => by cases hbusy⟩
    change Depth.Ordered (db.history targetId mirrorId) clock fresh
    rw [h.history]
    exact ⟨List.Pairwise.nil, fun s hs => absurd hs List.not_mem_nil⟩
  have hdated := hreach.invariant hdated₀ Depth.dated_step
  have hlinks₀ : Depth.links targetId mirrorId db = [] := by
    unfold Depth.links
    rw [h.history]
    rfl
  have hchained₀ : Depth.Chained settings.worker.crypto v targetId mirrorId occurring db storage
      fresh := by
    refine ⟨?_, h.manifests, fun newer reference older heq => ?_, h.stored⟩
    · rw [h.history]
      exact fun s hs => absurd hs List.not_mem_nil
    · rw [hlinks₀] at heq
      exact absurd heq (by simp)
  have hinv : Depth.Inv settings occurring v targetId mirrorId s :=
    (hreach.strengthen hdated₀ Depth.dated_step).invariant
      ⟨hchained₀, fun _ => Depth.sessionAt_idle rfl⟩ (Depth.inv_step hfaithful htrusts)
  obtain ⟨newest, hnewest⟩ : ∃ newest, (s.db.history targetId mirrorId).getLast? = some newest :=
    Option.isSome_iff_exists.mp (List.getLast?_isSome.mpr hsome)
  exact ⟨newest, (Depth.newest?_of_ordered hdated.recorded).trans hnewest,
    Depth.verifies_iff hinv.shared hnewest⟩

end

namespace Sample

/-- A verifier that walks one manifest. -/
def shallow : VerifierSettings := { verifier with maxChainDepth := 1 }

/-- Two captures of one mirror. -/
def recaptured : List Label :=
  [.start 0 (.capture (captureOf [10]))] ++ List.replicate 15 (.exec 0 .ok) ++
    [.tick 1, .start 0 (.capture (captureOf [20]))] ++ List.replicate 15 (.exec 0 .ok)

theorem shallow_trusts : shallow.Trusts settings.worker.crypto settings.capture.signer :=
  ⟨_, rfl, fun _ => rfl⟩

theorem unrecorded_mirrored : Unrecorded occurring 1 2 mirrored storage 100 := by
  refine ⟨rfl, ?_, ?_⟩
  · intro row hrow
    cases hrow
  · intro digest bytes hstored
    cases hstored

theorem along_recaptured : Along (machine settings).step (Capturing settings occurring 1 2)
    (initial mirrored storage 10 100) recaptured := by
  have halone : Along (machine settings).step (machine settings).Alone
      (initial mirrored storage 10 100) recaptured :=
    Machine.along_alone (n := 1) (fun _ _ => rfl) (by decide) (by decide +kernel)
  have hpublishes : Along (machine settings).step (Publishes settings occurring)
      (initial mirrored storage 10 100) recaptured :=
    along_of_meets publishes_of_check (by decide +kernel)
  exact halone.and (hpublishes.and (along_of_forall (by simp [recaptured, captureOf]) _))

theorem reach_recaptured : ∃ s, Reach (machine settings).step (Capturing settings occurring 1 2)
    (initial mirrored storage 10 100) s ∧ (s.db.history 1 2).length = 2 := by
  obtain ⟨s, hrun, hlength⟩ : ∃ s, run (machine settings).step
      (initial mirrored storage 10 100) recaptured = some s ∧
      ((s.db.history 1 2).length == 2) = true :=
    exists_of_run_any (by decide +kernel)
  exact ⟨s, Reach.of_run hrun along_recaptured, beq_iff_eq.mp hlength⟩

end Sample

/-- The second of two snapshots does not verify where the walk ends after one manifest. -/
theorem second_snapshot_too_deep :
    Sample.occurring.Faithful Sample.settings.worker.crypto ∧
      Sample.shallow.Trusts Sample.settings.worker.crypto Sample.settings.capture.signer ∧
      Unrecorded Sample.occurring 1 2 Sample.mirrored Sample.storage 100 ∧
      0 < Sample.shallow.maxChainDepth ∧
      ¬ NewestVerifies Sample.settings Sample.occurring Sample.shallow 1 2
        (initial Sample.mirrored Sample.storage 10 100) := by
  refine ⟨Sample.occurring_faithful, Sample.shallow_trusts, Sample.unrecorded_mirrored,
    by decide, fun h => ?_⟩
  obtain ⟨s, hrun, hs⟩ : ∃ s, run (machine Sample.settings).step
      (initial Sample.mirrored Sample.storage 10 100) Sample.recaptured = some s ∧
      (!(s.db.history 1 2).isEmpty && (s.db.newest? 1 2).all fun newest =>
        (s.db.manifest? newest.snapshotId).all fun row =>
          !(Sample.shallow.on s.world).passes Sample.settings.worker.crypto newest.snapshotId
            row.reference) = true :=
    exists_of_run_any (by decide +kernel)
  rw [Bool.and_eq_true] at hs
  have hsome : s.db.history 1 2 ≠ [] := by
    intro hnil
    rw [hnil] at hs
    cases hs.1
  obtain ⟨newest, hnewest, row, hrow, hpasses⟩ :=
    h s (Reach.of_run hrun Sample.along_recaptured) hsome
  have hfails := hs.2
  simp only [hnewest, hrow, Option.all_some, hpasses] at hfails
  cases hfails

theorem newest_verifies_iff_recaptured : ∃ s : State, (s.db.history 1 2).length = 2 ∧
    ∃ newest, s.db.newest? 1 2 = some newest ∧
      (Verifies Sample.settings.worker.crypto Sample.shallow s.db s.world newest.snapshotId ↔
        (s.db.history 1 2).length ≤ Sample.shallow.maxChainDepth) := by
  obtain ⟨s, hreach, hlength⟩ := Sample.reach_recaptured
  have hsome : s.db.history 1 2 ≠ [] := by
    intro hnil
    rw [hnil] at hlength
    cases hlength
  exact ⟨s, hlength, newest_verifies_iff Sample.occurring_faithful Sample.shallow_trusts
    Sample.unrecorded_mirrored 10 hreach hsome⟩

end Retention

end RatatoskrVault
