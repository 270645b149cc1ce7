import RatatoskrVault.Lib.Keys
import RatatoskrVault.Vault.Convergence

/-! The ingestion of a set of deliveries, in any order: each leaves its revision and the highest
governs, as long as no two of them bring one repository the same revision number. -/
namespace RatatoskrVault

open Lib

/-- The target a first delivery enrolls. -/
def IncomingDelivery.targetRow (message : IncomingDelivery) (targetId : Uuid) : Target :=
  { targetId
    provider := message.provider
    externalRepositoryId := message.externalRepositoryId
    status := .requested }

/-- The last statement of `ingest_delivery`: a row of the same number is left as it is. -/
def Db.recordRevision (db : Db) (targetId : Uuid) (policyRevision : ℕ)
    (delivery : ValidatedDelivery) (source : String) : Except VaultError Db :=
  let row := revisionRow targetId policyRevision delivery (some source)
  if !row.allowed then .error .storageFailed
  else if db.hasRevision targetId policyRevision then .ok db
  else if (db.target? targetId).isSome then .ok (db.apply (.insertRevision row))
  else .error .storageFailed

/-- `ingest_delivery` as one transaction; `fresh` and its successor are the identifiers it draws
for a target and its event. -/
def Db.ingestDelivery (db : Db) (fresh : Uuid) (message : IncomingDelivery) :
    Except VaultError Db :=
  match validateDelivery message.delivery with
  | .error e => .error e
  | .ok delivery =>
    match governedInputs delivery with
    | .error e => .error e
    | .ok policyRevision =>
      if !message.inboxRow.allowed then .error .storageFailed
      else if db.inbox.contains message.inboxRow then .error .duplicateDelivery
      else if !(message.targetRow fresh).allowed then .error .storageFailed
      else
        let claimed := db.apply (.insertInbox message.inboxRow)
        match db.repositoryTarget? message.provider message.externalRepositoryId with
        | some target =>
          claimed.recordRevision target.targetId policyRevision delivery message.source
        | none =>
          let event : OutboxRow :=
            { eventId := fresh + 1
              event := .stateChanged fresh none .requested policyRevision
                delivery.correlationId }
          ((claimed.apply (.insertTarget (message.targetRow fresh))).apply
            (.insertOutbox event)).recordRevision fresh policyRevision delivery message.source

/-- The deliveries one after the other. -/
def Db.ingestAll (db : Db) (fresh : Uuid) : List IncomingDelivery → Except VaultError Db
  | [] => .ok db
  | message :: rest =>
    match db.ingestDelivery fresh message with
    | .error e => .error e
    | .ok db => db.ingestAll (fresh + 2) rest

/-- The constraints of the tables a delivery is written to. -/
structure IncomingDelivery.Fits (message : IncomingDelivery) : Prop where
  source : 1 ≤ message.source.length ∧ message.source.length ≤ 64
  repository : message.provider = "github" ∧ 1 ≤ message.externalRepositoryId.length ∧
    message.externalRepositoryId.length ≤ 255
  policyRevision : message.delivery.policyRevision ≠ some 0
  correlation : message.delivery.correlationId.length ≤ 256
  storable : isStorable message.source = true ∧ isStorable message.externalRepositoryId = true ∧
    isStorable message.delivery.correlationId = true

/-- A delivery that passes the boundary and every constraint of the tables. -/
structure IncomingDelivery.Valid (message : IncomingDelivery) : Prop extends message.Fits where
  validated : ∃ delivery policyRevision, validateDelivery message.delivery = .ok delivery ∧
    governedInputs delivery = .ok policyRevision

/-- The row carries what the delivery brought. -/
structure Revision.Carries (row : Revision) (message : IncomingDelivery) : Prop where
  policyRevision : message.delivery.policyRevision = some row.policyRevision
  preservationLevel :
    PreservationLevel.parse message.delivery.preservationLevel = some row.preservationLevel
  pinned : row.pinned = message.delivery.pinned.getD false
  includeWiki : row.includeWiki = message.delivery.includeWiki.getD false
  includeReleases : row.includeReleases = message.delivery.includeReleases.getD false
  includeIssues : row.includeIssues = message.delivery.includeIssues.getD false
  offsiteRequired : row.offsiteRequired = message.delivery.offsiteRequired.getD false
  correlationId : row.correlationId = message.delivery.correlationId
  source : row.source = some message.source

/-- Every delivery has a revision row of its own, under the target of its repository. -/
def Db.KeepsEach (db : Db) (messages : List IncomingDelivery) : Prop :=
  ∃ row : IncomingDelivery → Revision,
    (∀ message ∈ messages, row message ∈ db.revisions ∧
      db.named? message = some (row message).targetId ∧ (row message).Carries message) ∧
    ∀ message ∈ messages, ∀ message' ∈ messages, row message = row message' → message = message'

/-- `governing_policy` of the target of a repository, apart from its identifier. -/
def Db.governs? (db : Db) (provider externalRepositoryId : String) : Option ValidatedDelivery :=
  (db.repositoryTarget? provider externalRepositoryId).bind fun target =>
    (db.governing? target.targetId).map governedRecord

/-- Repository and revision number. -/
def IncomingDelivery.revisionKey (message : IncomingDelivery) : String × String × Option ℕ :=
  (message.provider, message.externalRepositoryId, message.delivery.policyRevision)

/-- In every order all deliveries are accepted and kept, and every two orders agree on what
governs. -/
def LosesNothing (messages : List IncomingDelivery) (fresh : Uuid) : Prop :=
  ∀ order order' : List IncomingDelivery, order.Perm messages → order'.Perm messages →
    ∃ db db' : Db, Db.ingestAll {} fresh order = .ok db ∧ Db.ingestAll {} fresh order' = .ok db' ∧
      db.KeepsEach messages ∧ db'.KeepsEach messages ∧
      ∀ provider externalRepositoryId,
        db.governs? provider externalRepositoryId = db'.governs? provider externalRepositoryId

section

variable {db : Db} {message message' : IncomingDelivery} {delivery : ValidatedDelivery}
  {policyRevision : ℕ} {targetId fresh : Uuid} {done messages : List IncomingDelivery}

theorem validateDelivery_eq_ok (h : validateDelivery message.delivery = .ok delivery) :
    PreservationLevel.parse message.delivery.preservationLevel = some delivery.preservationLevel ∧
      delivery.pinned = message.delivery.pinned ∧
      delivery.includeWiki = message.delivery.includeWiki ∧
      delivery.includeReleases = message.delivery.includeReleases ∧
      delivery.includeIssues = message.delivery.includeIssues ∧
      delivery.offsiteRequired = message.delivery.offsiteRequired ∧
      delivery.correlationId = message.delivery.correlationId ∧
      delivery.policyRevision = message.delivery.policyRevision := by
  unfold validateDelivery at h
  split at h
  · cases h
  · rename_i level hlevel
    split_ifs at h
    obtain rfl := Except.ok.inj h
    exact ⟨hlevel, rfl, rfl, rfl, rfl, rfl, rfl, rfl⟩

theorem inboxRow_allowed_iff : message.inboxRow.allowed = true ↔
    (1 ≤ message.source.length ∧ message.source.length ≤ 64) ∧
      isStorable message.source = true := by
  unfold InboxRow.allowed IncomingDelivery.inboxRow
  simp

theorem targetRow_allowed_iff : (message.targetRow targetId).allowed = true ↔
    (message.provider = "github" ∧ 1 ≤ message.externalRepositoryId.length ∧
      message.externalRepositoryId.length ≤ 255) ∧
      isStorable message.externalRepositoryId = true := by
  unfold Target.allowed IncomingDelivery.targetRow
  simp [and_assoc]

theorem revisionRow_allowed_iff (hdelivery : validateDelivery message.delivery = .ok delivery)
    (hinputs : governedInputs delivery = .ok policyRevision) :
    (revisionRow targetId policyRevision delivery (some message.source)).allowed = true ↔
      message.delivery.policyRevision ≠ some 0 ∧ message.delivery.correlationId.length ≤ 256 ∧
        isStorable message.delivery.correlationId = true ∧
        (1 ≤ message.source.length ∧ message.source.length ≤ 64) ∧
        isStorable message.source = true := by
  obtain ⟨-, -, -, -, -, -, hcorrelation, hrevision⟩ := validateDelivery_eq_ok hdelivery
  obtain ⟨hnumber, -, hnonempty⟩ := governedInputs_eq_ok.mp hinputs
  have hlength : 1 ≤ delivery.correlationId.length := by
    rw [Nat.one_le_iff_ne_zero, Ne, String.length_eq_zero_iff]
    intro hempty
    rw [hempty] at hnonempty
    cases hnonempty
  rw [Revision.allowed_iff, ← hcorrelation, ← hrevision, hnumber]
  simp [revisionRow, hlength, Nat.pos_iff_ne_zero]

theorem carries_revisionRow (hdelivery : validateDelivery message.delivery = .ok delivery)
    (hinputs : governedInputs delivery = .ok policyRevision) :
    (revisionRow targetId policyRevision delivery (some message.source)).Carries message := by
  obtain ⟨hlevel, hpinned, hwiki, hreleases, hissues, hoffsite, hcorrelation, hrevision⟩ :=
    validateDelivery_eq_ok hdelivery
  have hnumber := (governedInputs_eq_ok.mp hinputs).1
  exact
    { policyRevision := hrevision.symm.trans hnumber
      preservationLevel := hlevel
      pinned := congrArg (·.getD false) hpinned
      includeWiki := congrArg (·.getD false) hwiki
      includeReleases := congrArg (·.getD false) hreleases
      includeIssues := congrArg (·.getD false) hissues
      offsiteRequired := congrArg (·.getD false) hoffsite
      correlationId := hcorrelation
      source := rfl }

/-- A row is what the planner sees of its delivery. -/
theorem governedRecord_carries {row row' : Revision} (h : row.Carries message)
    (h' : row'.Carries message) : governedRecord row = governedRecord row' := by
  have hlevel := Option.some.inj (h.preservationLevel.symm.trans h'.preservationLevel)
  have hrevision := Option.some.inj (h.policyRevision.symm.trans h'.policyRevision)
  unfold governedRecord
  rw [hlevel, hrevision, h.pinned, h'.pinned, h.includeWiki, h'.includeWiki, h.includeReleases,
    h'.includeReleases, h.includeIssues, h'.includeIssues, h.offsiteRequired, h'.offsiteRequired,
    h.correlationId, h'.correlationId]

/-- What is stored once these deliveries have been ingested, in this order. -/
structure Ingestion (done : List IncomingDelivery) (db : Db) (fresh : Uuid) : Prop where
  below : ∀ t ∈ db.targets, t.targetId < fresh
  ids : IsKey (·.targetId) db.targets
  keys : IsKey (fun r : Revision => (r.targetId, r.policyRevision)) db.revisions
  rows : ∀ r ∈ db.revisions, ∃ message ∈ done, db.named? message = some r.targetId ∧
    r.Carries message
  numbered : ∀ message ∈ done, ∃ r ∈ db.revisions, db.named? message = some r.targetId ∧
    message.delivery.policyRevision = some r.policyRevision

theorem Ingestion.empty (fresh : Uuid) : Ingestion [] {} fresh where
  below _ h := by cases h
  ids _ h := by cases h
  keys _ h := by cases h
  rows _ h := by cases h
  numbered _ h := by cases h

theorem mem_of_named? (h : db.named? message = some targetId) :
    ∃ t ∈ db.targets, t.targetId = targetId ∧ t.provider = message.provider ∧
      t.externalRepositoryId = message.externalRepositoryId := by
  obtain ⟨t, hfound, hid⟩ := Option.map_eq_some_iff.mp h
  have hkey := List.find?_some hfound
  simp only [Bool.and_eq_true, beq_iff_eq] at hkey
  exact ⟨t, List.mem_of_find?_eq_some hfound, hid, hkey.1.1, hkey.1.2⟩

/-- Two deliveries for one target are deliveries for one repository. -/
theorem repository_of_named? (hids : IsKey (·.targetId) db.targets)
    (h : db.named? message = some targetId) (h' : db.named? message' = some targetId) :
    message.provider = message'.provider ∧
      message.externalRepositoryId = message'.externalRepositoryId := by
  obtain ⟨t, hmem, hid, hprovider, hrepository⟩ := mem_of_named? h
  obtain ⟨t', hmem', hid', hprovider', hrepository'⟩ := mem_of_named? h'
  obtain rfl : t = t' := hids t hmem t' hmem' (hid.trans hid'.symm)
  exact ⟨hprovider.symm.trans hprovider', hrepository.symm.trans hrepository'⟩

theorem named?_congr (h : message.provider = message'.provider)
    (h' : message.externalRepositoryId = message'.externalRepositoryId) :
    db.named? message = db.named? message' := by
  unfold Db.named?
  rw [h, h']

/-- The last statement accounts for the delivery. -/
theorem Ingestion.recordRevision (h : Ingestion done db fresh)
    (hnamed : db.named? message = some targetId)
    (hdelivery : validateDelivery message.delivery = .ok delivery)
    (hinputs : governedInputs delivery = .ok policyRevision) (hfits : message.Fits) :
    ∃ db', db.recordRevision targetId policyRevision delivery message.source = .ok db' ∧
      db'.inbox = db.inbox ∧ Ingestion (done ++ [message]) db' fresh := by
  have hnumber : message.delivery.policyRevision = some policyRevision := by
    rw [← (validateDelivery_eq_ok hdelivery).2.2.2.2.2.2.2]
    exact (governedInputs_eq_ok.mp hinputs).1
  have hrows : ∀ r ∈ db.revisions, ∃ m ∈ done ++ [message],
      db.named? m = some r.targetId ∧ r.Carries m := by
    intro r hr
    obtain ⟨m, hm, hcarried⟩ := h.rows r hr
    exact ⟨m, List.mem_append_left _ hm, hcarried⟩
  have hallowed : (revisionRow targetId policyRevision delivery (some message.source)).allowed
      = true :=
    (revisionRow_allowed_iff hdelivery hinputs).mpr ⟨hfits.policyRevision, hfits.correlation,
      hfits.storable.2.2, hfits.source, hfits.storable.1⟩
  unfold Db.recordRevision
  simp only [hallowed, Bool.not_true, Bool.false_eq_true, if_false]
  split
  · -- the number is taken
    rename_i hknown
    obtain ⟨r, hr, hkey⟩ := List.any_eq_true.mp hknown
    simp only [Bool.and_eq_true, beq_iff_eq] at hkey
    refine ⟨db, rfl, rfl, h.below, h.ids, h.keys, hrows, fun m hm => ?_⟩
    rcases List.mem_append.mp hm with hold | hlast
    · exact h.numbered m hold
    · rw [List.mem_singleton.mp hlast]
      exact ⟨r, hr, by rw [hkey.1, hnamed], by rw [hkey.2, hnumber]⟩
  · rename_i hunknown
    let row := revisionRow targetId policyRevision delivery (some message.source)
    have hfound : (db.target? targetId).isSome = true := by
      obtain ⟨t, hmem, hid, -⟩ := mem_of_named? hnamed
      exact List.find?_isSome.mpr ⟨t, hmem, by simp [hid]⟩
    rw [if_pos hfound]
    refine ⟨_, rfl, rfl, h.below, h.ids, ?_, ?_, fun m hm => ?_⟩
    · refine h.keys.append_singleton fun r hr hsame => hunknown ?_
      refine List.any_eq_true.mpr ⟨r, hr, ?_⟩
      obtain ⟨htarget, hrevision⟩ := Prod.mk.inj hsame
      simp only [Bool.and_eq_true, beq_iff_eq]
      exact ⟨htarget, hrevision⟩
    · refine List.forall_mem_append.mpr ⟨hrows, List.forall_mem_singleton.mpr ?_⟩
      exact ⟨message, by simp, hnamed, carries_revisionRow hdelivery hinputs⟩
    · rcases List.mem_append.mp hm with hold | hlast
      · obtain ⟨r, hr, hkept⟩ := h.numbered m hold
        exact ⟨r, List.mem_append_left _ hr, hkept⟩
      · rw [List.mem_singleton.mp hlast]
        exact ⟨row, List.mem_append_right _ (List.mem_singleton_self _), hnamed, hnumber⟩

/-- A write to another table accounts for nothing. -/
theorem Ingestion.aside {db' : Db} (h : Ingestion done db fresh) (htargets : db'.targets = db.targets)
    (hrevisions : db'.revisions = db.revisions) : Ingestion done db' fresh := by
  have hnamed : ∀ m, db'.named? m = db.named? m := fun m => by
    unfold Db.named? Db.repositoryTarget?
    rw [htargets]
  obtain ⟨hbelow, hids, hkeys, hrows, hnumbered⟩ := h
  constructor
  · rw [htargets]; exact hbelow
  · rw [htargets]; exact hids
  · rw [hrevisions]; exact hkeys
  · simpa only [hrevisions, hnamed] using hrows
  · simpa only [hrevisions, hnamed] using hnumbered

/-- An enrollment keeps what is accounted for. -/
theorem Ingestion.insertTarget (h : Ingestion done db fresh) {target : Target}
    (hfresh : target.targetId = fresh) :
    Ingestion done (db.apply (.insertTarget target)) (fresh + 2) where
  below := List.forall_mem_append.mpr
    ⟨fun t ht => Nat.lt_add_right 2 (h.below t ht),
      List.forall_mem_singleton.mpr (hfresh ▸ Nat.lt_add_of_pos_right (Nat.succ_pos 1))⟩
  ids := h.ids.append_singleton fun t ht hsame => by
    have hbelow := h.below t ht
    rw [hsame.trans hfresh] at hbelow
    exact Nat.lt_irrefl _ hbelow
  keys := h.keys
  rows r hr := by
    obtain ⟨m, hm, hnamed, hcarried⟩ := h.rows r hr
    exact ⟨m, hm, named?_apply hnamed _, hcarried⟩
  numbered m hm := by
    obtain ⟨r, hr, hnamed, hnumber⟩ := h.numbered m hm
    exact ⟨r, hr, named?_apply hnamed _, hnumber⟩

/-- A valid delivery that has not been consumed is accepted and accounted for. -/
theorem Ingestion.snoc (h : Ingestion done db fresh) (hinbox : db.inbox = done.map (·.inboxRow))
    (hvalid : message.Valid) (hnew : message.inboxRow ∉ done.map (·.inboxRow)) :
    ∃ db', db.ingestDelivery fresh message = .ok db' ∧
      db'.inbox = (done ++ [message]).map (·.inboxRow) ∧
      Ingestion (done ++ [message]) db' (fresh + 2) := by
  obtain ⟨delivery, policyRevision, hdelivery, hinputs⟩ := hvalid.validated
  have hconsumed : (db.apply (.insertInbox message.inboxRow)).inbox
      = (done ++ [message]).map (·.inboxRow) := by
    rw [List.map_append, ← hinbox]
    rfl
  have hfree : db.inbox.contains message.inboxRow = false := by
    rw [hinbox]
    simpa using hnew
  have hinboxRow : message.inboxRow.allowed = true :=
    inboxRow_allowed_iff.mpr ⟨hvalid.source, hvalid.storable.1⟩
  have htargetRow : (message.targetRow fresh).allowed = true :=
    targetRow_allowed_iff.mpr ⟨hvalid.repository, hvalid.storable.2.1⟩
  unfold Db.ingestDelivery
  simp only [hdelivery, hinputs, hinboxRow, htargetRow, hfree, Bool.not_true, if_false,
    Bool.false_eq_true]
  have hclaimed : Ingestion done (db.apply (.insertInbox message.inboxRow)) fresh :=
    h.aside rfl rfl
  cases hfound : db.repositoryTarget? message.provider message.externalRepositoryId with
  | some target =>
    have hnamed : (db.apply (.insertInbox message.inboxRow)).named? message
        = some target.targetId :=
      congrArg (Option.map fun t : Target => t.targetId) hfound
    obtain ⟨db', hok, hsame, hdone⟩ :=
      hclaimed.recordRevision hnamed hdelivery hinputs hvalid.toFits
    refine ⟨db', hok, hsame.trans hconsumed, ?_⟩
    exact { hdone with below := fun t ht => Nat.lt_add_right 2 (hdone.below t ht) }
  | none =>
    let target := message.targetRow fresh
    let event : OutboxRow :=
      { eventId := fresh + 1
        event := .stateChanged fresh none .requested policyRevision delivery.correlationId }
    let claimed := db.apply (.insertInbox message.inboxRow)
    have henrolled : Ingestion done (claimed.apply (.insertTarget target)) (fresh + 2) :=
      hclaimed.insertTarget rfl
    have hevent : Ingestion done ((claimed.apply (.insertTarget target)).apply (.insertOutbox event))
        (fresh + 2) := henrolled.aside rfl rfl
    have hnamed : ((claimed.apply (.insertTarget target)).apply (.insertOutbox event)).named? message
        = some fresh := by
      show (List.find? _ (db.targets ++ [target])).map _ = _
      unfold Db.repositoryTarget? at hfound
      rw [List.find?_append, hfound]
      simp [target, IncomingDelivery.targetRow]
    obtain ⟨db', hok, hsame, hdone⟩ :=
      hevent.recordRevision hnamed hdelivery hinputs hvalid.toFits
    exact ⟨db', hok, hsame.trans hconsumed, hdone⟩

/-- Valid deliveries, each with an identity of its own, are all accepted and accounted for. -/
theorem Ingestion.all (h : Ingestion done db fresh) (hinbox : db.inbox = done.map (·.inboxRow))
    (hvalid : ∀ m ∈ messages, m.Valid)
    (hdistinct : ((done ++ messages).map (·.inboxRow)).Nodup) :
    ∃ db' fresh', db.ingestAll fresh messages = .ok db' ∧
      Ingestion (done ++ messages) db' fresh' := by
  induction messages generalizing done db fresh with
  | nil => exact ⟨db, fresh, rfl, by rwa [List.append_nil]⟩
  | cons message rest ih =>
    have hnew : message.inboxRow ∉ done.map (·.inboxRow) := by
      rw [List.map_append, List.map_cons, List.nodup_append] at hdistinct
      exact fun hmem => hdistinct.2.2 _ hmem _ (List.mem_cons_self ..) rfl
    obtain ⟨db₁, hok, hinbox₁, hdone⟩ :=
      h.snoc hinbox (hvalid message (List.mem_cons_self ..)) hnew
    rw [List.append_cons] at hdistinct
    obtain ⟨db', fresh', hrest, hall⟩ := ih hdone hinbox₁
      (fun m hm => hvalid m (List.mem_cons_of_mem _ hm)) hdistinct
    refine ⟨db', fresh', ?_, ?_⟩
    · simp only [Db.ingestAll, hok]
      exact hrest
    · rw [List.append_cons]
      exact hall

/-- What has been accounted for does not depend on the order. -/
theorem Ingestion.perm {order : List IncomingDelivery} (h : Ingestion order db fresh)
    (horder : order.Perm messages) : Ingestion messages db fresh where
  below := h.below
  ids := h.ids
  keys := h.keys
  rows r hr := by
    obtain ⟨m, hm, hrow⟩ := h.rows r hr
    exact ⟨m, horder.subset hm, hrow⟩
  numbered m hm := h.numbered m (horder.symm.subset hm)

/-- With a key of its own every delivery has its row. -/
theorem Ingestion.row (h : Ingestion messages db fresh)
    (hkeys : ∀ m ∈ messages, ∀ m' ∈ messages, m.revisionKey = m'.revisionKey → m = m')
    (hmem : message ∈ messages) :
    ∃ r ∈ db.revisions, db.named? message = some r.targetId ∧ r.Carries message := by
  obtain ⟨r, hr, hnamed, hnumber⟩ := h.numbered message hmem
  obtain ⟨m, hm, hnamed', hcarries⟩ := h.rows r hr
  obtain ⟨hprovider, hrepository⟩ := repository_of_named? h.ids hnamed hnamed'
  have hsame : message.revisionKey = m.revisionKey := by
    unfold IncomingDelivery.revisionKey
    rw [hprovider, hrepository, hnumber, hcarries.policyRevision]
  obtain rfl := hkeys message hmem m hm hsame
  exact ⟨r, hr, hnamed, hcarries⟩

theorem Ingestion.keepsEach (h : Ingestion messages db fresh)
    (hkeys : ∀ m ∈ messages, ∀ m' ∈ messages, m.revisionKey = m'.revisionKey → m = m') :
    db.KeepsEach messages := by
  have hrow : ∀ m, ∃ r, m ∈ messages →
      r ∈ db.revisions ∧ db.named? m = some r.targetId ∧ r.Carries m := by
    intro m
    by_cases hm : m ∈ messages
    · obtain ⟨r, hr, hnamed, hcarries⟩ := h.row hkeys hm
      exact ⟨r, fun _ => ⟨hr, hnamed, hcarries⟩⟩
    · exact ⟨{ targetId := 0, policyRevision := 0, preservationLevel := .none, pinned := false,
               includeWiki := false, includeReleases := false, includeIssues := false,
               offsiteRequired := false, correlationId := "", source := none },
        fun hmem => absurd hmem hm⟩
  choose row hspec using hrow
  refine ⟨row, fun m hm => hspec m hm, fun m hm m' hm' hsame => hkeys m hm m' hm' ?_⟩
  obtain ⟨-, hnamed, hcarries⟩ := hspec m hm
  obtain ⟨-, hnamed', hcarries'⟩ := hspec m' hm'
  rw [hsame] at hnamed hcarries
  obtain ⟨hprovider, hrepository⟩ := repository_of_named? h.ids hnamed hnamed'
  unfold IncomingDelivery.revisionKey
  rw [hprovider, hrepository, hcarries.policyRevision, hcarries'.policyRevision]

/-- The message is for the repository and no other brings it a higher revision. -/
structure Highest (messages : List IncomingDelivery) (provider externalRepositoryId : String)
    (message : IncomingDelivery) : Prop where
  mem : message ∈ messages
  repository : message.provider = provider ∧ message.externalRepositoryId = externalRepositoryId
  highest : ∀ m ∈ messages, m.provider = provider → m.externalRepositoryId = externalRepositoryId →
    ∀ n n', m.delivery.policyRevision = some n → message.delivery.policyRevision = some n' → n ≤ n'

/-- What governs a repository is what its highest message carried. -/
theorem Ingestion.highest (h : Ingestion messages db fresh) {provider externalRepositoryId : String}
    {record : ValidatedDelivery} (hgoverns : db.governs? provider externalRepositoryId = some record) :
    ∃ m row, Highest messages provider externalRepositoryId m ∧ row.Carries m ∧
      record = governedRecord row := by
  obtain ⟨t, hfound, hgoverning⟩ := Option.bind_eq_some_iff.mp hgoverns
  obtain ⟨row, hrow, rfl⟩ := Option.map_eq_some_iff.mp hgoverning
  obtain ⟨hmem, htarget⟩ := mem_revisionsOf_of_governing? hrow
  obtain ⟨m, hm, hnamed, hcarries⟩ := h.rows row hmem
  refine ⟨m, row, ⟨hm, ?_, ?_⟩, hcarries, rfl⟩
  · obtain ⟨t', hmem', hid, hprovider, hrepository⟩ := mem_of_named? hnamed
    obtain rfl : t' = t :=
      h.ids t' hmem' t (List.mem_of_find?_eq_some hfound) (hid.trans htarget)
    have hkey := List.find?_some hfound
    simp only [Bool.and_eq_true, beq_iff_eq] at hkey
    exact ⟨hprovider.symm.trans hkey.1.1, hrepository.symm.trans hkey.1.2⟩
  · intro m' hm' hprovider hrepository n n' hn hn'
    obtain ⟨r, hr, hnamed', hnumber⟩ := h.numbered m' hm'
    have hsame : r.targetId = t.targetId := by
      unfold Db.named? at hnamed'
      rw [hprovider, hrepository, hfound] at hnamed'
      exact (Option.some.inj hnamed').symm
    have hrevision : r ∈ db.revisionsOf t.targetId :=
      List.mem_filter.mpr ⟨hr, by simp [hsame]⟩
    have hle : r.policyRevision ≤ row.policyRevision := List.le_of_mem_argmax hrevision hrow
    obtain rfl := Option.some.inj (hn.symm.trans hnumber)
    obtain rfl := Option.some.inj (hn'.symm.trans hcarries.policyRevision)
    exact hle

theorem Ingestion.governs_isSome (h : Ingestion messages db fresh) (hmem : message ∈ messages) :
    (db.governs? message.provider message.externalRepositoryId).isSome = true := by
  obtain ⟨r, hr, hnamed, -⟩ := h.numbered message hmem
  obtain ⟨t, hfound, hid⟩ := Option.map_eq_some_iff.mp hnamed
  have hrevision : r ∈ db.revisionsOf t.targetId :=
    List.mem_filter.mpr ⟨hr, by simp [hid]⟩
  have hgoverning : db.governing? t.targetId ≠ none := by
    intro hnone
    rw [List.argmax_eq_none.mp hnone] at hrevision
    cases hrevision
  unfold Db.governs?
  rw [hfound]
  simpa [Option.isSome_iff_ne_none] using hgoverning

theorem Ingestion.governs_eq {db' : Db} {fresh' : Uuid} (h : Ingestion messages db fresh)
    (h' : Ingestion messages db' fresh')
    (hkeys : ∀ m ∈ messages, ∀ m' ∈ messages, m.revisionKey = m'.revisionKey → m = m')
    (provider externalRepositoryId : String) :
    db.governs? provider externalRepositoryId = db'.governs? provider externalRepositoryId := by
  -- a repository is governed in one where a message names it, and then in the other
  have hboth : ∀ {d d' : Db} {f f' : Uuid}, Ingestion messages d f → Ingestion messages d' f' →
      d.governs? provider externalRepositoryId ≠ none →
        d'.governs? provider externalRepositoryId ≠ none := by
    intro d d' f f' hd hd' hsome
    obtain ⟨record, hrecord⟩ := Option.ne_none_iff_exists'.mp hsome
    obtain ⟨m, row, hhighest, -⟩ := hd.highest hrecord
    have hother := hd'.governs_isSome hhighest.mem
    rw [hhighest.repository.1, hhighest.repository.2] at hother
    exact Option.isSome_iff_ne_none.mp hother
  cases hgoverns : db.governs? provider externalRepositoryId with
  | none =>
    cases hgoverns' : db'.governs? provider externalRepositoryId with
    | none => rfl
    | some record =>
      have hsome : db'.governs? provider externalRepositoryId ≠ none := by
        rw [hgoverns']
        exact Option.some_ne_none _
      exact absurd hgoverns (hboth h' h hsome)
  | some record =>
    have hsome : db.governs? provider externalRepositoryId ≠ none := by
      rw [hgoverns]
      exact Option.some_ne_none _
    obtain ⟨record', hrecord'⟩ := Option.ne_none_iff_exists'.mp (hboth h h' hsome)
    obtain ⟨m, row, hm, hcarries, rfl⟩ := h.highest hgoverns
    obtain ⟨m', row', hm', hcarries', rfl⟩ := h'.highest hrecord'
    have hle : row'.policyRevision ≤ row.policyRevision :=
      hm.highest m' hm'.mem hm'.repository.1 hm'.repository.2 _ _ hcarries'.policyRevision
        hcarries.policyRevision
    have hge : row.policyRevision ≤ row'.policyRevision :=
      hm'.highest m hm.mem hm.repository.1 hm.repository.2 _ _ hcarries.policyRevision
        hcarries'.policyRevision
    have hkey : m.revisionKey = m'.revisionKey := by
      unfold IncomingDelivery.revisionKey
      rw [hm.repository.1, hm.repository.2, hm'.repository.1, hm'.repository.2,
        hcarries.policyRevision, hcarries'.policyRevision, Nat.le_antisymm hge hle]
    obtain rfl := hkeys m hm.mem m' hm'.mem hkey
    rw [hrecord']
    exact congrArg some (governedRecord_carries hcarries hcarries')

/-- Nothing is lost, and no order matters, exactly where no two deliveries bring one repository
the same revision number. -/
theorem loses_nothing_iff (hvalid : ∀ m ∈ messages, m.Valid)
    (hdistinct : (messages.map (·.inboxRow)).Nodup) :
    LosesNothing messages fresh ↔
      ∀ m ∈ messages, ∀ m' ∈ messages, m.revisionKey = m'.revisionKey → m = m' := by
  have hingested : ∀ order : List IncomingDelivery, order.Perm messages →
      ∃ db fresh', Db.ingestAll {} fresh order = .ok db ∧ Ingestion messages db fresh' := by
    intro order horder
    have hnodup : (order.map (·.inboxRow)).Nodup :=
      (horder.map (·.inboxRow)).nodup_iff.mpr hdistinct
    obtain ⟨db, fresh', hok, hall⟩ := (Ingestion.empty fresh).all rfl
      (fun m hm => hvalid m (horder.subset hm)) hnodup
    exact ⟨db, fresh', hok, hall.perm horder⟩
  constructor
  · intro h m hm m' hm' hkey
    obtain ⟨db, -, hok, -, ⟨row, hrow, hinjective⟩, -, -⟩ := h messages messages (.refl _) (.refl _)
    obtain ⟨db', fresh', hok', hall⟩ := hingested messages (.refl _)
    obtain rfl : db = db' := Except.ok.inj (hok.symm.trans hok')
    obtain ⟨hmem, hnamed, hcarries⟩ := hrow m hm
    obtain ⟨hmem', hnamed', hcarries'⟩ := hrow m' hm'
    -- two rows of one target and number are one row
    obtain ⟨hprovider, hrepository, hnumber⟩ : m.provider = m'.provider ∧
        m.externalRepositoryId = m'.externalRepositoryId ∧
        m.delivery.policyRevision = m'.delivery.policyRevision := by
      simpa [IncomingDelivery.revisionKey] using hkey
    rw [named?_congr hprovider hrepository, hnamed'] at hnamed
    rw [hcarries.policyRevision, hcarries'.policyRevision] at hnumber
    have hsame : row m = row m' := hall.keys _ hmem _ hmem'
      (Prod.ext (Option.some.inj hnamed).symm (Option.some.inj hnumber))
    exact hinjective m hm m' hm' hsame
  · intro hkeys order order' horder horder'
    obtain ⟨db, f, hok, hall⟩ := hingested order horder
    obtain ⟨db', f', hok', hall'⟩ := hingested order' horder'
    exact ⟨db, db', hok, hok', hall.keepsEach hkeys, hall'.keepsEach hkeys,
      hall.governs_eq hall' hkeys⟩

end

namespace Vault.Sample

/-- One message of the catalog and one of the policy lane, both with revision 1. -/
def colliding : List IncomingDelivery :=
  [delivery "git_mirror" 1, { delivery "none" 1 with source := "github-policy" }]

/-- Two revisions of one repository, and the first of another. -/
def ordered : List IncomingDelivery :=
  [delivery "git_mirror" 1, delivery "none" 2,
    { delivery "git_mirror" 1 with externalRepositoryId := "q", messageId := 3 }]

theorem valid_delivery {message : IncomingDelivery} {delivery : ValidatedDelivery}
    {policyRevision : ℕ} (hdelivery : validateDelivery message.delivery = .ok delivery)
    (hinputs : governedInputs delivery = .ok policyRevision)
    (hinbox : message.inboxRow.allowed = true) (htarget : (message.targetRow 0).allowed = true)
    (hrevision : (revisionRow 0 policyRevision delivery (some message.source)).allowed = true) :
    message.Valid := by
  obtain ⟨hsource, hstorable⟩ := inboxRow_allowed_iff.mp hinbox
  obtain ⟨hrepository, hstorable'⟩ := targetRow_allowed_iff.mp htarget
  obtain ⟨hpositive, hcorrelation, hstorable'', -⟩ :=
    (revisionRow_allowed_iff hdelivery hinputs).mp hrevision
  exact ⟨⟨hsource, hrepository, hpositive, hcorrelation, hstorable, hstorable', hstorable''⟩,
    delivery, policyRevision, hdelivery, hinputs⟩

end Vault.Sample

open Vault.Sample in
/-- Of two deliveries with one revision number the first to arrive is kept and governs. -/
theorem first_arrival_governs :
    ¬ ∀ (messages : List IncomingDelivery) (fresh : Uuid), (∀ m ∈ messages, m.Valid) →
      (messages.map (·.inboxRow)).Nodup → LosesNothing messages fresh := by
  intro h
  have hvalid : ∀ m ∈ colliding, m.Valid := by
    intro m hm
    simp only [colliding, List.mem_cons, List.not_mem_nil, or_false] at hm
    rcases hm with rfl | rfl
    · exact valid_delivery rfl rfl (by decide +kernel) (by decide +kernel) (by decide +kernel)
    · exact valid_delivery rfl rfl (by decide +kernel) (by decide +kernel) (by decide +kernel)
  obtain ⟨db, db', hok, hok', -, -, hgoverns⟩ := h colliding 0 hvalid (by decide) colliding
    colliding.reverse (.refl _) (List.reverse_perm _)
  have hfirst : (Db.ingestAll {} 0 colliding).toOption.bind
      (fun db => (db.governs? "github" "r").map (·.preservationLevel)) = some .gitMirror := by
    decide +kernel
  have hlast : (Db.ingestAll {} 0 colliding.reverse).toOption.bind
      (fun db => (db.governs? "github" "r").map (·.preservationLevel)) = some .none := by
    decide +kernel
  rw [hok] at hfirst
  rw [hok'] at hlast
  have hsame := hgoverns "github" "r"
  simp only [Except.toOption, Option.bind_some] at hfirst hlast
  rw [hsame, hlast] at hfirst
  cases hfirst

open Vault.Sample in
theorem loses_nothing_iff_ordered : LosesNothing ordered 0 := by
  refine (loses_nothing_iff ?_ (by decide)).mpr (by decide)
  intro m hm
  simp only [ordered, List.mem_cons, List.not_mem_nil, or_false] at hm
  rcases hm with rfl | rfl | rfl
  · exact valid_delivery rfl rfl (by decide +kernel) (by decide +kernel) (by decide +kernel)
  · exact valid_delivery rfl rfl (by decide +kernel) (by decide +kernel) (by decide +kernel)
  · exact valid_delivery rfl rfl (by decide +kernel) (by decide +kernel) (by decide +kernel)

end RatatoskrVault
