import RatatoskrVault.Blobstore.Replica

/-! Uploads to a replica: what a successful one has read back, what a failed one leaves behind, and
the cancellable form while nobody signals. -/
namespace RatatoskrVault.Adapter

open Lib

variable {ObjectPath : Type} {parse : String → Option ObjectPath} {cx : Crypto}
  {store : ReplicaStore} {reference : BlobRef} {location : ObjectPath}

section Quiet

/-- Nobody has signalled, and nobody does. -/
def quiet : Signal → Bool := fun _ => false

variable {α β : Type}

@[simp] theorem resolve_unlessShutdown (p : Transfer ObjectPath α) :
    Asks.resolve quiet (unlessShutdown p) = p :=
  Asks.resolve_select rfl _ p

@[simp] theorem resolve_shutdownRequested :
    Asks.resolve quiet (shutdownRequested : CancellableTransfer ObjectPath Bool) = pure false := rfl

@[simp] theorem resolve_ensure (condition : Bool) (e : ReplicaError) :
    Asks.resolve quiet (Asks.ensure condition e : CancellableTransfer ObjectPath Unit) =
      Asks.ensure condition e := by
  cases condition <;> rfl

theorem resolve_streamBody (sent : Bytes) (body : Body) :
    Asks.resolve quiet (store.streamBodyCancellable cx reference sent body) =
      (store.streamBody cx reference sent body : Transfer ObjectPath Unit) := by
  induction body generalizing sent with
  | finished =>
    unfold ReplicaStore.streamBodyCancellable ReplicaStore.streamBody
    simp only [Asks.resolve_bind, resolve_shutdownRequested, resolve_ensure, pure_bind,
      Bool.not_false, Asks.ensure_true]
    split_ifs <;> rfl
  | failed => rfl
  | stalled =>
    unfold ReplicaStore.streamBodyCancellable ReplicaStore.streamBody
    exact Asks.resolve_lift _
  | piece bytes rest ih =>
    unfold ReplicaStore.streamBodyCancellable ReplicaStore.streamBody
    simp only [Asks.resolve_bind, resolve_shutdownRequested, resolve_ensure, pure_bind,
      Bool.not_false, Asks.ensure_true]
    split_ifs
    · rfl
    · simp only [Asks.resolve_bind, resolve_unlessShutdown, bind_assoc, ih]

theorem resolve_streamParts :
    Asks.resolve quiet (store.streamPartsCancellable cx reference) =
      (store.streamParts cx reference : Transfer ObjectPath Unit) := by
  unfold ReplicaStore.streamPartsCancellable ReplicaStore.streamParts
  rw [Asks.resolve_bind, Asks.resolve_lift]
  refine congrArg (openSource >>= ·) (funext fun reads => ?_)
  cases reads with
  | none => rfl
  | some reads => exact resolve_streamBody [] reads

theorem resolve_uploadSource :
    Asks.resolve quiet (store.uploadSourceCancellable cx reference location) =
      store.uploadSource cx reference location := by
  unfold ReplicaStore.uploadSourceCancellable ReplicaStore.uploadSource
  rw [Asks.resolve_bind, Asks.resolve_lift]
  refine congrArg (symlinkMetadata >>= ·) (funext fun metadata => ?_)
  cases metadata with
  | none => rfl
  | some metadata =>
    simp only [Asks.resolve_bind, resolve_ensure, resolve_unlessShutdown, Asks.resolve_attempt,
      resolve_streamParts, bind_assoc]
    refine congrArg (Asks.ensure _ _ >>= ·) (funext fun _ => ?_)
    refine congrArg (Asks.ensure _ _ >>= ·) (funext fun _ => ?_)
    refine congrArg (putMultipart location >>= ·) (funext fun created => ?_)
    refine congrArg (Asks.ensure created _ >>= ·) (funext fun _ => ?_)
    refine congrArg (Asks.attempt _ >>= ·) (funext fun streamed => ?_)
    cases streamed with
    | error error => rfl
    | ok streamed =>
      simp only [Asks.resolve_bind, Asks.resolve_attempt, resolve_unlessShutdown]
      refine congrArg (Asks.ask Request.complete) (funext fun completed => ?_)
      cases completed <;> rfl

/-- The cancellable upload is the plain one while nobody signals. -/
theorem resolve_uploadAndVerify :
    Asks.resolve quiet (store.uploadAndVerifyCancellable parse cx reference) =
      store.uploadAndVerify parse cx reference := by
  unfold ReplicaStore.uploadAndVerifyCancellable ReplicaStore.uploadAndVerify
  simp only [Asks.resolve_bind, resolve_shutdownRequested, resolve_ensure, pure_bind,
      Bool.not_false, Asks.ensure_true]
  cases store.locate parse reference with
  | error error => rfl
  | ok located =>
    obtain ⟨key, location⟩ := located
    simp only [Asks.resolve_bind, Asks.resolve_attempt, resolve_unlessShutdown]
    refine congrArg (Asks.attempt _ >>= ·) (funext fun initial => ?_)
    cases initial with
    | ok found => rfl
    | error error =>
      cases error with
      | notFound =>
        simp only [Asks.resolve_bind, resolve_uploadSource, resolve_unlessShutdown,
          Asks.resolve_pure]
      | _ => rfl

end Quiet

def isGet (e : RequestEvent ObjectPath) : Bool :=
  match e.1 with
  | .get _ => true
  | _ => false

def isWrite (e : RequestEvent ObjectPath) : Bool :=
  match e.1 with
  | .delete _ | .putMultipart _ | .putPart _ | .complete | .abort => true
  | _ => false

/-- A multipart upload was created. -/
def Creates (e : RequestEvent ObjectPath) : Prop := ∃ location, e = ⟨.putMultipart location, some true⟩

/-- A multipart upload was completed, or its abort was issued. -/
def Settles (e : RequestEvent ObjectPath) : Prop :=
  e = ⟨.complete, some true⟩ ∨ ∃ a, e = ⟨.abort, a⟩

/-- Neither a read nor the creation of an upload. -/
def Between (e : RequestEvent ObjectPath) : Prop := isGet e = false ∧ ¬Creates e

theorem streamBody_holds (sent : Bytes) (body : Body) :
    Asks.Holds (store.streamBody cx reference sent body : Transfer ObjectPath Unit)
      fun t _ => ∀ e ∈ t, Between e := by
  induction body generalizing sent with
  | finished =>
    unfold ReplicaStore.streamBody
    split_ifs
    · exact Asks.holds_pure nofun
    · exact Asks.holds_throw nofun
  | failed => exact Asks.holds_throw nofun
  | stalled =>
    intro t r hsays
    cases hsays with
    | answered never => exact nomatch never
    | dropped => simp [Between, isGet, Creates]
  | piece bytes rest ih =>
    unfold ReplicaStore.streamBody
    simp only
    have hpart (a : Option Bool) : Between (⟨.putPart bytes, a⟩ : RequestEvent ObjectPath) := by
      simp [Between, isGet, Creates]
    split_ifs
    · exact Asks.holds_throw nofun
    · refine Asks.holds_question_bind (fun accepted => ?_) (by simpa using hpart none)
      refine Asks.holds_ensure_bind (fun _ => ?_) fun _ => by simpa using hpart (some accepted)
      refine (ih (sent ++ bytes)).mono fun t _ ht => ?_
      simpa using ⟨hpart (some accepted), ht⟩

theorem streamParts_holds :
    Asks.Holds (store.streamParts cx reference : Transfer ObjectPath Unit)
      fun t _ => ∀ e ∈ t, Between e := by
  unfold ReplicaStore.streamParts
  have hopen (a : Option (Option Body)) : Between (⟨.openSource, a⟩ : RequestEvent ObjectPath) := by
    simp [Between, isGet, Creates]
  refine Asks.holds_question_bind (fun reads => ?_) (by simpa using hopen none)
  cases reads with
  | none => exact Asks.holds_throw (by simpa using hopen _)
  | some reads =>
    refine (streamBody_holds [] reads).mono fun t _ ht => ?_
    simpa using ⟨hopen (some (some reads)), ht⟩

/-- What follows the creation of an upload settles it. -/
def SettlesAll (t : List (RequestEvent ObjectPath)) (r : Option (Except ReplicaError Unit)) : Prop :=
  (∀ e ∈ t, Between e) ∧ (r ≠ none → ∃ e ∈ t, Settles e)

theorem abort_holds {t : List (RequestEvent ObjectPath)} (ht : ∀ e ∈ t, Between e)
    (error : ReplicaError) :
    Asks.Holds (do let _ignored ← abort; throw error : Transfer ObjectPath Unit)
      fun t' r => SettlesAll (t ++ t') r := by
  have habort (a : Option Bool) : ∀ e ∈ t ++ [⟨.abort, a⟩], Between e := by
    intro e he
    simp only [List.mem_append, List.mem_singleton] at he
    rcases he with he | rfl
    · exact ht e he
    · simp [Between, isGet, Creates]
  refine Asks.holds_question_bind (fun aborted => Asks.holds_throw ⟨habort _, fun _ => ?_⟩)
    ⟨habort none, fun h => absurd rfl h⟩
  exact ⟨⟨.abort, some aborted⟩, by simp, .inr ⟨_, rfl⟩⟩

/-- A created upload is completed or aborted, unless the deadline cuts it off. -/
theorem uploadSource_holds :
    Asks.Holds (store.uploadSource cx reference location) fun t r =>
      (∀ e ∈ t, isGet e = false) ∧ (r ≠ none → FollowedBy Creates Settles t) := by
  unfold ReplicaStore.uploadSource
  have hbefore (a : Option (Option Metadata)) :
      (∀ e ∈ [(⟨.metadata, a⟩ : RequestEvent ObjectPath)], isGet e = false) ∧
        FollowedBy Creates Settles [(⟨.metadata, a⟩ : RequestEvent ObjectPath)] := by
    refine ⟨by simp [isGet], followedBy_of_forall ?_⟩
    simp [Creates]
  have hrefused (a : Option (Option Metadata)) (created : Option Bool) (h : created ≠ some true) :
      (∀ e ∈ [(⟨.metadata, a⟩ : RequestEvent ObjectPath), ⟨.putMultipart location, created⟩],
          isGet e = false) ∧
        FollowedBy Creates Settles
          [(⟨.metadata, a⟩ : RequestEvent ObjectPath), ⟨.putMultipart location, created⟩] := by
    refine ⟨by simp [isGet], followedBy_of_forall ?_⟩
    simp [Creates, h]
  refine Asks.holds_question_bind (fun metadata => ?_) ⟨(hbefore none).1, fun _ => (hbefore none).2⟩
  cases metadata with
  | none => exact Asks.holds_throw ⟨(hbefore _).1, fun _ => (hbefore _).2⟩
  | some metadata =>
    refine Asks.holds_ensure_bind (fun _ => ?_) fun _ => ⟨(hbefore _).1, fun _ => (hbefore _).2⟩
    refine Asks.holds_ensure_bind (fun _ => ?_) fun _ => ⟨(hbefore _).1, fun _ => (hbefore _).2⟩
    refine Asks.holds_question_bind (fun created => ?_)
      ⟨(hrefused _ none nofun).1, fun _ => (hrefused _ none nofun).2⟩
    refine Asks.holds_ensure_bind (fun hcreated => ?_) fun hcreated => ?_
    · have hsettled (t : List (RequestEvent ObjectPath)) (r : Option (Except ReplicaError Unit))
          (h : SettlesAll t r) :
          (∀ e ∈ (⟨.metadata, some (some metadata)⟩ : RequestEvent ObjectPath) ::
              ⟨.putMultipart location, some created⟩ :: t, isGet e = false) ∧
            (r ≠ none → FollowedBy Creates Settles
              ((⟨.metadata, some (some metadata)⟩ : RequestEvent ObjectPath) ::
                ⟨.putMultipart location, some created⟩ :: t)) := by
        refine ⟨?_, fun hr => ?_⟩
        · simpa [isGet] using fun e he => (h.1 e he).1
        · have hrest : FollowedBy Creates Settles t := followedBy_of_forall fun e he => (h.1 e he).2
          exact FollowedBy.of_mem (s := [_, _]) hrest (h.2 hr)
      refine Asks.Holds.mono ?_ hsettled
      refine Asks.holds_attempt_bind streamParts_holds (fun streamed t ht => ?_)
        (fun error t ht => abort_holds ht error) fun t ht => ⟨ht, fun h => absurd rfl h⟩
      have hcomplete (a : Option Bool) : ∀ e ∈ t ++ [⟨.complete, a⟩], Between e := by
        intro e he
        simp only [List.mem_append, List.mem_singleton] at he
        rcases he with he | rfl
        · exact ht e he
        · simp [Between, isGet, Creates]
      refine Asks.holds_question_bind (fun completed => ?_)
        ⟨hcomplete none, fun h => absurd rfl h⟩
      cases completed with
      | true => exact Asks.holds_pure ⟨hcomplete _, fun _ => ⟨_, by simp, .inl rfl⟩⟩
      | false =>
        refine (abort_holds (hcomplete (some false)) .remote).mono fun t' r h => ?_
        rwa [List.append_assoc] at h
    · have hne : some created ≠ some true := by simp [hcreated]
      exact ⟨(hrefused _ _ hne).1, fun _ => (hrefused _ _ hne).2⟩

/-- What an upload at the location may have asked, and what it returns then. -/
structure Uploads (cx : Crypto) (reference : BlobRef) (location : ObjectPath)
    (t : List (RequestEvent ObjectPath)) (r : Option (Except ReplicaError ReplicaPlacement)) :
    Prop where
  reads : ∃ a rest, t = ⟨.get location, a⟩ :: rest ∧
    (a = some .notFound ∨ ∀ e ∈ rest, isWrite e = false)
  verified : ∀ placement, r = some (.ok placement) →
    ∃ before e, t = before ++ [e] ∧ ReadsBack cx reference location e
  settled : r ≠ none → FollowedBy Creates Settles t

theorem Verifies.not_creates {t : List (RequestEvent ObjectPath)}
    {r : Option (Except ReplicaError Unit)} (h : Verifies cx reference location t r) :
    ∀ e ∈ t, ¬Creates e := by
  cases h with
  | intact e h =>
    obtain ⟨body, bytes, rfl, -⟩ := h
    simp [Creates]
  | absent | refused | damaged | dropped | stalled => simp [Creates]

/-- A read that did not find the location empty is all that is asked. -/
theorem Verifies.reads {t : List (RequestEvent ObjectPath)}
    {r : Option (Except ReplicaError Unit)} (h : Verifies cx reference location t r) :
    ∃ a rest, t = ⟨.get location, a⟩ :: rest ∧
      (a = some .notFound ∨ ∀ e ∈ rest, isWrite e = false) := by
  cases h with
  | intact e h =>
    obtain ⟨body, bytes, rfl, -⟩ := h
    exact ⟨_, [], rfl, .inr nofun⟩
  | absent | refused | damaged | dropped => exact ⟨_, [], rfl, .inr nofun⟩
  | stalled body => exact ⟨_, [_], rfl, .inr (by simp [isWrite])⟩

theorem locate_eq_ok {key : String} (h : store.locate parse reference = .ok (key, location)) :
    objectKey store.keyPrefix reference = .ok key ∧ parse key = some location := by
  unfold ReplicaStore.locate at h
  split_ifs at h
  cases hkey : objectKey store.keyPrefix reference with
  | error error => simp [hkey] at h
  | ok key' =>
    cases hparse : parse key' with
    | none => simp [hkey, hparse] at h
    | some location' =>
      simp only [hkey, hparse, Except.ok.injEq, Prod.mk.injEq] at h
      obtain ⟨rfl, rfl⟩ := h
      exact ⟨rfl, hparse⟩

theorem uploadAndVerify_holds {key : String}
    (hlocate : store.locate parse reference = .ok (key, location)) :
    Asks.Holds (store.uploadAndVerify parse cx reference) (Uploads cx reference location) := by
  unfold ReplicaStore.uploadAndVerify
  rw [hlocate]
  have huntouched (t : List (RequestEvent ObjectPath)) (r : Option (Except ReplicaError Unit))
      (h : Verifies cx reference location t r)
      (r' : Option (Except ReplicaError ReplicaPlacement)) (hr : ∀ placement, r' ≠ some (.ok placement)) :
      Uploads cx reference location t r' :=
    { reads := h.reads
      verified := fun placement hok => absurd hok (hr placement)
      settled := fun _ => followedBy_of_forall h.not_creates }
  refine Asks.holds_attempt_bind verifyRemote_holds (fun _ t h => ?_) (fun error t h => ?_)
    fun t h => huntouched t none h none nofun
  · refine Asks.holds_pure ?_
    rw [List.append_nil]
    refine ⟨h.reads, fun placement _ => ?_, fun _ => followedBy_of_forall h.not_creates⟩
    cases h with
    | intact e he => exact ⟨[], e, rfl, he⟩
  · have hfailed (e : ReplicaError) : Asks.Holds (throw e : Transfer ObjectPath ReplicaPlacement)
        fun t' r => Uploads cx reference location (t ++ t') r := by
      refine Asks.holds_throw ?_
      rw [List.append_nil]
      exact huntouched t _ h _ nofun
    cases error with
    | notFound =>
      cases h with
      | damaged body e he => exact absurd rfl he
      | absent =>
        -- nothing was found, so the upload may write
        have hreads (t : List (RequestEvent ObjectPath)) :
            ∃ a rest, (⟨.get location, some .notFound⟩ : RequestEvent ObjectPath) :: t =
              ⟨.get location, a⟩ :: rest ∧
                (a = some .notFound ∨ ∀ e ∈ rest, isWrite e = false) :=
          ⟨_, t, rfl, .inl rfl⟩
        have hsettled (t : List (RequestEvent ObjectPath)) (ht : FollowedBy Creates Settles t) :
            FollowedBy Creates Settles
              ((⟨.get location, some .notFound⟩ : RequestEvent ObjectPath) :: t) := by
          have hfirst : FollowedBy Creates Settles
              [(⟨.get location, some .notFound⟩ : RequestEvent ObjectPath)] := by
            refine followedBy_of_forall ?_
            simp [Creates]
          exact hfirst.append ht
        refine Asks.holds_bind uploadSource_holds (fun _ t ht => ?_)
          (fun e t ht => ⟨hreads t, nofun, fun _ => hsettled t (ht.2 nofun)⟩)
          fun t ht => ⟨hreads t, nofun, fun h => absurd rfl h⟩
        have hsource : FollowedBy Creates Settles t := ht.2 nofun
        refine Asks.holds_bind verifyRemote_holds (fun _ t' h' => ?_) (fun e t' h' => ?_)
          fun t' h' => ⟨hreads _, nofun, fun h => absurd rfl h⟩
        · refine Asks.holds_pure ⟨hreads _, fun placement _ => ?_, fun _ => hsettled _ ?_⟩
          · cases h' with
            | intact e he => exact ⟨⟨.get location, some .notFound⟩ :: t, e, by simp, he⟩
          · rw [List.append_nil]
            exact hsource.append (followedBy_of_forall h'.not_creates)
        · refine ⟨hreads _, nofun, fun _ => hsettled _ ?_⟩
          exact hsource.append (followedBy_of_forall h'.not_creates)
    | _ => exact hfailed _

theorem cancellable_while_quiet (parse : String → Option ObjectPath) (cx : Crypto)
    (store : ReplicaStore) (reference : BlobRef) (env : Surroundings (Request ObjectPath) Answer) :
    let shut := timeout (Asks.beside env quiet) (store.uploadAndVerifyCancellable parse cx reference)
    let out := timeout env (store.uploadAndVerify parse cx reference)
    Asks.heard shut.1 = out.1 ∧ shut.2 = out.2 := by
  have hexec := Asks.exec_beside (σ := quiet) env []
    (store.uploadAndVerifyCancellable parse cx reference)
  rw [resolve_uploadAndVerify] at hexec
  exact ⟨(congrArg Prod.fst hexec).symm, congrArg (·.2.getD (.error .timeout)) hexec.symm⟩

/-- Whatever the provider, the file system and the deadline do: an upload returns a placement only
when its last request read back exactly the referenced bytes, writes nothing when its first read
finds an object, settles what it created before an error that is not a timeout, and is the
cancellable upload of a worker that is never shut down. -/
theorem upload_and_verify_reads_back (parse : String → Option ObjectPath) (cx : Crypto)
    (store : ReplicaStore) (reference : BlobRef) (env : Surroundings (Request ObjectPath) Answer) :
    let out := timeout env (store.uploadAndVerify parse cx reference)
    (∀ placement, out.2 = .ok placement →
        ∃ key location before e, objectKey store.keyPrefix reference = .ok key ∧
          parse key = some location ∧ out.1 = before ++ [e] ∧ ReadsBack cx reference location e) ∧
      (∀ before location body after,
        out.1 = before ++ ⟨.get location, some (.found body)⟩ :: after →
        (∀ e ∈ before, isGet e = false) → ∀ e ∈ out.1, isWrite e = false) ∧
      (∀ error, out.2 = .error error → error ≠ .timeout → FollowedBy Creates Settles out.1) ∧
      let shut := timeout (Asks.beside env quiet) (store.uploadAndVerifyCancellable parse cx reference)
      Asks.heard shut.1 = out.1 ∧ shut.2 = out.2 := by
  intro out
  have hsame := cancellable_while_quiet parse cx store reference env
  cases hlocate : store.locate parse reference with
  | error error =>
    have hthrow : store.uploadAndVerify parse cx reference = throw error := by
      unfold ReplicaStore.uploadAndVerify
      rw [hlocate]
    have hout : out = ([], .error error) := congrArg (timeout env) hthrow
    refine ⟨?_, ?_, ?_, hsame⟩
    · rw [hout]
      exact nofun
    · rw [hout]
      exact fun _ _ _ _ _ _ => nofun
    · rw [hout]
      exact fun _ _ _ => followedBy_of_forall nofun
  | ok located =>
    obtain ⟨key, location⟩ := located
    obtain ⟨hkey, hparse⟩ := locate_eq_ok hlocate
    have huploads : Uploads cx reference location out.1
        ((store.uploadAndVerify parse cx reference).exec env []).2 :=
      (uploadAndVerify_holds hlocate).exec env []
    refine ⟨fun placement hok => ?_, fun before location' body after ht hfirst => ?_,
      fun error herror hne => huploads.settled (answered_of_timeout herror hne), hsame⟩
    · obtain ⟨before, e, ht, hread⟩ := huploads.verified placement (returned_of_timeout hok)
      exact ⟨key, location, before, e, hkey, hparse, ht, hread⟩
    · obtain ⟨a, rest, hreads, hnothing⟩ := huploads.reads
      rw [hreads] at ht ⊢
      cases before with
      | cons e before =>
        obtain ⟨rfl, -⟩ := List.cons.inj ht
        exact nomatch hfirst _ List.mem_cons_self
      | nil =>
        obtain ⟨hevent, -⟩ := List.cons.inj ht
        cases hevent
        rcases hnothing with h | hrest
        · cases h
        · simpa [isWrite] using hrest

end RatatoskrVault.Adapter
