import RatatoskrVault.Blobstore.Replica
import Mathlib.Data.List.Infix

/-! The parts of a multipart upload: each read of the source file becomes one part, so the rule for
the parts is a rule for the reads. -/
namespace RatatoskrVault.Adapter

open Lib

/-- What the asynchronous reads of a file return, one after the other, before the end of the file:
each at least one byte, and at most what the buffer holds. -/
structure FileReads where
  reads : List Bytes
  legal : ∀ read ∈ reads, read ≠ [] ∧ read.length ≤ multipartChunkBytes

def FileReads.file (source : FileReads) : Bytes := source.reads.flatten

def bodyOf (reads : List Bytes) : Body := reads.foldr .piece .finished

/-- The parts hold the file, and each but the last is a whole chunk. -/
def MeetsPartRule (file : Bytes) (parts : List Bytes) : Prop :=
  parts.flatten = file ∧ ∀ part ∈ parts.dropLast, part.length = multipartChunkBytes

/-- Each read but the last fills the buffer. -/
def FillsBuffers (reads : List Bytes) : Prop :=
  ∀ read ∈ reads.dropLast, read.length = multipartChunkBytes

section

variable {ObjectPath : Type} {cx : Crypto} {store : ReplicaStore} {reference : BlobRef}

def partOf : Request ObjectPath → Option Bytes
  | .putPart bytes => some bytes
  | _ => none

/-- The parts a conversation sent. -/
def partsSent (t : List (RequestEvent ObjectPath)) : List Bytes := t.filterMap fun e => partOf e.1

/-- How far the provider must go along for the last part to be sent. -/
def approach : List Bytes → List (RequestEvent ObjectPath)
  | [] | [_] => []
  | bytes :: rest => ⟨.putPart bytes, some true⟩ :: approach rest

/-- The parts `parts` of the reads were sent: always the first ones, and all of them exactly if the
reads stay within `limit` and `goes` on. -/
def Sends (parts reads : List Bytes) (sent limit : ℕ) (goes : Prop) : Prop :=
  parts <+: reads ∧ (parts = reads ↔ sent + reads.flatten.length ≤ limit ∧ goes)

theorem sends_nil {sent limit : ℕ} (h : sent ≤ limit) {goes : Prop} (hgoes : goes) :
    Sends [] [] sent limit goes := by
  refine ⟨List.nil_prefix, fun _ => ⟨?_, hgoes⟩, fun _ => rfl⟩
  simpa using h

/-- The first read is not sent. -/
theorem sends_none {bytes : Bytes} {rest : List Bytes} {sent limit : ℕ} {goes : Prop}
    (h : ¬(sent + (bytes :: rest).flatten.length ≤ limit ∧ goes)) :
    Sends [] (bytes :: rest) sent limit goes :=
  ⟨List.nil_prefix, nofun, fun hgoes => absurd hgoes h⟩

/-- The first read is the only one that is sent. -/
theorem sends_one {bytes : Bytes} {rest : List Bytes} {sent limit : ℕ} {goes : Prop}
    (hfits : sent + bytes.length ≤ limit) (h : goes ↔ rest = []) :
    Sends [bytes] (bytes :: rest) sent limit goes := by
  refine ⟨⟨rest, rfl⟩, fun hparts => ?_, fun hgoes => ?_⟩
  · have hrest : rest = [] := (List.cons.inj hparts).2.symm
    refine ⟨?_, h.mpr hrest⟩
    simpa [hrest] using hfits
  · rw [h.mp hgoes.2]

theorem Sends.cons {parts : List Bytes} {bytes : Bytes} {rest : List Bytes} {sent limit : ℕ}
    {goes goes' : Prop} (h : Sends parts rest (sent + bytes.length) limit goes') (hgoes : goes ↔ goes') :
    Sends (bytes :: parts) (bytes :: rest) sent limit goes := by
  refine ⟨(List.prefix_cons_inj bytes).mpr h.1, ?_⟩
  rw [List.cons_inj_right, h.2, List.flatten_cons, List.length_append, hgoes, Nat.add_assoc]

theorem follows_of_accepted {env : Surroundings (Request ObjectPath) Answer}
    {past : List (RequestEvent ObjectPath)} {bytes : Bytes}
    (haccepted : env past (.putPart bytes) = some true) (rest : List Bytes) :
    Asks.Follows env past (approach (bytes :: rest)) ↔
      Asks.Follows env (past ++ [⟨.putPart bytes, some true⟩]) (approach rest) := by
  cases rest with
  | nil => exact Iff.rfl
  | cons next rest => exact and_iff_right haccepted

theorem follows_of_refused {env : Surroundings (Request ObjectPath) Answer}
    {past : List (RequestEvent ObjectPath)} {bytes : Bytes}
    (hrefused : env past (.putPart bytes) ≠ some true) (rest : List Bytes) :
    Asks.Follows env past (approach (bytes :: rest)) ↔ rest = [] := by
  cases rest with
  | nil => exact iff_of_true trivial rfl
  | cons next rest => exact iff_of_false (fun h => hrefused h.1) nofun

theorem streamBody_sends (env : Surroundings (Request ObjectPath) Answer)
    (past : List (RequestEvent ObjectPath)) {sent : Bytes}
    (hsent : sent.length ≤ store.maxObjectBytes) (reads : List Bytes) :
    Sends (partsSent ((store.streamBody cx reference sent (bodyOf reads)).exec env past).1) reads
      sent.length store.maxObjectBytes (Asks.Follows env past (approach reads)) := by
  induction reads generalizing past sent with
  | nil =>
    have hnone : ((store.streamBody cx reference sent (bodyOf [])).exec env past).1 = [] := by
      unfold bodyOf List.foldr ReplicaStore.streamBody
      split_ifs <;> rfl
    rw [hnone]
    exact sends_nil hsent trivial
  | cons bytes rest ih =>
    have hbody : bodyOf (bytes :: rest) = .piece bytes (bodyOf rest) := rfl
    rw [hbody]
    unfold ReplicaStore.streamBody
    simp only
    split_ifs with hlong
    · refine sends_none fun h => ?_
      have hbounded := store.bounded
      simp only [Bool.or_eq_true, decide_eq_true_eq] at hlong
      simp only [List.flatten_cons, List.length_append] at h
      omega
    · have hread : (sent ++ bytes).length ≤ store.maxObjectBytes := by
        simp only [Bool.or_eq_true, decide_eq_true_eq] at hlong
        rw [List.length_append]
        omega
      cases hanswer : env past (.putPart bytes) with
      | none =>
        have hne : env past (.putPart bytes) ≠ some true := by simp [hanswer]
        change Sends (partsSent (Asks.exec env past (.ask (.putPart bytes) _)).1) _ _ _ _
        rw [Asks.exec_ask_none hanswer]
        exact sends_one (by simpa using hread) (follows_of_refused hne rest)
      | some accepted =>
        change Sends (partsSent (Asks.exec env past (.ask (.putPart bytes) _)).1) _ _ _ _
        rw [Asks.exec_ask_some hanswer]
        cases accepted with
        | false =>
          have hne : env past (.putPart bytes) ≠ some true := by simp [hanswer]
          exact sends_one (by simpa using hread) (follows_of_refused hne rest)
        | true =>
          have hrest := ih (past ++ [⟨.putPart bytes, some true⟩]) hread
          rw [List.length_append] at hrest
          exact hrest.cons (follows_of_accepted hanswer rest)

abbrev CancellableEvent (ObjectPath : Type) :=
  Event (Request ObjectPath ⊕ Signal) (Sum.elim Answer fun _ => Bool)

/-- The shutdown signal is looked at before a part, and has not fired. -/
def looks : List (CancellableEvent ObjectPath) :=
  [⟨.inr .borrow, some false⟩, ⟨.inr .changed, some false⟩]

/-- How far the provider must go along, and the signal be silent, for the last part to be sent. -/
def approachCancellable : List Bytes → List (CancellableEvent ObjectPath)
  | [] => []
  | [_] => looks
  | bytes :: rest =>
    looks ++ [⟨.inl (.putPart bytes), some true⟩, ⟨.inr .changed, some false⟩] ++
      approachCancellable rest

section Cancellable

variable {env : Surroundings (Request ObjectPath ⊕ Signal) (Sum.elim Answer fun _ => Bool)}
  {past : List (CancellableEvent ObjectPath)} {bytes sent : Bytes} {rest : List Bytes}

theorem looks_of_follows (h : Asks.Follows env past (approachCancellable (bytes :: rest))) :
    env past (.inr .borrow) = some false ∧
      env (past ++ [⟨.inr .borrow, some false⟩]) (.inr .changed) = some false := by
  cases rest with
  | nil => exact ⟨h.1, h.2.1⟩
  | cons next rest => exact ⟨h.1, h.2.1⟩

/-- The conversation so far, after the signal has been looked at. -/
def looked (past : List (CancellableEvent ObjectPath)) : List (CancellableEvent ObjectPath) :=
  past ++ [⟨.inr .borrow, some false⟩] ++ [⟨.inr .changed, some false⟩]

theorem follows_iff_accepted
    (hlooks : env past (.inr .borrow) = some false ∧
      env (past ++ [⟨.inr .borrow, some false⟩]) (.inr .changed) = some false) :
    Asks.Follows env past (approachCancellable (bytes :: rest)) ↔ rest = [] ∨
      env (looked past) (.inl (.putPart bytes)) = some true ∧
      env (looked past ++ [⟨.inl (.putPart bytes), some true⟩]) (.inr .changed) = some false ∧
      Asks.Follows env (looked past ++ [⟨.inl (.putPart bytes), some true⟩] ++
        [⟨.inr .changed, some false⟩]) (approachCancellable rest) := by
  cases rest with
  | nil => exact iff_of_true ⟨hlooks.1, hlooks.2, trivial⟩ (.inl rfl)
  | cons next rest =>
    constructor
    · intro h
      exact .inr h.2.2
    · intro h
      rcases h with h | h
      · cases h
      · exact ⟨hlooks.1, hlooks.2, h⟩

/-- A part that the signal has not held back. -/
theorem putPart_sends {limit : ℕ} {f : Unit → CancellableTransfer ObjectPath Unit}
    (hlooks : env past (.inr .borrow) = some false ∧
      env (past ++ [⟨.inr .borrow, some false⟩]) (.inr .changed) = some false)
    (hfits : sent.length + bytes.length ≤ limit)
    (hrest : ∀ past', Sends (partsSent (Asks.heard ((f ()).exec env past').1)) rest
      (sent.length + bytes.length) limit (Asks.Follows env past' (approachCancellable rest))) :
    Sends (partsSent (Asks.heard (Asks.exec env (looked past)
        (.ask (.inl (.putPart bytes)) fun accepted =>
          (Asks.ensure accepted .remote).select .changed id .cancelled >>= f)).1)) (bytes :: rest)
      sent.length limit (Asks.Follows env past (approachCancellable (bytes :: rest))) := by
  have hone (h : ¬(env (looked past) (.inl (.putPart bytes)) = some true ∧
      env (looked past ++ [⟨.inl (.putPart bytes), some true⟩]) (.inr .changed) = some false)) :
      Asks.Follows env past (approachCancellable (bytes :: rest)) ↔ rest = [] := by
    rw [follows_iff_accepted hlooks, or_iff_left]
    exact fun hgoes => h ⟨hgoes.1, hgoes.2.1⟩
  cases hanswer : env (looked past) (.inl (.putPart bytes)) with
  | none =>
    rw [Asks.exec_ask_none hanswer]
    exact sends_one hfits (hone (by simp [hanswer]))
  | some accepted =>
    rw [Asks.exec_ask_some hanswer]
    change Sends (bytes :: partsSent (Asks.heard (Asks.exec env _
      ((Asks.ensure accepted .remote).select .changed id .cancelled >>= f)).1)) _ _ _ _
    have hrefused (hstops : ¬(accepted = true ∧
          env (looked past ++ [⟨.inl (.putPart bytes), some true⟩]) (.inr .changed) = some false)) :
        Asks.Follows env past (approachCancellable (bytes :: rest)) ↔ rest = [] := by
      refine hone fun h => hstops ⟨?_, h.2⟩
      exact Option.some.inj (hanswer.symm.trans h.1)
    have hstopped (hnone : partsSent (Asks.heard (Asks.exec env
          (looked past ++ [⟨.inl (.putPart bytes), some accepted⟩])
          ((Asks.ensure accepted .remote).select .changed id .cancelled >>= f)).1) = [])
        (hstops : ¬(accepted = true ∧ env (looked past ++ [⟨.inl (.putPart bytes), some true⟩])
          (.inr .changed) = some false)) :
        Sends (bytes :: partsSent (Asks.heard (Asks.exec env
          (looked past ++ [⟨.inl (.putPart bytes), some accepted⟩])
          ((Asks.ensure accepted .remote).select .changed id .cancelled >>= f)).1)) (bytes :: rest)
          sent.length limit (Asks.Follows env past (approachCancellable (bytes :: rest))) := by
      rw [hnone]
      exact sends_one hfits (hrefused hstops)
    cases accepted with
    | false =>
      refine hstopped ?_ nofun
      change partsSent (Asks.heard (Asks.exec env _ (.ask (.inr .changed) _)).1) = []
      cases hchanged : env (looked past ++ [⟨.inl (.putPart bytes), some false⟩]) (.inr .changed) with
      | none =>
        rw [Asks.exec_ask_none hchanged]
        rfl
      | some fired =>
        rw [Asks.exec_ask_some hchanged]
        cases fired <;> rfl
    | true =>
      cases hchanged : env (looked past ++ [⟨.inl (.putPart bytes), some true⟩]) (.inr .changed) with
      | none =>
        refine hstopped ?_ fun h => nomatch hchanged.symm.trans h.2
        change partsSent (Asks.heard (Asks.exec env _ (.ask (.inr .changed) _)).1) = []
        rw [Asks.exec_ask_none hchanged]
        rfl
      | some fired =>
        cases fired with
        | true =>
          refine hstopped ?_ fun h => nomatch hchanged.symm.trans h.2
          change partsSent (Asks.heard (Asks.exec env _ (.ask (.inr .changed) _)).1) = []
          rw [Asks.exec_ask_some hchanged]
          rfl
        | false =>
          change Sends (bytes ::
            partsSent (Asks.heard (Asks.exec env _ (.ask (.inr .changed) _)).1)) _ _ _ _
          rw [Asks.exec_ask_some hchanged]
          refine (hrest _).cons ?_
          rw [follows_iff_accepted hlooks]
          constructor
          · rintro (rfl | h)
            · trivial
            · exact h.2.2
          · intro h
            exact .inr ⟨hanswer, hchanged, h⟩

theorem streamBodyCancellable_sends (hsent : sent.length ≤ store.maxObjectBytes)
    (reads : List Bytes) :
    Sends (partsSent (Asks.heard
        ((store.streamBodyCancellable cx reference sent (bodyOf reads)).exec env past).1)) reads
      sent.length store.maxObjectBytes (Asks.Follows env past (approachCancellable reads)) := by
  induction reads generalizing past sent with
  | nil =>
    have hnone : Asks.heard
        ((store.streamBodyCancellable cx reference sent (bodyOf [])).exec env past).1 = [] := by
      change Asks.heard (Asks.exec env past (.ask (.inr .borrow) _)).1 = []
      cases hborrow : env past (.inr .borrow) with
      | none =>
        rw [Asks.exec_ask_none hborrow]
        rfl
      | some shutdown =>
        rw [Asks.exec_ask_some hborrow]
        cases shutdown with
        | true => rfl
        | false =>
          change Asks.heard (Asks.exec env _ (if _ then pure () else throw _)).1 = []
          split_ifs <;> rfl
    rw [hnone]
    exact sends_nil hsent trivial
  | cons bytes rest ih =>
    have hbody : bodyOf (bytes :: rest) = .piece bytes (bodyOf rest) := rfl
    rw [hbody]
    change Sends (partsSent (Asks.heard (Asks.exec env past (.ask (.inr .borrow) _)).1)) _ _ _ _
    cases hborrow : env past (.inr .borrow) with
    | none =>
      rw [Asks.exec_ask_none hborrow]
      refine sends_none fun h => ?_
      exact nomatch hborrow.symm.trans (looks_of_follows h.2).1
    | some shutdown =>
      rw [Asks.exec_ask_some hborrow]
      cases shutdown with
      | true =>
        refine sends_none fun h => ?_
        exact nomatch hborrow.symm.trans (looks_of_follows h.2).1
      | false =>
        change Sends (partsSent (Asks.heard (Asks.exec env _ (if _ then throw _ else _)).1)) _ _ _ _
        split_ifs with hlong
        · refine sends_none fun h => ?_
          have hbounded := store.bounded
          simp only [Bool.or_eq_true, decide_eq_true_eq] at hlong
          simp only [List.flatten_cons, List.length_append] at h
          omega
        · have hread : (sent ++ bytes).length ≤ store.maxObjectBytes := by
            simp only [Bool.or_eq_true, decide_eq_true_eq] at hlong
            rw [List.length_append]
            omega
          change Sends (partsSent (Asks.heard (Asks.exec env _ (.ask (.inr .changed) _)).1)) _ _ _ _
          cases hchanged : env (past ++ [⟨.inr .borrow, some false⟩]) (.inr .changed) with
          | none =>
            rw [Asks.exec_ask_none hchanged]
            refine sends_none fun h => ?_
            exact nomatch hchanged.symm.trans (looks_of_follows h.2).2
          | some fired =>
            rw [Asks.exec_ask_some hchanged]
            cases fired with
            | true =>
              refine sends_none fun h => ?_
              exact nomatch hchanged.symm.trans (looks_of_follows h.2).2
            | false =>
              refine putPart_sends ⟨hborrow, hchanged⟩ (by simpa using hread) fun past' => ?_
              have hrest := @ih past' (sent ++ bytes) hread
              rwa [List.length_append] at hrest

end Cancellable

/-- The parts that were sent meet the rule exactly if all the reads were sent and filled the
buffer. -/
theorem Sends.meetsPartRule_iff {source : FileReads} {parts : List Bytes} {limit : ℕ} {goes : Prop}
    (h : Sends parts source.reads 0 limit goes) :
    MeetsPartRule source.file parts ↔
      FillsBuffers source.reads ∧ source.file.length ≤ limit ∧ goes := by
  constructor
  · rintro ⟨hflatten, hchunks⟩
    obtain ⟨unsent, hreads⟩ := h.1
    have hunsent : unsent = [] := by
      refine List.eq_nil_iff_forall_not_mem.mpr fun read hread => ?_
      have hmem : read ∈ source.reads := by simp [← hreads, hread]
      have hfile : parts.flatten = parts.flatten ++ unsent.flatten := by
        rw [← List.flatten_append, hreads]
        exact hflatten
      have hnil : unsent.flatten = [] := by simpa using hfile
      exact (source.legal read hmem).1 (List.flatten_eq_nil_iff.mp hnil read hread)
    have hall : parts = source.reads := by simpa [hunsent] using hreads
    obtain ⟨hfits, hgoes⟩ := h.2.mp hall
    rw [Nat.zero_add] at hfits
    rw [hall] at hchunks
    exact ⟨hchunks, hfits, hgoes⟩
  · rintro ⟨hfills, hfits, hgoes⟩
    rw [← Nat.zero_add source.file.length] at hfits
    have hall : parts = source.reads := h.2.mpr ⟨hfits, hgoes⟩
    rw [hall]
    exact ⟨rfl, hfills⟩

/-- For every file and all legal reads of it, both forms of the upload meet the part rule exactly if
every read but the last fills the buffer, the file is within the limit, and nothing stops the
transfer before its last part. -/
theorem parts_meet_rule_iff (cx : Crypto) (store : ReplicaStore) (reference : BlobRef)
    (source : FileReads) (env : Surroundings (Request ObjectPath) Answer)
    (past : List (RequestEvent ObjectPath))
    (hopen : env past .openSource = some (some (bodyOf source.reads)))
    (env' : Surroundings (Request ObjectPath ⊕ Signal) (Sum.elim Answer fun _ => Bool))
    (past' : List (CancellableEvent ObjectPath))
    (hopen' : env' past' (.inl .openSource) = some (some (bodyOf source.reads))) :
    (MeetsPartRule source.file (partsSent ((store.streamParts cx reference).exec env past).1) ↔
      FillsBuffers source.reads ∧ source.file.length ≤ store.maxObjectBytes ∧
        Asks.Follows env (past ++ [⟨.openSource, some (some (bodyOf source.reads))⟩])
          (approach source.reads)) ∧
    (MeetsPartRule source.file
        (partsSent (Asks.heard ((store.streamPartsCancellable cx reference).exec env' past').1)) ↔
      FillsBuffers source.reads ∧ source.file.length ≤ store.maxObjectBytes ∧
        Asks.Follows env' (past' ++ [⟨.inl .openSource, some (some (bodyOf source.reads))⟩])
          (approachCancellable source.reads)) := by
  constructor
  · change MeetsPartRule _ (partsSent (Asks.exec env past (.ask .openSource _)).1) ↔ _
    rw [Asks.exec_ask_some hopen]
    exact (streamBody_sends env _ (Nat.zero_le _) source.reads).meetsPartRule_iff
  · change MeetsPartRule _ (partsSent
      (Asks.heard (Asks.exec env' past' (.ask (.inl .openSource) _)).1)) ↔ _
    rw [Asks.exec_ask_some hopen']
    exact (streamBodyCancellable_sends (Nat.zero_le _) source.reads).meetsPartRule_iff

end

namespace Sample

theorem store_bounded : 1000 ≤ u64Max := by decide

def store : ReplicaStore :=
  { target := "offsite"
    keyPrefix := ""
    maxObjectBytes := 1000
    bounded := store_bounded }

def crypto : Crypto :=
  { sha256 := fun _ => 0
    encode := fun _ => []
    decode := fun _ => none
    sign := fun _ => ""
    verifies := fun _ _ _ => false }

def reference (sizeBytes : ℕ) : BlobRef :=
  { owner := owner
    sha256 := hexDigest 0
    mediaType := "application/x-git-bundle"
    sizeBytes }

/-- A provider that accepts everything. -/
def willing (reads : List Bytes) : Surroundings (Request String) Answer
  | _, .metadata => some (some { isFile := true, len := reads.flatten.length })
  | _, .openSource => some (some (bodyOf reads))
  | _, .get _ => some .notFound
  | _, .delete _ => some true
  | _, .putMultipart _ => some true
  | _, .putPart _ => some true
  | _, .complete => some true
  | _, .abort => some true
  | _, .yieldNow => some ()
  | _, .stall => none

def whole : FileReads := { reads := [[1, 2]], legal := by decide }

/-- Two bytes that arrive one at a time. -/
def short : FileReads := { reads := [[1], [2]], legal := by decide }

end Sample

theorem parts_meet_rule_iff_whole :
    (MeetsPartRule Sample.whole.file (partsSent ((Sample.store.streamParts Sample.crypto
        (Sample.reference 2)).exec (Sample.willing [[1, 2]]) []).1) ↔
      FillsBuffers Sample.whole.reads ∧ Sample.whole.file.length ≤ Sample.store.maxObjectBytes ∧
        Asks.Follows (Sample.willing [[1, 2]]) [⟨.openSource, some (some (bodyOf [[1, 2]]))⟩]
          (approach [[1, 2]])) ∧
    (MeetsPartRule Sample.whole.file (partsSent (Asks.heard
        ((Sample.store.streamPartsCancellable Sample.crypto (Sample.reference 2)).exec
          (Asks.beside (Sample.willing [[1, 2]]) fun _ => false) []).1)) ↔
      FillsBuffers Sample.whole.reads ∧ Sample.whole.file.length ≤ Sample.store.maxObjectBytes ∧
        Asks.Follows (Asks.beside (Sample.willing [[1, 2]]) fun _ => false)
          [⟨.inl .openSource, some (some (bodyOf [[1, 2]]))⟩] (approachCancellable [[1, 2]])) :=
  parts_meet_rule_iff Sample.crypto Sample.store (Sample.reference 2) Sample.whole
    (Sample.willing [[1, 2]]) [] rfl (Asks.beside (Sample.willing [[1, 2]]) fun _ => false) [] rfl

/-- A file of two bytes, read one byte at a time, goes out in two parts of one byte. -/
theorem short_reads_become_short_parts :
    ¬MeetsPartRule Sample.short.file (partsSent ((Sample.store.streamParts Sample.crypto
        (Sample.reference 2)).exec (Sample.willing [[1], [2]]) []).1) ∧
    ¬MeetsPartRule Sample.short.file (partsSent (Asks.heard
        ((Sample.store.streamPartsCancellable Sample.crypto (Sample.reference 2)).exec
          (Asks.beside (Sample.willing [[1], [2]]) fun _ => false) []).1)) := by
  have hparts : partsSent ((Sample.store.streamParts Sample.crypto
      (Sample.reference 2)).exec (Sample.willing [[1], [2]]) []).1 = [[1], [2]] := by
    decide +kernel
  have hcancellable : partsSent (Asks.heard
      ((Sample.store.streamPartsCancellable Sample.crypto (Sample.reference 2)).exec
        (Asks.beside (Sample.willing [[1], [2]]) fun _ => false) []).1) = [[1], [2]] := by
    decide +kernel
  rw [hparts, hcancellable]
  constructor
  · exact fun h => absurd (h.2 [1] (by simp)) (by decide)
  · exact fun h => absurd (h.2 [1] (by simp)) (by decide)

end RatatoskrVault.Adapter
