import RatatoskrVault.Mirror.LfsPublished
import RatatoskrVault.Mirror.RunDirectory

/-! A collection of Git LFS objects is complete or leaves nothing, exactly where the listing names
no object twice and no copy of the mirror stops. -/
namespace RatatoskrVault

open Lib Manifest

namespace LfsCollector

section

variable {KeyPair : Type} (primitives : Primitives KeyPair) (limit : ℕ) (gitLfs : GitLfs)
  (collector : LfsCollector) (mirrorRelative : List PathComponent) (runId : FileName)
  (disk : Disk)

/-- Git LFS has staged the objects of a mirror and listed them. -/
def Lists (config : LfsRunConfig) (staged : Staged) (reached : Disk) : Prop :=
  ∃ prepared, collector.prepare limit runId mirrorRelative disk = (.ok config, prepared) ∧
    collector.stage limit gitLfs config prepared = (.ok staged, reached)

/-- A well-formed listing within the limits, of objects that are present and correct. One object
may be listed for several paths. -/
structure Collectable (config : LfsRunConfig) (staged : Staged) (reached : Disk) (text : String) :
    Prop where
  listing : fromUtf8 staged.listing = some text
  wellFormed : ∀ line ∈ strLines text, line.isEmpty = false →
    ∃ oid, firstWord line = some oid ∧ isOid oid = true
  fits : (listedOids text).dedup.length ≤ collector.settings.maxObjects
  present : ∀ oid ∈ listedOids text, Present primitives.sha256 limit collector.storeMaxBytes
    reached config.storageDirectory.asPath oid
  version : (fromUtf8 staged.versionOutput).isSome = true

/-- The evidence names the distinct listed objects in ascending order, all of them stored. -/
structure Complete (staged : Staged) (text : String) (collection : LfsCollection) (final : Disk) :
    Prop where
  objects : collection.evidence.objects.map (·.oid) = sortBy id (listedOids text).dedup
  stored : ∀ object ∈ collection.evidence.objects,
    object.blob.sha256 = object.oid ∧ Stored primitives.sha256 final.blobs object.oid
  count : collection.evidence.objects.length ≤ collector.settings.maxObjects
  bytes : collection.stagedBytes = staged.stagedBytes
  quota : collection.stagedBytes ≤ collector.settings.stageMaxBytes

structure CompleteOrNothing : Prop where
  complete : ∀ collection final,
    collector.collect primitives limit gitLfs runId mirrorRelative disk = (.ok collection, final) →
      ∃ config staged reached text,
        collector.Lists limit gitLfs mirrorRelative runId disk config staged reached ∧
        fromUtf8 staged.listing = some text ∧
        collector.Complete primitives staged text collection final
  total : ∀ config staged reached text,
    collector.Lists limit gitLfs mirrorRelative runId disk config staged reached →
      collector.Collectable primitives limit config staged reached text →
        ∃ collection final,
          collector.collect primitives limit gitLfs runId mirrorRelative disk
            = (.ok collection, final)
  removed : ¬ IsDirectory limit
    (collector.collect primitives limit gitLfs runId mirrorRelative disk).2.tree
    (collector.runDirectory runId)

/-- A listing that could be collected names an object on two lines. -/
def RepeatsObject : Prop :=
  ∃ config staged reached text,
    collector.Lists limit gitLfs mirrorRelative runId disk config staged reached ∧
    collector.Collectable primitives limit config staged reached text ∧ ¬ (listedOids text).Nodup

end

section

variable {KeyPair : Type} {primitives : Primitives KeyPair} {limit : ℕ} {gitLfs : GitLfs}
  {collector : LfsCollector} {mirrorRelative : List PathComponent} {runId : FileName}
  {disk reached final after : Disk} {config : LfsRunConfig} {staged : Staged}
  {collection : LfsCollection} {text : String}

theorem publishListed_eq_ok :
    collector.publishListed primitives limit runId config staged disk = (.ok collection, after) ↔
      ∃ oids objects version,
        parseOids staged.listing collector.settings.maxObjects = .ok oids ∧
        collector.publishObjects primitives limit config.storageDirectory.asPath oids disk
          = (.ok objects, after) ∧
        fromUtf8 staged.versionOutput = some version ∧
        collection =
          { runId
            evidence := Manifest.LfsEvidence.new primitives (trim version) objects
            stagedBytes := staged.stagedBytes } := by
  unfold publishListed
  constructor
  · intro h
    cases hparsed : parseOids staged.listing collector.settings.maxObjects with
    | error e =>
      rw [hparsed] at h
      cases (Prod.mk.inj h).1
    | ok oids =>
      rw [hparsed] at h
      dsimp only at h
      cases hpublished :
          collector.publishObjects primitives limit config.storageDirectory.asPath oids disk with
      | mk result last =>
        rw [hpublished] at h
        cases result with
        | error e => cases (Prod.mk.inj h).1
        | ok objects =>
          cases hversion : fromUtf8 staged.versionOutput with
          | none =>
            rw [hversion] at h
            cases (Prod.mk.inj h).1
          | some version =>
            rw [hversion] at h
            obtain ⟨hresult, rfl⟩ := Prod.mk.inj h
            exact ⟨oids, objects, version, rfl, hpublished, rfl, (Except.ok.inj hresult).symm⟩
  · rintro ⟨oids, objects, version, hparsed, hpublished, hversion, rfl⟩
    rw [hparsed]
    dsimp only
    rw [hpublished]
    dsimp only
    rw [hversion]

theorem collect_eq_ok :
    collector.collect primitives limit gitLfs runId mirrorRelative disk = (.ok collection, final) ↔
      ∃ config staged reached after,
        collector.Lists limit gitLfs mirrorRelative runId disk config staged reached ∧
        collector.publishListed primitives limit runId config staged reached
          = (.ok collection, after) ∧
        final =
          { after with tree := removeDirAll limit after.tree (collector.runDirectory runId) } := by
  unfold collect Lists collectWithRunner
  constructor
  · intro h
    cases hprepare : collector.prepare limit runId mirrorRelative disk with
    | mk result prepared =>
      rw [hprepare] at h
      cases result with
      | error e => cases (Prod.mk.inj h).1
      | ok config =>
        dsimp only at h
        cases hstage : collector.stage limit gitLfs config prepared with
        | mk result reached =>
          rw [hstage] at h
          cases result with
          | error e => cases (Prod.mk.inj h).1
          | ok staged =>
            obtain ⟨hresult, hfinal⟩ := Prod.mk.inj h
            refine ⟨config, staged, reached, _, ⟨prepared, rfl, hstage⟩, ?_, hfinal.symm⟩
            exact Prod.ext hresult rfl
  · rintro ⟨config, staged, reached, after, ⟨prepared, hprepare, hstage⟩, hlisted, rfl⟩
    rw [hprepare]
    dsimp only
    rw [hstage]
    dsimp only
    rw [hlisted]

/-- Nothing is staged beyond the quota. -/
theorem stagedBytes_le (h : collector.stage limit gitLfs config disk = (.ok staged, after)) :
    staged.stagedBytes ≤ collector.settings.stageMaxBytes := by
  unfold stage at h
  split at h
  · cases (Prod.mk.inj h).1
  · split at h
    · cases (Prod.mk.inj h).1
    · split at h
      · cases (Prod.mk.inj h).1
      · split_ifs at h with hlarge
        · cases (Prod.mk.inj h).1
        · split at h
          · cases (Prod.mk.inj h).1
          · obtain rfl := Except.ok.inj (Prod.mk.inj h).1
            exact Nat.not_lt.mp hlarge

/-- What a collection that succeeds says is the whole truth. -/
theorem complete_of_collect
    (h : collector.collect primitives limit gitLfs runId mirrorRelative disk
      = (.ok collection, final)) :
    ∃ config staged reached text,
      collector.Lists limit gitLfs mirrorRelative runId disk config staged reached ∧
      fromUtf8 staged.listing = some text ∧
      collector.Complete primitives staged text collection final := by
  obtain ⟨config, staged, reached, after, hlists, hlisted, rfl⟩ := collect_eq_ok.mp h
  obtain ⟨oids, objects, version, hparsed, hpublished, -, rfl⟩ := publishListed_eq_ok.mp hlisted
  obtain ⟨text, hutf, -, hnodup, hcount, rfl⟩ := parseOids_eq_ok.mp hparsed
  obtain ⟨hoids, -, hstored⟩ := publishObjects_eq_ok hpublished
  obtain ⟨prepared, -, hstage⟩ := id hlists
  have hsorted : sortBy (·.oid) objects = objects := by
    refine sortBy_eq_self (List.pairwise_map.mp ?_)
    rw [hoids]
    exact pairwise_sortBy
  have hlength : objects.length = (listedOids text).length := by
    have hmap := congrArg List.length hoids
    rwa [List.length_map, perm_sortBy.length_eq] at hmap
  refine ⟨config, staged, reached, text, hlists, hutf, ?_⟩
  exact {
    objects := by
      rw [hnodup.dedup]
      show (sortBy (·.oid) objects).map (·.oid) = _
      rw [hsorted, hoids]
    stored := fun object hobject => hstored object (mem_sortBy.mp hobject)
    count := by
      show (sortBy (·.oid) objects).length ≤ _
      rw [hsorted, hlength]
      exact hcount
    bytes := rfl
    quota := stagedBytes_le hstage }

/-- A listing without repetitions is collected. -/
theorem isOk_of_collectable
    (hlists : collector.Lists limit gitLfs mirrorRelative runId disk config staged reached)
    (h : collector.Collectable primitives limit config staged reached text)
    (hnodup : (listedOids text).Nodup) :
    ∃ collection final,
      collector.collect primitives limit gitLfs runId mirrorRelative disk
        = (.ok collection, final) := by
  have hcount : (listedOids text).length ≤ collector.settings.maxObjects := by
    have hfits := h.fits
    rwa [hnodup.dedup] at hfits
  have hparsed : parseOids staged.listing collector.settings.maxObjects
      = .ok (sortBy id (listedOids text)) :=
    parseOids_eq_ok.mpr ⟨text, h.listing, h.wellFormed, hnodup, hcount, rfl⟩
  obtain ⟨objects, after, hpublished⟩ : ∃ objects after,
      collector.publishObjects primitives limit config.storageDirectory.asPath
        (sortBy id (listedOids text)) reached = (.ok objects, after) :=
    publishObjects_isOk fun oid hoid => h.present oid (mem_sortBy.mp hoid)
  obtain ⟨version, hversion⟩ := Option.isSome_iff_exists.mp h.version
  obtain ⟨collection, hlisted⟩ : ∃ collection,
      collector.publishListed primitives limit runId config staged reached
        = (.ok collection, after) :=
    ⟨_, publishListed_eq_ok.mpr ⟨_, objects, version, hparsed, hpublished, hversion, rfl⟩⟩
  exact ⟨collection, _,
    collect_eq_ok.mpr ⟨config, staged, reached, after, hlists, hlisted, rfl⟩⟩

/-- No collection succeeds on a listing that repeats an object. -/
theorem nodup_of_collect
    (hlists : collector.Lists limit gitLfs mirrorRelative runId disk config staged reached)
    (hutf : fromUtf8 staged.listing = some text)
    (h : collector.collect primitives limit gitLfs runId mirrorRelative disk
      = (.ok collection, final)) : (listedOids text).Nodup := by
  obtain ⟨prepared, hprepare, hstage⟩ := hlists
  obtain ⟨_, _, _, after, ⟨prepared', hprepare', hstage'⟩, hlisted, -⟩ := collect_eq_ok.mp h
  rw [hprepare] at hprepare'
  obtain ⟨hconfig, rfl⟩ := Prod.mk.inj hprepare'
  obtain rfl := Except.ok.inj hconfig
  rw [hstage] at hstage'
  obtain ⟨hstaged, rfl⟩ := Prod.mk.inj hstage'
  obtain rfl := Except.ok.inj hstaged
  obtain ⟨oids, _, _, hparsed, -⟩ := publishListed_eq_ok.mp hlisted
  obtain ⟨text', hutf', -, hnodup, -⟩ := parseOids_eq_ok.mp hparsed
  rw [hutf] at hutf'
  rwa [Option.some.inj hutf']

/-- After a preparation that succeeds the directory of the run is removed. -/
theorem removed_iff (hfresh : FreshRun limit collector runId disk.tree) :
    ¬ IsDirectory limit
        (collector.collect primitives limit gitLfs runId mirrorRelative disk).2.tree
        (collector.runDirectory runId)
      ↔ ¬ LeavesCopy limit collector mirrorRelative runId disk.tree := by
  unfold collect
  constructor
  · intro hgone hleaves
    obtain ⟨e, after, hprepare, hleft⟩ := prepare_of_leavesCopy hfresh hleaves
    rw [hprepare] at hgone
    exact hgone hleft
  · intro hno
    cases hprepare : collector.prepare limit runId mirrorRelative disk with
    | mk result prepared =>
      cases result with
      | error e =>
        obtain rfl := prepare_of_not_leavesCopy hfresh hno hprepare
        exact hfresh.unused
      | ok config =>
        have hlast : collector.runDirectory runId
            = pathParts collector.settings.workRoot ++ [StageName.runs] ++ [runId] := by
          simp [runDirectory, runRelative]
        dsimp only
        rw [hlast]
        exact Node.not_isDirectory_removeDirAll hfresh.real

end

theorem complete_or_nothing_iff {KeyPair : Type} (primitives : Primitives KeyPair) (limit : ℕ)
    (gitLfs : GitLfs) (collector : LfsCollector) (mirrorRelative : List PathComponent)
    (runId : FileName) (disk : Disk) (hfresh : FreshRun limit collector runId disk.tree) :
    collector.CompleteOrNothing primitives limit gitLfs mirrorRelative runId disk
      ↔ ¬ collector.RepeatsObject primitives limit gitLfs mirrorRelative runId disk ∧
        ¬ LeavesCopy limit collector mirrorRelative runId disk.tree := by
  constructor
  · intro h
    refine ⟨?_, (removed_iff hfresh).mp h.removed⟩
    rintro ⟨config, staged, reached, text, hlists, hcollectable, hrepeats⟩
    obtain ⟨collection, final, hok⟩ := h.total config staged reached text hlists hcollectable
    exact hrepeats (nodup_of_collect hlists hcollectable.listing hok)
  · rintro ⟨hrepeats, hleaves⟩
    refine ⟨fun _ _ => complete_of_collect, fun config staged reached text hlists h => ?_,
      (removed_iff hfresh).mpr hleaves⟩
    by_cases hnodup : (listedOids text).Nodup
    · exact isOk_of_collectable hlists h hnodup
    · exact absurd ⟨config, staged, reached, text, hlists, h, hnodup⟩ hrepeats

namespace Sample

/-- Everything hashes to zero. -/
def primitives : Primitives Unit := { Manifest.Sample.vault with sha256 := fun _ => 0 }

def collector : LfsCollector :=
  { settings :=
      { lfsBinary := ['/', 'g', 'i', 't', '-', 'l', 'f', 's']
        mirrorRoot := ['/', 'm']
        workRoot := ['/', 'w']
        stageMaxBytes := 10
        maxObjects := 1
        deadline := 30
        transferMode := .standaloneFile }
    storeMaxBytes := 10 }

def mirror : List PathComponent := [.normal ['a']]

def runId : FileName := ['1']

/-- One mirror with one entry, which is a link or a file. -/
def disk (linked : Bool) : Disk :=
  let head := if linked then .link ['r', 'e', 'f', 's'] else .file [1]
  { tree := .dir [(['m'], .dir [(['a'], .dir [(['H', 'E', 'A', 'D'], head)])]),
      (['w'], .dir [])]
    blobs := fun _ => none }

def zeros : FileName := List.replicate 64 '0'

def zeroOid : String := String.ofList zeros

def text (chars : List Char) : Bytes := chars.flatMap String.utf8EncodeChar

theorem fromUtf8_text (chars : List Char) : fromUtf8 (text chars) = some (String.ofList chars) := by
  have hbytes : text chars = asBytes (String.ofList chars) := by
    unfold asBytes
    rw [String.toList_ofList]
    rfl
  rw [hbytes, fromUtf8_asBytes]

def exits (stdout : Bytes) : GitProcess :=
  .spawned (.exited (some 0))
    { chunks := stdout.map fun byte => ⟨[byte], Nat.one_pos, by simp⟩, lost := [] }
    { chunks := [], lost := [] } true

/-- The object of the zeros, as it is listed for a path. -/
def line : List Char := zeros ++ [' ', '*', ' ', 'a']

def listing (twice : Bool) : List Char :=
  line ++ '\n' :: if twice then line ++ ['\n'] else []

/-- Git LFS stages one object of two bytes, and lists it for one path or for two. -/
def gitLfs (twice : Bool) : GitLfs := fun config arguments disk =>
  match arguments with
  | ["version"] => (exits (text ['3', '.', '7']), disk)
  | "fetch" :: _ =>
    let path := config.storageDirectory.asPath ++
      [StageName.objects, ['0', '0'], ['0', '0'], zeros]
    (exits [],
      { disk with
        tree := ((disk.tree.createDirs path).map (Node.put (.file [104, 105]) path)).getD
          disk.tree })
  | _ => (exits (text (listing twice)), disk)

theorem freshRun (linked : Bool) : FreshRun 40 collector runId (disk linked).tree := by
  have hmissing : (disk linked).tree.resolve true 40 [] (collector.runDirectory runId)
      = .error .notFound := by
    cases linked <;> rfl
  refine ⟨by decide, by decide, ?_⟩
  rintro ⟨path, hpath, -⟩
  rw [hmissing] at hpath
  cases hpath

/-- The configuration of the calls. -/
def config : LfsRunConfig :=
  let run := [StageName.runs, runId]
  let work (segments : List FileName) : ConfinedPath := { root := [['w']], segments }
  { lfsBinary := ['/', 'g', 'i', 't', '-', 'l', 'f', 's']
    mirrorDirectory := work (run ++ [StageName.mirrorGit])
    storageDirectory := work (run ++ [StageName.mirrorGit, StageName.lfs])
    runHome := work (run ++ [StageName.home])
    transferMode := .standaloneFile
    deadline := 30
    stdoutCapBytes := 4 * 1024 * 1024
    stderrCapBytes := 256 * 1024 }

def staged (twice : Bool) : Staged :=
  { versionOutput := text ['3', '.', '7']
    stagedBytes := 2
    listing := text (listing twice) }

def prepared : Disk := (collector.prepare 40 runId mirror (disk false)).2

def reached (twice : Bool) : Disk := (collector.stage 40 (gitLfs twice) config prepared).2

/-- The preparation, the calls of Git LFS, and what they leave for a listing of two lines. -/
theorem runs : (collector.prepare 40 runId mirror (disk false)).1 = .ok config ∧
    (∀ twice, (collector.stage 40 (gitLfs twice) config prepared).1 = .ok (staged twice)) ∧
    objectFile 40 (reached true).tree config.storageDirectory.asPath zeroOid = .ok [104, 105] ∧
    (reached true).blobs 0 = none := by
  rw [objectFile, objectPath, zeroOid, String.toList_ofList]
  decide +kernel

theorem prepare_eq :
    collector.prepare 40 runId mirror (disk false) = (.ok config, prepared) :=
  Prod.ext runs.1 rfl

theorem stage_eq (twice : Bool) :
    collector.stage 40 (gitLfs twice) config prepared = (.ok (staged twice), reached twice) :=
  Prod.ext (runs.2.1 twice) rfl

theorem lists (twice : Bool) :
    collector.Lists 40 (gitLfs twice) mirror runId (disk false) config (staged twice)
      (reached twice) :=
  ⟨prepared, prepare_eq, stage_eq twice⟩

theorem reads :
    (∀ twice, Lib.lines '\n' '\r' (listing twice) = if twice then [line, line] else [line]) ∧
      (line.dropWhile isWhitespace).takeWhile (fun c => !isWhitespace c) = zeros ∧
      (String.ofList line).isEmpty = false ∧ isOid zeroOid = true := by
  rw [isOid, zeroOid, String.toList_ofList]
  decide +kernel

theorem strLines_listing (twice : Bool) : strLines (String.ofList (listing twice))
    = if twice then [String.ofList line, String.ofList line] else [String.ofList line] := by
  rw [strLines, String.toList_ofList, reads.1]
  cases twice <;> rfl

theorem firstWord_line : firstWord (String.ofList line) = some zeroOid := by
  unfold firstWord
  rw [String.toList_ofList, reads.2.1]
  rfl

theorem listedOids_listing (twice : Bool) : listedOids (String.ofList (listing twice))
    = if twice then [zeroOid, zeroOid] else [zeroOid] := by
  unfold listedOids
  rw [strLines_listing]
  cases twice <;> simp [reads.2.2.1, firstWord_line]

theorem hexDigest_zero : hexDigest 0 = zeroOid := by
  unfold hexDigest zeroOid
  congr 1

theorem collectable : collector.Collectable primitives 40 config (staged true) (reached true)
    (String.ofList (listing true)) := by
  obtain ⟨-, -, hreached, hempty⟩ := runs
  refine ⟨fromUtf8_text _, fun text htext _ => ?_, ?_, fun oid hoid => ?_, ?_⟩
  · have hword : firstWord text = some zeroOid := by
      rw [strLines_listing] at htext
      simp at htext
      rw [htext, firstWord_line]
    exact ⟨zeroOid, hword, reads.2.2.2⟩
  · rw [listedOids_listing]
    simp [collector]
  · obtain rfl : oid = zeroOid := by
      rw [listedOids_listing] at hoid
      simpa using hoid
    refine ⟨[104, 105], hreached, by decide, hexDigest_zero, fun stored hstored => ?_⟩
    rw [show primitives.sha256 [104, 105] = 0 from rfl, hempty] at hstored
    cases hstored
  · show (fromUtf8 (text ['3', '.', '7'])).isSome = true
    rw [fromUtf8_text]
    rfl

end Sample

/-- One object of a mirror that is copied, listed for one path. -/
theorem complete_or_nothing_iff_one_object :
    Sample.collector.CompleteOrNothing Sample.primitives 40
      (Sample.gitLfs false) Sample.mirror Sample.runId (Sample.disk false) := by
  refine (complete_or_nothing_iff Sample.primitives 40 (Sample.gitLfs false)
    Sample.collector Sample.mirror Sample.runId (Sample.disk false)
    (Sample.freshRun _)).mpr ⟨?_, ?_⟩
  · rintro ⟨config, staged, reached, text, ⟨prepared, hprepare, hstage⟩, hcollectable, hrepeats⟩
    rw [Sample.prepare_eq] at hprepare
    obtain ⟨hconfig, rfl⟩ := Prod.mk.inj hprepare
    obtain rfl := Except.ok.inj hconfig
    rw [Sample.stage_eq] at hstage
    obtain ⟨hstaged, rfl⟩ := Prod.mk.inj hstage
    obtain rfl := Except.ok.inj hstaged
    have hlisting := (Sample.fromUtf8_text (Sample.listing false)).symm.trans hcollectable.listing
    rw [← Option.some.inj hlisting, Sample.listedOids_listing] at hrepeats
    exact hrepeats (List.nodup_singleton _)
  · rintro ⟨-, source, staged, hsource, hstaged, -, hstops⟩
    have hfrom : ConfinedPath.new 40 (Sample.disk false).tree ['/', 'm'] Sample.mirror
        = some { root := [['m']], segments := [['a']] } := by decide +kernel
    have hto : Sample.collector.settings.confined 40 (Sample.disk false).tree
        (stagedMirrorRelative Sample.runId) = some Sample.config.mirrorDirectory := by
      decide +kernel
    obtain rfl := Option.some.inj (hfrom.symm.trans hsource)
    obtain rfl := Option.some.inj (hto.symm.trans hstaged)
    rcases hstops with hinside | hirregular
    · revert hinside
      decide +kernel
    · exact hirregular ⟨[(['H', 'E', 'A', 'D'], .file [1])], rfl, rfl⟩

/-- An object that is listed for two paths is refused, and a mirror with a link is left in the
directory of its run. -/
theorem repeated_object_and_linked_mirror :
    ¬ Sample.collector.CompleteOrNothing Sample.primitives 40
        (Sample.gitLfs true) Sample.mirror Sample.runId (Sample.disk false) ∧
      ¬ Sample.collector.CompleteOrNothing Sample.primitives 40
        (Sample.gitLfs false) Sample.mirror Sample.runId (Sample.disk true) := by
  constructor
  · intro h
    obtain ⟨collection, final, hok⟩ := h.total _ _ _ _ (Sample.lists true)
      Sample.collectable
    have hnodup := nodup_of_collect (Sample.lists true)
      Sample.collectable.listing hok
    rw [Sample.listedOids_listing] at hnodup
    simp at hnodup
  · intro h
    refine h.removed ⟨[['w'], StageName.runs, Sample.runId], ?_, ?_⟩
    · decide +kernel
    · decide +kernel

end LfsCollector

end RatatoskrVault
