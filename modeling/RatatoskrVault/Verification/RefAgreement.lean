import Mathlib.Data.String.Basic
import RatatoskrVault.Core.Hex
import RatatoskrVault.Lib.Sorting
import RatatoskrVault.Mirror.Verdict
import RatatoskrVault.Verification.Drill

/-! Captures and drills read the same refs from the same text of `show-ref`, in whatever order its
lines come. -/
namespace RatatoskrVault

open Lib RestoreDrill

variable {cx : Crypto} {text text' : String} {parsed parsed' : List RefEvidence}

/-- The capture of a process that wrote the text and ended well. -/
def wrote (text : String) : Captured :=
  { exitCode := 0
    stdout := asBytes text
    stderr := []
    stdoutTruncated := false
    stderrTruncated := false }

/-- A line of the text says so of a ref. -/
def Lists (text : String) (reference : RefEvidence) : Prop :=
  ∃ line ∈ strLines text, parseLine line = some reference

section Parsing

/-- What a capture accepts, one ref for each line and no name twice. -/
theorem parseRefsFrom_spec : ∀ {names lines : List String} {references : List RefEvidence},
    parseRefsFrom names lines = .ok references →
      lines.mapM parseLine = some references ∧ (references.map (·.name)).Nodup ∧
        ∀ reference ∈ references, reference.name ∉ names
  | names, [], references, h => by
    cases h
    exact ⟨rfl, List.nodup_nil, by simp⟩
  | names, line :: rest, references, h => by
    unfold parseRefsFrom at h
    cases hline : parseLine line with
    | none => simp [hline] at h
    | some reference =>
      simp only [hline] at h
      split_ifs at h with hinvalid hduplicate
      cases hrest : parseRefsFrom (names ++ [reference.name]) rest with
      | error e => simp [hrest] at h
      | ok references' =>
        simp only [hrest, Except.ok.injEq] at h
        obtain ⟨hlines, hnodup, hfresh⟩ := parseRefsFrom_spec hrest
        subst h
        refine ⟨?_, ?_, ?_⟩
        · rw [List.mapM_cons, hline, hlines]
          rfl
        · rw [List.map_cons, List.nodup_cons]
          refine ⟨fun hmem => ?_, hnodup⟩
          obtain ⟨other, hother, hname⟩ := List.mem_map.mp hmem
          exact hfresh other hother (by simp [hname])
        · intro other hother
          rcases List.mem_cons.mp hother with rfl | hother
          · simpa using hduplicate
          · exact fun hmem => hfresh other hother (List.mem_append_left _ hmem)

theorem mem_of_mapM {α β : Type} {f : α → Option β} : ∀ {l : List α} {l' : List β},
    l.mapM f = some l' → ∀ b, b ∈ l' ↔ ∃ a ∈ l, f a = some b
  | [], l', h, b => by
    cases h
    simp
  | a :: l, l', h, b => by
    rw [List.mapM_cons] at h
    cases hfirst : f a with
    | none => simp [hfirst] at h
    | some first =>
      cases hrest : l.mapM f with
      | none => simp [hfirst, hrest] at h
      | some rest =>
        simp only [hfirst, hrest, Option.pure_def, Option.bind_eq_bind, Option.bind_some,
          Option.some.injEq] at h
        subst h
        rw [List.mem_cons, mem_of_mapM hrest b]
        simp [hfirst, eq_comm]

theorem mem_parsed (h : parseRefs (strLines text) = .ok parsed) (reference : RefEvidence) :
    reference ∈ parsed ↔ Lists text reference :=
  mem_of_mapM (parseRefsFrom_spec h).1 reference

/-- The drill reads the refs of the capture, by name. -/
theorem parseRefOutput_of_parseRefs (h : parseRefs (strLines text) = .ok parsed) :
    parseRefOutput (wrote text).outcome = .ok (byName parsed) := by
  have hlines : (wrote text).outcome.lines = some (strLines text) := by
    show (fromUtf8 (asBytes text)).map strLines = _
    rw [fromUtf8_asBytes]
    rfl
  unfold parseRefOutput
  rw [hlines]
  simp only [(parseRefsFrom_spec h).1]

end Parsing

/-- Without a name twice, the order by name depends on the refs alone. -/
theorem byName_eq_iff (h : (parsed.map (·.name)).Nodup) (h' : (parsed'.map (·.name)).Nodup) :
    byName parsed = byName parsed' ↔ ∀ reference, reference ∈ parsed ↔ reference ∈ parsed' := by
  constructor
  · intro heq reference
    have hmem : ∀ {references : List RefEvidence}, reference ∈ byName references ↔
        reference ∈ references := List.mem_mergeSort
    rw [← hmem, heq, hmem]
  · intro hsame
    have hperm : parsed.Perm parsed' :=
      (List.perm_ext_iff_of_nodup h.of_map h'.of_map).mpr hsame
    have hkey : IsKey (fun reference : RefEvidence => reference.name) parsed :=
      List.inj_on_of_nodup_map h
    have hkey' : IsKey (fun reference : RefEvidence => reference.name) parsed' :=
      List.inj_on_of_nodup_map h'
    unfold byName
    rw [mergeSort_eq_sortBy hkey, mergeSort_eq_sortBy hkey']
    exact sortBy_eq_of_perm hkey hperm

/-- Refs that differ are the only thing the comparison objects to. -/
theorem compareRefs_refMismatch_iff {store : LocalBlobStore} {evidence : SnapshotManifest}
    {input : DrillInput} {observed : List RefEvidence} {stages : List StageReport} :
    (∃ e, compareRefs cx store evidence input observed stages = .error e ∧
      e.failure = .refMismatch) ↔ observed ≠ evidence.refs := by
  unfold compareRefs
  by_cases hsame : observed = evidence.refs
  · simp only [hsame, if_true, ne_eq, not_true, iff_false]
    rintro ⟨e, he, hmismatch⟩
    split at he
    · rename_i hlfs
      rw [← Except.error.inj he] at hmismatch
      exact materializeLfs_error hlfs hmismatch
    · exact nomatch he
  · simp [hsame]

/-- For every text a capture accepts, the manifest has the refs the drill reads from its bytes; and
for every two such texts, the drill of the one agrees with the manifest of the other exactly if
they list the same refs. -/
theorem capture_and_drill_read_alike (cx : Crypto) (text : String) (parsed : List RefEvidence)
    (hparsed : parseRefs (strLines text) = .ok parsed) :
    (∀ generatorVersion bundles parentManifest createdAt lfs signer manifest,
      SnapshotManifest.new cx generatorVersion parsed bundles parentManifest createdAt lfs signer =
          .ok manifest →
        parseRefOutput (wrote text).outcome = .ok manifest.refs) ∧
    ∀ text' parsed', parseRefs (strLines text') = .ok parsed' →
      ∀ generatorVersion bundles parentManifest createdAt lfs signer manifest,
        SnapshotManifest.new cx generatorVersion parsed' bundles parentManifest createdAt lfs
            signer = .ok manifest →
          ∃ observed, parseRefOutput (wrote text).outcome = .ok observed ∧
            ∀ store input stages,
              (∃ e, compareRefs cx store manifest input observed stages = .error e ∧
                e.failure = .refMismatch) ↔
                  ¬∀ reference, Lists text reference ↔ Lists text' reference := by
  have hread := parseRefOutput_of_parseRefs hparsed
  constructor
  · intro generatorVersion bundles parentManifest createdAt lfs signer manifest hmanifest
    rw [hread, (SnapshotManifest.new_spec hmanifest).1]
    rfl
  · intro text' parsed' hparsed' generatorVersion bundles parentManifest createdAt lfs signer
      manifest hmanifest
    refine ⟨byName parsed, hread, fun store input stages => ?_⟩
    have hrefs : manifest.refs = byName parsed' := (SnapshotManifest.new_spec hmanifest).1
    have hnames : (parsed.map (·.name)).Nodup := (parseRefsFrom_spec hparsed).2.1
    have hnames' : (parsed'.map (·.name)).Nodup := (parseRefsFrom_spec hparsed').2.1
    rw [compareRefs_refMismatch_iff, hrefs, ne_eq, byName_eq_iff hnames hnames']
    simp only [mem_parsed hparsed, mem_parsed hparsed']

namespace Sample

/-- Nothing is hashed, encoded or signed. -/
def keyless : Crypto :=
  { sha256 := fun _ => 0
    encode := fun _ => []
    decode := fun _ => none
    sign := fun _ => ""
    verifies := fun _ _ _ => false }

def mainLine : String := "1111111111111111111111111111111111111111 refs/heads/main"

def tagLine : String := "2222222222222222222222222222222222222222 refs/tags/v 1"

end Sample

/-- The same two refs, listed in both orders and with both line ends. -/
theorem capture_and_drill_read_alike_reordered :
    ∃ observed manifest,
      parseRefOutput (wrote (Sample.mainLine ++ "\n" ++ Sample.tagLine)).outcome = .ok observed ∧
      parseRefOutput (wrote (Sample.tagLine ++ "\r\n" ++ Sample.mainLine)).outcome =
        .ok manifest.refs ∧
      (¬∃ e, compareRefs Sample.keyless { maxBytes := 0, files := fun _ => none } manifest
          { scratchCreated := true, bundleConfined := true, init := .runner
            bundleVerify := .runner, fetch := .runner, fsck := .runner, showRef := .runner
            lfsWrites := [] } observed [] = .error e ∧ e.failure = .refMismatch) := by
  have hmain : parseRefs (strLines (Sample.mainLine ++ "\n" ++ Sample.tagLine)) =
      .ok [⟨"refs/heads/main", "1111111111111111111111111111111111111111"⟩,
        ⟨"refs/tags/v 1", "2222222222222222222222222222222222222222"⟩] := by decide +kernel
  have htag : parseRefs (strLines (Sample.tagLine ++ "\r\n" ++ Sample.mainLine)) =
      .ok [⟨"refs/tags/v 1", "2222222222222222222222222222222222222222"⟩,
        ⟨"refs/heads/main", "1111111111111111111111111111111111111111"⟩] := by decide +kernel
  obtain ⟨observed, hread, hcompare⟩ := (capture_and_drill_read_alike Sample.keyless _ _ hmain).2
    _ _ htag "0.1.0" [] none "t" none { keyId := "k" } _ rfl
  refine ⟨observed, _, hread, ?_, fun hmismatch => (hcompare _ _ _).mp hmismatch ?_⟩
  · exact (capture_and_drill_read_alike Sample.keyless _ _ htag).1 "0.1.0" [] none "t" none
      { keyId := "k" } _ rfl
  · intro reference
    rw [← mem_parsed hmain, ← mem_parsed htag]
    simp [or_comm]

end RatatoskrVault
