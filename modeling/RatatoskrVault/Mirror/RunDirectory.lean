import RatatoskrVault.Mirror.LfsCollection

/-! The directory of a run. Where Git LFS is not reached, nothing is removed: a copy of the mirror
that does not come to its end is left behind, and everything else that fails has made nothing. -/
namespace RatatoskrVault

open Lib Node

section

mutual

/-- An entry is copied exactly if there are directories and regular files only. -/
theorem copyEntry_eq_ok (node : Node Bytes) :
    (copyEntry node).1 = .ok () ↔ node.regular = true := by
  cases node with
  | dir entries => exact copyEntries_eq_ok entries
  | file content => exact ⟨fun _ => rfl, fun _ => rfl⟩
  | _ => exact ⟨fun h => (nomatch h), fun h => (nomatch h)⟩

theorem copyEntries_eq_ok (entries : List (FileName × Node Bytes)) :
    (copyEntries entries).1 = .ok () ↔ regularEntries entries = true := by
  cases entries with
  | nil => exact ⟨fun _ => rfl, fun _ => rfl⟩
  | cons entry entries =>
    obtain ⟨name, node⟩ := entry
    rw [copyEntries, regularEntries, Bool.and_eq_true, ← copyEntry_eq_ok node,
      ← copyEntries_eq_ok entries]
    cases hcopy : copyEntry node with
    | mk result copied =>
      cases result with
      | error e => exact ⟨fun h => (nomatch h), fun h => (nomatch h.1)⟩
      | ok => exact ⟨fun h => ⟨rfl, h⟩, fun h => h.2⟩

end

theorem regularEntries_append {a b : List (FileName × Node Bytes)} :
    regularEntries (a ++ b) = (regularEntries a && regularEntries b) := by
  induction a with
  | nil => rfl
  | cons entry a ih => rw [List.cons_append, regularEntries, ih, regularEntries, Bool.and_assoc]

mutual

/-- What is copied are directories and regular files. -/
theorem regular_of_copyEntry (node : Node Bytes) :
    ∀ copy ∈ (copyEntry node).2, copy.regular = true := by
  cases node with
  | dir entries =>
    intro copy hcopy
    obtain rfl := Option.some.inj hcopy
    exact regularEntries_copyEntries entries
  | file content =>
    intro copy hcopy
    obtain rfl := Option.some.inj hcopy
    rfl
  | _ => exact fun _ hcopy => (nomatch hcopy)

theorem regularEntries_copyEntries (entries : List (FileName × Node Bytes)) :
    regularEntries (copyEntries entries).2 = true := by
  cases entries with
  | nil => rfl
  | cons entry entries =>
    obtain ⟨name, node⟩ := entry
    have hnode := regular_of_copyEntry node
    have hrest := regularEntries_copyEntries entries
    have hhead :
        regularEntries ((copyEntry node).2.toList.map fun copy => (name, copy)) = true := by
      cases hcopy : (copyEntry node).2 with
      | none => rfl
      | some copy =>
        have hregular := hnode copy hcopy
        simp [regularEntries, hregular]
    rw [copyEntries]
    cases hcopy : copyEntry node with
    | mk result copied =>
      rw [hcopy] at hhead
      cases result with
      | error e => exact hhead
      | ok => exact regularEntries_append.trans (by rw [hhead, hrest]; rfl)

end

end

section

variable {tree made : Node Bytes} {source destination q : List FileName}

/-- A copy makes its destination, and touches nothing beside it. -/
structure CopiedTo (tree : Node Bytes) (destination : List FileName) (after : Node Bytes) :
    Prop where
  way : ∀ q, q <+: destination → after.shellAt q = some (.dir [])
  beside : ∀ q, ¬ destination <+: q → ¬ q <+: destination → after.shellAt q = tree.shellAt q

theorem copyTree_of_not_made (h : tree.createDirs destination = none) :
    copyTree tree source destination = (.error .storage, tree) := by
  unfold copyTree
  rw [h]

theorem copiedTo_copyTree (h : tree.createDirs destination = some made) :
    CopiedTo tree destination (copyTree tree source destination).2 := by
  have hmade : CopiedTo tree destination made := by
    refine ⟨fun q hq => ?_, fun q _ hq => ?_⟩
    · rw [createDirs_shellAt h, if_pos hq]
    · rw [createDirs_shellAt h, if_neg hq]
  have hfound := found_of_createDirs h
  have hput : ∀ copies, CopiedTo tree destination (put (.dir copies) destination made) := by
    intro copies
    refine ⟨fun q hq => ?_, fun q hbelow hq => ?_⟩
    · rw [put_shellAt hfound]
      by_cases hsame : destination <+: q
      · obtain rfl : destination = q := hsame.eq_of_length_le hq.length_le
        rw [if_pos (List.prefix_refl _), List.drop_length, shellAt_nil]
        rfl
      · rw [if_neg hsame]
        exact hmade.way q hq
    · rw [put_shellAt hfound, if_neg hbelow]
      exact hmade.beside q hbelow hq
  unfold copyTree
  rw [h]
  dsimp only
  by_cases hinside : source <+: destination
  · rw [if_pos hinside]
    exact hmade
  · rw [if_neg hinside]
    split
    · exact hput _
    · exact hmade

/-- What keeps a copy from its end. -/
def CopyStops (tree : Node Bytes) (source destination : List FileName) : Prop :=
  source <+: destination ∨
    ¬ ∃ entries, tree.lookup source = some (.dir entries) ∧ regularEntries entries = true

theorem copyTree_eq_ok (h : tree.createDirs destination = some made) :
    (copyTree tree source destination).1 = .ok () ↔ ¬ CopyStops tree source destination := by
  unfold copyTree CopyStops
  rw [h]
  dsimp only
  by_cases hinside : source <+: destination
  · rw [if_pos hinside]
    exact ⟨fun h => (nomatch h), fun h => absurd (Or.inl hinside) h⟩
  · rw [if_neg hinside, createDirs_lookup h hinside]
    simp only [hinside, false_or, not_not]
    split
    · rename_i entries hentries
      rw [hentries]
      simp only [Option.some.injEq, dir.injEq, exists_eq_left']
      exact copyEntries_eq_ok entries
    · rename_i hno
      exact ⟨fun h => (nomatch h), fun ⟨entries, hentries, _⟩ => absurd hentries (hno entries)⟩

/-- A copy that comes to its end has no links. -/
theorem no_link_of_copyTree (h : tree.createDirs destination = some made)
    (hok : (copyTree tree source destination).1 = .ok ()) (q : List FileName) :
    (copyTree tree source destination).2.kindAt (destination ++ q) ≠ some .link := by
  have hfound := found_of_createDirs h
  unfold copyTree at hok ⊢
  rw [h] at hok ⊢
  dsimp only at hok ⊢
  by_cases hinside : source <+: destination
  · rw [if_pos hinside] at hok
    cases hok
  · rw [if_neg hinside] at hok ⊢
    split at hok
    · rename_i entries hentries
      have hplain : (Node.dir (copyEntries entries).2).Plain :=
        plain_of_regular (regularEntries_copyEntries entries)
      rw [kindAt_eq_shellAt, put_shellAt hfound, if_pos (List.prefix_append ..),
        List.drop_left, ← kindAt_eq_shellAt]
      intro hlink
      obtain ⟨found, hlookup, hkind⟩ := Option.map_eq_some_iff.mp hlink
      rcases hplain q found hlookup with hdir | hfile
      · rw [hkind] at hdir
        cases hdir
      · rw [hkind] at hfile
        cases hfile
    · cases hok

/-- Where nothing is at the destination, everything there was is still found. -/
theorem CopiedTo.extends {after : Node Bytes} (h : CopiedTo tree destination after)
    (hmade : tree.createDirs destination = some made)
    (hnew : ∀ q, destination <+: q → tree.shellAt q = none) : tree.Extends after := by
  intro q shell hshell
  by_cases hway : q <+: destination
  · rw [h.way q hway, dir_of_createDirs hmade hway hshell]
  · by_cases hbelow : destination <+: q
    · rw [hnew q hbelow] at hshell
      cases hshell
    · rw [h.beside q hbelow hway, hshell]

end

namespace LfsCollector

section

variable {limit : ℕ} {collector : LfsCollector} {runId : FileName} {tree after made : Node Bytes}
  {root relative more : List FileName}

theorem confined_eq_some {settings : LfsCollectionSettings} {path : ConfinedPath}
    (hne : relative ≠ []) : settings.confined limit tree relative = some path ↔
      ∃ root, canonicalize limit tree [] settings.workRoot = .ok root ∧
        ConfinedPath.inspect limit tree root relative = true ∧
        path = { root, segments := relative } := by
  unfold LfsCollectionSettings.confined ConfinedPath.new ConfinedPath.confine
  rw [if_neg (by simpa using hne), normalizeLexically_normal, List.nil_append]
  cases canonicalize limit tree [] settings.workRoot with
  | error e => simp
  | ok root =>
    simp only [Except.ok.injEq, exists_eq_left']
    by_cases hinspect : ConfinedPath.inspect limit tree root relative = true
    · rw [if_pos hinspect, Option.some.injEq]
      exact ⟨fun h => ⟨hinspect, h.symm⟩, fun h => h.2.symm⟩
    · rw [if_neg hinspect]
      exact ⟨fun h => (nomatch h), fun h => absurd h.1 hinspect⟩

/-- The id of a run is a real name that no other run has had. -/
structure FreshRun (limit : ℕ) (collector : LfsCollector) (runId : FileName)
    (tree : Node Bytes) : Prop where
  real : runId ≠ ['.'] ∧ runId ≠ ['.', '.']
  nul : Char.ofNat 0 ∉ runId
  unused : ¬ IsDirectory limit tree (collector.runDirectory runId)

theorem FreshRun.real_of_mem (h : FreshRun limit collector runId tree) :
    ∀ name ∈ runRelative runId, name ≠ ['.'] ∧ name ≠ ['.', '.'] := by
  intro name hname
  rcases List.mem_pair.mp hname with rfl | rfl
  · decide
  · exact h.real

theorem FreshRun.nul_of_mem (h : FreshRun limit collector runId tree) :
    ∀ name ∈ runRelative runId, Char.ofNat 0 ∉ name := by
  intro name hname
  rcases List.mem_pair.mp hname with rfl | rfl
  · decide
  · exact h.nul

theorem FreshRun.isDirectory (h : FreshRun limit collector runId tree)
    (hroot : canonicalize limit after [] collector.settings.workRoot = .ok root)
    (hkind : after.kindAt (root ++ runRelative runId) = some .dir) :
    IsDirectory limit after (collector.runDirectory runId) := by
  have hfound : (after.lookup (root ++ runRelative runId)).isSome = true := by
    obtain ⟨entries, hdir⟩ := kindAt_eq_some_dir.mp hkind
    rw [hdir]
    rfl
  refine ⟨root ++ runRelative runId, ?_, hkind⟩
  unfold canonicalize at hroot
  rw [ite_self] at hroot
  split_ifs at hroot
  refine resolve_append (List.cons_ne_nil _ _) (fun follow => ?_) hroot
  refine walk_direct h.real_of_mem (fun q hq hne => ?_) hfound (fun _ hlink => ?_)
  · exact kindAt_above ((List.prefix_append_right_inj root).mpr hq)
      (fun heq => hne (List.append_cancel_left heq)) hfound
  · rw [hkind] at hlink
    cases hlink

/-- Nothing is in the directory of the run where it can be made. -/
theorem FreshRun.new (h : FreshRun limit collector runId tree)
    (hroot : canonicalize limit tree [] collector.settings.workRoot = .ok root)
    (hmade : tree.createDirs (root ++ runRelative runId ++ more) = some made) (q : List FileName)
    (hq : root ++ runRelative runId <+: q) : tree.shellAt q = none := by
  have habove : tree.shellAt (root ++ runRelative runId) = none := by
    by_contra hsome
    obtain ⟨found, hfound⟩ := Option.ne_none_iff_exists'.mp hsome
    obtain rfl := dir_of_createDirs hmade (List.prefix_append ..) hfound
    refine h.unused (h.isDirectory hroot ?_)
    rw [kindAt_eq_shellAt, hfound]
    rfl
  unfold shellAt at habove ⊢
  rw [Option.map_eq_none_iff] at habove ⊢
  by_contra hsome
  have hfound := found_above hq (Option.isSome_iff_ne_none.mpr hsome)
  rw [habove] at hfound
  cases hfound

end

/-- The copy of a mirror in the directory of its run. -/
structure StagedCopy (limit : ℕ) (collector : LfsCollector) (runId : FileName)
    (tree : Node Bytes) (root : List FileName) (after : Node Bytes) : Prop where
  work : canonicalize limit after [] collector.settings.workRoot = .ok root
  copied : CopiedTo tree (root ++ stagedMirrorRelative runId) after
  home : tree.shellAt (root ++ (runRelative runId ++ [StageName.home])) = none

section

variable {limit : ℕ} {collector : LfsCollector} {runId : FileName} {tree after : Node Bytes}
  {root : List FileName}

theorem stagedCopy_of_copyTree {staged : ConfinedPath} {made : Node Bytes} (source : List FileName)
    (hfresh : FreshRun limit collector runId tree)
    (hstaged : collector.settings.confined limit tree (stagedMirrorRelative runId) = some staged)
    (hmade : tree.createDirs staged.asPath = some made) :
    ∃ root, staged.asPath = root ++ stagedMirrorRelative runId ∧
      StagedCopy limit collector runId tree root (copyTree tree source staged.asPath).2 := by
  have hne : stagedMirrorRelative runId ≠ [] := by simp [stagedMirrorRelative]
  obtain ⟨root, hroot, -, rfl⟩ := (confined_eq_some hne).mp hstaged
  have hsplit : root ++ stagedMirrorRelative runId
      = root ++ runRelative runId ++ [StageName.mirrorGit] := (List.append_assoc ..).symm
  rw [ConfinedPath.asPath] at hmade ⊢
  have hnew := hfresh.new hroot (hmade.symm ▸ congrArg (createDirs · tree) hsplit.symm)
  have hcopied : CopiedTo tree (root ++ stagedMirrorRelative runId)
      (copyTree tree source (root ++ stagedMirrorRelative runId)).2 := copiedTo_copyTree hmade
  have hextends : tree.Extends (copyTree tree source (root ++ stagedMirrorRelative runId)).2 := by
    refine hcopied.extends hmade fun q hq => hnew q (List.IsPrefix.trans ?_ hq)
    exact ⟨[StageName.mirrorGit], hsplit.symm⟩
  refine ⟨root, rfl, canonicalize_extends hextends hroot, hcopied, hnew _ ?_⟩
  exact (List.prefix_append_right_inj root).mpr (List.prefix_append ..)

/-- The copy is in the directory of the run. -/
theorem StagedCopy.isDirectory (h : StagedCopy limit collector runId tree root after)
    (hfresh : FreshRun limit collector runId tree) :
    IsDirectory limit after (collector.runDirectory runId) := by
  refine hfresh.isDirectory h.work ?_
  have hway : after.shellAt (root ++ runRelative runId) = some (.dir []) :=
    h.copied.way _ ((List.prefix_append_right_inj root).mpr (List.prefix_append ..))
  rw [kindAt_eq_shellAt, hway]
  rfl

/-- A path beside the copy or right below it is not refused. -/
theorem StagedCopy.confined {front : List FileName} {name : FileName}
    (h : StagedCopy limit collector runId tree root after)
    (hfresh : FreshRun limit collector runId tree)
    (hfront : front <+: stagedMirrorRelative runId) (hname : name ≠ ['.'] ∧ name ≠ ['.', '.'])
    (hnul : Char.ofNat 0 ∉ name) (hlink : after.kindAt (root ++ (front ++ [name])) ≠ some .link) :
    collector.settings.confined limit after (front ++ [name])
      = some { root, segments := front ++ [name] } := by
  have hdir : ∀ q, q <+: root ++ stagedMirrorRelative runId → after.kindAt q = some .dir := by
    intro q hq
    rw [kindAt_eq_shellAt, h.copied.way q hq]
    rfl
  obtain ⟨entries, htop⟩ := kindAt_eq_some_dir.mp (hdir [] List.nil_prefix)
  have hcanonical : after.Canonical root :=
    canonical_of_canonicalize ⟨by simp, _, htop, rfl⟩ h.work
  have hmirror : ∀ name ∈ stagedMirrorRelative runId, name ≠ ['.'] ∧ name ≠ ['.', '.'] :=
    List.forall_mem_append.mpr ⟨hfresh.real_of_mem, by decide⟩
  refine (confined_eq_some (by simp)).mpr ⟨root, h.work, ?_, rfl⟩
  have hnuls : ∀ name ∈ stagedMirrorRelative runId, Char.ofNat 0 ∉ name :=
    List.forall_mem_append.mpr ⟨hfresh.nul_of_mem, by decide⟩
  refine ConfinedPath.inspect_of_kinds ?_ (fun q hq hne => Or.inl ?_) hlink
    (List.forall_mem_append.mpr ⟨fun name hmem => hnuls name (hfront.subset hmem),
      List.forall_mem_singleton.mpr hnul⟩)
  · refine List.forall_mem_append.mpr ⟨hcanonical.real, List.forall_mem_append.mpr ⟨?_, ?_⟩⟩
    · exact fun name hmem => hmirror name (hfront.subset hmem)
    · exact List.forall_mem_singleton.mpr hname
  · have hway : q <+: root ++ stagedMirrorRelative runId := by
      have hshort : q <+: root ++ front := by
        rw [← List.append_assoc] at hq hne
        exact (List.prefix_concat_iff.mp hq).resolve_left hne
      exact hshort.trans ((List.prefix_append_right_inj root).mpr hfront)
    exact hdir q hway

theorem StagedCopy.home_confined (h : StagedCopy limit collector runId tree root after)
    (hfresh : FreshRun limit collector runId tree) :
    (collector.settings.confined limit after (runRelative runId ++ [StageName.home])).isSome
      = true := by
  have hmissing : after.kindAt (root ++ (runRelative runId ++ [StageName.home])) = none := by
    rw [kindAt_eq_shellAt, h.copied.beside, h.home]
    · rfl
    · rw [List.prefix_append_right_inj]
      simp [stagedMirrorRelative, runRelative, StageName.mirrorGit, StageName.home]
    · rw [List.prefix_append_right_inj]
      simp [stagedMirrorRelative, runRelative, StageName.mirrorGit, StageName.home]
  have hconfined : collector.settings.confined limit after
      (runRelative runId ++ [StageName.home]) = some _ :=
    h.confined hfresh (List.prefix_append ..) (by decide) (by decide) (by rw [hmissing]; decide)
  rw [hconfined]
  rfl

end

/-- A mirror has to be copied, and the copy stops when its directory is made. -/
def LeavesCopy (limit : ℕ) (collector : LfsCollector) (mirrorRelative : List PathComponent)
    (runId : FileName) (tree : Node Bytes) : Prop :=
  collector.settings.transferMode = .standaloneFile ∧
    ∃ source staged,
      ConfinedPath.new limit tree collector.settings.mirrorRoot mirrorRelative = some source ∧
      collector.settings.confined limit tree (stagedMirrorRelative runId) = some staged ∧
      (tree.createDirs staged.asPath).isSome = true ∧ CopyStops tree source.asPath staged.asPath

section

variable {limit : ℕ} {collector : LfsCollector} {mirrorRelative : List PathComponent}
  {runId : FileName} {disk after : Disk} {e : LfsCollectionError}

/-- A copy that stops is left behind. -/
theorem prepare_of_leavesCopy (hfresh : FreshRun limit collector runId disk.tree)
    (h : LeavesCopy limit collector mirrorRelative runId disk.tree) :
    ∃ e after, collector.prepare limit runId mirrorRelative disk = (.error e, after) ∧
      IsDirectory limit after.tree (collector.runDirectory runId) := by
  obtain ⟨hmode, source, staged, hsource, hstaged, hsome, hstops⟩ := h
  obtain ⟨made, hmade⟩ := Option.isSome_iff_exists.mp hsome
  obtain ⟨root, -, hcopy⟩ :=
    stagedCopy_of_copyTree source.asPath hfresh hstaged hmade
  have hleft := hcopy.isDirectory hfresh
  have hfails : (copyTree disk.tree source.asPath staged.asPath).1 ≠ .ok () :=
    fun hok => (copyTree_eq_ok hmade).mp hok hstops
  unfold prepare stageMirror
  rw [hsource, hmode, hstaged]
  dsimp only
  cases hresult : copyTree disk.tree source.asPath staged.asPath with
  | mk result tree =>
    rw [hresult] at hfails hleft
    cases result with
    | error e => exact ⟨e, _, rfl, hleft⟩
    | ok => exact absurd rfl hfails

/-- Every other preparation that fails has made nothing. -/
theorem prepare_of_not_leavesCopy (hfresh : FreshRun limit collector runId disk.tree)
    (hno : ¬ LeavesCopy limit collector mirrorRelative runId disk.tree)
    (h : collector.prepare limit runId mirrorRelative disk = (.error e, after)) :
    after = disk := by
  unfold prepare stageMirror at h
  cases hsource : ConfinedPath.new limit disk.tree collector.settings.mirrorRoot mirrorRelative with
  | none =>
    rw [hsource] at h
    exact (Prod.mk.inj h).2.symm
  | some source =>
    rw [hsource] at h
    dsimp only at h
    cases hmode : collector.settings.transferMode with
    | basic =>
      rw [hmode] at h
      dsimp only at h
      split at h
      · exact (Prod.mk.inj h).2.symm
      · split at h
        · exact (Prod.mk.inj h).2.symm
        · cases (Prod.mk.inj h).1
    | standaloneFile =>
      rw [hmode] at h
      cases hstaged : collector.settings.confined limit disk.tree (stagedMirrorRelative runId) with
      | none =>
        rw [hstaged] at h
        exact (Prod.mk.inj h).2.symm
      | some staged =>
        rw [hstaged] at h
        dsimp only at h
        cases hmade : disk.tree.createDirs staged.asPath with
        | none =>
          rw [copyTree_of_not_made hmade] at h
          exact (Prod.mk.inj h).2.symm
        | some made =>
          have hstops : ¬ CopyStops disk.tree source.asPath staged.asPath := fun hstops =>
            hno ⟨hmode, source, staged, hsource, hstaged, by rw [hmade]; rfl, hstops⟩
          have hok := (copyTree_eq_ok hmade).mpr hstops
          obtain ⟨root, hpath, hcopy⟩ :=
            stagedCopy_of_copyTree source.asPath hfresh hstaged hmade
          have hlink := no_link_of_copyTree hmade hok [StageName.lfs]
          cases hresult : copyTree disk.tree source.asPath staged.asPath with
          | mk result tree =>
            rw [hresult] at h hok hcopy hlink
            obtain rfl : result = .ok () := hok
            rw [hpath, List.append_assoc] at hlink
            have hstorage : collector.settings.confined limit tree
                (stagedMirrorRelative runId ++ [StageName.lfs]) = some _ :=
              hcopy.confined hfresh (List.prefix_refl _) (by decide) (by decide) hlink
            obtain ⟨home, hhome⟩ := Option.isSome_iff_exists.mp (hcopy.home_confined hfresh)
            dsimp only at h
            rw [hstorage] at h
            dsimp only at h
            rw [hhome] at h
            cases (Prod.mk.inj h).1

end

end LfsCollector

end RatatoskrVault
