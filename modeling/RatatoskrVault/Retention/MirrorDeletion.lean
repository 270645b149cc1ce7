import RatatoskrVault.Lib.FileCalls

/-! The deletion of a local mirror, on a file tree with symbolic links anywhere: it stays on its
own path exactly where no link above the mirror is followed to another directory of the root. -/
namespace RatatoskrVault

open Lib

section

variable {α : Type}

mutual

/-- One entry of a directory that `validate_mirror_tree` visits. -/
def validateMirrorEntry : Node α → Bool
  | .dir entries => validateMirrorTree entries
  | .file _ => true
  | _ => false

def validateMirrorTree : List (FileName × Node α) → Bool
  | [] => true
  | (_, node) :: entries => validateMirrorEntry node && validateMirrorTree entries

end

/-- Every component of the path is a normal one; a dot inside it is none. -/
def isNormalPath (text : List Char) : Bool :=
  let pieces := (text.splitOn '/').filter fun piece => piece ≠ []
  pieces.head? != some ['.'] && !pieces.contains ['.', '.']

variable (limit : ℕ)

/-- What `delete_confined_mirror` answers, and the tree it leaves. -/
def deleteConfinedMirror (tree : Node α) (cwd : List FileName) (root storagePath : List Char) :
    Except IoError Unit × Node α :=
  if isAbsolute storagePath || !isNormalPath storagePath then (.error .other, tree)
  else
    match canonicalize limit tree cwd root with
    | .error e => (.error e, tree)
    | .ok canonicalRoot =>
      let target := canonicalRoot ++ pathParts storagePath
      match
        if storagePath.contains (Char.ofNat 0) then .error .invalidInput
        else symlinkMetadata limit tree target
      with
      | .error .notFound => (.ok (), tree)
      | .error e => (.error e, tree)
      | .ok kind =>
        if kind ≠ .dir then (.error .other, tree)
        else
          match tree.resolve true limit [] target with
          | .error e => (.error e, tree)
          | .ok canonicalTarget =>
            if canonicalTarget = canonicalRoot ∨ ¬ canonicalRoot <+: canonicalTarget then
              (.error .other, tree)
            else
              match tree.lookup canonicalTarget with
              | some (.dir entries) =>
                if validateMirrorTree entries then
                  let after := tree.remove canonicalTarget
                  match symlinkMetadata limit after canonicalTarget with
                  | .error .notFound => (.ok (), after)
                  | .error e => (.error e, after)
                  | .ok _ => (.error .other, after)
                else (.error .other, tree)
              | _ => (.error .notADirectory, tree)

/-- The directory that is removed when every check has passed. -/
structure Removes (tree : Node α) (cwd : List FileName) (root storagePath : List Char)
    (canonicalRoot canonicalTarget : List FileName) : Prop where
  normal : isAbsolute storagePath = false ∧ isNormalPath storagePath = true ∧
    storagePath.contains (Char.ofNat 0) = false
  root : canonicalize limit tree cwd root = .ok canonicalRoot
  metadata : symlinkMetadata limit tree (canonicalRoot ++ pathParts storagePath) = .ok .dir
  target : tree.resolve true limit [] (canonicalRoot ++ pathParts storagePath)
    = .ok canonicalTarget
  inside : canonicalTarget ≠ canonicalRoot ∧ canonicalRoot <+: canonicalTarget
  valid : ∃ entries, tree.lookup canonicalTarget = some (.dir entries) ∧
    validateMirrorTree entries = true

/-- A link is followed on the way to the mirror, and every check passes where it leads. -/
def FollowsLink (tree : Node α) (cwd : List FileName) (root storagePath : List Char) : Prop :=
  ∃ canonicalRoot canonicalTarget,
    Removes limit tree cwd root storagePath canonicalRoot canonicalTarget ∧
      ∃ q, q <+: names (pathParts storagePath).dropLast ∧
        tree.kindAt (canonicalRoot ++ q) = some .link

/-- What the deletion answers is true, and what it removes is the tree at its own path, every
component of which is a directory. -/
structure StaysOnPath (tree : Node α) (cwd : List FileName) (root storagePath : List Char) :
    Prop where
  gone : (deleteConfinedMirror limit tree cwd root storagePath).1 = .ok () →
    ∃ canonicalRoot, canonicalize limit tree cwd root = .ok canonicalRoot ∧
      symlinkMetadata limit (deleteConfinedMirror limit tree cwd root storagePath).2
        (canonicalRoot ++ pathParts storagePath) = .error .notFound
  own : (deleteConfinedMirror limit tree cwd root storagePath).2 ≠ tree →
    ∃ canonicalRoot mirror, canonicalize limit tree cwd root = .ok canonicalRoot ∧
      (∀ q, q <+: names (pathParts storagePath) →
        tree.kindAt (canonicalRoot ++ q) = some .dir) ∧
      tree.lookup (canonicalRoot ++ names (pathParts storagePath)) = some mirror ∧ mirror.Plain ∧
      ∀ q, (deleteConfinedMirror limit tree cwd root storagePath).2.shellAt q =
        if canonicalRoot ++ names (pathParts storagePath) <+: q then none else tree.shellAt q

section

variable {limit : ℕ} {tree : Node α} {cwd canonicalRoot canonicalTarget : List FileName}
  {root storagePath : List Char}

theorem dots_not_mem_pathParts (h : isNormalPath storagePath = true) :
    ['.', '.'] ∉ pathParts storagePath := by
  unfold isNormalPath at h
  simp only [Bool.and_eq_true, Bool.not_eq_true', List.contains_eq_mem, decide_eq_false_iff_not]
    at h
  have hno : ['.', '.'] ∉ storagePath.splitOn '/' := fun hmem =>
    h.2 (List.mem_filter.mpr ⟨hmem, by decide⟩)
  unfold pathParts
  simp only [List.mem_append, List.mem_singleton]
  rintro (hmem | hlast)
  · exact hno (List.dropLast_subset _ (List.mem_of_mem_filter hmem))
  · split_ifs at hlast
    · exact absurd hlast (by decide)
    · cases hget : (storagePath.splitOn '/').getLast? with
      | none => simp [hget] at hlast
      | some piece =>
        rw [hget] at hlast
        exact hno (hlast ▸ List.mem_of_getLast? hget)

mutual

theorem validateMirrorEntry_eq (node : Node α) : validateMirrorEntry node = node.regular := by
  cases node with
  | dir entries => exact validateMirrorTree_eq entries
  | _ => rfl

theorem validateMirrorTree_eq (entries : List (FileName × Node α)) :
    validateMirrorTree entries = Node.regularEntries entries := by
  cases entries with
  | nil => rfl
  | cons entry entries =>
    rw [validateMirrorTree, Node.regularEntries, validateMirrorEntry_eq entry.2,
      validateMirrorTree_eq entries]

end

/-- What the deletion does where every check passes. -/
theorem deleteConfinedMirror_of_removes
    (h : Removes limit tree cwd root storagePath canonicalRoot canonicalTarget) :
    (deleteConfinedMirror limit tree cwd root storagePath).2 = tree.remove canonicalTarget := by
  obtain ⟨⟨habsolute, hnormal, hnul⟩, hroot, hmetadata, htarget, ⟨hne, hinside⟩, entries, hdir,
    hvalid⟩ := h
  unfold deleteConfinedMirror
  simp only [habsolute, hnormal, hroot, hnul, hmetadata, htarget, hne, hinside, hdir, hvalid,
    Bool.not_true, Bool.or_self, Bool.false_eq_true, if_false, if_true, ne_eq, not_true_eq_false,
    or_self]
  split <;> rfl

/-- Where a check fails nothing is removed, and the answer is good only for what is missing. -/
theorem deleteConfinedMirror_of_not_removes
    (h : ∀ canonicalRoot canonicalTarget,
      ¬ Removes limit tree cwd root storagePath canonicalRoot canonicalTarget) :
    (deleteConfinedMirror limit tree cwd root storagePath).2 = tree ∧
      ((deleteConfinedMirror limit tree cwd root storagePath).1 = .ok () →
        ∃ canonicalRoot, canonicalize limit tree cwd root = .ok canonicalRoot ∧
          symlinkMetadata limit tree (canonicalRoot ++ pathParts storagePath)
            = .error .notFound) := by
  unfold deleteConfinedMirror
  by_cases hbad : (isAbsolute storagePath || !isNormalPath storagePath) = true
  · rw [if_pos hbad]
    exact ⟨rfl, fun hok => by cases hok⟩
  rw [if_neg hbad]
  cases hroot : canonicalize limit tree cwd root with
  | error e => exact ⟨rfl, fun hok => by cases hok⟩
  | ok canonicalRoot =>
    dsimp only
    by_cases hnul : storagePath.contains (Char.ofNat 0) = true
    · rw [if_pos hnul]
      exact ⟨rfl, fun hok => by cases hok⟩
    rw [if_neg hnul]
    cases hmetadata : symlinkMetadata limit tree (canonicalRoot ++ pathParts storagePath) with
    | error e =>
      cases e with
      | notFound => exact ⟨rfl, fun _ => ⟨canonicalRoot, rfl, hmetadata⟩⟩
      | _ => exact ⟨rfl, fun hok => by cases hok⟩
    | ok kind =>
      dsimp only
      by_cases hkind : kind = .dir
      · rw [if_neg (not_not.mpr hkind)]
        cases htarget : tree.resolve true limit [] (canonicalRoot ++ pathParts storagePath) with
        | error e => exact ⟨rfl, fun hok => by cases hok⟩
        | ok canonicalTarget =>
          dsimp only
          by_cases houtside : canonicalTarget = canonicalRoot ∨ ¬ canonicalRoot <+: canonicalTarget
          · rw [if_pos houtside]
            exact ⟨rfl, fun hok => by cases hok⟩
          rw [if_neg houtside]
          cases hfound : tree.lookup canonicalTarget with
          | none => exact ⟨rfl, fun hok => by cases hok⟩
          | some found =>
            cases found with
            | dir entries =>
              dsimp only
              by_cases hvalid : validateMirrorTree entries = true
              · refine absurd ?_ (h canonicalRoot canonicalTarget)
                simp only [Bool.or_eq_true, Bool.not_eq_true', not_or, Bool.not_eq_true,
                  Bool.not_eq_false] at hbad
                push Not at houtside
                exact {
                  normal := ⟨hbad.1, hbad.2, Bool.eq_false_iff.mpr hnul⟩
                  root := hroot
                  metadata := hkind ▸ hmetadata
                  target := htarget
                  inside := houtside
                  valid := ⟨entries, hfound, hvalid⟩ }
              · rw [if_neg hvalid]
                exact ⟨rfl, fun hok => by cases hok⟩
            | _ => exact ⟨rfl, fun hok => by cases hok⟩
      · rw [if_pos hkind]
        exact ⟨rfl, fun hok => by cases hok⟩

theorem Removes.ne_nil
    (h : Removes limit tree cwd root storagePath canonicalRoot canonicalTarget) :
    canonicalTarget ≠ [] := by
  rintro rfl
  exact h.inside.1 (List.prefix_nil.mp h.inside.2).symm

theorem Removes.found
    (h : Removes limit tree cwd root storagePath canonicalRoot canonicalTarget) :
    tree.kindAt canonicalTarget = some .dir := by
  obtain ⟨entries, hdir, -⟩ := h.valid
  exact Node.kindAt_eq_some_dir.mpr ⟨entries, hdir⟩

theorem Removes.dots_not_mem (hcwd : tree.Canonical cwd)
    (h : Removes limit tree cwd root storagePath canonicalRoot canonicalTarget) :
    ['.', '.'] ∉ canonicalRoot ++ pathParts storagePath := by
  rw [List.mem_append]
  rintro (hmem | hmem)
  · exact ((Node.canonical_of_canonicalize hcwd h.root).real _ hmem).2 rfl
  · exact dots_not_mem_pathParts h.normal.2.1 hmem

/-- Where no link is followed, what is removed is what the path names. -/
theorem Removes.own (hcwd : tree.Canonical cwd)
    (h : Removes limit tree cwd root storagePath canonicalRoot canonicalTarget)
    (hno : ∀ q, q <+: names (pathParts storagePath).dropLast →
      tree.kindAt (canonicalRoot ++ q) ≠ some .link) :
    canonicalTarget = canonicalRoot ++ names (pathParts storagePath) := by
  have hcanonical := Node.canonical_of_canonicalize hcwd h.root
  have hnames : ∀ parts, names (canonicalRoot ++ parts) = canonicalRoot ++ names parts := by
    intro parts
    rw [Node.names_append, Node.names_of_canonical hcanonical]
  have hdots := h.dots_not_mem hcwd
  have hmetadata := h.metadata
  unfold symlinkMetadata at hmetadata
  -- the path itself is looked up without its last link, and finds a directory
  have hfound : tree.kindAt (canonicalRoot ++ names (pathParts storagePath)) = some .dir := by
    cases hresolve : tree.resolve false limit [] (canonicalRoot ++ pathParts storagePath) with
    | error e =>
      rw [hresolve] at hmetadata
      cases hmetadata
    | ok path =>
      rw [hresolve] at hmetadata
      have hpath := Node.resolve_unlinked hdots (fun q hq => ?_) hresolve
      · rw [List.nil_append, hnames] at hpath
        rw [← hpath]
        cases hkind : tree.kindAt path with
        | none => simp [hkind] at hmetadata
        | some kind => simpa [hkind] using hmetadata
      · rw [Node.followed, if_neg (by decide),
          List.dropLast_append_of_ne_nil (Node.pathParts_ne_nil storagePath), hnames] at hq
        rw [List.nil_append]
        rcases List.prefix_or_prefix_of_prefix hq (List.prefix_append ..) with hq | ⟨below, rfl⟩
        · exact (hcanonical.above hq).kindAt_ne_link
        · exact hno below ((List.prefix_append_right_inj _).mp hq)
  have htarget := Node.resolve_unlinked hdots (fun q hq => ?_) h.target
  · rw [htarget, List.nil_append, hnames]
  · rw [Node.followed, if_pos rfl, hnames] at hq
    rw [List.nil_append]
    by_cases heq : q = canonicalRoot ++ names (pathParts storagePath)
    · rw [heq, hfound]
      decide
    · obtain ⟨entries, hdir⟩ := Node.kindAt_eq_some_dir.mp hfound
      rw [Node.kindAt_above hq heq (by rw [hdir]; rfl)]
      decide

theorem stays_on_path_of_removes (hcwd : tree.Canonical cwd)
    (h : Removes limit tree cwd root storagePath canonicalRoot canonicalTarget)
    (hown : canonicalTarget = canonicalRoot ++ names (pathParts storagePath)) :
    StaysOnPath limit tree cwd root storagePath := by
  have hcanonical := Node.canonical_of_canonicalize hcwd h.root
  have hafter := deleteConfinedMirror_of_removes h
  have hfound : (tree.lookup canonicalTarget).isSome = true := by
    obtain ⟨entries, hdir, -⟩ := h.valid
    rw [hdir]
    rfl
  have hnames : names (canonicalRoot ++ pathParts storagePath) = canonicalTarget := by
    rw [Node.names_append, Node.names_of_canonical hcanonical, hown]
  refine ⟨fun _ => ⟨canonicalRoot, h.root, ?_⟩, fun _ => ?_⟩
  · have hdots := h.dots_not_mem hcwd
    have hgone : (tree.remove canonicalTarget).resolve false limit []
        (canonicalRoot ++ pathParts storagePath) = .error .notFound := by
      have hremoved : (tree.remove ([] ++ names (canonicalRoot ++ pathParts storagePath))).resolve
          false limit [] (canonicalRoot ++ pathParts storagePath) = .error .notFound :=
        Node.resolve_removed hdots (by rw [hnames]; exact h.ne_nil)
          (by rw [hnames]; exact hfound)
      rwa [hnames] at hremoved
    unfold symlinkMetadata
    rw [hafter, hgone]
  · obtain ⟨entries, hdir, hvalid⟩ := h.valid
    refine ⟨canonicalRoot, .dir entries, h.root, fun q hq => ?_, hown ▸ hdir, ?_, fun q => ?_⟩
    · by_cases heq : canonicalRoot ++ q = canonicalTarget
      · rw [heq]
        exact h.found
      · refine Node.kindAt_above ?_ heq hfound
        rw [hown]
        exact (List.prefix_append_right_inj _).mpr hq
    · refine Node.plain_of_regular ?_
      rwa [Node.regular, ← validateMirrorTree_eq]
    · rw [hafter, Node.shellAt_removed h.ne_nil, hown]

end

theorem stays_on_path_iff (limit : ℕ) (tree : Node α) (cwd : List FileName)
    (root storagePath : List Char) (hcwd : tree.Canonical cwd) :
    StaysOnPath limit tree cwd root storagePath
      ↔ ¬ FollowsLink limit tree cwd root storagePath := by
  constructor
  · rintro hstays ⟨canonicalRoot, canonicalTarget, hremoves, q, hq, hlink⟩
    have hafter := deleteConfinedMirror_of_removes hremoves
    have hchanged : (deleteConfinedMirror limit tree cwd root storagePath).2 ≠ tree := by
      intro heq
      have hshell : (tree.remove canonicalTarget).shellAt canonicalTarget = _ :=
        Node.shellAt_removed hremoves.ne_nil canonicalTarget
      rw [← hafter, heq, if_pos (List.prefix_refl _)] at hshell
      have hkind := hremoves.found
      rw [Node.kindAt_eq_shellAt, hshell] at hkind
      cases hkind
    obtain ⟨canonicalRoot', -, hroot, hdirs, -⟩ := hstays.own hchanged
    obtain rfl : canonicalRoot = canonicalRoot' := Except.ok.inj (hremoves.root.symm.trans hroot)
    have hdir := hdirs q (hq.trans (Node.names_dropLast_prefix _))
    rw [hlink] at hdir
    cases hdir
  · intro hno
    by_cases hremoves : ∃ canonicalRoot canonicalTarget,
        Removes limit tree cwd root storagePath canonicalRoot canonicalTarget
    · obtain ⟨canonicalRoot, canonicalTarget, h⟩ := hremoves
      exact stays_on_path_of_removes hcwd h
        (h.own hcwd fun q hq hlink => hno ⟨canonicalRoot, canonicalTarget, h, q, hq, hlink⟩)
    · push Not at hremoves
      obtain ⟨hsame, hok⟩ := deleteConfinedMirror_of_not_removes hremoves
      refine ⟨fun h => ?_, fun h => absurd hsame h⟩
      rw [hsame]
      exact hok h

end

namespace MirrorDeletion.Sample

/-- One mirror below the root, and beside its directory whatever stands at `ab`. -/
def mirrors (ab : Node Unit) : Node Unit :=
  .dir [("owned".toList, .dir [("mirrors".toList,
    .dir [("ab".toList, ab), ("cd".toList,
      .dir [("1.git".toList, .dir [("HEAD".toList, .file ())])])])])]

def linked : Node Unit := mirrors (.link "cd".toList)

theorem canonical (ab : Node Unit) : (mirrors ab).Canonical [] :=
  ⟨fun _ hname => absurd hname List.not_mem_nil, _, Node.lookup_nil, rfl⟩

end MirrorDeletion.Sample

open MirrorDeletion.Sample

theorem stays_on_path_iff_unlinked :
    StaysOnPath 40 (mirrors (.dir [])) [] "owned".toList "mirrors/cd/1.git".toList := by
  refine (stays_on_path_iff 40 (mirrors (.dir [])) [] "owned".toList "mirrors/cd/1.git".toList
    (canonical _)).mpr ?_
  rintro ⟨canonicalRoot, canonicalTarget, hremoves, q, hq, hlink⟩
  have hroot : canonicalize 40 (mirrors (.dir [])) [] "owned".toList = .ok ["owned".toList] := by
    decide
  obtain rfl := Except.ok.inj (hremoves.root.symm.trans hroot)
  have hnone : ∀ q ∈ (names (pathParts "mirrors/cd/1.git".toList).dropLast).inits,
      (mirrors (.dir [])).kindAt (["owned".toList] ++ q) ≠ some .link := by
    decide
  exact hnone q ((List.mem_inits _ _).mpr hq) hlink

theorem linked_mirror_is_removed :
    ¬ ∀ (limit : ℕ) (tree : Node Unit) (cwd : List FileName) (root storagePath : List Char),
      tree.Canonical cwd → StaysOnPath limit tree cwd root storagePath := by
  intro h
  have hstays := h 40 linked [] "owned".toList "mirrors/ab/1.git".toList (canonical _)
  have hgone : (deleteConfinedMirror 40 linked [] "owned".toList "mirrors/ab/1.git".toList).2.kindAt
      ["owned".toList, "mirrors".toList, "cd".toList, "1.git".toList] = none := by
    decide
  obtain ⟨canonicalRoot, -, hroot, hdirs, -⟩ := hstays.own (by
    intro heq
    rw [heq] at hgone
    revert hgone
    decide)
  have hcanonical : canonicalize 40 linked [] "owned".toList = .ok ["owned".toList] := by decide
  obtain rfl := Except.ok.inj (hroot.symm.trans hcanonical)
  have hlink : linked.kindAt (["owned".toList] ++ ["mirrors".toList, "ab".toList]) = some .dir :=
    hdirs _ (by decide)
  revert hlink
  decide

end RatatoskrVault
