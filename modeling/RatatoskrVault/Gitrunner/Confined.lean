import RatatoskrVault.Gitrunner.LfsRunner

/-! Where a confined path leads: it stays on its own names below the canonical root. To be checked
again it has to keep a name. -/
namespace RatatoskrVault

open Lib

def isNormal : PathComponent → Bool
  | .normal _ => true
  | _ => false

/-- Somewhere a path has stepped up more often than down. -/
def Climbs (path : List PathComponent) : Prop :=
  ∃ front, front <+: path ∧ front.countP isNormal < front.count .parentDir

section

variable {segments names : List FileName} {path : List PathComponent}

theorem exists_prefix_cons {component : PathComponent} {P : List PathComponent → Prop} :
    (∃ front, front <+: component :: path ∧ P front) ↔
      P [] ∨ ∃ front, front <+: path ∧ P (component :: front) := by
  constructor
  · rintro ⟨front, hfront, hP⟩
    cases front with
    | nil => exact Or.inl hP
    | cons first front =>
      obtain ⟨rfl, hrest⟩ := List.cons_prefix_cons.mp hfront
      exact Or.inr ⟨front, hrest, hP⟩
  · rintro (hP | ⟨front, hfront, hP⟩)
    · exact ⟨[], List.nil_prefix, hP⟩
    · exact ⟨component :: front, List.cons_prefix_cons.mpr ⟨rfl, hfront⟩, hP⟩

/-- A path has no normal form if it is absolute, or steps up more often than it can. -/
theorem normalizeLexically_eq_none : normalizeLexically segments path = none ↔
    .rootDir ∈ path ∨ ∃ front, front <+: path ∧
      segments.length + front.countP isNormal < front.count .parentDir := by
  induction path generalizing segments with
  | nil =>
    simp only [normalizeLexically, reduceCtorEq, List.not_mem_nil, List.prefix_nil, false_or,
      exists_eq_left, List.countP_nil, List.count_nil, Nat.not_lt_zero]
  | cons component rest ih =>
    rw [exists_prefix_cons, List.mem_cons]
    cases component with
    | rootDir => simp [normalizeLexically]
    | curDir =>
      rw [normalizeLexically, ih]
      simp [isNormal]
    | parentDir =>
      rw [normalizeLexically]
      by_cases hempty : segments = []
      · rw [if_pos hempty]
        refine iff_of_true rfl (Or.inr (Or.inr ⟨[], List.nil_prefix, ?_⟩))
        simp [hempty, isNormal]
      · have hpos := List.length_pos_iff.mpr hempty
        have hcount : ∀ front : List PathComponent,
            segments.dropLast.length + front.countP isNormal < front.count .parentDir ↔
              segments.length + (.parentDir :: front).countP isNormal <
                (PathComponent.parentDir :: front).count .parentDir := by
          intro front
          rw [List.length_dropLast, List.countP_cons_of_neg (by decide), List.count_cons_self]
          omega
        rw [if_neg hempty, ih]
        simp only [hcount]
        simp
    | normal part =>
      have hcount : ∀ front : List PathComponent,
          (segments ++ [part]).length + front.countP isNormal < front.count .parentDir ↔
            segments.length + (.normal part :: front).countP isNormal <
              (PathComponent.normal part :: front).count .parentDir := by
        intro front
        rw [List.length_append, List.length_singleton, List.countP_cons_of_pos rfl,
          List.count_cons_of_ne (by simp)]
        omega
      rw [normalizeLexically, ih]
      simp only [hcount]
      simp

/-- The names that are left are names of the path. -/
theorem mem_of_normalizeLexically (h : normalizeLexically segments path = some names)
    {name : FileName} (hname : name ∈ names) : name ∈ segments ∨ .normal name ∈ path := by
  induction path generalizing segments with
  | nil =>
    rw [normalizeLexically, Option.some.injEq] at h
    rw [h]
    exact Or.inl hname
  | cons component rest ih =>
    cases component with
    | rootDir => cases h
    | curDir => exact (ih h).imp_right (List.mem_cons_of_mem _)
    | parentDir =>
      rw [normalizeLexically] at h
      split_ifs at h
      exact (ih h).imp (fun hmem => List.dropLast_subset _ hmem) (List.mem_cons_of_mem _)
    | normal part =>
      rcases ih h with hmem | hmem
      · rcases List.mem_append.mp hmem with hmem | hmem
        · exact Or.inl hmem
        · rw [List.mem_singleton.mp hmem]
          exact Or.inr List.mem_cons_self
      · exact Or.inr (List.mem_cons_of_mem _ hmem)

end

namespace ConfinedPath

section

variable {α : Type} (limit : ℕ) (tree : Node α)

/-- `ConfinedPath::new` of two path texts, in a working directory. -/
def ofTexts (cwd : List FileName) (root relative : List Char) : Option ConfinedPath :=
  confine limit tree (canonicalize limit tree cwd root) (components relative)

/-- A confined path is checked again, from its own root. -/
def again (path : ConfinedPath) : Option ConfinedPath :=
  confine limit tree (tree.resolve true limit [] path.root) (path.segments.map .normal)

theorem revalidate_eq (path : ConfinedPath) :
    path.revalidate limit tree = (path.again limit tree).isSome := rfl

theorem ofTexts_nil (root relative : List Char) :
    ofTexts limit tree [] root relative = new limit tree root (components relative) := rfl

/-- A path that no link leads away from its root. -/
structure Inside (path : ConfinedPath) : Prop where
  below : path.root <+: path.asPath
  unlinked : ∀ front, front ≠ [] → front <+: path.segments →
    tree.kindAt (path.root ++ front) ≠ some .link
  stays : ∀ follow found, tree.resolve follow limit [] path.asPath = .ok found →
    found = path.asPath

/-- What is accepted is the normal form below the canonical root, and is accepted again; what is
absolute or climbs is refused. -/
structure Stable (cwd : List FileName) (root relative : List Char) : Prop where
  confined : ∀ path, ofTexts limit tree cwd root relative = some path →
    canonicalize limit tree cwd root = .ok path.root ∧
      normalizeLexically [] (components relative) = some path.segments ∧
      path.Inside limit tree
  refused : isAbsolute relative = true ∨ Climbs (components relative) →
    ofTexts limit tree cwd root relative = none
  again : ∀ path, ofTexts limit tree cwd root relative = some path →
    path.again limit tree = some path

end

section

variable {α : Type} {limit : ℕ} {tree : Node α} {cwd resolved segments : List FileName}
  {root relative : List Char} {path : ConfinedPath}

/-- What is looked at below a real directory, and is there, is no link. -/
theorem symlinkMetadata_below {segment : FileName} {found : Node α}
    (hresolved : tree.Canonical resolved) (hreal : segment ≠ ['.'] ∧ segment ≠ ['.', '.'])
    (hfound : tree.lookup (resolved ++ [segment]) = some found) :
    symlinkMetadata limit tree (resolved ++ [segment]) = .ok found.kind := by
  have hsome : (tree.lookup (resolved ++ [segment])).isSome = true := by rw [hfound]; rfl
  have hreals : ∀ name ∈ resolved ++ [segment], name ≠ ['.'] ∧ name ≠ ['.', '.'] :=
    List.forall_mem_append.mpr ⟨hresolved.real, List.forall_mem_singleton.mpr hreal⟩
  have hmetadata : symlinkMetadata limit tree (resolved ++ [segment]) = _ :=
    symlinkMetadata_of_dirs hreals fun q hq hne => Or.inl (Node.kindAt_above hq hne hsome)
  rw [hmetadata, Node.kindAt, hfound]
  rfl

/-- The walk down passes no link: it is below a real directory, or below nothing. -/
theorem inspect_unlinked (h : inspect limit tree resolved segments = true)
    (hreal : ∀ name ∈ segments, name ≠ ['.'] ∧ name ≠ ['.', '.'])
    (hresolved : tree.Canonical resolved ∨ tree.lookup resolved = none) :
    ∀ front, front ≠ [] → front <+: segments → tree.kindAt (resolved ++ front) ≠ some .link := by
  induction segments generalizing resolved with
  | nil => exact fun front hne hfront => absurd (List.prefix_nil.mp hfront) hne
  | cons segment rest ih =>
    obtain ⟨hsegment, hrest⟩ := List.forall_mem_cons.mp hreal
    rw [inspect] at h
    split_ifs at h
    have hnext : (tree.Canonical (resolved ++ [segment]) ∨
        tree.lookup (resolved ++ [segment]) = none) ∧
        inspect limit tree (resolved ++ [segment]) rest = true := by
      cases hfound : tree.lookup (resolved ++ [segment]) with
      | none =>
        refine ⟨Or.inr rfl, ?_⟩
        split at h
        · cases h
        · exact h
        · exact h
        · cases h
      | some found =>
        rcases hresolved with hcanonical | hmissing
        · rw [symlinkMetadata_below hcanonical hsegment hfound] at h
          have hplain : found.isLink = false ∧
              inspect limit tree (resolved ++ [segment]) rest = true := by
            unfold Node.isLink
            generalize found.kind = kind at h ⊢
            cases kind with
            | link => cases h
            | _ => exact ⟨rfl, h⟩
          refine ⟨Or.inl ⟨?_, found, hfound, hplain.1⟩, hplain.2⟩
          exact List.forall_mem_append.mpr
            ⟨hcanonical.real, List.forall_mem_singleton.mpr hsegment⟩
        · have habove := Node.found_above (List.prefix_append resolved [segment])
            (by rw [hfound]; rfl)
          rw [hmissing] at habove
          cases habove
    intro front hne hfront
    obtain ⟨first, more, rfl⟩ := List.exists_cons_of_ne_nil hne
    obtain ⟨rfl, hmore⟩ := List.cons_prefix_cons.mp hfront
    rw [List.append_cons]
    by_cases hlast : more = []
    · rw [hlast, List.append_nil]
      rcases hnext.1 with hcanonical | hmissing
      · exact hcanonical.kindAt_ne_link
      · rw [Node.kindAt, hmissing]
        intro h
        cases h
    · exact ih hnext.2 hrest hnext.1 more hlast hmore

theorem ofTexts_eq_some : ofTexts limit tree cwd root relative = some path ↔
    relative ≠ [] ∧ canonicalize limit tree cwd root = .ok path.root ∧
      normalizeLexically [] (components relative) = some path.segments ∧
      inspect limit tree path.root path.segments = true := by
  unfold ofTexts confine
  by_cases hempty : relative = []
  · rw [if_pos (components_eq_nil.mpr hempty)]
    exact ⟨fun h => (nomatch h), fun h => absurd hempty h.1⟩
  rw [if_neg fun h => hempty (components_eq_nil.mp h)]
  cases canonicalize limit tree cwd root with
  | error e => exact ⟨fun h => (nomatch h), fun h => (nomatch h.2.1)⟩
  | ok canonicalRoot =>
    cases normalizeLexically [] (components relative) with
    | none => exact ⟨fun h => (nomatch h), fun h => (nomatch h.2.2.1)⟩
    | some names =>
      dsimp only
      obtain ⟨pathRoot, pathSegments⟩ := path
      simp only [Except.ok.injEq, Option.some.injEq]
      constructor
      · intro h
        split_ifs at h with hinspect
        obtain ⟨rfl, rfl⟩ := ConfinedPath.mk.inj (Option.some.inj h)
        exact ⟨hempty, rfl, rfl, hinspect⟩
      · rintro ⟨-, rfl, rfl, hinspect⟩
        rw [if_pos hinspect]

/-- A real path resolves to itself. -/
theorem resolve_of_canonical {names : List FileName} (h : tree.Canonical names) :
    tree.resolve true limit [] names = .ok names := by
  have hwalk : ∀ follow, tree.walk true follow [] names = .ok names := by
    intro follow
    obtain ⟨found, hfound, hlink⟩ := h.found
    have hsome : (tree.lookup names).isSome = true := by rw [hfound]; rfl
    exact Node.walk_direct h.real (fun q hq hne => Node.kindAt_above hq hne hsome) hsome
      fun _ => h.kindAt_ne_link
  cases limit with
  | zero => exact hwalk _
  | succ limit => exact hwalk _

/-- The names of an accepted path are names. -/
theorem real_of_normalizeLexically
    (h : normalizeLexically [] (components relative) = some segments) :
    ∀ name ∈ segments, name ≠ ['.'] ∧ name ≠ ['.', '.'] := by
  intro name hname
  rcases mem_of_normalizeLexically h hname with hmem | hmem
  · exact absurd hmem List.not_mem_nil
  · exact real_of_mem_components hmem

theorem inside_of_ofTexts (hcwd : tree.Canonical cwd)
    (h : ofTexts limit tree cwd root relative = some path) : path.Inside limit tree := by
  obtain ⟨-, hroot, hnormal, hinspect⟩ := ofTexts_eq_some.mp h
  have hcanonical := Node.canonical_of_canonicalize hcwd hroot
  have hreal := real_of_normalizeLexically hnormal
  have hunlinked := inspect_unlinked hinspect hreal (Or.inl hcanonical)
  refine ⟨List.prefix_append .., hunlinked, fun follow found hfound => ?_⟩
  have hreals : ∀ name ∈ path.asPath, name ≠ ['.'] ∧ name ≠ ['.', '.'] :=
    List.forall_mem_append.mpr ⟨hcanonical.real, hreal⟩
  have hnames : names path.asPath = path.asPath :=
    List.filter_eq_self.mpr fun name hname => by simpa using (hreals name hname).1
  have hno : ∀ q, q <+: path.asPath → tree.kindAt q ≠ some .link := by
    intro q hq
    rcases List.prefix_or_prefix_of_prefix hq (List.prefix_append path.root path.segments)
      with habove | ⟨front, rfl⟩
    · exact (hcanonical.above habove).kindAt_ne_link
    · by_cases hfront : front = []
      · rw [hfront, List.append_nil]
        exact hcanonical.kindAt_ne_link
      · exact hunlinked front hfront ((List.prefix_append_right_inj path.root).mp hq)
  have hfollowed : names (Node.followed follow path.asPath) <+: path.asPath := by
    unfold Node.followed
    split_ifs
    · rw [hnames]
    · have hshort := Node.names_dropLast_prefix path.asPath
      rwa [hnames] at hshort
  have hend := Node.resolve_unlinked (fun hdots => (hreals _ hdots).2 rfl)
    (fun q hq => by rw [List.nil_append]; exact hno q (hq.trans hfollowed)) hfound
  rw [hend, hnames, List.nil_append]

/-- A confined path is accepted again if and only if it has a name below its root. -/
theorem again_of_ofTexts (hcwd : tree.Canonical cwd)
    (h : ofTexts limit tree cwd root relative = some path) :
    path.again limit tree = if path.segments = [] then none else some path := by
  obtain ⟨-, hroot, -, hinspect⟩ := ofTexts_eq_some.mp h
  have hcanonical := Node.canonical_of_canonicalize hcwd hroot
  unfold again confine
  rw [resolve_of_canonical hcanonical, normalizeLexically_normal, List.nil_append]
  dsimp only
  rw [if_pos hinspect]
  simp only [List.map_eq_nil_iff]

theorem ofTexts_refused (h : isAbsolute relative = true ∨ Climbs (components relative)) :
    ofTexts limit tree cwd root relative = none := by
  have hnone : normalizeLexically [] (components relative) = none := by
    refine normalizeLexically_eq_none.mpr (h.imp rootDir_mem_components.mpr ?_)
    rintro ⟨front, hfront, hcount⟩
    exact ⟨front, hfront, by rwa [List.length_nil, Nat.zero_add]⟩
  by_contra hsome
  obtain ⟨path, hpath⟩ := Option.ne_none_iff_exists'.mp hsome
  have hnormal := (ofTexts_eq_some.mp hpath).2.2.1
  rw [hnone] at hnormal
  exact nomatch hnormal

/-- A path that says nothing but where it starts is accepted as the root, under a root that is
there. -/
def NamesRoot (limit : ℕ) (tree : Node α) (cwd : List FileName) (root relative : List Char) :
    Prop :=
  relative ≠ [] ∧ normalizeLexically [] (components relative) = some [] ∧
    ∃ canonicalRoot, canonicalize limit tree cwd root = .ok canonicalRoot

/-- Accepted paths stay accepted, but for the root itself. -/
theorem stable_iff (hcwd : tree.Canonical cwd) :
    Stable limit tree cwd root relative ↔ ¬ NamesRoot limit tree cwd root relative := by
  constructor
  · rintro h ⟨hne, hnormal, canonicalRoot, hroot⟩
    have hpath : ofTexts limit tree cwd root relative =
        some { root := canonicalRoot, segments := [] } :=
      ofTexts_eq_some.mpr ⟨hne, hroot, hnormal, rfl⟩
    have hagain := again_of_ofTexts hcwd hpath
    rw [h.again _ hpath, if_pos rfl] at hagain
    exact nomatch hagain
  · intro hnames
    refine ⟨fun path h => ?_, ofTexts_refused, fun path h => ?_⟩
    · obtain ⟨-, hroot, hnormal, -⟩ := ofTexts_eq_some.mp h
      exact ⟨hroot, hnormal, inside_of_ofTexts hcwd h⟩
    · obtain ⟨hne, hroot, hnormal, -⟩ := ofTexts_eq_some.mp h
      have hsegments : path.segments ≠ [] := by
        intro hnil
        rw [hnil] at hnormal
        exact hnames ⟨hne, hnormal, path.root, hroot⟩
      rw [again_of_ofTexts hcwd h, if_neg hsegments]

end

namespace Sample

/-- One empty directory. -/
def tree : Node Unit := .dir [(['r'], .dir [])]

theorem canonical_nil : tree.Canonical [] := ⟨by simp, tree, Node.lookup_nil, rfl⟩

end Sample

theorem stable_iff_below :
    Stable 40 Sample.tree [] ['/', 'r'] ['a', '/', '.', '.', '/', 'b'] :=
  (stable_iff Sample.canonical_nil).mpr fun h => absurd h.2.1 (by decide)

/-- The root itself is accepted under a name of its own, and refused when it is checked again. -/
theorem root_accepted_once :
    ofTexts 40 Sample.tree [] ['/', 'r'] ['.'] = some { root := [['r']], segments := [] } ∧
      again 40 Sample.tree { root := [['r']], segments := [] } = none ∧
      ¬ Stable 40 Sample.tree [] ['/', 'r'] ['.'] := by
  have haccepted : ofTexts 40 Sample.tree [] ['/', 'r'] ['.']
      = some { root := [['r']], segments := [] } := by decide
  have hrefused : again 40 Sample.tree { root := [['r']], segments := [] } = none := by decide
  refine ⟨haccepted, hrefused, fun h => ?_⟩
  rw [h.again _ haccepted] at hrefused
  exact nomatch hrefused

end ConfinedPath

end RatatoskrVault
