import Mathlib.Data.List.Infix
import RatatoskrVault.Lib.FileTree

/-! Calls on a file tree: what they answer, and what a path leads to after them. -/
namespace RatatoskrVault.Lib

variable {α : Type}

section

variable (limit : ℕ)

/-- `canonicalize` of a path text, from the working directory where it is relative. -/
def canonicalize (tree : Node α) (cwd : List FileName) (text : List Char) :
    Except IoError (List FileName) :=
  if text = [] then .error .notFound
  else if text.contains (Char.ofNat 0) then .error .invalidInput
  else tree.resolve true limit (if isAbsolute text then [] else cwd) (pathParts text)

/-- `symlink_metadata` of an absolute path. -/
def symlinkMetadata (tree : Node α) (parts : List FileName) : Except IoError NodeKind :=
  match tree.resolve false limit [] parts with
  | .error e => .error e
  | .ok path => (tree.kindAt path).elim (.error .notFound) .ok

/-- A path that leads to a directory. -/
def IsDirectory (tree : Node α) (parts : List FileName) : Prop :=
  ∃ path, tree.resolve true limit [] parts = .ok path ∧ tree.kindAt path = some .dir

/-- `remove_dir_all`: a link is removed itself; the result is not reported. -/
def removeDirAll (tree : Node α) (parts : List FileName) : Node α :=
  match tree.resolve false limit [] parts with
  | .error _ => tree
  | .ok path =>
    match tree.kindAt path with
    | some .dir | some .link => tree.remove path
    | _ => tree

end

namespace Node

/-- `create_dir_all` of a path without links; it makes nothing where it fails. -/
def createDirs : List FileName → Node α → Option (Node α)
  | [], dir entries => some (dir entries)
  | name :: path, dir entries =>
    match entries.find? fun e => e.1 == name with
    | some e => (e.2.createDirs path).map fun node =>
        dir (entries.map fun e => if e.1 == name then (e.1, node) else e)
    | none => ((dir []).createDirs path).map fun node => dir (entries ++ [(name, node)])
  | _, _ => none

/-- The tree with another node at a path that finds one. -/
def put (new : Node α) : List FileName → Node α → Node α
  | [], _ => new
  | name :: path, dir entries =>
    dir (entries.map fun e => if e.1 == name then (e.1, put new path e.2) else e)
  | _, node => node

/-- What one tree finds another one finds too, with the same links and contents. -/
def Extends (tree tree' : Node α) : Prop :=
  ∀ path shell, tree.shellAt path = some shell → tree'.shellAt path = some shell

section

variable {tree tree' node : Node α} {p q : List FileName}

theorem shellAt_nil : node.shellAt [] = some node.shell := by
  unfold shellAt
  rw [lookup_nil]
  rfl

theorem shellAt_cons {entries : List (FileName × Node α)} {name : FileName} :
    (dir entries).shellAt (name :: q) =
      (entries.find? fun e => e.1 == name).bind fun e => e.2.shellAt q := by
  unfold shellAt
  rw [lookup]
  cases entries.find? fun e => e.1 == name with
  | none => rfl
  | some e => rfl

/-- Directories are made up to the path, and nothing else is touched. -/
theorem createDirs_shellAt (h : tree.createDirs p = some tree') :
    tree'.shellAt q = if q <+: p then some (dir []) else tree.shellAt q := by
  induction p generalizing tree tree' q with
  | nil =>
    cases tree with
    | dir entries =>
      obtain rfl := Option.some.inj h
      cases q with
      | nil => simp [shellAt_nil, shell]
      | cons name q => simp
    | _ => cases h
  | cons name p ih =>
    cases tree with
    | dir entries =>
      simp only [createDirs] at h
      cases q with
      | nil =>
        rw [if_pos List.nil_prefix, shellAt_nil]
        cases hfound : entries.find? fun e => e.1 == name with
        | none =>
          rw [hfound] at h
          obtain ⟨made, -, rfl⟩ := Option.map_eq_some_iff.mp h
          rfl
        | some e =>
          rw [hfound] at h
          obtain ⟨made, -, rfl⟩ := Option.map_eq_some_iff.mp h
          rfl
      | cons name' q =>
        cases hfound : entries.find? fun e => e.1 == name with
        | none =>
          rw [hfound] at h
          obtain ⟨made, hmade, rfl⟩ := Option.map_eq_some_iff.mp h
          rw [shellAt_cons, shellAt_cons, List.find?_append]
          by_cases hname : name = name'
          · obtain rfl := hname
            rw [hfound]
            have hshell := ih (q := q) hmade
            simp only [Option.none_or, List.find?_cons, beq_self_eq_true, Option.bind_some, hshell,
              List.cons_prefix_cons, true_and, Option.bind_none]
            by_cases hq : q <+: p
            · rw [if_pos hq, if_pos hq]
            · rw [if_neg hq, if_neg hq]
              cases q with
              | nil => exact absurd List.nil_prefix hq
              | cons name' q => rfl
          · have hneither : ¬ name' :: q <+: name :: p := fun hpre =>
              hname (List.cons_prefix_cons.mp hpre).1.symm
            rw [if_neg hneither]
            simp [hname]
        | some e =>
          rw [hfound] at h
          obtain ⟨made, hmade, rfl⟩ := Option.map_eq_some_iff.mp h
          rw [shellAt_cons, shellAt_cons, find?_update (f := fun _ => made)]
          by_cases hname : name = name'
          · obtain rfl := hname
            rw [hfound, Option.map_some, Option.bind_some, Option.bind_some, if_pos rfl, ih hmade]
            simp only [List.cons_prefix_cons, true_and]
          · have hneither : ¬ name' :: q <+: name :: p := fun hpre =>
              hname (List.cons_prefix_cons.mp hpre).1.symm
            simp only [if_neg hneither, if_neg hname, Option.map_id']
    | _ => cases h

theorem found_of_createDirs (h : tree.createDirs p = some tree') :
    (tree'.lookup p).isSome = true := by
  have hshell := createDirs_shellAt (q := p) h
  rw [if_pos (List.prefix_refl p)] at hshell
  obtain ⟨made, hmade, -⟩ := Option.map_eq_some_iff.mp hshell
  rw [hmade]
  rfl

/-- Only a directory is on the way. -/
theorem dir_of_createDirs (h : tree.createDirs p = some tree') (hq : q <+: p)
    {found : Node α} (hfound : tree.shellAt q = some found) : found = dir [] := by
  induction p generalizing tree tree' q with
  | nil =>
    obtain rfl := List.prefix_nil.mp hq
    cases tree with
    | dir entries =>
      rw [shellAt_nil] at hfound
      exact (Option.some.inj hfound).symm
    | _ => cases h
  | cons name p ih =>
    cases tree with
    | dir entries =>
      cases q with
      | nil =>
        rw [shellAt_nil] at hfound
        exact (Option.some.inj hfound).symm
      | cons name' q =>
        obtain ⟨rfl, hpre⟩ := List.cons_prefix_cons.mp hq
        simp only [createDirs] at h
        rw [shellAt_cons] at hfound
        cases hentry : entries.find? fun e => e.1 == name' with
        | none =>
          rw [hentry] at hfound
          cases hfound
        | some e =>
          rw [hentry] at h hfound
          obtain ⟨made, hmade, -⟩ := Option.map_eq_some_iff.mp h
          exact ih hmade hpre hfound
    | _ => cases h

/-- What is not on the way is as it was. -/
theorem createDirs_lookup (h : tree.createDirs p = some tree') (hq : ¬ q <+: p) :
    tree'.lookup q = tree.lookup q := by
  induction p generalizing tree tree' q with
  | nil =>
    cases tree with
    | dir entries =>
      obtain rfl := Option.some.inj h
      rfl
    | _ => cases h
  | cons name p ih =>
    cases tree with
    | dir entries =>
      simp only [createDirs] at h
      cases q with
      | nil => exact absurd List.nil_prefix hq
      | cons name' q =>
        rw [List.cons_prefix_cons, not_and] at hq
        cases hfound : entries.find? fun e => e.1 == name with
        | none =>
          rw [hfound] at h
          obtain ⟨made, hmade, rfl⟩ := Option.map_eq_some_iff.mp h
          rw [lookup, lookup, List.find?_append]
          by_cases hname : name = name'
          · obtain rfl := hname
            have hmissing : made.lookup q = none := by
              rw [ih hmade (hq rfl)]
              cases q with
              | nil => exact absurd List.nil_prefix (hq rfl)
              | cons name' q => rfl
            rw [hfound]
            simp [hmissing]
          · simp [hname]
        | some e =>
          rw [hfound] at h
          obtain ⟨made, hmade, rfl⟩ := Option.map_eq_some_iff.mp h
          rw [lookup, lookup, find?_update (f := fun _ => made)]
          by_cases hname : name = name'
          · obtain rfl := hname
            rw [hfound, Option.map_some, Option.bind_some, Option.bind_some, if_pos rfl,
              ih hmade (hq rfl)]
          · simp only [if_neg hname, Option.map_id']
    | _ => cases h

theorem put_shellAt {new : Node α} (h : (tree.lookup p).isSome = true) :
    (put new p tree).shellAt q =
      if p <+: q then new.shellAt (q.drop p.length) else tree.shellAt q := by
  induction p generalizing tree q with
  | nil =>
    rw [if_pos List.nil_prefix]
    rfl
  | cons name p ih =>
    cases tree with
    | dir entries =>
      rw [lookup] at h
      cases q with
      | nil =>
        rw [if_neg (by simp), put, shellAt_nil, shellAt_nil]
        rfl
      | cons name' q =>
        rw [put, shellAt_cons, shellAt_cons, find?_update]
        by_cases hname : name = name'
        · obtain rfl := hname
          cases hentry : entries.find? fun e => e.1 == name with
          | none =>
            rw [hentry] at h
            cases h
          | some e =>
            rw [hentry] at h
            rw [Option.map_some, Option.bind_some, Option.bind_some, if_pos rfl, ih h]
            simp only [List.cons_prefix_cons, true_and, List.length_cons, List.drop_succ_cons]
        · have hneither : ¬ name :: p <+: name' :: q := fun hpre =>
            hname (List.cons_prefix_cons.mp hpre).1
          simp only [if_neg hneither, if_neg hname, Option.map_id']
    | _ => cases h

theorem Extends.lookup (h : tree.Extends tree') (hfound : tree.lookup q = some node) :
    ∃ node', tree'.lookup q = some node' ∧ node'.shell = node.shell := by
  have hshell := h q node.shell (by unfold shellAt; rw [hfound]; rfl)
  exact Option.map_eq_some_iff.mp hshell

theorem Extends.kindAt (h : tree.Extends tree') {kind : NodeKind}
    (hkind : tree.kindAt q = some kind) : tree'.kindAt q = some kind := by
  rw [kindAt_eq_shellAt] at hkind ⊢
  obtain ⟨shell, hshell, rfl⟩ := Option.map_eq_some_iff.mp hkind
  rw [h q shell hshell]
  rfl

/-- A removal seen by what is found at each path. -/
theorem shellAt_removed (hp : p ≠ []) (q : List FileName) :
    (tree.remove p).shellAt q = if p <+: q then none else tree.shellAt q := by
  split
  · rename_i hpre
    unfold shellAt
    rw [lookup_remove hp hpre]
    rfl
  · rename_i hpre
    exact shellAt_remove hpre

/-- The tree before a removal finds what it finds after it. -/
theorem extends_of_remove (hp : p ≠ []) : (tree.remove p).Extends tree := by
  intro q shell hshell
  rw [shellAt_removed hp] at hshell
  split_ifs at hshell
  exact hshell

end

section

variable {tree tree' : Node α} {followLast : Bool} {cur rest parts p : List FileName} {limit : ℕ}
  {follow follow' : List FileName → List Char → List FileName → Except IoError (List FileName)}

/-- A path leads where it led, in any tree that finds as much. -/
theorem walk_extends (h : tree.Extends tree')
    (hfollow : ∀ cur target rest p, follow cur target rest = .ok p →
      follow' cur target rest = .ok p)
    (hwalk : tree.walk followLast follow cur rest = .ok p) :
    tree'.walk followLast follow' cur rest = .ok p := by
  induction rest generalizing cur with
  | nil => exact hwalk
  | cons piece rest ih =>
    obtain ⟨entries, hdir⟩ := dir_of_walk hwalk
    have hdir' : ∃ entries', tree'.lookup cur = some (dir entries') :=
      kindAt_eq_some_dir.mp (h.kindAt (kindAt_eq_some_dir.mpr ⟨entries, hdir⟩))
    obtain ⟨entries', hdir'⟩ := hdir'
    by_cases hdot : piece = ['.']
    · obtain rfl := hdot
      rw [walk_dot hdir] at hwalk
      rw [walk_dot hdir']
      exact ih hwalk
    · by_cases hdots : piece = ['.', '.']
      · obtain rfl := hdots
        rw [walk_dots hdir] at hwalk
        rw [walk_dots hdir']
        exact ih hwalk
      · rw [walk_name hdir hdot hdots] at hwalk
        rw [walk_name hdir' hdot hdots]
        cases hfound : tree.lookup (cur ++ [piece]) with
        | none =>
          rw [hfound] at hwalk
          cases hwalk
        | some found =>
          obtain ⟨found', hfound', hshell⟩ := h.lookup hfound
          rw [hfound] at hwalk
          rw [hfound']
          cases found with
          | link target =>
            have hlink : found' = link target := by
              cases found' <;> simp [shell] at hshell ⊢
              exact hshell
            obtain rfl := hlink
            dsimp only at hwalk ⊢
            split_ifs at hwalk ⊢ with hend
            · exact hwalk
            · exact hfollow _ _ _ _ hwalk
          | dir entries =>
            cases found' with
            | dir entries' => exact ih hwalk
            | _ => simp [shell] at hshell
          | file content =>
            cases found' with
            | file content' => exact ih hwalk
            | _ => simp [shell] at hshell
          | other =>
            cases found' with
            | other => exact ih hwalk
            | _ => simp [shell] at hshell

theorem resolve_extends (h : tree.Extends tree')
    (hresolve : tree.resolve followLast limit cur rest = .ok p) :
    tree'.resolve followLast limit cur rest = .ok p := by
  induction limit generalizing cur rest p with
  | zero => exact walk_extends h (fun _ _ _ _ hfollow => hfollow) hresolve
  | succ limit ih => exact walk_extends h (fun _ _ _ _ hfollow => ih hfollow) hresolve

/-- What a path leads to through its last link, it names without following that one. -/
theorem walk_lstat (hcur : (tree.lookup cur).isSome = true)
    (hfollow : ∀ cur target rest p, (tree.lookup cur).isSome = true →
      follow cur target rest = .ok p →
        ∃ q, follow' cur target rest = .ok q ∧ (tree.lookup q).isSome = true)
    (hwalk : tree.walk true follow cur rest = .ok p) :
    ∃ q, tree.walk false follow' cur rest = .ok q ∧ (tree.lookup q).isSome = true := by
  induction rest generalizing cur with
  | nil => exact ⟨cur, rfl, hcur⟩
  | cons piece rest ih =>
    obtain ⟨entries, hdir⟩ := dir_of_walk hwalk
    by_cases hdot : piece = ['.']
    · obtain rfl := hdot
      rw [walk_dot hdir] at hwalk ⊢
      exact ih hcur hwalk
    · by_cases hdots : piece = ['.', '.']
      · obtain rfl := hdots
        rw [walk_dots hdir] at hwalk ⊢
        exact ih (found_above (List.dropLast_prefix cur) hcur) hwalk
      · rw [walk_name hdir hdot hdots] at hwalk ⊢
        cases hfound : tree.lookup (cur ++ [piece]) with
        | none =>
          rw [hfound] at hwalk
          cases hwalk
        | some found =>
          have hnext : (tree.lookup (cur ++ [piece])).isSome = true := by
            rw [hfound]
            rfl
          rw [hfound] at hwalk
          cases found with
          | link target =>
            simp only [Bool.true_eq_false, and_false, if_false, and_true] at hwalk ⊢
            split_ifs with hend
            · exact ⟨_, rfl, hnext⟩
            · exact hfollow _ _ _ _ hcur hwalk
          | _ => exact ih hnext hwalk

theorem resolve_lstat (hcur : (tree.lookup cur).isSome = true)
    (h : tree.resolve true limit cur rest = .ok p) :
    ∃ q, tree.resolve false limit cur rest = .ok q ∧ (tree.lookup q).isSome = true := by
  induction limit generalizing cur rest p with
  | zero =>
    refine walk_lstat hcur (fun _ _ _ _ _ hfollow => ?_) h
    cases hfollow
  | succ limit ih =>
    refine walk_lstat hcur (fun cur target rest p hcur hfollow => ?_) h
    split_ifs at hfollow ⊢
    · exact ih (found_above List.nil_prefix hcur) hfollow
    · exact ih hcur hfollow

/-- A path that names no link leads to what it names. -/
theorem walk_of_lstat (hlink : tree.kindAt p ≠ some .link)
    (hfollow : ∀ cur target rest, follow' cur target rest = .ok p →
      follow cur target rest = .ok p)
    (h : tree.walk false follow' cur rest = .ok p) : tree.walk true follow cur rest = .ok p := by
  induction rest generalizing cur with
  | nil => exact h
  | cons piece rest ih =>
    obtain ⟨entries, hdir⟩ := dir_of_walk h
    by_cases hdot : piece = ['.']
    · obtain rfl := hdot
      rw [walk_dot hdir] at h ⊢
      exact ih h
    · by_cases hdots : piece = ['.', '.']
      · obtain rfl := hdots
        rw [walk_dots hdir] at h ⊢
        exact ih h
      · rw [walk_name hdir hdot hdots] at h ⊢
        cases hfound : tree.lookup (cur ++ [piece]) with
        | none =>
          rw [hfound] at h
          cases h
        | some found =>
          rw [hfound] at h
          cases found with
          | link target =>
            simp only [Bool.true_eq_false, and_false, if_false, and_true] at h ⊢
            split_ifs at h with hend
            · obtain rfl := Except.ok.inj h
              refine absurd ?_ hlink
              unfold kindAt
              rw [hfound]
              rfl
            · exact hfollow _ _ _ h
          | _ => exact ih h

theorem resolve_of_lstat (hlink : tree.kindAt p ≠ some .link)
    (h : tree.resolve false limit cur rest = .ok p) :
    tree.resolve true limit cur rest = .ok p := by
  induction limit generalizing cur rest with
  | zero =>
    refine walk_of_lstat hlink (fun _ _ _ hfollow => ?_) h
    cases hfollow
  | succ limit ih => exact walk_of_lstat hlink (fun _ _ _ hfollow => ih hfollow) h

/-- A path whose last piece is a name ends below a directory. -/
theorem walk_ne_nil {name : FileName} (hname : name ≠ ['.'] ∧ name ≠ ['.', '.'])
    (hfollow : ∀ cur target rest p, follow cur target (rest ++ [name]) = .ok p → p ≠ [])
    (h : tree.walk false follow cur (rest ++ [name]) = .ok p) : p ≠ [] := by
  induction rest generalizing cur with
  | nil =>
    obtain ⟨entries, hdir⟩ := dir_of_walk h
    rw [List.nil_append, walk_name hdir hname.1 hname.2] at h
    cases hfound : tree.lookup (cur ++ [name]) with
    | none =>
      rw [hfound] at h
      cases h
    | some found =>
      rw [hfound] at h
      have hp : p = cur ++ [name] := by
        cases found <;> simpa [walk, eq_comm] using h
      rw [hp]
      simp
  | cons piece rest ih =>
    rw [List.cons_append] at h
    obtain ⟨entries, hdir⟩ := dir_of_walk h
    by_cases hdot : piece = ['.']
    · obtain rfl := hdot
      rw [walk_dot hdir] at h
      exact ih h
    · by_cases hdots : piece = ['.', '.']
      · obtain rfl := hdots
        rw [walk_dots hdir] at h
        exact ih h
      · rw [walk_name hdir hdot hdots] at h
        cases hfound : tree.lookup (cur ++ [piece]) with
        | none =>
          rw [hfound] at h
          cases h
        | some found =>
          rw [hfound] at h
          cases found with
          | link target =>
            have hlink : follow cur target (rest ++ [name]) = .ok p := by simpa using h
            exact hfollow _ _ _ _ hlink
          | _ => exact ih h

theorem resolve_ne_nil {name : FileName} (hname : name ≠ ['.'] ∧ name ≠ ['.', '.'])
    (h : tree.resolve false limit cur (rest ++ [name]) = .ok p) : p ≠ [] := by
  induction limit generalizing cur rest p with
  | zero =>
    refine walk_ne_nil hname (fun _ _ _ _ hfollow => ?_) h
    cases hfollow
  | succ limit ih =>
    refine walk_ne_nil hname (fun cur target rest p hfollow => ?_) h
    rw [← List.append_assoc] at hfollow
    exact ih hfollow

/-- A removed path leads to no directory. -/
theorem not_isDirectory_removeDirAll {name : FileName}
    (hname : name ≠ ['.'] ∧ name ≠ ['.', '.']) :
    ¬ IsDirectory limit (removeDirAll limit tree (parts ++ [name])) (parts ++ [name]) := by
  rintro ⟨path, hpath, hkind⟩
  unfold removeDirAll at hpath hkind
  have hlstat : ∀ tree : Node α, tree.resolve true limit [] (parts ++ [name]) = .ok path →
      ∃ q, tree.resolve false limit [] (parts ++ [name]) = .ok q ∧
        (tree.lookup q).isSome = true :=
    fun tree h => resolve_lstat (by rw [lookup_nil]; rfl) h
  cases hresolve : tree.resolve false limit [] (parts ++ [name]) with
  | error e =>
    rw [hresolve] at hpath
    obtain ⟨q, hq, -⟩ := hlstat _ hpath
    rw [hresolve] at hq
    cases hq
  | ok q =>
    rw [hresolve] at hpath hkind
    dsimp only at hpath hkind
    have hne := resolve_ne_nil hname hresolve
    have hremoved : (tree.remove q).resolve true limit [] (parts ++ [name]) ≠ .ok path := by
      intro hafter
      obtain ⟨q', hq', hfound⟩ := hlstat _ hafter
      have hsame := resolve_extends (extends_of_remove hne) hq'
      obtain rfl : q = q' := Except.ok.inj (hresolve.symm.trans hsame)
      rw [lookup_remove hne (List.prefix_refl q)] at hfound
      cases hfound
    split at hpath
    · exact hremoved hpath
    · exact hremoved hpath
    · rename_i hdir hlink
      have hsame := resolve_of_lstat (fun heq => hlink heq) hresolve
      obtain rfl : q = path := Except.ok.inj (hsame.symm.trans hpath)
      split at hkind
      · rename_i heq
        exact hdir heq
      · rename_i heq
        exact hlink heq
      · exact hdir hkind

/-- A path through directories leads straight to what it names. -/
theorem walk_direct (hreal : ∀ name ∈ rest, name ≠ ['.'] ∧ name ≠ ['.', '.'])
    (hdirs : ∀ q, q <+: rest → q ≠ rest → tree.kindAt (cur ++ q) = some .dir)
    (hfound : (tree.lookup (cur ++ rest)).isSome = true)
    (hlink : followLast = true → tree.kindAt (cur ++ rest) ≠ some .link) :
    tree.walk followLast follow cur rest = .ok (cur ++ rest) := by
  induction rest generalizing cur with
  | nil => simp [walk]
  | cons piece rest ih =>
    have hpiece := hreal piece List.mem_cons_self
    obtain ⟨entries, hdir⟩ := kindAt_eq_some_dir.mp (by
      simpa using hdirs [] List.nil_prefix (List.cons_ne_nil _ _).symm)
    rw [walk_name hdir hpiece.1 hpiece.2]
    obtain ⟨found, hnext⟩ := Option.isSome_iff_exists.mp
      (found_above (⟨rest, by simp⟩ : cur ++ [piece] <+: cur ++ piece :: rest) hfound)
    rw [List.append_cons cur piece rest] at hfound hlink ⊢
    have hrest : tree.walk followLast follow (cur ++ [piece]) rest = .ok (cur ++ [piece] ++ rest) := by
      refine ih (fun name hname => hreal name (List.mem_cons_of_mem _ hname))
        (fun q hq hne => ?_) hfound hlink
      have hbelow := hdirs (piece :: q) (List.cons_prefix_cons.mpr ⟨rfl, hq⟩)
        (fun heq => hne (List.cons.inj heq).2)
      rwa [List.append_cons] at hbelow
    rw [hnext]
    cases found with
    | link target =>
      have hkind : tree.kindAt (cur ++ [piece]) = some .link := by
        unfold kindAt
        rw [hnext]
        rfl
      by_cases hend : rest = []
      · obtain rfl := hend
        rw [List.append_nil] at hlink ⊢
        have hlast : followLast = false :=
          Bool.eq_false_iff.mpr fun hfollow => hlink hfollow hkind
        dsimp only
        rw [if_pos ⟨rfl, hlast⟩]
      · have hpiecedir := hdirs [piece] ⟨rest, rfl⟩ (fun heq => hend (List.cons.inj heq).2.symm)
        rw [hkind] at hpiecedir
        cases hpiecedir
    | _ => exact hrest

/-- Where a name on the way is missing, nothing is found. -/
theorem walk_missing (hreal : ∀ name ∈ rest, name ≠ ['.'] ∧ name ≠ ['.', '.'])
    (hcur : tree.kindAt cur = some .dir)
    (hdirs : ∀ q, q <+: rest → tree.kindAt (cur ++ q) = some .dir ∨ tree.kindAt (cur ++ q) = none)
    (hmissing : tree.kindAt (cur ++ rest) = none) :
    tree.walk followLast follow cur rest = .error .notFound := by
  induction rest generalizing cur with
  | nil =>
    rw [List.append_nil, hcur] at hmissing
    cases hmissing
  | cons piece rest ih =>
    have hpiece := hreal piece List.mem_cons_self
    obtain ⟨entries, hdir⟩ := kindAt_eq_some_dir.mp hcur
    rw [walk_name hdir hpiece.1 hpiece.2]
    rcases hdirs [piece] ⟨rest, rfl⟩ with hnext | hnext
    · obtain ⟨entries', hfound⟩ := kindAt_eq_some_dir.mp hnext
      rw [hfound]
      dsimp only
      rw [List.append_cons cur piece rest] at hmissing
      refine ih (fun name hname => hreal name (List.mem_cons_of_mem _ hname)) hnext
        (fun q hq => ?_) hmissing
      have hbelow := hdirs (piece :: q) (List.cons_prefix_cons.mpr ⟨rfl, hq⟩)
      rwa [List.append_cons] at hbelow
    · have hfound : tree.lookup (cur ++ [piece]) = none := Option.map_eq_none_iff.mp hnext
      rw [hfound]

/-- A path is followed on from where its first part leads. -/
theorem walk_append {more r : List FileName} (hmore : more ≠ [])
    (hdirect : ∀ follow, tree.walk followLast follow p more = .ok r)
    (hfollow : ∀ cur target rest, follow cur target rest = .ok p →
      follow' cur target (rest ++ more) = .ok r)
    (h : tree.walk true follow cur rest = .ok p) :
    tree.walk followLast follow' cur (rest ++ more) = .ok r := by
  induction rest generalizing cur with
  | nil =>
    obtain rfl := Except.ok.inj h
    exact hdirect _
  | cons piece rest ih =>
    obtain ⟨entries, hdir⟩ := dir_of_walk h
    rw [List.cons_append]
    by_cases hdot : piece = ['.']
    · obtain rfl := hdot
      rw [walk_dot hdir] at h ⊢
      exact ih h
    · by_cases hdots : piece = ['.', '.']
      · obtain rfl := hdots
        rw [walk_dots hdir] at h ⊢
        exact ih h
      · rw [walk_name hdir hdot hdots] at h ⊢
        cases hfound : tree.lookup (cur ++ [piece]) with
        | none =>
          rw [hfound] at h
          cases h
        | some found =>
          rw [hfound] at h
          cases found with
          | link target =>
            have hlink : follow cur target rest = .ok p := by simpa using h
            simp only [List.append_eq_nil_iff, hmore, and_false, false_and, if_false]
            exact hfollow _ _ _ hlink
          | _ => exact ih h

theorem resolve_append {more r : List FileName} (hmore : more ≠ [])
    (hdirect : ∀ follow, tree.walk followLast follow p more = .ok r)
    (h : tree.resolve true limit cur rest = .ok p) :
    tree.resolve followLast limit cur (rest ++ more) = .ok r := by
  induction limit generalizing cur rest with
  | zero =>
    refine walk_append hmore hdirect (fun _ _ _ hfollow => ?_) h
    cases hfollow
  | succ limit ih =>
    refine walk_append hmore hdirect (fun cur target rest hfollow => ?_) h
    rw [← List.append_assoc]
    exact ih hfollow

theorem canonicalize_extends {cwd : List FileName} {root : List Char} (h : tree.Extends tree')
    (hroot : canonicalize limit tree cwd root = .ok p) :
    canonicalize limit tree' cwd root = .ok p := by
  unfold canonicalize at hroot ⊢
  split_ifs at hroot ⊢
  · exact resolve_extends h hroot
  · exact resolve_extends h hroot

theorem canonical_of_canonicalize {cwd canonicalRoot : List FileName} {root : List Char}
    (hcwd : tree.Canonical cwd) (h : canonicalize limit tree cwd root = .ok canonicalRoot) :
    tree.Canonical canonicalRoot := by
  unfold canonicalize at h
  split_ifs at h
  · exact resolve_canonical (hcwd.above List.nil_prefix) h
  · exact resolve_canonical hcwd h

end

end Node

end RatatoskrVault.Lib
