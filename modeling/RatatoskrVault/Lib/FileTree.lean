import Mathlib.Data.List.Basic

/-! File trees with symbolic links: what a name path finds, the resolution of a path text as the
operating system makes it, and the removal of a subtree. -/
namespace RatatoskrVault.Lib

abbrev FileName := List Char

/-- A file, a link, a directory, or anything else, with contents of type `α`. -/
inductive Node (α : Type)
  | file (content : α)
  | other
  | link (target : List Char)
  | dir (entries : List (FileName × Node α))

inductive NodeKind
  | file | other | link | dir
  deriving DecidableEq

inductive IoError
  | notFound | notADirectory | loop | invalidInput | other
  deriving DecidableEq

/-- The pieces of a path text; one that ends in a separator asks for a directory. -/
def pathParts (text : List Char) : List FileName :=
  let pieces := text.splitOn '/'
  (pieces.dropLast.filter fun piece => piece ≠ []) ++
    [if pieces.getLast?.getD [] = [] then ['.'] else pieces.getLast?.getD []]

def isAbsolute (text : List Char) : Bool := text.head? == some '/'

/-- What a list of pieces names where no piece steps up. -/
def names (parts : List FileName) : List FileName := parts.filter fun piece => piece ≠ ['.']

namespace Node

variable {α : Type}

def kind : Node α → NodeKind
  | file _ => .file
  | other => .other
  | link _ => .link
  | dir _ => .dir

def isLink (node : Node α) : Bool := node.kind == .link

mutual

/-- Directories and regular files only, at any depth. -/
def regular : Node α → Bool
  | dir entries => regularEntries entries
  | file _ => true
  | _ => false

def regularEntries : List (FileName × Node α) → Bool
  | [] => true
  | (_, node) :: entries => node.regular && regularEntries entries

end

/-- A node without what is below it. -/
def shell : Node α → Node α
  | dir _ => dir []
  | node => node

/-- What a path of names finds, without following links. -/
def lookup : Node α → List FileName → Option (Node α)
  | node, [] => some node
  | dir entries, name :: path =>
    (entries.find? fun e => e.1 == name).bind fun e => e.2.lookup path
  | _, _ => none

/-- The tree without what is found at a path. -/
def remove : List FileName → Node α → Node α
  | [name], dir entries => dir (entries.filter fun e => e.1 != name)
  | name :: path, dir entries =>
    dir (entries.map fun e => if e.1 == name then (e.1, e.2.remove path) else e)
  | _, node => node

def kindAt (node : Node α) (path : List FileName) : Option NodeKind := (node.lookup path).map kind

def shellAt (node : Node α) (path : List FileName) : Option (Node α) :=
  (node.lookup path).map shell

section Resolution

variable (root : Node α) (followLast : Bool)

/-- The walk over the pieces of a path; `follow` goes on where a link is met. -/
def walk (follow : List FileName → List Char → List FileName → Except IoError (List FileName)) :
    List FileName → List FileName → Except IoError (List FileName)
  | cur, [] => .ok cur
  | cur, piece :: rest =>
    match root.lookup cur with
    | some (dir _) =>
      if piece = ['.'] then walk follow cur rest
      else if piece = ['.', '.'] then walk follow cur.dropLast rest
      else
        match root.lookup (cur ++ [piece]) with
        | none => .error .notFound
        | some (link target) =>
          if rest = [] ∧ followLast = false then .ok (cur ++ [piece]) else follow cur target rest
        | some _ => walk follow (cur ++ [piece]) rest
    | _ => .error .notADirectory

/-- The resolution of a path from a directory, with at most so many links followed. -/
def resolve : ℕ → List FileName → List FileName → Except IoError (List FileName)
  | 0, cur, rest => root.walk followLast (fun _ _ _ => .error .loop) cur rest
  | limit + 1, cur, rest =>
    root.walk followLast
      (fun cur target rest =>
        resolve limit (if isAbsolute target then [] else cur) (pathParts target ++ rest)) cur rest

end Resolution

/-- A path without links, dots and what does not exist. -/
structure Canonical (root : Node α) (path : List FileName) : Prop where
  real : ∀ name ∈ path, name ≠ ['.'] ∧ name ≠ ['.', '.']
  found : ∃ node, root.lookup path = some node ∧ node.isLink = false

/-- Nothing below but directories and regular files. -/
def Plain (node : Node α) : Prop :=
  ∀ path found, node.lookup path = some found → found.kind = .dir ∨ found.kind = .file

section

variable {root node : Node α} {path rest cur : List FileName} {name : FileName}

@[simp] theorem lookup_nil : node.lookup [] = some node := by
  cases node <;> rfl

theorem lookup_append (p q : List FileName) :
    node.lookup (p ++ q) = (node.lookup p).bind fun found => found.lookup q := by
  induction p generalizing node with
  | nil => simp
  | cons name p ih =>
    cases node with
    | dir entries =>
      simp only [List.cons_append, lookup]
      cases entries.find? fun e => e.1 == name with
      | none => rfl
      | some e => exact ih
    | _ => rfl

/-- What is found below a path makes the path a directory. -/
theorem dir_of_lookup_append {p q : List FileName} (h : (node.lookup (p ++ q)).isSome = true)
    (hq : q ≠ []) : ∃ entries, node.lookup p = some (dir entries) := by
  rw [lookup_append] at h
  cases hfound : node.lookup p with
  | none =>
    rw [hfound] at h
    cases h
  | some found =>
    rw [hfound] at h
    obtain ⟨name, q, rfl⟩ := List.exists_cons_of_ne_nil hq
    cases found with
    | dir entries => exact ⟨entries, rfl⟩
    | _ => cases h

theorem kindAt_eq_some_dir : root.kindAt path = some .dir ↔
    ∃ entries, root.lookup path = some (dir entries) := by
  unfold kindAt
  cases hfound : root.lookup path with
  | none => simp
  | some found => cases found <;> simp [kind]

theorem kindAt_above {p q : List FileName} (hpre : p <+: q) (hne : p ≠ q)
    (h : (root.lookup q).isSome = true) : root.kindAt p = some .dir := by
  obtain ⟨tail, rfl⟩ := hpre
  refine kindAt_eq_some_dir.mpr (dir_of_lookup_append h ?_)
  rintro rfl
  exact hne (List.append_nil p).symm

theorem found_above {p q : List FileName} (hpre : p <+: q) (h : (node.lookup q).isSome = true) :
    (node.lookup p).isSome = true := by
  obtain ⟨tail, rfl⟩ := hpre
  rw [lookup_append] at h
  exact Option.isSome_of_isSome_bind h

theorem regular_of_mem {entries : List (FileName × Node α)} {e : FileName × Node α}
    (h : regularEntries entries = true) (he : e ∈ entries) : e.2.regular = true := by
  induction entries with
  | nil => cases he
  | cons entry entries ih =>
    rw [regularEntries, Bool.and_eq_true] at h
    rcases List.mem_cons.mp he with rfl | he
    · exact h.1
    · exact ih h.2 he

theorem plain_of_regular (h : node.regular = true) : node.Plain := by
  intro path
  induction path generalizing node with
  | nil =>
    intro found hfound
    rw [lookup_nil] at hfound
    rw [← Option.some.inj hfound]
    cases node with
    | dir entries => exact Or.inl rfl
    | file content => exact Or.inr rfl
    | _ => simp [regular] at h
  | cons name path ih =>
    intro found hfound
    cases node with
    | dir entries =>
      simp only [lookup, Option.bind_eq_some_iff] at hfound
      obtain ⟨e, he, hbelow⟩ := hfound
      rw [regular] at h
      exact ih (regular_of_mem h (List.mem_of_find?_eq_some he)) found hbelow
    | _ => cases hfound

/-- What is above a canonical path is canonical. -/
theorem Canonical.above (h : root.Canonical path) {p : List FileName} (hp : p <+: path) :
    root.Canonical p := by
  refine ⟨fun name hname => h.real name (hp.subset hname), ?_⟩
  obtain ⟨found, hfound, hlink⟩ := h.found
  by_cases heq : p = path
  · rw [heq]
    exact ⟨found, hfound, hlink⟩
  · obtain ⟨entries, hdir⟩ := kindAt_eq_some_dir.mp (kindAt_above hp heq (by rw [hfound]; rfl))
    exact ⟨_, hdir, rfl⟩

theorem Canonical.kindAt_ne_link (h : root.Canonical path) : root.kindAt path ≠ some .link := by
  obtain ⟨found, hfound, hlink⟩ := h.found
  unfold kindAt
  rw [hfound]
  intro heq
  have hkind : found.kind = .link := Option.some.inj heq
  simp [isLink, hkind] at hlink

theorem find?_filter_ne {entries : List (FileName × Node α)} {name name' : FileName}
    (hne : name' ≠ name) :
    (entries.filter fun e => e.1 != name).find? (fun e => e.1 == name')
      = entries.find? fun e => e.1 == name' := by
  rw [List.find?_filter]
  congr 1
  funext e
  by_cases hname : e.1 = name'
  · simp [hname, hne]
  · simp [hname]

/-- An update of the entries of one name, as a search by name sees it. -/
theorem find?_update {entries : List (FileName × Node α)} {name name' : FileName}
    {f : Node α → Node α} :
    (entries.map fun e => if e.1 == name then (e.1, f e.2) else e).find? (fun e => e.1 == name')
      = (entries.find? fun e => e.1 == name').map fun e =>
          if name = name' then (e.1, f e.2) else e := by
  rw [List.find?_map]
  have hsearch : (fun e : FileName × Node α =>
      (if e.1 == name then (e.1, f e.2) else e).1 == name') = fun e => e.1 == name' := by
    funext e
    split <;> rfl
  change Option.map _ (entries.find? fun e =>
    (if e.1 == name then (e.1, f e.2) else e).1 == name') = _
  rw [hsearch]
  refine Option.map_congr fun e he => ?_
  have hlabel : e.1 = name' := by simpa using List.find?_some he
  rw [hlabel]
  by_cases hname : name = name'
  · rw [if_pos hname, if_pos (beq_iff_eq.mpr hname.symm)]
  · rw [if_neg hname, if_neg fun heq => hname (beq_iff_eq.mp heq).symm]

/-- Nothing is found where the tree was removed. -/
theorem lookup_remove {p q : List FileName} (hp : p ≠ []) (hpre : p <+: q) :
    (root.remove p).lookup q = none := by
  obtain ⟨tail, rfl⟩ := hpre
  induction p generalizing root with
  | nil => exact absurd rfl hp
  | cons name p ih =>
    cases root with
    | dir entries =>
      cases p with
      | nil =>
        have hgone : (entries.filter fun e => e.1 != name).find? (fun e => e.1 == name) = none := by
          refine List.find?_eq_none.mpr fun e he => ?_
          have hne := (List.mem_filter.mp he).2
          simpa using hne
        simp [remove, lookup, hgone]
      | cons name' p =>
        simp only [remove, lookup, List.cons_append]
        rw [find?_update]
        cases hfound : entries.find? fun e => e.1 == name with
        | none => rfl
        | some e =>
          simp only [Option.map_some, Option.bind_some, if_true]
          exact ih (List.cons_ne_nil _ _)
    | _ => simp [remove, lookup]

theorem shell_remove (p : List FileName) : (root.remove p).shell = root.shell := by
  match p, root with
  | [], _ => rfl
  | [_], .dir _ => rfl
  | _ :: _ :: _, .dir _ => rfl
  | [_], .file _ => rfl
  | [_], .other => rfl
  | [_], .link _ => rfl
  | _ :: _ :: _, .file _ => rfl
  | _ :: _ :: _, .other => rfl
  | _ :: _ :: _, .link _ => rfl

/-- Everything else is found as it was. -/
theorem shellAt_remove {p q : List FileName} (hpre : ¬ p <+: q) :
    (root.remove p).shellAt q = root.shellAt q := by
  induction q generalizing root p with
  | nil =>
    unfold shellAt
    simp [shell_remove]
  | cons name q ih =>
    cases root with
    | dir entries =>
      match p with
      | [] => exact absurd (List.nil_prefix) hpre
      | [name'] =>
        have hne : name ≠ name' := by
          rintro rfl
          exact hpre ⟨q, rfl⟩
        unfold shellAt
        simp only [remove, lookup, find?_filter_ne hne]
      | name' :: name'' :: p =>
        unfold shellAt at ih ⊢
        simp only [remove, lookup]
        rw [find?_update]
        cases hfound : entries.find? fun e => e.1 == name with
        | none => rfl
        | some e =>
          simp only [Option.map_some, Option.bind_some]
          by_cases hsame : name' = name
          · rw [if_pos hsame]
            exact ih fun htail => hpre (List.cons_prefix_cons.mpr ⟨hsame, htail⟩)
          · rw [if_neg hsame]
    | _ =>
      match p with
      | [] => exact absurd (List.nil_prefix) hpre
      | [_] => rfl
      | _ :: _ :: _ => rfl

theorem kindAt_eq_shellAt : root.kindAt path = (root.shellAt path).map kind := by
  unfold kindAt shellAt
  cases root.lookup path with
  | none => rfl
  | some found => cases found <;> rfl

theorem kindAt_remove {p q : List FileName} (hpre : ¬ p <+: q) :
    (root.remove p).kindAt q = root.kindAt q := by
  rw [kindAt_eq_shellAt, kindAt_eq_shellAt, shellAt_remove hpre]

end

section

variable {root : Node α} {followLast : Bool} {cur rest p : List FileName} {limit : ℕ}
  {follow : List FileName → List Char → List FileName → Except IoError (List FileName)}

theorem names_append (p q : List FileName) : names (p ++ q) = names p ++ names q :=
  List.filter_append ..

theorem names_dropLast_prefix (parts : List FileName) : names parts.dropLast <+: names parts :=
  (List.dropLast_prefix parts).filter _

theorem names_of_canonical {path : List FileName} (h : root.Canonical path) : names path = path := by
  refine List.filter_eq_self.mpr fun name hname => ?_
  simpa using (h.real name hname).1

theorem pathParts_ne_nil (text : List Char) : pathParts text ≠ [] := by
  simp [pathParts]

theorem names_cons_dot : names (['.'] :: rest) = names rest := by
  simp [names]

theorem names_cons {piece : FileName} (h : piece ≠ ['.']) :
    names (piece :: rest) = piece :: names rest := by
  simp [names, h]

/-- The pieces where a link would be followed. -/
def followed (followLast : Bool) (rest : List FileName) : List FileName :=
  if followLast then rest else rest.dropLast

theorem followed_cons {piece : FileName} (h : ¬ (rest = [] ∧ followLast = false)) :
    followed followLast (piece :: rest) = piece :: followed followLast rest := by
  unfold followed
  cases followLast with
  | true => rfl
  | false =>
    have hne : rest ≠ [] := fun heq => h ⟨heq, rfl⟩
    simp [List.dropLast_cons_of_ne_nil hne]

/-- A walk goes on from a directory only. -/
theorem dir_of_walk {piece : FileName}
    (h : root.walk followLast follow cur (piece :: rest) = .ok p) :
    ∃ entries, root.lookup cur = some (dir entries) := by
  simp only [walk] at h
  split at h
  · rename_i entries hdir
    exact ⟨entries, hdir⟩
  · cases h

theorem walk_dot {entries : List (FileName × Node α)} (hdir : root.lookup cur = some (dir entries)) :
    root.walk followLast follow cur (['.'] :: rest) = root.walk followLast follow cur rest := by
  rw [walk, hdir]
  rfl

theorem walk_dots {entries : List (FileName × Node α)}
    (hdir : root.lookup cur = some (dir entries)) :
    root.walk followLast follow cur (['.', '.'] :: rest)
      = root.walk followLast follow cur.dropLast rest := by
  rw [walk, hdir]
  rfl

theorem walk_name {piece : FileName} {entries : List (FileName × Node α)}
    (hdir : root.lookup cur = some (dir entries)) (hdot : piece ≠ ['.'])
    (hdots : piece ≠ ['.', '.']) :
    root.walk followLast follow cur (piece :: rest) =
      match root.lookup (cur ++ [piece]) with
      | none => .error .notFound
      | some (link target) =>
        if rest = [] ∧ followLast = false then .ok (cur ++ [piece]) else follow cur target rest
      | some _ => root.walk followLast follow (cur ++ [piece]) rest := by
  rw [walk, hdir]
  dsimp only
  rw [if_neg hdot, if_neg hdots]

/-- A walk that meets no link ends at what the pieces name. -/
theorem walk_unlinked (hdots : ['.', '.'] ∉ rest)
    (hno : ∀ q, q <+: names (followed followLast rest) → root.kindAt (cur ++ q) ≠ some .link)
    (h : root.walk followLast follow cur rest = .ok p) : p = cur ++ names rest := by
  induction rest generalizing cur with
  | nil =>
    rw [← Except.ok.inj h]
    exact (List.append_nil cur).symm
  | cons piece rest ih =>
    have hrest : ['.', '.'] ∉ rest := fun hmem => hdots (List.mem_cons_of_mem _ hmem)
    have hpiece : piece ≠ ['.', '.'] := fun heq => hdots (heq ▸ List.mem_cons_self ..)
    -- where nothing is left to follow, there is nothing left
    have hlast : rest = [] ∧ followLast = false → followed followLast rest = [] := by
      rintro ⟨rfl, rfl⟩
      rfl
    obtain ⟨entries, hdir⟩ := dir_of_walk h
    by_cases hdot : piece = ['.']
    · obtain rfl := hdot
      rw [walk_dot hdir] at h
      rw [names_cons_dot]
      refine ih hrest (fun q hq => ?_) h
      by_cases hend : rest = [] ∧ followLast = false
      · rw [hlast hend] at hq
        obtain rfl := List.prefix_nil.mp hq
        exact hno [] (List.nil_prefix)
      · refine hno q ?_
        rw [followed_cons hend, names_cons_dot]
        exact hq
    · rw [walk_name hdir hdot hpiece] at h
      rw [names_cons hdot]
      cases hfound : root.lookup (cur ++ [piece]) with
      | none =>
        rw [hfound] at h
        cases h
      | some found =>
        have hkind : root.kindAt (cur ++ [piece]) = some found.kind := by
          unfold kindAt
          rw [hfound]
          rfl
        rw [hfound] at h
        by_cases hend : rest = [] ∧ followLast = false
        · obtain ⟨rfl, rfl⟩ := hend
          cases found with
          | link target => exact (Except.ok.inj h).symm
          | _ => exact (Except.ok.inj h).symm
        · have hnext : ∀ q, q <+: names (followed followLast rest) →
              root.kindAt (cur ++ piece :: q) ≠ some .link := by
            intro q hq
            refine hno (piece :: q) ?_
            rw [followed_cons hend, names_cons hdot]
            exact List.cons_prefix_cons.mpr ⟨rfl, hq⟩
          have hwalk : root.walk followLast follow (cur ++ [piece]) rest = .ok p := by
            cases found with
            | link target => exact absurd hkind (hnext [] List.nil_prefix)
            | _ => exact h
          rw [List.append_cons]
          refine ih hrest (fun q hq => ?_) hwalk
          rw [← List.append_cons]
          exact hnext q hq

theorem resolve_unlinked (hdots : ['.', '.'] ∉ rest)
    (hno : ∀ q, q <+: names (followed followLast rest) → root.kindAt (cur ++ q) ≠ some .link)
    (h : root.resolve followLast limit cur rest = .ok p) : p = cur ++ names rest := by
  cases limit with
  | zero => exact walk_unlinked hdots hno h
  | succ limit => exact walk_unlinked hdots hno h

/-- What is removed is not found any more by the path that named it. -/
theorem walk_removed (hdots : ['.', '.'] ∉ rest) (hne : names rest ≠ [])
    (hfound : (root.lookup (cur ++ names rest)).isSome = true) :
    (root.remove (cur ++ names rest)).walk followLast follow cur rest = .error .notFound := by
  induction rest generalizing cur with
  | nil => exact absurd rfl hne
  | cons piece rest ih =>
    have hrest : ['.', '.'] ∉ rest := fun hmem => hdots (List.mem_cons_of_mem _ hmem)
    have hpiece : piece ≠ ['.', '.'] := fun heq => hdots (heq ▸ List.mem_cons_self ..)
    -- a path to what is above the removed tree finds a directory still
    have habove : ∀ q, q <+: cur ++ names (piece :: rest) → q ≠ cur ++ names (piece :: rest) →
        ∃ entries, (root.remove (cur ++ names (piece :: rest))).lookup q = some (dir entries) := by
      intro q hq hqne
      rw [← kindAt_eq_some_dir, kindAt_remove fun hpre => hqne (hq.eq_of_length_le hpre.length_le)]
      exact kindAt_above hq hqne hfound
    obtain ⟨entries, hcur⟩ := habove cur (List.prefix_append ..)
      (fun heq => hne (List.append_cancel_left ((List.append_nil cur).trans heq)).symm)
    by_cases hdot : piece = ['.']
    · obtain rfl := hdot
      rw [walk_dot hcur]
      rw [names_cons_dot] at hne hfound ⊢
      exact ih hrest hne hfound
    · rw [walk_name hcur hdot hpiece]
      rw [names_cons hdot] at habove hfound ⊢
      by_cases hend : names rest = []
      · have hgone : (root.remove (cur ++ piece :: names rest)).lookup (cur ++ [piece]) = none := by
          rw [hend]
          exact lookup_remove (by simp) (List.prefix_refl _)
        rw [hgone]
      · obtain ⟨entries', hnext⟩ := habove (cur ++ [piece])
          ⟨names rest, (List.append_cons cur piece _).symm⟩
          (fun heq => hend (List.cons.inj (List.append_cancel_left heq)).2.symm)
        rw [hnext]
        dsimp only
        rw [List.append_cons] at hfound ⊢
        exact ih hrest hend hfound

theorem resolve_removed (hdots : ['.', '.'] ∉ rest) (hne : names rest ≠ [])
    (hfound : (root.lookup (cur ++ names rest)).isSome = true) :
    (root.remove (cur ++ names rest)).resolve followLast limit cur rest = .error .notFound := by
  cases limit with
  | zero => exact walk_removed hdots hne hfound
  | succ limit => exact walk_removed hdots hne hfound

/-- A walk that follows every link ends at a path without any. -/
theorem walk_canonical (hcur : root.Canonical cur)
    (hfollow : ∀ cur target rest p, root.Canonical cur → root.Canonical [] →
      follow cur target rest = .ok p → root.Canonical p)
    (h : root.walk true follow cur rest = .ok p) : root.Canonical p := by
  induction rest generalizing cur with
  | nil => rwa [← Except.ok.inj h]
  | cons piece rest ih =>
    obtain ⟨entries, hdir⟩ := dir_of_walk h
    by_cases hdot : piece = ['.']
    · obtain rfl := hdot
      rw [walk_dot hdir] at h
      exact ih hcur h
    · by_cases hdots : piece = ['.', '.']
      · obtain rfl := hdots
        rw [walk_dots hdir] at h
        exact ih (hcur.above (List.dropLast_prefix cur)) h
      · rw [walk_name hdir hdot hdots] at h
        cases hfound : root.lookup (cur ++ [piece]) with
        | none =>
          rw [hfound] at h
          cases h
        | some found =>
          rw [hfound] at h
          have hreal : ∀ name ∈ cur ++ [piece], name ≠ ['.'] ∧ name ≠ ['.', '.'] :=
            List.forall_mem_append.mpr
              ⟨hcur.real, List.forall_mem_singleton.mpr ⟨hdot, hdots⟩⟩
          cases found with
          | link target =>
            have hlink : follow cur target rest = .ok p := by simpa using h
            exact hfollow _ _ _ _ hcur (hcur.above List.nil_prefix) hlink
          | _ => exact ih ⟨hreal, _, hfound, rfl⟩ h

theorem resolve_canonical (hcur : root.Canonical cur)
    (h : root.resolve true limit cur rest = .ok p) : root.Canonical p := by
  induction limit generalizing cur rest p with
  | zero =>
    refine walk_canonical hcur (fun cur target rest p hcur hroot h => ?_) h
    cases h
  | succ limit ih =>
    refine walk_canonical hcur (fun cur target rest p hcur hroot h => ?_) h
    split_ifs at h
    · exact ih hroot h
    · exact ih hcur h

end

end Node

end RatatoskrVault.Lib
