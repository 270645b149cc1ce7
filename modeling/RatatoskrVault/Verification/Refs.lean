import RatatoskrVault.Mirror.Lifecycle

/-! What `git show-ref` lists of a repository, and how captures and drills read it. -/
namespace RatatoskrVault

/-- A ref of a repository; an object identifier is one word. -/
structure GitRef extends RefEvidence where
  oneWord : ' ' ∉ oid.toList
  deriving DecidableEq

/-- The line of `show-ref` for a ref. -/
def GitRef.line (reference : GitRef) : String :=
  String.ofList (reference.oid.toList ++ ' ' :: reference.name.toList)

/-- `git show-ref` lists exactly the refs, and fails where there is none. -/
def showRef (refs : List GitRef) : RunOutcome :=
  { exitCode := if refs.isEmpty then 1 else 0, lines := some (refs.map (·.line)) }

/-- `split_once(' ')`. -/
def splitSpace : List Char → Option (List Char × List Char)
  | [] => none
  | c :: rest =>
    if c = ' ' then some ([], rest)
    else (splitSpace rest).map fun (before, after) => (c :: before, after)

/-- The object identifier and the name of a line. -/
def parseLine (line : String) : Option RefEvidence :=
  (splitSpace line.toList).map fun (oid, name) =>
    { name := String.ofList name, oid := String.ofList oid }

def isAsciiControl (c : Char) : Bool := decide (c.toNat < 32 ∨ c.toNat = 127)

def validOid (oid : String) : Bool :=
  (oid.utf8ByteSize == 40 || oid.utf8ByteSize == 64) &&
    oid.toList.all fun c => c.isLower || c.isDigit

/-- `parse_refs` of a capture; `names` are those of the lines before. -/
def parseRefsFrom (names : List String) : List String → Except String (List RefEvidence)
  | [] => .ok []
  | line :: rest =>
    match parseLine line with
    | none => .error "malformed show-ref output"
    | some reference =>
      if !validOid reference.oid || reference.name.isEmpty ||
          reference.name.toList.any isAsciiControl then .error "invalid ref evidence"
      else if names.contains reference.name then .error "duplicate ref evidence"
      else
        match parseRefsFrom (names ++ [reference.name]) rest with
        | .error e => .error e
        | .ok references => .ok (reference :: references)

def parseRefs (lines : List String) : Except String (List RefEvidence) := parseRefsFrom [] lines

theorem splitSpace_append {before after : List Char} (h : ' ' ∉ before) :
    splitSpace (before ++ ' ' :: after) = some (before, after) := by
  induction before with
  | nil => simp [splitSpace]
  | cons c before ih =>
    rw [List.mem_cons, not_or] at h
    rw [List.cons_append, splitSpace, if_neg (Ne.symm h.1), ih h.2]
    rfl

/-- A line reads back as the ref it was written for. -/
theorem parseLine_line (reference : GitRef) :
    parseLine reference.line = some reference.toRefEvidence := by
  unfold parseLine GitRef.line
  rw [String.toList_ofList, splitSpace_append reference.oneWord]
  simp

/-- A capture reads what `show-ref` has listed, or refuses it. -/
theorem parseRefsFrom_lines {refs : List GitRef} {names : List String}
    {references : List RefEvidence}
    (h : parseRefsFrom names (refs.map (·.line)) = .ok references) :
    references = refs.map (·.toRefEvidence) := by
  induction refs generalizing names references with
  | nil =>
    cases h
    rfl
  | cons reference rest ih =>
    simp only [List.map_cons, parseRefsFrom, parseLine_line] at h
    split_ifs at h
    cases hrest : parseRefsFrom (names ++ [reference.name]) (rest.map (·.line)) with
    | error e =>
      rw [hrest] at h
      cases h
    | ok references =>
      rw [hrest] at h
      cases h
      rw [ih hrest]
      rfl

end RatatoskrVault
