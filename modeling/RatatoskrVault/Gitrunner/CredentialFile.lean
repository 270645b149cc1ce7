import RatatoskrVault.Gitrunner.Runner

/-! The credentials of one operation: the file they are staged in, and the two lines that the
helper answers Git with. The file has a line for each field, so a field that ends a line of its
own does not come through. -/
namespace RatatoskrVault

open Lib

/-- Credential material for one operation. -/
structure Credentials where
  username : String
  password : String
  deriving DecidableEq

/-- One line for each field. -/
def Credentials.twoLines (fields : Credentials) : String :=
  "username=" ++ fields.username ++ "\npassword=" ++ fields.password ++ "\n"

/-- The run directory, and what the calls that stage a file in it answer: where one fails, the
error of the operating system. -/
structure RunHome where
  path : String
  created : Except String Unit
  mode : Except String ℕ
  written : Except String Unit
  restricted : Except String Unit

/-- `Path::join` of a file name. -/
def RunHome.join (home : RunHome) (name : String) : String :=
  if home.path.toList = [] ∨ home.path.toList.getLast? = some '/' then home.path ++ name
  else home.path ++ "/" ++ name

structure SecretFile where
  path : String
  mode : ℕ
  text : String
  deriving DecidableEq

/-- `prepare_secret_file`, with the reason of a `CredentialWriteFailed`. -/
def prepareSecretFile (home : RunHome) (uuid : String) (credentials : Credentials) :
    Except String SecretFile := do
  home.created.mapError fun source => "run directory " ++ home.path ++ " unusable: " ++ source
  let dirMode ← home.mode.mapError fun source =>
    "run directory " ++ home.path ++ " unreadable: " ++ source
  if dirMode &&& 0o077 ≠ 0 then
    throw ("run directory " ++ home.path ++ " is group/world accessible")
  let path := home.join ("cred-" ++ uuid ++ ".secret")
  -- the fields are written as they are
  let payload := credentials.twoLines
  home.written.mapError fun source => "secret file " ++ path ++ " unwritable: " ++ source
  home.restricted.mapError fun source => "secret file " ++ path ++ " unprotectable: " ++ source
  return { path, mode := 0o600, text := payload }

/-- `str::strip_prefix`. -/
def stripLabel (label line : List Char) : Option (List Char) :=
  if label <+: line then some (line.drop label.length) else none

/-- One line of the secret file; a later line of one label replaces an earlier one. -/
def helperLine (fields : Credentials) (line : String) : Credentials :=
  match stripLabel "username=".toList line.toList with
  | some value => { fields with username := String.ofList value }
  | none =>
    match stripLabel "password=".toList line.toList with
    | some value => { fields with password := String.ofList value }
    | none => fields

def helperFields (secretText : String) : Credentials :=
  (strLines secretText).foldl helperLine { username := "", password := "" }

/-- `git-credential-helper`: what it prints to its standard output or, when it fails, to its
standard error. -/
def gitCredentialHelper (secretPath : Option String) (requestRead : Bool)
    (disk : String → Option Bytes) : Except String String :=
  match secretPath with
  | none => .error "git-credential-helper: missing secret file argument"
  | some path =>
    if requestRead = false then
      .error "git-credential-helper: cannot read the credential request"
    else
      match (disk path).bind fromUtf8 with
      | none => .error "git-credential-helper: cannot read the secret file"
      | some secretText => .ok (helperFields secretText).twoLines

/-- A text that a line of its own keeps as it is. -/
def OnOneLine (text : String) : Prop :=
  '\n' ∉ text.toList ∧ text.toList.getLast? ≠ some '\r'

instance (text : String) : Decidable (OnOneLine text) := by
  unfold OnOneLine
  infer_instance

section

variable {fields : Credentials} {line : String} {text value : List Char}

theorem toList_twoLines (fields : Credentials) : fields.twoLines.toList =
    ("username=".toList ++ fields.username.toList) ++ '\n' ::
      (("password=".toList ++ fields.password.toList) ++ ['\n']) := by
  unfold Credentials.twoLines
  simp only [String.toList_append, List.append_assoc]
  rfl

theorem not_mem_of_stripLabel {label : List Char} {c : Char}
    (h : stripLabel label text = some value) (hc : c ∉ text) : c ∉ value := by
  unfold stripLabel at h
  split_ifs at h
  have hvalue := Option.some.inj h
  rw [← hvalue]
  exact fun hmem => hc (List.mem_of_mem_drop hmem)

theorem stripLabel_append (label value : List Char) :
    stripLabel label (label ++ value) = some value := by
  unfold stripLabel
  rw [if_pos (List.prefix_append ..), List.drop_left]

/-- What the helper takes from a line has no line feed. -/
theorem helperLine_single (hline : '\n' ∉ line.toList)
    (hfields : '\n' ∉ fields.username.toList ∧ '\n' ∉ fields.password.toList) :
    '\n' ∉ (helperLine fields line).username.toList ∧
      '\n' ∉ (helperLine fields line).password.toList := by
  unfold helperLine
  cases huser : stripLabel "username=".toList line.toList with
  | some value =>
    have hvalue := not_mem_of_stripLabel huser hline
    exact ⟨by rwa [String.toList_ofList], hfields.2⟩
  | none =>
    cases hpass : stripLabel "password=".toList line.toList with
    | some value =>
      have hvalue := not_mem_of_stripLabel hpass hline
      exact ⟨hfields.1, by rwa [String.toList_ofList]⟩
    | none => exact hfields

theorem helperLines_single {lines : List String} (hlines : ∀ line ∈ lines, '\n' ∉ line.toList)
    (hfields : '\n' ∉ fields.username.toList ∧ '\n' ∉ fields.password.toList) :
    '\n' ∉ (lines.foldl helperLine fields).username.toList ∧
      '\n' ∉ (lines.foldl helperLine fields).password.toList := by
  induction lines generalizing fields with
  | nil => exact hfields
  | cons line lines ih =>
    rw [List.forall_mem_cons] at hlines
    exact ih hlines.2 (helperLine_single hlines.1 hfields)

/-- What the helper answers has one line for each field. -/
theorem helperFields_single (secretText : String) :
    '\n' ∉ (helperFields secretText).username.toList ∧
      '\n' ∉ (helperFields secretText).password.toList := by
  apply helperLines_single
  · intro line hline
    obtain ⟨chars, hchars, rfl⟩ := List.mem_map.mp hline
    rw [String.toList_ofList]
    exact lf_not_mem_of_mem_lines hchars
  · exact ⟨List.not_mem_nil, List.not_mem_nil⟩

/-- Two lines that come to the same text are the same lines. -/
theorem eq_of_two_lines {a b a' b' : List Char} (ha : '\n' ∉ a) (hb : '\n' ∉ b)
    (h : a ++ '\n' :: (b ++ ['\n']) = a' ++ '\n' :: (b' ++ ['\n'])) : a = a' ∧ b = b' := by
  have hcancel : a ++ '\n' :: b = a' ++ '\n' :: b' := by
    have hline : (a ++ '\n' :: b) ++ ['\n'] = (a' ++ '\n' :: b') ++ ['\n'] := by
      rw [List.append_assoc, List.cons_append, h, List.append_assoc, List.cons_append]
    exact List.append_cancel_right hline
  obtain ⟨hfirst, -, hsecond⟩ := (List.append_cons_inj_of_notMem ha hb).mp hcancel
  exact ⟨hfirst, hsecond⟩

/-- A line of the staged text, as the helper reads it: without a carriage return at its end. -/
def readLine (line : List Char) : List Char :=
  if line.getLast? = some '\r' then line.dropLast else line

theorem readLine_append {label : List Char} (hlabel : label.getLast? ≠ some '\r')
    (value : List Char) : readLine (label ++ value) = label ++ readLine value := by
  unfold readLine
  cases value with
  | nil => simp [hlabel]
  | cons c value =>
    have hne : c :: value ≠ [] := List.cons_ne_nil c value
    rw [List.getLast?_append_of_ne_nil _ hne, List.dropLast_append_of_ne_nil hne]
    split_ifs <;> rfl

theorem readLine_eq_self {line : List Char} :
    readLine line = line ↔ line.getLast? ≠ some '\r' := by
  unfold readLine
  constructor
  · intro h hlast
    rw [if_pos hlast] at h
    have hlength := congrArg List.length h
    have hpos := List.length_pos_of_mem (List.mem_of_getLast? hlast)
    rw [List.length_dropLast] at hlength
    omega
  · intro h
    rw [if_neg h]

/-- What the helper reads of fields that end no line. -/
theorem helperFields_twoLines (huser : '\n' ∉ fields.username.toList)
    (hpass : '\n' ∉ fields.password.toList) :
    helperFields fields.twoLines =
      { username := String.ofList (readLine fields.username.toList),
        password := String.ofList (readLine fields.password.toList) } := by
  have hfirst : '\n' ∉ "username=".toList ++ fields.username.toList := by simp [huser]
  have hsecond : '\n' ∉ "password=".toList ++ fields.password.toList := by simp [hpass]
  have hlines : lines '\n' '\r' fields.twoLines.toList =
      [readLine ("username=".toList ++ fields.username.toList),
        readLine ("password=".toList ++ fields.password.toList)] := by
    rw [toList_twoLines, lines_line hfirst, lines_line hsecond]
    rfl
  have hdifferent : stripLabel "username=".toList
      ("password=".toList ++ readLine fields.password.toList) = none := by
    unfold stripLabel
    rw [if_neg]
    simp
  unfold helperFields strLines
  rw [hlines, readLine_append (by decide), readLine_append (by decide)]
  simp only [List.map_cons, List.map_nil, List.foldl_cons, List.foldl_nil]
  unfold helperLine
  simp only [String.toList_ofList, stripLabel_append, hdifferent]

/-- The lines name the fields, as long as no field has a line feed. -/
theorem twoLines_inj {fields' : Credentials} (huser : '\n' ∉ fields.username.toList)
    (hpass : '\n' ∉ fields.password.toList) (h : fields.twoLines = fields'.twoLines) :
    fields = fields' := by
  have htext := congrArg String.toList h
  rw [toList_twoLines, toList_twoLines] at htext
  obtain ⟨hfirst, hsecond⟩ := eq_of_two_lines (by simp [huser]) (by simp [hpass]) htext
  have husername := String.toList_inj.mp (List.append_cancel_left hfirst)
  have hpassword := String.toList_inj.mp (List.append_cancel_left hsecond)
  cases fields
  cases fields'
  simp_all

/-- The helper answers with the fields if and only if a line of its own keeps each of them. -/
theorem helperFields_twoLines_iff : (helperFields fields.twoLines).twoLines = fields.twoLines ↔
    OnOneLine fields.username ∧ OnOneLine fields.password := by
  constructor
  · intro h
    obtain ⟨huser, hpass⟩ := helperFields_single fields.twoLines
    have hsame := twoLines_inj huser hpass h
    rw [hsame] at huser hpass
    rw [helperFields_twoLines huser hpass] at hsame
    have husername := congrArg (fun read => read.username.toList) hsame
    have hpassword := congrArg (fun read => read.password.toList) hsame
    simp only [String.toList_ofList] at husername hpassword
    exact ⟨⟨huser, readLine_eq_self.mp husername⟩, hpass, readLine_eq_self.mp hpassword⟩
  · rintro ⟨⟨huser, huser'⟩, hpass, hpass'⟩
    rw [helperFields_twoLines huser hpass, readLine_eq_self.mpr huser',
      readLine_eq_self.mpr hpass', String.ofList_toList, String.ofList_toList]

end

/-- What is staged is the two lines of the fields, readable by their owner alone. -/
theorem prepareSecretFile_ok {home : RunHome} {uuid : String} {credentials : Credentials}
    {file : SecretFile} (h : prepareSecretFile home uuid credentials = .ok file) :
    file.text = credentials.twoLines ∧ file.mode = 0o600 := by
  obtain ⟨path, created, mode, written, restricted⟩ := home
  unfold prepareSecretFile at h
  rcases created with source | _
  · exact nomatch h
  rcases mode with source | dirMode
  · exact nomatch h
  by_cases hopen : dirMode &&& 0o077 ≠ 0
  · simp only [Except.mapError, bind, Except.bind, if_pos hopen] at h
    exact nomatch h
  simp only [Except.mapError, bind, Except.bind, if_neg hopen] at h
  rcases written with source | _
  · exact nomatch h
  rcases restricted with source | _
  · exact nomatch h
  rw [← Except.ok.inj h]
  exact ⟨rfl, rfl⟩

/-- The helper answers with the fields of the text it reads. -/
theorem gitCredentialHelper_of_disk {path text : String} {disk : String → Option Bytes}
    (h : disk path = some (asBytes text)) :
    gitCredentialHelper (some path) true disk = .ok (helperFields text).twoLines := by
  unfold gitCredentialHelper
  simp only [h, Option.bind_some, fromUtf8_asBytes]
  rfl

/-- The helper hands over what was staged if and only if neither field ends a line. -/
theorem gitCredentialHelper_iff {home : RunHome} {uuid : String} {credentials : Credentials}
    {file : SecretFile} {disk : String → Option Bytes}
    (hstaged : prepareSecretFile home uuid credentials = .ok file)
    (hdisk : disk file.path = some (asBytes file.text)) :
    gitCredentialHelper (some file.path) true disk = .ok credentials.twoLines ↔
      OnOneLine credentials.username ∧ OnOneLine credentials.password := by
  have htext := (prepareSecretFile_ok hstaged).1
  rw [gitCredentialHelper_of_disk hdisk, htext, Except.ok.injEq]
  exact helperFields_twoLines_iff

namespace Credentials.Sample

/-- A run directory of its owner alone, on which every call succeeds. -/
def home : RunHome :=
  { path := "/run"
    created := .ok ()
    mode := .ok 0o700
    written := .ok ()
    restricted := .ok () }

def staged (credentials : Credentials) : SecretFile :=
  { path := "/run/cred-0.secret", mode := 0o600, text := credentials.twoLines }

def disk (credentials : Credentials) (_path : String) : Option Bytes :=
  some (asBytes credentials.twoLines)

theorem prepareSecretFile_home (credentials : Credentials) :
    prepareSecretFile home "0" credentials = .ok (staged credentials) := by
  unfold prepareSecretFile
  rfl

def plain : Credentials := { username := "bob", password := "x" }

/-- A password with a second line that looks like a user name. -/
def injected : Credentials := { username := "bob", password := "x\nusername=eve" }

end Credentials.Sample

open Credentials.Sample in
theorem gitCredentialHelper_iff_plain :
    gitCredentialHelper (some (staged plain).path) true (disk plain) = .ok plain.twoLines :=
  (gitCredentialHelper_iff (prepareSecretFile_home plain) rfl).mpr (by decide)

open Credentials.Sample in
theorem gitCredentialHelper_injected :
    prepareSecretFile home "0" injected = .ok (staged injected) ∧
      gitCredentialHelper (some (staged injected).path) true (disk injected) =
        .ok "username=eve\npassword=x\n" ∧
      "username=eve\npassword=x\n" ≠ injected.twoLines := by
  refine ⟨prepareSecretFile_home injected, ?_, by decide⟩
  rw [gitCredentialHelper_of_disk rfl]
  decide

end RatatoskrVault
