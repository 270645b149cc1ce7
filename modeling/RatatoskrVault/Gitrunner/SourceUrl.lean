import RatatoskrVault.Gitrunner.Runner

/-! The URLs that Git may be given, and the environment in which it runs: the transports that the
one accepts and the other allows. -/
namespace RatatoskrVault

/-- `str::split_once` of a text with another. -/
def splitOnce (pattern : List Char) : List Char → Option (List Char × List Char)
  | [] => if pattern = [] then some ([], []) else none
  | c :: rest =>
    if pattern <+: c :: rest then some ([], (c :: rest).drop pattern.length)
    else (splitOnce pattern rest).map fun (before, after) => (c :: before, after)

/-- `str::to_ascii_lowercase`. -/
def toAsciiLowercase (text : List Char) : List Char := text.map Char.toLower

def allowedSchemes : List String := ["https", "file"]

/-- A source location, as it is passed to Git. -/
structure SourceUrl where
  text : String
  deriving DecidableEq

namespace SourceUrl

/-- `SourceUrl::parse`, with the reason of an `InvalidSourceUrl`. -/
def parse (raw : String) : Except String SourceUrl :=
  if raw.toList.head? = some '-' then
    .error "URL begins with `-` and could be parsed as a Git option"
  else
    match splitOnce "://".toList raw.toList with
    | none => .error "URL carries no `scheme://` transport"
    | some (scheme, _rest) =>
      let scheme := String.ofList (toAsciiLowercase scheme)
      if scheme ∉ allowedSchemes then
        .error ("transport `" ++ scheme ++
          "` is outside the allowed set [\"https\", \"file\"]")
      else .ok { text := raw }

/-- The scheme as it is written. -/
def isFile (url : SourceUrl) : Bool := "file://".toList.isPrefixOf url.text.toList

/-- The transport that a URL names; its case does not matter. -/
def transport (url : SourceUrl) : Option String :=
  (splitOnce "://".toList url.text.toList).map fun (scheme, _rest) =>
    String.ofList (toAsciiLowercase scheme)

end SourceUrl

/-- Git runs the transports that the colon-separated list names, and no others. -/
def allowsTransport (environment : List (String × String)) (transport : String) : Prop :=
  match environment.lookup "GIT_ALLOW_PROTOCOL" with
  | none => True
  | some value => transport.toList ∈ value.toList.splitOn ':'

section

variable {raw gitDir home : String} {url : SourceUrl}

/-- Git may run the transport of the URL, and the URL is a file if and only if that is its
transport. -/
def SourceUrl.Agrees (url : SourceUrl) (environment : List (String × String)) : Prop :=
  ∃ transport, url.transport = some transport ∧ allowsTransport environment transport ∧
    (url.isFile = true ↔ transport = "file")

end

end RatatoskrVault
