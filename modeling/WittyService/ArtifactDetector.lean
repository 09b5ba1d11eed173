import WittyService.BackportRows
import WittyService.TurnEvents

/-! `artifact_detector`: the events of the artifacts that the `write` tool makes. -/
namespace WittyService

structure ArtifactSpec where
  type : String
  mime : String
  inlineable : Bool

/-- What `detect_artifact` tells of a path. -/
structure DetectedArtifact where
  name : PyStr
  relativePath : PyStr
  spec : ArtifactSpec

namespace ArtifactDetector

def CODE_MIME_BY_EXTENSION : List (String × String) :=
  [(".py", "text/x-python"), (".ts", "text/typescript"), (".tsx", "text/typescript-tsx"),
    (".jsx", "text/jsx"), (".go", "text/x-go"), (".rs", "text/rust"),
    (".java", "text/x-java-source"), (".c", "text/x-c"), (".h", "text/x-c-header"),
    (".cc", "text/x-c++"), (".cpp", "text/x-c++"), (".hpp", "text/x-c++-header"),
    (".cxx", "text/x-c++"), (".cs", "text/x-csharp"), (".rb", "text/x-ruby"),
    (".php", "text/x-php"), (".swift", "text/x-swift"), (".kt", "text/x-kotlin"),
    (".kts", "text/x-kotlin"), (".scala", "text/x-scala"), (".sh", "text/x-shellscript"),
    (".sql", "text/x-sql"), (".vue", "text/x-vue"), (".svelte", "text/x-svelte"),
    (".lua", "text/x-lua"), (".dart", "text/x-dart"), (".jl", "text/x-julia"),
    (".pl", "text/x-perl"), (".ex", "text/x-elixir"), (".exs", "text/x-elixir"),
    (".hs", "text/x-haskell"), (".clj", "text/x-clojure"), (".groovy", "text/x-groovy")]

def RICH_ARTIFACT_BY_EXTENSION : List (String × ArtifactSpec) :=
  [(".html", ⟨"html", "text/html", true⟩), (".png", ⟨"image", "image/png", false⟩),
    (".jpg", ⟨"image", "image/jpeg", false⟩), (".jpeg", ⟨"image", "image/jpeg", false⟩),
    (".gif", ⟨"image", "image/gif", false⟩), (".webp", ⟨"image", "image/webp", false⟩),
    (".mp4", ⟨"video", "video/mp4", false⟩), (".webm", ⟨"video", "video/webm", false⟩),
    (".md", ⟨"markdown", "text/markdown", true⟩), (".js", ⟨"code", "text/javascript", true⟩),
    (".css", ⟨"code", "text/css", true⟩), (".json", ⟨"code", "application/json", true⟩),
    (".csv", ⟨"code", "text/csv", true⟩), (".pdf", ⟨"pdf", "application/pdf", false⟩)]

def ARTIFACT_SPEC : List (String × ArtifactSpec) :=
  CODE_MIME_BY_EXTENSION.map (fun spec => (spec.1, ⟨"code", spec.2, true⟩)) ++
    RICH_ARTIFACT_BY_EXTENSION

def INLINE_CONTENT_LIMIT : ℕ := 512 * 1024

def SENSITIVE_FILE_PATTERNS : List String :=
  [".env", ".env.*", ".netrc", ".git-credentials", ".npmrc", ".pypirc", ".dockerconfigjson",
    "kubeconfig", "*.kubeconfig", "*.pem", "*.key", "*.p12", "*.pfx", "*.jks", "*.keystore",
    "id_rsa", "id_ed25519", "id_ed25519_sk", "id_ecdsa", "id_dsa", "*credential*",
    "*credentials*", "*secret*", "*secrets*", "*.secret"]

/-- `normalize_relative_path`, as the parts of the path and whether it is absolute. -/
def normalizeRelativePath (pathValue : Option Json) : Option (Bool × List PyStr) :=
  match textOf pathValue with
  | none => none
  | some text =>
    let path := (PyStr.strip text.toList).map fun c => if c = '\\' then '/' else c
    let parts := (path.splitOn '/').filter fun part => part ≠ [] ∧ part ≠ ['.']
    if parts = [] ∨ ['.', '.'] ∈ parts then none else some (path.head? = some '/', parts)

/-- `suffix` of a path that has the name. -/
def nameSuffix (name : PyStr) : PyStr :=
  let ending := name.rtakeWhile (· ≠ '.')
  if ending ≠ [] ∧ ending.length + 1 < name.length then '.' :: ending else []

def detectArtifact (pathValue : Option Json) : Option DetectedArtifact :=
  (normalizeRelativePath pathValue).bind fun (isAbsolute, parts) =>
    let name := parts.getLastD []
    (ARTIFACT_SPEC.lookup (String.ofList (PyStr.lower (nameSuffix name)))).map fun spec =>
      { name
        relativePath := (if isAbsolute then ['/'] else []) ++ ['/'].intercalate parts
        spec }

/-- `fnmatch.fnmatch` of a pattern in which only `*` is special. -/
def fnmatch : PyStr → PyStr → Bool
  | [], name => name = []
  | c :: pattern, name =>
    if c = '*' then name.tails.any (fnmatch pattern)
    else match name with
      | [] => false
      | first :: rest => c = first && fnmatch pattern rest

/-- `is_sensitive_file`, by the name of the file. -/
def isSensitiveFile (name : PyStr) : Bool :=
  SENSITIVE_FILE_PATTERNS.any fun pattern => fnmatch pattern.toList name

def pickWritePath (args : Dict) : Option Json :=
  ["file_path", "filePath", "path", "file", "relative_path"].findSome? (Dict.get args)

def pickWriteContent (args : Dict) : Option Json :=
  ["content", "text", "data"].findSome? (Dict.get args)

def inlineContent (artifact : DetectedArtifact) (content : Option String) : Option String :=
  content.filter fun text => artifact.spec.inlineable && text.utf8ByteSize ≤ INLINE_CONTENT_LIMIT &&
    !isSensitiveFile artifact.name

def buildArtifactEvent (args : Dict) (status : String) (inline : Bool) : Option Dict :=
  (detectArtifact (pickWritePath args)).map fun artifact =>
    let content := textOf (pickWriteContent args)
    [("id", .str (String.ofList artifact.relativePath)),
      ("name", .str (String.ofList artifact.name)), ("type", .str artifact.spec.type),
      ("status", .str status), ("version", .num 1 0),
      ("relative_path", .str (String.ofList artifact.relativePath)),
      ("size", (content.map fun text => Json.num text.utf8ByteSize 0).getD .null),
      ("mime", .str artifact.spec.mime)] ++
      (((inlineContent artifact content).filter fun _ => inline && status = "ready").map fun text =>
        ("content", Json.str text)).toList

def extractWriteArguments (loads : String → Option Json) : Json → Dict
  | .str text => if text = "" then [] else ((loads text).map Json.asDict).getD []
  | .obj fields => fields
  | _ => []

def parts (loads : String → Option Json) : ArtifactParts where
  extractWriteArguments := extractWriteArguments loads
  artifactStarted args := buildArtifactEvent args "creating" false
  artifactCompleted args isError :=
    buildArtifactEvent args (if isError then "error" else "ready") (!isError)

def writtenPath (args : Dict) : Option String :=
  (detectArtifact (pickWritePath args)).map fun artifact => String.ofList artifact.relativePath

end ArtifactDetector

def artifactPath (payload : Dict) : Option String := textOf (Dict.get payload "relative_path")

namespace ArtifactDetector

theorem buildArtifactEvent_eq_none_iff (args : Dict) (status : String) (inline : Bool) :
    buildArtifactEvent args status inline = none ↔ writtenPath args = none := by
  unfold buildArtifactEvent writtenPath
  rw [Option.map_eq_none_iff, Option.map_eq_none_iff]

theorem artifactPath_of_build {args payload : Dict} {status : String} {inline : Bool}
    (h : buildArtifactEvent args status inline = some payload) :
    artifactPath payload = writtenPath args ∧ (writtenPath args).isSome := by
  unfold writtenPath artifactPath
  obtain ⟨artifact, hartifact, rfl⟩ := Option.map_eq_some_iff.mp h
  rw [hartifact]
  refine ⟨?_, rfl⟩
  dsimp only
  cases (inlineContent artifact (textOf (pickWriteContent args))).filter
    fun _ => inline && status = "ready" with
  | none => rfl
  | some text => rfl

end ArtifactDetector

end WittyService
