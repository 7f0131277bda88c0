import A3sBench.AclSchema
import A3sBench.TaskSnapshot
import A3sBench.Text

/-!
# Asset packages

A Candidate or a Judge is a directory with `.a3s/asset.acl`. Loading one hashes
its tree for the identity and reads the protocol and the paths off the document.
-/

namespace A3sBench.Asset

open Library

inductive CandidateProtocol where
  | agentTool
  | a3sCodeExec
  | codexExec
  deriving DecidableEq

/-- A loaded package; the tree stands for its root. -/
structure LocalAssetPackage where
  root : Directory
  entrypoint : String
  definitionPath : Option String
  identity : String
  protocol : CandidateProtocol
  deriving DecidableEq

/-- The components of a relative path that `Path::components` yields; `none`
when one of them is not a normal component. -/
def normalComponents (path : String) : Option (List FileName) :=
  let parts := path.toList.splitOn '/'
  let kept := parts.tail.filter (fun part => part ≠ [] ∧ part ≠ ['.'])
  let names := (parts.head?.toList ++ kept).map utf8Chars
  if path.toList.head? = some '/' then none
  else
    names.mapM (fun name =>
      if h : (name ≠ [] ∧ 0 ∉ name ∧ separator ∉ name) ∧ name ≠ [46] ∧ name ≠ [46, 46] then
        some ⟨name, h.1⟩
      else none)

def validatePackagePath (path field : String) : Result (List FileName) := do
  ensure (path ≠ "") (field ++ " must not be empty")
  okOr (normalComponents path) (field ++ " must be a normalized package-relative path")

def scalars : List String :=
  ["version", "category", "kind", "name", "description", "service", "created_by"]

def structured : List String := ["source", "metadata", "runtime", "capability"]

/-- The attributes and labels of a structured block. -/
def blockSchema (name : String) : Acl.BlockSchema :=
  if name = "source" then
    { attributes := ["package_path", "entrypoint", "definition_path"], children := []
      labels := .none }
  else if name = "metadata" then
    { attributes := ["asset_acl_path"], children := [], labels := .none }
  else if name = "runtime" then
    { attributes := ["kind", "isolation", "runtime_kind", "protocol", "agent_kind"], children := []
      labels := .none }
  else
    { attributes := ["input_schema", "output_schema", "network", "model_gateway"], children := []
      labels := .exactly 1 }

def validateAssetSchema (document : Acl.Document) : Result Unit := do
  document.blocks.forM (fun block => do
    ensure (block.name ∈ scalars ∨ block.name ∈ structured)
      ("Asset package contains unknown top-level field or block " ++ block.name.quote)
    if block.name ∈ scalars then Acl.validateScalarBlock block
    else
      Acl.validateBlock block ("Asset package " ++ block.name) (blockSchema block.name))
  (scalars ++ ["source", "metadata", "runtime"]).forM (fun name =>
    ensure ((document.blocks.filter (fun block => block.name = name)).length ≤ 1)
      ("Asset package contains duplicate " ++ name))

def requireTop (document : Acl.Document) (key expected : String) : Result Unit :=
  match document.blocks.filter (fun block => block.name = key) with
  | [block] => ensure ((block.get key).bind Acl.Value.asStr = some expected)
      ("Asset package " ++ key ++ " must be " ++ expected.quote)
  | _ => .error ("Asset package must define " ++ key ++ " exactly once")

def uniqueTopBlock (document : Acl.Document) (name : String) : Result Acl.Block :=
  match document.blocks.filter (fun block => block.name = name) with
  | [block] => .ok block
  | _ => .error ("Asset package must contain exactly one " ++ name ++ " block")

def parseProtocol (value : String) : Result CandidateProtocol :=
  if value = "agent-tool" then .ok .agentTool
  else if value = "a3s-code-exec" then .ok .a3sCodeExec
  else if value = "codex-exec" then .ok .codexExec
  else .error ("unsupported Candidate runtime protocol " ++ value.quote)

/-- The manifest `.a3s/asset.acl`. -/
def manifestPath : Path := [⟨[46, 97, 51, 115], by decide⟩,
  ⟨[97, 115, 115, 101, 116, 46, 97, 99, 108], by decide⟩]

/-- The part of a text before the first `':'`. -/
def beforeColon (text : String) : String := String.ofList (text.toList.takeWhile (· ≠ ':'))

/-- `source.definition_path`, when the block has one. -/
def sourceDefinitionPath (source : Acl.Block) : Result (Option String) :=
  match source.get "definition_path" with
  | none => .ok none
  | some value => some <$> okOr value.asStr "source.definition_path must be a string"

/-- A path of the document names a file of the package. -/
def requireFile (root : Directory) (path field missing : String) : Result Unit := do
  let components ← validatePackagePath path field
  ensure ((root.fileAt components).isSome = true) (missing ++ path)

def requireDefinition (root : Directory) : Option String → Result Unit
  | none => .ok ()
  | some path =>
    requireFile root path "source.definition_path" "Asset package definition is missing: "

/-- `load_directory`, with the parser of the document given. -/
def loadDirectory (parse : Bytes → Result Acl.Document) (root : Directory) (identity : String) :
    Result LocalAssetPackage := do
  let (_, source) ← okOr (root.fileAt manifestPath) "could not read .a3s/asset.acl"
  let document ← context "invalid .a3s/asset.acl" (parse source)
  validateAssetSchema document
  requireTop document "version" "a3s.asset.v1"
  requireTop document "category" "agent"
  let source ← uniqueTopBlock document "source"
  let entrypoint ← okOr ((source.get "entrypoint").bind Acl.Value.asStr)
    "source.entrypoint must be a string"
  requireFile root (beforeColon entrypoint) "source.entrypoint"
    "Asset package entrypoint is missing: "
  let definitionPath ← sourceDefinitionPath source
  let runtime := document.blocks.find? (fun block => block.name = "runtime")
  let protocol ← parseProtocol
    (((runtime.bind (fun block => block.get "protocol")).bind Acl.Value.asStr).getD "agent-tool")
  requireDefinition root definitionPath
  ensure (protocol = .agentTool ∨ definitionPath.isSome = true)
    "native product Candidate adapter must define source.definition_path"
  pure
    { root := root, entrypoint := entrypoint, definitionPath := definitionPath
      identity := identity, protocol := protocol }

/-- `tree_identity`: the stream of `tree_digest`, without the checks of `collect`. -/
def treeIdentity (os : Platform) (root : Directory) : Result String := do
  root.walk.forM (fun e => do
    ensure (e.2 ≠ .symlink) "Asset package must not contain symlinks"
    ensure (e.2 ≠ .special) "Asset package contains a special file")
  let stream := FieldRecord.encode 0 (root.snapshot.map (fun r =>
    TaskSnapshot.fieldsOf (os.toStringLossy (pathBytes r.path)) r.executable r.content))
  pure ("sha256:" ++ os.sha256 stream)

/-- `asset::load_local`, on the directory found at the path. -/
def loadLocal (os : Platform) (parse : Bytes → Result Acl.Document) (reference : Option Directory) :
    Result LocalAssetPackage := do
  let root ← okOr reference "Asset package does not exist"
  let identity ← treeIdentity os root
  loadDirectory parse root identity

def modelInstructionsPath (asset : LocalAssetPackage) : Result String :=
  okOr asset.definitionPath
    "model-backed Candidate adapter must define source.definition_path"

/-- `str::parse::<usize>`. -/
def parseUsize (text : String) : Result Nat := do
  let digits := match text.toList with
    | '+' :: digits => digits
    | digits => digits
  ensure (text ≠ "") "cannot parse integer from empty string"
  ensure (digits ≠ [] ∧ digits.all Char.isDigit = true) "invalid digit found in string"
  let value : Nat := digits.foldl (fun n c => 10 * n + (c.toNat - 48)) 0
  ensure (value < 2 ^ 64) "number too large to fit in target type"
  pure value

/-- The lines of the frontmatter up to its end, with the value found so far. -/
def maxStepsIn : Option Nat → List String → Result (Option Nat)
  | _, [] => .error "model Candidate frontmatter is not closed"
  | value, line :: lines =>
    if Text.trim line = "---" then .ok value
    else
      match Text.stripPrefix "max_steps:" (Text.trim line) with
      | none => maxStepsIn value lines
      | some raw => do
        ensure (value = none) "model Candidate max_steps is duplicated"
        let parsed ← parseUsize (Text.trim (String.ofList raw))
        ensure (1 ≤ parsed) "model Candidate max_steps must be >= 1"
        maxStepsIn (some parsed) lines

/-- `LocalAssetPackage::model_max_steps`. -/
def modelMaxSteps (asset : LocalAssetPackage) : Result Nat := do
  let path ← modelInstructionsPath asset
  let components ← okOr (normalComponents path) "No such file or directory (os error 2)"
  let (_, content) ← okOr (asset.root.fileAt components) "No such file or directory (os error 2)"
  let definition ← okOr (decodeUtf8 content) "stream did not contain valid UTF-8"
  match Text.lines definition with
  | [] => .error "model Candidate definition must start with frontmatter"
  | first :: lines =>
    ensure (Text.trim first = "---") "model Candidate definition must start with frontmatter"
    let value ← maxStepsIn none lines
    pure (value.getD (2 ^ 64 - 1))

theorem identity_of_loadDirectory {parse : Bytes → Result Acl.Document} {root : Directory}
    {identity : String} {asset : LocalAssetPackage}
    (h : loadDirectory parse root identity = .ok asset) : asset.identity = identity := by
  unfold loadDirectory at h
  -- only the last of the statements builds a package
  iterate 12 obtain ⟨_, _, h⟩ := Result.bind_ok_iff.mp h
  rw [← Result.pure_ok_iff.mp h]

/-- The identity of a loaded package is a digest of its tree. -/
theorem identity_of_loadLocal {os : Platform} {parse : Bytes → Result Acl.Document}
    {reference : Option Directory} {asset : LocalAssetPackage}
    (h : loadLocal os parse reference = .ok asset) :
    ∃ stream, asset.identity = "sha256:" ++ os.sha256 stream := by
  obtain ⟨root, _, h⟩ := Result.bind_ok_iff.mp h
  obtain ⟨identity, hidentity, h⟩ := Result.bind_ok_iff.mp h
  obtain ⟨_, _, hstream⟩ := Result.bind_ok_iff.mp hidentity
  exact ⟨_, (identity_of_loadDirectory h).trans (Except.ok.inj hstream).symm⟩

end A3sBench.Asset
