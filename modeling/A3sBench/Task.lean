import A3sBench.Float64

/-!
# Tasks

The part of a loaded Task that the locks and the runs read.
-/

namespace A3sBench

structure RoleResources where
  cpuLimit : UInt64
  memoryBytes : UInt64
  deriving DecidableEq

structure TaskResources where
  work : RoleResources
  judge : RoleResources
  deriving DecidableEq

structure WorkWorkspaceImport where
  name : String
  sourcePath : String
  targetPath : String
  deriving DecidableEq

structure MetricInfo where
  name : String
  min : F64
  max : F64
  role : String
  deriving DecidableEq

structure WorkspaceSeed where
  image : String
  sourcePath : String
  platform : Option String
  deriving DecidableEq

structure SubmissionPolicy where
  includePatterns : List String
  excludePatterns : List String
  maxFiles : Nat
  maxTotalBytes : UInt64
  maxFileBytes : UInt64
  deriving DecidableEq

structure LegacyJudgeSource where
  image : String
  platform : Option String
  mode : String
  requiresModelGateway : Bool
  deriving DecidableEq

structure TaskInfo where
  schema : String
  id : String
  judgeAsset : String
  workImage : String
  workPlatform : Option String
  workNetworkNeed : String
  workNetworkAllowHosts : List String
  candidateTimeoutSec : UInt64
  metrics : List MetricInfo
  workspaceSeed : Option WorkspaceSeed
  submission : SubmissionPolicy
  resources : TaskResources
  workWorkspaceImports : List WorkWorkspaceImport
  legacyJudge : Option LegacyJudgeSource
  deriving DecidableEq

end A3sBench
