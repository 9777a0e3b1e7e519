import Ciphr.CorePath
import Ciphr.CoreCapability

/-!
`ciphr-audit/src/entry.rs`: what an audit record says.
-/

namespace Ciphr

inductive Action where
  | read
  | write
  | delete
  | list
  | undelete
  | init
  | rotateMasterKey
  | destroy
  | issueToken
  | federateToken
  | revokeToken
  | classify
  | auditDeviceFailed
  | requestRefused
  | surfaceActive
  | honeypotTriggered
  | honeypotMarked
  | honeypotCleared
  deriving DecidableEq, Repr

def Action.asStr : Action → String
  | .read => "read"
  | .write => "write"
  | .delete => "delete"
  | .list => "list"
  | .undelete => "undelete"
  | .init => "init"
  | .rotateMasterKey => "rotate-master-key"
  | .destroy => "destroy"
  | .classify => "classify"
  | .issueToken => "issue-token"
  | .federateToken => "federate-token"
  | .revokeToken => "revoke-token"
  | .auditDeviceFailed => "audit-device-failed"
  | .requestRefused => "request-refused"
  | .surfaceActive => "surface-active"
  | .honeypotTriggered => "honeypot-triggered"
  | .honeypotMarked => "honeypot-marked"
  | .honeypotCleared => "honeypot-cleared"

structure Principal where
  name : String
  kind : Option String
  tokenId : Option String
  deriving DecidableEq, Repr

def Principal.named (name : String) : Principal := ⟨name, none, none⟩

structure DecidingRule where
  policy : String
  pattern : String
  deriving DecidableEq, Repr

structure RequestContext where
  requestId : Option String
  clientIp : Option String
  userAgent : Option String
  httpStatus : Option Nat
  channel : Option String
  deriving DecidableEq, Repr, Inhabited

structure Entry where
  principal : Option Principal
  subject : Option Principal
  action : Action
  path : Option String
  version : Option Nat
  allowed : Bool
  denyReason : Option String
  rule : Option DecidingRule
  results : Option Nat
  detail : Option String
  request : RequestContext
  deriving DecidableEq, Repr

namespace Entry

def permitted (action : Action) : Entry where
  principal := none
  subject := none
  action := action
  path := none
  version := none
  allowed := true
  denyReason := none
  rule := none
  results := none
  detail := none
  request := default

def denied (action : Action) (reason : String) : Entry :=
  { permitted action with allowed := false, denyReason := some reason }

def withDetail (entry : Entry) (detail : String) : Entry := { entry with detail := some detail }

def withPrincipal (entry : Entry) (principal : Principal) : Entry :=
  { entry with principal := some principal }

def withSubject (entry : Entry) (subject : Principal) : Entry :=
  { entry with subject := some subject }

def withPath {u : Unicode} (entry : Entry) (path : SecretPath u) : Entry :=
  { entry with path := some path.text }

def withVersion (entry : Entry) (version : Nat) : Entry := { entry with version := some version }

/-- `u32::try_from(count).unwrap_or(u32::MAX)`. -/
def withResults (entry : Entry) (count : Nat) : Entry :=
  { entry with results := some (min count (2 ^ 32 - 1)) }

def withRule (entry : Entry) (policy pattern : String) : Entry :=
  { entry with rule := some ⟨policy, pattern⟩ }

def withRequest (entry : Entry) (request : RequestContext) : Entry :=
  { entry with request := request }

end Entry

end Ciphr
