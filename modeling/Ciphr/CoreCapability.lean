/-!
`ciphr-core/src/capability.rs`: what an identity may do.
-/

namespace Ciphr

inductive Capability where
  | read
  | write
  | delete
  | list
  | undelete
  | inspect
  | revoke
  deriving DecidableEq, Repr

inductive CapabilityError where
  | unknown (found : String)
  deriving DecidableEq, Repr

namespace Capability

def all : List Capability := [.read, .write, .delete, .list, .undelete, .inspect, .revoke]

def asStr : Capability → String
  | .read => "read"
  | .write => "write"
  | .delete => "delete"
  | .list => "list"
  | .undelete => "undelete"
  | .inspect => "inspect"
  | .revoke => "revoke"

def isControlPlane : Capability → Bool
  | .inspect | .revoke => true
  | _ => false

def parse (input : String) : Except CapabilityError Capability :=
  match all.find? fun capability => capability.asStr == input with
  | some capability => .ok capability
  | none => .error (.unknown input)

end Capability

end Ciphr
