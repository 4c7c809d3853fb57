import KCarrier.State
import KCarrier.Text

/-!
# KCarrier.Protocol

Requests to a runner and its responses, after parsing.
-/

namespace KCarrier

structure Expected where
  id : String
  targetVersion : String
deriving DecidableEq, Repr

inductive Request where
  | upgrade (protocolVersion : Nat) (id targetVersion : String) (consented : Bool)
  | recover (protocolVersion : Nat) (expected : Option Expected)
  | status (protocolVersion : Nat)
deriving DecidableEq, Repr

/-- A nonempty text without surrounding white space, of at most 256 UTF-16 units. -/
def text (value : String) : Bool :=
  value != "" && trim value == value && decide (utf16Length value ≤ 256)

namespace Request

def action : Request → String
  | .upgrade _ _ _ _ => "upgrade"
  | .recover _ _ => "recover"
  | .status _ => "status"

def protocolVersion : Request → Nat
  | .upgrade version _ _ _ => version
  | .recover version _ => version
  | .status version => version

def isUpgrade : Request → Bool
  | .upgrade _ _ _ _ => true
  | _ => false

def isStatus : Request → Bool
  | .status _ => true
  | _ => false

/-- The operation the request names. -/
def expected : Request → Option Expected
  | .upgrade _ id targetVersion _ => some ⟨id, targetVersion⟩
  | .recover _ expected => expected
  | .status _ => none

def validate (request : Request) : Except Error Unit :=
  if request.protocolVersion ≠ 1 then
    .error (.invalid "RUNNER_PROTOCOL_UNSUPPORTED")
  else if request.expected.any fun e => !text e.id || !text e.targetVersion then
    .error (.invalid "RUNNER_PROTOCOL_INVALID: invalid identity")
  else
    .ok ()

theorem validate_upgrade {id targetVersion : String} {consented : Bool} (hid : text id = true)
    (htarget : text targetVersion = true) :
    (Request.upgrade 1 id targetVersion consented).validate = .ok () := by
  simp [validate, protocolVersion, expected, hid, htarget]

theorem validate_recover {e : Expected} (hid : text e.id = true)
    (htarget : text e.targetVersion = true) :
    (Request.recover 1 (some e)).validate = .ok () := by
  simp [validate, protocolVersion, expected, hid, htarget]

end Request

structure Response where
  protocolVersion : Nat
  action : String
  exitCode : Nat
  result : String
  operation : OperationRead
  error : Option String
deriving DecidableEq, Repr

end KCarrier
