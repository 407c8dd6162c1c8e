import Masonwing.Contracts.Wire
import Masonwing.Lib.Outcome

/-!
# Failures, actors and versions

The part of `crates/kernel/src/runtime.rs` that every handler uses: how a command fails,
who acts, and optimistic versions. A `Version` is a positive 32-bit integer, as the
`CHECK (version > 0)` of every versioned table has it, so the successor of the largest one
does not exist and an update that needs it fails.
-/

namespace Masonwing

open Outcome

inductive FailureKind where
  | invalid
  | notFound
  | denied
  | conflict
  | precondition
  | unavailable
  | exhausted
  | expired
  deriving DecidableEq

structure CommandFailure where
  code : String
  kind : FailureKind
  integrityReference : Option ArtifactRef := none
  deriving DecidableEq

namespace CommandFailure

def invalid (code : String) : CommandFailure := { code, kind := .invalid }
def notFound : CommandFailure := { code := "RESOURCE_NOT_FOUND", kind := .notFound }
def denied (code : String) : CommandFailure := { code, kind := .denied }
def conflict (code : String) : CommandFailure := { code, kind := .conflict }
def precondition (code : String) : CommandFailure := { code, kind := .precondition }
def unavailable (code : String) : CommandFailure := { code, kind := .unavailable }
def artifactIntegrity (reference : ArtifactRef) : CommandFailure :=
  { code := "ARTIFACT_INTEGRITY", kind := .precondition, integrityReference := some reference }

end CommandFailure

/-- What a transaction returns. -/
abbrev Result (α : Type) := Except CommandFailure α

/-- `parse_uuid`. -/
def parseUuid (s : String) : Result Uuid := okOr (Uuid.parse s) .notFound

@[simp] theorem parseUuid_toText (u : Uuid) : parseUuid u.toText = .ok u := by
  simp [parseUuid]

structure CommandActor where
  tenantId : OpaqueId
  principalId : OpaqueId
  issuer : String
  membershipEpoch : Int
  permissionEpoch : Int
  policyVersion : String
  policyEpoch : Int
  deriving DecidableEq

/-! ## Versions -/

def maxI32 : Int := 2147483647
def maxI64 : Int := 9223372036854775807

/-- The largest amount a budget column accepts. -/
def maxMicrounits : Int := 9007199254740991

structure Version where
  val : Int
  pos : 0 < val
  le : val ≤ maxI32
  deriving DecidableEq

namespace Version

def one : Version := ⟨1, by decide, by decide⟩

theorem two_pos : (0 : Int) < 2 := by decide

theorem two_le : (2 : Int) ≤ maxI32 := by decide

/-- `checked_add(1)`. -/
def next? (v : Version) : Option Version :=
  if h : v.val < maxI32 then some ⟨v.val + 1, by have := v.pos; omega, by omega⟩ else none

theorem next?_eq_some {v w : Version} (h : v.next? = some w) : w.val = v.val + 1 := by
  unfold next? at h
  split at h
  · cases h
    rfl
  · cases h

theorem exists_next?_iff {v : Version} : (∃ w, v.next? = some w) ↔ v.val < maxI32 := by
  unfold next?
  split <;> simp_all

theorem next?_ne_self {v w : Version} (h : v.next? = some w) : w ≠ v := by
  rintro rfl
  have := next?_eq_some h
  omega

/-- `version + 1` on a row: past the largest version the statement is refused. -/
def bump (v : Version) : Result Version := okOr v.next? (.invalid "CONSTRAINT_INVALID")

end Version

/-- `require_expected_version`: the next version of a row, if the caller saw the current one. -/
def requireExpectedVersion (actual : Version) (expected : Int) : Result Version := do
  require (actual.val = expected) (.conflict "STALE_VERSION")
  okOr actual.next? (.precondition "VERSION_EXHAUSTED")

theorem requireExpectedVersion_eq_ok {actual next : Version} {expected : Int} :
    requireExpectedVersion actual expected = .ok next ↔
      actual.val = expected ∧ actual.next? = some next := by
  simp only [requireExpectedVersion, bind_eq_ok, require_eq_ok, okOr_eq_ok, exists_const]

/-- The guard never calls a version stale that the caller read from the row itself. -/
theorem requireExpectedVersion_self_ne_stale (actual : Version) :
    requireExpectedVersion actual actual.val ≠ .error (.conflict "STALE_VERSION") := by
  intro h
  rw [requireExpectedVersion, bind_eq_error] at h
  rcases h with h | ⟨_, _, h⟩
  · exact (require_eq_error.mp h).1 rfl
  · have hCode := (okOr_eq_error.mp h).2
    exact absurd hCode (by decide)

/-- The characters that `str::trim` removes. -/
def whiteSpace (c : Char) : Bool :=
  let n := c.toNat
  (9 ≤ n && n ≤ 13) || n == 0x20 || n == 0x85 || n == 0xA0 || n == 0x1680 ||
    (0x2000 ≤ n && n ≤ 0x200A) || n == 0x2028 || n == 0x2029 || n == 0x202F || n == 0x205F ||
    n == 0x3000

/-- The text of an input is empty or only white space (`trim().is_empty()`). -/
def blank (s : String) : Bool := s.toList.all whiteSpace

def requireReason (reason : String) : Result Unit :=
  require (blank reason = false) (.invalid "REASON_REQUIRED")

end Masonwing
