import Masonwing.HostApi.Commands
import Masonwing.Store.Queries

/-!
# Downloads

The route of `runtime.rs` that hands out the content of an artifact. The file is spooled and
verified before the response begins. Its body is read later, poll by poll, and whoever reads it is
checked again once the last check is a second old.
-/

namespace Masonwing

open Outcome

/-! ## The head -/

/-- The body of a response: what is left of the file, and when its reader was last checked. The
clock is first read at the first poll. -/
structure DownloadBody where
  actor : CommandActor
  artifactId : String
  checked : Option Int
  rest : Bytes
  finished : Bool

namespace SessionAuthority

variable (a : SessionAuthority)

end SessionAuthority

/-! ## The body -/

/-- What a poll of the body meets: the clock when the poll begins and at the question whether the
last check has become too old, the session and the tables of a check with the clock of the session
and the time at which the check ends, and how many bytes a read of the file would give. -/
structure BodyPoll where
  begun : Int
  now : Int
  wall : Int
  session : Session
  tables : Tables
  checked : Int
  read : Option Nat
  begun_le_now : begun ≤ now
  now_le_checked : now ≤ checked

inductive BodyReply where
  | chunk (bytes : Bytes)
  | ended
  | failed
  deriving DecidableEq

def downloadBufferBytes : Nat := 64 * 1024

namespace DownloadBody

/-- Whoever reads is still in session, and may still read the artifact. -/
def verified (a : SessionAuthority) (env : Env) (b : DownloadBody) (p : BodyPoll) : Bool :=
  (a.peekAuthenticated p.wall p.session).toOption.isSome &&
    (readArtifactMetadata env p.tables b.actor b.artifactId).toOption.isSome

/-- The time of the last check when the file is read, unless a check is due and fails. -/
def recheck (a : SessionAuthority) (env : Env) (b : DownloadBody) (p : BodyPoll) : Option Int :=
  let checked := b.checked.getD p.begun
  if seconds 1 ≤ p.now - checked then
    if b.verified a env p then some p.checked else none
  else some checked

/-- A read gives at least a byte, unless the file is at its end. -/
def readSome (b : DownloadBody) (checked : Int) (count : Nat) : DownloadBody × BodyReply :=
  let size := max 1 (min count downloadBufferBytes)
  if b.rest = [] then ({ b with finished := true }, .ended)
  else ({ b with checked := some checked, rest := b.rest.drop size }, .chunk (b.rest.take size))

end DownloadBody

/-- One poll of the body. A body that has ended or failed stays so. -/
def downloadStep (a : SessionAuthority) (env : Env) (b : DownloadBody) (p : BodyPoll) :
    DownloadBody × BodyReply :=
  if b.finished then (b, .ended)
  else
    match b.recheck a env p, p.read with
    | some checked, some count => b.readSome checked count
    | _, _ => ({ b with finished := true }, .failed)

abbrev DownloadEvent := Machine.Event DownloadBody BodyPoll BodyReply

end Masonwing
