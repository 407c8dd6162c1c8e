import Masonwing.Store.Host

/-!
# Transfers

The bytes of an upload on their way between the two transactions of `put_upload`: they are spooled
and hashed, checked against the declared type, scanned, and put into the object store of
`artifacts/src/streaming.rs`. The machine at the end runs the host with the attempts in flight.
-/

namespace Masonwing

open Outcome

variable {ι ν ε : Type}

/-! ## Readers -/

/-- What one read yields: some bytes, none at the end, or a failure. -/
inductive ReadOutcome where
  | bytes (b : Bytes)
  | failed

/-- The reads that are to come; after the last one the stream has ended. -/
abbrev Reader := List ReadOutcome

/-- `read_exact`; the bytes beyond the wanted ones stay. -/
def readExact : Reader → Nat → Option (Bytes × Reader)
  | reader, 0 => some ([], reader)
  | [], _ + 1 => none
  | .failed :: _, _ + 1 => none
  | .bytes b :: reader, count + 1 =>
    if b = [] then none
    else if count + 1 < b.length then
      some (b.take (count + 1), .bytes (b.drop (count + 1)) :: reader)
    else do
      let (more, reader) ← readExact reader (count + 1 - b.length)
      return (b ++ more, reader)

/-- A `read` into a buffer of one byte. -/
def readExtra : Reader → Option Nat
  | [] => some 0
  | .failed :: _ => none
  | .bytes [] :: _ => some 0
  | .bytes (_ :: _) :: _ => some 1

/-- The loop that takes exactly the remaining bytes in pieces of at most `limit`. -/
def readChunks (limit : Nat) : Nat → Nat → Reader → Bytes → Option (Bytes × Reader)
  | _, 0, reader, taken => some (taken, reader)
  | 0, _ + 1, _, _ => none
  | fuel + 1, remaining + 1, reader, taken => do
    let count := min (remaining + 1) limit
    let (chunk, reader) ← readExact reader count
    readChunks limit fuel (remaining + 1 - count) reader (taken ++ chunk)

/-- A stream of the given size, which has to end there. -/
def readDeclared (limit : Nat) (reader : Reader) (size : Int) : Result Bytes := do
  require (1 ≤ size ∧ size ≤ maxArtifactBytes) (.invalid "ARTIFACT_SIZE_INVALID")
  let (taken, rest) ← okOr (readChunks limit size.toNat size.toNat reader [])
    (.invalid "ARTIFACT_STREAM_TRUNCATED")
  let extra ← okOr (readExtra rest) (.invalid "ARTIFACT_STREAM_INVALID")
  require (extra = 0) (.invalid "ARTIFACT_SIZE_MISMATCH")
  return taken

def spoolBufferBytes : Nat := 64 * 1024

/-- `spool_exact`: the file and the digest of what went into it. -/
def spoolExact (env : Env) (reader : Reader) (size : Int) : Result (Bytes × Digest) := do
  let file ← readDeclared spoolBufferBytes reader size
  return (file, env.digestBytes file)

/-! ## UTF-8 -/

/-- How a sequence of bytes begins. -/
inductive Utf8Sequence where
  | complete (width : Nat)
  | truncated
  | malformed (length : Nat)
  deriving DecidableEq

def isContinuation (b : UInt8) : Bool := decide (0x80 ≤ b ∧ b ≤ 0xBF)

/-- The second bytes that may follow a first one. -/
def secondAllowed (first second : UInt8) : Bool :=
  if first = 0xE0 then decide (0xA0 ≤ second ∧ second ≤ 0xBF)
  else if first = 0xED then decide (0x80 ≤ second ∧ second ≤ 0x9F)
  else if first = 0xF0 then decide (0x90 ≤ second ∧ second ≤ 0xBF)
  else if first = 0xF4 then decide (0x80 ≤ second ∧ second ≤ 0x8F)
  else isContinuation second

def utf8CharWidth (first : UInt8) : Nat :=
  if first ≤ 0x7F then 1
  else if 0xC2 ≤ first ∧ first ≤ 0xDF then 2
  else if 0xE0 ≤ first ∧ first ≤ 0xEF then 3
  else if 0xF0 ≤ first ∧ first ≤ 0xF4 then 4
  else 0

/-- The bytes after the second one, all of which are continuations. -/
def utf8Rest : Nat → Nat → Bytes → Utf8Sequence
  | 0, seen, _ => .complete seen
  | _ + 1, _, [] => .truncated
  | missing + 1, seen, b :: rest =>
    if isContinuation b then utf8Rest missing (seen + 1) rest else .malformed seen

def utf8Sequence : Bytes → Utf8Sequence
  | [] => .truncated
  | first :: rest =>
    match utf8CharWidth first, rest with
    | 0, _ => .malformed 1
    | 1, _ => .complete 1
    | _ + 2, [] => .truncated
    | missing + 2, second :: rest =>
      if secondAllowed first second then utf8Rest missing 2 rest else .malformed 1

/-- `Utf8Error`: how far the bytes are valid, and whether more bytes could not help. -/
structure Utf8Error where
  validUpTo : Nat
  errorLen : Option Nat

/-- `std::str::from_utf8`; no sequence is empty, so that as many steps as bytes are enough. -/
def fromUtf8From : Nat → Nat → Bytes → Option Utf8Error
  | _, _, [] => none
  | 0, valid, _ :: _ => some { validUpTo := valid, errorLen := none }
  | fuel + 1, valid, b :: rest =>
    match utf8Sequence (b :: rest) with
    | .complete width => fromUtf8From fuel (valid + width) ((b :: rest).drop width)
    | .truncated => some { validUpTo := valid, errorLen := none }
    | .malformed length => some { validUpTo := valid, errorLen := some length }

def fromUtf8 (bytes : Bytes) : Option Utf8Error := fromUtf8From bytes.length 0 bytes

def mimeMismatch : CommandFailure := .precondition "ARTIFACT_MIME_MISMATCH"

/-- The bytes of a sequence that has begun. -/
structure Utf8Stream where
  carry : Bytes

namespace Utf8Stream

def start : Utf8Stream := { carry := [] }

def push (s : Utf8Stream) (bytes : Bytes) : Result Utf8Stream := do
  require (0 ∉ bytes) mimeMismatch
  let carry := s.carry ++ bytes
  match fromUtf8 carry with
  | none => return { carry := [] }
  | some e => do
    require (e.errorLen = none) mimeMismatch
    let carry := carry.drop e.validUpTo
    require (carry.length ≤ 3) mimeMismatch
    return { carry }

def finish (s : Utf8Stream) : Result Unit := require (s.carry = []) mimeMismatch

end Utf8Stream

/-! ## Content types -/

/-- The decoders of images and of JSON; each says whether it reads the file to its end. -/
structure FileDecoders where
  image : String → Bytes → Bool
  json : Bytes → Bool

def asciiLowerByte (b : UInt8) : UInt8 := if 65 ≤ b ∧ b ≤ 90 then b + 32 else b

def asciiWhitespace (b : UInt8) : Bool := decide (b ∈ [0x20, 0x09, 0x0A, 0x0C, 0x0D])

def ascii (text : String) : Bytes := text.toList.map fun c => UInt8.ofNat c.toNat

/-- The bytes occur one after the other. -/
def containsBytes (bytes marker : Bytes) : Bool := bytes.tails.any fun t => marker.isPrefixOf t

def activeContentMarkers : List Bytes :=
  [ascii "<script", ascii "<!doctype html", ascii "<html", ascii "<?php"]

/-- Whether the two ends of a file are those of its type. -/
def recognizedBoundaries (contentType : String) (head tail : Bytes) : Bool :=
  if contentType = "image/png" then
    [0x89, 0x50, 0x4E, 0x47, 0x0D, 0x0A, 0x1A, 0x0A].isPrefixOf head &&
      [0, 0, 0, 0, 0x49, 0x45, 0x4E, 0x44, 0xAE, 0x42, 0x60, 0x82].isSuffixOf tail
  else if contentType = "image/jpeg" then
    [0xFF, 0xD8, 0xFF].isPrefixOf head && [0xFF, 0xD9].isSuffixOf tail
  else if contentType = "application/pdf" then
    (ascii "%PDF-").isPrefixOf head &&
      (ascii "%%EOF").isSuffixOf (tail.reverse.dropWhile asciiWhitespace).reverse
  else if contentType = "application/wasm" then
    (0 :: ascii "asm").isPrefixOf head && decide (8 ≤ head.length)
  else if contentType = "application/json" ∨ contentType = "text/plain" ∨
      contentType = "text/csv" then !head.contains 0
  else decide (contentType = "application/octet-stream")

def validateMimeBoundaries (contentType : String) (head tail : Bytes) : Result Unit := do
  require (recognizedBoundaries contentType head tail = true) mimeMismatch
  if ["image/png", "image/jpeg", "application/pdf"].contains contentType then
    require ((activeContentMarkers.any fun marker =>
      containsBytes (head.map asciiLowerByte) marker ||
        containsBytes (tail.map asciiLowerByte) marker) = false)
      (.precondition "ARTIFACT_POLYGLOT")

/-- The reads of a file in buffers. -/
def fileChunks (limit : Nat) : Nat → Bytes → List Bytes
  | _, [] => []
  | 0, _ :: _ => []
  | fuel + 1, b :: rest =>
    (b :: rest).take limit :: fileChunks limit fuel ((b :: rest).drop limit)

/-- `validate_file_mime`. -/
def validateFileMime (decoders : FileDecoders) (contentType : String) (file : Bytes) :
    Result Unit := do
  require (declaredMimes.contains contentType = true) (.invalid "ARTIFACT_MIME_UNSUPPORTED")
  validateMimeBoundaries contentType (file.take 8192) (file.drop (file.length - 1024))
  if contentType = "image/png" ∨ contentType = "image/jpeg" then
    require (decoders.image contentType file = true) mimeMismatch
  else if contentType = "application/json" then
    require (decoders.json file = true) (.precondition "ARTIFACT_JSON_INVALID")
  else if contentType = "text/plain" ∨ contentType = "text/csv" then do
    let stream ← (fileChunks spoolBufferBytes file.length file).foldlM Utf8Stream.push .start
    stream.finish

/-! ## Objects -/

structure StoredObject where
  bytes : Bytes
  contentType : String

def putPartBytes : Nat := 5 * 1024 * 1024

/-- `checked_content_type`. -/
def contentTypeStorable (contentType : String) : Prop :=
  contentType ≠ "" ∧ contentType.utf8ByteSize ≤ 255 ∧
    ∀ c ∈ contentType.toList, c.toNat < 128 ∧ 32 ≤ c.toNat ∧ c.toNat ≠ 127

-- the instance for all characters, where it is in scope, would run through every one of them
instance (contentType : String) : Decidable (contentTypeStorable contentType) :=
  have : Decidable (∀ c ∈ contentType.toList, c.toNat < 128 ∧ 32 ≤ c.toNat ∧ c.toNat ≠ 127) :=
    List.decidableBAll _ _
  inferInstanceAs (Decidable (_ ∧ _ ∧ ∀ c ∈ contentType.toList, _))

/-- `stream_put`: the bytes are staged, and copied to their key unless something is there. -/
def streamPut (pathValid : String → Bool) (objects : Table String StoredObject) (key : String)
    (reader : Reader) (size : Int) (contentType : String) : Result (Table String StoredObject) := do
  require (1 ≤ size ∧ size ≤ maxArtifactBytes) (.invalid "ARTIFACT_SIZE_INVALID")
  require (key ≠ "" ∧ pathValid key = true) (.invalid "ARTIFACT_OBJECT_KEY_INVALID")
  require (contentTypeStorable contentType) (.invalid "ARTIFACT_CONTENT_TYPE_INVALID")
  let bytes ← readDeclared putPartBytes reader size
  okOr (objects.insert? key { bytes, contentType }) (.conflict "IMMUTABLE_ARTIFACT")

/-! ## Attempts -/

inductive ScanVerdict where
  | clean
  | quarantined (signature : String)
  deriving DecidableEq

inductive TransferStage where
  | spool
  | validation
  | put
  | answer
  deriving DecidableEq

/-- What happens to an attempt between its transactions: what the client sends, what the scanner
says of a file, and where the disk, the network or the deadline stops it, if they do. At `answer`
the object has been put. -/
structure Transfer where
  reader : Reader
  scan : Bytes → Result ScanVerdict
  stopped : Option (TransferStage × CommandFailure)

/-- Fails if the transfer is stopped at this stage. -/
def Transfer.pass (x : Transfer) (stage : TransferStage) : Result Unit :=
  match x.stopped with
  | some (s, failure) => require (s ≠ stage) failure
  | none => .ok ()

/-- The host with what the transfers need beside it. -/
structure Deposit (ι ν ε : Type) where
  host : Host ι ν ε
  decoders : FileDecoders
  pathValid : String → Bool

namespace Deposit

variable (d : Deposit ι ν ε)

def env : Env := d.host.env

/-- The file of an attempt, verified up to the scanner. -/
def receiveFile (claim : UploadClaim) (x : Transfer) : Result (Bytes × Digest) := do
  x.pass .spool
  let (file, digest) ← spoolExact d.env x.reader claim.size
  require (digest = claim.digest) (.precondition "ARTIFACT_DIGEST_MISMATCH")
  x.pass .validation
  validateFileMime d.decoders claim.contentType file
  let verdict ← x.scan file
  require (verdict = .clean) (.precondition "ARTIFACT_QUARANTINED")
  x.pass .put
  return (file, digest)

/-- The transfer of an attempt: the objects after it, and its outcome. -/
def transfer (tenant : Uuid) (objects : Table String StoredObject) (claim : UploadClaim)
    (x : Transfer) : Table String StoredObject × Result Digest :=
  match d.receiveFile claim x with
  | .error failure => (objects, .error failure)
  | .ok (file, digest) =>
    match streamPut d.pathValid objects (uploadKey tenant claim digest) [.bytes file] claim.size
        claim.contentType with
    | .error failure => (objects, .error failure)
    | .ok objects' => (objects', do x.pass .answer; return digest)

end Deposit

/-- How far an attempt has come after its first transaction. -/
inductive AttemptPhase where
  | transferred (outcome : Result Digest)
  | answered

structure DepositState where
  host : HostState
  objects : Table String StoredObject
  phases : Table Nat AttemptPhase

inductive DepositOperation (ι ε : Type) where
  | host (operation : HostOperation ι ε)
  | transfer (attempt : Nat) (x : Transfer)
  | complete (attempt : Nat)

structure DepositCall (ι ε : Type) where
  tick : Tick
  operation : DepositOperation ι ε

/-- One step of the host with the attempts in flight. An attempt that is not continued has crashed;
its second transaction is only run after its transfer, with the outcome of that. -/
def depositStep (d : Deposit ι ν ε) (s : DepositState) (c : DepositCall ι ε) :
    DepositState × Result HostReply :=
  match c.operation with
  | .host (.completeUpload _ _) => (s, .error .notFound)
  | .host operation =>
    let (host, reply) := hostStep d.host s.host ⟨c.tick, operation⟩
    ({ s with host }, reply)
  | .transfer attempt x =>
    match s.host.attempts[attempt]?, s.phases.get? attempt with
    | some a, none =>
      let (objects, outcome) :=
        d.transfer s.host.store.tables.identity.tenantId s.objects a.claim x
      ({ s with objects, phases := s.phases.upsert attempt (.transferred outcome) },
        .ok (.completed none))
    | _, _ => (s, .error .notFound)
  | .complete attempt =>
    match s.phases.get? attempt with
    | some (.transferred outcome) =>
      let (host, reply) :=
        hostStep d.host s.host ⟨c.tick, .completeUpload attempt outcome⟩
      ({ s with host, phases := s.phases.upsert attempt .answered }, reply)
    | _ => (s, .error .notFound)

abbrev DepositEvent (ι ε : Type) :=
  Machine.Event DepositState (DepositCall ι ε) (Result HostReply)

end Masonwing
