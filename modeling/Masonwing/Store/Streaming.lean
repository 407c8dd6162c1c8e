import Masonwing.Lib.Numerals
import Masonwing.Lib.Procedure
import Masonwing.Store.Transfer

/-!
# Streams on their way

The three loops that take a stream of a declared size in pieces: into the spool file, into the parts
of an upload (`artifacts/src/streaming.rs`) and into the socket of the scanner. `Transfer` has what
they leave when nothing fails; here each write is one that may fail, and what was written before
stays written.
-/

namespace Masonwing

namespace Streaming

open Outcome

variable {σ : Type}

/-! ## The loop -/

/-- Takes exactly the remaining bytes, in pieces of at most `limit`, and hands each one on. -/
def takeExactly (limit : Nat) (write : Bytes → Procedure CommandFailure σ Unit) :
    Nat → Nat → Reader → Procedure CommandFailure σ Reader
  | _, 0, reader => pure reader
  | 0, _ + 1, _ => .ofExcept (.error (.invalid "ARTIFACT_STREAM_TRUNCATED"))
  | fuel + 1, remaining + 1, reader => do
    let count := min (remaining + 1) limit
    let (chunk, reader) ← .ofExcept
      (okOr (readExact reader count) (.invalid "ARTIFACT_STREAM_TRUNCATED"))
    write chunk
    takeExactly limit write fuel (remaining + 1 - count) reader

/-- The stream has to end where the declared size does. -/
def requireEnd (reader : Reader) : Result Unit := do
  let extra ← okOr (readExtra reader) (.invalid "ARTIFACT_STREAM_INVALID")
  require (extra = 0) (.invalid "ARTIFACT_SIZE_MISMATCH")

/-! ## The spool -/

/-- A file under way: what was hashed and written, and how much the disk still takes. -/
structure SpoolFile where
  hashed : Bytes
  written : Bytes
  room : Nat

/-- What the disk does for one file. -/
structure Disk where
  creates : Bool
  room : Nat
  flushes : Bool
  rewinds : Bool

def spoolFailure : CommandFailure := .unavailable "ARTIFACT_SPOOL_UNAVAILABLE"

def SpoolFile.update (chunk : Bytes) : Procedure CommandFailure SpoolFile Unit := fun f =>
  (.ok (), { f with hashed := f.hashed ++ chunk })

def SpoolFile.writeAll (chunk : Bytes) : Procedure CommandFailure SpoolFile Unit := fun f =>
  if chunk.length ≤ f.room then
    (.ok (), { f with written := f.written ++ chunk, room := f.room - chunk.length })
  else (.error spoolFailure, { f with written := f.written ++ chunk.take f.room, room := 0 })

/-- `spool_exact` on a file that is still empty. -/
def spoolInto (disk : Disk) (reader : Reader) (size : Int) :
    Procedure CommandFailure SpoolFile Unit := do
  .ofExcept (require (1 ≤ size ∧ size ≤ maxArtifactBytes) (.invalid "ARTIFACT_SIZE_INVALID"))
  .ofExcept (require (disk.creates = true) spoolFailure)
  let write := fun chunk => do
    SpoolFile.update chunk
    SpoolFile.writeAll chunk
  let rest ← takeExactly spoolBufferBytes write size.toNat size.toNat reader
  .ofExcept (requireEnd rest)
  .ofExcept (require (disk.flushes = true) spoolFailure)
  .ofExcept (require (disk.rewinds = true) spoolFailure)

/-- The file and the digest of what was hashed. -/
def spoolExact (env : Env) (disk : Disk) (reader : Reader) (size : Int) :
    Result (Bytes × Digest) :=
  match spoolInto disk reader size { hashed := [], written := [], room := disk.room } with
  | (.ok (), f) => .ok (f.written, env.digestBytes f.hashed)
  | (.error e, _) => .error e

/-! ## The object store -/

inductive ObjectStoreError where
  | alreadyExists
  | precondition
  | notSupported
  | notImplemented
  | generic
  deriving DecidableEq

def mapPutError : ObjectStoreError → CommandFailure
  | .alreadyExists | .precondition => .conflict "IMMUTABLE_ARTIFACT"
  | .notSupported | .notImplemented => .unavailable "ARTIFACT_IMMUTABILITY_UNSUPPORTED"
  | .generic => .unavailable "ARTIFACT_STORE_UNAVAILABLE"

/-- The objects, and the parts of the upload under way. -/
structure Objects where
  stored : Table String StoredObject
  parts : List Bytes

/-- What the store does for one upload: `none` where a request is carried out. -/
structure ObjectService where
  pathValid : String → Bool
  opens : Option ObjectStoreError
  accepts : Nat → Option ObjectStoreError
  completes : Option ObjectStoreError
  copies : Option ObjectStoreError
  deletes : Bool

def putResult (failure : Option ObjectStoreError) : Result Unit :=
  match failure with
  | none => .ok ()
  | some e => .error (mapPutError e)

def checkedPath (service : ObjectService) (key : String) : Result Unit :=
  require (key ≠ "" ∧ service.pathValid key = true) (.invalid "ARTIFACT_OBJECT_KEY_INVALID")

def Objects.putPart (service : ObjectService) (chunk : Bytes) :
    Procedure CommandFailure Objects Unit := fun o =>
  match putResult (service.accepts o.parts.length) with
  | .ok () => (.ok (), { o with parts := o.parts ++ [chunk] })
  | .error e => (.error e, o)

/-- The parts become one object; an ordinary completion replaces what is there. -/
def Objects.complete (service : ObjectService) (stage contentType : String) :
    Procedure CommandFailure Objects Unit := fun o =>
  match putResult service.completes with
  | .ok () =>
    (.ok (), { o with stored := o.stored.upsert stage { bytes := o.parts.flatten, contentType } })
  | .error e => (.error e, o)

/-- `copy_if_not_exists`, which is atomic. -/
def Objects.copyIfNotExists (service : ObjectService) (stage key : String) :
    Procedure CommandFailure Objects Unit := fun o =>
  match putResult service.copies with
  | .error e => (.error e, o)
  | .ok () =>
    match o.stored.get? stage with
    | none => (.error (mapPutError .generic), o)
    | some staged =>
      match o.stored.insert? key staged with
      | none => (.error (mapPutError .alreadyExists), o)
      | some stored => (.ok (), { o with stored })

def Objects.delete (service : ObjectService) (stage : String) (o : Objects) : Objects :=
  if service.deletes then { o with stored := o.stored.erase stage } else o

def stagePath (upload : Uuid) : String := "staging/" ++ upload.toText

/-- The parts, the end of the stream, the completion and the copy. -/
def putStaged (service : ObjectService) (stage key : String) (reader : Reader) (size : Int)
    (contentType : String) : Procedure CommandFailure Objects Unit := do
  let rest ← takeExactly putPartBytes (Objects.putPart service) size.toNat size.toNat reader
  .ofExcept (requireEnd rest)
  Objects.complete service stage contentType
  Objects.copyIfNotExists service stage key

/-- `stream_put`; the staged object is removed in any case. -/
def streamPut (service : ObjectService) (upload : Uuid) (key : String) (reader : Reader)
    (size : Int) (contentType : String) : Procedure CommandFailure Objects Unit := do
  .ofExcept (require (1 ≤ size ∧ size ≤ maxArtifactBytes) (.invalid "ARTIFACT_SIZE_INVALID"))
  .ofExcept (checkedPath service key)
  .ofExcept (checkedPath service (stagePath upload))
  .ofExcept (require (contentTypeStorable contentType) (.invalid "ARTIFACT_CONTENT_TYPE_INVALID"))
  .ofExcept (putResult service.opens)
  fun o =>
    let (result, o) := putStaged service (stagePath upload) key reader size contentType o
    (result, o.delete service (stagePath upload))

/-! ## The scanner -/

/-- The limits that `with_limits` admits. -/
structure ClamAvScanner where
  maxScanBytes : Nat
  chunkBytes : Nat
  maxScanBytes_pos : 0 < maxScanBytes
  chunkBytes_pos : 0 < chunkBytes
  chunkBytes_le : chunkBytes ≤ 4294967295

namespace ClamAvScanner

def new : ClamAvScanner :=
  { maxScanBytes := 1024 * 1024 * 1024, chunkBytes := 64 * 1024, maxScanBytes_pos := by decide
    chunkBytes_pos := by decide, chunkBytes_le := by decide }

def withLimits (maxScanBytes chunkBytes : Nat) : Option ClamAvScanner :=
  if h : 0 < maxScanBytes ∧ 0 < chunkBytes ∧ chunkBytes ≤ 4294967295 then
    some ⟨maxScanBytes, chunkBytes, h.1, h.2.1, h.2.2⟩
  else none

end ClamAvScanner

def scannerUnavailable : CommandFailure := .unavailable "ARTIFACT_SCANNER_UNAVAILABLE"

/-- The connection to the scanner: what was sent, how much it still takes, and its reply. -/
structure Socket where
  connects : Bool
  sent : Bytes
  room : Nat
  flushes : Bool
  reply : Reader

def Socket.writeAll (bytes : Bytes) : Procedure CommandFailure Socket Unit := fun s =>
  if bytes.length ≤ s.room then
    (.ok (), { s with sent := s.sent ++ bytes, room := s.room - bytes.length })
  else (.error scannerUnavailable, { s with sent := s.sent ++ bytes.take s.room, room := 0 })

def scanCommand : Bytes := ascii "zINSTREAM" ++ [0]

/-- `u32::to_be_bytes`. -/
def toBeBytes (n : Nat) : Bytes := (Numerals.digits 256 4 n).map UInt8.ofNat

/-- The next byte, if there is one. -/
def readByte : Reader → Option (Option (UInt8 × Reader))
  | [] => some none
  | .failed :: _ => none
  | .bytes [] :: _ => some none
  | .bytes [b] :: reader => some (some (b, reader))
  | .bytes (b :: c :: rest) :: reader => some (some (b, .bytes (c :: rest) :: reader))

def maxResponse : Nat := 1024

/-- `read_clamd_response`, with room for some more bytes. -/
def readClamdResponse : Nat → Reader → Bytes → Result Bytes
  | room, reader, response => do
    let next ← okOr (readByte reader) scannerUnavailable
    match next with
    | none => do
      require (response ≠ []) scannerUnavailable
      return response
    | some (b, rest) =>
      if b = 0 ∨ b = 10 then do
        require (response ≠ []) scannerUnavailable
        return response
      else
        match room with
        | 0 => throw scannerUnavailable
        | room + 1 => readClamdResponse room rest (response ++ [b])

/-- The characters of a name that are kept; a byte of any other character is not one of them. -/
def signatureByte (b : UInt8) : Bool :=
  decide ((0x30 ≤ b ∧ b ≤ 0x39) ∨ (0x41 ≤ b ∧ b ≤ 0x5A) ∨ (0x61 ≤ b ∧ b ≤ 0x7A)) ||
    (ascii "._-:").contains b

def sanitizeSignature (signature : Bytes) : String :=
  let sanitized := (signature.filter signatureByte).take 128
  if sanitized = [] then "malware"
  else String.ofList (sanitized.map fun b => Char.ofNat b.toNat)

def parseClamdResponse (response : Bytes) : Result ScanVerdict := do
  require ((fromUtf8 response).isNone = true) scannerUnavailable
  let result ← okOr ((ascii "stream: ").isPrefixOf? response) scannerUnavailable
  if result = ascii "OK" then return .clean
  let signature ← okOr ((ascii " FOUND").isSuffixOf? result) scannerUnavailable
  return .quarantined (sanitizeSignature signature)

/-- One frame: the length of a piece and the piece. -/
def Socket.writeFrame (chunk : Bytes) : Procedure CommandFailure Socket Unit := do
  Socket.writeAll (toBeBytes chunk.length)
  Socket.writeAll chunk

def Socket.connect : Procedure CommandFailure Socket Unit := fun s =>
  (require (s.connects = true) scannerUnavailable, s)

def Socket.flush : Procedure CommandFailure Socket Unit := fun s =>
  (require (s.flushes = true) scannerUnavailable, s)

def Socket.readResponse : Procedure CommandFailure Socket Bytes := fun s =>
  (readClamdResponse maxResponse s.reply [], s)

def scanBufferBytes : Nat := 64 * 1024

def streamScan (scanner : ClamAvScanner) (reader : Reader) (size : Nat) :
    Procedure CommandFailure Socket ScanVerdict := do
  .ofExcept (require (size ≤ scanner.maxScanBytes)
    { code := "ARTIFACT_SCAN_LIMIT_EXCEEDED", kind := .exhausted })
  Socket.connect
  Socket.writeAll scanCommand
  let limit := min scanner.chunkBytes scanBufferBytes
  let rest ← takeExactly limit Socket.writeFrame size size reader
  .ofExcept (requireEnd rest)
  Socket.writeAll (toBeBytes 0)
  Socket.flush
  let response ← Socket.readResponse
  .ofExcept (parseClamdResponse response)

end Streaming

end Masonwing
