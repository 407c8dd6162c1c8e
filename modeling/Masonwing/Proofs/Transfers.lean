import Masonwing.Store.Transfer
import Masonwing.Proofs.UploadSteps

/-!
# What a transfer puts

A stream that is read to its declared size has exactly these bytes, and the object that
`stream_put` leaves is the file that was verified. `Verified` says what is known of an object, and
`transfer_ok` that a transfer changes no object that was there and succeeds only with a verified
one under the key of its attempt.
-/

namespace Masonwing

open Outcome

variable {ι ν ε : Type}

/-! ## Readers -/

/-- The bytes that are still to come. -/
def Reader.content : Reader → Bytes
  | [] => []
  | .bytes b :: reader => b ++ content reader
  | .failed :: reader => content reader

theorem readExact_content {reader rest : Reader} {count : Nat} {chunk : Bytes}
    (h : readExact reader count = some (chunk, rest)) :
    chunk ++ rest.content = reader.content ∧ chunk.length = count := by
  induction reader generalizing count chunk with
  | nil =>
    cases count with
    | zero =>
      cases h
      exact ⟨rfl, rfl⟩
    | succ n => cases h
  | cons outcome reader ih =>
    cases count with
    | zero =>
      rw [readExact] at h
      cases h
      exact ⟨rfl, rfl⟩
    | succ n =>
      cases outcome with
      | failed => cases h
      | bytes b =>
        rw [readExact] at h
        split at h
        · cases h
        · split at h
          · -- a part of what this read yields is left for the next one
            rename_i hMore
            cases h
            refine ⟨?_, List.length_take_of_le hMore.le⟩
            rw [Reader.content, Reader.content, ← List.append_assoc, List.take_append_drop]
          · rename_i hAll
            simp only [Option.bind_eq_bind, Option.bind_eq_some_iff, Option.pure_def,
              Option.some.injEq, Prod.exists, Prod.mk.injEq] at h
            obtain ⟨more, left, hRead, rfl, rfl⟩ := h
            obtain ⟨hContent, hLength⟩ := ih hRead
            constructor
            · rw [List.append_assoc, hContent, Reader.content]
            · rw [List.length_append, hLength]
              omega

theorem readChunks_content {limit fuel remaining : Nat} {reader rest : Reader}
    {taken out : Bytes} (h : readChunks limit fuel remaining reader taken = some (out, rest)) :
    out ++ rest.content = taken ++ reader.content ∧ out.length = taken.length + remaining := by
  induction fuel generalizing remaining reader taken with
  | zero =>
    cases remaining with
    | zero =>
      cases h
      exact ⟨rfl, rfl⟩
    | succ n => cases h
  | succ fuel ih =>
    cases remaining with
    | zero =>
      rw [readChunks] at h
      cases h
      exact ⟨rfl, rfl⟩
    | succ n =>
      rw [readChunks] at h
      simp only [Option.bind_eq_bind, Option.bind_eq_some_iff, Prod.exists] at h
      obtain ⟨chunk, left, hRead, hRest⟩ := h
      obtain ⟨hContent, hLength⟩ := readExact_content hRead
      obtain ⟨hOut, hOutLength⟩ := ih hRest
      constructor
      · rw [hOut, List.append_assoc, hContent]
      · rw [hOutLength, List.length_append, hLength]
        omega

/-- A stream that is taken is one of the declared size. -/
theorem readDeclared_ok {limit : Nat} {reader : Reader} {size : Int} {bytes : Bytes}
    (h : readDeclared limit reader size = .ok bytes) :
    (bytes.length : Int) = size ∧ ∃ rest : Reader, bytes ++ rest.content = reader.content := by
  simp only [readDeclared, bind_eq_ok, require_eq_ok, okOr_eq_ok, pure_eq_ok, Prod.exists,
    exists_const] at h
  obtain ⟨⟨hPositive, -⟩, taken, rest, hRead, extra, -, -, rfl⟩ := h
  obtain ⟨hContent, hLength⟩ := readChunks_content hRead
  refine ⟨?_, rest, hContent⟩
  rw [hLength, List.length_nil]
  omega

/-! ## Objects -/

/-- Putting a file of the declared size leaves the file under the key, which was free. -/
theorem streamPut_ok {pathValid : String → Bool} {objects objects' : Table String StoredObject}
    {key : String} {file : Bytes} {size : Int} {contentType : String}
    (hSize : (file.length : Int) = size)
    (h : streamPut pathValid objects key [.bytes file] size contentType = .ok objects') :
    objects.insert? key { bytes := file, contentType } = some objects' := by
  simp only [streamPut, bind_eq_ok, require_eq_ok, okOr_eq_ok, exists_const] at h
  obtain ⟨-, -, -, bytes, hRead, hInsert⟩ := h
  obtain ⟨hLength, rest, hContent⟩ := readDeclared_ok hRead
  rw [Reader.content, Reader.content, List.append_nil] at hContent
  have hEnd : rest.content = [] := by
    have hLengths := congrArg List.length hContent
    rw [List.length_append] at hLengths
    exact List.eq_nil_of_length_eq_zero (by omega)
  rw [hEnd, List.append_nil] at hContent
  rwa [hContent] at hInsert

/-- Nothing that is there is replaced. -/
def ObjectsKept (objects objects' : Table String StoredObject) : Prop :=
  ∀ key o, objects.get? key = some o → objects'.get? key = some o

namespace Deposit

variable (d : Deposit ι ν ε)

/-- An object with the declared digest and size and the declared type, that was scanned clean. -/
structure Verified (Clean : Bytes → Prop) (declared : Digest × Int × String) (o : StoredObject) :
    Prop where
  digest : d.env.digestBytes o.bytes = declared.1
  size : (o.bytes.length : Int) = declared.2.1
  mime : validateFileMime d.decoders declared.2.2 o.bytes = .ok ()
  clean : Clean o.bytes

/-- There is a verified object under the key. -/
def StoredAt (Clean : Bytes → Prop) (objects : Table String StoredObject) (key : String)
    (declared : Digest × Int × String) : Prop :=
  ∃ o, objects.get? key = some o ∧ d.Verified Clean declared o

variable {d : Deposit ι ν ε} {claim : UploadClaim} {x : Transfer}
  {Clean : Bytes → Prop} {objects objects' : Table String StoredObject}

theorem receiveFile_ok {file : Bytes} {digest : Digest}
    (h : d.receiveFile claim x = .ok (file, digest)) (contentType : String) :
    d.Verified (fun bytes => x.scan bytes = .ok .clean) claim.declared
      { bytes := file, contentType } ∧ digest = claim.digest := by
  simp only [receiveFile, spoolExact, bind_eq_ok, require_eq_ok, pure_eq_ok, Prod.exists,
    Prod.mk.injEq, exists_const] at h
  obtain ⟨_, -, bytes, digest', ⟨_, hRead, rfl, rfl⟩, hDigest, _, -, _, hMime, verdict, hScan,
    hClean, _, -, rfl, rfl⟩ := h
  obtain ⟨hSize, -⟩ := readDeclared_ok hRead
  refine ⟨⟨hDigest, hSize, ?_, ?_⟩, hDigest⟩
  · exact hMime
  · rw [hClean] at hScan
    exact hScan

theorem StoredAt.kept {key : String} {declared : Digest × Int × String}
    (h : d.StoredAt Clean objects key declared) (hKept : ObjectsKept objects objects') :
    d.StoredAt Clean objects' key declared := by
  obtain ⟨o, ho, hVerified⟩ := h
  exact ⟨o, hKept key o ho, hVerified⟩

theorem transfer_kept (d : Deposit ι ν ε) (tenant : Uuid) (objects : Table String StoredObject)
    (claim : UploadClaim) (x : Transfer) :
    ObjectsKept objects (d.transfer tenant objects claim x).1 := by
  intro key o ho
  unfold transfer
  split
  · exact ho
  · split
    · exact ho
    · rename_i file digest hReceived objects' hPut
      simp only [streamPut, bind_eq_ok, require_eq_ok, okOr_eq_ok, exists_const] at hPut
      obtain ⟨-, -, -, bytes, -, hInsert⟩ := hPut
      exact Table.insert?_get?_of_some hInsert ho

/-- A transfer succeeds with the declared digest only, and has then put a verified object. -/
theorem transfer_ok {tenant : Uuid} {digest : Digest}
    (hScanner : ∀ bytes, x.scan bytes = .ok .clean → Clean bytes)
    (h : (d.transfer tenant objects claim x).2 = .ok digest) :
    d.StoredAt Clean (d.transfer tenant objects claim x).1 (uploadKey tenant claim digest)
      claim.declared := by
  unfold transfer at h ⊢
  split at h
  · cases h
  · rename_i file digest' hReceived
    split at h
    · cases h
    · rename_i objects' hPut
      simp only [bind_eq_ok, pure_eq_ok] at h
      obtain ⟨-, -, rfl⟩ := h
      obtain ⟨hVerified, -⟩ := receiveFile_ok hReceived claim.contentType
      have hInsert := streamPut_ok hVerified.size hPut
      refine ⟨_, Table.insert?_get?_self hInsert, ?_⟩
      exact ⟨hVerified.digest, hVerified.size, hVerified.mime, hScanner _ hVerified.clean⟩

end Deposit

end Masonwing
