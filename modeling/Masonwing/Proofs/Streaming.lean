import Masonwing.Proofs.Transfers
import Masonwing.Store.Streaming

/-!
# Streams are taken exactly

The three loops take a stream only if it ends where its declared size does, and hand on its bytes.

* `takeExactly_ensures`: the loop, for any sink that keeps an account of what it was given;
* `scanned_frames`, `scanned_unfinished`: a scanner that reads frames finds the pieces that were
  sent, and finds no end in any part of them;
* `streaming_exact`: what a spool file, an object and a clean verdict say of the stream.
-/

namespace Masonwing

namespace Streaming

open Outcome Procedure

variable {σ : Type}

/-! ## Readers -/

/-- The bytes of the stream up to its end; a reader that fails before it has none. -/
def stream : Reader → Option Bytes
  | [] => some []
  | .failed :: _ => none
  | .bytes [] :: _ => some []
  | .bytes (b :: rest) :: reader => (stream reader).map (b :: rest ++ ·)

theorem stream_bytes {b : Bytes} (hb : b ≠ []) (reader : Reader) :
    stream (.bytes b :: reader) = (stream reader).map (b ++ ·) := by
  cases b with
  | nil => exact absurd rfl hb
  | cons a b => rfl

theorem readExact_stream {reader rest : Reader} {count : Nat} {chunk : Bytes}
    (h : readExact reader count = some (chunk, rest)) :
    chunk.length = count ∧ stream reader = (stream rest).map (chunk ++ ·) := by
  refine ⟨(readExact_content h).2, ?_⟩
  induction reader generalizing count chunk with
  | nil =>
    cases count with
    | zero =>
      cases h
      rfl
    | succ count => cases h
  | cons outcome reader ih =>
    cases count with
    | zero =>
      rw [readExact] at h
      cases h
      simp
    | succ count =>
      cases outcome with
      | failed => cases h
      | bytes b =>
        rw [readExact] at h
        split at h
        · cases h
        · rename_i hb
          rw [stream_bytes hb]
          split at h
          · rename_i hMore
            cases h
            have hLeft : b.drop (count + 1) ≠ [] :=
              List.ne_nil_of_length_pos (by rw [List.length_drop]; omega)
            rw [stream_bytes hLeft, Option.map_map]
            congr 1
            funext later
            rw [Function.comp_apply, ← List.append_assoc, List.take_append_drop]
          · simp only [Option.bind_eq_bind, Option.bind_eq_some_iff, Option.pure_def,
              Option.some.injEq, Prod.exists, Prod.mk.injEq] at h
            obtain ⟨more, left, hRead, rfl, rfl⟩ := h
            rw [ih hRead, Option.map_map]
            congr 1
            funext later
            exact (List.append_assoc b more later).symm

theorem readExtra_stream {reader : Reader} (h : readExtra reader = some 0) :
    stream reader = some [] := by
  unfold readExtra at h
  split at h
  · rfl
  · cases h
  · rfl
  · cases h

/-- The stream ends after this many bytes, which are these. -/
def Exact (reader : Reader) (size : Nat) (bytes : Bytes) : Prop :=
  stream reader = some bytes ∧ bytes.length = size

/-- An exact stream is read to its end in pieces of any size. -/
theorem readExact_of_stream {reader : Reader} {bytes : Bytes} (h : stream reader = some bytes)
    {count : Nat} (hCount : count ≤ bytes.length) :
    ∃ rest, readExact reader count = some (bytes.take count, rest) ∧
      stream rest = some (bytes.drop count) := by
  induction reader generalizing bytes count with
  | nil =>
    cases h
    cases Nat.le_zero.mp hCount
    exact ⟨[], rfl, rfl⟩
  | cons outcome reader ih =>
    cases count with
    | zero => exact ⟨outcome :: reader, by rw [readExact]; rfl, h⟩
    | succ count =>
      cases outcome with
      | failed => cases h
      | bytes b =>
        by_cases hb : b = []
        · subst hb
          cases h
          exact absurd hCount (by simp)
        · rw [stream_bytes hb] at h
          obtain ⟨later, hLater, rfl⟩ := Option.map_eq_some_iff.mp h
          rw [List.length_append] at hCount
          rw [readExact, if_neg hb]
          split
          · rename_i hMore
            have hLeft : b.drop (count + 1) ≠ [] :=
              List.ne_nil_of_length_pos (by rw [List.length_drop]; omega)
            refine ⟨_, by rw [List.take_append_of_le_length (by omega)], ?_⟩
            rw [stream_bytes hLeft, hLater, Option.map_some,
              List.drop_append_of_le_length (by omega)]
          · rename_i hAll
            have hLeft : count + 1 - b.length ≤ later.length := by omega
            obtain ⟨rest, hRead, hRest⟩ := ih hLater hLeft
            have hAll : b.length ≤ count + 1 := by omega
            refine ⟨rest, ?_, ?_⟩
            · rw [hRead, List.take_append, List.take_of_length_le hAll]
              rfl
            · rw [hRest, List.drop_append, List.drop_of_length_le hAll, List.nil_append]

theorem readExtra_of_stream {reader : Reader} (h : stream reader = some []) :
    readExtra reader = some 0 := by
  unfold stream at h
  split at h
  · rfl
  · cases h
  · rfl
  · obtain ⟨later, -, hNil⟩ := Option.map_eq_some_iff.mp h
    cases hNil

theorem readChunks_of_stream {limit : Nat} (hLimit : 0 < limit) {fuel : Nat} {reader : Reader}
    {bytes : Bytes} (h : stream reader = some bytes) {remaining : Nat}
    (hRemaining : remaining ≤ bytes.length) (hFuel : remaining ≤ fuel) (taken : Bytes) :
    ∃ rest, readChunks limit fuel remaining reader taken =
        some (taken ++ bytes.take remaining, rest) ∧ stream rest = some (bytes.drop remaining) := by
  induction fuel generalizing reader bytes remaining taken with
  | zero =>
    cases Nat.le_zero.mp hFuel
    exact ⟨reader, by rw [readChunks, List.take_zero, List.append_nil], h⟩
  | succ fuel ih =>
    cases remaining with
    | zero => exact ⟨reader, by rw [readChunks, List.take_zero, List.append_nil], h⟩
    | succ remaining =>
      have hCount : min (remaining + 1) limit ≤ bytes.length := by omega
      obtain ⟨next, hRead, hNext⟩ := readExact_of_stream h hCount
      have hLeft : remaining + 1 - min (remaining + 1) limit ≤
          (bytes.drop (min (remaining + 1) limit)).length := by
        rw [List.length_drop]
        omega
      obtain ⟨rest, hChunks, hRest⟩ :=
        ih hNext hLeft (by omega) (taken ++ bytes.take (min (remaining + 1) limit))
      have hSplit : min (remaining + 1) limit +
          (remaining + 1 - min (remaining + 1) limit) = remaining + 1 := by omega
      refine ⟨rest, ?_, ?_⟩
      · rw [readChunks]
        dsimp only
        rw [hRead]
        dsimp only [Option.bind_eq_bind, Option.bind_some]
        rw [hChunks, List.append_assoc, ← List.take_add, hSplit]
      · rw [hRest, List.drop_drop, hSplit]

/-- The stream of `Transfer` is the same one. -/
theorem readDeclared_of_exact {limit : Nat} (hLimit : 0 < limit) {reader : Reader} {size : Int}
    (hSize : 1 ≤ size ∧ size ≤ maxArtifactBytes) {bytes : Bytes}
    (h : Exact reader size.toNat bytes) : readDeclared limit reader size = .ok bytes := by
  obtain ⟨rest, hChunks, hRest⟩ :=
    readChunks_of_stream hLimit h.1 (Nat.le_of_eq h.2.symm) (Nat.le_refl _) []
  rw [List.drop_of_length_le (Nat.le_of_eq h.2)] at hRest
  rw [List.nil_append, List.take_of_length_le (Nat.le_of_eq h.2)] at hChunks
  simp only [readDeclared, bind_eq_ok, require_eq_ok, okOr_eq_ok, pure_eq_ok]
  exact ⟨(), hSize, (bytes, rest), hChunks, 0, readExtra_of_stream hRest, (), rfl, rfl⟩

/-! ## The loop -/

theorem takeExactly_ensures {limit : Nat} (hLimit : 0 < limit)
    {write : Bytes → Procedure CommandFailure σ Unit} {I : Bytes → σ → Prop} {E : σ → Prop}
    (hWrite : ∀ taken chunk, chunk ≠ [] → chunk.length ≤ limit →
      Ensures (I taken) (write chunk) (fun _ => I (taken ++ chunk)) E)
    (hE : ∀ taken s, I taken s → E s) {fuel remaining : Nat} (hFuel : remaining ≤ fuel)
    (reader : Reader) (taken : Bytes) :
    Ensures (I taken) (takeExactly limit write fuel remaining reader)
      (fun rest s => ∃ bytes, bytes.length = remaining ∧
        stream reader = (stream rest).map (bytes ++ ·) ∧ I (taken ++ bytes) s) E := by
  induction fuel generalizing remaining reader taken with
  | zero =>
    cases Nat.le_zero.mp hFuel
    rw [takeExactly]
    refine (Ensures.pure reader).imp (fun s hs => ?_) (fun _ _ h => h) (fun _ h => h)
    exact ⟨[], rfl, by simp, by rwa [List.append_nil]⟩
  | succ fuel ih =>
    cases remaining with
    | zero =>
      rw [takeExactly]
      refine (Ensures.pure reader).imp (fun s hs => ?_) (fun _ _ h => h) (fun _ h => h)
      exact ⟨[], rfl, by simp, by rwa [List.append_nil]⟩
    | succ remaining =>
      rw [takeExactly]
      refine .bind (Q := fun piece s => readExact reader (min (remaining + 1) limit) = some piece ∧
        I taken s) (.ofExcept (fun piece s hRead hs => ⟨okOr_eq_ok.mp hRead, hs⟩) (hE taken)) ?_
      rintro ⟨chunk, rest⟩
      by_cases hRead : readExact reader (min (remaining + 1) limit) = some (chunk, rest)
      · obtain ⟨hLength, hStream⟩ := readExact_stream hRead
        have hChunk : chunk ≠ [] := List.ne_nil_of_length_pos (by omega)
        refine .bind ((hWrite taken chunk hChunk (by omega)).imp (fun _ hs => hs.2) (fun _ _ h => h)
          (fun _ h => h)) fun _ => ?_
        refine (ih (by omega) rest (taken ++ chunk)).imp (fun _ h => h) ?_ (fun _ h => h)
        rintro left s ⟨bytes, hBytes, hRest, hs⟩
        refine ⟨chunk ++ bytes, by rw [List.length_append]; omega, ?_, by rwa [← List.append_assoc]⟩
        rw [hStream, hRest, Option.map_map]
        congr 1
        funext later
        exact (List.append_assoc chunk bytes later).symm
      · exact .intro (fun s _ _ hs => absurd hs.1 hRead) (fun s _ _ hs => absurd hs.1 hRead)

theorem requireEnd_ok {reader : Reader} (h : requireEnd reader = .ok ()) :
    stream reader = some [] := by
  simp only [requireEnd, bind_eq_ok, okOr_eq_ok, require_eq_ok] at h
  obtain ⟨extra, hExtra, rfl⟩ := h
  exact readExtra_stream hExtra

/-- After the loop the stream has ended, or the procedure fails in a state that the loop left. -/
theorem requireEnd_ensures {reader rest : Reader} {size : Nat} {I : Bytes → σ → Prop}
    {E : σ → Prop} (hE : ∀ taken s, I taken s → E s) :
    Ensures (fun s => ∃ bytes, bytes.length = size ∧
        stream reader = (stream rest).map (bytes ++ ·) ∧ I bytes s)
      (.ofExcept (requireEnd rest)) (fun _ s => ∃ bytes, Exact reader size bytes ∧ I bytes s)
      E := by
  refine .ofExcept (fun _ s hEnd hs => ?_) (fun s hs => ?_)
  · obtain ⟨bytes, hLength, hStream, hs⟩ := hs
    rw [requireEnd_ok hEnd, Option.map_some, List.append_nil] at hStream
    exact ⟨bytes, ⟨hStream, hLength⟩, hs⟩
  · obtain ⟨bytes, -, -, hs⟩ := hs
    exact hE bytes s hs

/-! ## The spool -/

/-- What was hashed is what was written. -/
def SpoolFile.Holds (taken : Bytes) (f : SpoolFile) : Prop := f.hashed = taken ∧ f.written = taken

theorem spool_write (taken chunk : Bytes) :
    Ensures (SpoolFile.Holds taken)
      (do
        SpoolFile.update chunk
        SpoolFile.writeAll chunk)
      (fun _ => SpoolFile.Holds (taken ++ chunk)) (fun _ => True) := by
  refine .bind (Q := fun _ f => f.hashed = taken ++ chunk ∧ f.written = taken)
    (.intro (fun f _ _ hf hRun => ?_) (fun _ _ _ _ _ => trivial)) fun _ =>
      .intro (fun f _ _ hf hRun => ?_) (fun _ _ _ _ _ => trivial)
  · cases hRun
    exact ⟨by rw [hf.1], hf.2⟩
  · unfold SpoolFile.writeAll at hRun
    split at hRun
    · cases hRun
      exact ⟨hf.1, by rw [hf.2]⟩
    · cases hRun

theorem spoolInto_ensures (disk : Disk) (reader : Reader) (size : Int) :
    Ensures (SpoolFile.Holds []) (spoolInto disk reader size)
      (fun _ f => (1 ≤ size ∧ size ≤ maxArtifactBytes) ∧
        ∃ bytes, Exact reader size.toNat bytes ∧ f.Holds bytes) (fun _ => True) := by
  have hE : ∀ {P : SpoolFile → Prop}, ∀ s, P s → True := fun _ _ => trivial
  refine .bind (Q := fun _ f => (1 ≤ size ∧ size ≤ maxArtifactBytes) ∧ f.Holds [])
    (.ofExcept (fun _ _ hSize hf => ⟨require_eq_ok.mp hSize, hf⟩) hE) fun _ => ?_
  refine .bind (Q := fun _ f => (1 ≤ size ∧ size ≤ maxArtifactBytes) ∧ f.Holds [])
    (.ofExcept (fun _ _ _ hf => hf) hE) fun _ => ?_
  refine Ensures.of_condition fun hSize => ?_
  refine .bind (takeExactly_ensures (I := SpoolFile.Holds) (by decide)
    (fun taken chunk _ _ => spool_write taken chunk) (fun _ _ _ => trivial) (Nat.le_refl _) reader
    []) fun rest => ?_
  refine .bind (requireEnd_ensures (I := SpoolFile.Holds) (fun _ _ _ => trivial)) fun _ => ?_
  refine .bind (.ofExcept (fun _ _ _ hf => hf) hE) fun _ => ?_
  exact .ofExcept (fun _ _ _ hf => ⟨hSize, hf⟩) hE

theorem spoolExact_ok {env : Env} {disk : Disk} {reader : Reader} {size : Int} {file : Bytes}
    {digest : Digest} (h : spoolExact env disk reader size = .ok (file, digest)) :
    (1 ≤ size ∧ size ≤ maxArtifactBytes) ∧ Exact reader size.toNat file ∧
      digest = env.digestBytes file := by
  unfold spoolExact at h
  split at h
  · rename_i f hRun
    cases h
    obtain ⟨hSize, bytes, hExact, hHashed, hWritten⟩ :=
      (spoolInto_ensures disk reader size).of_ok ⟨rfl, rfl⟩ hRun
    rw [hHashed, hWritten]
    exact ⟨hSize, hExact, rfl⟩
  · cases h

/-- What a disk leaves is what `Transfer` says. -/
theorem spoolExact_refines {env : Env} {disk : Disk} {reader : Reader} {size : Int}
    {spooled : Bytes × Digest} (h : spoolExact env disk reader size = .ok spooled) :
    Masonwing.spoolExact env reader size = .ok spooled := by
  obtain ⟨file, digest⟩ := spooled
  obtain ⟨hSize, hExact, rfl⟩ := spoolExact_ok h
  unfold Masonwing.spoolExact
  rw [readDeclared_of_exact (by decide) hSize hExact]
  rfl

/-! ## The object store -/

section Objects

variable {service : ObjectService} {before : Table String StoredObject} {stage key : String}
  {contentType : String} {reader : Reader} {size : Int}

/-- The parts are the bytes so far, and no object was touched. -/
def Objects.Holds (before : Table String StoredObject) (taken : Bytes) (o : Objects) : Prop :=
  o.stored = before ∧ o.parts.flatten = taken

/-- No object was touched, or the stream was taken to its end. -/
def Objects.Failed (before : Table String StoredObject) (reader : Reader) (size : Int)
    (o : Objects) : Prop :=
  o.stored = before ∨ ∃ bytes, Exact reader size.toNat bytes

theorem putPart_ensures (taken chunk : Bytes) :
    Ensures (Objects.Holds before taken) (Objects.putPart service chunk)
      (fun _ => Objects.Holds before (taken ++ chunk)) (Objects.Failed before reader size) := by
  refine .intro (fun o _ _ ho hRun => ?_) (fun o _ _ ho hRun => ?_)
  · unfold Objects.putPart at hRun
    split at hRun
    · cases hRun
      exact ⟨ho.1, by rw [List.flatten_append, ho.2]; simp⟩
    · cases hRun
  · unfold Objects.putPart at hRun
    split at hRun
    · cases hRun
    · cases hRun
      exact Or.inl ho.1

/-- The stream is staged, and the other objects are as they were. -/
def Objects.Staged (before : Table String StoredObject) (stage contentType : String)
    (bytes : Bytes) (o : Objects) : Prop :=
  o.parts.flatten = bytes ∧
    ∀ k, o.stored.get? k = if k = stage then some { bytes, contentType } else before.get? k

/-- The stream is a new object under its key, and those beside the staged one are as they were. -/
def Objects.Put (before : Table String StoredObject) (stage key contentType : String)
    (bytes : Bytes) (o : Objects) : Prop :=
  o.parts.flatten = bytes ∧ key ≠ stage ∧ before.get? key = none ∧
    ∀ k, k ≠ stage →
      o.stored.get? k = if k = key then some { bytes, contentType } else before.get? k

theorem complete_ensures :
    Ensures (fun o => ∃ bytes, Exact reader size.toNat bytes ∧ Objects.Holds before bytes o)
      (Objects.complete service stage contentType)
      (fun _ o => ∃ bytes, Exact reader size.toNat bytes ∧
        o.Staged before stage contentType bytes)
      (Objects.Failed before reader size) := by
  refine .intro (fun o _ _ ho hRun => ?_) (fun o _ _ ho hRun => ?_)
  · obtain ⟨bytes, hExact, hStored, hParts⟩ := ho
    unfold Objects.complete at hRun
    split at hRun
    · cases hRun
      refine ⟨bytes, hExact, hParts, fun k => ?_⟩
      rw [Table.get?_upsert, hParts, hStored]
    · cases hRun
  · obtain ⟨bytes, hExact, -⟩ := ho
    unfold Objects.complete at hRun
    split at hRun
    · cases hRun
    · cases hRun
      exact Or.inr ⟨bytes, hExact⟩

/-- A copy that is made is one to another key. -/
theorem copyIfNotExists_ensures :
    Ensures (fun o => ∃ bytes, Exact reader size.toNat bytes ∧
        o.Staged before stage contentType bytes)
      (Objects.copyIfNotExists service stage key)
      (fun _ o => ∃ bytes, Exact reader size.toNat bytes ∧
        o.Put before stage key contentType bytes)
      (Objects.Failed before reader size) := by
  refine .intro (fun o _ _ ho hRun => ?_) (fun o _ _ ho hRun => ?_)
  · obtain ⟨bytes, hExact, hParts, hStored⟩ := ho
    have hStaged : o.stored.get? stage = some { bytes, contentType } := by
      rw [hStored, if_pos rfl]
    unfold Objects.copyIfNotExists at hRun
    split at hRun
    · cases hRun
    · rw [hStaged] at hRun
      dsimp only at hRun
      split at hRun
      · cases hRun
      · rename_i stored hInsert
        cases hRun
        have hFree := (Table.insert?_eq_some hInsert).1
        have hKey : key ≠ stage := by
          rintro rfl
          rw [hFree] at hStaged
          cases hStaged
        rw [hStored, if_neg hKey] at hFree
        refine ⟨bytes, hExact, hParts, hKey, hFree, fun k hk => ?_⟩
        rw [Table.insert?_get? hInsert, hStored, if_neg hk]
  · obtain ⟨bytes, hExact, hParts, hStored⟩ := ho
    have hStaged : o.stored.get? stage = some { bytes, contentType } := by
      rw [hStored, if_pos rfl]
    unfold Objects.copyIfNotExists at hRun
    split at hRun
    · cases hRun
      exact Or.inr ⟨bytes, hExact⟩
    · rw [hStaged] at hRun
      dsimp only at hRun
      split at hRun
      · cases hRun
        exact Or.inr ⟨bytes, hExact⟩
      · cases hRun

theorem putStaged_ensures :
    Ensures (Objects.Holds before []) (putStaged service stage key reader size contentType)
      (fun _ o => ∃ bytes, Exact reader size.toNat bytes ∧
        o.Put before stage key contentType bytes)
      (Objects.Failed before reader size) := by
  refine .bind (takeExactly_ensures (I := Objects.Holds before) (by decide)
    (fun taken chunk _ _ => putPart_ensures taken chunk) (fun _ _ ho => Or.inl ho.1)
    (Nat.le_refl _) reader []) fun rest => ?_
  refine .bind (requireEnd_ensures (I := Objects.Holds before) (fun _ _ ho => Or.inl ho.1))
    fun _ => ?_
  exact .bind complete_ensures fun _ => copyIfNotExists_ensures

/-- Removing the staged object creates none and leaves the others. -/
theorem delete_get? (o : Objects) (k : String) :
    (∀ x, (o.delete service stage).stored.get? k = some x → o.stored.get? k = some x) ∧
      (k ≠ stage → (o.delete service stage).stored.get? k = o.stored.get? k) := by
  unfold Objects.delete
  split
  · dsimp only
    rw [Table.get?_erase]
    refine ⟨fun x hx => ?_, fun hk => if_neg hk⟩
    split at hx
    · cases hx
    · exact hx
  · exact ⟨fun _ hx => hx, fun _ => rfl⟩

theorem delete_parts (o : Objects) : (o.delete service stage).parts = o.parts := by
  unfold Objects.delete
  split <;> rfl

/-- What is checked before the store is asked. -/
def ObjectService.Admits (service : ObjectService) (key contentType : String) (size : Int) : Prop :=
  (1 ≤ size ∧ size ≤ maxArtifactBytes) ∧ (key ≠ "" ∧ service.pathValid key = true) ∧
    contentTypeStorable contentType

theorem streamPut_ensures (upload : Uuid) :
    Ensures (Objects.Holds before []) (streamPut service upload key reader size contentType)
      (fun _ o => service.Admits key contentType size ∧ ∃ bytes, Exact reader size.toNat bytes ∧
        o.Put before (stagePath upload) key contentType bytes)
      (fun o => (∀ k x, o.stored.get? k = some x → before.get? k = some x) ∨
        ∃ bytes, Exact reader size.toNat bytes) := by
  have hE : ∀ s, Objects.Holds before [] s →
      (∀ k x, s.stored.get? k = some x → before.get? k = some x) ∨
        ∃ bytes, Exact reader size.toNat bytes := by
    rintro s ⟨hs, -⟩
    rw [hs]
    exact Or.inl fun _ _ hx => hx
  refine .bind (Q := fun _ o => (1 ≤ size ∧ size ≤ maxArtifactBytes) ∧ Objects.Holds before [] o)
    (.ofExcept (fun _ _ hSize ho => ⟨require_eq_ok.mp hSize, ho⟩) hE) fun _ => ?_
  refine Ensures.of_condition fun hSize => ?_
  refine .bind (Q := fun _ o => (key ≠ "" ∧ service.pathValid key = true) ∧
    Objects.Holds before [] o)
    (.ofExcept (fun _ _ hKey ho => ⟨require_eq_ok.mp hKey, ho⟩) hE) fun _ => ?_
  refine Ensures.of_condition fun hKey => ?_
  refine .bind (.ofExcept (fun _ _ _ ho => ho) hE) fun _ => ?_
  refine .bind (Q := fun _ o => contentTypeStorable contentType ∧ Objects.Holds before [] o)
    (.ofExcept (fun _ _ hType ho => ⟨require_eq_ok.mp hType, ho⟩) hE) fun _ => ?_
  refine Ensures.of_condition fun hType => ?_
  refine .bind (.ofExcept (fun _ _ _ ho => ho) hE) fun _ => ?_
  refine .intro (fun o _ _ ho hRun => ?_) (fun o _ _ ho hRun => ?_)
  · rcases hStaged : putStaged service (stagePath upload) key reader size contentType o with
      ⟨result, o'⟩
    rw [hStaged] at hRun
    cases hRun
    obtain ⟨bytes, hExact, hParts, hOther, hFree, hObjects⟩ := putStaged_ensures.of_ok ho hStaged
    refine ⟨⟨hSize, hKey, hType⟩, bytes, hExact, by rw [delete_parts, hParts], hOther, hFree,
      fun k hk => ?_⟩
    rw [(delete_get? o' k).2 hk, hObjects k hk]
  · rcases hStaged : putStaged service (stagePath upload) key reader size contentType o with
      ⟨result, o'⟩
    rw [hStaged] at hRun
    cases hRun
    refine (putStaged_ensures.of_error ho hStaged).imp_left fun hBefore k x hx => ?_
    have hOld := (delete_get? o' k).1 x hx
    rwa [hBefore] at hOld

/-- Beside what was staged, the objects are those of `Transfer`. -/
theorem streamPut_refines {upload : Uuid} {after : Objects}
    (h : streamPut service upload key reader size contentType { stored := before, parts := [] } =
      (.ok (), after)) :
    ∃ objects, Masonwing.streamPut service.pathValid before key reader size contentType =
        .ok objects ∧
      ∀ k, k ≠ stagePath upload → after.stored.get? k = objects.get? k := by
  obtain ⟨⟨hSize, hKey, hType⟩, bytes, hExact, -, -, hFree, hObjects⟩ :=
    (streamPut_ensures upload).of_ok ⟨rfl, rfl⟩ h
  obtain ⟨objects, hInsert⟩ : ∃ objects, before.insert? key { bytes, contentType } = some objects :=
    Table.insert?_isSome_iff.mpr hFree
  refine ⟨objects, ?_, fun k hk => ?_⟩
  · simp only [Masonwing.streamPut, bind_eq_ok, require_eq_ok, okOr_eq_ok]
    exact ⟨(), hSize, (), hKey, (), hType, bytes, readDeclared_of_exact (by decide) hSize hExact,
      hInsert⟩
  · rw [hObjects k hk, Table.insert?_get? hInsert]

end Objects

/-! ## Frames -/

/-- The pieces that a scanner finds before the frame without one, and what stands behind it. -/
def readFrames : Nat → Bytes → Option (List Bytes × Bytes)
  | 0, _ => none
  | fuel + 1, bytes =>
    if bytes.length < 4 then none
    else
      let count := Numerals.value 256 ((bytes.take 4).map UInt8.toNat)
      let rest := bytes.drop 4
      if count = 0 then some ([], rest)
      else if rest.length < count then none
      else (readFrames fuel (rest.drop count)).map fun p => (rest.take count :: p.1, p.2)

/-- What a scanner finds in what was sent, after the command. -/
def scanned (sent : Bytes) : Option (List Bytes × Bytes) :=
  if scanCommand <+: sent then readFrames sent.length (sent.drop scanCommand.length) else none

def writeFrames (frames : List Bytes) : Bytes :=
  frames.flatMap fun f => toBeBytes f.length ++ f

/-- A frame that is not the last one, with a length of thirty-two bits. -/
def Framed (frames : List Bytes) : Prop := ∀ f ∈ frames, f ≠ [] ∧ f.length < 256 ^ 4

theorem length_toBeBytes (n : Nat) : (toBeBytes n).length = 4 := by
  rw [toBeBytes, List.length_map, Numerals.length_digits]

theorem value_toBeBytes {n : Nat} (h : n < 256 ^ 4) :
    Numerals.value 256 ((toBeBytes n).map UInt8.toNat) = n := by
  have hBytes : (toBeBytes n).map UInt8.toNat = Numerals.digits 256 4 n := by
    rw [toBeBytes, List.map_map]
    conv_rhs => rw [← List.map_id (Numerals.digits 256 4 n)]
    refine List.map_congr_left fun d hd => ?_
    have hDigit := Numerals.digits_lt (by decide) 4 n d hd
    rw [Function.comp_apply, UInt8.toNat_ofNat', Nat.mod_eq_of_lt hDigit, id]
  rw [hBytes, Numerals.value_digits (by decide) h]

/-- A scanner that has the length of a piece waits for the whole piece. -/
theorem readFrames_length {n : Nat} (hn : n < 256 ^ 4) (hPositive : n ≠ 0) (fuel : Nat)
    (rest : Bytes) :
    readFrames (fuel + 1) (toBeBytes n ++ rest) =
      if rest.length < n then none
      else (readFrames fuel (rest.drop n)).map fun p => (rest.take n :: p.1, p.2) := by
  rw [readFrames, if_neg (by rw [List.length_append, length_toBeBytes]; omega),
    List.take_left' (length_toBeBytes n), List.drop_left' (length_toBeBytes n), value_toBeBytes hn]
  dsimp only
  rw [if_neg hPositive]

theorem readFrames_writeFrames {frames : List Bytes} (hFramed : Framed frames) {fuel : Nat}
    (hFuel : frames.length < fuel) (rest : Bytes) :
    readFrames fuel (writeFrames frames ++ (toBeBytes 0 ++ rest)) = some (frames, rest) := by
  induction frames generalizing fuel with
  | nil =>
    obtain ⟨fuel, rfl⟩ : ∃ left, fuel = left + 1 := ⟨fuel - 1, by omega⟩
    rw [writeFrames, List.flatMap_nil, List.nil_append, readFrames,
      if_neg (by rw [List.length_append, length_toBeBytes]; omega),
      List.take_left' (length_toBeBytes 0), List.drop_left' (length_toBeBytes 0),
      value_toBeBytes (by decide)]
    rfl
  | cons f frames ih =>
    obtain ⟨fuel, rfl⟩ : ∃ left, fuel = left + 1 := ⟨fuel - 1, by omega⟩
    obtain ⟨hf, hLength⟩ := hFramed f List.mem_cons_self
    have hPositive : f.length ≠ 0 := fun h => hf (List.eq_nil_of_length_eq_zero h)
    rw [writeFrames, List.flatMap_cons, List.append_assoc, List.append_assoc,
      readFrames_length hLength hPositive, if_neg (by rw [List.length_append]; omega),
      List.drop_left, List.take_left]
    rw [List.length_cons] at hFuel
    rw [← writeFrames, ih (fun g hg => hFramed g (List.mem_cons_of_mem f hg)) (by omega)]
    rfl

/-- In a part of the pieces a scanner finds no end. -/
theorem readFrames_unfinished {frames : List Bytes} (hFramed : Framed frames) {front : Bytes}
    (hFront : front <+: writeFrames frames) (fuel : Nat) : readFrames fuel front = none := by
  induction frames generalizing front fuel with
  | nil =>
    cases List.prefix_nil.mp hFront
    cases fuel <;> rfl
  | cons f frames ih =>
    cases fuel with
    | zero => rfl
    | succ fuel =>
      obtain ⟨hf, hLength⟩ := hFramed f List.mem_cons_self
      have hPositive : f.length ≠ 0 := fun h => hf (List.eq_nil_of_length_eq_zero h)
      by_cases hShort : front.length < 4
      · rw [readFrames, if_pos hShort]
      · rw [writeFrames, List.flatMap_cons, ← writeFrames, List.append_assoc] at hFront
        have hHeader : toBeBytes f.length <+: front :=
          List.prefix_of_prefix_length_le (List.prefix_append _ _) hFront
            (by rw [length_toBeBytes]; omega)
        obtain ⟨front, rfl⟩ := hHeader
        rw [List.prefix_append_right_inj] at hFront
        rw [readFrames_length hLength hPositive]
        split
        · rfl
        · rename_i hWhole
          have hPiece : f <+: front :=
            List.prefix_of_prefix_length_le (List.prefix_append _ _) hFront (by omega)
          obtain ⟨front, rfl⟩ := hPiece
          rw [List.prefix_append_right_inj] at hFront
          rw [List.drop_left, ih (fun g hg => hFramed g (List.mem_cons_of_mem f hg)) hFront]
          rfl

/-- A scanner reads the pieces that were sent. -/
theorem scanned_frames {frames : List Bytes} (hFramed : Framed frames) :
    scanned (scanCommand ++ writeFrames frames ++ toBeBytes 0) = some (frames, []) := by
  have hFuel : frames.length ≤ (writeFrames frames).length := by
    induction frames with
    | nil => exact Nat.zero_le _
    | cons f frames ih =>
      have hRest := ih fun g hg => hFramed g (List.mem_cons_of_mem f hg)
      rw [writeFrames, List.flatMap_cons, ← writeFrames, List.length_append, List.length_append,
        length_toBeBytes, List.length_cons]
      omega
  have hEnough : frames.length < (scanCommand ++ writeFrames frames ++ toBeBytes 0).length := by
    simp only [List.length_append, length_toBeBytes]
    omega
  have hRead := readFrames_writeFrames hFramed hEnough []
  rw [scanned, if_pos ⟨writeFrames frames ++ toBeBytes 0, (List.append_assoc _ _ _).symm⟩,
    List.append_assoc, List.drop_left]
  rwa [List.append_nil, List.append_assoc] at hRead

theorem scanned_unfinished {frames : List Bytes} (hFramed : Framed frames) {sent : Bytes}
    (hSent : sent <+: scanCommand ++ writeFrames frames) : scanned sent = none := by
  rw [scanned]
  split
  · rename_i hCommand
    obtain ⟨front, rfl⟩ := hCommand
    rw [List.prefix_append_right_inj] at hSent
    rw [List.drop_left]
    exact readFrames_unfinished hFramed hSent _
  · rfl

/-! ## The reply -/

/-- What arrives before the reader ends or fails. -/
def arriving : Reader → Bytes
  | [] => []
  | .failed :: _ => []
  | .bytes [] :: _ => []
  | .bytes (b :: rest) :: reader => b :: rest ++ arriving reader

/-- The reply up to the first NUL, newline or end. -/
def replyLine (reader : Reader) : Bytes :=
  (arriving reader).takeWhile fun b => decide (b ≠ 0 ∧ b ≠ 10)

theorem readByte_some {reader rest : Reader} {b : UInt8}
    (h : readByte reader = some (some (b, rest))) : arriving reader = b :: arriving rest := by
  unfold readByte at h
  split at h
  · cases h
  · cases h
  · cases h
  · cases h
    rfl
  · cases h
    rfl

theorem readByte_end {reader : Reader} (h : readByte reader = some none) :
    arriving reader = [] := by
  unfold readByte at h
  split at h
  · rfl
  · cases h
  · rfl
  · cases h
  · cases h

theorem readClamdResponse_ok {room : Nat} {reader : Reader} {response line : Bytes}
    (h : readClamdResponse room reader response = .ok line) :
    line = response ++ replyLine reader := by
  induction room generalizing reader response with
  | zero =>
    rw [readClamdResponse] at h
    simp only [bind_eq_ok, okOr_eq_ok] at h
    obtain ⟨next, hNext, h⟩ := h
    cases next with
    | none =>
      simp only [bind_eq_ok, require_eq_ok, pure_eq_ok] at h
      obtain ⟨-, -, rfl⟩ := h
      rw [replyLine, readByte_end hNext, List.takeWhile_nil, List.append_nil]
    | some next =>
      obtain ⟨b, rest⟩ := next
      dsimp only at h
      split at h
      · rename_i hEnd
        simp only [bind_eq_ok, require_eq_ok, pure_eq_ok] at h
        obtain ⟨-, -, rfl⟩ := h
        rw [replyLine, readByte_some hNext, List.takeWhile_cons_of_neg, List.append_nil]
        rw [decide_eq_true_eq]
        tauto
      · cases h
  | succ room ih =>
    rw [readClamdResponse] at h
    simp only [bind_eq_ok, okOr_eq_ok] at h
    obtain ⟨next, hNext, h⟩ := h
    cases next with
    | none =>
      simp only [bind_eq_ok, require_eq_ok, pure_eq_ok] at h
      obtain ⟨-, -, rfl⟩ := h
      rw [replyLine, readByte_end hNext, List.takeWhile_nil, List.append_nil]
    | some next =>
      obtain ⟨b, rest⟩ := next
      dsimp only at h
      split at h
      · rename_i hEnd
        simp only [bind_eq_ok, require_eq_ok, pure_eq_ok] at h
        obtain ⟨-, -, rfl⟩ := h
        rw [replyLine, readByte_some hNext, List.takeWhile_cons_of_neg, List.append_nil]
        rw [decide_eq_true_eq]
        tauto
      · rename_i hMore
        rw [ih h, replyLine, replyLine, readByte_some hNext, List.takeWhile_cons_of_pos,
          List.append_assoc, List.singleton_append]
        rw [decide_eq_true_eq]
        tauto

theorem parseClamdResponse_clean {response : Bytes} (h : parseClamdResponse response = .ok .clean) :
    response = ascii "stream: OK" := by
  simp only [parseClamdResponse, bind_eq_ok, okOr_eq_ok] at h
  obtain ⟨-, -, result, hPrefix, h⟩ := h
  have hResponse := List.append_eq_of_isPrefixOf?_eq_some hPrefix
  split at h
  · rename_i hResult
    rw [← hResponse, hResult]
    rfl
  · simp only [bind_eq_ok, okOr_eq_ok, pure_eq_ok] at h
    obtain ⟨signature, -, hVerdict⟩ := h
    cases hVerdict

/-! ## The scanner -/

section Scanner

variable {scanner : ClamAvScanner} {reader reply : Reader} {size : Nat}

/-- What was sent so far, on a connection with this reply. -/
def Socket.Sent (reply : Reader) (sent : Bytes) (s : Socket) : Prop :=
  s.sent = sent ∧ s.reply = reply

/-- The pieces so far were sent as frames. -/
def Socket.Holds (reply : Reader) (taken : Bytes) (s : Socket) : Prop :=
  ∃ frames, Framed frames ∧ frames.flatten = taken ∧
    s.Sent reply (scanCommand ++ writeFrames frames)

/-- No end was sent, or the stream was taken to its end. -/
def Socket.Failed (reader : Reader) (size : Nat) (s : Socket) : Prop :=
  scanned s.sent = none ∨ ∃ bytes, Exact reader size bytes

theorem writeAll_ensures (sent bytes : Bytes) :
    Ensures (Socket.Sent reply sent) (Socket.writeAll bytes)
      (fun _ => Socket.Sent reply (sent ++ bytes))
      (fun s => ∃ front, front <+: bytes ∧ s.sent = sent ++ front) := by
  refine .intro (fun s _ _ hs hRun => ?_) (fun s _ _ hs hRun => ?_)
  · unfold Socket.writeAll at hRun
    split at hRun
    · cases hRun
      exact ⟨by rw [hs.1], hs.2⟩
    · cases hRun
  · unfold Socket.writeAll at hRun
    split at hRun
    · cases hRun
    · cases hRun
      exact ⟨bytes.take s.room, List.take_prefix _ _, by rw [hs.1]⟩

theorem writeFrame_ensures {frames : List Bytes} (hFramed : Framed frames) {chunk : Bytes}
    (hChunk : chunk ≠ [] ∧ chunk.length < 256 ^ 4) :
    Ensures (Socket.Sent reply (scanCommand ++ writeFrames frames)) (Socket.writeFrame chunk)
      (fun _ => Socket.Sent reply (scanCommand ++ writeFrames (frames ++ [chunk])))
      (Socket.Failed reader size) := by
  have hMore : Framed (frames ++ [chunk]) := by
    intro f hf
    rcases List.mem_append.mp hf with hf | hf
    · exact hFramed f hf
    · rw [List.mem_singleton.mp hf]
      exact hChunk
  have hFrames : writeFrames (frames ++ [chunk]) =
      writeFrames frames ++ (toBeBytes chunk.length ++ chunk) := by
    rw [writeFrames, List.flatMap_append, ← writeFrames, List.flatMap_singleton]
  have hPart : ∀ front, front <+: toBeBytes chunk.length ++ chunk → ∀ s : Socket,
      s.sent = scanCommand ++ writeFrames frames ++ front → Socket.Failed reader size s := by
    intro front hFront s hs
    refine Or.inl (scanned_unfinished hMore ?_)
    rw [hs, hFrames, List.append_assoc, List.prefix_append_right_inj,
      List.prefix_append_right_inj]
    exact hFront
  refine .bind ((writeAll_ensures _ (toBeBytes chunk.length)).imp (fun _ hs => hs) (fun _ _ h => h)
    ?_) fun _ => (writeAll_ensures _ chunk).imp (fun _ hs => hs) (fun _ s hs => ?_) ?_
  · rintro s ⟨front, hFront, hs⟩
    exact hPart front (hFront.trans (List.prefix_append _ _)) s hs
  · rwa [hFrames, ← List.append_assoc, ← List.append_assoc]
  · rintro s ⟨front, hFront, hs⟩
    exact hPart (toBeBytes chunk.length ++ front) ((List.prefix_append_right_inj _).mpr hFront) s
      (by rw [hs, List.append_assoc (scanCommand ++ writeFrames frames)])

theorem streamScan_ensures :
    Ensures (Socket.Sent reply []) (streamScan scanner reader size)
      (fun verdict s => ∃ bytes, Exact reader size bytes ∧ (verdict = .clean → ∃ frames,
        scanned s.sent = some (frames, []) ∧ frames.flatten = bytes ∧ (∀ f ∈ frames, f ≠ []) ∧
        replyLine reply = ascii "stream: OK"))
      (Socket.Failed reader size) := by
  have hNothing : ∀ s : Socket, s.Sent reply [] → Socket.Failed reader size s := by
    rintro s ⟨hs, -⟩
    refine Or.inl ?_
    rw [hs]
    rfl
  have hLimit : 0 < min scanner.chunkBytes scanBufferBytes :=
    lt_min scanner.chunkBytes_pos (by decide)
  have hHolds : ∀ taken s, Socket.Holds reply taken s → Socket.Failed reader size s := by
    rintro taken s ⟨frames, hFramed, -, hs, -⟩
    exact Or.inl (scanned_unfinished hFramed (by rw [hs]))
  refine .bind (.ofExcept (fun _ _ _ hs => hs) hNothing) fun _ => ?_
  refine .bind (Q := fun _ => Socket.Sent reply [])
    (.intro (fun s _ _ hs hRun => ?_) (fun s _ _ hs hRun => ?_)) fun _ => ?_
  · cases (Prod.mk.inj hRun).2
    exact hs
  · cases (Prod.mk.inj hRun).2
    exact hNothing s hs
  refine .bind (Q := fun _ => Socket.Holds reply [])
    ((writeAll_ensures [] scanCommand).imp (fun _ hs => hs) (fun _ s hs => ?_) ?_) fun _ => ?_
  · exact ⟨[], fun f hf => (by cases hf), rfl, hs⟩
  · rintro s ⟨front, hFront, hs⟩
    have hNone : Framed [] := fun f hf => (by cases hf)
    refine Or.inl (scanned_unfinished hNone ?_)
    rw [hs]
    exact hFront.trans (List.prefix_append _ _)
  refine .bind (takeExactly_ensures (I := Socket.Holds reply) hLimit ?_ hHolds (Nat.le_refl _)
    reader []) fun rest => ?_
  · intro taken chunk hChunk hLength
    refine .of_exists fun frames => ?_
    refine .of_condition fun hFramed => .of_condition fun hTaken => ?_
    have hWord : chunk.length < 256 ^ 4 :=
      lt_of_le_of_lt (hLength.trans (min_le_right _ _)) (by decide)
    refine (writeFrame_ensures hFramed ⟨hChunk, hWord⟩).imp (fun _ hs => hs) (fun _ s hs => ?_)
      (fun _ h => h)
    refine ⟨frames ++ [chunk], ?_, by rw [List.flatten_append, hTaken]; simp, hs⟩
    intro f hf
    rcases List.mem_append.mp hf with hf | hf
    · exact hFramed f hf
    · rw [List.mem_singleton.mp hf]
      exact ⟨hChunk, hWord⟩
  refine .bind (requireEnd_ensures (I := Socket.Holds reply) hHolds) fun _ => ?_
  refine .of_exists fun bytes => .of_condition fun hExact => .of_exists fun frames =>
    .of_condition fun hFramed => .of_condition fun hTaken => ?_
  have hDone : ∀ s : Socket, Socket.Failed reader size s := fun _ => Or.inr ⟨bytes, hExact⟩
  refine .bind ((writeAll_ensures _ (toBeBytes 0)).imp (fun _ hs => hs) (fun _ _ h => h)
    fun s _ => hDone s) fun _ => ?_
  refine .bind (Q := fun _ => Socket.Sent reply (scanCommand ++ writeFrames frames ++ toBeBytes 0))
    (.intro (fun s _ _ hs hRun => ?_) (fun s _ _ _ _ => hDone _)) fun _ => ?_
  · cases (Prod.mk.inj hRun).2
    exact hs
  refine .bind (Q := fun response s => response = replyLine reply ∧
    s.Sent reply (scanCommand ++ writeFrames frames ++ toBeBytes 0))
    (.intro (fun s response _ hs hRun => ?_) (fun s _ _ _ _ => hDone _)) fun response => ?_
  · obtain ⟨hResponse, rfl⟩ := Prod.mk.inj hRun
    refine ⟨?_, hs⟩
    rw [readClamdResponse_ok hResponse, List.nil_append, hs.2]
  refine .ofExcept (fun verdict s hParse hs => ⟨bytes, hExact, fun hClean => ?_⟩)
    (fun s _ => hDone s)
  subst hClean
  refine ⟨frames, ?_, hTaken, fun f hf => (hFramed f hf).1, ?_⟩
  · rw [hs.2.1]
    exact scanned_frames hFramed
  · rw [← hs.1]
    exact parseClamdResponse_clean hParse

end Scanner

/-- A spool file, an object and a clean verdict are there only for a stream of exactly the declared
length, and are about its bytes; for any other stream no object is created and no end is sent. -/
theorem streaming_exact :
    (∀ env disk reader size file digest,
      spoolExact env disk reader size = .ok (file, digest) →
      (1 ≤ size ∧ size ≤ maxArtifactBytes) ∧ Exact reader size.toNat file ∧
        digest = env.digestBytes file) ∧
    (∀ service upload key reader size contentType stored after,
      streamPut service upload key reader size contentType { stored, parts := [] } =
        (.ok (), after) →
      (1 ≤ size ∧ size ≤ maxArtifactBytes) ∧ ∃ bytes, Exact reader size.toNat bytes ∧
        after.parts.flatten = bytes ∧ after.stored.get? key = some { bytes, contentType }) ∧
    (∀ scanner reader size connects room flushes reply after,
      streamScan scanner reader size { connects, sent := [], room, flushes, reply } =
        (.ok .clean, after) →
      ∃ bytes frames, Exact reader size bytes ∧ scanned after.sent = some (frames, []) ∧
        frames.flatten = bytes ∧ (∀ f ∈ frames, f ≠ []) ∧
        replyLine reply = ascii "stream: OK") ∧
    (∀ service upload key reader size contentType stored,
      (¬ ∃ bytes, Exact reader size.toNat bytes) →
      ∃ e after, streamPut service upload key reader size contentType { stored, parts := [] } =
          (.error e, after) ∧
        ∀ k object, after.stored.get? k = some object → stored.get? k = some object) ∧
    ∀ scanner reader size connects room flushes reply, (¬ ∃ bytes, Exact reader size bytes) →
      ∃ e after, streamScan scanner reader size { connects, sent := [], room, flushes, reply } =
          (.error e, after) ∧
        scanned after.sent = none := by
  refine ⟨fun _ _ _ _ _ _ => spoolExact_ok, ?_, ?_, ?_, ?_⟩
  · intro service upload key reader size contentType stored after hRun
    obtain ⟨hAdmits, bytes, hExact, hParts, hKey, -, hObjects⟩ :=
      (streamPut_ensures upload).of_ok ⟨rfl, rfl⟩ hRun
    exact ⟨hAdmits.1, bytes, hExact, hParts, by rw [hObjects key hKey, if_pos rfl]⟩
  · intro scanner reader size connects room flushes reply after hRun
    obtain ⟨bytes, hExact, hClean⟩ := streamScan_ensures.of_ok ⟨rfl, rfl⟩ hRun
    obtain ⟨frames, hFrames⟩ := hClean rfl
    exact ⟨bytes, frames, hExact, hFrames⟩
  · intro service upload key reader size contentType stored hOther
    rcases hRun : streamPut service upload key reader size contentType { stored, parts := [] } with
      ⟨e | _, after⟩
    · exact ⟨e, after, rfl,
        ((streamPut_ensures upload).of_error ⟨rfl, rfl⟩ hRun).resolve_right hOther⟩
    · obtain ⟨-, bytes, hExact, -⟩ := (streamPut_ensures upload).of_ok ⟨rfl, rfl⟩ hRun
      exact absurd ⟨bytes, hExact⟩ hOther
  · intro scanner reader size connects room flushes reply hOther
    rcases hRun : streamScan scanner reader size { connects, sent := [], room, flushes, reply } with
      ⟨e | verdict, after⟩
    · exact ⟨e, after, rfl, (streamScan_ensures.of_error ⟨rfl, rfl⟩ hRun).resolve_right hOther⟩
    · obtain ⟨bytes, hExact, -⟩ := streamScan_ensures.of_ok ⟨rfl, rfl⟩ hRun
      exact absurd ⟨bytes, hExact⟩ hOther

end Streaming

open Streaming

namespace Sample

/-- Three bytes in two reads. -/
def threeBytes : Reader := [.bytes [1, 2], .bytes [3]]

def objectService : ObjectService :=
  { pathValid := fun _ => true, opens := none, accepts := fun _ => none, completes := none
    copies := none, deletes := true }

def spoolDisk : Disk := { creates := true, room := 10, flushes := true, rewinds := true }

/-- A scanner that takes pieces of two bytes. -/
def pieceScanner : ClamAvScanner :=
  { maxScanBytes := 10, chunkBytes := 2, maxScanBytes_pos := by decide
    chunkBytes_pos := by decide, chunkBytes_le := by decide }

def scannerSocket : Socket :=
  { connects := true, sent := [], room := 40, flushes := true
    reply := [.bytes (ascii "stream: OK" ++ [0])] }

def putThree (size : Int) : Except CommandFailure Unit × Objects :=
  Streaming.streamPut objectService (uuid 1) "object" threeBytes size "text/plain"
    { stored := .empty, parts := [] }

end Sample

theorem stream_threeBytes {size : Nat} (hSize : size ≠ 3) :
    ¬ ∃ bytes, Exact Sample.threeBytes size bytes := by
  rintro ⟨bytes, hStream, hLength⟩
  have hBytes : stream Sample.threeBytes = some [1, 2, 3] := rfl
  cases hBytes.symm.trans hStream
  exact hSize hLength.symm

theorem streaming_exact_three :
    (∃ file digest, Exact Sample.threeBytes 3 file ∧ digest = Sample.env.digestBytes file) ∧
    (∃ bytes, Exact Sample.threeBytes 3 bytes ∧
      (Sample.putThree 3).2.stored.get? "object" =
        some { bytes, contentType := "text/plain" }) ∧
    (∃ frames, Exact Sample.threeBytes 3 frames.flatten ∧
      scanned (streamScan Sample.pieceScanner Sample.threeBytes 3 Sample.scannerSocket).2.sent =
        some (frames, [])) ∧
    (∃ e after, Sample.putThree 2 = (.error e, after) ∧
      ∀ k object, after.stored.get? k = some object →
        (Table.empty : Table String StoredObject).get? k = some object) ∧
    ∃ e after, streamScan Sample.pieceScanner Sample.threeBytes 4 Sample.scannerSocket =
        (.error e, after) ∧ scanned after.sent = none := by
  obtain ⟨hSpool, hPut, hScan, hOther, hUnsent⟩ := streaming_exact
  have hFile :
      (Streaming.spoolExact Sample.env Sample.spoolDisk Sample.threeBytes 3).toOption.isSome =
        true := by decide
  have hObject : (Sample.putThree 3).1 = .ok () := by rfl
  have hClean : (streamScan Sample.pieceScanner Sample.threeBytes 3 Sample.scannerSocket).1 =
      .ok .clean := by decide +kernel
  refine ⟨?_, ?_, ?_, ?_, ?_⟩
  · rcases hRun : Streaming.spoolExact Sample.env Sample.spoolDisk Sample.threeBytes 3 with
      e | ⟨file, digest⟩
    · rw [hRun] at hFile
      cases hFile
    · exact ⟨file, digest, (hSpool _ _ _ _ _ _ hRun).2⟩
  · obtain ⟨-, bytes, hExact, -, hStored⟩ := hPut _ _ _ _ _ _ _ _ (Prod.ext hObject rfl)
    exact ⟨bytes, hExact, hStored⟩
  · obtain ⟨bytes, frames, hExact, hFrames, hFlat, -⟩ :=
      hScan _ _ _ _ _ _ _ _ (Prod.ext hClean rfl)
    exact ⟨frames, by rwa [hFlat], hFrames⟩
  · exact hOther _ _ _ _ _ _ _ (stream_threeBytes (by decide))
  · exact hUnsent _ _ _ _ _ _ _ (stream_threeBytes (by decide))

end Masonwing
