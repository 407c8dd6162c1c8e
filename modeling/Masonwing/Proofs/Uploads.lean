import Masonwing.Proofs.Evaluation
import Masonwing.Proofs.Transfers

/-!
# Uploaded bytes

`uploads_exact`: in every run of the host with attempts in flight, the artifact of an upload is
active only with an object under its storage key that has the declared size and digest, passed the
check of its type and was scanned clean. The storage key is changed once at most, by the attempt
that took the upload to `UPLOADED`; an attempt whose lease has expired or was taken over is refused.
-/

namespace Masonwing

open Outcome

variable {ι ν ε : Type}

/-! ## Rows -/

/-- The steps between the states of an upload. -/
inductive UploadState.Follows : UploadState → UploadState → Prop
  | kept (s : UploadState) : Follows s s
  | settled {s' : UploadState} (h : s' = .uploaded ∨ s' = .failed ∨ s' = .expired) :
      Follows .opened s'
  | finalized : Follows .uploaded .finalized

/-- A row of an upload stays that of its artifact. -/
structure UploadRow.Keeps (u u' : UploadRow) : Prop where
  artifact : u'.artifactId = u.artifactId
  state : u.state.Follows u'.state

theorem UploadRow.Keeps.refl (u : UploadRow) : u.Keeps u := ⟨rfl, .kept u.state⟩

theorem UploadState.Follows.left {s s' : UploadState} (h : s.Follows s') (hs : s ≠ .opened) :
    s' ≠ .opened := by
  cases h with
  | kept => exact hs
  | settled => exact absurd rfl hs
  | finalized => exact UploadState.noConfusion

/-- No upload is lost, and every row was there before or is that of an upload just begun. -/
structure UploadsKept (t t' : Tables) : Prop where
  kept : ∀ k u, t.uploads.get? k = some u → ∃ u', t'.uploads.get? k = some u' ∧ u.Keeps u'
  sourced : ∀ k u', t'.uploads.get? k = some u' →
    (∃ u, t.uploads.get? k = some u ∧ u.Keeps u') ∨ UploadBegun t t' k u'
  declared : ∀ id a, t.journal.artifacts.get? id = some a →
    ∃ a', t'.journal.artifacts.get? id = some a' ∧ a'.declared = a.declared

section Rows

variable {tick : Tick} {t t' : Tables} {attempts attempts' : List UploadAttempt}

theorem KeptBut.declared {j j' : Journal} (h : KeptBut none j j') {id : Uuid} {a : ArtifactRow}
    (ha : j.artifacts.get? id = some a) :
    ∃ a', j'.artifacts.get? id = some a' ∧ a'.declared = a.declared := by
  obtain ⟨a', ha', hKept⟩ := h id a ha (Option.some_ne_none id).symm
  exact ⟨a', ha', hKept.declared⟩

/-- One row is replaced by one that keeps its artifact. -/
theorem UploadsKept.of_set {k : Uuid} {u u' : UploadRow} (hFound : t.uploads.get? k = some u)
    (hKeeps : u.Keeps u') (h : t'.uploads = t.uploads.set k u')
    (hDeclared : ∀ id a, t.journal.artifacts.get? id = some a →
      ∃ a', t'.journal.artifacts.get? id = some a' ∧ a'.declared = a.declared) :
    UploadsKept t t' := by
  refine ⟨fun other v hv => ?_, fun other v' hv' => ?_, hDeclared⟩
  · rw [h]
    by_cases hSame : other = k
    · subst hSame
      cases hFound.symm.trans hv
      exact ⟨u', Table.get?_set_self hFound u', hKeeps⟩
    · exact ⟨v, (Table.get?_set_ne _ hSame u').trans hv, .refl v⟩
  · rw [h] at hv'
    rcases Table.get?_set_cases hv' with ⟨rfl, rfl⟩ | ⟨-, hOld⟩
    · exact Or.inl ⟨u, hFound, hKeeps⟩
    · exact Or.inl ⟨v', hOld, .refl v'⟩

theorem AttemptSettled.declared {tenant : Uuid} {claim : UploadClaim} {outcome : Result Digest}
    {u' : UploadRow} {a a' : ArtifactRow} (h : AttemptSettled tenant claim outcome u' a a') :
    a'.declared = a.declared := by
  cases h with
  | staged hOutcome hUploaded hPending hStaged => rw [hStaged]; rfl
  | late hOutcome hUploaded hPending hKept => rw [hKept]
  | failed hState hKept => exact hKept.declared

theorem UploadCompleted.declared {claim : UploadClaim} {outcome : Result Digest} {now : Int}
    {u u' : UploadRow} (h : UploadCompleted t t' claim outcome now u u') {id : Uuid}
    {a : ArtifactRow} (ha : t.journal.artifacts.get? id = some a) :
    ∃ a', t'.journal.artifacts.get? id = some a' ∧ a'.declared = a.declared := by
  by_cases hSame : id = claim.artifact
  · subst hSame
    obtain ⟨a', ha', hSettled⟩ := h.settled a ha
    exact ⟨a', ha', hSettled.declared⟩
  · obtain ⟨a', ha', hKept⟩ := h.others id a ha fun hEq => hSame (Option.some.inj hEq).symm
    exact ⟨a', ha', hKept.declared⟩

theorem UploadFinalized.artifacts {k : Uuid} {u u' : UploadRow} {a : ArtifactRow}
    (h : UploadFinalized t t' k u u' a) {id : Uuid} {b : ArtifactRow}
    (hb : t.journal.artifacts.get? id = some b) :
    ∃ b', t'.journal.artifacts.get? id = some b' ∧ b'.declared = b.declared ∧
      b'.storageKey = b.storageKey ∧ (id ≠ u.artifactId → b' = b) := by
  obtain ⟨version, hActivated⟩ := h.activated
  rw [hActivated]
  by_cases hSame : id = u.artifactId
  · subst hSame
    cases hb.symm.trans h.stored
    exact ⟨_, Table.get?_set_self hb _, rfl, rfl, fun hNe => absurd rfl hNe⟩
  · exact ⟨b, (Table.get?_set_ne _ hSame _).trans hb, rfl, rfl, fun _ => rfl⟩

theorem UploadMove.uploadsKept {op : HostOperation ι ε}
    (h : UploadMove tick t attempts op t' attempts') : UploadsKept t t' := by
  cases h with
  | kept hUploads hArtifacts =>
    refine ⟨fun k u hu => ⟨u, ?_, .refl u⟩, fun k u hu => Or.inl ⟨u, ?_, .refl u⟩,
      fun id a ha => hArtifacts.declared ha⟩
    · rw [hUploads]
      exact hu
    · rw [← hUploads]
      exact hu
  | begun hBegun hArtifacts =>
    refine ⟨fun k u hu => ?_, fun k u hu => ?_, fun id a ha => hArtifacts.declared ha⟩
    · exact ⟨u, Table.insert?_get?_of_some hBegun.inserted hu, .refl u⟩
    · rcases Table.insert?_get?_cases hBegun.inserted hu with ⟨rfl, rfl⟩ | ⟨-, hOld⟩
      · exact Or.inr hBegun
      · exact Or.inl ⟨u, hOld, .refl u⟩
  | claimed hClaimed =>
    obtain ⟨u, a, hFound, -, -, -, -, rfl⟩ := hClaimed.written
    refine UploadsKept.of_set hFound ?_ rfl fun id b hb => ⟨b, hb, rfl⟩
    exact ⟨rfl, .kept u.state⟩
  | completed hAttempt hCompleted =>
    refine .of_set hCompleted.found ⟨hCompleted.artifact, ?_⟩ hCompleted.uploads
      fun id a ha => hCompleted.declared ha
    rw [hCompleted.opened]
    rcases hCompleted.states with hOpened | hSettled
    · rw [hOpened]
      exact .kept _
    · exact .settled hSettled
  | finalized hFinalized hUploads hArtifacts =>
    refine .of_set hFinalized.found ⟨hFinalized.artifact, ?_⟩
      (hUploads.trans hFinalized.uploads) fun id b hb => ?_
    · rw [hFinalized.uploaded, hFinalized.finalized]
      exact .finalized
    · obtain ⟨b', hb', hDeclared, -⟩ := hFinalized.artifacts hb
      exact ⟨b', hArtifacts id b' hb', hDeclared⟩

/-- The attempts so far stay where they are. -/
theorem UploadMove.grows {op : HostOperation ι ε}
    (h : UploadMove tick t attempts op t' attempts') : attempts <+: attempts' := by
  cases h with
  | kept => exact List.prefix_rfl
  | begun => exact List.prefix_rfl
  | claimed => exact List.prefix_append attempts _
  | completed => exact List.prefix_rfl
  | finalized => exact List.prefix_rfl

theorem UploadMove.attempt_kept {op : HostOperation ι ε}
    (h : UploadMove tick t attempts op t' attempts') {n : Nat} {x : UploadAttempt}
    (hx : attempts[n]? = some x) : attempts'[n]? = some x := by
  obtain ⟨hBound, -⟩ := List.getElem?_eq_some_iff.mp hx
  obtain ⟨rest, rfl⟩ := h.grows
  rw [List.getElem?_append_left hBound]
  exact hx

end Rows

/-! ## Links -/

/-- What a claim says of its upload and of the artifact. -/
def UploadClaim.Known (t : Tables) (claim : UploadClaim) : Prop :=
  ∃ u a, t.uploads.get? claim.upload = some u ∧ u.artifactId = claim.artifact ∧
    t.journal.artifacts.get? claim.artifact = some a ∧ a.declared = claim.declared

/-- Every upload has an artifact of its own, and every attempt knows both. -/
structure UploadsLinked (t : Tables) (attempts : List UploadAttempt) : Prop where
  single : ∀ k u k' u', t.uploads.get? k = some u → t.uploads.get? k' = some u' →
    u.artifactId = u'.artifactId → k = k'
  stored : ∀ k u, t.uploads.get? k = some u → ∃ a, t.journal.artifacts.get? u.artifactId = some a
  known : ∀ x ∈ attempts, x.claim.Known t

section Links

variable {tick : Tick} {t t' : Tables} {attempts attempts' : List UploadAttempt}

theorem UploadClaim.Known.kept {claim : UploadClaim} (h : claim.Known t) (hKept : UploadsKept t t') :
    claim.Known t' := by
  obtain ⟨u, a, hu, hArtifact, ha, hDeclared⟩ := h
  obtain ⟨u', hu', hKeeps⟩ := hKept.kept _ u hu
  obtain ⟨a', ha', hSame⟩ := hKept.declared _ a ha
  exact ⟨u', a', hu', hKeeps.artifact.trans hArtifact, ha', hSame.trans hDeclared⟩

/-- The artifact of an upload just begun is that of no other. -/
theorem UploadsKept.fresh {k k' : Uuid} {u u' : UploadRow} (h : UploadsKept t t')
    (hBegun : UploadBegun t t' k u) (hu' : t'.uploads.get? k' = some u')
    (hSame : u'.artifactId = u.artifactId) : k' = k := by
  rcases h.sourced k' u' hu' with ⟨v, hv, hKeeps⟩ | hOther
  · exact absurd (hKeeps.artifact.symm.trans hSame) (hBegun.alone k' v hv)
  · by_contra hNe
    have hNone : t.uploads.get? k' = none := Table.insert?_isSome_iff.mp ⟨_, hOther.inserted⟩
    rcases Table.insert?_get?_cases hBegun.inserted hu' with ⟨hKey, -⟩ | ⟨-, hOld⟩
    · exact hNe hKey
    · cases hNone.symm.trans hOld

theorem UploadMove.linked {op : HostOperation ι ε}
    (h : UploadMove tick t attempts op t' attempts') (hLinked : UploadsLinked t attempts) :
    UploadsLinked t' attempts' := by
  have hKept := h.uploadsKept
  constructor
  · intro k u k' u' hu hu' hSame
    rcases hKept.sourced k u hu with ⟨v, hv, hKeeps⟩ | hBegun
    · rcases hKept.sourced k' u' hu' with ⟨v', hv', hKeeps'⟩ | hBegun'
      · apply hLinked.single k v k' v' hv hv'
        rw [← hKeeps.artifact, ← hKeeps'.artifact]
        exact hSame
      · exact hKept.fresh hBegun' hu hSame
    · exact (hKept.fresh hBegun hu' hSame.symm).symm
  · intro k u hu
    rcases hKept.sourced k u hu with ⟨v, hv, hKeeps⟩ | hBegun
    · obtain ⟨a, ha⟩ := hLinked.stored k v hv
      obtain ⟨a', ha', -⟩ := hKept.declared _ a ha
      exact ⟨a', hKeeps.artifact ▸ ha'⟩
    · obtain ⟨a, ha, -⟩ := hBegun.stored
      exact ⟨a, ha⟩
  · intro x hx
    have hOld : ∀ y ∈ attempts, y.claim.Known t' := fun y hy => (hLinked.known y hy).kept hKept
    cases h with
    | claimed hClaimed =>
      rcases List.mem_append.mp hx with hx | hx
      · exact hOld x hx
      · rw [List.mem_singleton.mp hx]
        obtain ⟨u, a, hFound, -, hArtifact, ha, hDeclared, rfl⟩ := hClaimed.written
        exact ⟨_, a, Table.get?_set_self hFound _, hArtifact, ha, hDeclared⟩
    | kept => exact hOld x hx
    | begun => exact hOld x hx
    | completed => exact hOld x hx
    | finalized => exact hOld x hx

end Links

/-! ## Leases -/

/-- The lease is that of the last attempt on the upload. -/
def LastLease (attempts : List UploadAttempt) (upload lease : Uuid) : Prop :=
  ∃ earlier x later, attempts = earlier ++ x :: later ∧ x.claim.upload = upload ∧
    x.claim.lease = lease ∧ ∀ y ∈ later, y.claim.upload ≠ upload

def UploadsLeased (t : Tables) (attempts : List UploadAttempt) : Prop :=
  ∀ k u lease, t.uploads.get? k = some u → u.leaseId = some lease → LastLease attempts k lease

section Leases

variable {tick : Tick} {t t' : Tables} {attempts attempts' : List UploadAttempt}

theorem LastLease.append {upload lease : Uuid} (h : LastLease attempts upload lease)
    {y : UploadAttempt} (hy : y.claim.upload ≠ upload) :
    LastLease (attempts ++ [y]) upload lease := by
  obtain ⟨earlier, x, later, rfl, hUpload, hLease, hLater⟩ := h
  refine ⟨earlier, x, later ++ [y], ?_, hUpload, hLease, fun z hz => ?_⟩
  · rw [List.append_assoc, List.cons_append]
  · rcases List.mem_append.mp hz with hz | hz
    · exact hLater z hz
    · rw [List.mem_singleton.mp hz]
      exact hy

/-- With distinct leases, the attempt that holds one has no later attempt on its upload. -/
theorem LastLease.not_taken {upload lease : Uuid} (h : LastLease attempts upload lease)
    (hDistinct : (attempts.map fun x => x.claim.lease).Nodup) {n m : Nat} {x y : UploadAttempt}
    (hx : attempts[n]? = some x) (hLease : x.claim.lease = lease) (hy : attempts[m]? = some y)
    (hLater : n < m) : y.claim.upload ≠ upload := by
  obtain ⟨earlier, z, later, rfl, -, hHeld, hOthers⟩ := h
  have hMid : (earlier ++ z :: later)[earlier.length]? = some z := by
    rw [List.getElem?_append_right (Nat.le_refl _), Nat.sub_self]
    rfl
  have hIndex : n = earlier.length := by
    obtain ⟨hBound, -⟩ := List.getElem?_eq_some_iff.mp hx
    apply (List.getElem?_inj ((List.length_map _).symm ▸ hBound) hDistinct).mp
    rw [List.getElem?_map, List.getElem?_map, hx, hMid, Option.map_some, Option.map_some, hLease,
      hHeld]
  subst hIndex
  rw [List.getElem?_append_right hLater.le] at hy
  obtain ⟨gap, hGap⟩ : ∃ gap, m - earlier.length = gap + 1 := ⟨m - earlier.length - 1, by omega⟩
  rw [hGap, List.getElem?_cons_succ] at hy
  exact hOthers y (List.mem_of_getElem? hy)

theorem UploadMove.leased {op : HostOperation ι ε}
    (h : UploadMove tick t attempts op t' attempts') (hLeased : UploadsLeased t attempts) :
    UploadsLeased t' attempts' := by
  intro k u' lease hu' hLease
  cases h with
  | kept hUploads hArtifacts =>
    rw [hUploads] at hu'
    exact hLeased k u' lease hu' hLease
  | begun hBegun hArtifacts =>
    rcases Table.insert?_get?_cases hBegun.inserted hu' with ⟨rfl, rfl⟩ | ⟨-, hOld⟩
    · cases hBegun.unleased.symm.trans hLease
    · exact hLeased k u' lease hOld hLease
  | claimed hClaimed =>
    obtain ⟨u, a, hFound, -, -, -, -, rfl⟩ := hClaimed.written
    rcases Table.get?_set_cases hu' with ⟨rfl, rfl⟩ | ⟨hNe, hOld⟩
    · exact ⟨attempts, _, [], rfl, rfl, Option.some.inj hLease, by simp⟩
    · exact (hLeased k u' lease hOld hLease).append (Ne.symm hNe)
  | completed hAttempt hCompleted =>
    rw [hCompleted.uploads] at hu'
    rcases Table.get?_set_cases hu' with ⟨rfl, rfl⟩ | ⟨-, hOld⟩
    · cases hCompleted.unleased.symm.trans hLease
    · exact hLeased k u' lease hOld hLease
  | finalized hFinalized hUploads hArtifacts =>
    rw [hUploads, hFinalized.uploads] at hu'
    rcases Table.get?_set_cases hu' with ⟨rfl, rfl⟩ | ⟨-, hOld⟩
    · exact hLeased k _ lease hFinalized.found (hFinalized.lease.symm.trans hLease)
    · exact hLeased k u' lease hOld hLease

end Leases

/-! ## Objects -/

/-- Whether an upload with its artifact rests on an object. -/
def UploadRow.Rests (u : UploadRow) (a : ArtifactRow) : Prop :=
  u.state = .uploaded ∧ a.state = .pending ∨ a.state = .active

def UploadsVerified (d : Deposit ι ν ε) (Clean : Bytes → Prop) (t : Tables)
    (objects : Table String StoredObject) : Prop :=
  ∀ k u a, t.uploads.get? k = some u → t.journal.artifacts.get? u.artifactId = some a →
    u.Rests a → d.StoredAt Clean objects a.storageKey a.declared

section Objects

variable {d : Deposit ι ν ε} {Clean : Bytes → Prop} {tick : Tick} {t t' : Tables}
  {attempts attempts' : List UploadAttempt} {objects : Table String StoredObject}

/-- An upload whose row stays, and whose artifact is kept. -/
theorem UploadsVerified.kept (h : UploadsVerified d Clean t objects)
    (hLinked : UploadsLinked t attempts) {k : Uuid} {u : UploadRow} {a' : ArtifactRow}
    {but : Option Uuid} (hu : t.uploads.get? k = some u)
    (hArtifacts : KeptBut but t.journal t'.journal) (hBut : but ≠ some u.artifactId)
    (ha' : t'.journal.artifacts.get? u.artifactId = some a') (hRests : u.Rests a') :
    d.StoredAt Clean objects a'.storageKey a'.declared := by
  obtain ⟨a, ha⟩ := hLinked.stored k u hu
  obtain ⟨b, hb, hKept⟩ := hArtifacts _ a ha hBut
  cases ha'.symm.trans hb
  rw [hKept.storageKey, hKept.declared]
  exact h k u a hu ha (hRests.imp (And.imp_right hKept.pending) hKept.active)

theorem UploadsVerified.completed (h : UploadsVerified d Clean t objects)
    (hLinked : UploadsLinked t attempts) {x : UploadAttempt} (hx : x ∈ attempts)
    {outcome : Result Digest} {now : Int} {u u' : UploadRow}
    (hCompleted : UploadCompleted t t' x.claim outcome now u u')
    (hStored : ∀ digest, outcome = .ok digest →
      d.StoredAt Clean objects (uploadKey t.identity.tenantId x.claim digest) x.claim.declared) :
    UploadsVerified d Clean t' objects := by
  obtain ⟨v, a, hv, hArtifact, ha, hDeclared⟩ := hLinked.known x hx
  cases hv.symm.trans hCompleted.found
  intro k w b hw hb hRests
  rw [hCompleted.uploads] at hw
  rcases Table.get?_set_cases hw with ⟨rfl, rfl⟩ | ⟨hNe, hOld⟩
  · -- the upload of the attempt: a success rests on the object that its transfer has put
    rw [hCompleted.artifact, hArtifact] at hb
    obtain ⟨a', ha', hSettled⟩ := hCompleted.settled a ha
    cases ha'.symm.trans hb
    cases hSettled with
    | staged hOutcome hUploaded hPending hStaged =>
      rw [hStaged]
      exact hDeclared ▸ hStored _ hOutcome
    | late hOutcome hUploaded hPending hKept =>
      subst hKept
      apply h _ u _ hv (hArtifact.symm ▸ ha)
      exact Or.inr (hRests.resolve_left fun hBoth => hPending hBoth.2)
    | failed hState hKept =>
      have hActive : b.state = .active := by
        rcases hRests with ⟨hUploaded, -⟩ | hActive
        · rw [hUploaded] at hState
          rcases hState with hState | hState | hState <;> cases hState
        · exact hActive
      rw [hKept.storageKey, hKept.declared]
      exact h _ u _ hv (hArtifact.symm ▸ ha) (Or.inr (hKept.active hActive))
  · refine h.kept hLinked hOld hCompleted.others (fun hSame => hNe ?_) hb hRests
    exact hLinked.single k w _ u hOld hv ((Option.some.inj hSame).symm.trans hArtifact.symm)

theorem UploadMove.verified {op : HostOperation ι ε}
    (hMove : UploadMove tick t attempts op t' attempts')
    (hLinked : UploadsLinked t attempts) (h : UploadsVerified d Clean t objects)
    (hStored : ∀ n x digest, op = .completeUpload n (.ok digest) → attempts[n]? = some x →
      d.StoredAt Clean objects (uploadKey t.identity.tenantId x.claim digest) x.claim.declared) :
    UploadsVerified d Clean t' objects := by
  cases hMove with
  | kept hUploads hArtifacts =>
    intro k u a hu ha hRests
    rw [hUploads] at hu
    exact h.kept hLinked hu hArtifacts (Option.some_ne_none _).symm ha hRests
  | begun hBegun hArtifacts =>
    intro k u a hu ha hRests
    rcases Table.insert?_get?_cases hBegun.inserted hu with ⟨rfl, rfl⟩ | ⟨-, hOld⟩
    · -- the upload is open, and its artifact pending
      obtain ⟨b, hb, hPending⟩ := hBegun.stored
      cases hb.symm.trans ha
      rcases hRests with ⟨hUploaded, -⟩ | hActive
      · cases hBegun.opened.symm.trans hUploaded
      · cases hPending.symm.trans hActive
    · exact h.kept hLinked hOld hArtifacts (Option.some_ne_none _).symm ha hRests
  | claimed hClaimed =>
    obtain ⟨v, b, hFound, hOpened, hArtifact, hb, -, rfl⟩ := hClaimed.written
    intro k u a hu ha hRests
    rcases Table.get?_set_cases hu with ⟨rfl, rfl⟩ | ⟨-, hOld⟩
    · exact h _ v a hFound ha hRests
    · exact h k u a hOld ha hRests
  | completed hAttempt hCompleted =>
    apply h.completed hLinked (List.mem_of_getElem? hAttempt) hCompleted
    rintro digest rfl
    exact hStored _ _ digest rfl hAttempt
  | finalized hFinalized hUploads hArtifacts =>
    intro k u a hu ha hRests
    rw [hUploads, hFinalized.uploads] at hu
    rcases Table.get?_set_cases hu with ⟨rfl, rfl⟩ | ⟨hNe, hOld⟩
    · obtain ⟨b, hb, hDeclared, hKey, -⟩ := hFinalized.artifacts hFinalized.stored
      rw [hFinalized.artifact] at ha
      cases ha.symm.trans (hArtifacts _ b hb)
      rw [hKey, hDeclared]
      exact h _ _ _ hFinalized.found hFinalized.stored
        (Or.inl ⟨hFinalized.uploaded, hFinalized.pending⟩)
    · obtain ⟨b, hb⟩ := hLinked.stored k u hOld
      obtain ⟨b', hb', -, -, hSame⟩ := hFinalized.artifacts hb
      have hOther : u.artifactId ≠ _ := fun hEq =>
        hNe (hLinked.single k u _ _ hOld hFinalized.found hEq)
      cases ha.symm.trans (hArtifacts _ b' hb')
      rw [hSame hOther] at hRests ⊢
      exact h k u b hOld hb hRests

end Objects

/-! ## Attempts -/

theorem HostMembers.tenant {op : HostOperation ι ε} {t t' : Tables} (h : HostMembers t op t') :
    t'.identity.tenantId = t.identity.tenantId := by
  cases h with
  | kept hIdentity => rw [hIdentity]
  | changed hInput hChanged hIdentity => rw [hIdentity]
  | revoked hInput hRevoked hIdentity => rw [hIdentity]

abbrev DepositState.tables (s : DepositState) : Tables := s.host.store.tables

abbrev DepositState.attempts (s : DepositState) : List UploadAttempt := s.host.attempts

/-- What a step does: nothing, one of the host, the transfer of an attempt that has its claim, or
the end of one that has its outcome. -/
inductive DepositMove (d : Deposit ι ν ε) (s : DepositState) (c : DepositCall ι ε) :
    DepositState → Prop
  | refused : DepositMove d s c s
  | host {op : HostOperation ι ε} {host : HostState} (hCall : c.operation = .host op)
      (hOther : ∀ n outcome, op ≠ .completeUpload n outcome)
      (hMove : UploadMove c.tick s.tables s.attempts op host.store.tables host.attempts)
      (hTenant : host.store.tables.identity.tenantId = s.tables.identity.tenantId) :
      DepositMove d s c { s with host }
  | transferred {n : Nat} {a : UploadAttempt} {x : Transfer} (hCall : c.operation = .transfer n x)
      (hAttempt : s.attempts[n]? = some a) :
      DepositMove d s c
        { s with
          objects := (d.transfer s.tables.identity.tenantId s.objects a.claim x).1
          phases := s.phases.upsert n
            (.transferred (d.transfer s.tables.identity.tenantId s.objects a.claim x).2) }
  | completed {n : Nat} {outcome : Result Digest} {host : HostState}
      (hCall : c.operation = .complete n)
      (hPhase : s.phases.get? n = some (.transferred outcome))
      (hMove : UploadMove c.tick s.tables s.attempts
        (.completeUpload n outcome : HostOperation ι ε) host.store.tables host.attempts)
      (hTenant : host.store.tables.identity.tenantId = s.tables.identity.tenantId) :
      DepositMove d s c { s with host, phases := s.phases.upsert n .answered }

structure DepositSound (d : Deposit ι ν ε) (Clean : Bytes → Prop) (s : DepositState) : Prop where
  linked : UploadsLinked s.tables s.attempts
  leased : UploadsLeased s.tables s.attempts
  transferred : ∀ n digest, s.phases.get? n = some (.transferred (.ok digest)) →
    ∃ x, s.attempts[n]? = some x ∧
      d.StoredAt Clean s.objects (uploadKey s.tables.identity.tenantId x.claim digest)
        x.claim.declared
  verified : UploadsVerified d Clean s.tables s.objects

section Attempts

variable {d : Deposit ι ν ε} {Clean : Bytes → Prop} {s s' : DepositState} {c : DepositCall ι ε}

theorem hostStep_uploads {h : Host ι ν ε} {s : HostState} (c : HostCall ι ε)
    (hLinked : UploadsLinked s.store.tables s.attempts) :
    UploadMove c.tick s.store.tables s.attempts c.operation (hostStep h s c).1.store.tables
      (hostStep h s c).1.attempts ∧
    (hostStep h s c).1.store.tables.identity.tenantId = s.store.tables.identity.tenantId := by
  have hOutcome := hostStep_outcome h s c
  refine ⟨hOutcome.uploadMove fun x hx => ?_, hOutcome.members.tenant⟩
  obtain ⟨u, a, -, -, ha, -⟩ := hLinked.known x hx
  exact ⟨a, ha⟩

theorem depositStep_move (d : Deposit ι ν ε) {s : DepositState} (c : DepositCall ι ε)
    (hLinked : UploadsLinked s.tables s.attempts) : DepositMove d s c (depositStep d s c).1 := by
  unfold depositStep
  split
  · exact .refused
  · rename_i op hOther hCall
    obtain ⟨hMove, hTenant⟩ := hostStep_uploads (h := d.host) ⟨c.tick, op⟩ hLinked
    exact .host hCall hOther hMove hTenant
  · rename_i n x hCall
    split
    · rename_i a hAttempt hPhase
      exact .transferred hCall hAttempt
    · exact .refused
  · rename_i n hCall
    split
    · rename_i outcome hPhase
      obtain ⟨hMove, hTenant⟩ :=
        hostStep_uploads (h := d.host) ⟨c.tick, .completeUpload n outcome⟩ hLinked
      exact .completed hCall hPhase hMove hTenant
    · exact .refused

theorem DepositMove.linked (h : DepositMove d s c s') (hLinked : UploadsLinked s.tables s.attempts) :
    UploadsLinked s'.tables s'.attempts := by
  cases h with
  | refused => exact hLinked
  | host hCall hOther hMove hTenant => exact hMove.linked hLinked
  | transferred hCall hAttempt => exact hLinked
  | completed hCall hPhase hMove hTenant => exact hMove.linked hLinked

theorem DepositMove.objectsKept (h : DepositMove d s c s') : ObjectsKept s.objects s'.objects := by
  cases h with
  | refused => exact fun key o ho => ho
  | host => exact fun key o ho => ho
  | transferred => exact d.transfer_kept _ _ _ _
  | completed => exact fun key o ho => ho

theorem DepositMove.grows (h : DepositMove d s c s') : s.attempts <+: s'.attempts := by
  cases h with
  | refused => exact List.prefix_rfl
  | host hCall hOther hMove hTenant => exact hMove.grows
  | transferred hCall hAttempt => exact List.prefix_rfl
  | completed hCall hPhase hMove hTenant => exact hMove.grows

theorem DepositMove.uploadsKept (h : DepositMove d s c s') : UploadsKept s.tables s'.tables := by
  have hSame : UploadsKept s.tables s.tables :=
    ⟨fun k u hu => ⟨u, hu, .refl u⟩, fun k u hu => Or.inl ⟨u, hu, .refl u⟩,
      fun id a ha => ⟨a, ha, rfl⟩⟩
  cases h with
  | refused => exact hSame
  | host hCall hOther hMove hTenant => exact hMove.uploadsKept
  | transferred hCall hAttempt => exact hSame
  | completed hCall hPhase hMove hTenant => exact hMove.uploadsKept

theorem DepositMove.sound (h : DepositMove d s c s') (hSound : DepositSound d Clean s)
    (hScanner : ∀ n x, c.operation = .transfer n x → ∀ b, x.scan b = .ok .clean → Clean b) :
    DepositSound d Clean s' := by
  obtain ⟨hLinked, hLeased, hTransferred, hVerified⟩ := hSound
  cases h with
  | refused => exact ⟨hLinked, hLeased, hTransferred, hVerified⟩
  | host hCall hOther hMove hTenant =>
    refine ⟨hMove.linked hLinked, hMove.leased hLeased, fun n digest hPhase => ?_, ?_⟩
    · obtain ⟨x, hx, hStored⟩ := hTransferred n digest hPhase
      refine ⟨x, hMove.attempt_kept hx, ?_⟩
      rw [hTenant]
      exact hStored
    · apply hMove.verified hLinked hVerified
      intro n x digest hOp
      exact absurd hOp (hOther n _)
  | @transferred n a x hCall hAttempt =>
    have hKept := d.transfer_kept s.tables.identity.tenantId s.objects a.claim x
    refine ⟨hLinked, hLeased, fun m digest hPhase => ?_, fun k u b hu hb hRests => ?_⟩
    · rw [Table.get?_upsert] at hPhase
      split at hPhase
      · rename_i hSame
        subst hSame
        have hOutcome := AttemptPhase.transferred.inj (Option.some.inj hPhase)
        exact ⟨a, hAttempt, d.transfer_ok (hScanner _ x hCall) hOutcome⟩
      · obtain ⟨y, hy, hStored⟩ := hTransferred m digest hPhase
        exact ⟨y, hy, hStored.kept hKept⟩
    · exact (hVerified k u b hu hb hRests).kept hKept
  | @completed n outcome host hCall hPhase hMove hTenant =>
    refine ⟨hMove.linked hLinked, hMove.leased hLeased, fun m digest hOther => ?_, ?_⟩
    · rw [Table.get?_upsert] at hOther
      split at hOther
      · cases hOther
      · obtain ⟨x, hx, hStored⟩ := hTransferred m digest hOther
        refine ⟨x, hMove.attempt_kept hx, ?_⟩
        rw [hTenant]
        exact hStored
    · apply hMove.verified hLinked hVerified
      intro m x digest hOp hx
      cases hOp
      obtain ⟨y, hy, hStored⟩ := hTransferred n digest hPhase
      cases hy.symm.trans hx
      exact hStored

end Attempts

/-! ## Storage keys -/

/-- The step changed where an artifact is stored. -/
def DepositEvent.Rekeys (e : DepositEvent ι ε) (id : Uuid) : Prop :=
  ∃ a a', e.before.tables.journal.artifacts.get? id = some a ∧
    e.after.tables.journal.artifacts.get? id = some a' ∧ a'.storageKey ≠ a.storageKey

/-- An attempt took the upload of the artifact to `UPLOADED`. -/
def DepositEvent.Uploads (e : DepositEvent ι ε) (id : Uuid) : Prop :=
  ∃ n x u u', e.call.operation = .complete n ∧ e.before.attempts[n]? = some x ∧
    e.before.tables.uploads.get? x.claim.upload = some u ∧ u.artifactId = id ∧
    u.state = .opened ∧ e.after.tables.uploads.get? x.claim.upload = some u' ∧
    u'.artifactId = id ∧ u'.state = .uploaded

/-- The upload of the artifact is not open any more. -/
def DepositState.Shut (s : DepositState) (id : Uuid) : Prop :=
  ∃ k u, s.tables.uploads.get? k = some u ∧ u.artifactId = id ∧ u.state ≠ .opened

section Keys

variable {d : Deposit ι ν ε} {tick : Tick} {t t' : Tables}
  {attempts attempts' : List UploadAttempt} {s s' : DepositState} {c : DepositCall ι ε}

/-- Only an attempt that succeeds changes where an artifact is stored. -/
theorem UploadMove.rekeyed {op : HostOperation ι ε}
    (hMove : UploadMove tick t attempts op t' attempts') (hLinked : UploadsLinked t attempts)
    {id : Uuid} {a a' : ArtifactRow} (ha : t.journal.artifacts.get? id = some a)
    (ha' : t'.journal.artifacts.get? id = some a') (hKey : a'.storageKey ≠ a.storageKey) :
    ∃ n outcome x u u', op = .completeUpload n outcome ∧ attempts[n]? = some x ∧
      t.uploads.get? x.claim.upload = some u ∧ u.artifactId = id ∧ u.state = .opened ∧
      t'.uploads.get? x.claim.upload = some u' ∧ u'.artifactId = id ∧ u'.state = .uploaded := by
  cases hMove with
  | kept hUploads hArtifacts =>
    obtain ⟨b, hb, hKept⟩ := hArtifacts id a ha (Option.some_ne_none id).symm
    cases hb.symm.trans ha'
    exact absurd hKept.storageKey hKey
  | begun hBegun hArtifacts =>
    obtain ⟨b, hb, hKept⟩ := hArtifacts id a ha (Option.some_ne_none id).symm
    cases hb.symm.trans ha'
    exact absurd hKept.storageKey hKey
  | claimed hClaimed =>
    obtain ⟨u, b, -, -, -, -, -, rfl⟩ := hClaimed.written
    cases ha.symm.trans ha'
    exact absurd rfl hKey
  | @completed n outcome x _ u u' hAttempt hCompleted =>
    by_cases hSame : id = x.claim.artifact
    · subst hSame
      obtain ⟨v, -, hv, hArtifact, -, -⟩ := hLinked.known x (List.mem_of_getElem? hAttempt)
      cases hv.symm.trans hCompleted.found
      obtain ⟨b, hb, hSettled⟩ := hCompleted.settled a ha
      cases hb.symm.trans ha'
      cases hSettled with
      | staged hOutcome hUploaded hPending hStaged =>
        refine ⟨n, outcome, x, u, u', rfl, hAttempt, hv, hArtifact, hCompleted.opened, ?_,
          hCompleted.artifact.trans hArtifact, hUploaded⟩
        rw [hCompleted.uploads]
        exact Table.get?_set_self hv u'
      | late hOutcome hUploaded hPending hKept => exact absurd (congrArg _ hKept) hKey
      | failed hState hKept => exact absurd hKept.storageKey hKey
    · obtain ⟨b, hb, hKept⟩ := hCompleted.others id a ha fun hEq =>
        hSame (Option.some.inj hEq).symm
      cases hb.symm.trans ha'
      exact absurd hKept.storageKey hKey
  | finalized hFinalized hUploads hArtifacts =>
    obtain ⟨b, hb, -, hSame, -⟩ := hFinalized.artifacts ha
    cases ha'.symm.trans (hArtifacts id b hb)
    exact absurd hSame hKey

theorem DepositMove.rekeyed (h : DepositMove d s c s') (hLinked : UploadsLinked s.tables s.attempts)
    {ρ : Result HostReply} {id : Uuid} (hRekeys : DepositEvent.Rekeys ⟨s, c, ρ, s'⟩ id) :
    DepositEvent.Uploads ⟨s, c, ρ, s'⟩ id := by
  obtain ⟨a, a', ha, ha', hKey⟩ := hRekeys
  cases h with
  | refused =>
    cases ha.symm.trans ha'
    exact absurd rfl hKey
  | host hCall hOther hMove hTenant =>
    obtain ⟨n, outcome, x, u, u', hOp, -⟩ := hMove.rekeyed hLinked ha ha' hKey
    exact absurd hOp (hOther n outcome)
  | transferred hCall hAttempt =>
    cases ha.symm.trans ha'
    exact absurd rfl hKey
  | completed hCall hPhase hMove hTenant =>
    obtain ⟨n, outcome, x, u, u', hOp, hRest⟩ := hMove.rekeyed hLinked ha ha' hKey
    cases hOp
    exact ⟨_, x, u, u', hCall, hRest⟩

/-- The links hold around every event. -/
theorem trace_linked (d : Deposit ι ν ε) {s : DepositState}
    (hLinked : UploadsLinked s.tables s.attempts) (calls : List (DepositCall ι ε)) :
    ∀ e ∈ Machine.trace (depositStep d) s calls,
      UploadsLinked e.before.tables e.before.attempts := by
  intro e he
  obtain ⟨past, future, -, hEvent⟩ := Machine.mem_trace (depositStep d) he
  rw [hEvent]
  apply Machine.run_invariant (depositStep d) (I := fun s => UploadsLinked s.tables s.attempts)
  · intro s c h
    exact (depositStep_move d c h).linked h
  · exact hLinked

theorem UploadsKept.shut (h : UploadsKept s.tables s'.tables) {id : Uuid} (hShut : s.Shut id) :
    s'.Shut id := by
  obtain ⟨k, u, hu, hArtifact, hState⟩ := hShut
  obtain ⟨u', hu', hKeeps⟩ := h.kept k u hu
  exact ⟨k, u', hu', hKeeps.artifact.trans hArtifact, hKeeps.state.left hState⟩

/-- After one change of a storage key there is no other. -/
theorem rekeyed_once (d : Deposit ι ν ε) {s : DepositState}
    (hLinked : UploadsLinked s.tables s.attempts) (calls : List (DepositCall ι ε)) :
    (Machine.trace (depositStep d) s calls).Pairwise fun e e' =>
      ∀ id, DepositEvent.Rekeys e id → ¬ DepositEvent.Rekeys e' id := by
  have hPairs : (Machine.trace (depositStep d) s calls).Pairwise fun e e' => ∀ id,
      UploadsLinked e.before.tables e.before.attempts ∧ DepositEvent.Rekeys e id →
        ¬ DepositEvent.Rekeys e' id := by
    apply Machine.trace_pairwise (depositStep d)
      (D := fun id s => UploadsLinked s.tables s.attempts ∧ s.Shut id)
    · rintro id s c ⟨hLinked, hRekeys⟩
      have hMove := depositStep_move d c hLinked
      obtain ⟨n, x, u, u', -, -, -, -, -, hu', hArtifact, hState⟩ := hMove.rekeyed hLinked hRekeys
      refine ⟨hMove.linked hLinked, _, u', hu', hArtifact, ?_⟩
      rw [hState]
      exact UploadState.noConfusion
    · rintro id s c ⟨hLinked, hShut⟩
      have hMove := depositStep_move d c hLinked
      exact ⟨hMove.linked hLinked, hMove.uploadsKept.shut hShut⟩
    · rintro id s c ⟨hLinked, k, u, hu, hArtifact, hState⟩ hRekeys
      obtain ⟨n, x, v, v', -, -, hv, hSame, hOpened, -⟩ :=
        (depositStep_move d c hLinked).rekeyed hLinked hRekeys
      have hKey := hLinked.single _ _ _ _ hu hv (hArtifact.trans hSame.symm)
      subst hKey
      cases hu.symm.trans hv
      exact hState hOpened
  apply hPairs.imp_of_mem
  intro e e' he _ hPair id hRekeys
  exact hPair id ⟨trace_linked d hLinked calls e he, hRekeys⟩

end Keys

/-! ## Stale attempts -/

/-- The step is refused and changes neither a table nor an object. -/
def DepositEvent.Refused (e : DepositEvent ι ε) : Prop :=
  e.after.host = e.before.host ∧ e.after.objects = e.before.objects ∧
    ∃ failure, e.response = .error failure

/-- The attempt holds the lease of its upload at this time. -/
def UploadAttempt.Holds (x : UploadAttempt) (t : Tables) (now : Int) : Prop :=
  ∃ u last, t.uploads.get? x.claim.upload = some u ∧ u.leaseId = some x.claim.lease ∧
    u.leaseExpiresAt = some last ∧ now < last

def leasesOf (attempts : List UploadAttempt) : List Uuid := attempts.map fun x => x.claim.lease

/-- If the attempt still has the lease it took at `start`, then until its end. -/
def UploadAttempt.Leased (x : UploadAttempt) (start : Int) (s : DepositState) : Prop :=
  x ∈ s.attempts ∧ ((leasesOf s.attempts).Nodup → ∀ u,
    s.tables.uploads.get? x.claim.upload = some u → u.leaseId = some x.claim.lease →
      u.leaseExpiresAt = some (start + uploadLeaseMicroseconds))

section Stale

variable {d : Deposit ι ν ε} {tick : Tick} {t t' : Tables}
  {attempts attempts' : List UploadAttempt} {s s' : DepositState} {c : DepositCall ι ε}

/-- An attempt that does not hold the lease is refused. -/
theorem complete_refused (hLinked : UploadsLinked s.tables s.attempts) {n : Nat}
    (hCall : c.operation = .complete n)
    (hStale : ∀ x, s.attempts[n]? = some x → ¬ x.Holds s.tables c.tick.now) :
    DepositEvent.Refused (Machine.eventAt (depositStep d) s c) := by
  obtain ⟨tick, op⟩ := c
  dsimp only at hCall hStale
  subst hCall
  unfold DepositEvent.Refused Machine.eventAt depositStep
  dsimp only
  split
  · rename_i outcome hPhase
    rcases transact_cases s.host (runHostOperation d.host tick s.host (.completeUpload n outcome))
      with ⟨host, reply, hOk, -⟩ | ⟨failure, -, hStep⟩
    · simp only [runHostOperation, bind_eq_ok, okOr_eq_ok, Prod.exists] at hOk
      obtain ⟨x, hx, tables, answer, hCompleted, -⟩ := hOk
      obtain ⟨-, a, -, -, ha, -⟩ := hLinked.known x (List.mem_of_getElem? hx)
      obtain ⟨u, u', hDone⟩ := completeUpload_completed ha hCompleted
      obtain ⟨last, hLast, hNow⟩ := hDone.unexpired
      exact absurd ⟨u, last, hDone.found, hDone.leased, hLast, hNow⟩ (hStale x hx)
    · have hEq : hostStep d.host s.host ⟨tick, .completeUpload n outcome⟩ =
          (s.host, .error failure) := hStep
      rw [hEq]
      exact ⟨rfl, rfl, failure, rfl⟩
  · exact ⟨rfl, rfl, _, rfl⟩

/-- An attempt after which another took the lease is refused. -/
theorem taken_refused (hLinked : UploadsLinked s.tables s.attempts)
    (hLeased : UploadsLeased s.tables s.attempts) (hDistinct : (leasesOf s.attempts).Nodup)
    {n m : Nat} {x y : UploadAttempt} (hCall : c.operation = .complete n)
    (hx : s.attempts[n]? = some x) (hy : s.attempts[m]? = some y) (hLater : n < m)
    (hSame : y.claim.upload = x.claim.upload) :
    DepositEvent.Refused (Machine.eventAt (depositStep d) s c) := by
  apply complete_refused hLinked hCall
  rintro z hz ⟨u, last, hu, hLease, -, -⟩
  cases hx.symm.trans hz
  exact (hLeased _ u _ hu hLease).not_taken hDistinct hx rfl hy hLater hSame

/-- The lease that an attempt has taken ends with it. -/
theorem UploadMove.leaseEnd {op : HostOperation ι ε}
    (hMove : UploadMove tick t attempts op t' attempts') {x : UploadAttempt} (hx : x ∈ attempts)
    (hDistinct : (leasesOf attempts').Nodup) {last : Int}
    (hEnd : ∀ u, t.uploads.get? x.claim.upload = some u → u.leaseId = some x.claim.lease →
      u.leaseExpiresAt = some last)
    {u : UploadRow} (hu : t'.uploads.get? x.claim.upload = some u)
    (hLease : u.leaseId = some x.claim.lease) : u.leaseExpiresAt = some last := by
  cases hMove with
  | kept hUploads hArtifacts =>
    rw [hUploads] at hu
    exact hEnd u hu hLease
  | begun hBegun hArtifacts =>
    rcases Table.insert?_get?_cases hBegun.inserted hu with ⟨-, rfl⟩ | ⟨-, hOld⟩
    · cases hBegun.unleased.symm.trans hLease
    · exact hEnd u hOld hLease
  | claimed hClaimed =>
    obtain ⟨v, a, hFound, -, -, -, -, rfl⟩ := hClaimed.written
    rcases Table.get?_set_cases hu with ⟨-, rfl⟩ | ⟨-, hOld⟩
    · -- the lease is a new one
      rw [leasesOf, List.map_append, List.nodup_append] at hDistinct
      have hNew := hDistinct.2.2 _ (List.mem_map_of_mem hx) _ (List.mem_map_of_mem
        (List.mem_singleton_self _))
      exact absurd (Option.some.inj hLease).symm hNew
    · exact hEnd u hOld hLease
  | completed hAttempt hCompleted =>
    rw [hCompleted.uploads] at hu
    rcases Table.get?_set_cases hu with ⟨-, rfl⟩ | ⟨-, hOld⟩
    · cases hCompleted.unleased.symm.trans hLease
    · exact hEnd u hOld hLease
  | finalized hFinalized hUploads hArtifacts =>
    rw [hUploads, hFinalized.uploads] at hu
    rcases Table.get?_set_cases hu with ⟨hKey, rfl⟩ | ⟨-, hOld⟩
    · rw [hFinalized.leaseEnd]
      exact hEnd _ (hKey ▸ hFinalized.found) (hFinalized.lease.symm.trans hLease)
    · exact hEnd u hOld hLease

theorem DepositMove.leased (h : DepositMove d s c s') {x : UploadAttempt} {start : Int}
    (hLeased : x.Leased start s) : x.Leased start s' := by
  obtain ⟨hx, hEnd⟩ := hLeased
  have hMoved : ∀ {op : HostOperation ι ε} {host : HostState},
      UploadMove c.tick s.tables s.attempts op host.store.tables host.attempts →
      x ∈ host.attempts ∧ ((leasesOf host.attempts).Nodup → ∀ u,
        host.store.tables.uploads.get? x.claim.upload = some u → u.leaseId = some x.claim.lease →
          u.leaseExpiresAt = some (start + uploadLeaseMicroseconds)) := by
    intro op host hMove
    refine ⟨hMove.grows.subset hx, fun hDistinct u hu hLease => ?_⟩
    apply hMove.leaseEnd hx hDistinct (hEnd _) hu hLease
    exact hDistinct.sublist (hMove.grows.sublist.map _)
  cases h with
  | refused => exact ⟨hx, hEnd⟩
  | host hCall hOther hMove hTenant => exact hMoved hMove
  | transferred hCall hAttempt => exact ⟨hx, hEnd⟩
  | completed hCall hPhase hMove hTenant => exact hMoved hMove

theorem UploadMove.claims {op : HostOperation ι ε}
    (hMove : UploadMove tick t attempts op t' attempts') {x : UploadAttempt}
    (hNew : attempts' = attempts ++ [x]) : UploadClaimed tick t t' x.claim := by
  have hSelf : attempts ≠ attempts ++ [x] := by simp
  cases hMove with
  | kept => exact absurd hNew hSelf
  | begun => exact absurd hNew hSelf
  | claimed hClaimed =>
    cases List.append_cancel_left hNew
    exact hClaimed
  | completed => exact absurd hNew hSelf
  | finalized => exact absurd hNew hSelf

/-- A step that adds an attempt has given it the lease of its upload. -/
theorem DepositMove.claimed (h : DepositMove d s c s') {x : UploadAttempt}
    (hNew : s'.attempts = s.attempts ++ [x]) : x.Leased c.tick.now s' := by
  have hSelf : s.attempts ≠ s.attempts ++ [x] := by simp
  have hMem : x ∈ s'.attempts := by
    rw [hNew]
    exact List.mem_append_right _ (List.mem_singleton_self x)
  refine ⟨hMem, fun _ u hu _ => ?_⟩
  have hEnd : UploadClaimed c.tick s.tables s'.tables x.claim →
      u.leaseExpiresAt = some (c.tick.now + uploadLeaseMicroseconds) := by
    rintro ⟨⟨v, a, hFound, -, -, -, -, hTables⟩, -⟩
    rw [hTables] at hu
    cases hu.symm.trans (Table.get?_set_self hFound _)
    rfl
  cases h with
  | refused => exact absurd hNew hSelf
  | host hCall hOther hMove hTenant => exact hEnd (hMove.claims hNew)
  | transferred hCall hAttempt => exact absurd hNew hSelf
  | completed hCall hPhase hMove hTenant => exact hEnd (hMove.claims hNew)

/-- After the end of its lease an attempt is refused, whatever happened in between. -/
theorem expired_refused (d : Deposit ι ν ε) {s : DepositState}
    (hLinked : UploadsLinked s.tables s.attempts) (calls : List (DepositCall ι ε)) :
    (Machine.trace (depositStep d) s calls).Pairwise fun e e' => ∀ x n,
      e.after.attempts = e.before.attempts ++ [x] → e'.call.operation = .complete n →
        e'.before.attempts[n]? = some x →
          e.call.tick.now + uploadLeaseMicroseconds ≤ e'.call.tick.now →
            (leasesOf e'.before.attempts).Nodup → DepositEvent.Refused e' := by
  have hPairs : (Machine.trace (depositStep d) s calls).Pairwise fun e e' =>
      ∀ taken : UploadAttempt × Int,
        UploadsLinked e.before.tables e.before.attempts ∧
          e.after.attempts = e.before.attempts ++ [taken.1] ∧ taken.2 = e.call.tick.now →
        ∀ n, e'.call.operation = .complete n → e'.before.attempts[n]? = some taken.1 →
          taken.2 + uploadLeaseMicroseconds ≤ e'.call.tick.now →
            (leasesOf e'.before.attempts).Nodup → DepositEvent.Refused e' := by
    apply Machine.trace_pairwise (depositStep d)
      (D := fun taken s => UploadsLinked s.tables s.attempts ∧ taken.1.Leased taken.2 s)
    · rintro ⟨x, start⟩ s c ⟨hLinked, hNew, rfl⟩
      have hMove := depositStep_move d c hLinked
      exact ⟨hMove.linked hLinked, hMove.claimed hNew⟩
    · rintro ⟨x, start⟩ s c ⟨hLinked, hLeased⟩
      have hMove := depositStep_move d c hLinked
      exact ⟨hMove.linked hLinked, hMove.leased hLeased⟩
    · rintro ⟨x, start⟩ s c ⟨hLinked, -, hEnd⟩ n hCall hx hNow hDistinct
      apply complete_refused hLinked hCall
      rintro y hy ⟨u, last, hu, hLease, hLast, hHeld⟩
      cases hx.symm.trans hy
      have hSame := Option.some.inj (hLast.symm.trans (hEnd hDistinct u hu hLease))
      have hLate : start + uploadLeaseMicroseconds ≤ c.tick.now := hNow
      omega
  apply hPairs.imp_of_mem
  intro e e' he _ hPair x n hNew
  exact hPair (x, e.call.tick.now) ⟨trace_linked d hLinked calls e he, hNew, rfl⟩ n

end Stale

/-! ## Runs -/

/-- Nothing has been uploaded yet. -/
structure DepositState.NoUploads (s : DepositState) : Prop where
  uploads : s.tables.uploads = .empty
  attempts : s.attempts = []
  phases : s.phases = .empty

theorem DepositState.NoUploads.sound {d : Deposit ι ν ε} {Clean : Bytes → Prop}
    {s : DepositState} (h : s.NoUploads) : DepositSound d Clean s := by
  have hNone : ∀ k u, s.tables.uploads.get? k ≠ some u := by
    intro k u hu
    rw [h.uploads] at hu
    cases hu
  refine ⟨⟨fun k u _ _ hu => absurd hu (hNone k u), fun k u hu => absurd hu (hNone k u), ?_⟩,
    fun k u _ hu => absurd hu (hNone k u), ?_, fun k u _ hu => absurd hu (hNone k u)⟩
  · intro x hx
    rw [h.attempts] at hx
    cases hx
  · intro n digest hPhase
    rw [h.phases] at hPhase
    cases hPhase

section Runs

variable {d : Deposit ι ν ε} {Clean : Bytes → Prop} {s : DepositState}
  {calls : List (DepositCall ι ε)}

/-- The scanner finds nothing in clean files only. -/
def ScannerCorrect (Clean : Bytes → Prop) (calls : List (DepositCall ι ε)) : Prop :=
  ∀ c ∈ calls, ∀ n x, c.operation = .transfer n x → ∀ b, x.scan b = .ok .clean → Clean b

theorem deposit_sound (hSound : DepositSound d Clean s)
    (hScanner : ScannerCorrect Clean calls) :
    DepositSound d Clean (Machine.run (depositStep d) s calls) := by
  induction calls generalizing s with
  | nil => exact hSound
  | cons c calls ih =>
    apply ih
    · exact (depositStep_move d c hSound.linked).sound hSound
        (hScanner c List.mem_cons_self)
    · intro c' hc'
      exact hScanner c' (List.mem_cons_of_mem _ hc')

/-- The attempts of a run come to those that were there. -/
theorem attempts_grow (d : Deposit ι ν ε) {s : DepositState}
    (hLinked : UploadsLinked s.tables s.attempts) (calls : List (DepositCall ι ε)) :
    s.attempts <+: (Machine.run (depositStep d) s calls).attempts := by
  induction calls generalizing s with
  | nil => exact List.prefix_rfl
  | cons c calls ih =>
    have hMove := depositStep_move d c hLinked
    exact hMove.grows.trans (ih (hMove.linked hLinked))

/-- Around every event of a run from sound states everything is sound, and the leases taken so far
are among those of the whole run. -/
theorem deposit_trace (hSound : DepositSound d Clean s)
    (hScanner : ScannerCorrect Clean calls) :
    ∀ e ∈ Machine.trace (depositStep d) s calls, DepositSound d Clean e.before ∧
      e.before.attempts <+: (Machine.run (depositStep d) s calls).attempts ∧
      e = Machine.eventAt (depositStep d) e.before e.call := by
  intro e he
  obtain ⟨past, future, hCalls, hEvent⟩ := Machine.mem_trace (depositStep d) he
  have hPast : DepositSound d Clean (Machine.run (depositStep d) s past) := by
    apply deposit_sound hSound
    intro c hc
    apply hScanner
    rw [hCalls]
    exact List.mem_append_left _ hc
  have hBefore : e.before = Machine.run (depositStep d) s past := congrArg (·.before) hEvent
  refine ⟨hBefore ▸ hPast, ?_, ?_⟩
  · rw [hCalls, Machine.run_append, hBefore]
    exact attempts_grow d hPast.linked _
  · rw [hBefore]
    exact hEvent

/-- Uploaded bytes are the declared ones. -/
theorem uploads_exact (d : Deposit ι ν ε) (Clean : Bytes → Prop) (s : DepositState)
    (calls : List (DepositCall ι ε)) (hStart : s.NoUploads)
    (hScanner : ScannerCorrect Clean calls)
    (hLeases : (leasesOf (Machine.run (depositStep d) s calls).attempts).Nodup) :
    (∀ k u a, (Machine.run (depositStep d) s calls).tables.uploads.get? k = some u →
      (Machine.run (depositStep d) s calls).tables.journal.artifacts.get? u.artifactId = some a →
      a.state = .active →
        d.StoredAt Clean (Machine.run (depositStep d) s calls).objects a.storageKey a.declared) ∧
    (∀ e ∈ Machine.trace (depositStep d) s calls,
      ObjectsKept e.before.objects e.after.objects ∧
      (∀ id a, e.before.tables.journal.artifacts.get? id = some a →
        ∃ a', e.after.tables.journal.artifacts.get? id = some a' ∧ a'.declared = a.declared) ∧
      (∀ id, DepositEvent.Rekeys e id → DepositEvent.Uploads e id) ∧
      (∀ k u, e.before.tables.uploads.get? k = some u →
        ∃ u', e.after.tables.uploads.get? k = some u' ∧ u.Keeps u') ∧
      (∀ k u', e.after.tables.uploads.get? k = some u' →
        e.before.tables.uploads.get? k = none → u'.state = .opened) ∧
      ∀ n m x y, e.call.operation = .complete n → e.before.attempts[n]? = some x →
        e.before.attempts[m]? = some y → n < m → y.claim.upload = x.claim.upload →
          DepositEvent.Refused e) ∧
    (Machine.trace (depositStep d) s calls).Pairwise fun e e' =>
      (∀ id, DepositEvent.Rekeys e id → ¬ DepositEvent.Rekeys e' id) ∧
      ∀ x n, e.after.attempts = e.before.attempts ++ [x] → e'.call.operation = .complete n →
        e'.before.attempts[n]? = some x →
          e.call.tick.now + uploadLeaseMicroseconds ≤ e'.call.tick.now →
            DepositEvent.Refused e' := by
  have hSound : DepositSound d Clean s := hStart.sound
  have hTrace := deposit_trace hSound hScanner
  have hDistinct : ∀ e ∈ Machine.trace (depositStep d) s calls,
      (leasesOf e.before.attempts).Nodup := by
    intro e he
    exact hLeases.sublist ((hTrace e he).2.1.sublist.map _)
  refine ⟨?_, ?_, ?_⟩
  · intro k u a hu ha hActive
    exact (deposit_sound hSound hScanner).verified k u a hu ha (Or.inr hActive)
  · intro e he
    obtain ⟨hBefore, -, hEvent⟩ := hTrace e he
    have hMove : DepositMove d e.before e.call e.after := by
      rw [hEvent]
      exact depositStep_move d e.call hBefore.linked
    have hKept := hMove.uploadsKept
    refine ⟨hMove.objectsKept, hKept.declared, fun id hRekeys => ?_, hKept.kept, ?_, ?_⟩
    · exact hMove.rekeyed hBefore.linked hRekeys
    · intro k u' hu' hNone
      rcases hKept.sourced k u' hu' with ⟨u, hu, -⟩ | hBegun
      · cases hu.symm.trans hNone
      · exact hBegun.opened
    · intro n m x y hCall hx hy hLater hSame
      rw [hEvent]
      exact taken_refused hBefore.linked hBefore.leased (hDistinct e he) hCall hx hy hLater hSame
  · apply ((rekeyed_once d hSound.linked calls).and
      (expired_refused d hSound.linked calls)).imp_of_mem
    rintro e e' he he' ⟨hOnce, hExpired⟩
    refine ⟨hOnce, fun x n hNew hCall hx hNow => ?_⟩
    exact hExpired x n hNew hCall hx hNow (hDistinct e' he')

end Runs

namespace Sample

/-- The small tenant with a store of objects. -/
def vault : Deposit Empty Nat Empty :=
  { host
    decoders := { image := fun _ _ => false, json := fun _ => false }
    pathValid := fun _ => true }

def emptyVault : DepositState := { host := office, objects := .empty, phases := .empty }

def onVault (c : HostCall Empty Empty) : DepositCall Empty Empty := ⟨c.tick, .host c.operation⟩

def letterBytes : Bytes := [76, 105]

/-- The letter in two pieces; the scanner finds nothing. -/
def sendLetter : Transfer :=
  { reader := [.bytes [76], .bytes [105]], scan := fun _ => .ok .clean, stopped := none }

def claimLetter (n : Nat) : DepositCall Empty Empty :=
  onVault ⟨reading n, .claimUpload actor ((reading 1).draw .upload).toText none⟩

/-- The first attempt loses its lease to the second one. -/
def letterSent : List (DepositCall Empty Empty) :=
  [onVault (hostCommand 1 (.artifactBegin .internal "text/plain" 2 (digest letterBytes))),
    claimLetter 2, ⟨reading 3, .transfer 0 sendLetter⟩, claimLetter 50, ⟨reading 51, .complete 0⟩,
    ⟨reading 52, .transfer 1 sendLetter⟩, ⟨reading 53, .complete 1⟩,
    onVault (hostCommand 54
      (.artifactFinalize ((reading 1).draw .uploadArtifact).toText (digest letterBytes)))]

end Sample

/-- The letter is active with the object of the second attempt; the first one is refused. -/
theorem letter_kept :
    ((Machine.trace (depositStep Sample.vault) Sample.emptyVault Sample.letterSent).Pairwise fun e e' =>
      ∀ id, DepositEvent.Rekeys e id → ¬ DepositEvent.Rekeys e' id) ∧
    ((Machine.trace (depositStep Sample.vault) Sample.emptyVault Sample.letterSent).map fun e =>
      match e.response with
      | .ok _ => "done"
      | .error failure => failure.code) =
      ["done", "done", "done", "done", "UPLOAD_LEASE_STALE", "done", "done", "done"] ∧
    ((Machine.run (depositStep Sample.vault) Sample.emptyVault
      Sample.letterSent).tables.journal.artifacts.get? ((Sample.reading 1).draw .uploadArtifact)).map
        ArtifactRow.state = some .active := by
  have hLeases : (leasesOf (Machine.run (depositStep Sample.vault) Sample.emptyVault
      Sample.letterSent).attempts).Nodup := by
    delta depositStep Sample.vault
    rw [hostStep_bytewise, Sample.host_bytewise]
    decide +kernel
  obtain ⟨-, -, hPairs⟩ := uploads_exact Sample.vault (fun _ => True) Sample.emptyVault
    Sample.letterSent ⟨rfl, rfl, rfl⟩ (fun _ _ _ _ _ _ _ => trivial) hLeases
  refine ⟨hPairs.imp fun hPair => hPair.1, ?_⟩
  delta depositStep Sample.vault
  rw [hostStep_bytewise, Sample.host_bytewise]
  decide +kernel

end Masonwing
