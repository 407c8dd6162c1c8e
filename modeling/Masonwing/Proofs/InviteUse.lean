import Masonwing.Proofs.Evaluation
import Masonwing.Proofs.MembershipInvariants

/-!
# One use of an invitation

`invites_used_once`: in every run the secret of an invitation is handed out once at most, and one
membership at most comes from it, to the addressee with the token of the invitation; whoever
accepts again gets the receipt it already has, or is refused.
-/

namespace Masonwing

open Outcome

variable {ι ν ε : Type}

/-! ## The rows of the invitations -/

/-- What the row of an invitation keeps for ever. -/
structure InviteRow.Keeps (i i' : InviteRow) : Prop where
  digest : i'.tokenDigest = i.tokenDigest
  expiry : i'.expiresAt = i.expiresAt
  retrieved : i.secretRetrievedAt ≠ none → i'.secretRetrievedAt ≠ none
  consumed : i.consumption ≠ none → i'.consumption ≠ none

theorem InviteRow.Keeps.refl (i : InviteRow) : i.Keeps i := ⟨rfl, rfl, id, id⟩

/-- The digest of every invitation is that of its token. -/
def EnrollmentState.TokensDerived (e : Enrollment ι ν ε) (s : EnrollmentState) : Prop :=
  ∀ inviteId i, s.invites.get? inviteId = some i →
    e.TokenDerived s.tables.identity.tenantId inviteId i

section Rows

variable {e : Enrollment ι ν ε} {tick : Tick} {s s' : EnrollmentState}

theorem Enrollment.TokenDerived.keeps {tenant id : Uuid} {i i' : InviteRow}
    (h : e.TokenDerived tenant id i) (hKeeps : i.Keeps i') : e.TokenDerived tenant id i' := by
  unfold Enrollment.TokenDerived at h ⊢
  rw [hKeeps.digest, hKeeps.expiry]
  exact h

/-- An invitation is never lost, and every row is new or keeps what it was. -/
structure InvitesKept (e : Enrollment ι ν ε) (s s' : EnrollmentState) : Prop where
  kept : ∀ id i, s.invites.get? id = some i → ∃ i', s'.invites.get? id = some i' ∧ i.Keeps i'
  sourced : ∀ id i', s'.invites.get? id = some i' →
    (∃ i, s.invites.get? id = some i ∧ i.Keeps i') ∨
      e.TokenDerived s.tables.identity.tenantId id i'

theorem InvitesKept.of_eq (h : s'.invites = s.invites) : InvitesKept e s s' := by
  constructor
  · intro id i hi
    exact ⟨i, h ▸ hi, .refl i⟩
  · intro id i hi
    exact Or.inl ⟨i, h ▸ hi, .refl i⟩

theorem InvitesKept.of_set {id : Uuid} {i i' : InviteRow} (hFound : s.invites.get? id = some i)
    (hKeeps : i.Keeps i') (h : s'.invites = s.invites.set id i') : InvitesKept e s s' := by
  constructor
  · intro other j hj
    rw [h]
    by_cases hSame : other = id
    · subst hSame
      cases hj.symm.trans hFound
      exact ⟨i', Table.get?_set_self hFound i', hKeeps⟩
    · exact ⟨j, (Table.get?_set_ne _ hSame i').trans hj, .refl j⟩
  · intro other j hj
    rw [h] at hj
    rcases Table.get?_set_cases hj with ⟨rfl, rfl⟩ | ⟨-, hOld⟩
    · exact Or.inl ⟨i, hFound, hKeeps⟩
    · exact Or.inl ⟨j, hOld, .refl j⟩

theorem EnrollmentMove.invitesKept {op : EnrollmentOperation ι ε}
    (h : EnrollmentMove e tick s op s') : InvitesKept e s s' := by
  cases h with
  | kept hIdentity hInvites hAcceptances => exact .of_eq hInvites
  | changed hInput hChanged hIdentity hInvites hAcceptances => exact .of_eq hInvites
  | revoked hInput hRevoked hIdentity hInvites hAcceptances => exact .of_eq hInvites
  | invited hInvited =>
    constructor
    · intro id i hi
      exact ⟨i, Table.insert?_get?_of_some hInvited.inserted hi, .refl i⟩
    · intro id i hi
      rcases Table.insert?_get?_cases hInvited.inserted hi with ⟨rfl, rfl⟩ | ⟨-, hOld⟩
      · exact Or.inr hInvited.derived
      · exact Or.inl ⟨i, hOld, .refl i⟩
  | retrieved hRetrieved =>
    refine .of_set hRetrieved.found ?_ hRetrieved.invites
    exact ⟨rfl, rfl, fun _ => Option.some_ne_none _, id⟩
  | accepted hAccepted =>
    obtain ⟨-, hDigest, hExpiry, hRetrieved⟩ := hAccepted.kept
    refine .of_set hAccepted.found ?_ hAccepted.invites
    refine ⟨hDigest, hExpiry, ?_, fun _ => ?_⟩
    · rw [hRetrieved]
      exact id
    · rw [hAccepted.consumed]
      exact Option.some_ne_none _

theorem EnrollmentMove.tokensDerived {op : EnrollmentOperation ι ε}
    (h : EnrollmentMove e tick s op s') (hDerived : s.TokensDerived e) : s'.TokensDerived e := by
  intro id i' hi'
  rw [h.tenant.1]
  rcases h.invitesKept.sourced id i' hi' with ⟨i, hi, hKeeps⟩ | hNew
  · exact (hDerived id i hi).keeps hKeeps
  · exact hNew

/-- A receipt of an acceptance stays. -/
theorem EnrollmentMove.acceptances {op : EnrollmentOperation ι ε}
    (h : EnrollmentMove e tick s op s') {key : Uuid × String} {row : ReceiptRow}
    (hRow : s.acceptances.get? key = some row) : s'.acceptances.get? key = some row := by
  cases h with
  | kept hIdentity hInvites hAcceptances => rw [hAcceptances]; exact hRow
  | changed hInput hChanged hIdentity hInvites hAcceptances => rw [hAcceptances]; exact hRow
  | revoked hInput hRevoked hIdentity hInvites hAcceptances => rw [hAcceptances]; exact hRow
  | invited hInvited => rw [hInvited.acceptances]; exact hRow
  | retrieved hRetrieved => rw [hRetrieved.acceptances]; exact hRow
  | accepted hAccepted => exact Table.insert?_get?_of_some hAccepted.acceptances hRow

end Rows

/-! ## Uses -/

section Uses

variable (e : Enrollment ι ν ε)

/-- The secret of the invitation was handed out. -/
def EnrollmentEvent.Retrieves (ev : EnrollmentEvent ι ε) (inviteId : Uuid) : Prop :=
  ∃ actor token, ev.call.operation = .retrieveSecret actor inviteId ∧
    ev.response = .ok (.secret token)

/-- The identity has an address that was verified and normalizes to this one. -/
def AddressedTo (s : EnrollmentState) (identity : VerifiedInviteAcceptIdentity)
    (normalized : String) : Prop :=
  ∃ row email, s.identities.get? identity.principalId = some row ∧ row.issuer = identity.issuer ∧
    row.subject = identity.subject ∧ row.emailVerified = true ∧ row.email = some email ∧
    normalizeEmail email = .ok normalized

/-- A principal without a membership became a member through an invitation, with its token. -/
def EnrollmentEvent.UsesInvite (ev : EnrollmentEvent ι ε) (principal inviteId : Uuid) : Prop :=
  ∃ c i i', ev.call.operation = .accept c ∧ c.identity.principalId = principal ∧
    ev.before.invites.get? inviteId = some i ∧ i.consumption = none ∧
    ev.after.invites.get? inviteId = some i' ∧ i'.consumption ≠ none ∧
    c.inviteToken = e.inviteKey.deriveToken inviteId ev.before.tables.identity.tenantId
      (Int.fdiv i.expiresAt secondMicroseconds) ∧
    ev.call.tick.now < i.expiresAt ∧ AddressedTo ev.before c.identity i.emailNormalized ∧
    ev.before.memberships.get? principal = none

/-- An acceptance committed with this receipt. -/
def EnrollmentEvent.CommitsAccept (ev : EnrollmentEvent ι ε) (c : MembershipAcceptCommand)
    (receipt : CommandReceipt) : Prop :=
  ev.call.operation = .accept c ∧ ev.response = .ok (.answer (.committed receipt))

/-- If the event accepts with the same token, nothing changes: it is refused or answered from a
receipt, under the same key from this one. -/
def EnrollmentEvent.RepeatsAccept (ev : EnrollmentEvent ι ε) (c : MembershipAcceptCommand)
    (receipt : CommandReceipt) : Prop :=
  ∀ c', ev.call.operation = .accept c' → c'.inviteToken = c.inviteToken → ev.after = ev.before ∧
    ((∃ failure, ev.response = .error failure) ∨
      ∃ receipt', ev.response = .ok (.answer (.replayed receipt')) ∧
        (Enrollment.acceptKey c' = Enrollment.acceptKey c → receipt' = receipt))

/-- No token presented in the run has the digest of another token, of an invitation it meets. -/
def Enrollment.CollisionFree (s : EnrollmentState) (calls : List (EnrollmentCall ι ε)) : Prop :=
  ∀ ev ∈ Machine.trace (enrollmentStep e) s calls, ∀ c, ev.call.operation = .accept c →
    ∀ inviteId i, ev.before.invites.get? inviteId = some i →
      let token := e.inviteKey.deriveToken inviteId ev.before.tables.identity.tenantId
        (Int.fdiv i.expiresAt secondMicroseconds)
      e.env.digestBytes (utf8 c.inviteToken) = e.env.digestBytes (utf8 token) →
        utf8 c.inviteToken = utf8 token

end Uses

/-! ## Steps -/

section Steps

variable {e : Enrollment ι ν ε} {s : EnrollmentState} {c : EnrollmentCall ι ε}

theorem utf8_injective : Function.Injective utf8 := by
  intro a b h
  have hArray : a.toUTF8.data = b.toUTF8.data := Array.toList_inj.mp h
  rw [String.toUTF8_eq_toByteArray, String.toUTF8_eq_toByteArray] at hArray
  exact String.toByteArray_inj.mp (ByteArray.ext hArray)

/-- The three ways in which an acceptance ends. -/
theorem enrollmentStep_accept {command : MembershipAcceptCommand}
    (hOperation : c.operation = .accept command) :
    (∃ failure, enrollmentStep e s c = (s, .error failure)) ∨
    (∃ row, AcceptReplayed c.tick s command row ∧
      enrollmentStep e s c = (s, .ok (.answer (.replayed row.receipt)))) ∨
    ∃ inviteId i i' m receipt,
      InviteAccepted e c.tick s (enrollmentStep e s c).1 command inviteId i i' m receipt ∧
      (enrollmentStep e s c).2 = .ok (.answer (.committed receipt)) := by
  rcases transact_cases s (runEnrollmentOperation e c.tick s c.operation) with
    ⟨s', reply, hOk, hStep⟩ | ⟨failure, -, hStep⟩
  · have hEq : enrollmentStep e s c = (s', .ok reply) := hStep
    rw [hOperation] at hOk
    simp only [runEnrollmentOperation, bind_eq_ok, Prod.exists, pure_eq_ok, Prod.mk.injEq] at hOk
    obtain ⟨s'', a, hRun, rfl, rfl⟩ := hOk
    rw [hEq]
    rcases executeMembershipAccept_ok hRun with ⟨row, hReplayed, rfl, rfl⟩ |
      ⟨inviteId, i, i', m, receipt, hAccepted, rfl⟩
    · exact Or.inr (Or.inl ⟨row, hReplayed, rfl⟩)
    · exact Or.inr (Or.inr ⟨inviteId, i, i', m, receipt, hAccepted, rfl⟩)
  · exact Or.inl ⟨failure, hStep⟩

theorem retrieves_ok {inviteId : Uuid}
    (h : EnrollmentEvent.Retrieves (Machine.eventAt (enrollmentStep e) s c) inviteId) :
    ∃ i token, SecretRetrieved e c.tick s (enrollmentStep e s c).1 inviteId i token := by
  obtain ⟨actor, token, hOperation, hResponse⟩ := h
  rcases transact_cases s (runEnrollmentOperation e c.tick s c.operation) with
    ⟨s', reply, hOk, hStep⟩ | ⟨failure, -, hStep⟩
  · have hEq : enrollmentStep e s c = (s', .ok reply) := hStep
    have hReply : (enrollmentStep e s c).2 = .ok (.secret token) := hResponse
    have hRetrieve : c.operation = .retrieveSecret actor inviteId := hOperation
    rw [hRetrieve] at hOk
    simp only [runEnrollmentOperation, bind_eq_ok, Prod.exists, pure_eq_ok, Prod.mk.injEq] at hOk
    obtain ⟨s'', token', hRun, rfl, -⟩ := hOk
    obtain ⟨i, hRetrieved⟩ := retrieveMembershipInviteSecret_ok hRun
    rw [hEq]
    exact ⟨i, token', hRetrieved⟩
  · have hEq : (enrollmentStep e s c).2 = .error failure := congrArg Prod.snd hStep
    have hReply : (enrollmentStep e s c).2 = .ok (.secret token) := hResponse
    rw [hEq] at hReply
    cases hReply

theorem verifiedEmail_ok {identity : VerifiedInviteAcceptIdentity} {email : String}
    (h : Enrollment.verifiedEmail s identity = .ok email) : AddressedTo s identity email := by
  simp only [Enrollment.verifiedEmail, bind_eq_ok, okOr_eq_ok, Option.filter_eq_some_iff,
    decide_eq_true_eq] at h
  obtain ⟨row, ⟨hRow, hIssuer, hSubject⟩, address, ⟨hAddress, hVerified⟩, hNormalized⟩ := h
  exact ⟨row, address, hRow, hIssuer, hSubject, hVerified, hAddress, hNormalized⟩

/-- A new membership is the use of an invitation. -/
theorem usesInvite_of_newcomer (hDerived : s.TokensDerived e)
    (hFree : ∀ command, c.operation = .accept command → ∀ inviteId i,
      s.invites.get? inviteId = some i →
        e.env.digestBytes (utf8 command.inviteToken) = e.env.digestBytes
          (utf8 (e.inviteKey.deriveToken inviteId s.tables.identity.tenantId
            (Int.fdiv i.expiresAt secondMicroseconds))) →
        utf8 command.inviteToken = utf8 (e.inviteKey.deriveToken inviteId
          s.tables.identity.tenantId (Int.fdiv i.expiresAt secondMicroseconds)))
    {principal : Uuid} {m : MembershipRow} (hNone : s.memberships.get? principal = none)
    (hSome : (enrollmentStep e s c).1.memberships.get? principal = some m) :
    ∃ inviteId, EnrollmentEvent.UsesInvite e (Machine.eventAt (enrollmentStep e) s c) principal
      inviteId := by
  have hUnmoved : (enrollmentStep e s c).1.tables.identity = s.tables.identity → False := by
    intro hIdentity
    rw [memberships_of_identity (s := s) hIdentity] at hSome
    exact Option.some_ne_none m (hSome.symm.trans hNone)
  have hWritten : ∀ {target row row'}, s.memberships.get? target = some row →
      (enrollmentStep e s c).1.memberships ≠ s.memberships.set target row' := by
    intro target row row' hFound hSet
    rw [hSet] at hSome
    rcases Table.get?_set_cases hSome with ⟨rfl, -⟩ | ⟨-, hOld⟩
    · exact Option.some_ne_none row (hFound.symm.trans hNone)
    · exact Option.some_ne_none m (hOld.symm.trans hNone)
  have hMove := enrollmentStep_move e s c
  generalize hOperation : c.operation = op at hMove
  cases hMove with
  | kept hIdentity hInvites hAcceptances => exact (hUnmoved hIdentity).elim
  | changed hInput hChanged hIdentity hInvites hAcceptances =>
    exact absurd (memberships_of_identity hIdentity) (hWritten hChanged.found)
  | revoked hInput hRevoked hIdentity hInvites hAcceptances =>
    exact absurd (memberships_of_identity hIdentity) (hWritten hRevoked.found)
  | invited hInvited => exact (hUnmoved hInvited.identity).elim
  | retrieved hRetrieved => exact (hUnmoved hRetrieved.identity).elim
  | @accepted command inviteId i i' m' receipt _ hAccepted =>
    obtain ⟨memberships, hInsert, hIdentity⟩ := hAccepted.admitted
    rw [memberships_of_identity hIdentity] at hSome
    rcases Table.insert?_get?_cases hInsert hSome with ⟨rfl, -⟩ | ⟨-, hOld⟩
    · have hAfter : (enrollmentStep e s c).1.invites.get? inviteId = some i' := by
        rw [hAccepted.invites]
        exact Table.get?_set_self hAccepted.found i'
      have hConsumed : i'.consumption ≠ none := by
        rw [hAccepted.consumed]
        exact Option.some_ne_none _
      have hToken := hFree command hOperation inviteId i hAccepted.found
        (hAccepted.digest.symm.trans (hDerived inviteId i hAccepted.found))
      exact ⟨inviteId, command, i, i', hOperation, rfl, hAccepted.found, hAccepted.unconsumed,
        hAfter, hConsumed, utf8_injective hToken, hAccepted.unexpired,
        verifiedEmail_ok hAccepted.verified, hAccepted.newcomer⟩
    · exact absurd (hOld.symm.trans hNone) (Option.some_ne_none m)

end Steps

/-! ## Runs -/

section Runs

variable (e : Enrollment ι ν ε) (s : EnrollmentState) (calls : List (EnrollmentCall ι ε))

/-- A mark that no row loses is on the row for good. -/
theorem marked_stays {marked : InviteRow → Prop} (hMarked : ∀ {i i'}, i.Keeps i' → marked i →
    marked i') (inviteId : Uuid) (s : EnrollmentState) (c : EnrollmentCall ι ε)
    (h : ∃ i, s.invites.get? inviteId = some i ∧ marked i) :
    ∃ i, (enrollmentStep e s c).1.invites.get? inviteId = some i ∧ marked i := by
  obtain ⟨i, hi, hMark⟩ := h
  obtain ⟨i', hi', hKeeps⟩ := (enrollmentStep_move e s c).invitesKept.kept inviteId i hi
  exact ⟨i', hi', hMarked hKeeps hMark⟩

theorem retrieved_once :
    (Machine.trace (enrollmentStep e) s calls).Pairwise fun ev ev' => ∀ inviteId,
      EnrollmentEvent.Retrieves ev inviteId → ¬ EnrollmentEvent.Retrieves ev' inviteId := by
  refine Machine.trace_pairwise (enrollmentStep e)
    (D := fun inviteId t => ∃ i, t.invites.get? inviteId = some i ∧ i.secretRetrievedAt ≠ none)
    ?_ (marked_stays e fun hKeeps => hKeeps.retrieved) ?_ s calls
  · intro inviteId t c hRetrieves
    obtain ⟨i, token, hRetrieved⟩ := retrieves_ok hRetrieves
    rw [hRetrieved.invites]
    exact ⟨_, Table.get?_set_self hRetrieved.found _, Option.some_ne_none _⟩
  · rintro inviteId t c ⟨i, hi, hBefore⟩ hRetrieves
    obtain ⟨i', token, hRetrieved⟩ := retrieves_ok hRetrieves
    cases hi.symm.trans hRetrieved.found
    exact hBefore hRetrieved.unretrieved

theorem used_once :
    (Machine.trace (enrollmentStep e) s calls).Pairwise fun ev ev' => ∀ inviteId,
      (∃ principal, EnrollmentEvent.UsesInvite e ev principal inviteId) →
        ¬ ∃ principal, EnrollmentEvent.UsesInvite e ev' principal inviteId := by
  refine Machine.trace_pairwise (enrollmentStep e)
    (D := fun inviteId t => ∃ i, t.invites.get? inviteId = some i ∧ i.consumption ≠ none)
    ?_ (marked_stays e fun hKeeps => hKeeps.consumed) ?_ s calls
  · rintro inviteId t c ⟨principal, command, i, i', -, -, -, -, hAfter, hConsumed, -⟩
    exact ⟨i', hAfter, hConsumed⟩
  · rintro inviteId t c ⟨i, hi, hBefore⟩ ⟨principal, command, j, j', -, -, hj, hOpen, -⟩
    cases hi.symm.trans hj
    exact hBefore hOpen

/-- What a committed acceptance leaves: the invitation of its token is used, and its receipt is
kept under its key. -/
def EnrollmentState.Accepted (e : Enrollment ι ν ε) (c : MembershipAcceptCommand)
    (receipt : CommandReceipt) (s : EnrollmentState) : Prop :=
  (∃ claims i, e.inviteKey.verifyToken c.inviteToken = .ok claims ∧
    s.invites.get? claims.inviteId = some i ∧ i.consumption ≠ none) ∧
  ∃ row, s.acceptances.get? (Enrollment.acceptKey c) = some row ∧ row.receipt = receipt

theorem accepted_repeats (c : MembershipAcceptCommand) (receipt : CommandReceipt)
    (s : EnrollmentState) (call : EnrollmentCall ι ε) (h : s.Accepted e c receipt) :
    EnrollmentEvent.RepeatsAccept (Machine.eventAt (enrollmentStep e) s call) c receipt := by
  obtain ⟨⟨claims, i, hClaims, hi, hUsed⟩, row, hRow, hReceipt⟩ := h
  intro c' hOperation hToken
  rcases enrollmentStep_accept (e := e) (s := s) hOperation with
    ⟨failure, hStep⟩ | ⟨row', hReplayed, hStep⟩ | ⟨inviteId, j, j', m, receipt', hAccepted, -⟩
  · exact ⟨congrArg Prod.fst hStep, Or.inl ⟨failure, congrArg Prod.snd hStep⟩⟩
  · refine ⟨congrArg Prod.fst hStep, Or.inr ⟨row'.receipt, congrArg Prod.snd hStep, ?_⟩⟩
    intro hKey
    have hFound := hReplayed.found
    rw [hKey, hRow] at hFound
    rw [← Option.some.inj hFound, hReceipt]
  · -- the token names the invitation that was used
    obtain ⟨claims', hClaims', rfl⟩ := hAccepted.named
    rw [hToken] at hClaims'
    cases hClaims.symm.trans hClaims'
    cases hi.symm.trans hAccepted.found
    exact absurd hAccepted.unconsumed hUsed

theorem accepted_repeats_after :
    (Machine.trace (enrollmentStep e) s calls).Pairwise fun ev ev' =>
      ∀ p : MembershipAcceptCommand × CommandReceipt, EnrollmentEvent.CommitsAccept ev p.1 p.2 →
        EnrollmentEvent.RepeatsAccept ev' p.1 p.2 := by
  refine Machine.trace_pairwise (enrollmentStep e) (D := fun p t => t.Accepted e p.1 p.2)
    ?_ ?_ (fun p t c => accepted_repeats e p.1 p.2 t c) s calls
  · rintro ⟨c, receipt⟩ t call ⟨hOperation, hResponse⟩
    have hAccept : call.operation = .accept c := hOperation
    have hReply : (enrollmentStep e t call).2 = .ok (.answer (.committed receipt)) := hResponse
    rcases enrollmentStep_accept (e := e) (s := t) hAccept with
      ⟨failure, hStep⟩ | ⟨row, -, hStep⟩ | ⟨inviteId, i, i', m, receipt', hAccepted, hCommitted⟩
    · rw [hStep] at hReply
      cases hReply
    · rw [hStep] at hReply
      cases hReply
    · cases hReply.symm.trans hCommitted
      obtain ⟨claims, hClaims, rfl⟩ := hAccepted.named
      have hAfter : (enrollmentStep e t call).1.invites.get? claims.inviteId = some i' := by
        rw [hAccepted.invites]
        exact Table.get?_set_self hAccepted.found i'
      have hConsumed : i'.consumption ≠ none := by
        rw [hAccepted.consumed]
        exact Option.some_ne_none _
      exact ⟨⟨claims, i', hClaims, hAfter, hConsumed⟩, _,
        Table.insert?_get?_self hAccepted.acceptances, rfl⟩
  · rintro ⟨c, receipt⟩ t call ⟨⟨claims, i, hClaims, hUsed⟩, row, hRow, hReceipt⟩
    have hMove := enrollmentStep_move e t call
    obtain ⟨i', hi', hConsumed⟩ := marked_stays e (fun hKeeps => hKeeps.consumed) claims.inviteId t
      call ⟨i, hUsed⟩
    exact ⟨⟨claims, i', hClaims, hi', hConsumed⟩, row, hMove.acceptances hRow, hReceipt⟩

/-- In every run each secret is handed out once at most; a membership is new only by the use of an
invitation, which is used once at most; and after an acceptance the same token changes nothing. -/
theorem invites_used_once (hDerived : s.TokensDerived e) (hFree : e.CollisionFree s calls) :
    ((Machine.trace (enrollmentStep e) s calls).Pairwise fun ev ev' => ∀ inviteId,
      EnrollmentEvent.Retrieves ev inviteId → ¬ EnrollmentEvent.Retrieves ev' inviteId) ∧
    (∀ ev ∈ Machine.trace (enrollmentStep e) s calls, ∀ principal m,
      ev.before.memberships.get? principal = none →
      ev.after.memberships.get? principal = some m →
      ∃ inviteId, EnrollmentEvent.UsesInvite e ev principal inviteId) ∧
    ((Machine.trace (enrollmentStep e) s calls).Pairwise fun ev ev' => ∀ inviteId,
      (∃ principal, EnrollmentEvent.UsesInvite e ev principal inviteId) →
        ¬ ∃ principal, EnrollmentEvent.UsesInvite e ev' principal inviteId) ∧
    (Machine.trace (enrollmentStep e) s calls).Pairwise fun ev ev' =>
      ∀ c receipt, EnrollmentEvent.CommitsAccept ev c receipt →
        EnrollmentEvent.RepeatsAccept ev' c receipt := by
  refine ⟨retrieved_once e s calls, fun ev hev principal m hNone hSome => ?_,
    used_once e s calls, (accepted_repeats_after e s calls).imp fun h c receipt => h (c, receipt)⟩
  have hFreeHere := hFree ev hev
  obtain ⟨before, after, -, hEvent⟩ := Machine.mem_trace _ hev
  have hReached : (Machine.run (enrollmentStep e) s before).TokensDerived e :=
    Machine.run_invariant (enrollmentStep e)
      (fun t c ht => (enrollmentStep_move e t c).tokensDerived ht) hDerived before
  rw [hEvent] at hNone hSome hFreeHere ⊢
  exact usesInvite_of_newcomer hReached hFreeHere hNone hSome

end Runs

namespace Sample

/-- The editor asks for the secret of an invitation. -/
def retrieveCall (n : Nat) (inviteId : Uuid) : EnrollmentCall Empty Empty :=
  { tick := reading n, operation := .retrieveSecret colleague inviteId }

/-- The guest is invited, the secret is asked for twice, and the guest accepts twice. -/
def welcome : List (EnrollmentCall Empty Empty) :=
  [inviteCall 1 ["EDITOR"], retrieveCall 2 (invitationOf 1), retrieveCall 3 (invitationOf 1),
    acceptCall 4 (tokenOf 1), acceptCall 5 (tokenOf 1)]

noncomputable def byteWelcome : { f // welcome = f } :=
  ⟨_, by
    delta welcome inviteCall acceptCall
    rw [byteToken.2, Uuid.toId_bytewise, digest_bytewise]⟩

theorem welcome_collisionFree : enrollment.CollisionFree reception welcome := by
  have hTokens : ∀ ev ∈ Machine.trace (enrollmentStep enrollment) reception welcome,
      ∀ p ∈ ev.before.invites.rows, ∀ c ∈ (match ev.call.operation with
        | .accept c => [c]
        | _ => []),
      utf8 c.inviteToken = utf8 (inviteKey.deriveToken p.1 ev.before.tables.identity.tenantId
        (Int.fdiv p.2.expiresAt secondMicroseconds)) := by
    delta InviteTokenKey.deriveToken
    rw [enrollmentStep_bytewise, enrollment_bytewise, byteInviteKey.2, byteWelcome.2,
      Uuid.toText_bytewise]
    decide +kernel
  intro ev hev c hOperation inviteId i hi token hDigest
  refine hTokens ev hev (inviteId, i) (Table.get?_eq_some_iff.mp hi) c ?_
  rw [hOperation]
  exact List.mem_cons_self

end Sample

/-- The second question for the secret is refused, and so is a second membership. -/
theorem welcomed_once :
    ((Machine.trace (enrollmentStep Sample.enrollment) Sample.reception
      Sample.welcome).Pairwise fun ev ev' => ∀ inviteId,
        EnrollmentEvent.Retrieves ev inviteId → ¬ EnrollmentEvent.Retrieves ev' inviteId) ∧
    ((Machine.trace (enrollmentStep Sample.enrollment) Sample.reception
      Sample.welcome).map fun ev => match ev.response with
        | .ok (.secret _) => "secret"
        | .ok (.answer (.committed _)) => "committed"
        | .ok (.answer (.replayed _)) => "replayed"
        | .ok _ => "done"
        | .error failure => failure.code) =
      ["committed", "secret", "INVITE_SECRET_ALREADY_RETRIEVED", "committed", "replayed"] := by
  refine ⟨(invites_used_once Sample.enrollment Sample.reception Sample.welcome
    (fun _ _ hi => by cases hi) Sample.welcome_collisionFree).1, ?_⟩
  rw [enrollmentStep_bytewise, Sample.enrollment_bytewise, Sample.byteWelcome.2]
  decide +kernel

end Masonwing
