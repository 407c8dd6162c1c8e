import Masonwing.Proofs.HostShows
import Masonwing.Proofs.Acceptance
import Masonwing.Proofs.Evaluation

/-!
# Revoking a connection

A revocation is authorized against the newest visible projection of the connection. The
authorization of a connector stores the row of its connection without such a projection, and no
other operation shows a connection that was not shown before. So in a tenant that began without any
connection none is ever shown, and none can be revoked.
-/

namespace Masonwing

open Outcome

variable {ι ν ε : Type}

/-- No connection has a projection. -/
def NoConnectionShown (j : Journal) : Prop :=
  ∀ k p, j.projections.get? k = some p → k.resourceType ≠ "Connection"

theorem NoConnectionShown.not_displayed {j : Journal} (h : NoConnectionShown j) (id : String) :
    ¬Displayed j "Connection" id := by
  rintro ⟨v, row, a, hRow, -⟩
  exact h _ row hRow rfl

theorem NoConnectionShown.currentProjection {j : Journal} (h : NoConnectionShown j) (id : String) :
    currentProjection j "Connection" id = none := by
  cases hFound : Masonwing.currentProjection j "Connection" id with
  | none => rfl
  | some found => exact absurd (exists_currentProjection_iff.mp ⟨found, hFound⟩) (h.not_displayed id)

-- The small tenant was set up with a connection that is shown.
example : (currentProjection Sample.office.store.tables.journal "Connection"
    Sample.connectionId.toText).isSome = true := by decide +kernel

/-- Only a revocation is about a connection. -/
theorem CommandInput.kind_connection {input : CommandInput} (h : input.kind = some "Connection") :
    ∃ connectionId expected reason, input = .connectionRevoke connectionId expected reason := by
  cases input with
  | connectionRevoke connectionId expected reason => exact ⟨connectionId, expected, reason, rfl⟩
  | _ => simp [CommandInput.kind] at h

section Authorization

variable {env : Env} {t : Tables} {c : Command CommandInput} {connectionId reason : String}
  {expected : Int}

theorem authorizationResource_revoke (h : NoConnectionShown t.journal)
    (hInput : c.input = .connectionRevoke connectionId expected reason) :
    authorizationResource t c.input = .error .notFound := by
  rw [hInput]
  simp only [authorizationResource, CommandInput.authorizationTarget,
    h.currentProjection connectionId]
  rfl

theorem not_authorized_revoke (h : NoConnectionShown t.journal)
    (hInput : c.input = .connectionRevoke connectionId expected reason) :
    authorizeCommand env t c ≠ .ok () := by
  intro hAuthorized
  simp only [authorizeCommand, authorizationResource_revoke h hInput, bind_eq_ok] at hAuthorized
  obtain ⟨policy, -, resource, hNone, -⟩ := hAuthorized
  cases hNone

/-- A revocation that is presented in the right way is turned away as not found. -/
theorem execute_revoke {catalogue : Catalogue} {tick : Tick} {s : Store}
    (h : NoConnectionShown s.tables.journal)
    (hInput : c.input = .connectionRevoke connectionId expected reason)
    (hPresented : Presented env catalogue s c) (hPolicy : Permissive env s.tables) :
    execute env (service env catalogue) tick s c = .error .notFound := by
  obtain ⟨policy, hRead, -⟩ := hPolicy.readPolicy hPresented.actor
  have hAuthorize : authorizeCommand env s.tables c = .error .notFound := by
    rw [authorizeCommand, hRead]
    change (authorizationResource s.tables c.input >>= _) = _
    rw [authorizationResource_revoke h hInput]
    rfl
  have hAdmit : admitCommand (service env catalogue) s c = .error .notFound := by
    have hValid : (service env catalogue).inputValid c.input = true := hPresented.valid
    have hPrint : (service env catalogue).fingerprint c.input = some c.fingerprint :=
      hPresented.fingerprint
    have hDenied : (service env catalogue).authorize s.tables c = .error .notFound := hAuthorize
    rw [admitCommand, (require_eq_ok (u := ())).mpr hValid, hPrint, hPresented.actor, hDenied]
    change (require (c.fingerprint = c.fingerprint) _ >>= _) = _
    rw [(require_eq_ok (u := ())).mpr rfl]
    rfl
  rw [execute, hAdmit]
  rfl

end Authorization

theorem NoConnectionShown.step {h : Host ι ν ε} {s : HostState} {c : HostCall ι ε}
    (hNone : NoConnectionShown s.store.tables.journal) :
    NoConnectionShown (hostStep h s c).1.store.tables.journal := by
  refine hostStep_keeps (I := NoConnectionShown) (fun act j _ hMove hOld => ?_)
    (fun act j changes _ _ hRecords i j₁ j₂ change hMem hWritten hOld k p hp hKind => ?_) hNone
  · intro k p hp
    rw [hMove.projections] at hp
    exact hOld k p hp
  · obtain ⟨q, hShown, -⟩ := hWritten.projection
    rcases Table.insert?_get?_cases hShown hp with ⟨rfl, -⟩ | ⟨-, hp⟩
    · have hChange : change.resource.resourceType = "Connection" := hKind
      have hPlatform : PlatformKind change.resource.resourceType := by
        rw [hChange]
        exact platformKind_connection
      rcases hRecords.platform hMem hPlatform with ⟨command, t₁, m, -, hAuthorized, hHandled, -, hIn⟩ |
        ⟨command, plugin, text, reason, digest, id, r, r', runs, -, -, -, -, -, -, hStopped⟩
      · cases dispatchCommand_shows hHandled with
        | run hMutation =>
          rw [hMutation, runMutation, Mutation.withSourceArtifact, Mutation.one, List.map_singleton,
            List.mem_singleton] at hIn
          rw [hIn] at hChange
          exact absurd hChange (by simp [resourceRef])
        | effect hMutation =>
          rw [hMutation, effectMutation, Mutation.one, List.mem_singleton] at hIn
          rw [hIn] at hChange
          exact absurd hChange (by simp [resourceRef])
        | other hOnly hKinds =>
          rw [← hOnly change hIn, hChange] at hKinds
          obtain ⟨connectionId, expected, reason, hInput⟩ := CommandInput.kind_connection hKinds
          exact not_authorized_revoke hNone hInput hAuthorized
      · rw [hStopped] at hChange
        exact absurd hChange (by simp [stoppedChange, resourceRef])
    · exact hOld k p hp hKind

/-- A command that fails leaves the host as it was. -/
theorem hostStep_core_error {h : Host ι ν ε} {t : HostState} {tick : Tick} {c : Command CommandInput}
    {failure : CommandFailure}
    (hFails : execute h.platform.env (service h.platform.env h.platform.catalogue.core) tick t.store
      c = .error failure) :
    hostStep h t ⟨tick, .platform (.core (.command c))⟩ = (t, .error failure) := by
  rw [hostStep]
  dsimp only [runHostOperation, runPlatformOperation, runOperation]
  rw [hFails]
  rfl

/-- In a tenant that began without any connection every revocation of a connection fails and
changes nothing; one that is presented in the right way, under a policy that permits everything, is
answered as if the connection was not there. -/
theorem connection_never_revoked (h : Host ι ν ε) (s : HostState)
    (hEmpty : NoConnectionShown s.store.tables.journal) (calls : List (HostCall ι ε)) {t : HostState}
    (hEnd : t = Machine.run (hostStep h) s calls) (tick : Tick) (c : Command CommandInput)
    {connectionId reason : String} {expected : Int}
    (hInput : c.input = .connectionRevoke connectionId expected reason) :
    (∃ failure, hostStep h t ⟨tick, .platform (.core (.command c))⟩ = (t, .error failure)) ∧
    (Presented h.platform.env h.platform.catalogue.core t.store c →
      Permissive h.platform.env t.store.tables →
        hostStep h t ⟨tick, .platform (.core (.command c))⟩ = (t, .error .notFound)) := by
  have hNone : NoConnectionShown t.store.tables.journal := by
    rw [hEnd]
    exact Machine.run_invariant (hostStep h) (I := fun s => NoConnectionShown s.store.tables.journal)
      (fun s c hOld => hOld.step) hEmpty calls
  refine ⟨?_, fun hPresented hPolicy => hostStep_core_error (execute_revoke hNone hInput hPresented
    hPolicy)⟩
  cases hRun : execute h.platform.env (service h.platform.env h.platform.catalogue.core) tick t.store
      c with
  | error failure => exact ⟨failure, hostStep_core_error hRun⟩
  | ok result =>
    obtain ⟨principal, hAdmit, -⟩ := execute_ok hRun
    exact absurd (admitCommand_ok hAdmit).2 (not_authorized_revoke hNone hInput)

namespace Sample

/-- The office without any connection, before anything was shown. -/
def newOffice : HostState :=
  { office with
    store := { office.store with
      tables := { office.store.tables with
        connections := .empty
        journal := { office.store.tables.journal with projections := .empty } } } }

def authorizeCall (n : Nat) : HostCall Empty Empty :=
  hostCommand n (.connectionAuthorize "mail" ["send"] "/connections")

def authorizedConnection (n : Nat) : Uuid := (tick n).draw .connection

def revokeCommand (n : Nat) (connection : Uuid) : Command CommandInput :=
  { actor, input := .connectionRevoke connection.toText 1 "compromised"
    idempotencyKey := (uuid n).toId
    fingerprint := digest "connection.revoke".toUTF8.data.toList }

def revokeCall (n : Nat) (connection : Uuid) : HostCall Empty Empty :=
  ⟨reading n, .platform (.core (.command (revokeCommand n connection)))⟩

theorem newOffice_unshown : NoConnectionShown newOffice.store.tables.journal := by
  intro k p hp
  cases Table.get?_eq_some_iff.mp hp

theorem begun {t : Tables} {a : CommandActor} (h : (beginActor t a).isOk = true) :
    beginActor t a = .ok () := by
  cases hBegin : beginActor t a with
  | ok u => rfl
  | error failure =>
    rw [hBegin] at h
    cases h

theorem permissive_env (t : Tables) : Permissive env t :=
  ⟨fun _ _ => rfl, fun _ _ _ _ _ _ _ => rfl⟩

end Sample

/-- The connection of the authorization is pending, in its first version, and no revocation of this
version by a current actor changes that. -/
theorem authorized_connection_not_revoked :
    ((Machine.run (hostStep Sample.host) Sample.newOffice
      [Sample.authorizeCall 1]).store.tables.connections.get?
        (Sample.authorizedConnection 1)).map (fun c => (c.state, c.version)) =
          some (.pending, .one) ∧
    ((Machine.run (hostStep Sample.host) Sample.newOffice
      [Sample.authorizeCall 1, Sample.revokeCall 2
        (Sample.authorizedConnection 1)]).store.tables.connections.get?
        (Sample.authorizedConnection 1)).map (fun c => (c.state, c.version)) =
          some (.pending, .one) := by
  rw [hostStep_bytewise, Sample.host_bytewise]
  decide +kernel

theorem authorized_connection_not_found :
    hostStep Sample.host
        (Machine.run (hostStep Sample.host) Sample.newOffice [Sample.authorizeCall 1])
        ⟨Sample.reading 2, .platform (.core (.command
          (Sample.revokeCommand 2 (Sample.authorizedConnection 1))))⟩ =
      (Machine.run (hostStep Sample.host) Sample.newOffice [Sample.authorizeCall 1],
        .error .notFound) := by
  have hState : (Machine.run (hostStep Sample.host) Sample.newOffice
        [Sample.authorizeCall 1]).store.tables.identity.tenantId = Sample.tenantId ∧
      (Machine.run (hostStep Sample.host) Sample.newOffice
        [Sample.authorizeCall 1]).store.receipts.any
          (fun k _ => decide (k.operation = "connection.revoke")) = false ∧
      (beginActor (Machine.run (hostStep Sample.host) Sample.newOffice
        [Sample.authorizeCall 1]).store.tables Sample.actor).isOk = true := by
    rw [hostStep_bytewise, Sample.host_bytewise]
    decide +kernel
  obtain ⟨hTenant, hUnused, hActor⟩ := hState
  refine (connection_never_revoked Sample.host Sample.newOffice Sample.newOffice_unshown
    [Sample.authorizeCall 1] rfl (Sample.reading 2)
    (Sample.revokeCommand 2 (Sample.authorizedConnection 1)) rfl).2 ⟨rfl, rfl, ?_, ?_, ?_⟩
    (Sample.permissive_env _)
  · exact Sample.begun hActor
  · rw [hTenant]
    rfl
  · intro principal
    cases hReceipt : (Machine.run (hostStep Sample.host) Sample.newOffice
      [Sample.authorizeCall 1]).store.receipts.get? (receiptKey (service Sample.host.platform.env
        Sample.host.platform.catalogue.core)
        (Sample.revokeCommand 2 (Sample.authorizedConnection 1)) principal) with
    | none => rfl
    | some row =>
      rw [Table.any_iff.mpr ⟨_, row, hReceipt, decide_eq_true rfl⟩] at hUnused
      cases hUnused

end Masonwing
