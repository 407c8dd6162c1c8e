import Masonwing.Proofs.Sources

/-!
# When a command is accepted

Before its handler a command passes the gates of `execute`: its form, the epochs of its actor, the
policy, and the projection that it is authorized against. For a well-formed command of a current
actor under a policy that permits everything only the last one is left, and it is a fact about the
read side: the projection has to be visible.

* `Displayed`: a projection of the resource is visible; recording hides nothing;
* `authorizeCommand_iff`: authorization under a permissive policy is visibility;
* `Presented.admitted_iff`: so is admission;
* `Presented.commits`: an admitted command commits if it is handled and recorded.
-/

namespace Masonwing

open Outcome

/-! ## Visibility -/

/-- A projection of the resource has an artifact that is neither quarantined nor tombstoned. -/
def Displayed (j : Journal) (kind id : String) : Prop :=
  ∃ v row a, j.projections.get? ⟨kind, id, v⟩ = some row ∧
    j.artifacts.get? row.artifactId = some a ∧ a.state = .active

theorem exists_currentProjection_iff {j : Journal} {kind id : String} :
    (∃ found, currentProjection j kind id = some found) ↔ Displayed j kind id := by
  rw [← Option.isSome_iff_exists, Option.isSome_iff_ne_none, currentProjection, Ne,
    foldl_newer_none]
  constructor
  · intro hSome
    obtain ⟨found, hMem⟩ := List.exists_mem_of_ne_nil _ hSome
    obtain ⟨⟨key, row⟩, hSelected, hFound⟩ := List.mem_filterMap.mp hMem
    obtain ⟨hRow, hKey⟩ := Table.mem_select.mp hSelected
    obtain ⟨rfl, rfl⟩ := of_decide_eq_true hKey
    obtain ⟨a, ha, -⟩ := Option.map_eq_some_iff.mp hFound
    obtain ⟨hArtifact, hActive⟩ := Option.filter_eq_some_iff.mp ha
    exact ⟨key.version, row, a, hRow, hArtifact, of_decide_eq_true hActive⟩
  · rintro ⟨v, row, a, hRow, hArtifact, hActive⟩
    refine List.ne_nil_of_mem (List.mem_filterMap.mpr ⟨(⟨kind, id, v⟩, row), ?_, ?_⟩ : (v, a) ∈ _)
    · exact Table.mem_select.mpr ⟨hRow, decide_eq_true ⟨rfl, rfl⟩⟩
    · refine Option.map_eq_some_iff.mpr ⟨a, ?_, rfl⟩
      exact Option.filter_eq_some_iff.mpr ⟨hArtifact, decide_eq_true hActive⟩

section Recording

variable {env : Env} {tick : Tick} {actor : CommandActor} {operation : String} {index : Nat}
  {j j' : Journal}

/-- Recording hides nothing. -/
theorem Displayed.recorded {changes : List ProjectionChange} {kind id : String}
    (h : Displayed j kind id)
    (hRecord : recordChanges env tick actor operation index j changes = .ok j') :
    Displayed j' kind id := by
  obtain ⟨v, row, a, hRow, hArtifact, hActive⟩ := h
  have hRows := recordChanges_ok hRecord
  have hKept : j'.projections.get? ⟨kind, id, v⟩ = j.projections.get? ⟨kind, id, v⟩ := by
    refine hRows.kept _ fun change hMem hKey => ?_
    have hFresh := hRows.fresh change hMem
    rw [hKey, hRow] at hFresh
    cases hFresh
  exact ⟨v, row, a, hKept.trans hRow,
    (recordChanges_appended hRecord).artifacts_kept _ _ hArtifact, hActive⟩

/-- What is recorded is visible. -/
theorem recordChanges_displays {change : ProjectionChange} {changes : List ProjectionChange}
    (hRecord : recordChanges env tick actor operation index j (change :: changes) = .ok j') :
    Displayed j' change.resource.resourceType change.resource.resourceId.text := by
  rw [recordChanges, bind_eq_ok] at hRecord
  obtain ⟨j₁, hFirst, hRest⟩ := hRecord
  refine Displayed.recorded ?_ hRest
  simp only [recordChange, writeProjection, bind_eq_ok, pure_eq_ok, sql_eq_ok, insertRow_eq_ok,
    Prod.exists, Prod.mk.injEq] at hFirst
  obtain ⟨_, artifact, ⟨-, -, bytes, -, found, -, classification, -, j₂, reference, hPersist, -, -,
    projections, hInsert, rfl, -⟩, principal, -, resource, -, audit, -, -, -, outbox, -, rfl⟩ :=
    hFirst
  obtain ⟨a, hArtifact, hActive, -⟩ := persistArtifact_ok hPersist
  exact ⟨_, _, a, Table.insert?_get?_self hInsert, Table.insert?_get?_self hArtifact, hActive⟩

end Recording

/-! ## Admission -/

/-- The policy of the tenant parses and permits everything. -/
structure Permissive (env : Env) (t : Tables) : Prop where
  parses : ∀ policy, t.identity.policy = some policy → env.policyParses policy = true
  permits : ∀ policy, t.identity.policy = some policy →
    ∀ principal action kind id attributes,
      env.policyPermits policy principal action kind id attributes = true

/-- The projection that a command is authorized against is visible. -/
def Visible (t : Tables) (input : CommandInput) : Prop :=
  ∀ kind id, input.authorizationTarget = some (kind, id) → Displayed t.journal kind id

/-- A well-formed command of an actor with current epochs, under a key that was not used before.
The actor names the tenant by its canonical text, as the host does. -/
structure Presented (env : Env) (catalogue : Catalogue) (s : Store) (c : Command CommandInput) :
    Prop where
  valid : catalogue.inputValid c.input = true
  fingerprint : catalogue.fingerprint c.input = some c.fingerprint
  actor : beginActor s.tables c.actor = .ok ()
  tenant : c.actor.tenantId = s.tables.identity.tenantId.toId
  unused : ∀ principal, s.receipts.get? (receiptKey (service env catalogue) c principal) = none

section Admission

variable {env : Env} {catalogue : Catalogue} {tick : Tick} {s : Store} {t : Tables}
  {c : Command CommandInput}

theorem beginActor_ok {actor : CommandActor} (h : beginActor t actor = .ok ()) :
    t.identity.tenantActive = true ∧ ∃ principal membership policy,
      parseUuid actor.principalId.text = .ok principal ∧
      t.identity.memberships.get? principal = some membership ∧ membership.status = .active ∧
      t.identity.policy = some policy := by
  simp only [beginActor, bind_eq_ok, require_eq_ok, okOr_eq_ok, exists_const] at h
  obtain ⟨tenant, -, principal, hPrincipal, ⟨-, hTenant⟩, membership, hMembership, ⟨hActive, -⟩,
    policy, hPolicy, -⟩ := h
  exact ⟨hTenant, principal, membership, policy, hPrincipal, hMembership, hActive, hPolicy⟩

/-- A current actor has a policy to read, which permits whatever it is asked. -/
theorem Permissive.readPolicy (h : Permissive env t) {actor : CommandActor}
    (hActor : beginActor t actor = .ok ()) :
    ∃ policy, readPolicy env t actor = .ok policy ∧
      ∀ action kind id attributes, policy.permits env action kind id attributes = true := by
  obtain ⟨-, principal, membership, policy, hPrincipal, hMembership, hActive, hPolicy⟩ :=
    beginActor_ok hActor
  have hCurrent : currentPolicy env t principal = .ok (membership, policy) := by
    simp only [currentPolicy, bind_eq_ok, okOr_eq_ok, require_eq_ok, pure_eq_ok, exists_const]
    exact ⟨membership, hMembership, hActive, policy, hPolicy, h.parses policy hPolicy, rfl⟩
  rw [Masonwing.readPolicy, hPrincipal]
  change ∃ found, (currentPolicy env t principal >>= _) = .ok found ∧ _
  rw [hCurrent]
  exact ⟨_, rfl, fun action kind id attributes => h.permits policy hPolicy _ _ _ _ _⟩

/-- Under a permissive policy a command is authorized exactly if what it is about is visible. -/
theorem authorizeCommand_iff (hPolicy : Permissive env t)
    (hActor : beginActor t c.actor = .ok ()) :
    authorizeCommand env t c = .ok () ↔ Visible t c.input := by
  obtain ⟨policy, hRead, hPermits⟩ := hPolicy.readPolicy hActor
  simp only [authorizeCommand, authorizationResource, bind_eq_ok, require_eq_ok, hRead,
    Except.ok.injEq, exists_eq_left', hPermits, and_true]
  unfold Visible
  cases hTarget : c.input.authorizationTarget with
  | none => exact ⟨fun _ kind id hNone => (by cases hNone), fun _ => ⟨_, rfl⟩⟩
  | some target =>
    obtain ⟨kind, id⟩ := target
    simp only [bind_eq_ok, okOr_eq_ok, pure_eq_ok]
    constructor
    · rintro ⟨_, found, hFound, -⟩ kind' id' hSame
      cases hSame
      exact exists_currentProjection_iff.mp ⟨found, hFound⟩
    · intro hVisible
      obtain ⟨found, hFound⟩ := exists_currentProjection_iff.mpr (hVisible kind id rfl)
      exact ⟨_, found, hFound, rfl⟩

namespace Presented

theorem principal (h : Presented env catalogue s c) :
    ∃ principal, parseUuid c.actor.principalId.text = .ok principal := by
  obtain ⟨-, principal, -, -, hPrincipal, -⟩ := beginActor_ok h.actor
  exact ⟨principal, hPrincipal⟩

/-- A presented command is admitted exactly if what it is about is visible. -/
theorem admitted_iff (h : Presented env catalogue s c) (hPolicy : Permissive env s.tables) :
    (∃ principal, admitCommand (service env catalogue) s c = .ok principal) ↔
      Visible s.tables c.input := by
  rw [← authorizeCommand_iff hPolicy h.actor]
  constructor
  · rintro ⟨principal, hAdmit⟩
    exact (admitCommand_ok hAdmit).2
  · intro hAuthorized
    obtain ⟨principal, hPrincipal⟩ := h.principal
    refine ⟨principal, ?_⟩
    simp only [admitCommand, bind_eq_ok, require_eq_ok, okOr_eq_ok, exists_const]
    exact ⟨h.valid, _, h.fingerprint, rfl, (), h.actor, (), hAuthorized, hPrincipal⟩

theorem receipt_none (h : Presented env catalogue s c) (principal : Uuid) :
    liveReceipt tick s (receiptKey (service env catalogue) c principal) = none := by
  rw [liveReceipt, h.unused principal]
  rfl

end Presented

theorem CommandInput.operation_length (input : CommandInput) :
    1 ≤ input.operation.toList.length ∧ input.operation.toList.length ≤ 128 := by
  cases input <;> dsimp only [CommandInput.operation] <;> decide

/-- An admitted command that is handled and recorded commits. -/
theorem Presented.commits (h : Presented env catalogue s c) (hPolicy : Permissive env s.tables)
    (hVisible : Visible s.tables c.input) {t : Tables} {m : Mutation} {j : Journal}
    (hHandle : dispatchCommand env tick s.tables c = .ok (t, m))
    (hRun : m.accepted = true → m.runId ≠ none)
    (hRecord : recordChanges env tick c.actor c.input.operation 0 t.journal m.changes = .ok j)
    (hReceipt : env.receiptValid (commandReceipt tick m) = true) :
    ∃ s', execute env (service env catalogue) tick s c =
        .ok (s', .committed (commandReceipt tick m)) ∧ s'.tables = { t with journal := j } := by
  obtain ⟨principal, hAdmit⟩ := (h.admitted_iff hPolicy).mpr hVisible
  rw [execute_new hAdmit (h.receipt_none principal)]
  exact commitCommand_of_recorded c.input.operation_length hHandle hRun hRecord hReceipt

end Admission

end Masonwing
