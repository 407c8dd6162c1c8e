import Masonwing.Proofs.Ancestry
import Masonwing.Proofs.EffectLifecycle
import Masonwing.Proofs.Evaluation

/-!
# Authority at dispatch

An effect is admitted under an active connection and an active grant, and dispatched later. The
admission is the only place that looks at them: what is left of it at the dispatch is what no
revocation and no expiry took away in between.

* `Backs`: a connection and a grant as an effect relies on them, with the revocations so far;
  kept by every step (`Backs.extend`);
* `RevocationsStay`: what was revoked is revoked;
* `authority_current_iff`: the authority of a dispatched effect is current exactly if nothing of
  it was revoked before and the grant itself has not expired.
-/

namespace Masonwing

open Outcome Relation

/-! ## One connection in one step -/

/-- A step leaves a connection as it is, or revokes it. -/
theorem Change.connection {env : Env} {tick : Tick} {t t' : Tables} {a : Act}
    (h : Change env tick t a t') (id : Uuid) :
    (t'.connections.get? id = t.connections.get? id ∧ a ≠ .revokeConnection id) ∨
      (a = .revokeConnection id ∧
        ∃ c, t'.connections.get? id = some c ∧ c.state = .revoked) := by
  cases h with
  | @connectionRevoked i c c' j hFound hState =>
    by_cases hId : id = i
    · subst hId
      exact Or.inr ⟨rfl, c', Table.get?_set_self hFound c', hState⟩
    · refine Or.inl ⟨Table.get?_set_ne _ hId _, fun h => ?_⟩
      cases h
      exact hId rfl
  | _ => exact Or.inl ⟨rfl, fun h => by cases h⟩

/-! ## What an effect relies on -/

/-- The events committed the act at some time. -/
def DidIn (a : Act) (events : List SystemEvent) : Prop := ∃ event ∈ events, event.did a

theorem DidIn.not_nil (a : Act) : ¬DidIn a [] := by
  rintro ⟨e, he, -⟩
  cases he

theorem DidIn.mono {a : Act} {past : List SystemEvent} (h : DidIn a past) (event : SystemEvent) :
    DidIn a (past ++ [event]) := by
  obtain ⟨e, he, hDid⟩ := h
  exact ⟨e, List.mem_append_left _ he, hDid⟩

theorem DidIn.last {a : Act} {event : SystemEvent} (h : event.did a) (past : List SystemEvent) :
    DidIn a (past ++ [event]) := ⟨event, List.mem_append_right _ List.mem_cons_self, h⟩

/-- A connection and a grant that were admitted: each of them, and each ancestor of the grant, is
active or was revoked in the past. -/
structure Backs (past : List SystemEvent) (t : Tables) (connection grant : Uuid) : Prop where
  connected : ∃ c, t.connections.get? connection = some c ∧
    (c.state = .active ∨ DidIn (.revokeConnection connection) past)
  granted : ∃ d, t.delegations.get? grant = some d
  ancestors : ∀ a d, Ancestor t.delegations grant a → t.delegations.get? a = some d →
    d.state = .active ∨
      ∃ g, Ancestor t.delegations grant g ∧ DidIn (.revokeGrant g) past

section Steps

variable {env : Env} {catalogue : Catalogue} {s : Store} {c : Call}

/-- The admission of a proposal finds its connection and its grant active. -/
theorem Admitted.backs {tick : Tick} {t : Tables} {actor : CommandActor} {p : Proposal}
    (h : Admitted env tick t actor p) (past : List SystemEvent) :
    Backs past t p.connectionId p.grantId := by
  obtain ⟨row, hRow, hActive⟩ := h.connection
  obtain ⟨g, hGrant⟩ := h.grant
  obtain ⟨hCurrent, d, hFound, -⟩ := requireActiveGrant_ok hGrant
  refine ⟨⟨row, hRow, Or.inl hActive⟩, ⟨d, hFound⟩, fun a d hAncestor hd => Or.inl ?_⟩
  have hTop := hCurrent _ (mem_ancestry hAncestor hd)
  rw [DelegationRow.current, Bool.and_eq_true] at hTop
  exact of_decide_eq_true hTop.1

/-- A step keeps what an effect relies on, up to the revocations it commits. -/
theorem Backs.extend {past : List SystemEvent} {connection grant : Uuid}
    (hScope : Attenuated s.tables.delegations) (h : Backs past s.tables connection grant) :
    Backs (past ++ [Machine.eventAt (step env catalogue) s c]) (step env catalogue s c).1.tables
      connection grant := by
  rcases step_change env catalogue s c with ⟨-, hSame⟩ | ⟨a, hDid, hChange⟩
  · rw [hSame]
    refine ⟨?_, h.granted, fun a d hAncestor hd => ?_⟩
    · obtain ⟨row, hRow, hState⟩ := h.connected
      exact ⟨row, hRow, hState.imp_right fun hPast => hPast.mono _⟩
    · rcases h.ancestors a d hAncestor hd with hActive | ⟨g, hg, hPast⟩
      · exact Or.inl hActive
      · exact Or.inr ⟨g, hg, hPast.mono _⟩
  · obtain ⟨root, hRoot⟩ := h.granted
    refine ⟨?_, ?_, fun top d hAncestor hd => ?_⟩
    · rcases hChange.connection connection with ⟨hRow, -⟩ | ⟨rfl, row, hRow, -⟩
      · obtain ⟨row, hFound, hState⟩ := h.connected
        exact ⟨row, hRow.trans hFound, hState.imp_right fun hPast => hPast.mono _⟩
      · exact ⟨row, hRow, Or.inr (DidIn.last hDid past)⟩
    · obtain ⟨root', hRoot', -⟩ := hChange.grant_kept hRoot
      exact ⟨root', hRoot'⟩
    · have hLinks : ∀ x, Ancestor (step env catalogue s c).1.tables.delegations grant x ↔
          Ancestor s.tables.delegations grant x := fun x => ancestor_change hScope hChange hRoot
      have hBefore := (hLinks top).mp hAncestor
      cases hChange.grant top with
      | same hRow hAct =>
        rcases h.ancestors top d hBefore (hRow ▸ hd) with hActive | ⟨g, hg, hPast⟩
        · exact Or.inl hActive
        · exact Or.inr ⟨g, (hLinks g).mpr hg, hPast.mono _⟩
      | created hNone hRow hAdmitted hAct =>
        -- an ancestor of a stored grant was stored before
        obtain ⟨old, hOld, -⟩ := hScope.ancestor hRoot hBefore
        cases hNone.symm.trans hOld
      | @revoked _ _ g hFound hRow hActive hRevoke hAct hAbove =>
        subst hAct
        exact Or.inr ⟨g, (hLinks g).mpr (ReflTransGen.trans hBefore hAbove), DidIn.last hDid past⟩

/-! ## The invariant of every run -/

/-- Every effect relies on a connection and a grant that were admitted. -/
structure EffectsBacked (past : List SystemEvent) (s : Store) : Prop where
  scope : Attenuated s.tables.delegations
  backs : ∀ id e, s.tables.effects.get? id = some e → Backs past s.tables e.connectionId e.grantId

theorem EffectsBacked.extend (past : List SystemEvent) (s : Store) (c : Call)
    (h : EffectsBacked past s) :
    EffectsBacked (past ++ [Machine.eventAt (step env catalogue) s c])
      (step env catalogue s c).1 := by
  refine ⟨?_, fun id e he => ?_⟩
  · rcases step_change env catalogue s c with ⟨-, hSame⟩ | ⟨a, -, hChange⟩
    · rw [hSame]
      exact h.scope
    · exact h.scope.change hChange
  · refine Backs.extend h.scope ?_
    rcases step_effect env catalogue s c id with ⟨-, hSame⟩ | ⟨a, -, hView⟩
    · rw [hSame] at he
      exact h.backs id e he
    · cases hView with
      | same hRow hAct =>
        rw [hRow] at he
        exact h.backs id e he
      | created hNone hRow hNew hAct hBorn =>
        cases hRow.symm.trans he
        cases hBorn.origin with
        | proposal hAdmitted hProposed =>
          rw [hProposed]
          exact hAdmitted.backs past
        | compensation hCompensated =>
          -- a compensation takes the connection and the grant of the effect it is for
          obtain ⟨key, fingerprint, rfl⟩ := hCompensated.row_eq
          have hOriginal := h.backs _ _ hCompensated.found
          exact hOriginal
      | @moved f f' hMoved hRow hStep =>
        cases hRow.symm.trans he
        have hConnection : e.connectionId = f.connectionId :=
          congrArg EffectIntent.connectionId hMoved.intent
        have hGrant : e.grantId = f.grantId := congrArg EffectIntent.grantId hMoved.intent
        rw [hConnection, hGrant]
        exact h.backs id f hMoved.found

/-- What was revoked is revoked. -/
structure RevocationsStay (past : List SystemEvent) (s : Store) : Prop where
  connections : ∀ id, DidIn (.revokeConnection id) past →
    ∃ c, s.tables.connections.get? id = some c ∧ c.state = .revoked
  grants : ∀ id, DidIn (.revokeGrant id) past →
    ∃ d, s.tables.delegations.get? id = some d ∧ d.state = .revoked

theorem DidIn.of_concat {a b : Act} {past : List SystemEvent} {event : SystemEvent}
    (hEvent : event.did b) (h : DidIn a (past ++ [event])) : DidIn a past ∨ b = a := by
  obtain ⟨e, he, hDid⟩ := h
  rcases List.mem_append.mp he with he | he
  · exact Or.inl ⟨e, he, hDid⟩
  · rw [List.mem_singleton] at he
    subst he
    exact Or.inr (SystemEvent.did_unique hEvent hDid)

theorem DidIn.of_concat_none {a : Act} {past : List SystemEvent} {event : SystemEvent}
    (hEvent : commits event.response = false) (h : DidIn a (past ++ [event])) : DidIn a past := by
  obtain ⟨e, he, hDid⟩ := h
  rcases List.mem_append.mp he with he | he
  · exact ⟨e, he, hDid⟩
  · rw [List.mem_singleton] at he
    subst he
    exact absurd hDid (not_did hEvent a)

theorem RevocationsStay.extend (past : List SystemEvent) (s : Store) (c : Call)
    (h : RevocationsStay past s) :
    RevocationsStay (past ++ [Machine.eventAt (step env catalogue) s c])
      (step env catalogue s c).1 := by
  rcases step_change env catalogue s c with ⟨hNone, hSame⟩ | ⟨a, hDid, hChange⟩
  · rw [hSame]
    exact ⟨fun id hPast => h.connections id (hPast.of_concat_none hNone),
      fun id hPast => h.grants id (hPast.of_concat_none hNone)⟩
  · constructor
    · intro id hPast
      rcases hChange.connection id with ⟨hRow, hAct⟩ | ⟨-, hRevoked⟩
      · rcases hPast.of_concat hDid with hPast | hNow
        · rw [hRow]
          exact h.connections id hPast
        · exact absurd hNow hAct
      · exact hRevoked
    · intro id hPast
      cases hChange.grant id with
      | same hRow hAct =>
        rcases hPast.of_concat hDid with hPast | hNow
        · rw [hRow]
          exact h.grants id hPast
        · exact absurd hNow hAct
      | created hNone hRow hAdmitted hAct =>
        rcases hPast.of_concat hDid with hPast | hNow
        · obtain ⟨d, hd, -⟩ := h.grants id hPast
          cases hNone.symm.trans hd
        · rw [hAct] at hNow
          cases hNow
      | revoked hFound hRow hActive hRevoke hAct hAncestor =>
        obtain ⟨version, -, rfl⟩ := revokeRow_ok hRevoke
        exact ⟨_, hRow, rfl⟩

end Steps

/-! ## The authority of a dispatch -/

/-- The connection of the effect is active, and its grant with every ancestor is active and
unexpired. -/
def AuthorityCurrent (t : Tables) (now : Int) (e : EffectRow) : Prop :=
  (∃ c, t.connections.get? e.connectionId = some c ∧ c.state = .active) ∧
    ∀ a, Ancestor t.delegations e.grantId a →
      ∃ d, t.delegations.get? a = some d ∧ d.state = .active ∧ now < d.expiresAt

/-- Nothing the effect relies on was revoked in the past, and its grant has not expired. -/
structure Unrevoked (past : List SystemEvent) (t : Tables) (now : Int) (e : EffectRow) : Prop where
  connection : ¬DidIn (.revokeConnection e.connectionId) past
  grants : ∀ g, DidIn (.revokeGrant g) past → ¬Ancestor t.delegations e.grantId g
  unexpired : ∃ d, t.delegations.get? e.grantId = some d ∧ now < d.expiresAt

theorem authorityCurrent_iff {past : List SystemEvent} {s : Store} (hBacked : EffectsBacked past s)
    (hStay : RevocationsStay past s) {id : Uuid} {e : EffectRow}
    (he : s.tables.effects.get? id = some e) (now : Int) :
    AuthorityCurrent s.tables now e ↔ Unrevoked past s.tables now e := by
  have hBacks := hBacked.backs id e he
  constructor
  · rintro ⟨⟨c, hc, hActive⟩, hGrants⟩
    refine ⟨fun hPast => ?_, fun g hPast hAncestor => ?_, ?_⟩
    · obtain ⟨c', hc', hRevoked⟩ := hStay.connections _ hPast
      cases hc.symm.trans hc'
      rw [hActive] at hRevoked
      cases hRevoked
    · obtain ⟨d, hd, hGrant, -⟩ := hGrants g hAncestor
      obtain ⟨d', hd', hRevoked⟩ := hStay.grants g hPast
      cases hd.symm.trans hd'
      rw [hGrant] at hRevoked
      cases hRevoked
    · obtain ⟨d, hd, -, hTime⟩ := hGrants _ ReflTransGen.refl
      exact ⟨d, hd, hTime⟩
  · rintro ⟨hConnection, hGrants, d, hd, hTime⟩
    refine ⟨?_, fun a hAncestor => ?_⟩
    · obtain ⟨c, hc, hActive | hPast⟩ := hBacks.connected
      · exact ⟨c, hc, hActive⟩
      · exact absurd hPast hConnection
    · obtain ⟨top, hTop, hLe⟩ := hBacked.scope.ancestor hd hAncestor
      refine ⟨top, hTop, ?_, lt_of_lt_of_le hTime hLe⟩
      rcases hBacks.ancestors a top hAncestor hTop with hActive | ⟨g, hg, hPast⟩
      · exact hActive
      · exact absurd hg (hGrants g hPast)

/-- When authority is current at dispatch. In every run from a tenant without effects whose grants
lie inside their parents, a committed dispatch happens under current authority if and only if
nothing the effect relies on was revoked before it and the grant of the effect has not expired. -/
theorem authority_current_at_dispatch_iff (env : Env) (catalogue : Catalogue) (s : Store)
    (calls : List Call) (hStart : ∀ k, s.tables.effects.get? k = none)
    (hScope : Attenuated s.tables.delegations) (past future : List SystemEvent)
    (event : SystemEvent)
    (hTrace : Machine.trace (step env catalogue) s calls = past ++ event :: future) (id : Uuid)
    (hDispatch : event.did (.dispatch id)) :
    ∃ e, event.before.tables.effects.get? id = some e ∧
      (AuthorityCurrent event.before.tables event.call.tick.now e ↔
        Unrevoked past event.before.tables event.call.tick.now e) := by
  obtain ⟨before, after, -, hPast, hAt, -⟩ :=
    Machine.trace_eq_append_cons (step env catalogue) hTrace
  have hNoEffects : EffectsBacked [] s :=
    ⟨hScope, fun k e he => by rw [hStart k] at he; cases he⟩
  have hNoRevocations : RevocationsStay [] s :=
    ⟨fun k h => absurd h (DidIn.not_nil _), fun k h => absurd h (DidIn.not_nil _)⟩
  have hBacked := Machine.history (step env catalogue) EffectsBacked.extend hNoEffects before
  have hStay := Machine.history (step env catalogue) RevocationsStay.extend hNoRevocations before
  rw [hPast] at hBacked hStay
  rw [hAt] at hDispatch ⊢
  obtain ⟨e, e', hDispatched, -⟩ := dispatch_view hDispatch
  exact ⟨e, hDispatched.found, authorityCurrent_iff hBacked hStay hDispatched.found _⟩

/-- An effect is proposed and its connection is revoked. -/
def Sample.revokeConnection : List Call :=
  [propose 1, command 2 (.connectionRevoke connectionId.toText 1 "leaked")]

/-- The effect is dispatched. -/
def Sample.dispatchRevoked : Call := dispatch 3 (effectOf 1) 1

theorem Sample.attenuated : Attenuated Sample.store.tables.delegations := by
  intro id p d hd hLink
  have hMem : (id, d) ∈ [(Sample.grantId, Sample.grant)] := Table.get?_eq_some_iff.mp hd
  rw [List.mem_singleton] at hMem
  cases hMem
  cases hLink

theorem Sample.next_did {calls : List Call} {c : Call} {a : Act}
    (h : commits (step Sample.env Sample.catalogue (Sample.after calls) c).2 = true ∧
      c.operation.act = some a) : SystemEvent.did (Sample.next calls c) a := h

/-- The dispatch is committed under the revoked connection. -/
theorem Sample.dispatchRevoked_run :
    (commits (step Sample.env Sample.catalogue (Sample.after Sample.revokeConnection)
        Sample.dispatchRevoked).2 = true ∧
      Sample.dispatchRevoked.operation.act = some (.dispatch (Sample.effectOf 1))) ∧
    ((Sample.after Sample.revokeConnection).tables.effects.get? (Sample.effectOf 1)).map
      (·.connectionId) = some Sample.connectionId ∧
    ((Sample.after Sample.revokeConnection).tables.connections.get? Sample.connectionId).map
      (·.state) = some .revoked := by
  simp only [Sample.after, step_bytewise, Sample.env_bytewise]
  decide +kernel

/-- The rule at the dispatch. -/
theorem authority_current_dispatchRevoked :
    ∃ e, (Sample.next Sample.revokeConnection Sample.dispatchRevoked).before.tables.effects.get?
        (Sample.effectOf 1) = some e ∧
      (AuthorityCurrent
          (Sample.next Sample.revokeConnection Sample.dispatchRevoked).before.tables
          (Sample.next Sample.revokeConnection Sample.dispatchRevoked).call.tick.now e ↔
        Unrevoked (Sample.events Sample.revokeConnection)
          (Sample.next Sample.revokeConnection Sample.dispatchRevoked).before.tables
          (Sample.next Sample.revokeConnection Sample.dispatchRevoked).call.tick.now e) := by
  refine authority_current_at_dispatch_iff Sample.env Sample.catalogue Sample.store
    (Sample.revokeConnection ++ [Sample.dispatchRevoked]) (fun _ => rfl) Sample.attenuated
    (Sample.events Sample.revokeConnection) []
    (Sample.next Sample.revokeConnection Sample.dispatchRevoked) ?_ (Sample.effectOf 1)
    (Sample.next_did Sample.dispatchRevoked_run.1)
  exact Sample.events_concat Sample.revokeConnection Sample.dispatchRevoked

/-- A dispatch under a revoked connection. -/
theorem not_authorityCurrent {t : Tables} {now : Int} {e : EffectRow} {state : ConnectionState}
    (hState : (t.connections.get? e.connectionId).map (·.state) = some state)
    (hRevoked : state ≠ .active) : ¬AuthorityCurrent t now e := by
  rintro ⟨⟨c, hc, hActive⟩, -⟩
  rw [hc] at hState
  cases hState
  exact hRevoked hActive

/-- The dispatch is committed although the connection was revoked before it. -/
theorem authority_revoked_at_dispatch :
    (∀ k, Sample.store.tables.effects.get? k = none) ∧
    Attenuated Sample.store.tables.delegations ∧
    Sample.next Sample.revokeConnection Sample.dispatchRevoked ∈
      Sample.events (Sample.revokeConnection ++ [Sample.dispatchRevoked]) ∧
    SystemEvent.did (Sample.next Sample.revokeConnection Sample.dispatchRevoked)
      (.dispatch (Sample.effectOf 1)) ∧
    ∃ e, (Sample.after Sample.revokeConnection).tables.effects.get? (Sample.effectOf 1) = some e ∧
      ¬AuthorityCurrent (Sample.after Sample.revokeConnection).tables
        Sample.dispatchRevoked.tick.now e := by
  obtain ⟨hDid, hEffect, hConnection⟩ := Sample.dispatchRevoked_run
  obtain ⟨e, he, hId⟩ := Option.map_eq_some_iff.mp hEffect
  rw [← hId] at hConnection
  exact ⟨fun _ => rfl, Sample.attenuated, Sample.next_mem _ _, Sample.next_did hDid, e, he,
    not_authorityCurrent hConnection (by decide)⟩

end Masonwing
