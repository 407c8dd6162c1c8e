import Masonwing.Proofs.Evaluation
import Masonwing.Proofs.JournalSteps
import Masonwing.Proofs.KernelMachines

/-!
# Kill switches

What an active kill switch stops. `ActsFor` collects what a switch is meant to stop: runs that are
admitted, handed out by the relay or started, effects that are proposed or transmitted.

* `platformStep_acts`: for each of these, the check that the step passed before;
* `switches_stop_plugins`: no such thing happens under a switch of the tenant or of the plugin, in
  every run that proposes and transmits no effect of a stopped plugin on an open connection and
  starts no run that was handed out before the switch.
-/

namespace Masonwing

open Outcome

variable {ι : Type}

/-- A switch is active. -/
def Switched (t : Tables) (scope : KillSwitchScope) (target : String) : Prop :=
  ∃ row, t.registry.killSwitches.get? (scope, target) = some row ∧ row.active = true

section Switches

variable {t : Tables}

theorem stoppedBy_iff {plugin : Option String} {connection : Option Uuid} :
    stoppedBy t plugin connection = true ↔
      Switched t .tenant t.identity.tenantId.toText ∨
      (∃ id, plugin = some id ∧ Switched t .plugin id) ∨
      ∃ id, connection = some id ∧ Switched t .connection id.toText := by
  simp only [stoppedBy, Table.any_iff, Bool.and_eq_true, Bool.or_eq_true, decide_eq_true_eq,
    Option.map_eq_some_iff]
  constructor
  · rintro ⟨key, row, hRow, hActive, (hTenant | ⟨id, hId, rfl⟩) | ⟨id, hId, rfl⟩⟩
    · rw [hTenant] at hRow
      exact Or.inl ⟨row, hRow, hActive⟩
    · exact Or.inr (Or.inl ⟨id, hId, row, hRow, hActive⟩)
    · exact Or.inr (Or.inr ⟨id, hId, row, hRow, hActive⟩)
  · rintro (⟨row, hRow, hActive⟩ | ⟨id, hId, row, hRow, hActive⟩ | ⟨id, hId, row, hRow, hActive⟩)
    · exact ⟨_, row, hRow, hActive, Or.inl (Or.inl rfl)⟩
    · exact ⟨_, row, hRow, hActive, Or.inl (Or.inr ⟨id, hId, rfl⟩)⟩
    · exact ⟨_, row, hRow, hActive, Or.inr ⟨id, hId, rfl⟩⟩

/-- The plugin is stopped, by a switch of its own or by one of the tenant. -/
def PluginStopped (t : Tables) (pluginId : String) : Prop :=
  Switched t .plugin pluginId ∨ Switched t .tenant t.identity.tenantId.toText

theorem PluginStopped.stoppedBy {pluginId : String} (h : PluginStopped t pluginId)
    (connection : Option Uuid) : Masonwing.stoppedBy t (some pluginId) connection = true := by
  rw [stoppedBy_iff]
  rcases h with hPlugin | hTenant
  · exact Or.inr (Or.inl ⟨pluginId, rfl, hPlugin⟩)
  · exact Or.inl hTenant

end Switches

/-! ## What a switch is meant to stop -/

/-- The event admits, hands out or starts a run of the plugin, or it proposes or transmits an effect
of such a run. -/
inductive ActsFor (pluginId : String) (event : PlatformEvent ι) : Prop
  | admitted {id : Uuid} {r : RunRow} (hNone : event.before.tables.runs.get? id = none)
      (hRun : event.after.tables.runs.get? id = some r) (hPlugin : r.pluginId = pluginId)
  | handedOut {run : DispatchableRun}
      (hReply : event.response = .ok (.core (.claimed (some run))))
      (hPlugin : run.pluginId = pluginId)
  | started {id : Uuid} {r r' : RunRow} (hRun : event.before.tables.runs.get? id = some r)
      (hRun' : event.after.tables.runs.get? id = some r') (hWaiting : r.dispatchState ≠ .started)
      (hStarted : r'.dispatchState = .started) (hPlugin : r.pluginId = pluginId)
  | proposed {id : Uuid} {e : EffectRow} {r : RunRow}
      (hNone : event.before.tables.effects.get? id = none)
      (hEffect : event.after.tables.effects.get? id = some e)
      (hDid : PlatformEvent.did event (.core .propose))
      (hRun : event.before.tables.runs.get? e.runId = some r) (hPlugin : r.pluginId = pluginId)
  | transmitted {id : Uuid} {e e' : EffectRow} {r : RunRow}
      (hEffect : event.before.tables.effects.get? id = some e)
      (hEffect' : event.after.tables.effects.get? id = some e') (hIdle : e.state ≠ .executing)
      (hExecuting : e'.state = .executing)
      (hRun : event.before.tables.runs.get? e.runId = some r) (hPlugin : r.pluginId = pluginId)

/-- The connection and the run of the effect that an operation asks to propose or to transmit. -/
def PlatformOperation.effectScope (t : Tables) : PlatformOperation ι → Option (Uuid × Uuid)
  | .core (.command c) =>
    match c.input with
    | .effectPropose _ connectionId _ _ grantId _ => do
      let connection ← Uuid.parse connectionId
      let grant ← Uuid.parse grantId
      let run ← (resolveRun t grant).toOption
      return (connection, run)
    | .effectDispatch effectId _ => do
      let effect ← Uuid.parse effectId
      let e ← t.effects.get? effect
      return (e.connectionId, e.runId)
    | _ => none
  | _ => none

/-- What the checks of effects and of the report of a start leave open: an effect of a plugin under
a switch of its own is proposed or transmitted only on a connection that is stopped as well, and no
run of a stopped plugin is reported as started. -/
structure SparesSwitches (event : PlatformEvent ι) : Prop where
  effects : ∀ connection run r,
    event.call.operation.effectScope event.before.tables = some (connection, run) →
    event.before.tables.runs.get? run = some r → Switched event.before.tables .plugin r.pluginId →
    stoppedBy event.before.tables none (some connection) = true
  starts : ∀ run r, event.call.operation.act = some (.core (.markStarted run)) →
    event.before.tables.runs.get? run = some r → ¬PluginStopped event.before.tables r.pluginId

/-! ## What each of them passed -/

section Steps

variable {p : Platform ι} {s : Store} {c : PlatformCall ι}

/-- A run that was handed out passed every check of the relay. -/
theorem handedOut_checked {run : DispatchableRun}
    (h : (platformStep p s c).2 = .ok (.core (.claimed (some run)))) :
    ∃ id r, s.tables.runs.get? id = some r ∧ run = dispatchableRun id r ∧
      dispatchRefusal p.env c.tick s.tables r = none := by
  rcases transact_cases s (runPlatformOperation p c.tick s c.operation) with
    ⟨s', reply, hOk, hStep⟩ | ⟨failure, -, hStep⟩
  · have hReply : reply = .core (.claimed (some run)) := by
      rw [platformStep, hStep] at h
      exact Except.ok.inj h
    subst hReply
    cases hOp : c.operation with
    | core operation =>
      rw [hOp] at hOk
      simp only [runPlatformOperation, bind_eq_ok, pure_eq_ok, Prod.exists, Prod.mk.injEq] at hOk
      obtain ⟨_, core, hOk, rfl, hCore⟩ := hOk
      cases hCore
      cases operation with
      | command command =>
        simp only [runOperation, bind_eq_ok, pure_eq_ok, Prod.exists, Prod.mk.injEq] at hOk
        obtain ⟨_, _, -, -, hCore⟩ := hOk
        cases hCore
      | quarantine command reference =>
        simp only [runOperation, bind_eq_ok, pure_eq_ok, Prod.mk.injEq] at hOk
        obtain ⟨_, -, -, hCore⟩ := hOk
        cases hCore
      | system call =>
        simp only [runOperation, bind_eq_ok, pure_eq_ok, Prod.exists, Prod.mk.injEq] at hOk
        obtain ⟨t', _, hOk, -, rfl⟩ := hOk
        cases call with
        | verifyAndClaimRun id =>
          simp only [runSystemCall, verifyAndClaimRun, bind_eq_ok, pure_eq_ok, Prod.exists,
            Prod.mk.injEq, Reply.claimed.injEq, beginSystem_eq_ok, exists_const] at hOk
          obtain ⟨_, _, ⟨-, hClaim⟩, -, rfl⟩ := hOk
          split at hClaim
          · cases hClaim
          · rename_i r hFound
            split at hClaim
            · unfold claimRun at hClaim
              split at hClaim
              · simp only [bind_eq_ok, pure_eq_ok, Prod.mk.injEq] at hClaim
                obtain ⟨_, -, -, hNone⟩ := hClaim
                cases hNone
              · rename_i hPasses
                cases hClaim
                exact ⟨id, r, hFound, rfl, hPasses⟩
            · cases hClaim
        | claimPendingOutbox limit leaseSeconds =>
          simp only [runSystemCall, bind_eq_ok, pure_eq_ok, Prod.exists, Prod.mk.injEq] at hOk
          obtain ⟨_, _, -, -, hCore⟩ := hOk
          cases hCore
        | _ =>
          simp only [runSystemCall, withMutation, withDone, systemBudget, bind_eq_ok, pure_eq_ok,
            Prod.exists, Prod.mk.injEq] at hOk
          grind
    | command command =>
      rw [hOp] at hOk
      simp only [runPlatformOperation, bind_eq_ok, pure_eq_ok, Prod.exists, Prod.mk.injEq] at hOk
      obtain ⟨_, _, -, -, hCore⟩ := hOk
      cases hCore
    | quarantine command reference =>
      rw [hOp] at hOk
      simp only [runPlatformOperation, bind_eq_ok, pure_eq_ok, Prod.mk.injEq] at hOk
      obtain ⟨_, -, -, hCore⟩ := hOk
      cases hCore
    | checkpoint runId record =>
      rw [hOp] at hOk
      simp only [runPlatformOperation, bind_eq_ok, pure_eq_ok, Prod.exists, Prod.mk.injEq] at hOk
      obtain ⟨_, _, -, -, hCore⟩ := hOk
      cases hCore
  · rw [platformStep, hStep] at h
    cases h

/-- Only the command `effect.dispatch` is asked to transmit an effect. -/
theorem PlatformOperation.act_dispatch {op : PlatformOperation ι} {id : Uuid}
    (h : op.act = some (.core (.dispatch id))) :
    ∃ (command : Command CommandInput) (effectId : String) (expected : Int),
      op = .core (.command command) ∧ command.input = .effectDispatch effectId expected ∧
      Uuid.parse effectId = some id := by
  obtain ⟨⟨actor, input, key, fingerprint⟩, rfl, hAct⟩ := PlatformOperation.act_commanded h rfl
  cases input with
  | effectDispatch effectId expected =>
    refine ⟨_, effectId, expected, rfl, rfl, ?_⟩
    simpa [CommandInput.act] using hAct
  | effectCompensate effectId content approvalId =>
    simp [CommandInput.act, Option.bind_eq_some_iff] at hAct
  | _ => simp [CommandInput.act] at hAct

/-- A proposal that created an effect named its connection and its run. -/
theorem proposed_scope {id : Uuid} {e : EffectRow} (hNone : s.tables.effects.get? id = none)
    (hEffect : (platformStep p s c).1.tables.effects.get? id = some e)
    (hDid : PlatformEvent.did (Machine.eventAt (platformStep p) s c) (.core .propose)) :
    c.operation.effectScope s.tables = some (e.connectionId, e.runId) ∧
      stoppedBy s.tables none (some e.connectionId) = false := by
  have hAct : c.operation.act = some (.core .propose) := hDid.2
  have hOutcome := platformStep_outcome p s c
  generalize (platformStep p s c).1.tables = t' at hOutcome hEffect
  cases hOp : c.operation with
  | core operation =>
    rw [hOp] at hOutcome hAct
    cases hOutcome with
    | unchanged => cases hNone.symm.trans hEffect
    | contained hContained hOther => cases hNone.symm.trans hEffect
    | system hCall =>
      rename_i call reply
      cases call with
      | applyReconciliationEvidence effectId evidence remoteId evidenceRef used =>
        cases evidence <;> cases hAct
      | _ => cases hAct
    | @command command t'' m j hActor hAuthorized hHandled hJournal hRecorded =>
      obtain ⟨actor, input, key, fingerprint⟩ := command
      cases input with
      | effectPropose action connectionId target contentRef grantId priceProfile =>
        obtain ⟨q, hAdmit, ⟨_, _, -, -, rfl, -⟩ | ⟨-, b', effects, hCreated, rfl, -⟩⟩ :=
          proposeEffect_ok hHandled
        · cases hNone.symm.trans hEffect
        · obtain ⟨hAdmitted, hConnection, hGrant, -⟩ := admitProposal_ok hAdmit
          have hRow : (q.row c.tick (c.tick.draw .reservation)) = e := by
            rcases Table.insert?_get?_cases hCreated.inserted hEffect with ⟨-, rfl⟩ | ⟨-, hOld⟩
            · rfl
            · cases hNone.symm.trans hOld
          rw [← hRow]
          refine ⟨?_, hAdmitted.enabled⟩
          simp only [PlatformOperation.effectScope, hConnection, hGrant, Option.bind_eq_bind,
            Option.bind_some, hAdmitted.run]
          rfl
      | effectCompensate effectId content approvalId =>
        simp [PlatformOperation.act, Operation.act, CommandInput.act,
          Option.bind_eq_some_iff] at hAct
      | _ => simp [PlatformOperation.act, Operation.act, CommandInput.act] at hAct
  | command command =>
    rw [hOp] at hAct
    obtain ⟨actor, input, key, fingerprint⟩ := command
    cases input <;> simp [PlatformOperation.act, PlatformInput.act] at hAct
  | quarantine command reference =>
    rw [hOp] at hAct
    cases hAct
  | checkpoint runId record =>
    rw [hOp] at hAct
    cases hAct

/-- A transmission named its connection and its run. -/
theorem transmitted_scope {id : Uuid} {e e' : EffectRow}
    (hEffect : s.tables.effects.get? id = some e)
    (hEffect' : (platformStep p s c).1.tables.effects.get? id = some e')
    (hIdle : e.state ≠ .executing) (hExecuting : e'.state = .executing) :
    c.operation.effectScope s.tables = some (e.connectionId, e.runId) ∧
      stoppedBy s.tables none (some e.connectionId) = false := by
  rcases platformStep_effect p s c id with
    ⟨hRow, -⟩ | ⟨b, q, -, hNone, -⟩ | ⟨b, q, q', hDid, hMoved, hRow, hStep⟩
  · rw [hRow, hEffect] at hEffect'
    cases hEffect'
    exact absurd hExecuting hIdle
  · cases hNone.symm.trans hEffect
  · cases hMoved.found.symm.trans hEffect
    cases hRow.symm.trans hEffect'
    cases hStep with
    | dispatch hFrom hTo hCount =>
      have hEnabled : stoppedBy s.tables none (some e.connectionId) = false := by
        cases platformChange_of_did hDid with
        | core hCore =>
          obtain ⟨f, f', j, hDispatched, -⟩ := hCore.dispatch_inv
          cases hDispatched.found.symm.trans hEffect
          exact hDispatched.enabled
      refine ⟨?_, hEnabled⟩
      have hAct : c.operation.act = some (.core (.dispatch id)) := hDid.2
      obtain ⟨command, effectId, expected, hOp, hInput, hId⟩ := PlatformOperation.act_dispatch hAct
      rw [hOp, PlatformOperation.effectScope, hInput]
      simp only [hId, hEffect, Option.bind_eq_bind, Option.bind_some, Option.pure_def]
    | reconcile hFrom hTo hCount => cases hTo.symm.trans hExecuting
    | unknown hFrom hTo hCount => cases hTo.symm.trans hExecuting
    | succeeded hFrom hTo hCount => cases hTo.symm.trans hExecuting
    | failed hFrom hTo hCount => cases hTo.symm.trans hExecuting
    | reauthorize hFrom hTo hCount => cases hTo.symm.trans hExecuting
    | review hFrom hTo hCount => cases hTo.symm.trans hExecuting

/-- What a switch is meant to stop does not happen under it, if the step spares the switches. -/
theorem SparesSwitches.stops {pluginId : String}
    (h : SparesSwitches (Machine.eventAt (platformStep p) s c))
    (hStopped : PluginStopped s.tables pluginId) :
    ¬ActsFor pluginId (Machine.eventAt (platformStep p) s c) := by
  intro hActs
  -- an effect that passed the check of its connection is not stopped by the tenant, and by the
  -- assumption on the step not by its plugin either
  have hEffect : ∀ connection run r,
      c.operation.effectScope s.tables = some (connection, run) →
      stoppedBy s.tables none (some connection) = false → s.tables.runs.get? run = some r →
      r.pluginId = pluginId → False := by
    intro connection run r hScope hEnabled hr hPlugin
    have hOpen := Bool.eq_false_iff.mp hEnabled
    rcases hStopped with hSwitch | hTenant
    · rw [← hPlugin] at hSwitch
      exact hOpen (h.effects connection run r hScope hr hSwitch)
    · exact hOpen (stoppedBy_iff.mpr (Or.inl hTenant))
  cases hActs with
  | @admitted id r hNone hRun hPlugin =>
    rcases platformStep_change p s c with ⟨-, hSame⟩ | ⟨a, -, hChange⟩
    · have hRow : (platformStep p s c).1.tables.runs.get? id = some r := hRun
      rw [hSame] at hRow
      cases hRow.symm.trans hNone
    · cases hChange.run id with
      | same hRow => cases hRun.symm.trans (hRow.trans hNone)
      | created _ hRow hAdmitted hId hAct =>
        cases hRow.symm.trans hRun
        rw [← hPlugin] at hStopped
        cases (hStopped.stoppedBy none).symm.trans hAdmitted.enabled
      | moved hFound hRow hStep => cases hFound.symm.trans hNone
  | handedOut hReply hPlugin =>
    obtain ⟨id, r, -, rfl, hPasses⟩ := handedOut_checked hReply
    rw [dispatchRefusal, if_pos] at hPasses
    · cases hPasses
    · have hRun : r.pluginId = pluginId := hPlugin
      rw [hRun]
      exact hStopped.stoppedBy none
  | @started id r r' hRun hRun' hWaiting hStarted hPlugin =>
    rcases platformStep_change p s c with ⟨-, hSame⟩ | ⟨a, hDid, hChange⟩
    · have hRow : (platformStep p s c).1.tables.runs.get? id = some r' := hRun'
      rw [hSame] at hRow
      cases hRow.symm.trans hRun
      exact hWaiting hStarted
    · cases hChange.run id with
      | same hRow =>
        cases (hRow.symm.trans hRun').symm.trans hRun
        exact hWaiting hStarted
      | created hNone hRow hAdmitted hId hAct => cases hNone.symm.trans hRun
      | moved hFound hRow hStep =>
        cases hFound.symm.trans hRun
        cases hRow.symm.trans hRun'
        rw [← hPlugin] at hStopped
        cases hStep with
        | cancelled hCancelled => cases hCancelled.dispatch.symm.trans hStarted
        | started hReported => exact h.starts id r hDid.2 hRun hStopped
        | completed hCompleted => exact hWaiting (hCompleted.dispatch.symm.trans hStarted)
        | fenced hFenced => cases hFenced.blocked.2.symm.trans hStarted
        | stopped hStop => cases hStop.dispatch.symm.trans hStarted
  | proposed hNone hNew hDid hRun hPlugin =>
    obtain ⟨hScope, hEnabled⟩ := proposed_scope hNone hNew hDid
    exact hEffect _ _ _ hScope hEnabled hRun hPlugin
  | transmitted hOld hNew hIdle hExecuting hRun hPlugin =>
    obtain ⟨hScope, hEnabled⟩ := transmitted_scope hOld hNew hIdle hExecuting
    exact hEffect _ _ _ hScope hEnabled hRun hPlugin

end Steps

/-- In every run whose steps spare the switches: while the switch of a plugin is active, or one of
the tenant, no run of the plugin is admitted, handed out or started, and no effect of such a run is
proposed or transmitted. -/
theorem switches_stop_plugins (p : Platform ι) (s : Store) (calls : List (PlatformCall ι))
    (hSpares : ∀ event ∈ Machine.trace (platformStep p) s calls, SparesSwitches event) :
    ∀ event ∈ Machine.trace (platformStep p) s calls, ∀ pluginId,
      (Switched event.before.tables .plugin pluginId ∨
        Switched event.before.tables .tenant event.before.tables.identity.tenantId.toText) →
      ¬ActsFor pluginId event := by
  intro event hMem pluginId hStopped
  have hSparesEvent := hSpares event hMem
  obtain ⟨before, after, -, hEvent⟩ := Machine.mem_trace (platformStep p) hMem
  rw [hEvent] at hSparesEvent hStopped ⊢
  exact hSparesEvent.stops hStopped

/-- A run is admitted, and its plugin is stopped. -/
def Sample.stopped : List (PlatformCall Empty) :=
  admitted ++ [coreCommand 3 (.killSwitchSet "PLUGIN" "mailer" true "incident")]

/-- An effect of the run is proposed. -/
def Sample.proposedAnyway : PlatformCall Empty :=
  coreCommand 4 (.effectPropose "mail.send" connectionId.toText
    (resourceRef "Connection" connectionId .one) contentRef (grantOf 1).toText "1.0.0")

/-- It is transmitted. -/
def Sample.transmittedAnyway : PlatformCall Empty :=
  coreCommand 5 (.effectDispatch (effectOf 4).toText 1)

/-- What an event finds of the switch and the run, and what it does to the effect. -/
structure Sample.SwitchView where
  active : Option Bool
  plugin : Option String
  before : Option (Uuid × EffectState)
  after : Option (Uuid × EffectState)
  commits : Bool
  deriving DecidableEq

def Sample.underSwitch (event : PlatformEvent Empty) : SwitchView :=
  { active := (event.before.tables.registry.killSwitches.get? (.plugin, "mailer")).map (·.active)
    plugin := (event.before.tables.runs.get? (runOf 2)).map (·.pluginId)
    before := (event.before.tables.effects.get? (effectOf 4)).map fun e => (e.runId, e.state)
    after := (event.after.tables.effects.get? (effectOf 4)).map fun e => (e.runId, e.state)
    commits := platformCommits event.response }

theorem Sample.anyway_facts :
    underSwitch (workshopNext stopped proposedAnyway) =
        ⟨some true, some "mailer", none, some (runOf 2, .prepared), true⟩ ∧
      underSwitch (workshopNext (stopped ++ [proposedAnyway]) transmittedAnyway) =
        ⟨some true, some "mailer", some (runOf 2, .prepared), some (runOf 2, .executing), true⟩ := by
  simp only [Sample.workshopNext, Sample.fromWorkshop, platformStep_bytewise,
    Sample.platform_bytewise]
  decide +kernel

/-- An operation that neither proposes nor transmits an effect nor reports a start spares every
switch. -/
theorem SparesSwitches.of_call {event : PlatformEvent ι}
    (hScope : ∀ t, event.call.operation.effectScope t = none)
    (hAct : ∀ run, event.call.operation.act ≠ some (.core (.markStarted run))) :
    SparesSwitches event := by
  refine ⟨fun connection run r h => ?_, fun run r h => absurd h (hAct run)⟩
  rw [hScope] at h
  cases h

theorem Sample.workshopNext_before (calls : List (PlatformCall Empty)) (c : PlatformCall Empty) :
    (workshopNext calls c).before = fromWorkshop calls := rfl

theorem Sample.stopped_switched (c : PlatformCall Empty) :
    Switched (workshopNext stopped c).before.tables .plugin "mailer" := by
  have hFacts := congrArg SwitchView.active anyway_facts.1
  simp only [underSwitch, Option.map_eq_some_iff, workshopNext_before] at hFacts
  rw [Switched, workshopNext_before]
  exact hFacts

/-- The next run of the stopped plugin is refused. -/
theorem switches_stop_next_run :
    Switched (Sample.workshopNext Sample.stopped
        (Sample.start 4 (Sample.grantOf 1))).before.tables .plugin "mailer" ∧
      ¬ActsFor "mailer" (Sample.workshopNext Sample.stopped
        (Sample.start 4 (Sample.grantOf 1))) := by
  refine ⟨Sample.stopped_switched _, ?_⟩
  refine switches_stop_plugins Sample.platform Sample.workshop
    (Sample.stopped ++ [Sample.start 4 (Sample.grantOf 1)]) (fun event hMem => ?_) _ ?_ "mailer"
    (Or.inl (Sample.stopped_switched _))
  · obtain ⟨before, after, hCalls, -⟩ := Machine.mem_trace _ hMem
    have hCall : event.call ∈ Sample.stopped ++ [Sample.start 4 (Sample.grantOf 1)] := by
      rw [hCalls]
      exact List.mem_append_right _ List.mem_cons_self
    refine .of_call ?_ ?_
    all_goals
      generalize event.call = call at hCall ⊢
      simp only [Sample.stopped, Sample.admitted, List.cons_append, List.nil_append, List.mem_cons,
        List.not_mem_nil, or_false] at hCall
      rcases hCall with rfl | rfl | rfl | rfl
    all_goals intro x
    all_goals first | rfl | exact fun h => by cases h
  · rw [Machine.trace_concat]
    exact List.mem_append_right _ List.mem_cons_self

/-- The rows behind the view. -/
theorem Sample.rows_of_view {event : PlatformEvent Empty} {run : Uuid} {state state' : EffectState}
    {pluginId : String}
    (h : underSwitch event =
      ⟨some true, some pluginId, some (run, state), some (run, state'), true⟩) :
    Switched event.before.tables .plugin "mailer" ∧
      (∃ r, event.before.tables.runs.get? (runOf 2) = some r ∧ r.pluginId = pluginId) ∧
      ∃ e e', event.before.tables.effects.get? (effectOf 4) = some e ∧
        event.after.tables.effects.get? (effectOf 4) = some e' ∧ e.runId = run ∧
        e.state = state ∧ e'.state = state' := by
  simp only [underSwitch, SwitchView.mk.injEq, Option.map_eq_some_iff, Prod.mk.injEq] at h
  obtain ⟨⟨row, hRow, hActive⟩, hRun, ⟨e, he, hId, hs⟩, ⟨e', he', -, hs'⟩, -⟩ := h
  exact ⟨⟨row, hRow, hActive⟩, hRun, e, e', he, he', hId, hs, hs'⟩

/-- An effect of a stopped plugin is proposed and transmitted. -/
theorem plugin_switch_ignored :
    ¬∀ event ∈ Sample.workshopEvents (Sample.stopped ++ [Sample.proposedAnyway] ++
        [Sample.transmittedAnyway]), ∀ pluginId,
      Switched event.before.tables .plugin pluginId → ¬ActsFor pluginId event := by
  intro h
  obtain ⟨hSwitched, ⟨r, hr, hPlugin⟩, e, e', he, he', hId, hs, hs'⟩ :=
    Sample.rows_of_view Sample.anyway_facts.2
  rw [Sample.workshopEvents_concat] at h
  refine h _ (List.mem_append_right _ List.mem_cons_self) "mailer" hSwitched ?_
  refine .transmitted he he' ?_ hs' (hId ▸ hr) hPlugin
  rw [hs]
  decide

end Masonwing
