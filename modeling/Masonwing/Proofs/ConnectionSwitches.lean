import Masonwing.Proofs.Evaluation
import Masonwing.Proofs.KillSwitches
import Masonwing.Proofs.PluginSteps

/-!
# Kill switches of connections

A switch of a connection is stored under the spelling that the command submits, and enforced under
the canonical one. `SwitchStep` says what a step does to the switches; `connection_switches` ties
the switch of a connection to the last command that named it, in whatever spelling, along every
run in which the spellings agree where it matters.
-/

namespace Masonwing

open Outcome

variable {ν : Type}

/-! ## What a step does to the switches -/

/-- The event carried out a command that sets a switch. -/
def PlatformEvent.setsSwitch {ι : Type} (e : PlatformEvent ι) (scope targetId : String)
    (active : Bool) : Prop :=
  platformCommits e.response = true ∧ ∃ c reason, e.call.operation = .core (.command c) ∧
    c.input = .killSwitchSet scope targetId active reason

/-- A step leaves the switches alone, or sets one of them. -/
inductive SwitchStep (e : PlatformEvent PluginInput) : Prop
  | same (hSame : e.after.tables.registry.killSwitches = e.before.tables.registry.killSwitches)
      (hNot : ∀ scope targetId active, ¬ e.setsSwitch scope targetId active)
  | set {scope targetId : String} {active : Bool} {kind : KillSwitchScope}
      (hDone : e.setsSwitch scope targetId active)
      (hKind : killSwitchScope e.before.tables scope targetId = .ok kind)
      (hRow : ∃ row, e.after.tables.registry.killSwitches.get? (kind, targetId) = some row ∧
        row.active = active)
      (hOthers : ∀ key, key ≠ (kind, targetId) →
        e.after.tables.registry.killSwitches.get? key =
          e.before.tables.registry.killSwitches.get? key)

/-- The switches of connections are those of this scope. -/
theorem killSwitchScope_connection {t : Tables} {scope targetId : String} {kind : KillSwitchScope}
    (h : killSwitchScope t scope targetId = .ok kind) :
    kind = .connection ↔ scope = "CONNECTION" := by
  unfold killSwitchScope at h
  cases hScope : KillSwitchScope.ofText? scope with
  | none =>
    rw [hScope] at h
    cases h
  | some expected =>
    have hKind : kind = expected := by
      rw [hScope] at h
      cases expected <;> simp only [bind_eq_ok, pure_eq_ok] at h <;> grind
    subst hKind
    unfold KillSwitchScope.ofText? at hScope
    split at hScope <;> cases hScope <;> decide

theorem upsertKillSwitch_ok {switches switches' : Table (KillSwitchScope × String) KillSwitchRow}
    {key : KillSwitchScope × String} {id changedBy : Uuid} {active : Bool} {reason : String}
    {row : KillSwitchRow}
    (h : upsertKillSwitch switches key id active reason changedBy = .ok (switches', row)) :
    (∃ row, switches'.get? key = some row ∧ row.active = active) ∧
      ∀ key', key' ≠ key → switches'.get? key' = switches.get? key' := by
  unfold upsertKillSwitch at h
  split at h
  · rename_i old hOld
    simp only [bind_eq_ok, okOr_eq_ok, pure_eq_ok, Prod.mk.injEq] at h
    obtain ⟨version, -, rfl, rfl⟩ := h
    exact ⟨⟨_, Table.get?_set_self hOld _, rfl⟩, fun key' hKey => Table.get?_set_ne _ hKey _⟩
  · simp only [bind_eq_ok, require_eq_ok, insertRow_eq_ok, pure_eq_ok, Prod.mk.injEq,
      exists_const] at h
    obtain ⟨-, _, hInsert, rfl, rfl⟩ := h
    refine ⟨⟨_, Table.insert?_get?_self hInsert, rfl⟩, fun key' hKey => ?_⟩
    rw [Table.insert?_get? hInsert, if_neg hKey]

theorem setKillSwitch_switches {tick : Tick} {t t' : Tables} {actor : CommandActor}
    {scope targetId reason : String} {active : Bool} {m : Mutation}
    (h : setKillSwitch tick t actor scope targetId active reason = .ok (t', m)) :
    ∃ kind, killSwitchScope t scope targetId = .ok kind ∧
      (∃ row, t'.registry.killSwitches.get? (kind, targetId) = some row ∧ row.active = active) ∧
      ∀ key, key ≠ (kind, targetId) →
        t'.registry.killSwitches.get? key = t.registry.killSwitches.get? key := by
  simp only [setKillSwitch, bind_eq_ok, sql_eq_ok, pure_eq_ok, Prod.exists, Prod.mk.injEq] at h
  obtain ⟨principal, -, -, -, kind, hKind, switches, row, hUpsert, rfl, -⟩ := h
  exact ⟨kind, hKind, upsertKillSwitch_ok hUpsert⟩

/-- Only the command on kill switches is asked to set one. -/
theorem PlatformOperation.act_setKillSwitch {ι : Type} {op : PlatformOperation ι}
    (h : op.act = some (.core .setKillSwitch)) :
    ∃ (c : Command CommandInput) (scope targetId : String) (active : Bool) (reason : String),
      op = .core (.command c) ∧ c.input = .killSwitchSet scope targetId active reason := by
  obtain ⟨⟨actor, input, key, fingerprint⟩, rfl, hAct⟩ := PlatformOperation.act_commanded h rfl
  cases input with
  | killSwitchSet scope targetId active reason => exact ⟨_, scope, targetId, active, reason, rfl, rfl⟩
  | effectCompensate effectId content approvalId =>
    simp [CommandInput.act, Option.bind_eq_some_iff] at hAct
  | _ => simp [CommandInput.act] at hAct

theorem PlatformEvent.setsSwitch.did {ι : Type} {e : PlatformEvent ι} {scope targetId : String}
    {active : Bool} (h : e.setsSwitch scope targetId active) : e.did (.core .setKillSwitch) := by
  obtain ⟨hCommits, c, reason, hCommand, hInput⟩ := h
  refine ⟨hCommits, ?_⟩
  rw [hCommand, PlatformOperation.act, Operation.act, hInput]
  rfl

/-- The commands on plugins leave the switches alone. -/
theorem RegistryStep.killSwitches [LinearOrder ν] {packages : PluginEnv ν}
    {e : PlatformEvent PluginInput} (h : RegistryStep packages e) :
    e.after.tables.registry.killSwitches = e.before.tables.registry.killSwitches ∨
      (∀ input, ¬ e.executed (.lifecycle input)) ∧
        ∀ pluginId digest reason, ¬ e.executed (.pluginRevoke pluginId digest reason) := by
  cases h with
  | same killSwitches hSame hNot hKept => exact Or.inr ⟨hNot, hKept⟩
  | moved hDone hMove hShown =>
    left
    generalize e.after.tables.registry = after at hMove
    cases hMove with
    | installed hVerified hSaved hInsert => exact congrArg (·.killSwitches) hSaved.others
    | moved hFound hMove => rfl
    | upgraded hFound hVersion hId hState hOld hNewer hVerified hDependencies hSaved =>
      exact congrArg (·.killSwitches) hSaved.others
  | revoked hDone hRevoked => exact Or.inl (congrArg (·.killSwitches) hRevoked.others)

/-- The acts of the further commands are theirs. -/
theorem PlatformOperation.act_command {ι : Type} {op : PlatformOperation ι} {a : PlatformAct}
    (h : op.act = some a) (hPlugins : a = .lifecycle ∨ ∃ pluginId digest,
      a = .revokePlugin pluginId digest) :
    ∃ c, op = .command c ∧ ((∃ input, c.input = .lifecycle input) ∨
      ∃ pluginId digest reason, c.input = .pluginRevoke pluginId digest reason) := by
  have hNot : ¬ ∀ c, op ≠ .command c := by
    intro hOther
    obtain ⟨hLifecycle, hRevoke⟩ := PlatformOperation.act_of_not_command hOther h
    rcases hPlugins with ha | ⟨pluginId, digest, ha⟩
    · exact hLifecycle ha
    · exact hRevoke pluginId digest ha
  obtain ⟨c, rfl⟩ := not_forall_not.mp hNot
  refine ⟨c, rfl, ?_⟩
  cases hInput : c.input with
  | pluginRevoke pluginId digest reason => exact Or.inr ⟨_, _, _, rfl⟩
  | deletionRequest resource reason confirmation =>
    rw [PlatformOperation.act, hInput, PlatformInput.act] at h
    cases h
    rcases hPlugins with ha | ⟨pluginId, digest, ha⟩ <;> cases ha
  | lifecycle input => exact Or.inl ⟨_, rfl⟩

section Platform

variable [LinearOrder ν] {env : Env} {packages : PluginEnv ν}
  {catalogue : PlatformCatalogue PluginInput}

/-- What one step does to the switches. -/
theorem platformStep_switches (s : Store) (c : PlatformCall PluginInput) :
    SwitchStep (Machine.eventAt (platformStep (pluginPlatform env packages catalogue)) s c) := by
  rcases platformStep_change (pluginPlatform env packages catalogue) s c with
    ⟨hNone, hSame⟩ | ⟨a, hDid, hChange⟩
  · refine .same (congrArg (·.tables.registry.killSwitches) hSame) fun scope targetId active h => ?_
    exact not_platformDid hNone _ h.did
  · have hNot : a ≠ .core .setKillSwitch → ∀ scope targetId active, ¬ PlatformEvent.setsSwitch
        (Machine.eventAt (platformStep (pluginPlatform env packages catalogue)) s c) scope targetId
          active :=
      fun hOther scope targetId active h => hOther (PlatformEvent.did_unique hDid h.did)
    have hPlugins : (a = .lifecycle ∨ ∃ pluginId digest, a = .revokePlugin pluginId digest) →
        (platformStep (pluginPlatform env packages catalogue) s c).1.tables.registry.killSwitches =
          s.tables.registry.killSwitches := by
      intro ha
      have hRegistry : RegistryStep packages (Machine.eventAt
        (platformStep (pluginPlatform env packages catalogue)) s c) := platformStep_registry s c
      rcases hRegistry.killSwitches with hSame | ⟨hNone, hKept⟩
      · exact hSame
      · obtain ⟨command, hOp, ⟨input, hInput⟩ | ⟨pluginId, digest, reason, hInput⟩⟩ :=
          PlatformOperation.act_command hDid.2 ha
        · exact absurd ⟨hDid.1, command, hOp, hInput⟩ (hNone input)
        · exact absurd ⟨hDid.1, command, hOp, hInput⟩ (hKept pluginId digest reason)
    generalize hAfter : (platformStep (pluginPlatform env packages catalogue) s c).1.tables = t'
      at hChange
    have hSame : t'.registry = s.tables.registry → (platformStep (pluginPlatform env packages
        catalogue) s c).1.tables.registry.killSwitches = s.tables.registry.killSwitches := by
      intro hRegistry
      rw [hAfter, hRegistry]
    cases hChange with
    | @core act t' hCore =>
      by_cases hAct : act = .setKillSwitch
      · subst hAct
        obtain ⟨tick, op⟩ := c
        obtain ⟨command, scope, targetId, active, reason, hOp, hInput⟩ :=
          PlatformOperation.act_setKillSwitch hDid.2
        cases hOp
        rcases platformStep_core_command (pluginPlatform env packages catalogue) s tick command with
          ⟨hNone, -⟩ | ⟨hDone, key, t, m, receipt, hCommitted⟩
        · exact absurd hDid (not_platformDid hNone _)
        · have hHandled : dispatchCommand env tick s.tables command = .ok (t, m) :=
            hCommitted.handled
          rw [dispatchCommand, hInput] at hHandled
          obtain ⟨kind, hKind, hRow, hOthers⟩ := setKillSwitch_switches hHandled
          have hTables : (platformStep (pluginPlatform env packages catalogue) s
              ⟨tick, .core (.command command)⟩).1.tables.registry = t.registry :=
            congrArg (·.registry) hCommitted.tables
          rw [← hTables] at hRow hOthers
          exact .set ⟨hDone, command, reason, rfl, hInput⟩ hKind hRow hOthers
      · exact .same (hSame (hCore.registry_same hAct)) (hNot fun h => hAct (PlatformAct.core.inj h))
    | pluginRevoked registry j hRuns =>
      exact .same (hPlugins (Or.inr ⟨_, _, rfl⟩)) (hNot fun h => (by cases h))
    | registered registry j => exact .same (hPlugins (Or.inl rfl)) (hNot fun h => (by cases h))
    | deleted j rights requests => exact .same (hSame rfl) (hNot fun h => (by cases h))
    | contained j => exact .same (hSame rfl) (hNot fun h => (by cases h))
    | checkpointed hAdmitted hRows => exact .same (hSame rfl) (hNot fun h => (by cases h))

end Platform

/-! ## The last command on a connection -/

/-- The event carried out a command on the switch of this connection, in some spelling. -/
def PlatformEvent.setsConnection {ι : Type} (e : PlatformEvent ι) (connection : Uuid)
    (targetId : String) (active : Bool) : Prop :=
  e.setsSwitch "CONNECTION" targetId active ∧ Uuid.parse targetId = some connection

/-- The last command on the switch of the connection asked for this. -/
inductive AskedLast {ι : Type} (connection : Uuid) (active : Bool) :
    List (PlatformEvent ι) → Prop
  | now {past : List (PlatformEvent ι)} {e : PlatformEvent ι} {targetId : String}
      (h : e.setsConnection connection targetId active) :
      AskedLast connection active (past ++ [e])
  | before {past : List (PlatformEvent ι)} {e : PlatformEvent ι}
      (h : AskedLast connection active past)
      (hOther : ∀ targetId active', ¬ e.setsConnection connection targetId active') :
      AskedLast connection active (past ++ [e])

/-- The event carried out a proposal or a dispatch of an effect over this connection. -/
inductive UsesConnection {ι : Type} (e : PlatformEvent ι) (connection : Uuid) : Prop
  | proposed {c : Command CommandInput} {action connectionId grantId priceProfile : String}
      {target : ResourceRef} {contentRef : ArtifactRef}
      (hDone : platformCommits e.response = true) (hCommand : e.call.operation = .core (.command c))
      (hInput : c.input = .effectPropose action connectionId target contentRef grantId priceProfile)
      (hConnection : Uuid.parse connectionId = some connection)
  | dispatched {c : Command CommandInput} {effectId : String} {expected : Int} {id : Uuid}
      {row : EffectRow} (hDone : platformCommits e.response = true)
      (hCommand : e.call.operation = .core (.command c))
      (hInput : c.input = .effectDispatch effectId expected)
      (hId : Uuid.parse effectId = some id) (hFound : e.before.tables.effects.get? id = some row)
      (hConnection : row.connectionId = connection)

/-- Where the spelling of a connection is not the canonical one, the command asks for what the
canonical switch already is. -/
def SpelledAlike {ι : Type} (e : PlatformEvent ι) : Prop :=
  ∀ connection targetId active, e.setsConnection connection targetId active →
    targetId = connection.toText ∨
      (Switched e.before.tables .connection connection.toText ↔ active = true)

/-- The switch of a connection is on exactly if the command on it asked for that and the spellings
agree where it matters. -/
theorem SwitchStep.connection_iff {e : PlatformEvent PluginInput} (h : SwitchStep e)
    {connection : Uuid} {targetId : String} {active : Bool}
    (hSets : e.setsConnection connection targetId active) :
    (Switched e.after.tables .connection connection.toText ↔ active = true) ↔
      targetId = connection.toText ∨
        (Switched e.before.tables .connection connection.toText ↔ active = true) := by
  obtain ⟨hDone, hParse⟩ := hSets
  cases h with
  | same hSame hNot => exact absurd hDone (hNot _ _ _)
  | @set scope targetId' active' kind hDone' hKind hRow hOthers =>
    have hInput : scope = "CONNECTION" ∧ targetId' = targetId ∧ active' = active := by
      obtain ⟨-, c, reason, hCommand, hInput⟩ := hDone
      obtain ⟨-, c', reason', hCommand', hInput'⟩ := hDone'
      cases hCommand.symm.trans hCommand'
      cases hInput.symm.trans hInput'
      exact ⟨rfl, rfl, rfl⟩
    obtain ⟨rfl, rfl, rfl⟩ := hInput
    obtain rfl : kind = .connection := (killSwitchScope_connection hKind).mpr rfl
    by_cases hSpelled : targetId' = connection.toText
    · -- the row that is written is the one that is enforced
      obtain ⟨row, hFound, hActive⟩ := hRow
      rw [hSpelled] at hFound
      simp only [Switched, hFound, Option.some.injEq, exists_eq_left', hActive, hSpelled, true_or]
    · -- another row is written
      have hKey : (KillSwitchScope.connection, connection.toText) ≠ (.connection, targetId') :=
        fun hKey => hSpelled (congrArg Prod.snd hKey).symm
      have hKept : Switched e.after.tables .connection connection.toText ↔
          Switched e.before.tables .connection connection.toText := by
        rw [Switched, Switched, hOthers _ hKey]
      rw [hKept, or_iff_right hSpelled]

/-- A command on another connection, or none, leaves the switch of this one alone. -/
theorem SwitchStep.connection_kept {e : PlatformEvent PluginInput} (h : SwitchStep e)
    {connection : Uuid} (hOther : ∀ targetId active, ¬ e.setsConnection connection targetId active) :
    Switched e.after.tables .connection connection.toText ↔
      Switched e.before.tables .connection connection.toText := by
  cases h with
  | same hSame hNot => rw [Switched, Switched, hSame]
  | @set scope targetId active kind hDone hKind hRow hOthers =>
    have hKey : (KillSwitchScope.connection, connection.toText) ≠ (kind, targetId) := by
      rintro hKey
      cases hKey
      -- the scope and the spelling would be those of this connection
      obtain rfl : scope = "CONNECTION" := (killSwitchScope_connection hKind).mp rfl
      exact hOther _ active ⟨hDone, Uuid.parse_toText connection⟩
    rw [Switched, Switched, hOthers _ hKey]

/-- The switch of every connection is as the last command on it asked. -/
def FollowsLast {ι : Type} (past : List (PlatformEvent ι)) (s : Store) : Prop :=
  ∀ connection active, AskedLast connection active past →
    (Switched s.tables .connection connection.toText ↔ active = true)

theorem FollowsLast.step {past : List (PlatformEvent PluginInput)} {e : PlatformEvent PluginInput}
    (h : FollowsLast past e.before) (hStep : SwitchStep e) (hSpelled : SpelledAlike e) :
    FollowsLast (past ++ [e]) e.after := by
  intro connection active hLast
  generalize hPast : past ++ [e] = events at hLast
  cases hLast with
  | now hSets =>
    obtain ⟨-, hEvent⟩ := List.append_inj' hPast rfl
    cases hEvent
    exact (hStep.connection_iff hSets).mpr (hSpelled _ _ _ hSets)
  | before hLast hOther =>
    obtain ⟨rfl, hEvent⟩ := List.append_inj' hPast rfl
    cases hEvent
    exact (hStep.connection_kept hOther).trans (h connection active hLast)

section Runs

variable [LinearOrder ν] (env : Env) (packages : PluginEnv ν)
  (catalogue : PlatformCatalogue PluginInput)

/-- Nothing goes out over a connection under a switch. -/
theorem UsesConnection.open {s : Store} {c : PlatformCall PluginInput} {connection : Uuid}
    (h : UsesConnection (Machine.eventAt (platformStep (pluginPlatform env packages catalogue)) s c)
      connection) :
    stoppedBy s.tables none (some connection) = false := by
  obtain ⟨tick, op⟩ := c
  cases h with
  | @proposed command action connectionId grantId priceProfile target contentRef hDone hCommand
      hInput hConnection =>
    cases hCommand
    rcases platformStep_core_command (pluginPlatform env packages catalogue) s tick command with
      ⟨hNone, -⟩ | ⟨-, key, t, m, receipt, hCommitted⟩
    · cases hNone.symm.trans hDone
    · have hHandled : dispatchCommand env tick s.tables command = .ok (t, m) := hCommitted.handled
      rw [dispatchCommand, hInput] at hHandled
      obtain ⟨q, hAdmit, -⟩ := proposeEffect_ok hHandled
      obtain ⟨hAdmitted, hNamed, -⟩ := admitProposal_ok hAdmit
      cases hConnection.symm.trans hNamed
      exact hAdmitted.enabled
  | @dispatched command effectId expected id row hDone hCommand hInput hId hFound hConnection =>
    cases hCommand
    rcases platformStep_core_command (pluginPlatform env packages catalogue) s tick command with
      ⟨hNone, -⟩ | ⟨-, key, t, m, receipt, hCommitted⟩
    · cases hNone.symm.trans hDone
    · have hHandled : dispatchCommand env tick s.tables command = .ok (t, m) := hCommitted.handled
      rw [dispatchCommand, hInput] at hHandled
      obtain ⟨id', e, e', hId', hDispatched, -⟩ := dispatchEffect_ok hHandled
      cases hId.symm.trans hId'
      cases hFound.symm.trans hDispatched.found
      rw [← hConnection]
      exact hDispatched.enabled

/-- What a command on the switch of a connection promises: while it was the last one and asked for
the switch, nothing goes out over the connection, and after it asked for none no switch of the
connection blocks. -/
structure SwitchObeyed (s : Store) (events : List (PlatformEvent PluginInput)) (connection : Uuid) :
    Prop where
  blocks : AskedLast connection true events →
    requireDispatchEnabled s.tables none (some connection) =
        .error (.precondition "KILL_SWITCH_ACTIVE") ∧
      ∀ c, ¬ UsesConnection (Machine.eventAt
        (platformStep (pluginPlatform env packages catalogue)) s c) connection
  clears : AskedLast connection false events → ¬ Switched s.tables .connection connection.toText

/-- In every run whose commands on the switches of connections spell them canonically where the
canonical switch has to change, each such command does what it says, for every spelling. -/
theorem connection_switches (s : Store) (calls : List (PlatformCall PluginInput))
    (hSpelled : ∀ e ∈ Machine.trace (platformStep (pluginPlatform env packages catalogue)) s calls,
      SpelledAlike e) (connection : Uuid) :
    SwitchObeyed env packages catalogue
      (Machine.run (platformStep (pluginPlatform env packages catalogue)) s calls)
      (Machine.trace (platformStep (pluginPlatform env packages catalogue)) s calls)
      connection := by
  have hFollows := Machine.history (platformStep (pluginPlatform env packages catalogue))
    (H := fun past s => (∀ e ∈ past, SpelledAlike e) → FollowsLast past s)
    (fun past s c ih hPast => by
      have hBefore := ih fun e he => hPast e (List.mem_append_left _ he)
      exact FollowsLast.step (e := Machine.eventAt _ s c) hBefore (platformStep_switches s c)
        (hPast _ (List.mem_append_right _ List.mem_cons_self)))
    (s := s) (fun _ connection active hLast => by
      generalize hNil : [] = events at hLast
      cases hLast <;> simp at hNil) calls hSpelled
  constructor
  · intro hLast
    have hSwitched := (hFollows connection true hLast).mpr rfl
    have hStopped : stoppedBy (Machine.run (platformStep (pluginPlatform env packages catalogue)) s
        calls).tables none (some connection) = true :=
      stoppedBy_iff.mpr (Or.inr (Or.inr ⟨connection, rfl, hSwitched⟩))
    refine ⟨require_eq_error.mpr ⟨?_, rfl⟩, fun c hUses => ?_⟩
    · rw [hStopped]
      decide
    · cases hStopped.symm.trans hUses.open
  · intro hLast hSwitched
    cases (hFollows connection false hLast).mp hSwitched

end Runs

/-- The connection is stopped by a command in the given spelling. -/
def Sample.stopConnection (targetId : String) : PlatformCall PluginInput :=
  { tick := stocked 1
    operation := .core (command 1 (.killSwitchSet "CONNECTION" targetId true "incident")).operation }

/-- The event of that command. -/
def Sample.stopEvent (targetId : String) : PlatformEvent PluginInput :=
  Machine.eventAt (platformStep plugins) shelf (stopConnection targetId)

/-- Whether the command of an event was carried out, and whether the connection is stopped. -/
def Sample.stopView (e : PlatformEvent PluginInput) : Bool × Bool :=
  (platformCommits e.response, stoppedBy e.after.tables none (some connectionId))

/-- The canonical spelling stops the connection, the one without hyphens is accepted as well and
does not. -/
theorem Sample.stop_views :
    stopView (stopEvent connectionId.toText) = (true, true) ∧
      Uuid.parse "00000000000000000000000000000003" = some connectionId ∧
      stopView (stopEvent "00000000000000000000000000000003") = (true, false) := by
  simp only [Sample.stopEvent, platformStep_bytewise, Sample.plugins_bytewise]
  decide +kernel

theorem Sample.stopView_iff {e : PlatformEvent PluginInput} {stopped : Bool} :
    stopView e = (true, stopped) ↔ platformCommits e.response = true ∧
      stoppedBy e.after.tables none (some connectionId) = stopped := by
  rw [stopView, Prod.mk.injEq]

theorem Sample.stopEvent_call (targetId : String) :
    (stopEvent targetId).call = stopConnection targetId := rfl

theorem Sample.stop_sets {targetId : String} {stopped : Bool}
    (hView : stopView (stopEvent targetId) = (true, stopped))
    (hParse : Uuid.parse targetId = some connectionId) :
    (stopEvent targetId).setsConnection connectionId targetId true := by
  refine ⟨⟨(stopView_iff.mp hView).1, ?_⟩, hParse⟩
  rw [stopEvent_call, stopConnection]
  exact ⟨_, _, rfl, rfl⟩

theorem Sample.stop_spelled : SpelledAlike (stopEvent connectionId.toText) := by
  rintro connection targetId active ⟨⟨-, c, reason, hCommand, hInput⟩, hParse⟩
  rw [stopEvent_call, stopConnection] at hCommand
  cases hCommand
  cases hInput
  rw [Uuid.parse_toText] at hParse
  cases hParse
  exact Or.inl rfl

theorem Sample.stop_trace (targetId : String) :
    Machine.trace (platformStep plugins) shelf [stopConnection targetId] = [stopEvent targetId] :=
  rfl

theorem Sample.stop_asked {targetId : String} {stopped : Bool}
    (hView : stopView (stopEvent targetId) = (true, stopped))
    (hParse : Uuid.parse targetId = some connectionId) :
    AskedLast connectionId true (Machine.trace (platformStep plugins) shelf
      [stopConnection targetId]) := by
  rw [stop_trace]
  have hNow : AskedLast connectionId true ([] ++ [stopEvent targetId]) :=
    .now (stop_sets hView hParse)
  exact hNow

theorem connection_switches_canonical :
    AskedLast Sample.connectionId true (Machine.trace (platformStep Sample.plugins) Sample.shelf
        [Sample.stopConnection Sample.connectionId.toText]) ∧
      SwitchObeyed Sample.env Sample.packages Sample.pluginCatalogue
        (Sample.fromShelf [Sample.stopConnection Sample.connectionId.toText])
        (Machine.trace (platformStep Sample.plugins) Sample.shelf
          [Sample.stopConnection Sample.connectionId.toText]) Sample.connectionId := by
  refine ⟨Sample.stop_asked Sample.stop_views.1 (Uuid.parse_toText _), ?_⟩
  have hSpelled : ∀ e ∈ Machine.trace (platformStep Sample.plugins) Sample.shelf
      [Sample.stopConnection Sample.connectionId.toText], SpelledAlike e := by
    rw [Sample.stop_trace]
    intro e he
    rw [List.mem_singleton.mp he]
    exact Sample.stop_spelled
  unfold Sample.fromShelf
  unfold Sample.plugins at hSpelled ⊢
  exact connection_switches Sample.env Sample.packages Sample.pluginCatalogue Sample.shelf
    [Sample.stopConnection Sample.connectionId.toText] hSpelled Sample.connectionId

theorem Sample.stop_after (targetId : String) :
    fromShelf [stopConnection targetId] = (stopEvent targetId).after := by
  rw [fromShelf, Machine.run, Machine.run, stopEvent, Machine.eventAt]

/-- A switch that was accepted in another spelling stops nothing. -/
theorem connection_switch_ignored :
    AskedLast Sample.connectionId true (Machine.trace (platformStep Sample.plugins) Sample.shelf
        [Sample.stopConnection "00000000000000000000000000000003"]) ∧
      stoppedBy (Sample.fromShelf [Sample.stopConnection "00000000000000000000000000000003"]).tables
        none (some Sample.connectionId) = false := by
  refine ⟨Sample.stop_asked Sample.stop_views.2.2 Sample.stop_views.2.1, ?_⟩
  rw [Sample.stop_after]
  exact (Sample.stopView_iff.mp Sample.stop_views.2.2).2

end Masonwing
