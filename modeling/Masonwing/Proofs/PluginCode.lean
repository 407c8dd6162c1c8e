import Mathlib.Data.List.Dedup
import Masonwing.HostApi.PluginExecution

/-!
# The code that runs

A native plugin is called under the contract it was compiled with, a component if its bytes have
the digest of the manifest, and a guest reaches the broker with granted actions only.

* `execute_ran`: what one execution calls, and what had been checked by then;
* `registerAll_registered`: every native plugin at hand comes from a fixture;
* `fromFixture_compiled`: what an accepted manifest shares with that fixture;
* `invoke_confined`: what a guest makes the broker see.
-/

namespace Outcome

theorem forM_eq_ok {ε α : Type} {f : α → Except ε Unit} {xs : List α} :
    xs.forM f = .ok () ↔ ∀ x ∈ xs, f x = .ok () := by
  induction xs with
  | nil => exact ⟨fun _ _ hx => (by cases hx), fun _ => rfl⟩
  | cons x xs ih =>
    have hCons : (x :: xs).forM f = f x >>= fun _ => xs.forM f := rfl
    rw [hCons, bind_eq_ok, List.forall_mem_cons, ← ih]
    exact ⟨fun ⟨_, hFirst, hRest⟩ => ⟨hFirst, hRest⟩, fun ⟨hFirst, hRest⟩ => ⟨(), hFirst, hRest⟩⟩

end Outcome

namespace Masonwing

open Outcome Procedure ComponentRunner

/-! ## Handlers -/

theorem validateHandlers_ok {seen : List String} {handlers : List HandlerContract}
    (h : validateHandlers seen handlers = .ok ()) :
    (handlers.map (·.id)).Nodup ∧ ∀ handler ∈ handlers, handler.id ∉ seen := by
  induction handlers generalizing seen with
  | nil => exact ⟨List.nodup_nil, fun _ hh => (by cases hh)⟩
  | cons first rest ih =>
    simp only [validateHandlers, bind_eq_ok, require_eq_ok] at h
    obtain ⟨_, ⟨-, hFirst, -⟩, hRest⟩ := h
    obtain ⟨hNodup, hLater⟩ := ih hRest
    refine ⟨List.nodup_cons.mpr ⟨?_, hNodup⟩, ?_⟩
    · intro hAgain
      obtain ⟨handler, hh, hId⟩ := List.mem_map.mp hAgain
      exact hLater handler hh (by rw [hId]; simp)
    · intro handler hh
      rcases List.mem_cons.mp hh with rfl | hh
      · exact hFirst
      · exact fun hSeen => hLater handler hh (List.mem_append_left _ hSeen)

section HandlerMap

variable {map : Table String HandlerContract} {handlers : List HandlerContract}

theorem foldl_handlers_get? {id : String} {h : HandlerContract}
    (hGet : (handlers.foldl (fun map h => map.upsert h.id h) map).get? id = some h) :
    h ∈ handlers ∧ h.id = id ∨ map.get? id = some h := by
  induction handlers generalizing map with
  | nil => exact Or.inr hGet
  | cons first rest ih =>
    rcases ih hGet with ⟨hh, hId⟩ | hOld
    · exact Or.inl ⟨List.mem_cons_of_mem _ hh, hId⟩
    · rw [Table.get?_upsert] at hOld
      split at hOld
      · rename_i hId
        cases hOld
        exact Or.inl ⟨List.mem_cons_self, hId.symm⟩
      · exact Or.inr hOld

theorem foldl_handlers_contains {id : String}
    (h : id ∈ handlers.map (·.id) ∨ map.contains id = true) :
    (handlers.foldl (fun map h => map.upsert h.id h) map).contains id = true := by
  induction handlers generalizing map with
  | nil => exact h.resolve_left (by simp)
  | cons first rest ih =>
    apply ih
    rw [Table.contains, Table.get?_upsert]
    by_cases hId : id = first.id
    · exact Or.inr (by rw [if_pos hId]; rfl)
    · rw [if_neg hId]
      refine h.imp_left fun hMem => ?_
      exact (List.mem_cons.mp hMem).resolve_left hId

theorem handlerMap_mem {id : String} {h : HandlerContract}
    (hGet : (handlerMap handlers).get? id = some h) : h ∈ handlers ∧ h.id = id :=
  (foldl_handlers_get? hGet).resolve_right fun hOld => by
    rw [Table.get?_empty] at hOld
    cases hOld

/-- A map of handlers has one row for each of their identifiers. -/
theorem handlerMap_keys (hNodup : (handlers.map (·.id)).Nodup) :
    (handlerMap handlers).keys.Perm (handlers.map (·.id)) := by
  refine (List.perm_ext_iff_of_nodup (handlerMap handlers).nodup hNodup).mpr fun id => ?_
  constructor
  · intro hKey
    obtain ⟨⟨key, h⟩, hRow, rfl⟩ := List.mem_map.mp hKey
    obtain ⟨hMem, hId⟩ := handlerMap_mem (Table.get?_eq_some_iff.mpr hRow)
    exact List.mem_map.mpr ⟨h, hMem, hId⟩
  · intro hId
    have hContains : (handlerMap handlers).contains id = true :=
      foldl_handlers_contains (Or.inl hId)
    obtain ⟨h, hGet⟩ := Table.contains_iff.mp hContains
    exact List.mem_map.mpr ⟨(id, h), Table.get?_eq_some_iff.mp hGet, rfl⟩

end HandlerMap

/-! ## Registrations -/

/-- The manifest agrees with a compiled plugin and with the fixture it comes from. -/
structure CompiledContract (sha256Digest : Bytes → Digest) (fixture : PackagedPluginFixture)
    (plugin : DomainPlugin) (manifest : PluginManifest) : Prop where
  executionClass : fixture.executionClass = .trustedNative
  code : sha256Digest fixture.artifactBytes = manifest.artifactDigest
  id : fixture.pluginId = manifest.id
  artifactDigest : fixture.artifactDigest = manifest.artifactDigest
  version : fixture.version = manifest.version
  contractVersion : fixture.contractVersion = manifest.contractVersion
  publisherId : fixture.publisherId = manifest.publisherId
  fixtureHandlers : (fixture.handlers.map (·.id)).Nodup
  manifestHandlers : (manifest.handlers.map (·.id)).Nodup
  compiled : ∀ handler ∈ manifest.handlers,
    ∃ c ∈ fixture.handlers, c.id = handler.id ∧ c.sameContent handler
  submitted : ∀ c ∈ fixture.handlers,
    ∃ handler ∈ manifest.handlers, handler.id = c.id ∧ c.sameContent handler
  operations : plugin.descriptor.operations.Nodup
  described : ∀ operation, operation ∈ plugin.descriptor.operations ↔
    ∃ handler ∈ manifest.handlers, handler.id = operation

section Registrations

variable {sha256Digest : Bytes → Digest} {fixture : PackagedPluginFixture} {plugin : DomainPlugin}
  {r : NativePluginRegistration} {manifest : PluginManifest}

theorem validate_ok (h : fixture.validate sha256Digest = .ok ()) :
    sha256Digest fixture.artifactBytes = fixture.artifactDigest ∧
      (fixture.handlers.map (·.id)).Nodup := by
  simp only [PackagedPluginFixture.validate, bind_eq_ok, require_eq_ok] at h
  obtain ⟨_, -, _, -, _, hCode, _, -, _, hHandlers, -⟩ := h
  exact ⟨hCode, (validateHandlers_ok hHandlers).1⟩

/-- As many operations as handlers, among them every handler: they are the same. -/
theorem operations_perm {operations : List String} {handlers : List HandlerContract}
    (hNodup : (handlers.map (·.id)).Nodup) (hLength : operations.length = handlers.length)
    (hAll : ∀ handler ∈ handlers, handler.id ∈ operations) :
    (handlers.map (·.id)).Perm operations := by
  have hSubset : handlers.map (·.id) ⊆ operations := by
    intro id hId
    obtain ⟨handler, hh, rfl⟩ := List.mem_map.mp hId
    exact hAll handler hh
  exact (List.subperm_of_subset hNodup hSubset).perm_of_length_le
    (by rw [List.length_map, hLength])

theorem fromFixture_plugin
    (h : NativePluginRegistration.fromFixture sha256Digest fixture plugin = .ok r) :
    r.plugin = plugin := by
  simp only [NativePluginRegistration.fromFixture, bind_eq_ok, pure_eq_ok] at h
  obtain ⟨_, -, _, -, _, -, _, -, _, -, rfl⟩ := h
  rfl

/-- A manifest that a registration accepts, under its key. -/
theorem fromFixture_compiled
    (h : NativePluginRegistration.fromFixture sha256Digest fixture plugin = .ok r)
    (hKey : r.key = (manifest.id.text, manifest.artifactDigest.toText))
    (hManifest : r.validatesManifest manifest = true) :
    CompiledContract sha256Digest fixture plugin manifest := by
  simp only [NativePluginRegistration.fromFixture, bind_eq_ok, mapError_eq_ok, require_eq_ok,
    pure_eq_ok] at h
  obtain ⟨_, hValid, _, hClass, _, -, _, -, _, ⟨hLength, hAll⟩, rfl⟩ := h
  obtain ⟨hCode, hNodup⟩ := validate_ok hValid
  obtain ⟨hId, hDigest⟩ := Prod.mk.inj hKey
  have hDigest : fixture.artifactDigest = manifest.artifactDigest := Digest.toText_injective hDigest
  simp only [NativePluginRegistration.validatesManifest, Bool.and_eq_true, decide_eq_true_eq,
    List.all_eq_true, Option.any_eq_true] at hManifest
  obtain ⟨⟨⟨⟨⟨hVersion, hContract⟩, hPublisher⟩, hDistinct⟩, hCount⟩, hContent⟩ := hManifest
  have hSubmitted : (manifest.handlers.map (·.id)).Nodup := by
    rw [← List.dedup_eq_self]
    exact (List.dedup_sublist _).eq_of_length (by rw [hDistinct, List.length_map])
  have hCompiled : ∀ handler ∈ manifest.handlers,
      ∃ c ∈ fixture.handlers, c.id = handler.id ∧ c.sameContent handler := by
    intro handler hh
    obtain ⟨c, hGet, hSame⟩ := hContent handler hh
    obtain ⟨hMem, hSameId⟩ := handlerMap_mem hGet
    exact ⟨c, hMem, hSameId, hSame⟩
  -- the identifiers of the manifest are some of the compiled ones, and as many
  have hIds : (manifest.handlers.map (·.id)).Perm (fixture.handlers.map (·.id)) := by
    have hSubset : manifest.handlers.map (·.id) ⊆ fixture.handlers.map (·.id) := by
      intro id hMem
      obtain ⟨handler, hh, rfl⟩ := List.mem_map.mp hMem
      obtain ⟨c, hc, hSame, -⟩ := hCompiled handler hh
      exact List.mem_map.mpr ⟨c, hc, hSame⟩
    have hRows : (handlerMap fixture.handlers).rows.length =
        (fixture.handlers.map (·.id)).length := by
      rw [← (handlerMap_keys hNodup).length_eq, Table.keys, List.length_map]
    exact (List.subperm_of_subset hSubmitted hSubset).perm_of_length_le
      (by rw [← hRows, hCount, hDistinct, List.length_map])
  have hOperations := operations_perm hNodup hLength hAll
  refine
    { executionClass := hClass
      code := hCode.trans hDigest
      id := OpaqueId.text_injective hId
      artifactDigest := hDigest
      version := hVersion.symm
      contractVersion := hContract.symm
      publisherId := hPublisher.symm
      fixtureHandlers := hNodup
      manifestHandlers := hSubmitted
      compiled := hCompiled
      submitted := fun c hc => ?_
      operations := hOperations.nodup_iff.mp hNodup
      described := fun operation => ?_ }
  · have hId : c.id ∈ manifest.handlers.map (·.id) :=
      hIds.mem_iff.mpr (List.mem_map_of_mem hc)
    obtain ⟨handler, hh, hSame⟩ := List.mem_map.mp hId
    obtain ⟨c', hc', hSame', hContent⟩ := hCompiled handler hh
    cases List.inj_on_of_nodup_map hNodup hc' hc (hSame'.trans hSame)
    exact ⟨handler, hh, hSame, hContent⟩
  · rw [← hOperations.mem_iff, ← hIds.mem_iff, List.mem_map]

end Registrations

/-! ## The table of native plugins -/

namespace PluginExecutor

variable {σ : Type} {sha256Digest : Bytes → Digest}

/-- Registers a plugin with its fixture, if both are accepted. -/
def register (sha256Digest : Bytes → Digest) (e : PluginExecutor σ)
    (p : PackagedPluginFixture × DomainPlugin) : PluginExecutor σ :=
  match NativePluginRegistration.fromFixture sha256Digest p.1 p.2 with
  | .error _ => e
  | .ok r =>
    match e.registerNative r with
    | .error _ => e
    | .ok e' => e'

/-- The executor after an attempt to register each of these. -/
def registerAll (sha256Digest : Bytes → Digest) (wasm : WasmExecutor σ)
    (plugins : List (PackagedPluginFixture × DomainPlugin)) : PluginExecutor σ :=
  plugins.foldl (register sha256Digest) (.new wasm)

/-- Each row was made of one of these, and is under its own key. -/
def Registered (sha256Digest : Bytes → Digest) (e : PluginExecutor σ)
    (plugins : List (PackagedPluginFixture × DomainPlugin)) : Prop :=
  ∀ key r, e.native.get? key = some r → r.key = key ∧ ∃ p ∈ plugins,
    NativePluginRegistration.fromFixture sha256Digest p.1 p.2 = .ok r

theorem register_wasm (e : PluginExecutor σ) (p : PackagedPluginFixture × DomainPlugin) :
    (register sha256Digest e p).wasm = e.wasm := by
  unfold register registerNative
  split
  · rfl
  · split
    · rfl
    · rename_i hRegister
      split at hRegister
      · cases hRegister
      · cases hRegister
        rfl

theorem register_registered {e : PluginExecutor σ} {p : PackagedPluginFixture × DomainPlugin}
    {plugins : List (PackagedPluginFixture × DomainPlugin)}
    (h : e.Registered sha256Digest plugins) (hp : p ∈ plugins) :
    (register sha256Digest e p).Registered sha256Digest plugins := by
  unfold register registerNative
  split
  · exact h
  · rename_i r hFixture
    split
    · exact h
    · rename_i hRegister
      split at hRegister
      · cases hRegister
      · rename_i native hInsert
        cases hRegister
        intro key row hRow
        rcases Table.insert?_get?_cases hInsert hRow with ⟨rfl, rfl⟩ | ⟨-, hOld⟩
        · exact ⟨rfl, p, hp, hFixture⟩
        · exact h key row hOld

theorem registerAll_registered (sha256Digest : Bytes → Digest) (wasm : WasmExecutor σ)
    (plugins : List (PackagedPluginFixture × DomainPlugin)) :
    (registerAll sha256Digest wasm plugins).Registered sha256Digest plugins ∧
      (registerAll sha256Digest wasm plugins).wasm = wasm := by
  refine List.foldlRecOn (motive := fun e => e.Registered sha256Digest plugins ∧ e.wasm = wasm)
    plugins (register sha256Digest) ?_ ?_
  · exact ⟨fun key r hRow => (by cases hRow), rfl⟩
  · rintro e ⟨hRows, hWasm⟩ p hp
    exact ⟨register_registered hRows hp, (register_wasm e p).trans hWasm⟩

/-! ## One execution -/

section Execution

variable (e : PluginExecutor σ) (sha256Digest : Bytes → Digest) (manifest : PluginManifest)
  (artifactBytes : Option Bytes) (context : InvocationContext) (handler : HandlerContract)
  (input : InvocationInput) (broker : HostEffectBroker σ)

/-- What an execution may have done in the end, and what had been checked by then. -/
inductive Ran (s : Execution σ) : Execution σ → Prop
  | nothing : Ran s s
  | native {r : NativePluginRegistration}
      (hBinding : validateBinding manifest context handler input = .ok ())
      (hRow : e.native.get? (manifest.id.text, manifest.artifactDigest.toText) = some r)
      (hManifest : r.validatesManifest manifest = true) :
      Ran s { brokerage := (r.plugin.call broker context input s.brokerage).2
              calls := s.calls ++ [.native r.plugin context input] }
  | wasm {bytes : Bytes} (hBinding : validateBinding manifest context handler input = .ok ())
      (hBytes : artifactBytes = some bytes)
      (hDigest : sha256Digest bytes = manifest.artifactDigest) :
      Ran s { brokerage := (e.wasm bytes context handler input broker s.brokerage).2
              calls := s.calls ++ [.wasm bytes context handler input] }

variable {context}

/-- A call ends in one state, however it ends. -/
theorem call_ensures {ε α : Type} {c : CodeCall} {x : Procedure ε (Brokerage σ) α}
    {s : Execution σ} {R : Execution σ → Prop}
    (hR : R { brokerage := (x s.brokerage).2, calls := s.calls ++ [c] }) :
    Ensures (fun t => t = s) (Execution.call c x) (fun _ => R) R := by
  rw [ensures_iff]
  rintro t rfl
  exact hR

theorem checked_ensures {result : InvocationResult} {R : Execution σ → Prop} :
    Ensures R (do
      Procedure.ofExcept ((result.validateOutput context).mapError PluginExecutionError.sdk)
      return result) (fun _ => R) R :=
  .bind (.ofExcept (fun _ _ _ ht => ht) (fun _ ht => ht)) fun _ =>
    Ensures.pure (Q := fun _ => R) result

variable (context)

theorem execute_ran (s : Execution σ) :
    Ensures (fun t => t = s)
      (e.execute sha256Digest manifest artifactBytes context handler input broker)
      (fun _ => e.Ran sha256Digest manifest artifactBytes context handler input broker s)
      (e.Ran sha256Digest manifest artifactBytes context handler input broker s) := by
  have hNothing : ∀ t, t = s →
      e.Ran sha256Digest manifest artifactBytes context handler input broker s t := by
    rintro t rfl
    exact .nothing
  refine .bind (Q := fun _ t => validateBinding manifest context handler input = .ok () ∧ t = s)
    (.ofExcept (fun _ _ h ht => ⟨h, ht⟩) hNothing) fun _ => ?_
  refine Ensures.of_condition fun hBinding => ?_
  split
  · refine .bind (Q := fun r t =>
      e.native.get? (manifest.id.text, manifest.artifactDigest.toText) = some r ∧ t = s)
      (.ofExcept (fun _ _ h ht => ⟨okOr_eq_ok.mp h, ht⟩) hNothing) fun r => ?_
    refine Ensures.of_condition fun hRow => ?_
    refine .bind (Q := fun _ t => r.validatesManifest manifest = true ∧ t = s)
      (.ofExcept (fun _ _ h ht => ⟨require_eq_ok.mp h, ht⟩) hNothing) fun _ => ?_
    refine Ensures.of_condition fun hManifest => ?_
    exact .bind (call_ensures (.native hBinding hRow hManifest)) fun _ => checked_ensures
  · refine .bind (Q := fun bytes t => artifactBytes = some bytes ∧ t = s)
      (.ofExcept (fun _ _ h ht => ⟨okOr_eq_ok.mp h, ht⟩) hNothing) fun bytes => ?_
    refine Ensures.of_condition fun hBytes => ?_
    refine .bind (Q := fun _ t => sha256Digest bytes = manifest.artifactDigest ∧ t = s)
      (.ofExcept (fun _ _ h ht => ⟨require_eq_ok.mp h, ht⟩) hNothing) fun _ => ?_
    refine Ensures.of_condition fun hDigest => ?_
    exact .bind (call_ensures (.wasm hBinding hBytes hDigest)) fun _ => checked_ensures
  · exact .ofExcept (fun _ _ h _ => by cases h) hNothing

end Execution

end PluginExecutor

/-! ## Guests -/

section Guests

variable {σ : Type} {context : InvocationContext} {broker : HostEffectBroker σ}

/-- A proposal of this invocation: its tenant's, and granted. -/
def EffectProposal.Confined (context : InvocationContext) (p : EffectProposal) : Prop :=
  p.tenantId = context.tenantId ∧ context.allows p.action = true ∧
    context.allows proposeAction = true

/-- All that reached the broker was there before, or is a proposal of this invocation. -/
def Brokerage.Confined (before : List EffectProposal) (context : InvocationContext)
    (b : Brokerage σ) : Prop := ∀ p ∈ b.reached, p ∈ before ∨ p.Confined context

variable {before : List EffectProposal}

theorem proposeEffect_confined (action target contentDigest : String) :
    Ensures (Brokerage.Confined before context)
      (proposeEffect broker context action target contentDigest)
      (fun _ => Brokerage.Confined before context) (Brokerage.Confined before context) := by
  have hE : ∀ b : Brokerage σ, b.Confined before context → b.Confined before context :=
    fun _ hb => hb
  refine .bind (Q := fun _ b => context.allows proposeAction = true ∧ b.Confined before context)
    (.ofExcept (fun _ _ h hb => ⟨require_eq_ok.mp h, hb⟩) hE) fun _ => ?_
  refine Ensures.of_condition fun hPropose => ?_
  refine .bind (.ofExcept (fun _ _ _ hb => hb) hE) fun action => ?_
  refine .bind (Q := fun _ b => context.allows action = true ∧ b.Confined before context)
    (.ofExcept (fun _ _ h hb => ⟨require_eq_ok.mp h, hb⟩) hE) fun _ => ?_
  refine Ensures.of_condition fun hAction => ?_
  refine .bind (.ofExcept (fun _ _ _ hb => hb) hE) fun target => ?_
  refine .bind (.ofExcept (fun _ _ _ hb => hb) hE) fun contentDigest => ?_
  refine Ensures.mapError (ensures_iff.mpr fun b hb p hp => ?_)
  rcases List.mem_append.mp hp with hOld | hNew
  · exact hb p hOld
  · rw [List.mem_singleton.mp hNew]
    exact Or.inr ⟨rfl, hAction, hPropose⟩

theorem hostImport_confined (call : String × String × String) {s : HostState σ}
    (hs : s.brokerage.Confined before context) :
    (hostImport broker context call s).2.brokerage.Confined before context := by
  have hPropose : Ensures (Brokerage.Confined before context)
      (proposeEffect broker context call.1 call.2.1 call.2.2)
      (fun _ => Brokerage.Confined before context) (Brokerage.Confined before context) :=
    proposeEffect_confined call.1 call.2.1 call.2.2
  unfold hostImport
  split
  · rename_i hRun
    exact hPropose.of_ok hs hRun
  · rename_i hRun
    exact hPropose.of_error hs hRun

theorem runGuest_confined {α : Type} (guest : Guest α) :
    Ensures (fun s => s.brokerage.Confined before context) (runGuest broker context guest)
      (fun _ s => s.brokerage.Confined before context)
      (fun s => s.brokerage.Confined before context) :=
  ensures_iff.mpr fun _ hs =>
    Interaction.run_invariant (I := fun s : HostState σ => s.brokerage.Confined before context)
      (fun call _ => hostImport_confined call) guest hs

variable (before context broker)

/-- Whatever the guest does, the broker sees proposals of this invocation only. -/
theorem invoke_confined (runner : WasmtimeComponentRunner) (engine : Engine) (bytes : Bytes)
    (handler : HandlerContract) (input : InvocationInput) :
    Ensures (Brokerage.Confined before context)
      (runner.invoke engine broker bytes context handler input)
      (fun _ => Brokerage.Confined before context) (Brokerage.Confined before context) := by
  have hE : ∀ b : Brokerage σ, b.Confined before context → b.Confined before context :=
    fun _ hb => hb
  have hStep : ∀ {α : Type} {r : Except ComponentExecutionError α},
      Ensures (Brokerage.Confined before context)
        (Procedure.ofExcept r : Procedure _ (Brokerage σ) α)
        (fun _ => Brokerage.Confined before context) (Brokerage.Confined before context) :=
    .ofExcept (fun _ _ _ hb => hb) hE
  refine .bind hStep fun _ => .bind hStep fun _ => .bind hStep fun _ => .bind hStep fun component =>
    .bind hStep fun _ => .bind hStep fun _ => .bind hStep fun _ => ?_
  have hExecution : Ensures (fun s : HostState σ => s.brokerage.Confined before context)
      (runner.execution broker component context handler input)
      (fun _ s => s.brokerage.Confined before context)
      (fun s => s.brokerage.Confined before context) := by
    refine .bind (runGuest_confined _) fun exported => ?_
    refine .bind (.ofExcept (fun _ _ _ hs => hs) fun _ hs => hs) fun invoke => ?_
    refine .bind (runGuest_confined _) fun result => ?_
    exact .ofExcept (fun _ _ _ hs => hs) fun _ hs => hs
  exact ensures_iff.mpr fun b hb =>
    ensures_iff.mp hExecution { brokerage := b, proposedEffects := [] } hb

end Guests

/-! ## Executions -/

theorem validateBinding_ok {manifest : PluginManifest} {context : InvocationContext}
    {handler : HandlerContract} {input : InvocationInput}
    (h : validateBinding manifest context handler input = .ok ()) :
    (∀ action ∈ handler.requiredCapabilities,
      context.allows action = true ∧ action ∈ manifest.requestedCapabilities) ∧
    WasmtimeComponentRunner.validateInvocation context handler input =
      if handler.maxExecutionSeconds = 0 then .error .invalidLimits else .ok () := by
  simp only [validateBinding, bind_eq_ok, require_eq_ok] at h
  obtain ⟨_, -, _, -, _, -, _, ⟨hId, -, -, hInput, hOutput, hSchema, -⟩, hCapabilities⟩ := h
  refine ⟨hCapabilities, ?_⟩
  unfold WasmtimeComponentRunner.validateInvocation
  split
  · rename_i hZero
    rw [bind_eq_error]
    exact Or.inr ⟨(), require_eq_ok.mpr hId,
      bind_eq_error.mpr (Or.inl (require_eq_error.mpr ⟨not_not_intro hZero, rfl⟩))⟩
  · rename_i hTime
    simp only [bind_eq_ok, require_eq_ok]
    exact ⟨(), hId, (), hTime, (), ⟨hInput, hSchema⟩, (), hOutput,
      forM_eq_ok.mpr fun action hAction => require_eq_ok.mpr (hCapabilities action hAction).1⟩

/-- Nothing was called yet, and nothing has reached the broker. -/
def Execution.start {σ : Type} (s : σ) : Execution σ :=
  { brokerage := { state := s, reached := [] }, calls := [] }

namespace PluginExecutor

section Ran

variable {σ : Type} {e : PluginExecutor σ} {sha256Digest : Bytes → Digest}
  {manifest : PluginManifest} {artifactBytes : Option Bytes} {context : InvocationContext}
  {handler : HandlerContract} {input : InvocationInput} {broker : HostEffectBroker σ} {s : σ}
  {after : Execution σ}

theorem Ran.binding
    (h : e.Ran sha256Digest manifest artifactBytes context handler input broker (.start s) after)
    (hCalls : after.calls ≠ []) : validateBinding manifest context handler input = .ok () := by
  cases h with
  | nothing => exact absurd rfl hCalls
  | native hBinding _ _ => exact hBinding
  | wasm hBinding _ _ => exact hBinding

theorem Ran.of_native
    (h : e.Ran sha256Digest manifest artifactBytes context handler input broker (.start s) after)
    {plugin : DomainPlugin} {c : InvocationContext} {i : InvocationInput}
    (hCall : CodeCall.native plugin c i ∈ after.calls) :
    c = context ∧ i = input ∧ ∃ r, r.plugin = plugin ∧
      e.native.get? (manifest.id.text, manifest.artifactDigest.toText) = some r ∧
      r.validatesManifest manifest = true := by
  cases h with
  | nothing => cases hCall
  | native _ hRow hManifest =>
    cases List.mem_singleton.mp hCall
    exact ⟨rfl, rfl, _, rfl, hRow, hManifest⟩
  | wasm _ _ _ => cases List.mem_singleton.mp hCall

theorem Ran.of_wasm
    (h : e.Ran sha256Digest manifest artifactBytes context handler input broker (.start s) after)
    {bytes : Bytes} {c : InvocationContext} {hc : HandlerContract} {i : InvocationInput}
    (hCall : CodeCall.wasm bytes c hc i ∈ after.calls) :
    c = context ∧ hc = handler ∧ i = input ∧ sha256Digest bytes = manifest.artifactDigest ∧
      after.brokerage =
        (e.wasm bytes context handler input broker { state := s, reached := [] }).2 := by
  cases h with
  | nothing => cases hCall
  | native _ _ _ => cases List.mem_singleton.mp hCall
  | wasm _ _ hDigest =>
    cases List.mem_singleton.mp hCall
    exact ⟨rfl, rfl, rfl, hDigest, rfl⟩

/-- The code of a row is the code of a fixture that the row was made of. -/
theorem Registered.compiled {plugins : List (PackagedPluginFixture × DomainPlugin)}
    (h : e.Registered sha256Digest plugins) {r : NativePluginRegistration}
    (hRow : e.native.get? (manifest.id.text, manifest.artifactDigest.toText) = some r)
    (hManifest : r.validatesManifest manifest = true) :
    ∃ fixture, (fixture, r.plugin) ∈ plugins ∧
      NativePluginRegistration.fromFixture sha256Digest fixture r.plugin = .ok r ∧
      e.native.get? r.key = some r ∧ CompiledContract sha256Digest fixture r.plugin manifest := by
  obtain ⟨hKey, ⟨fixture, plugin⟩, hMem, hFixture⟩ := h _ r hRow
  obtain rfl : r.plugin = plugin := fromFixture_plugin hFixture
  exact ⟨fixture, hMem, hFixture, by rw [hKey, hRow], fromFixture_compiled hFixture hKey hManifest⟩

end Ran

/-- Native code runs under the contract it was compiled with, a component with its own bytes and
all that the runner asks for but time, and a guest proposes what its invocation is granted. -/
theorem verified_code_runs {σ : Type} (sha256Digest : Bytes → Digest)
    (plugins : List (PackagedPluginFixture × DomainPlugin)) (manifest : PluginManifest)
    (artifactBytes : Option Bytes) (context : InvocationContext) (handler : HandlerContract)
    (input : InvocationInput) (broker : HostEffectBroker σ) (s : σ) :
    (∀ (wasm : WasmExecutor σ) (executor : PluginExecutor σ) (after : Execution σ),
      executor = registerAll sha256Digest wasm plugins →
      after = (executor.execute sha256Digest manifest artifactBytes context handler input broker
        (.start s)).2 →
      (∀ plugin c i, CodeCall.native plugin c i ∈ after.calls → c = context ∧ i = input ∧
        ∃ fixture r, (fixture, plugin) ∈ plugins ∧
          NativePluginRegistration.fromFixture sha256Digest fixture plugin = .ok r ∧
          executor.native.get? r.key = some r ∧
          CompiledContract sha256Digest fixture plugin manifest) ∧
      (∀ bytes c h i, CodeCall.wasm bytes c h i ∈ after.calls → c = context ∧ h = handler ∧
        i = input ∧ sha256Digest bytes = manifest.artifactDigest ∧
        WasmtimeComponentRunner.validateInvocation c h i =
          if h.maxExecutionSeconds = 0 then .error .invalidLimits else .ok ()) ∧
      (after.calls ≠ [] → ∀ action ∈ handler.requiredCapabilities,
        context.allows action = true ∧ action ∈ manifest.requestedCapabilities)) ∧
    ∀ (runner : WasmtimeComponentRunner) (engine : Engine) (after : Execution σ),
      after = ((registerAll sha256Digest (runner.executor engine) plugins).execute sha256Digest
        manifest artifactBytes context handler input broker (.start s)).2 →
      (∃ bytes c h i, CodeCall.wasm bytes c h i ∈ after.calls) →
      ∀ p ∈ after.brokerage.reached, p.Confined context := by
  constructor
  · intro wasm executor after hExecutor hAfter
    have hRan := ensures_iff.mp (execute_ran executor sha256Digest manifest artifactBytes context
      handler input broker (.start s)) _ rfl
    rw [← hAfter] at hRan
    refine ⟨fun plugin c i hCall => ?_, fun bytes c h i hCall => ?_, fun hCalls => ?_⟩
    · obtain ⟨hContext, hInput, r, rfl, hRow, hManifest⟩ := hRan.of_native hCall
      have hRegistered := (registerAll_registered sha256Digest wasm plugins).1
      rw [← hExecutor] at hRegistered
      obtain ⟨fixture, hMem, hFixture, hKey, hCompiled⟩ := hRegistered.compiled hRow hManifest
      exact ⟨hContext, hInput, fixture, r, hMem, hFixture, hKey, hCompiled⟩
    · have hBinding := hRan.binding (List.ne_nil_of_mem hCall)
      obtain ⟨rfl, rfl, rfl, hDigest, -⟩ := hRan.of_wasm hCall
      exact ⟨rfl, rfl, rfl, hDigest, (validateBinding_ok hBinding).2⟩
    · exact (validateBinding_ok (hRan.binding hCalls)).1
  · rintro runner engine after hAfter ⟨bytes, c, h, i, hCall⟩
    have hRan := ensures_iff.mp (execute_ran
      (registerAll sha256Digest (runner.executor engine) plugins) sha256Digest manifest
      artifactBytes context handler input broker (.start s)) _ rfl
    rw [← hAfter] at hRan
    obtain ⟨-, -, -, -, hBrokerage⟩ := hRan.of_wasm hCall
    have hWasm := (registerAll_registered sha256Digest
      (runner.executor engine : WasmExecutor σ) plugins).2
    have hConfined := ensures_iff.mp (Ensures.mapError (f := PluginExecutionError.ofComponent)
      (invoke_confined context broker [] runner engine bytes handler input))
      { state := s, reached := [] } (fun p hp => by cases hp)
    intro p hp
    rw [hBrokerage, hWasm] at hp
    exact (hConfined p hp).resolve_left (by simp)

end PluginExecutor

/-! ## A native plugin and a guest

Both have the package `abc`, the input of the hash that the source tests. -/

namespace Sample

def package : Bytes := [0x61, 0x62, 0x63]

/-- SHA-256 at this one package. -/
def sha256Package (bytes : Bytes) : Digest :=
  if bytes = package then
    ⟨0xba7816bf8f01cfea414140de5dae2223b00361a396177a9cb410ff61f20015ad#256⟩
  else default

def schemaRef : ArtifactRef :=
  { artifactId := ⟨"schema_a", by decide⟩, tenantId := ⟨"tenant_a", by decide⟩
    digest := sha256Package package, schemaVersion := "1.0.0", classification := .internal }

def invokeHandler : HandlerContract :=
  { id := "fixture.invoke", inputSchemaRef := schemaRef, outputSchemaRef := schemaRef
    effects := "PROPOSES_EFFECT", requiredCapabilities := [proposeAction]
    maxExecutionSeconds := 5 }

def nativeFixture : PackagedPluginFixture :=
  { pluginId := ⟨"fixture.native", by decide⟩, version := "1.0.0", contractVersion := "1.0.0"
    publisherId := "masonwing.first-party", executionClass := .trustedNative
    artifactBytes := package, artifactDigest := sha256Package package, handlers := [invokeHandler]
    workflows := [], supportingArtifacts := [] }

/-- The input comes back. -/
def echoPlugin : DomainPlugin :=
  { descriptor :=
      { id := "fixture.native", contractVersion := "1.0.0", operations := ["fixture.invoke"] }
    invoke := fun context input =>
      .done (.ok { output := .forContext context input.bytes, proposedEffects := [] }) }

def packagedManifest (executionClass : ExecutionClass) : PluginManifest :=
  { id := nativeFixture.pluginId, version := "1.0.0", contractVersion := "1.0.0"
    artifactDigest := sha256Package package, publisherId := "masonwing.first-party", executionClass
    requestedCapabilities := [proposeAction], dependencies := [], ui := [], migrations := []
    licenseExpression := "MIT", sbomDigest := sha256Package package, signatureRef := "signature"
    handlers := [invokeHandler], workflows := [], dataContracts := [], tools := [] }

def invokeContext : InvocationContext :=
  { invocationId := ⟨"invoke_1", by decide⟩, tenantId := ⟨"tenant_a", by decide⟩
    pluginId := nativeFixture.pluginId, handlerId := "fixture.invoke"
    grantId := ⟨"grant_1", by decide⟩, contractVersion := "1.0.0", inputSchemaRef := schemaRef
    outputSchemaRef := schemaRef
    grantedCapabilities := [proposeAction, ⟨"fixture.write", by decide⟩] }

def invokeInput : InvocationInput := { schemaRef, bytes := [] }

/-- Asks for an action that is granted, and whatever the answer for one that is not. -/
def twoProposals : Guest (Except String Bytes) :=
  .ask ("fixture.write", "target_a", (sha256Package package).toText) fun _ =>
    .ask ("fixture.delete", "target_a", (sha256Package package).toText) fun _ =>
      .done (.ok (.ok []))

def guestEngine : Engine :=
  { builds := true, links := true, fuels := true
    component := fun _ => some
      { imports := ["propose-effect"]
        instantiate := fun _ => .done (.ok (some fun _ _ => twoProposals)) } }

def packagedRun (executionClass : ExecutionClass) : Execution Unit :=
  ((PluginExecutor.registerAll sha256Package
    (WasmtimeComponentRunner.standard.executor guestEngine) [(nativeFixture, echoPlugin)]).execute
    sha256Package (packagedManifest executionClass) (some package) invokeContext invokeHandler
    invokeInput denyEffects (.start ())).2

end Sample

def CodeCall.isNative : CodeCall → Bool
  | .native .. => true
  | .wasm .. => false

theorem verified_code_runs_sample :
    (∃ fixture plugin, (fixture, plugin) ∈ [(Sample.nativeFixture, Sample.echoPlugin)] ∧
      CompiledContract Sample.sha256Package fixture plugin
        (Sample.packagedManifest .trustedNative)) ∧
    ∃ p, (Sample.packagedRun .wasmComponent).brokerage.reached = [p] ∧
      p.Confined Sample.invokeContext := by
  have hRuns : ((Sample.packagedRun .trustedNative).calls.map CodeCall.isNative = [true] ∧
      (Sample.packagedRun .wasmComponent).calls.map CodeCall.isNative = [false]) ∧
      (Sample.packagedRun .wasmComponent).brokerage.reached.length = 1 := by decide +kernel
  obtain ⟨⟨hNative, hWasm⟩, hReached⟩ := hRuns
  constructor
  · obtain ⟨call, hCalls, hCall⟩ := List.map_eq_singleton_iff.mp hNative
    cases call with
    | wasm => cases hCall
    | native plugin c i =>
      obtain ⟨hVerified, -⟩ := PluginExecutor.verified_code_runs Sample.sha256Package
        [(Sample.nativeFixture, Sample.echoPlugin)] (Sample.packagedManifest .trustedNative)
        (some Sample.package) Sample.invokeContext Sample.invokeHandler Sample.invokeInput
        denyEffects ()
      have hMem : CodeCall.native plugin c i ∈ (Sample.packagedRun .trustedNative).calls := by
        rw [hCalls]
        exact List.mem_singleton_self _
      obtain ⟨-, -, fixture, -, hFixture, -, -, hCompiled⟩ :=
        (hVerified _ _ _ rfl rfl).1 plugin c i hMem
      exact ⟨fixture, plugin, hFixture, hCompiled⟩
  · obtain ⟨call, hCalls, hCall⟩ := List.map_eq_singleton_iff.mp hWasm
    obtain ⟨p, hp⟩ := List.length_eq_one_iff.mp hReached
    cases call with
    | native => cases hCall
    | wasm bytes c h i =>
      obtain ⟨-, hConfined⟩ := PluginExecutor.verified_code_runs Sample.sha256Package
        [(Sample.nativeFixture, Sample.echoPlugin)] (Sample.packagedManifest .wasmComponent)
        (some Sample.package) Sample.invokeContext Sample.invokeHandler Sample.invokeInput
        denyEffects ()
      have hMem : CodeCall.wasm bytes c h i ∈ (Sample.packagedRun .wasmComponent).calls := by
        rw [hCalls]
        exact List.mem_singleton_self _
      refine ⟨p, hp, hConfined .standard Sample.guestEngine _ rfl ⟨bytes, c, h, i, hMem⟩ p ?_⟩
      have hLast : p ∈ (Sample.packagedRun .wasmComponent).brokerage.reached := by
        rw [hp]
        exact List.mem_singleton_self _
      exact hLast

end Masonwing
