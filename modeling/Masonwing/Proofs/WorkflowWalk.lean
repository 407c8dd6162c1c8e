import Masonwing.Proofs.Evaluation
import Masonwing.Proofs.Interpreter
import Masonwing.Proofs.WorkflowValidation

/-!
# The interpreter walks what the validator accepts

The validator looks nodes and edges up in ordered maps; the interpreter takes the first match in the
order of the lists. An accepted definition declares every identifier once, its entry and every
target of an edge, and a condition once for each source (`validateWorkflow_walkable`). So the walk
never leaves the declared nodes (`Walkable.walk_error`), and a lookup has one match at most and
finds it in any order (`find?_of_same`).

* `accepted_walk`: on an accepted definition no step is undeclared, no history is incompatible, and
  the decision depends neither on the order of the nodes and edges nor on that of the rows, as long
  as a step has one row, which the key of the rows guarantees.
-/

namespace Masonwing

open Outcome

/-- The first match is the same in two lists with the same members if no two of them match. -/
theorem find?_of_same {α : Type} {p : α → Bool} {l l' : List α} (hMem : ∀ a, a ∈ l' ↔ a ∈ l)
    (hUnique : ∀ a ∈ l, ∀ b ∈ l, p a = true → p b = true → a = b) : l'.find? p = l.find? p := by
  cases hFind : l.find? p with
  | none =>
    have hNone := List.find?_eq_none.mp hFind
    exact List.find?_eq_none.mpr fun a ha => hNone a ((hMem a).mp ha)
  | some a =>
    have ha := List.mem_of_find?_eq_some hFind
    have hSome : (l'.find? p).isSome = true :=
      List.find?_isSome.mpr ⟨a, (hMem a).mpr ha, List.find?_some hFind⟩
    obtain ⟨b, hb⟩ := Option.isSome_iff_exists.mp hSome
    have hMemB := (hMem b).mp (List.mem_of_find?_eq_some hb)
    rw [hb, hUnique b hMemB a ha (List.find?_some hb) (List.find?_some hFind)]

/-! ## Definitions that can be walked -/

namespace WorkflowDefinition

/-- Lookups have one answer, and the walk starts and stays at declared nodes. -/
structure Walkable (d : WorkflowDefinition) : Prop where
  distinct : (d.nodes.map (·.id)).Nodup
  entry : d.entryNode ∈ d.nodes.map (·.id)
  targets : ∀ e ∈ d.edges, e.target ∈ d.nodes.map (·.id)
  conditions : (d.edges.map fun e => (e.source, e.condition)).Nodup

variable {d d' : WorkflowDefinition}

theorem node_of_declared {id : String} (h : id ∈ d.nodes.map (·.id)) : ∃ n, d.node id = some n := by
  obtain ⟨n, hn, hId⟩ := List.mem_map.mp h
  rw [← Option.isSome_iff_exists, node, List.find?_isSome]
  exact ⟨n, hn, decide_eq_true hId⟩

theorem successor_edge {id next : String} (h : d.successor id = some next) :
    ∃ e ∈ d.edges, e.target = next := by
  simp only [successor, Option.bind_eq_bind, Option.bind_eq_some_iff, Option.pure_def,
    Option.some.injEq] at h
  obtain ⟨n, -, e, hFind, hTarget⟩ := h
  exact ⟨e, List.mem_of_find?_eq_some hFind, hTarget⟩

/-- A walk from a declared node fails at a branch only. -/
theorem Walkable.walk_error (h : d.Walkable) {steps : Nat} {current reason nodeId : String}
    (hDeclared : current ∈ d.nodes.map (·.id))
    (hWalk : d.walk steps current = .error (reason, nodeId)) :
    reason = "UNMODELED_BRANCH_EDGE" := by
  obtain ⟨n, hNode⟩ := node_of_declared hDeclared
  induction steps generalizing current n with
  | zero =>
    rw [walk, hNode] at hWalk
    cases hWalk
  | succ steps ih =>
    rw [walk, hNode] at hWalk
    dsimp only at hWalk
    split at hWalk
    · cases hWalk
    · split at hWalk
      · cases hWalk
        rfl
      · rename_i next hNext
        obtain ⟨e, he, rfl⟩ := successor_edge hNext
        obtain ⟨n', hTarget⟩ := node_of_declared (h.targets e he)
        rw [hTarget] at hWalk
        exact ih (h.targets e he) hWalk n' hTarget

theorem Walkable.nodeAt_error (h : d.Walkable) {seq : Nat} {reason nodeId : String}
    (hVisit : d.nodeAt seq = .error (reason, nodeId)) : reason = "UNMODELED_BRANCH_EDGE" :=
  h.walk_error h.entry hVisit

/-! ## Lookups in another order -/

/-- The lists have the same members, whatever their order. -/
structure Reordered (d' d : WorkflowDefinition) : Prop where
  entry : d'.entryNode = d.entryNode
  nodes : ∀ n, n ∈ d'.nodes ↔ n ∈ d.nodes
  edges : ∀ e, e ∈ d'.edges ↔ e ∈ d.edges
  steps : d'.maxTotalSteps = d.maxTotalSteps
  turns : d'.maxModelTurns = d.maxModelTurns

section Reordered

variable (hOrder : Reordered d' d)
include hOrder

theorem Walkable.node (h : d.Walkable) (id : String) : d'.node id = d.node id := by
  apply find?_of_same hOrder.nodes
  intro n hn n' hn' hId hId'
  rw [decide_eq_true_eq] at hId hId'
  exact List.inj_on_of_nodup_map h.distinct hn hn' (hId.trans hId'.symm)

theorem Walkable.successor (h : d.Walkable) (id : String) : d'.successor id = d.successor id := by
  have hFind : ∀ condition, (d'.edges.find? fun e =>
      decide (e.source = id ∧ e.condition = condition)) =
        d.edges.find? fun e => decide (e.source = id ∧ e.condition = condition) := by
    intro condition
    apply find?_of_same hOrder.edges
    intro e he e' he' hPair hPair'
    rw [decide_eq_true_eq] at hPair hPair'
    apply List.inj_on_of_nodup_map h.conditions he he'
    rw [hPair.1, hPair.2, hPair'.1, hPair'.2]
  simp only [WorkflowDefinition.successor, h.node hOrder, hFind]

theorem Reordered.leaf (id : String) :
    (d'.edges.filter fun e => decide (e.source = id)) = [] ↔
      (d.edges.filter fun e => decide (e.source = id)) = [] := by
  simp only [List.filter_eq_nil_iff, hOrder.edges]

theorem Walkable.walk (h : d.Walkable) (steps : Nat) (current : String) :
    d'.walk steps current = d.walk steps current := by
  induction steps generalizing current with
  | zero => rw [WorkflowDefinition.walk, WorkflowDefinition.walk, h.node hOrder]
  | succ steps ih =>
    simp only [WorkflowDefinition.walk, h.node hOrder, h.successor hOrder, hOrder.leaf, ih]

theorem Walkable.nodeAt (h : d.Walkable) (seq : Nat) : d'.nodeAt seq = d.nodeAt seq := by
  rw [WorkflowDefinition.nodeAt, hOrder.entry, h.walk hOrder]
  rfl

theorem Walkable.modelTurnsUsed (h : d.Walkable) (seq : Nat) :
    d'.modelTurnsUsed seq = d.modelTurnsUsed seq := by
  simp only [WorkflowDefinition.modelTurnsUsed, h.nodeAt hOrder, h.node hOrder]

end Reordered

end WorkflowDefinition

/-! ## Decisions in another order -/

section Decisions

open WorkflowDefinition

variable {d d' : WorkflowDefinition} {rows rows' : List DurableCheckpoint}

/-- An unsupported step is one at which the walk failed. -/
theorem nextStepFrom_unsupported {i : RunInterpreter} {left seq : Nat} {nodeId reason : String}
    (h : i.nextStepFrom left seq = .unsupported nodeId reason) :
    ∃ k, i.definition.nodeAt k = .error (reason, nodeId) := by
  have hGate : ∀ seq visited key, i.budgetGate seq visited key ≠ .unsupported nodeId reason := by
    intro seq visited key hGate
    rw [RunInterpreter.budgetGate] at hGate
    split at hGate
    · cases hGate
    · split at hGate
      · cases hGate
      · split at hGate
        · cases hGate
        · cases hGate
  induction left generalizing seq with
  | zero => cases h
  | succ left ih =>
    rw [RunInterpreter.nextStepFrom] at h
    split at h
    · rename_i hVisit
      cases h
      exact ⟨seq, hVisit⟩
    · cases h
    · dsimp only at h
      split at h
      · exact absurd h (hGate _ _ _)
      · split at h
        · cases h
        · split at h
          · exact ih h
          · cases h
          · cases h
          · exact absurd h (hGate _ _ _)
          · exact absurd h (hGate _ _ _)

/-- A step has one row, as the primary key of the checkpoints of a run has it. -/
def StepKeyed (rows : List DurableCheckpoint) : Prop :=
  ∀ row ∈ rows, ∀ row' ∈ rows, row.logicalStepId = row'.logicalStepId → row = row'

theorem checkpointRecord_key {row : DurableCheckpoint} {record : CheckpointRecord}
    (h : checkpointRecord row = some record) : record.logicalStepId = row.logicalStepId := by
  obtain ⟨nodeId, -, rfl⟩ := Option.map_eq_some_iff.mp h
  rfl

theorem StepKeyed.checkpoint (hKeyed : StepKeyed rows) (hRows : ∀ row, row ∈ rows' ↔ row ∈ rows)
    (key : String) : (interpreterFromCheckpoints d' rows').checkpoint key =
      (interpreterFromCheckpoints d rows).checkpoint key := by
  apply find?_of_same
  · intro record
    simp only [interpreterFromCheckpoints, List.mem_reverse, List.mem_filterMap, hRows]
  · intro record hRecord record' hRecord' hKey hKey'
    rw [decide_eq_true_eq] at hKey hKey'
    rw [List.mem_reverse] at hRecord hRecord'
    obtain ⟨row, hRow, hOf⟩ := List.mem_filterMap.mp hRecord
    obtain ⟨row', hRow', hOf'⟩ := List.mem_filterMap.mp hRecord'
    have hSame : row = row' := by
      apply hKeyed row hRow row' hRow'
      rw [← checkpointRecord_key hOf, ← checkpointRecord_key hOf', hKey, hKey']
    rw [hSame, hOf'] at hOf
    exact (Option.some.inj hOf).symm

theorem budgetGate_reordered (h : d.Walkable) (hOrder : Reordered d' d) (seq : Nat)
    (nodeId key : String) :
    (interpreterFromCheckpoints d' rows').budgetGate seq nodeId key =
      (interpreterFromCheckpoints d rows).budgetGate seq nodeId key := by
  have hModel : ∀ n : WorkflowNode,
      (n.kind = .model ∧ d'.maxModelTurns ≤ d'.modelTurnsUsed seq) ↔
        (n.kind = .model ∧ d.maxModelTurns ≤ d.modelTurnsUsed seq) := by
    intro n
    rw [hOrder.turns, h.modelTurnsUsed hOrder]
  have hNode : (interpreterFromCheckpoints d' rows').definition.node nodeId =
      (interpreterFromCheckpoints d rows).definition.node nodeId := h.node hOrder nodeId
  rw [RunInterpreter.budgetGate, RunInterpreter.budgetGate, hNode]
  cases (interpreterFromCheckpoints d rows).definition.node nodeId with
  | none => rfl
  | some n => exact if_congr (hModel n) rfl rfl

theorem nextStepFrom_reordered (h : d.Walkable) (hOrder : Reordered d' d) (hKeyed : StepKeyed rows)
    (hRows : ∀ row, row ∈ rows' ↔ row ∈ rows) (left seq : Nat) :
    (interpreterFromCheckpoints d' rows').nextStepFrom left seq =
      (interpreterFromCheckpoints d rows).nextStepFrom left seq := by
  induction left generalizing seq with
  | zero => rfl
  | succ left ih =>
    have hVisit : (interpreterFromCheckpoints d' rows').definition.nodeAt seq =
        (interpreterFromCheckpoints d rows).definition.nodeAt seq := h.nodeAt hOrder seq
    have hCheckpoint : ∀ key, (interpreterFromCheckpoints d' rows').checkpoint key =
        (interpreterFromCheckpoints d rows).checkpoint key := hKeyed.checkpoint hRows
    have hGate : ∀ nodeId key, (interpreterFromCheckpoints d' rows').budgetGate seq nodeId key =
        (interpreterFromCheckpoints d rows).budgetGate seq nodeId key :=
      budgetGate_reordered h hOrder seq
    simp only [RunInterpreter.nextStepFrom, hVisit, hCheckpoint, hGate, ih]

theorem nextStep_reordered (h : d.Walkable) (hOrder : Reordered d' d) (hKeyed : StepKeyed rows)
    (hRows : ∀ row, row ∈ rows' ↔ row ∈ rows) :
    (interpreterFromCheckpoints d' rows').nextStep =
      (interpreterFromCheckpoints d rows).nextStep := by
  have hSteps : (interpreterFromCheckpoints d' rows').definition.maxTotalSteps =
      (interpreterFromCheckpoints d rows).definition.maxTotalSteps := hOrder.steps
  rw [RunInterpreter.nextStep, hSteps, nextStepFrom_reordered h hOrder hKeyed hRows]
  rfl

end Decisions

/-! ## Accepted documents -/

section Accepted

variable {env : Env} {w : WorkflowDocument} {m : PluginManifest} {d : WorkflowDefinition}

/-- What a translation keeps of each element it keeps of the list. -/
theorem map_of_mapM {α β γ : Type} {f : α → Option β} {g : α → γ} {g' : β → γ}
    (hKept : ∀ a b, f a = some b → g' b = g a) {l : List α} {l' : List β}
    (h : l.mapM f = some l') : l'.map g' = l.map g := by
  induction l generalizing l' with
  | nil =>
    cases h
    rfl
  | cons a l ih =>
    simp only [List.mapM_cons, Option.bind_eq_bind, Option.bind_eq_some_iff, Option.pure_def,
      Option.some.injEq] at h
    obtain ⟨b, hb, bs, hbs, rfl⟩ := h
    rw [List.map_cons, List.map_cons, hKept a b hb, ih hbs]

/-- In a table without repeated values a value has one key. -/
theorem lookup_injective {α β : Type} [BEq α] [LawfulBEq α] {l : List (α × β)}
    (hDistinct : (l.map Prod.snd).Nodup) {a a' : α} {b : β} (h : l.lookup a = some b)
    (h' : l.lookup a' = some b) : a = a' := by
  have hMem : ∀ k, l.lookup k = some b → (k, b) ∈ l := by
    intro k hk
    obtain ⟨before, after, rfl, -⟩ := List.lookup_eq_some_iff.mp hk
    exact List.mem_append_right _ List.mem_cons_self
  have hSame : (a, b) = (a', b) :=
    List.inj_on_of_nodup_map hDistinct (hMem a h) (hMem a' h') rfl
  exact congrArg Prod.fst hSame

theorem EdgeCondition.ofText?_injective {text text' : String} {condition : EdgeCondition}
    (h : ofText? text = some condition) (h' : ofText? text' = some condition) : text = text' :=
  lookup_injective (by decide) h h'

theorem DocumentNode.node?_id (n : DocumentNode) (n' : WorkflowNode) (h : n.node? = some n') :
    n'.id = n.id := by
  simp only [DocumentNode.node?, Option.bind_eq_bind, Option.bind_eq_some_iff] at h
  obtain ⟨kind, -, hNode⟩ := h
  split at hNode
  · cases hNode
    rfl
  · cases hNode

theorem DocumentEdge.edge?_eq_some {e : DocumentEdge} {e' : WorkflowEdge} :
    e.edge? = some e' ↔ e'.source = e.source ∧ e'.target = e.target ∧
      EdgeCondition.ofText? e.condition = some e'.condition := by
  simp only [DocumentEdge.edge?, Option.bind_eq_bind, Option.bind_eq_some_iff, Option.pure_def,
    Option.some.injEq]
  constructor
  · rintro ⟨condition, hCondition, rfl⟩
    exact ⟨rfl, rfl, hCondition⟩
  · rintro ⟨hSource, hTarget, hCondition⟩
    refine ⟨e'.condition, hCondition, ?_⟩
    rw [← hSource, ← hTarget]

/-- What the interpreter reads of a document has its nodes and its edges. -/
theorem definition?_eq_some (h : w.definition? = some d) :
    d.entryNode = w.entryNode ∧ w.nodes.mapM DocumentNode.node? = some d.nodes ∧
      w.edges.mapM DocumentEdge.edge? = some d.edges := by
  simp only [WorkflowDocument.definition?, Option.bind_eq_bind, Option.bind_eq_some_iff,
    Option.pure_def, Option.some.injEq] at h
  obtain ⟨nodes, hNodes, edges, hEdges, rfl⟩ := h
  exact ⟨rfl, hNodes, hEdges⟩

/-- Distinct pairs of the document stay distinct when conditions become values. -/
theorem conditions_nodup {edges : List DocumentEdge} {edges' : List WorkflowEdge}
    (h : edges.mapM DocumentEdge.edge? = some edges')
    (hDistinct : (edges.map fun e => (e.source, e.condition)).Nodup) :
    (edges'.map fun e => (e.source, e.condition)).Nodup := by
  have hSame : edges'.map (fun e => (e.source, some e.condition)) =
      edges.map fun e => (e.source, EdgeCondition.ofText? e.condition) := by
    apply map_of_mapM _ h
    intro e e' he
    obtain ⟨hSource, -, hCondition⟩ := DocumentEdge.edge?_eq_some.mp he
    rw [hSource, hCondition]
  have hRead : ∀ e ∈ edges, ∃ condition, EdgeCondition.ofText? e.condition = some condition := by
    intro e he
    have hPair : (e.source, EdgeCondition.ofText? e.condition) ∈
        edges'.map fun e => (e.source, some e.condition) := by
      rw [hSame]
      exact List.mem_map_of_mem he
    obtain ⟨e', -, hPair⟩ := List.mem_map.mp hPair
    exact ⟨e'.condition, (congrArg Prod.snd hPair).symm⟩
  have hPairs : (edges'.map fun e => (e.source, some e.condition)).Nodup := by
    have hKeys := hDistinct.of_map
    rw [hSame]
    apply hKeys.map_on
    intro e he e' he' hPair
    obtain ⟨condition, hCondition⟩ := hRead e he
    have hSource : e.source = e'.source := congrArg Prod.fst hPair
    have hOther : EdgeCondition.ofText? e'.condition = some condition := by
      rw [← hCondition]
      exact (congrArg Prod.snd hPair).symm
    apply List.inj_on_of_nodup_map hDistinct he he'
    rw [hSource, EdgeCondition.ofText?_injective hCondition hOther]
  apply List.Nodup.of_map fun pair : String × EdgeCondition => (pair.1, some pair.2)
  rwa [List.map_map]

/-- An accepted definition can be walked. -/
theorem validateWorkflow_walkable (hValid : validateWorkflow env w m = .ok ())
    (h : w.definition? = some d) : d.Walkable := by
  simp only [validateWorkflow, bind_eq_ok, require_eq_ok, okOr_eq_ok, exists_const, pure_eq_ok,
    and_true] at hValid
  obtain ⟨-, -, -, -, ⟨hDistinct, hEntry⟩, -, -, -, -, seen, hSeen, -⟩ := hValid
  obtain ⟨hEnds, -, hConditions⟩ := checkEdges_ok.mp ⟨seen, hSeen⟩
  obtain ⟨hStart, hNodes, hEdges⟩ := definition?_eq_some h
  have hIds : d.nodes.map (·.id) = w.nodes.map (·.id) :=
    map_of_mapM DocumentNode.node?_id hNodes
  have hTargets : d.edges.map (·.target) = w.edges.map (·.target) :=
    map_of_mapM (fun e e' he => (DocumentEdge.edge?_eq_some.mp he).2.1) hEdges
  refine ⟨?_, ?_, fun e he => ?_, conditions_nodup hEdges hConditions⟩
  · rwa [hIds]
  · rwa [hIds, hStart]
  · have hTarget : e.target ∈ d.edges.map (·.target) := List.mem_map_of_mem he
    rw [hTargets] at hTarget
    obtain ⟨e', he', hSame⟩ := List.mem_map.mp hTarget
    rw [hIds, ← hSame]
    exact (hEnds e' he').2

/-- An accepted definition is walked to the end: no step is undeclared, no history is incompatible,
and neither the order of the nodes and the edges nor the order of the rows decides anything. The
schema asks for the kinds of nodes and the conditions of edges that there are. -/
theorem accepted_walk
    (hSchema : env.schemaValid "WorkflowDefinition" w.toJson = true → ∃ d, w.definition? = some d)
    (hValid : validateWorkflow env w m = .ok ()) :
    ∃ d, w.definition? = some d ∧ ∀ rows,
      (∀ nodeId reason,
        (interpreterFromCheckpoints d rows).nextStep = .unsupported nodeId reason →
          reason ≠ "NODE_UNDECLARED" ∧ reason ≠ "EDGE_TARGET_UNDECLARED") ∧
      (interpreterFromCheckpoints d rows).nextStep ≠ .replayIncompatible ∧
      (∀ seq nodeId key, d.nodeAt seq = .ok (some nodeId) →
        (interpreterFromCheckpoints d rows).budgetGate seq nodeId key ≠ .replayIncompatible) ∧
      ∀ nodes edges rows', nodes.Perm d.nodes → edges.Perm d.edges → rows'.Perm rows →
        StepKeyed rows →
        (interpreterFromCheckpoints { d with nodes, edges } rows').nextStep =
          (interpreterFromCheckpoints d rows).nextStep := by
  have hAccepted : env.schemaValid "WorkflowDefinition" w.toJson = true := by
    rw [validateWorkflow, bind_eq_ok] at hValid
    obtain ⟨_, hSchemaValid, -⟩ := hValid
    exact require_eq_ok.mp hSchemaValid
  obtain ⟨d, hRead⟩ := hSchema hAccepted
  have hWalkable := validateWorkflow_walkable hValid hRead
  refine ⟨d, hRead, fun rows => ⟨fun nodeId reason hStep => ?_,
    nextStepFrom_ne_replayIncompatible _ _, fun seq nodeId key hVisit => ?_,
    fun nodes edges rows' hNodes hEdges hRows hKeyed => ?_⟩⟩
  · obtain ⟨k, hVisit⟩ := nextStepFrom_unsupported hStep
    rw [hWalkable.nodeAt_error hVisit]
    decide
  · exact RunInterpreter.budgetGate_ne_replayIncompatible hVisit
  · exact nextStep_reordered hWalkable
      ⟨rfl, fun _ => hNodes.mem_iff, fun _ => hEdges.mem_iff, rfl, rfl⟩ hKeyed
      fun _ => hRows.mem_iff

end Accepted

/-! ## Two rows of one step -/

namespace Sample

def firstStep (state : CheckpointState) : DurableCheckpoint :=
  { logicalStepId := "0001:wait", state, failureCode := none, fence := 1 }

end Sample

/-- A loop in reverse order, resumed behind its first step. -/
theorem loopDocument_walked :
    ∃ d, Sample.loopDocument.definition? = some d ∧
      (interpreterFromCheckpoints { d with nodes := d.nodes.reverse, edges := d.edges.reverse }
          [Sample.firstStep .succeeded]).nextStep =
        (interpreterFromCheckpoints d [Sample.firstStep .succeeded]).nextStep := by
  have hRead : ∃ d, Sample.loopDocument.definition? = some d :=
    Option.isSome_iff_exists.mp (by decide +kernel)
  obtain ⟨d, hDefinition, hWalk⟩ := accepted_walk (fun _ => hRead) Sample.loopDocument_valid
  have hKeyed : StepKeyed [Sample.firstStep .succeeded] := by
    intro row hRow row' hRow' _
    rw [List.mem_singleton.mp hRow, List.mem_singleton.mp hRow']
  exact ⟨d, hDefinition, (hWalk _).2.2.2 _ _ _ (List.reverse_perm _) (List.reverse_perm _)
    (List.Perm.refl _) hKeyed⟩

/-- Of two rows of one step the later one decides. -/
theorem repeated_step_ordered :
    ¬ ∀ (env : Env) (w : WorkflowDocument) (m : PluginManifest) (d : WorkflowDefinition)
        (rows rows' : List DurableCheckpoint),
      validateWorkflow env w m = .ok () → w.definition? = some d → rows'.Perm rows →
        (interpreterFromCheckpoints d rows').nextStep =
          (interpreterFromCheckpoints d rows).nextStep := by
  intro h
  have hOk : validateWorkflow Sample.env Sample.document Sample.reports = .ok () := by
    apply eq_ok_of_isOk
    rw [validateWorkflow_bytewise, Sample.env_bytewise, Sample.byteDocument.2]
    decide +kernel
  have hSame := h _ _ _ _ [Sample.firstStep .failed, Sample.firstStep .succeeded]
    [Sample.firstStep .succeeded, Sample.firstStep .failed] hOk rfl (List.Perm.swap _ _ _)
  revert hSame
  decide +kernel

end Masonwing
