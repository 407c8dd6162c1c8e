import Mathlib.Data.List.Forall2
import Masonwing.HostApi.FixtureImport
import Masonwing.Proofs.Evaluation
import Masonwing.Proofs.PluginCode
import Masonwing.Store.Plugins

/-!
# What an import renames

The artifacts of an imported fixture are those of the original under other identifiers. Whether a
reference inside a workflow has the digest of what it refers to depends on the order of the
artifacts: a workflow is rewritten with the digests that are known by then.

* `localReferences_get?`, `Rewritten`: the references before and while the artifacts are rewritten;
* `rewriteArtifacts_rewritten`: the run, as a relation on the digests;
* `import_consistent_iff`: when all references of the result are those of its artifacts.
-/

namespace Masonwing

open Outcome

/-- A traversal pairs each element with what its step gives. -/
theorem mapM_forall₂ {ε α β : Type} {f : α → Except ε β} {xs : List α} {ys : List β}
    (h : xs.mapM f = .ok ys) : List.Forall₂ (fun x y => f x = .ok y) xs ys := by
  induction xs generalizing ys with
  | nil =>
    cases h
    exact .nil
  | cons x xs ih =>
    simp only [List.mapM_cons, bind_eq_ok, pure_eq_ok] at h
    obtain ⟨y, hy, rest, hRest, rfl⟩ := h
    exact .cons hy (ih hRest)

theorem exists_of_forall₂ {α β : Type} {R : α → β → Prop} {xs : List α} {ys : List β}
    (h : List.Forall₂ R xs ys) {x : α} (hx : x ∈ xs) : ∃ y ∈ ys, R x y := by
  induction h with
  | nil => cases hx
  | cons hFirst _ ih =>
    rcases List.mem_cons.mp hx with rfl | hx
    · exact ⟨_, List.mem_cons_self, hFirst⟩
    · obtain ⟨y, hy, hR⟩ := ih hx
      exact ⟨y, List.mem_cons_of_mem _ hy, hR⟩

theorem forall₂_trans {α β γ : Type} {R : α → β → Prop} {S : β → γ → Prop} {xs : List α}
    {ys : List β} {zs : List γ} (hR : List.Forall₂ R xs ys) (hS : List.Forall₂ S ys zs) :
    List.Forall₂ (fun x z => ∃ y, R x y ∧ S y z) xs zs := by
  induction hR generalizing zs with
  | nil =>
    cases hS
    exact .nil
  | cons hFirst _ ih =>
    cases hS with
    | cons hSecond hRest => exact .cons ⟨_, hFirst, hSecond⟩ (ih hRest)

/-! ## References -/

def PackagedArtifact.id (a : PackagedArtifact) : OpaqueId := a.reference.artifactId

/-- The reference to an artifact under another identifier. -/
def ArtifactRef.renamed (r : ArtifactRef) (id : OpaqueId) : ArtifactRef :=
  { r with artifactId := id }

section References

variable {draws : Nat → Uuid} {artifacts : List PackagedArtifact}

theorem localReferences_ok {n : Nat} {references start : References}
    (h : localReferences draws n artifacts references = .ok start) :
    (artifacts.map (·.id)).Nodup ∧ (∀ a ∈ artifacts, references.get? a.id = none) ∧
      ∀ id p, start.get? id = some p ↔
        (∃ (i : Nat) (a : PackagedArtifact), artifacts[i]? = some a ∧ a.id = id ∧
          p = (a.reference, a.reference.renamed (draws (n + i)).toId)) ∨
        references.get? id = some p := by
  induction artifacts generalizing n references with
  | nil =>
    cases h
    exact ⟨List.nodup_nil, fun _ ha => (by cases ha), fun id p => by simp⟩
  | cons first rest ih =>
    simp only [localReferences, bind_eq_ok, okOr_eq_ok] at h
    obtain ⟨next, hInsert, hRest⟩ := h
    obtain ⟨hNodup, hFree, hGet⟩ := ih hRest
    have hFirst : references.get? first.id = none := (Table.insert?_eq_some hInsert).1
    have hOther : ∀ a ∈ rest, a.id ≠ first.id ∧ references.get? a.id = none := by
      intro a ha
      have hNone := hFree a ha
      rw [Table.insert?_get? hInsert] at hNone
      split at hNone
      · cases hNone
      · rename_i hId
        exact ⟨hId, hNone⟩
    refine ⟨List.nodup_cons.mpr ⟨?_, hNodup⟩, ?_, fun id p => ?_⟩
    · intro hAgain
      obtain ⟨a, ha, hId⟩ := List.mem_map.mp hAgain
      exact (hOther a ha).1 hId
    · intro a ha
      rcases List.mem_cons.mp ha with rfl | ha
      · exact hFirst
      · exact (hOther a ha).2
    · rw [hGet, Table.insert?_get? hInsert]
      constructor
      · rintro (⟨i, a, ha, hId, hp⟩ | hOld)
        · exact Or.inl ⟨i + 1, a, ha, hId, by rw [hp, Nat.add_right_comm, Nat.add_assoc]⟩
        · split at hOld
          · rename_i hId
            cases hOld
            exact Or.inl ⟨0, first, rfl, hId.symm, rfl⟩
          · exact Or.inr hOld
      · rintro (⟨i, a, ha, hId, hp⟩ | hOld)
        · cases i with
          | zero =>
            cases ha
            exact Or.inr ((if_pos hId.symm).trans (by rw [hp]; rfl))
          | succ i =>
            exact Or.inl ⟨i, a, ha, hId, by rw [hp, Nat.add_right_comm, Nat.add_assoc]⟩
        · refine Or.inr ?_
          rw [if_neg, hOld]
          rintro rfl
          exact absurd (hFirst.symm.trans hOld) (by simp)

/-- The references as they were made, but for the digests. -/
def References.Shows (start : References) (digests : OpaqueId → Digest) (references : References) :
    Prop :=
  ∀ id, references.get? id =
    (start.get? id).map fun p => (p.1, { p.2 with digest := digests id })

/-- What a reference becomes. -/
def Remapped (start : References) (digests : OpaqueId → Digest) (r r' : ArtifactRef) : Prop :=
  ∃ localRef, start.get? r.artifactId = some (r, localRef) ∧
    r' = { localRef with digest := digests r.artifactId }

variable {start references : References} {digests : OpaqueId → Digest}

theorem remap_ok (hShows : start.Shows digests references) {r r' : ArtifactRef}
    (h : remap references r = .ok r') : Remapped start digests r r' := by
  simp only [remap, bind_eq_ok, okOr_eq_ok, require_eq_ok, pure_eq_ok] at h
  obtain ⟨⟨original, localRef⟩, hGet, _, hOriginal, hLocal⟩ := h
  rw [hShows] at hGet
  obtain ⟨⟨o, l⟩, hStart, hPair⟩ := Option.map_eq_some_iff.mp hGet
  obtain ⟨hO, hL⟩ := Prod.mk.inj hPair
  have hO : o = r := hO.trans hOriginal.symm
  exact ⟨l, by rw [hStart, hO], by rw [← hLocal, ← hL]⟩

/-- A new digest for one artifact. -/
theorem References.Shows.set (hShows : start.Shows digests references) {id : OpaqueId}
    {original localRef : ArtifactRef} (hGet : references.get? id = some (original, localRef))
    (d : Digest) :
    start.Shows (Function.update digests id d)
      (references.set id (original, { localRef with digest := d })) := by
  intro j
  by_cases hj : j = id
  · subst hj
    rw [Table.get?_set_self hGet, Function.update_self]
    rw [hShows] at hGet
    obtain ⟨⟨o, l⟩, hStart, hPair⟩ := Option.map_eq_some_iff.mp hGet
    obtain ⟨hO, hL⟩ := Prod.mk.inj hPair
    rw [hStart, ← hL, ← hO]
    rfl
  · rw [Table.get?_set_ne _ hj, Function.update_of_ne hj]
    exact hShows j

end References

/-! ## Definitions -/

/-- What the schemas of a node become. -/
def NodeRemapped (R : ArtifactRef → ArtifactRef → Prop) (n n' : DocumentNode) : Prop :=
  ∃ inputSchemaRef outputSchemaRef, R n.inputSchemaRef inputSchemaRef ∧
    R n.outputSchemaRef outputSchemaRef ∧ n' = { n with inputSchemaRef, outputSchemaRef }

/-- The schemas of a definition are replaced, and its digest is that of its content. -/
def DefinitionRemapped (codec : ContractCodec) (R : ArtifactRef → ArtifactRef → Prop)
    (w w' : WorkflowDocument) : Prop :=
  ∃ inputSchemaRef outputSchemaRef nodes, R w.inputSchemaRef inputSchemaRef ∧
    R w.outputSchemaRef outputSchemaRef ∧ List.Forall₂ (NodeRemapped R) w.nodes nodes ∧
    w' = { w with inputSchemaRef, outputSchemaRef, nodes, digest := w'.digest } ∧
    ∃ content, codec.canonicalBytes w'.contentJson = some content ∧
      w'.digest = codec.digestBytes content

section Definitions

variable {codec : ContractCodec} {start references : References} {digests : OpaqueId → Digest}

theorem remapNode_ok (hShows : start.Shows digests references) {n n' : DocumentNode}
    (h : remapNode references n = .ok n') : NodeRemapped (Remapped start digests) n n' := by
  simp only [remapNode, bind_eq_ok, pure_eq_ok] at h
  obtain ⟨i, hi, o, ho, rfl⟩ := h
  exact ⟨i, o, remap_ok hShows hi, remap_ok hShows ho, rfl⟩

/-- The content of a definition does not depend on its digest. -/
theorem contentJson_digest (w : WorkflowDocument) (d : Digest) :
    WorkflowDocument.contentJson { w with digest := d } = w.contentJson := by
  simp only [WorkflowDocument.contentJson, WorkflowDocument.fields, List.filter_cons,
    List.filter_nil, bne_self_eq_false, Bool.false_eq_true, if_false]

theorem rewriteWorkflow_ok (hShows : start.Shows digests references) {source bytes : Bytes}
    (h : rewriteWorkflow codec references source = .ok bytes) :
    ∃ w w', codec.readWorkflow source = some w ∧ codec.canonicalBytes w'.toJson = some bytes ∧
      DefinitionRemapped codec (Remapped start digests) w w' := by
  simp only [rewriteWorkflow, remapDefinition, sealDefinition, bind_eq_ok, okOr_eq_ok,
    pure_eq_ok] at h
  obtain ⟨w, hRead, _, ⟨i, hi, o, ho, nodes, hNodes, rfl⟩, _, ⟨content, hContent, rfl⟩, hBytes⟩ := h
  refine ⟨w, _, hRead, hBytes, i, o, nodes, remap_ok hShows hi, remap_ok hShows ho, ?_, rfl,
    content, ?_, rfl⟩
  · exact (mapM_forall₂ hNodes).imp fun _ _ hNode => remapNode_ok hShows hNode
  · rw [contentJson_digest, hContent]

theorem documentReferences_remapped {R : ArtifactRef → ArtifactRef → Prop}
    {w w' : WorkflowDocument} (h : DefinitionRemapped codec R w w') :
    List.Forall₂ R (documentReferences w) (documentReferences w') := by
  obtain ⟨i, o, nodes, hi, ho, hNodes, hw, -⟩ := h
  rw [hw]
  refine .cons hi (.cons ho (List.rel_flatMap hNodes ?_))
  rintro n n' ⟨i, o, hi, ho, rfl⟩
  exact .cons hi (.cons ho .nil)

theorem DefinitionRemapped.imp {R S : ArtifactRef → ArtifactRef → Prop}
    (hRS : ∀ r r', R r r' → S r r') {w w' : WorkflowDocument}
    (h : DefinitionRemapped codec R w w') : DefinitionRemapped codec S w w' := by
  obtain ⟨i, o, nodes, hi, ho, hNodes, hRest⟩ := h
  refine ⟨i, o, nodes, hRS _ _ hi, hRS _ _ ho, hNodes.imp ?_, hRest⟩
  rintro n n' ⟨i, o, hi, ho, rfl⟩
  exact ⟨i, o, hRS _ _ hi, hRS _ _ ho, rfl⟩

/-- Every number of a definition is a `u32`. -/
def WorkflowDocument.Sized (w : WorkflowDocument) : Prop :=
  (w.maxTotalSteps < 2 ^ 32 ∧ w.maxModelTurns < 2 ^ 32) ∧ ∀ n ∈ w.nodes,
    n.maxAttempts < 2 ^ 32 ∧ n.timeoutSeconds < 2 ^ 32 ∧ n.maxIterations < 2 ^ 32

theorem DefinitionRemapped.sized {R : ArtifactRef → ArtifactRef → Prop} {w w' : WorkflowDocument}
    (h : DefinitionRemapped codec R w w') (hSized : w.Sized) : w'.Sized := by
  obtain ⟨i, o, nodes, -, -, hNodes, hw, -⟩ := h
  rw [hw]
  refine ⟨hSized.1, fun n' hn' => ?_⟩
  obtain ⟨n, hn, _, _, -, -, rfl⟩ := exists_of_forall₂ hNodes.flip hn'
  exact hSized.2 n hn

end Definitions

/-! ## The run -/

/-- The artifacts from one on, with the digests before and after them. -/
inductive Rewritten (codec : ContractCodec) (start : References) (workflowIds : List OpaqueId) :
    (OpaqueId → Digest) → List PackagedArtifact → List PackagedArtifact → (OpaqueId → Digest) → Prop
  | nil (digests : OpaqueId → Digest) : Rewritten codec start workflowIds digests [] [] digests
  | keep {digests digests' : OpaqueId → Digest} {a : PackagedArtifact}
      {rest rest' : List PackagedArtifact} (hOther : a.id ∉ workflowIds)
      (hRest : Rewritten codec start workflowIds digests rest rest' digests') :
      Rewritten codec start workflowIds digests (a :: rest) (a :: rest') digests'
  | rewrite {digests digests' : OpaqueId → Digest} {a : PackagedArtifact}
      {rest rest' : List PackagedArtifact} {bytes : Bytes} {w w' : WorkflowDocument}
      (hWorkflow : a.id ∈ workflowIds) (hRead : codec.readWorkflow a.bytes = some w)
      (hBytes : codec.canonicalBytes w'.toJson = some bytes)
      (hDefinition : DefinitionRemapped codec (Remapped start digests) w w')
      (hRest : Rewritten codec start workflowIds
        (Function.update digests a.id (codec.digestBytes bytes)) rest rest' digests') :
      Rewritten codec start workflowIds digests (a :: rest) ({ a with bytes } :: rest') digests'

section Run

variable {codec : ContractCodec} {start references references' : References}
  {workflowIds : List OpaqueId} {digests digests' : OpaqueId → Digest}
  {artifacts artifacts' : List PackagedArtifact}

theorem rewriteArtifacts_rewritten (hShows : start.Shows digests references)
    (h : rewriteArtifacts codec workflowIds artifacts references = .ok (artifacts', references')) :
    ∃ digests', Rewritten codec start workflowIds digests artifacts artifacts' digests' ∧
      start.Shows digests' references' := by
  induction artifacts generalizing references digests artifacts' with
  | nil =>
    cases h
    exact ⟨digests, .nil digests, hShows⟩
  | cons a rest ih =>
    rw [rewriteArtifacts] at h
    split at h
    · rename_i hWorkflow
      simp only [bind_eq_ok, okOr_eq_ok, pure_eq_ok] at h
      obtain ⟨bytes, hRewrite, ⟨original, localRef⟩, hGet, ⟨rest', _⟩, hRest, hPair⟩ := h
      cases hPair
      obtain ⟨w, w', hRead, hBytes, hDefinition⟩ := rewriteWorkflow_ok hShows hRewrite
      obtain ⟨digests', hRun, hEnd⟩ := ih (hShows.set hGet _) hRest
      exact ⟨digests', .rewrite hWorkflow hRead hBytes hDefinition hRun, hEnd⟩
    · rename_i hOther
      simp only [bind_eq_ok, pure_eq_ok] at h
      obtain ⟨⟨rest', _⟩, hRest, hPair⟩ := h
      cases hPair
      obtain ⟨digests', hRun, hEnd⟩ := ih hShows hRest
      exact ⟨digests', .keep hOther hRun, hEnd⟩

/-- Only the digests of the workflows that are rewritten change. -/
theorem Rewritten.digest_eq
    (h : Rewritten codec start workflowIds digests artifacts artifacts' digests') {id : OpaqueId}
    (hOther : ∀ a ∈ artifacts, a.id ∈ workflowIds → a.id ≠ id) : digests' id = digests id := by
  induction h with
  | nil => rfl
  | keep _ _ ih => exact ih fun a ha => hOther a (List.mem_cons_of_mem _ ha)
  | rewrite hWorkflow _ _ _ _ ih =>
    rw [ih fun a ha => hOther a (List.mem_cons_of_mem _ ha)]
    exact Function.update_of_ne (hOther _ List.mem_cons_self hWorkflow).symm _ _

theorem Rewritten.append {before after : List PackagedArtifact}
    (h : Rewritten codec start workflowIds digests (before ++ after) artifacts' digests') :
    ∃ before' after' middle, artifacts' = before' ++ after' ∧
      Rewritten codec start workflowIds digests before before' middle ∧
      Rewritten codec start workflowIds middle after after' digests' := by
  induction before generalizing digests artifacts' with
  | nil => exact ⟨[], artifacts', digests, rfl, .nil digests, h⟩
  | cons a before ih =>
    cases h with
    | keep hOther hRest =>
      obtain ⟨before', after', middle, rfl, hBefore, hAfter⟩ := ih hRest
      exact ⟨a :: before', after', middle, rfl, .keep hOther hBefore, hAfter⟩
    | rewrite hWorkflow hRead hBytes hDefinition hRest =>
      obtain ⟨before', after', middle, rfl, hBefore, hAfter⟩ := ih hRest
      exact ⟨_ :: before', after', middle, rfl,
        .rewrite hWorkflow hRead hBytes hDefinition hBefore, hAfter⟩

/-- What an artifact becomes, whatever the digests are by then. -/
def ArtifactRewritten (codec : ContractCodec) (start : References) (workflowIds : List OpaqueId)
    (a b : PackagedArtifact) : Prop :=
  b.reference = a.reference ∧ (a.id ∉ workflowIds → b = a) ∧
    (a.id ∈ workflowIds → ∃ w w' digests, codec.readWorkflow a.bytes = some w ∧
      codec.canonicalBytes w'.toJson = some b.bytes ∧
      DefinitionRemapped codec (Remapped start digests) w w')

theorem Rewritten.pairs
    (h : Rewritten codec start workflowIds digests artifacts artifacts' digests') :
    List.Forall₂ (ArtifactRewritten codec start workflowIds) artifacts artifacts' := by
  induction h with
  | nil => exact .nil
  | keep hOther _ ih => exact .cons ⟨rfl, fun _ => rfl, fun hIn => absurd hIn hOther⟩ ih
  | rewrite hWorkflow hRead hBytes hDefinition _ ih =>
    exact .cons ⟨rfl, fun hOut => absurd hWorkflow hOut, fun _ =>
      ⟨_, _, _, hRead, hBytes, hDefinition⟩⟩ ih

/-- Where an artifact of the result was rewritten. -/
theorem Rewritten.origin
    (h : Rewritten codec start workflowIds digests artifacts artifacts' digests')
    {b : PackagedArtifact} (hb : b ∈ artifacts') :
    ∃ before a after before' after' middle, artifacts = before ++ a :: after ∧
      Rewritten codec start workflowIds digests before before' middle ∧
      Rewritten codec start workflowIds middle (a :: after) (b :: after') digests' := by
  induction h with
  | nil => cases hb
  | keep hOther hRest ih =>
    rcases List.mem_cons.mp hb with rfl | hb
    · exact ⟨[], _, _, [], _, _, rfl, .nil _, .keep hOther hRest⟩
    · obtain ⟨before, a, after, before', after', middle, rfl, hBefore, hAfter⟩ := ih hb
      exact ⟨_ :: before, a, after, _, after', middle, rfl, .keep hOther hBefore, hAfter⟩
  | rewrite hWorkflow hRead hBytes hDefinition hRest ih =>
    rcases List.mem_cons.mp hb with rfl | hb
    · exact ⟨[], _, _, [], _, _, rfl, .nil _, .rewrite hWorkflow hRead hBytes hDefinition hRest⟩
    · obtain ⟨before, a, after, before', after', middle, rfl, hBefore, hAfter⟩ := ih hb
      exact ⟨_ :: before, a, after, _, after', middle, rfl,
        .rewrite hWorkflow hRead hBytes hDefinition hBefore, hAfter⟩

/-- A workflow at the head is rewritten with the digests before it. -/
theorem Rewritten.head_workflow {a : PackagedArtifact} {after : List PackagedArtifact}
    (h : Rewritten codec start workflowIds digests (a :: after) artifacts' digests')
    (hWorkflow : a.id ∈ workflowIds) :
    ∃ bytes after' w w', artifacts' = { a with bytes } :: after' ∧
      codec.readWorkflow a.bytes = some w ∧ codec.canonicalBytes w'.toJson = some bytes ∧
      DefinitionRemapped codec (Remapped start digests) w w' := by
  cases h with
  | keep hOther _ => exact absurd hWorkflow hOther
  | rewrite _ hRead hBytes hDefinition _ =>
    exact ⟨_, _, _, _, rfl, hRead, hBytes, hDefinition⟩

end Run

/-! ## What an import leaves -/

/-- The bytes that are written for a definition are read as it. -/
structure ContractCodec.Faithful (codec : ContractCodec) : Prop where
  reads : ∀ {bytes w}, codec.readWorkflow bytes = some w → w.Sized
  readsBack : ∀ {bytes w}, w.Sized → codec.canonicalBytes w.toJson = some bytes →
    codec.readWorkflow bytes = some w

namespace PackagedPluginFixture

def IsWorkflow (f : PackagedPluginFixture) (a : PackagedArtifact) : Prop :=
  a.id ∈ f.workflows.map (·.artifactId)

/-- A reference to an artifact of the fixture, with the digest of its bytes. -/
def Holds (codec : ContractCodec) (f : PackagedPluginFixture) (r : ArtifactRef) : Prop :=
  ∃ a ∈ f.supportingArtifacts, a.reference = r ∧ codec.digestBytes a.bytes = r.digest

/-- No workflow refers to a workflow at its own place or after it. -/
def RefersBack (codec : ContractCodec) (f : PackagedPluginFixture) : Prop :=
  ∀ before a after, f.supportingArtifacts = before ++ a :: after → f.IsWorkflow a →
    ∀ w, codec.readWorkflow a.bytes = some w → ∀ r ∈ documentReferences w,
      ∀ b ∈ a :: after, f.IsWorkflow b → b.id ≠ r.artifactId

end PackagedPluginFixture

/-- The same reference to an artifact that was renamed. -/
def Renames (rename : OpaqueId → OpaqueId) (r r' : ArtifactRef) : Prop :=
  r' = { r with artifactId := rename r.artifactId, digest := r'.digest }

/-- The artifacts of `g` are those of `f` under other names, and `g` has all it refers to. -/
structure ConsistentImport (codec : ContractCodec) (f g : PackagedPluginFixture) : Prop where
  renamed : ∃ rename : OpaqueId → OpaqueId,
    (∀ a ∈ f.supportingArtifacts, ∀ b ∈ f.supportingArtifacts,
      rename a.id = rename b.id → a.id = b.id) ∧
    List.Forall₂ (fun a c => Renames rename a.reference c.reference ∧
      (¬ f.IsWorkflow a → c.bytes = a.bytes ∧ c.reference.digest = a.reference.digest) ∧
      (f.IsWorkflow a → ∃ w w', codec.readWorkflow a.bytes = some w ∧
        codec.readWorkflow c.bytes = some w' ∧
        DefinitionRemapped codec (Renames rename) w w'))
      f.supportingArtifacts g.supportingArtifacts
  handlers : ∀ h ∈ g.handlers, g.Holds codec h.inputSchemaRef ∧ g.Holds codec h.outputSchemaRef
  workflows : ∀ r ∈ g.workflows, g.Holds codec r
  artifacts : ∀ c ∈ g.supportingArtifacts, g.Holds codec c.reference
  definitions : ∀ c ∈ g.supportingArtifacts, g.IsWorkflow c →
    ∀ w, codec.readWorkflow c.bytes = some w → ∀ r ∈ documentReferences w, g.Holds codec r

/-! ## An import -/

/-- A successful import: the references at its start, the digests before and after the run. -/
structure Imported (codec : ContractCodec) (draws : Nat → Uuid) (f g : PackagedPluginFixture)
    (start : References) (first last : OpaqueId → Digest) (rewritten : List PackagedArtifact) :
    Prop where
  nodup : (f.supportingArtifacts.map (·.id)).Nodup
  rows : ∀ id p, start.get? id = some p ↔ ∃ (i : Nat) (a : PackagedArtifact),
    f.supportingArtifacts[i]? = some a ∧ a.id = id ∧
      p = (a.reference, a.reference.renamed (draws i).toId)
  digests : ∀ a ∈ f.supportingArtifacts, first a.id = a.reference.digest
  run : Rewritten codec start (f.workflows.map (·.artifactId)) first f.supportingArtifacts
    rewritten last
  artifacts : List.Forall₂ (fun b c => Remapped start last b.reference c.reference ∧
    c.bytes = b.bytes) rewritten g.supportingArtifacts
  handlers : ∀ h ∈ g.handlers, (∃ r, Remapped start last r h.inputSchemaRef) ∧
    ∃ r, Remapped start last r h.outputSchemaRef
  workflows : List.Forall₂ (Remapped start last) f.workflows g.workflows
  original : ∀ a ∈ f.supportingArtifacts, codec.digestBytes a.bytes = a.reference.digest
  result : ∀ c ∈ g.supportingArtifacts, codec.digestBytes c.bytes = c.reference.digest

section Import

variable {codec : ContractCodec} {draws : Nat → Uuid} {f g : PackagedPluginFixture}

theorem validate_digests (h : f.validate codec.digestBytes = .ok ()) :
    ∀ a ∈ f.supportingArtifacts, codec.digestBytes a.bytes = a.reference.digest := by
  simp only [PackagedPluginFixture.validate, bind_eq_ok] at h
  obtain ⟨_, -, _, -, _, -, _, -, _, -, _, hArtifacts, -⟩ := h
  intro a ha
  exact require_eq_ok.mp (forM_eq_ok.mp hArtifacts a ha)

theorem materializeFixture_imported (h : materializeFixture codec draws f = .ok g) :
    ∃ start first last rewritten, Imported codec draws f g start first last rewritten := by
  simp only [materializeFixture, bind_eq_ok, mapError_eq_ok, pure_eq_ok] at h
  obtain ⟨_, hValid, start, hStart, ⟨rewritten, references⟩, hRewrite, handlers, hHandlers,
    workflows, hWorkflows, artifacts, hArtifacts, _, hResult, rfl⟩ := h
  obtain ⟨hNodup, -, hGet⟩ := localReferences_ok hStart
  let first := fun id => ((start.get? id).map fun p => p.2.digest).getD default
  have hShows : start.Shows first start := by
    intro id
    rcases hRow : start.get? id with _ | p
    · rfl
    · simp [first, hRow]
  obtain ⟨last, hRun, hEnd⟩ := rewriteArtifacts_rewritten hShows hRewrite
  have hGet : ∀ id p, start.get? id = some p ↔ ∃ (i : Nat) (a : PackagedArtifact),
      f.supportingArtifacts[i]? = some a ∧ a.id = id ∧
        p = (a.reference, a.reference.renamed (draws i).toId) := by
    intro id p
    rw [hGet, Table.get?_empty]
    simp
  refine ⟨start, first, last, rewritten,
    { nodup := hNodup
      rows := hGet
      digests := fun a ha => ?_
      run := hRun
      artifacts := ?_
      handlers := fun handler hh => ?_
      workflows := (mapM_forall₂ hWorkflows).imp fun _ _ hr => remap_ok hEnd hr
      original := validate_digests hValid
      result := validate_digests hResult }⟩
  · obtain ⟨i, hi⟩ := List.mem_iff_getElem?.mp ha
    have hRow := (hGet a.id _).mpr ⟨i, a, hi, rfl, rfl⟩
    simp [first, hRow, ArtifactRef.renamed]
  · refine (mapM_forall₂ hArtifacts).imp fun b c hc => ?_
    simp only [remapArtifact, bind_eq_ok, pure_eq_ok] at hc
    obtain ⟨r, hr, rfl⟩ := hc
    exact ⟨remap_ok hEnd hr, rfl⟩
  · obtain ⟨original, -, hHandler⟩ := (mapM_mem hHandlers).2 handler hh
    simp only [remapHandler, bind_eq_ok, pure_eq_ok] at hHandler
    obtain ⟨i, hi, o, ho, rfl⟩ := hHandler
    exact ⟨⟨_, remap_ok hEnd hi⟩, ⟨_, remap_ok hEnd ho⟩⟩

variable {start : References} {first last digests : OpaqueId → Digest}
  {rewritten : List PackagedArtifact}

/-- The new name of an artifact. -/
def importName (start : References) (id : OpaqueId) : OpaqueId :=
  ((start.get? id).map fun p => p.2.artifactId).getD id

section Facts

variable (h : Imported codec draws f g start first last rewritten)
include h

/-- A reference that was replaced is that of an artifact, and is replaced in one way. -/
theorem Imported.remapped {r r' : ArtifactRef} (hr : Remapped start digests r r') :
    ∃ (i : Nat) (a : PackagedArtifact), f.supportingArtifacts[i]? = some a ∧ a.reference = r ∧
      r' = { r.renamed (draws i).toId with digest := digests r.artifactId } := by
  obtain ⟨l, hRow, rfl⟩ := hr
  obtain ⟨i, a, ha, -, hPair⟩ := (h.rows _ _).mp hRow
  obtain ⟨rfl, rfl⟩ := Prod.mk.inj hPair
  exact ⟨i, a, ha, rfl, rfl⟩

theorem Imported.same {a b : PackagedArtifact} (ha : a ∈ f.supportingArtifacts)
    (hb : b ∈ f.supportingArtifacts) (hId : a.id = b.id) : a = b :=
  List.inj_on_of_nodup_map h.nodup ha hb hId

/-- What a rewritten artifact was. -/
theorem Imported.before {b : PackagedArtifact} (hb : b ∈ rewritten) :
    ∃ a ∈ f.supportingArtifacts,
      ArtifactRewritten codec start (f.workflows.map (·.artifactId)) a b :=
  exists_of_forall₂ h.run.pairs.flip hb

/-- Whatever is replaced at the end is an artifact of the result. -/
theorem Imported.holds {r r' : ArtifactRef} (hr : Remapped start last r r') :
    g.Holds codec r' := by
  obtain ⟨i, a, ha, rfl, -⟩ := h.remapped hr
  obtain ⟨b, hb, hReference, -⟩ := exists_of_forall₂ h.run.pairs (List.mem_of_getElem? ha)
  obtain ⟨c, hc, hRemapped, -⟩ := exists_of_forall₂ h.artifacts hb
  rw [hReference] at hRemapped
  obtain ⟨l, hRow, rfl⟩ := hr
  obtain ⟨l', hRow', hReference'⟩ := hRemapped
  cases hRow.symm.trans hRow'
  exact ⟨c, hc, hReference', by rw [h.result c hc, hReference']⟩

theorem Imported.name {i : Nat} {a : PackagedArtifact} (ha : f.supportingArtifacts[i]? = some a) :
    importName start a.id = (draws i).toId := by
  rw [importName, (h.rows _ _).mpr ⟨i, a, ha, rfl, rfl⟩]
  rfl

theorem Imported.renames {r r' : ArtifactRef} (hr : Remapped start digests r r') :
    Renames (importName start) r r' := by
  obtain ⟨i, a, ha, hReference, hr'⟩ := h.remapped hr
  have hName : importName start r.artifactId = (draws i).toId := by
    rw [← h.name ha, PackagedArtifact.id, hReference]
  rw [Renames, hName, hr', ArtifactRef.renamed]

section Distinct

variable (hDistinct : ∀ i j, i < f.supportingArtifacts.length → j < f.supportingArtifacts.length →
  draws i = draws j → i = j)
include hDistinct

theorem Imported.name_injective {a b : PackagedArtifact} (ha : a ∈ f.supportingArtifacts)
    (hb : b ∈ f.supportingArtifacts) (hName : importName start a.id = importName start b.id) :
    a = b := by
  obtain ⟨i, hi⟩ := List.mem_iff_getElem?.mp ha
  obtain ⟨j, hj⟩ := List.mem_iff_getElem?.mp hb
  rw [h.name hi, h.name hj] at hName
  have hText : (draws i).toText = (draws j).toText := by
    rw [← Uuid.toId_text, hName, Uuid.toId_text]
  have hDraw : draws i = draws j := Uuid.toText_injective hText
  have hIndex := hDistinct i j (List.getElem?_eq_some_iff.mp hi).1
    (List.getElem?_eq_some_iff.mp hj).1 hDraw
  rw [hIndex, hj] at hi
  exact (Option.some.inj hi).symm

/-- References that get one new name had one name before. -/
theorem Imported.remapped_injective {digests' : OpaqueId → Digest} {r s r' s' : ArtifactRef}
    (hr : Remapped start digests r r') (hs : Remapped start digests' s s')
    (hName : r'.artifactId = s'.artifactId) : r = s := by
  obtain ⟨i, a, ha, rfl, hr'⟩ := h.remapped hr
  obtain ⟨j, b, hb, rfl, hs'⟩ := h.remapped hs
  have hName : importName start a.id = importName start b.id := by
    rw [hr', hs'] at hName
    rw [h.name ha, h.name hb]
    exact hName
  rw [h.name_injective hDistinct (List.mem_of_getElem? ha) (List.mem_of_getElem? hb) hName]

/-- A workflow of the result was one of the original. -/
theorem Imported.isWorkflow_iff {b c : PackagedArtifact}
    (hc : Remapped start last b.reference c.reference) : g.IsWorkflow c ↔ f.IsWorkflow b := by
  constructor
  · intro hWorkflow
    obtain ⟨r', hr', hId⟩ := List.mem_map.mp hWorkflow
    obtain ⟨r, hr, hRemapped⟩ := exists_of_forall₂ h.workflows.flip hr'
    have hSame := h.remapped_injective hDistinct hRemapped hc hId
    exact List.mem_map.mpr ⟨r, hr, by rw [hSame]; rfl⟩
  · intro hWorkflow
    obtain ⟨r, hr, hId⟩ := List.mem_map.mp hWorkflow
    obtain ⟨r', hr', hRemapped⟩ := exists_of_forall₂ h.workflows hr
    refine List.mem_map.mpr ⟨r', hr', ?_⟩
    obtain ⟨i, a, ha, rfl, hr''⟩ := h.remapped hRemapped
    obtain ⟨j, a', ha', hReference, hc'⟩ := h.remapped hc
    have hSame : a = a' := h.same (List.mem_of_getElem? ha) (List.mem_of_getElem? ha')
      (hId.trans (congrArg ArtifactRef.artifactId hReference.symm))
    have hName := (h.name ha).symm.trans ((congrArg (fun x => importName start x.id) hSame).trans
      (h.name ha'))
    rw [PackagedArtifact.id, hr'', hc']
    exact hName

end Distinct

/-! ### The result -/

section Result

variable (hCodec : codec.Faithful)
  (hDistinct : ∀ i j, i < f.supportingArtifacts.length → j < f.supportingArtifacts.length →
    draws i = draws j → i = j)

omit h in
/-- What the bytes of a rewritten definition are read as. -/
theorem reads_definition (hCodec : codec.Faithful) {source bytes : Bytes}
    {w w' : WorkflowDocument} (hRead : codec.readWorkflow source = some w)
    (hBytes : codec.canonicalBytes w'.toJson = some bytes)
    (hDefinition : DefinitionRemapped codec (Remapped start digests) w w') :
    codec.readWorkflow bytes = some w' :=
  hCodec.readsBack (hDefinition.sized (hCodec.reads hRead)) hBytes

/-- An artifact that is no workflow has kept its digest. -/
theorem Imported.digest_kept {a : PackagedArtifact} {r' : ArtifactRef} (hOther : ¬ f.IsWorkflow a)
    (hr : Remapped start last a.reference r') : r'.digest = a.reference.digest := by
  obtain ⟨i, a', ha', hReference, hr'⟩ := h.remapped hr
  have hLast : last a.id = first a.id :=
    h.run.digest_eq fun x _ hIn hId => hOther (by rwa [PackagedPluginFixture.IsWorkflow, ← hId])
  have hFirst := h.digests a' (List.mem_of_getElem? ha')
  rw [PackagedArtifact.id, hReference] at hFirst
  rw [hr']
  exact hLast.trans hFirst

include hCodec in
/-- One artifact after the other, under its new name. -/
theorem Imported.renamed :
    List.Forall₂ (fun a c => Renames (importName start) a.reference c.reference ∧
        (¬ f.IsWorkflow a → c.bytes = a.bytes ∧ c.reference.digest = a.reference.digest) ∧
        (f.IsWorkflow a → ∃ w w', codec.readWorkflow a.bytes = some w ∧
          codec.readWorkflow c.bytes = some w' ∧
          DefinitionRemapped codec (Renames (importName start)) w w'))
      f.supportingArtifacts g.supportingArtifacts := by
  refine (forall₂_trans h.run.pairs h.artifacts).imp ?_
  rintro a c ⟨b, ⟨hReference, hKept, hRewritten⟩, hRemapped, hBytes⟩
  rw [hReference] at hRemapped
  refine ⟨h.renames hRemapped, fun hOther => ?_, fun hWorkflow => ?_⟩
  · exact ⟨by rw [hBytes, hKept hOther], h.digest_kept hOther hRemapped⟩
  · obtain ⟨w, w', digests, hRead, hCanonical, hDefinition⟩ := hRewritten hWorkflow
    refine ⟨w, w', hRead, ?_, hDefinition.imp fun _ _ => h.renames⟩
    rw [hBytes]
    exact reads_definition hCodec hRead hCanonical hDefinition

include hCodec

/-- A workflow that was rewritten has other bytes than before. -/
theorem Imported.bytes_ne
    (hFresh : ∀ i < f.supportingArtifacts.length, ∀ a ∈ f.supportingArtifacts,
      (draws i).toId ≠ a.id)
    {a b : PackagedArtifact} {w w' : WorkflowDocument}
    (hRead : codec.readWorkflow a.bytes = some w)
    (hBytes : codec.canonicalBytes w'.toJson = some b.bytes)
    (hDefinition : DefinitionRemapped codec (Remapped start digests) w w') :
    a.bytes ≠ b.bytes := by
  intro hSame
  have hRead' := reads_definition hCodec hRead hBytes hDefinition
  rw [← hSame, hRead] at hRead'
  cases hRead'
  obtain ⟨input, _, _, hInput, -, -, hw, -⟩ := hDefinition
  have hSchema : w.inputSchemaRef = input := by rw [hw]
  obtain ⟨i, x, hx, hReference, hLocal⟩ := h.remapped hInput
  refine hFresh i (List.getElem?_eq_some_iff.mp hx).1 x (List.mem_of_getElem? hx) ?_
  rw [PackagedArtifact.id, hReference, hSchema, hLocal, ArtifactRef.renamed]

include hDistinct

/-- Inside a workflow every reference is the one at the end, if no later workflow is meant. -/
theorem Imported.definitions_hold (hBack : f.RefersBack codec) {c : PackagedArtifact}
    (hc : c ∈ g.supportingArtifacts) (hWorkflow : g.IsWorkflow c) {w' : WorkflowDocument}
    (hRead' : codec.readWorkflow c.bytes = some w') {r' : ArtifactRef}
    (hr' : r' ∈ documentReferences w') : g.Holds codec r' := by
  obtain ⟨b, hb, hRemapped, hBytes⟩ := exists_of_forall₂ h.artifacts.flip hc
  have hIn := (h.isWorkflow_iff hDistinct hRemapped).mp hWorkflow
  obtain ⟨before, a, after, _, _, middle, hSplit, -, hRun⟩ := h.run.origin hb
  have hLast : ∀ id, (∀ x ∈ a :: after, f.IsWorkflow x → x.id ≠ id) → last id = middle id :=
    fun id hLater => hRun.digest_eq hLater
  cases hRun with
  | keep hOther _ => exact absurd hIn hOther
  | rewrite hIn hRead hCanonical hDefinition hRest =>
    rw [hBytes, reads_definition hCodec hRead hCanonical hDefinition] at hRead'
    cases hRead'
    obtain ⟨r, hr, l, hRow, rfl⟩ :=
      exists_of_forall₂ (documentReferences_remapped hDefinition).flip hr'
    have hLater := hBack before a after hSplit hIn _ hRead r hr
    exact h.holds ⟨l, hRow, by rw [hLast _ hLater]⟩

/-- A reference to a workflow that is still to be rewritten keeps the digest it had. -/
theorem Imported.refersBack
    (hFresh : ∀ i < f.supportingArtifacts.length, ∀ a ∈ f.supportingArtifacts,
      (draws i).toId ≠ a.id)
    (hCollision : ∀ a ∈ f.supportingArtifacts, ∀ c ∈ g.supportingArtifacts,
      codec.digestBytes a.bytes = codec.digestBytes c.bytes → a.bytes = c.bytes)
    (hDefinitions : ∀ c ∈ g.supportingArtifacts, g.IsWorkflow c →
      ∀ w, codec.readWorkflow c.bytes = some w → ∀ r ∈ documentReferences w, g.Holds codec r) :
    f.RefersBack codec := by
  intro before a after hSplit hWorkflow w hRead r hr b hb hIn hId
  have hMem : ∀ x, x ∈ before ∨ x ∈ a :: after → x ∈ f.supportingArtifacts := by
    intro x hx
    rw [hSplit]
    exact List.mem_append.mpr hx
  have hRun := h.run
  rw [hSplit] at hRun
  obtain ⟨before', rest, middle, hRewritten, hBefore, hAfter⟩ := hRun.append
  obtain ⟨bytes, after', w₁, w', rfl, hRead₁, hCanonical, hDefinition⟩ :=
    hAfter.head_workflow hWorkflow
  cases hRead.symm.trans hRead₁
  -- the reference inside the rewritten definition still has the digest of the original
  obtain ⟨r', hr', hRemapped⟩ :=
    exists_of_forall₂ (documentReferences_remapped hDefinition) hr
  have hDigest : r'.digest = codec.digestBytes b.bytes := by
    obtain ⟨_, -, rfl⟩ := hRemapped
    have hMiddle : middle b.id = first b.id := by
      refine hBefore.digest_eq fun x hx _ hSame => ?_
      have hNodup := h.nodup
      rw [hSplit, List.map_append] at hNodup
      exact List.disjoint_of_nodup_append hNodup (List.mem_map_of_mem hx)
        (List.mem_map.mpr ⟨b, hb, hSame.symm⟩)
    rw [h.original b (hMem b (Or.inr hb)), ← h.digests b (hMem b (Or.inr hb)), ← hMiddle, hId]
  -- the result holds it only as that of the rewritten artifact
  have hHead : ({ a with bytes } : PackagedArtifact) ∈ rewritten := by
    rw [hRewritten]
    exact List.mem_append_right _ List.mem_cons_self
  obtain ⟨c, hc, hLocal, hBytes⟩ := exists_of_forall₂ h.artifacts hHead
  obtain ⟨d, hd, hReference, hHolds⟩ := hDefinitions c hc
    ((h.isWorkflow_iff hDistinct hLocal).mpr hWorkflow) w'
    (by rw [hBytes]; exact reads_definition hCodec hRead hCanonical hDefinition) r' hr'
  obtain ⟨e, he, hLocal', hBytes'⟩ := exists_of_forall₂ h.artifacts.flip hd
  obtain ⟨x, hx, hOrigin, -, hRewrite⟩ := h.before he
  have hSame : r = e.reference :=
    h.remapped_injective hDistinct hRemapped hLocal' (by rw [hReference])
  have hx : x = b := h.same hx (hMem b (Or.inr hb)) (by
    rw [PackagedArtifact.id, ← hOrigin, ← hSame, hId])
  subst hx
  obtain ⟨_, _, _, hRead', hCanonical', hDefinition'⟩ := hRewrite hIn
  refine h.bytes_ne hCodec hFresh hRead' hCanonical' hDefinition' ?_
  rw [← hBytes']
  exact hCollision x (hMem x (Or.inr hb)) d hd (by rw [← hDigest, ← hHolds])

end Result

end Facts

/-- With names that are new and digests that do not collide, an import is consistent exactly if no
workflow refers to one that is rewritten with it or later. -/
theorem import_consistent_iff (hCodec : codec.Faithful)
    (hImport : materializeFixture codec draws f = .ok g)
    (hDistinct : ∀ i j, i < f.supportingArtifacts.length → j < f.supportingArtifacts.length →
      draws i = draws j → i = j)
    (hFresh : ∀ i < f.supportingArtifacts.length, ∀ a ∈ f.supportingArtifacts,
      (draws i).toId ≠ a.id)
    (hCollision : ∀ a ∈ f.supportingArtifacts, ∀ c ∈ g.supportingArtifacts,
      codec.digestBytes a.bytes = codec.digestBytes c.bytes → a.bytes = c.bytes) :
    ConsistentImport codec f g ↔ f.RefersBack codec := by
  obtain ⟨start, first, last, rewritten, h⟩ := materializeFixture_imported hImport
  constructor
  · intro hConsistent
    exact h.refersBack hCodec hDistinct hFresh hCollision hConsistent.definitions
  · intro hBack
    refine
      { renamed := ⟨importName start, fun a ha b hb hName => ?_, h.renamed hCodec⟩
        handlers := fun handler hh => ?_
        workflows := fun r' hr' => ?_
        artifacts := fun c hc => ⟨c, hc, rfl, h.result c hc⟩
        definitions := fun c hc hWorkflow w hRead r hr =>
          h.definitions_hold hCodec hDistinct hBack hc hWorkflow hRead hr }
    · rw [h.name_injective hDistinct ha hb hName]
    · obtain ⟨⟨_, hInput⟩, _, hOutput⟩ := h.handlers handler hh
      exact ⟨h.holds hInput, h.holds hOutput⟩
    · obtain ⟨r, -, hRemapped⟩ := exists_of_forall₂ h.workflows.flip hr'
      exact h.holds hRemapped

end Import

/-! ## Two workflows

A codec that knows the documents below and the two that an import makes of them. -/

mutual

def Json.same : Json → Json → Bool
  | .null, .null => true
  | .bool a, .bool b => a == b
  | .num m, .num n => m == n
  | .str s, .str t => s == t
  | .arr items, .arr items' => sameItems items items'
  | .obj fields, .obj fields' => sameFields fields fields'
  | _, _ => false

def sameItems : List Json → List Json → Bool
  | [], [] => true
  | v :: items, v' :: items' => v.same v' && sameItems items items'
  | _, _ => false

def sameFields : List (String × Json) → List (String × Json) → Bool
  | [], [] => true
  | (k, v) :: fields, (k', v') :: fields' => k == k' && v.same v' && sameFields fields fields'
  | _, _ => false

end

mutual

theorem Json.same_eq {v v' : Json} (h : v.same v' = true) : v = v' := by
  cases v <;> cases v' <;> simp only [Json.same, Bool.false_eq_true, beq_iff_eq] at h <;>
    first
    | rfl
    | rw [h]
    | rw [sameItems_eq h]
    | rw [sameFields_eq h]

theorem sameItems_eq {items items' : List Json} (h : sameItems items items' = true) :
    items = items' := by
  match items, items' with
  | [], [] => rfl
  | [], _ :: _ => simp [sameItems] at h
  | _ :: _, [] => simp [sameItems] at h
  | v :: rest, v' :: rest' =>
    simp only [sameItems, Bool.and_eq_true] at h
    rw [Json.same_eq h.1, sameItems_eq h.2]

theorem sameFields_eq {fields fields' : List (String × Json)}
    (h : sameFields fields fields' = true) : fields = fields' := by
  match fields, fields' with
  | [], [] => rfl
  | [], _ :: _ => simp [sameFields] at h
  | _ :: _, [] => simp [sameFields] at h
  | (k, v) :: rest, (k', v') :: rest' =>
    simp only [sameFields, Bool.and_eq_true, beq_iff_eq] at h
    rw [h.1.1, Json.same_eq h.1.2, sameFields_eq h.2]

end

theorem Json.ofOption_injective {o o' : Option String} (h : ofOption str o = ofOption str o') :
    o = o' := by
  cases o <;> cases o' <;> cases h <;> rfl

theorem ArtifactRef.toJson_injective : Function.Injective ArtifactRef.toJson := by
  intro r r' h
  have hRead := congrArg ArtifactRef.fromJson? h
  rw [ArtifactRef.fromJson?_toJson, ArtifactRef.fromJson?_toJson] at hRead
  exact Option.some.inj hRead

theorem DocumentNode.toJson_injective : Function.Injective DocumentNode.toJson := by
  rintro ⟨⟩ ⟨⟩ h
  simp only [DocumentNode.toJson, Json.obj.injEq, List.cons.injEq, Prod.mk.injEq, Json.str.injEq,
    Json.num.injEq, true_and, and_true, Int.natCast_inj] at h
  obtain ⟨rfl, rfl, hHandler, hInput, hOutput, rfl, rfl, rfl, rfl⟩ := h
  cases Json.ofOption_injective hHandler
  cases ArtifactRef.toJson_injective hInput
  cases ArtifactRef.toJson_injective hOutput
  rfl

theorem DocumentEdge.toJson_injective : Function.Injective DocumentEdge.toJson := by
  rintro ⟨⟩ ⟨⟩ h
  simp only [DocumentEdge.toJson, Json.obj.injEq, List.cons.injEq, Prod.mk.injEq, Json.str.injEq,
    true_and, and_true] at h
  obtain ⟨rfl, rfl, rfl⟩ := h
  rfl

theorem WorkflowDocument.toJson_injective : Function.Injective WorkflowDocument.toJson := by
  rintro ⟨⟩ ⟨⟩ h
  simp only [WorkflowDocument.toJson, WorkflowDocument.fields, Json.obj.injEq, List.cons.injEq,
    Prod.mk.injEq, Json.str.injEq, Json.num.injEq, Json.arr.injEq, true_and, and_true,
    Int.natCast_inj] at h
  obtain ⟨rfl, rfl, hInput, hOutput, rfl, hNodes, hEdges, rfl, rfl, hActions, hDigest⟩ := h
  have hText : Function.Injective fun a : Action => Json.str a.text := fun a b hab =>
    OpaqueId.text_injective (Json.str.inj hab)
  cases ArtifactRef.toJson_injective hInput
  cases ArtifactRef.toJson_injective hOutput
  cases DocumentNode.toJson_injective.list_map hNodes
  cases DocumentEdge.toJson_injective.list_map hEdges
  cases hText.list_map hActions
  cases Digest.toText_injective hDigest
  rfl

/-- The content of a definition has a field less than any definition. -/
theorem toJson_ne_contentJson (w w' : WorkflowDocument) : w.toJson ≠ w'.contentJson := by
  intro h
  rw [WorkflowDocument.toJson, WorkflowDocument.contentJson, Json.obj.injEq] at h
  have hRemoved : ("digest", Json.str w'.digest.toText) ∈ w'.fields := by
    rw [WorkflowDocument.fields]
    exact List.mem_of_getElem? (i := 10) rfl
  have hLess : (w'.fields.filter fun f => f.1 != "digest").length < w'.fields.length := by
    rw [List.length_filter_lt_length_iff_exists]
    exact ⟨_, hRemoved, by rw [bne_self_eq_false]; decide⟩
  rw [← h] at hLess
  exact absurd hLess (lt_irrefl 11)

namespace Sample

mutual

/-- Canonical JSON; the strings of these documents need no escapes. -/
def canonical : Json → Bytes
  | .null => "null".toUTF8.data.toList
  | .bool b => (toString b).toUTF8.data.toList
  | .num n => (toString n).toUTF8.data.toList
  | .str s => 0x22 :: s.toUTF8.data.toList ++ [0x22]
  | .arr items => 0x5B :: [0x2C].intercalate (canonicalItems items) ++ [0x5D]
  | .obj fields => 0x7B :: [0x2C].intercalate ((canonicalFields fields).map Prod.snd) ++ [0x7D]

def canonicalItems : List Json → List Bytes
  | [] => []
  | v :: items => canonical v :: canonicalItems items

/-- The members of an object with their keys, in the order of the keys. -/
def canonicalFields : List (String × Json) → List (String × Bytes)
  | [] => []
  | (k, v) :: fields =>
    (canonicalFields fields).orderedInsert (fun a b => a.1 ≤ b.1)
      (k, 0x22 :: k.toUTF8.data.toList ++ 0x22 :: 0x3A :: canonical v)

end

def importDraws (n : Nat) : Uuid := ⟨0x00000000000040008000000000000000#128 + BitVec.ofNat 128 n⟩

/-- The schema `true`. -/
def schemaBytes : Bytes := [0x74, 0x72, 0x75, 0x65]

def schemaDigest : Digest :=
  ⟨0xb5bea41b6c623f7c09f1bf24dcae58ebab3c0cdd90ad966bc43a45b44867e12b#256⟩

theorem tenant_a_opaque : opaqueIdentifier "tenant_a" = true := by decide

theorem schema_a_opaque : opaqueIdentifier "schema_a" = true := by decide

def importedRef (artifactId : OpaqueId) (digest : Digest) : ArtifactRef :=
  { artifactId, tenantId := ⟨"tenant_a", tenant_a_opaque⟩, digest, schemaVersion := "1.0.0"
    classification := .internal }

def emptyWorkflow (name : String) (input output : ArtifactRef) (digest : Digest) :
    WorkflowDocument :=
  { id := name, version := "1.0.0", inputSchemaRef := input, outputSchemaRef := output
    entryNode := "start", nodes := [], edges := [], maxTotalSteps := 10, maxModelTurns := 5
    requiredActions := [], digest }

def trueRef : ArtifactRef := importedRef ⟨"schema_a", schema_a_opaque⟩ schemaDigest

def inner : WorkflowDocument :=
  emptyWorkflow "inner" trueRef trueRef
    ⟨0x06c423e3c0557a80641038a23d99ea023f1e2876ae6b477e9040af0c40676ffd#256⟩

def innerRef : ArtifactRef :=
  importedRef ⟨"workflow_b", by decide⟩
    ⟨0x609667e894e9994166db20576879892c1c38182294336285eabb23952960ae72#256⟩

/-- Takes what the inner workflow is described by. -/
def outer : WorkflowDocument :=
  emptyWorkflow "outer" innerRef trueRef
    ⟨0xac53848914a9881ab00ac7298cebc81d9c39ec42bd32d93ca55f1600557b532d#256⟩

def outerRef : ArtifactRef :=
  importedRef ⟨"workflow_a", by decide⟩
    ⟨0x67f076c77ee0284f81b8d247599da60c538292c06b66b6559a58080c2c387b0c#256⟩

def trueLocal : ArtifactRef := importedRef (importDraws 0).toId schemaDigest

/-- The inner workflow after an import. -/
def innerLocal : WorkflowDocument :=
  emptyWorkflow "inner" trueLocal trueLocal
    ⟨0x32268dd9813cc76b071b22c5fa24a5d4a95fe23098f8a02ea8ddac83ae583918#256⟩

/-- The outer workflow after an import that has not come to the inner one yet. -/
def outerLocal : WorkflowDocument :=
  emptyWorkflow "outer" (importedRef (importDraws 2).toId innerRef.digest) trueLocal
    ⟨0x90e3d2d6425f558119e5c5fa6295038e8f64ded443096260d0cf8eb993b122b0#256⟩

def knownWorkflows : List WorkflowDocument := [inner, outer, innerLocal, outerLocal]

/-- SHA-256 at the bytes that the imports below meet. -/
def hashes : List (Bytes × Digest) :=
  [(package, sha256Package package), (schemaBytes, schemaDigest),
    (canonical inner.toJson, innerRef.digest), (canonical outer.toJson, outerRef.digest),
    (canonical innerLocal.contentJson, innerLocal.digest),
    (canonical innerLocal.toJson,
      ⟨0x88c4eeb8b21d184b83873763d5182c5901acf1e71348238d5d31fc824e84bd9b#256⟩),
    (canonical outerLocal.contentJson, outerLocal.digest),
    (canonical outerLocal.toJson,
      ⟨0xd1d6dc463feeb9d19b0c2e542a594cf1ab673027562ea4f3d2f4d1a530b96e47#256⟩)]

def importCodec : ContractCodec :=
  { canonicalBytes := fun v =>
      if knownWorkflows.any fun w => v.same w.toJson || v.same w.contentJson then
        some (canonical v)
      else none
    digestBytes := fun bytes => (hashes.lookup bytes).getD default
    readWorkflow := fun bytes => knownWorkflows.find? fun w => canonical w.toJson == bytes }

def importFixture (workflows : List ArtifactRef) (supportingArtifacts : List PackagedArtifact) :
    PackagedPluginFixture :=
  { nativeFixture with
    handlers := [{ invokeHandler with inputSchemaRef := trueRef, outputSchemaRef := trueRef }]
    workflows, supportingArtifacts }

def innerFixture : PackagedPluginFixture :=
  importFixture [innerRef] [⟨trueRef, schemaBytes⟩, ⟨innerRef, canonical inner.toJson⟩]

/-- The outer workflow stands before the one it refers to. -/
def outerFixture : PackagedPluginFixture :=
  importFixture [outerRef, innerRef]
    [⟨trueRef, schemaBytes⟩, ⟨outerRef, canonical outer.toJson⟩,
      ⟨innerRef, canonical inner.toJson⟩]

end Sample

noncomputable def Bytewise.materializeFixture : { f // @materializeFixture = f } :=
  ⟨_, by
    delta materializeFixture rewriteArtifacts rewriteArtifacts._f rewriteWorkflow sealDefinition
      remapDefinition remapNode remapHandler remapArtifact remap localReferences localReferences._f
      PackagedPluginFixture.validate validateHandlers validateHandlers._f
    rw [Bytewise.WorkflowDocument.contentJson.2, Bytewise.WorkflowDocument.toJson.2,
      Uuid.toId_bytewise, Digest.decEq_bytewise]⟩

namespace Sample

/-- Which of two texts is first, by their characters. -/
def charsDecLE (s t : String) : Decidable (s ≤ t) :=
  decidable_of_iff (Ascii.chars s ≤ Ascii.chars t) (by
    rw [Ascii.chars_eq, Ascii.chars_eq, String.le_iff_toList_le])

theorem decLE_bytewise : String.decLE = charsDecLE :=
  funext fun _ => funext fun _ => Subsingleton.elim _ _

noncomputable def byteCanonical : { f // canonical = f } :=
  ⟨_, by
    delta canonical canonical._f canonicalItems._f canonicalFields._f
    rw [decLE_bytewise]⟩

noncomputable def byteCodec : { f // importCodec = f } :=
  ⟨_, by
    delta importCodec hashes
    rw [Bytewise.WorkflowDocument.contentJson.2, Bytewise.WorkflowDocument.toJson.2,
      byteCanonical.2]⟩

end Sample

/-- The two imports, evaluated together. -/
theorem sample_imports :
    (Sample.knownWorkflows.all fun k => Sample.knownWorkflows.find? (fun w =>
      Sample.canonical w.toJson == Sample.canonical k.toJson) == some k) = true ∧
    ((∀ i < 3, ∀ j < 3, Sample.importDraws i = Sample.importDraws j → i = j) ∧
      ∀ i < 3, ∀ a ∈ Sample.outerFixture.supportingArtifacts,
        (Sample.importDraws i).toId ≠ a.id) ∧
    (∀ a ∈ Sample.innerFixture.supportingArtifacts,
      ∀ w ∈ Sample.importCodec.readWorkflow a.bytes, ∀ r ∈ documentReferences w,
        ∀ b ∈ Sample.innerFixture.supportingArtifacts,
          b.id ∈ Sample.innerFixture.workflows.map (·.artifactId) → b.id ≠ r.artifactId) ∧
    ((materializeFixture Sample.importCodec Sample.importDraws
      Sample.innerFixture).toOption.any fun g =>
        Sample.innerFixture.supportingArtifacts.all fun a =>
          g.supportingArtifacts.all fun c => decide (Sample.importCodec.digestBytes a.bytes =
            Sample.importCodec.digestBytes c.bytes → a.bytes = c.bytes)) = true ∧
    ((materializeFixture Sample.importCodec Sample.importDraws
      Sample.outerFixture).toOption.any fun g =>
        g.supportingArtifacts.any fun c => (g.workflows.map (·.artifactId)).contains c.id &&
          Sample.importCodec.readWorkflow c.bytes == some Sample.outerLocal &&
          !(g.supportingArtifacts.map (·.reference)).contains
            Sample.outerLocal.inputSchemaRef) = true := by
  rw [Sample.byteCodec.2, Bytewise.materializeFixture.2]
  delta Sample.innerFixture Sample.outerFixture
  rw [Bytewise.WorkflowDocument.toJson.2, Sample.byteCanonical.2, Digest.decEq_bytewise]
  decide +kernel

theorem importCodec_faithful : Sample.importCodec.Faithful := by
  constructor
  · intro bytes w hRead
    have hMem := List.mem_of_find?_eq_some hRead
    simp only [Sample.knownWorkflows, List.mem_cons, List.not_mem_nil, or_false] at hMem
    rcases hMem with rfl | rfl | rfl | rfl <;>
      exact ⟨⟨by decide, by decide⟩, fun n hn => by cases hn⟩
  · intro bytes w _ hBytes
    simp only [Sample.importCodec, Option.ite_none_right_eq_some, List.any_eq_true,
      Bool.or_eq_true] at hBytes ⊢
    obtain ⟨⟨k, hk, hSame⟩, hBytes⟩ := hBytes
    have hDocument : w = k := by
      rcases hSame with hSame | hSame
      · exact WorkflowDocument.toJson_injective (Json.same_eq hSame)
      · exact absurd (Json.same_eq hSame) (toJson_ne_contentJson w k)
    have hFound := List.all_eq_true.mp sample_imports.1 k hk
    rw [beq_iff_eq] at hFound
    rw [← Option.some.inj hBytes, hDocument, hFound]

theorem eq_ok_of_toOption {ε α : Type} {x : Except ε α} {a : α} (h : x.toOption = some a) :
    x = .ok a := by
  cases x with
  | error e => cases h
  | ok b =>
    cases h
    rfl

theorem import_consistent_inner :
    ∃ g, materializeFixture Sample.importCodec Sample.importDraws Sample.innerFixture = .ok g ∧
      ConsistentImport Sample.importCodec Sample.innerFixture g := by
  obtain ⟨-, ⟨hDistinct, hFresh⟩, hBack, hImport, -⟩ := sample_imports
  simp only [Option.any_eq_true, List.all_eq_true, decide_eq_true_eq] at hImport
  obtain ⟨g, hg, hCollision⟩ := hImport
  have hg := eq_ok_of_toOption hg
  have hMore : ∀ i < 2, i < 3 := fun i hi => Nat.lt_succ_of_lt hi
  refine ⟨g, hg, (import_consistent_iff importCodec_faithful hg
    (fun i j hi hj => hDistinct i (hMore i hi) j (hMore j hj))
    (fun i hi a ha => hFresh i (hMore i hi) a ?_) hCollision).mpr ?_⟩
  · rcases List.mem_cons.mp ha with rfl | ha
    · exact List.mem_cons_self
    · exact List.mem_cons_of_mem _ (List.mem_cons_of_mem _ ha)
  · intro before a after hSplit _ w hRead r hr b hb hWorkflow
    have hMem : ∀ x ∈ a :: after, x ∈ Sample.innerFixture.supportingArtifacts := by
      rw [hSplit]
      exact fun x hx => List.mem_append_right _ hx
    exact hBack a (hMem a List.mem_cons_self) w hRead r hr b (hMem b hb) hWorkflow

/-- The outer workflow still refers to the inner one as it was before the import. -/
theorem import_leaves_old_digest :
    Sample.importCodec.Faithful ∧
    (∀ i < 3, ∀ j < 3, Sample.importDraws i = Sample.importDraws j → i = j) ∧
    (∀ i < 3, ∀ a ∈ Sample.outerFixture.supportingArtifacts,
      (Sample.importDraws i).toId ≠ a.id) ∧
    ∃ g, materializeFixture Sample.importCodec Sample.importDraws Sample.outerFixture = .ok g ∧
      ¬ ConsistentImport Sample.importCodec Sample.outerFixture g := by
  obtain ⟨-, ⟨hDistinct, hFresh⟩, -, -, hImport⟩ := sample_imports
  refine ⟨importCodec_faithful, hDistinct, hFresh, ?_⟩
  simp only [Option.any_eq_true, List.any_eq_true, Bool.and_eq_true, List.contains_iff_mem,
    beq_iff_eq, Bool.not_eq_true', ← Bool.not_eq_true] at hImport
  obtain ⟨g, hg, c, hc, ⟨hWorkflow, hRead⟩, hOther⟩ := hImport
  refine ⟨g, eq_ok_of_toOption hg, fun hConsistent => ?_⟩
  obtain ⟨a, ha, hReference, -⟩ := hConsistent.definitions c hc hWorkflow _ hRead
    Sample.outerLocal.inputSchemaRef List.mem_cons_self
  exact hOther (List.mem_map.mpr ⟨a, ha, hReference⟩)

end Masonwing
