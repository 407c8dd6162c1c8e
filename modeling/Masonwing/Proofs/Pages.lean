import Masonwing.Proofs.Acceptance
import Masonwing.Proofs.Collections
import Masonwing.Proofs.Evaluation
import Masonwing.Proofs.HostShows

/-!
# The pages of a collection

A member who follows the cursors of a collection sees it as it was at the first page:

* `hostStep_grown`: projections are only added, and a stored artifact that was put away is not
  brought back, so without deletions and quarantines the candidates of a snapshot stay the same
  (`candidateRows_later`);
* `readCollection_page`: each page takes an initial part of what is left of them;
* `snapshot_pages`: the pages together show the permitted candidates, each once and in order.
-/

namespace Masonwing

open Outcome

variable {ι ν ε : Type}

/-! ## The journal grows -/

/-- An artifact that cannot become active any more. -/
def ArtifactState.PutAway (state : ArtifactState) : Prop := state ≠ .pending ∧ state ≠ .active

/-- Projections are added after the old ones; a stored artifact keeps its terms. -/
structure Grown (j j' : Journal) : Prop where
  projections : j.projections.rows <+: j'.projections.rows
  artifacts : ∀ id a, j.artifacts.get? id = some a → ∃ a', j'.artifacts.get? id = some a' ∧
    a'.terms = a.terms ∧ (a.state.PutAway → a'.state.PutAway)

theorem Grown.refl (j : Journal) : Grown j j :=
  ⟨List.prefix_refl _, fun _ a ha => ⟨a, ha, rfl, fun h => h⟩⟩

theorem Grown.trans {j j' j'' : Journal} (h : Grown j j') (h' : Grown j' j'') : Grown j j'' := by
  refine ⟨h.projections.trans h'.projections, fun id a ha => ?_⟩
  obtain ⟨b, hb, hTerms, hAway⟩ := h.artifacts id a ha
  obtain ⟨c, hc, hTerms', hAway'⟩ := h'.artifacts id b hb
  exact ⟨c, hc, hTerms'.trans hTerms, fun hState => hAway' (hAway hState)⟩

theorem StateStep.putAway {lineage : List (Uuid × Uuid)} {id : Uuid} {act : ArtifactAct}
    {state state' : ArtifactState} (h : StateStep lineage id act state state')
    (hState : state.PutAway) : state'.PutAway := by
  cases h with
  | same => exact hState
  | finalized => exact absurd rfl hState.1
  | rejected => exact ⟨by decide, by decide⟩
  | contained => exact absurd rfl hState.2
  | deleted => exact ⟨by decide, by decide⟩

theorem JournalMove.grown {tick : Tick} {act : ArtifactAct} {j j' : Journal}
    (h : JournalMove tick j act j') : Grown j j' := by
  refine ⟨by rw [h.projections], fun id a ha => ?_⟩
  obtain ⟨a', ha', hTerms, hState⟩ := h.row ha
  exact ⟨a', ha', hTerms, hState.putAway⟩

theorem Written.grown {derived : Uuid} {j j' : Journal} {change : ProjectionChange}
    (h : Written derived j j' change) : Grown j j' := by
  obtain ⟨a, hArtifact, -⟩ := h.artifact
  obtain ⟨p, hProjection, -⟩ := h.projection
  refine ⟨?_, fun id b hb => ?_⟩
  · rw [(Table.insert?_eq_some hProjection).2]
    exact List.prefix_append _ _
  · exact ⟨b, Table.insert?_get?_of_some hArtifact hb, rfl, fun hState => hState⟩

theorem hostStep_grown (h : Host ι ν ε) (s : HostState) (c : HostCall ι ε) :
    Grown s.store.tables.journal (hostStep h s c).1.store.tables.journal :=
  hostStep_keeps (I := fun j => Grown s.store.tables.journal j)
    (fun _ _ _ hMove hOld => hOld.trans hMove.grown)
    (fun _ _ _ _ _ _ _ _ _ _ _ hWritten hOld => hOld.trans hWritten.grown) (.refl _)

/-- Every projection has an identifier that can be read and an artifact that is no upload under
way. -/
structure Filed (j : Journal) : Prop where
  named : ∀ k p, j.projections.get? k = some p → ∃ id, Uuid.parse k.resourceId = some id
  artifact : ∀ k p, j.projections.get? k = some p →
    ∃ a, j.artifacts.get? p.artifactId = some a ∧ a.state ≠ .pending

theorem StateStep.not_pending {lineage : List (Uuid × Uuid)} {id : Uuid} {act : ArtifactAct}
    {state state' : ArtifactState} (h : StateStep lineage id act state state')
    (hState : state ≠ .pending) : state' ≠ .pending := by
  cases h with
  | same => exact hState
  | _ => decide

theorem Filed.step {h : Host ι ν ε} {s : HostState} {c : HostCall ι ε}
    (hFiled : Filed s.store.tables.journal) :
    Filed (hostStep h s c).1.store.tables.journal := by
  refine hostStep_keeps (I := Filed) (fun act j _ hMove hOld => ?_)
    (fun act j changes _ _ _ i j₁ j₂ change _ hWritten hOld => ?_) hFiled
  · refine ⟨fun k p hp => ?_, fun k p hp => ?_⟩
    · rw [hMove.projections] at hp
      exact hOld.named k p hp
    · rw [hMove.projections] at hp
      obtain ⟨a, ha, hState⟩ := hOld.artifact k p hp
      obtain ⟨a', ha', -, hStep⟩ := hMove.row ha
      exact ⟨a', ha', hStep.not_pending hState⟩
  · obtain ⟨a, hArtifact, hActive, -⟩ := hWritten.artifact
    obtain ⟨q, hProjection, hDerived, -⟩ := hWritten.projection
    refine ⟨fun k p hp => ?_, fun k p hp => ?_⟩
    · rcases Table.insert?_get?_cases hProjection hp with ⟨rfl, -⟩ | ⟨-, hp⟩
      · exact hWritten.resource
      · exact hOld.named k p hp
    · rcases Table.insert?_get?_cases hProjection hp with ⟨-, rfl⟩ | ⟨-, hp⟩
      · refine ⟨a, ?_, by rw [hActive]; decide⟩
        rw [hDerived]
        exact Table.insert?_get?_self hArtifact
      · obtain ⟨b, hb, hState⟩ := hOld.artifact k p hp
        exact ⟨b, Table.insert?_get?_of_some hArtifact hb, hState⟩

/-! ## Candidates -/

/-- Between two journals nothing was deleted and nothing put into quarantine. -/
structure Spared (j j' : Journal) : Prop where
  tombstones : j'.tombstones = j.tombstones
  active : ∀ id a, j.artifacts.get? id = some a → a.state = .active →
    ∃ a', j'.artifacts.get? id = some a' ∧ a'.state = .active

theorem Spared.refl (j : Journal) : Spared j j := ⟨rfl, fun _ a ha hActive => ⟨a, ha, hActive⟩⟩

theorem Spared.trans {j j' j'' : Journal} (h : Spared j j') (h' : Spared j' j'') :
    Spared j j'' := by
  refine ⟨h'.tombstones.trans h.tombstones, fun id a ha hActive => ?_⟩
  obtain ⟨b, hb, hStill⟩ := h.active id a ha hActive
  exact h'.active id b hb hStill

section Candidates

variable {env : Env} {j j' : Journal} {kind query : String}

theorem latestRows_later {snapshot : Nat} (hGrown : Grown j j')
    (hSnapshot : snapshot ≤ j.projections.rows.length) :
    latestRows j' kind snapshot = latestRows j kind snapshot := by
  obtain ⟨added, hAdded⟩ := hGrown.projections
  rw [latestRows, latestRows, ← hAdded, List.take_append_of_le_length hSnapshot]

theorem mem_latestRows {snapshot : Nat} {p : ProjectionKey × ProjectionRow} :
    p ∈ latestRows j kind snapshot ↔ p ∈ j.projections.rows.take snapshot ∧
      p.1.resourceType = kind ∧ ∀ q ∈ j.projections.rows.take snapshot,
        q.1.resourceType = kind → q.1.resourceId = p.1.resourceId → q.1.version ≤ p.1.version := by
  simp only [latestRows, List.mem_filter, decide_eq_true_eq, List.all_eq_true, and_assoc,
    and_imp]

/-- While nothing is deleted or put away, the candidates of a snapshot stay the same. -/
theorem candidateRows_later {snapshot : Nat} (hFiled : Filed j) (hGrown : Grown j j')
    (hSpared : Spared j j') (hSnapshot : snapshot ≤ j.projections.rows.length) :
    candidateRows env j' kind query snapshot = candidateRows env j kind query snapshot := by
  rw [candidateRows, candidateRows, latestRows_later hGrown hSnapshot]
  refine List.filterMap_congr fun p hp => ?_
  have hRow : j.projections.get? p.1 = some p.2 :=
    Table.get?_eq_some_iff.mpr (List.mem_of_mem_take (mem_latestRows.mp hp).1)
  obtain ⟨a, ha, hPending⟩ := hFiled.artifact p.1 p.2 hRow
  obtain ⟨a', ha', hTerms, hAway⟩ := hGrown.artifacts _ a ha
  rw [candidateArtifact, candidateArtifact, ha, ha', hSpared.tombstones]
  by_cases hActive : a.state = .active
  · obtain ⟨b, hb, hStill⟩ := hSpared.active _ a ha hActive
    cases ha'.symm.trans hb
    have hClassification : a'.classification = a.classification := congrArg (·.2.2) hTerms
    simp only [Option.filter_some, hActive, hStill]
    split
    · simp only [Option.map_some, hClassification]
    · rfl
  · have hStill : a'.state ≠ .active := (hAway ⟨hPending, hActive⟩).2
    simp only [Option.filter_some, hActive, hStill, false_and, decide_false, Bool.false_eq_true,
      if_false]

/-- The newest version of a resource of the type, with its artifact active, its resource not deleted
and its label found by the query. -/
def Listed (env : Env) (j : Journal) (kind query : String) (c : Candidate) : Prop :=
  ∃ p a, j.projections.get? ⟨kind, c.resourceId, c.version⟩ = some p ∧
    (∀ v q, j.projections.get? ⟨kind, c.resourceId, v⟩ = some q → v ≤ c.version) ∧
    j.artifacts.get? p.artifactId = some a ∧ a.state = .active ∧
    (kind, c.resourceId) ∉ j.tombstones ∧ labelMatches env query p.label = true ∧
    c.createdAt = p.createdAt ∧ c.classification = a.classification

theorem mem_candidateRows {c : Candidate} :
    c ∈ candidateRows env j kind query j.projections.rows.length ↔ Listed env j kind query c := by
  simp only [candidateRows, List.mem_filterMap, mem_latestRows, List.take_length,
    candidateArtifact, Option.map_eq_some_iff, Option.filter_eq_some_iff, decide_eq_true_eq]
  constructor
  · rintro ⟨⟨k, p⟩, ⟨hp, rfl, hNewest⟩, a, ⟨ha, hActive, hTombstone, hLabel⟩, rfl⟩
    refine ⟨p, a, Table.get?_eq_some_iff.mpr hp, fun v q hq => ?_, ha, hActive, hTombstone, hLabel,
      rfl, rfl⟩
    exact hNewest (_, q) (Table.get?_eq_some_iff.mp hq) rfl rfl
  · rintro ⟨p, a, hp, hNewest, ha, hActive, hTombstone, hLabel, hCreated, hClassification⟩
    refine ⟨(⟨kind, c.resourceId, c.version⟩, p), ⟨Table.get?_eq_some_iff.mp hp, rfl, ?_⟩, a,
      ⟨ha, hActive, hTombstone, hLabel⟩, ?_⟩
    · rintro ⟨⟨kind', id, v⟩, q⟩ hq hKind hId
      dsimp only at hKind hId ⊢
      refine hNewest v q (Table.get?_eq_some_iff.mpr ?_)
      rw [← hKind, ← hId]
      exact hq
    · rw [← hCreated, ← hClassification]

/-- A resource has one newest version. -/
theorem candidateRows_distinct (snapshot : Nat) :
    Paging.Distinct Candidate.position (candidateRows env j kind query snapshot) := by
  have hKeys : (j.projections.rows.take snapshot).Pairwise fun p q => p.1 ≠ q.1 :=
    (List.pairwise_map.mp j.projections.nodup).sublist (List.take_sublist _ _)
  have hLatest : (latestRows j kind snapshot).Pairwise fun p q =>
      p.1.resourceId ≠ q.1.resourceId := by
    have hSub : (latestRows j kind snapshot).Pairwise fun p q => p.1 ≠ q.1 :=
      hKeys.sublist (List.filter_sublist.trans List.filter_sublist)
    refine hSub.imp_of_mem fun {p q} hp hq hNe hId => hNe ?_
    obtain ⟨hpMem, hpKind, hpNewest⟩ := mem_latestRows.mp hp
    obtain ⟨hqMem, hqKind, hqNewest⟩ := mem_latestRows.mp hq
    have hLe := hqNewest p hpMem hpKind hId
    have hGe := hpNewest q hqMem hqKind hId.symm
    obtain ⟨⟨kind₁, id₁, version₁⟩, p⟩ := p
    obtain ⟨⟨kind₂, id₂, version₂⟩, q⟩ := q
    dsimp only at hpKind hqKind hId hLe hGe ⊢
    rw [hpKind, hqKind, hId, le_antisymm hLe hGe]
  refine List.Pairwise.filterMap _ (fun p q hNe c hc d hd hPosition => ?_) hLatest
  obtain ⟨a, -, rfl⟩ := Option.map_eq_some_iff.mp hc
  obtain ⟨b, -, rfl⟩ := Option.map_eq_some_iff.mp hd
  exact hNe (congrArg (fun x => (ofLex x).2) hPosition)

end Candidates

/-! ## One page -/

def Browse.query (b : Browse) : String := trim (b.q.getD "")

/-- What a cursor remembers of the request. -/
def Browse.document (b : Browse) (limit : Nat) : Json :=
  .obj [("q", .str b.query), ("type", .str b.kind), ("limit", .num limit)]

/-- What can be asked for; a page has up to `limit` items. -/
structure Browse.Accepted (env : Env) (b : Browse) (limit : Nat) : Prop where
  readable : (baselineResourceTypes ++ extensionResourceTypes).contains b.kind = true
  asked : b.limit.getD 50 = limit
  bounds : 1 ≤ limit ∧ limit ≤ 200
  query : b.query.utf8ByteSize ≤ 256
  document : ∃ bytes, env.canonicalBytes (b.document limit) = some bytes

/-- The cursor that a page of the request leaves behind a position. -/
def Browse.cursorRow (b : Browse) (principal : Uuid) (queryDigest : Digest) (limit : Nat)
    (snapshotAt : Int) (snapshot : Nat) (position : Position) : ReadCursorRow :=
  { principalId := principal, membershipEpoch := b.actor.membershipEpoch
    permissionEpoch := b.actor.permissionEpoch, policyVersion := b.actor.policyVersion
    policyEpoch := b.actor.policyEpoch, resourceType := b.kind, queryDigest, snapshotAt
    snapshotSequence := snapshot, lastCreatedAt := (ofLex position).1
    lastResourceId := (ofLex position).2, pageLimit := limit
    expiresAt := snapshotAt + cursorMicroseconds }

/-- The page that a scan is shown as. -/
def shownPage (scan : CandidateScan) (snapshotAt : Int) (nextCursor : Option String) :
    ReadCollection :=
  { items := scan.items, nextCursor, snapshotAt
    dataState := dataStateOf scan.scanned nextCursor.isSome scan.items.isEmpty
    totalVisible := none }

/-- The item of a candidate that the policy permits. -/
def ReadPolicy.view (env : Env) (policy : ReadPolicy) (kind : String) (c : Candidate) :
    Option ResourceRef := (emitCandidate env policy kind c).toOption.join

/-- The item that shows a candidate. -/
def Candidate.ShownAs (kind : String) (c : Candidate) (item : ResourceRef) : Prop :=
  item.resourceType = kind ∧ item.version = c.version ∧
    ∃ id, Uuid.parse c.resourceId = some id ∧ item.resourceId = id.toId

section Page

variable {env : Env} {policy : ReadPolicy} {kind : String}

theorem emitCandidate_view {c : Candidate} (h : ∃ id, Uuid.parse c.resourceId = some id) :
    emitCandidate env policy kind c = .ok (policy.view env kind c) := by
  obtain ⟨id, hId⟩ := h
  unfold ReadPolicy.view emitCandidate
  split
  · rw [parseUuid_eq_ok.mpr hId]
    rfl
  · rfl

theorem view_shownAs {c : Candidate} (h : ∃ id, Uuid.parse c.resourceId = some id) :
    (∃ item, policy.view env kind c = some item ∧ c.ShownAs kind item ∧
      policy.shows env kind c = true) ∨
    (policy.view env kind c = none ∧ policy.shows env kind c = false) := by
  obtain ⟨id, hId⟩ := h
  unfold ReadPolicy.view emitCandidate
  cases hShows : policy.shows env kind c with
  | false => exact Or.inr ⟨rfl, rfl⟩
  | true =>
    refine Or.inl ⟨{ resourceType := kind, resourceId := id.toId, version := c.version }, ?_,
      ⟨rfl, rfl, id, hId, rfl⟩, rfl⟩
    rw [if_pos rfl, parseUuid_eq_ok.mpr hId]
    rfl

/-- The items are those of the permitted candidates. -/
theorem filterMap_view {rows : List Candidate}
    (h : ∀ c ∈ rows, ∃ id, Uuid.parse c.resourceId = some id) :
    List.Forall₂ (Candidate.ShownAs kind) (rows.filter (policy.shows env kind))
      (rows.filterMap (policy.view env kind)) := by
  induction rows with
  | nil => exact .nil
  | cons c rows ih =>
    have hRest := ih fun d hd => h d (List.mem_cons_of_mem c hd)
    have hHead : (∃ item, policy.view env kind c = some item ∧ c.ShownAs kind item ∧
        policy.shows env kind c = true) ∨
        (policy.view env kind c = none ∧ policy.shows env kind c = false) :=
      view_shownAs (h c List.mem_cons_self)
    rcases hHead with ⟨item, hView, hShown, hShows⟩ | ⟨hView, hShows⟩
    · rw [List.filter_cons_of_pos hShows, List.filterMap_cons_some hView]
      exact .cons hShown hRest
    · rw [List.filter_cons_of_neg (by rw [hShows]; exact Bool.false_ne_true),
        List.filterMap_cons_none hView]
      exact hRest

theorem candidateRows_named {j : Journal} {query : String} {snapshot : Nat} (hFiled : Filed j)
    {c : Candidate} (hc : c ∈ candidateRows env j kind query snapshot) :
    ∃ id, Uuid.parse c.resourceId = some id := by
  obtain ⟨p, hp, hMap⟩ := List.mem_filterMap.mp hc
  obtain ⟨a, -, rfl⟩ := Option.map_eq_some_iff.mp hMap
  exact hFiled.named p.1 p.2
    (Table.get?_eq_some_iff.mpr (List.mem_of_mem_take (mem_latestRows.mp hp).1))

variable {b : Browse} {limit : Nat} {principal : Uuid} {tick : Tick} {t : Tables}

/-- The cursor that a page has left starts the next one where it has stopped. -/
theorem pageStart_cursor {id : Uuid} {queryDigest : Digest} {snapshotAt now : Int} {snapshot : Nat}
    {position : Position}
    (hRow : t.readCursors.get? id =
      some (b.cursorRow principal queryDigest limit snapshotAt snapshot position))
    (hAlive : now < snapshotAt + cursorMicroseconds) :
    (pageStart t now (some id.toText) fun c =>
      c.usable b.actor principal b.kind queryDigest limit now) =
        .ok (snapshotAt, snapshot, some position) := by
  have hUsable : (b.cursorRow principal queryDigest limit snapshotAt snapshot position).usable
      b.actor principal b.kind queryDigest limit now = true :=
    decide_eq_true ⟨rfl, rfl, rfl, rfl, rfl, rfl, rfl, rfl, hAlive⟩
  simp only [pageStart, bind_eq_ok, okOr_eq_ok, pure_eq_ok]
  refine ⟨id, Uuid.parse_toText id,
    b.cursorRow principal queryDigest limit snapshotAt snapshot position, ?_, rfl⟩
  rw [hRow, Option.filter_some, if_pos hUsable]

/-- A page takes an initial part of the candidates that are left, and leaves a cursor exactly if
some are left then. -/
theorem readCollection_page {cursor : Option String} {bytes : Bytes} {snapshotAt : Int}
    {snapshot : Nat} {last : Option Position} {rows before : List Candidate}
    (hAccepted : b.Accepted env limit)
    (hBytes : env.canonicalBytes (b.document limit) = some bytes)
    (hActor : beginActor t b.actor = .ok ()) (hPolicy : readPolicy env t b.actor = .ok policy)
    (hPrincipal : parseUuid b.actor.principalId.text = .ok principal)
    (hFresh : t.readCursors.get? (tick.draw .readCursor) = none)
    (hStart : (pageStart t tick.now cursor fun c => c.usable b.actor principal b.kind
      (env.digestBytes bytes) limit tick.now) = .ok (snapshotAt, snapshot, last))
    (hRows : rows = Paging.sortRows Candidate.position
      (candidateRows env t.journal b.kind b.query snapshot))
    (hNamed : ∀ c ∈ rows, ∃ id, Uuid.parse c.resourceId = some id)
    (hSplit : rows = before ++ Paging.rest Candidate.position rows last) :
    ∃ t' nextCursor scan taken left,
      readCollection env tick t b.actor b.kind { cursor, limit := b.limit, q := b.q } =
        .ok (t', shownPage scan snapshotAt nextCursor, scan) ∧
      Paging.Page Candidate.position (policy.view env b.kind) limit scanRows batchRows rows
        (.from last) scan taken left ∧
      ((left = [] ∧ nextCursor = none ∧ t' = t) ∨
        ∃ position readCursors, left ≠ [] ∧ scan.last = some position ∧
          nextCursor = some (tick.draw .readCursor).toText ∧
          t' = { t with readCursors } ∧ t.readCursors.insert? (tick.draw .readCursor)
            (b.cursorRow principal (env.digestBytes bytes) limit snapshotAt snapshot position) =
              some readCursors) := by
  have hDistinct : Paging.Distinct Candidate.position
      (candidateRows env t.journal b.kind b.query snapshot) := candidateRows_distinct snapshot
  have hOrdered : Paging.Ordered Candidate.position rows := by
    rw [hRows]
    exact Paging.ordered_sortRows hDistinct
  have hQuery : ∀ last, candidateBatch env t.journal b.kind b.query snapshot last =
      (Paging.rest Candidate.position rows last).take (batchRows + 1) := by
    intro last
    rw [candidateBatch, Paging.sortRows_rest hDistinct, hRows]
  obtain ⟨hLeast, hMost⟩ := hAccepted.bounds
  have hScanned : ∃ taken left scan,
      Paging.scanPage Candidate.position (emitCandidate env policy b.kind)
        (candidateBatch env t.journal b.kind b.query snapshot) limit scanRows batchRows scanRows
        (.from last) = .ok scan ∧
      Paging.Page Candidate.position (policy.view env b.kind) limit scanRows batchRows rows
        (.from last) scan taken left :=
    Paging.scanPage_spec hOrdered hQuery (fun c hc => emitCandidate_view (hNamed c hc)) (by decide)
      hSplit (Nat.zero_le limit) (Nat.le_refl _) (by show 0 < _; decide)
      (Or.inl ⟨hLeast, by show 0 < _; decide⟩)
  obtain ⟨taken, left, scan, hScan, hPage⟩ := hScanned
  have hReadable : requireReadable b.kind = .ok () :=
    (require_eq_ok (u := ())).mpr hAccepted.readable
  have hLimit : PageQuery.checkedLimit { cursor, limit := b.limit, q := b.q } = .ok limit := by
    simp only [PageQuery.checkedLimit, bind_eq_ok, require_eq_ok, pure_eq_ok, exists_const]
    exact ⟨by rw [hAccepted.asked]; exact hAccepted.bounds, hAccepted.asked⟩
  cases hMore : scan.more with
  | false =>
    have hLeft : left = [] := by
      by_contra hSome
      rw [hPage.more.mpr hSome] at hMore
      cases hMore
    refine ⟨t, none, scan, taken, left, ?_, hPage, Or.inl ⟨hLeft, rfl, rfl⟩⟩
    simp only [readCollection, bind_eq_ok]
    refine ⟨(), hReadable, limit, hLimit, (), require_eq_ok.mpr hAccepted.query, bytes,
      okOr_eq_ok.mpr hBytes, (), hActor, policy, hPolicy, principal, hPrincipal,
      (snapshotAt, snapshot, last), hStart, scan, hScan, ?_⟩
    rw [hMore]
    rfl
  | true =>
    have hLeft : left ≠ [] := hPage.more.mp hMore
    have hTaken : taken ≠ [] := hPage.progress ⟨hLeast, by show 0 < _; decide⟩ hLeft
    obtain ⟨position, hLast⟩ : ∃ position, scan.last = some position := by
      rw [hPage.advanced.last]
      cases hEnd : taken.getLast? with
      | none => exact absurd (List.getLast?_eq_none_iff.mp hEnd) hTaken
      | some c => exact ⟨c.position, rfl⟩
    obtain ⟨readCursors, hInsert⟩ : ∃ readCursors,
        t.readCursors.insert? (tick.draw .readCursor) (b.cursorRow principal (env.digestBytes bytes)
          limit snapshotAt snapshot position) = some readCursors :=
      Table.insert?_isSome_iff.mpr hFresh
    refine ⟨{ t with readCursors }, some (tick.draw .readCursor).toText, scan, taken, left, ?_,
      hPage, Or.inr ⟨position, readCursors, hLeft, hLast, rfl, rfl, hInsert⟩⟩
    simp only [readCollection, bind_eq_ok]
    refine ⟨(), hReadable, limit, hLimit, (), require_eq_ok.mpr hAccepted.query, bytes,
      okOr_eq_ok.mpr hBytes, (), hActor, policy, hPolicy, principal, hPrincipal,
      (snapshotAt, snapshot, last), hStart, scan, hScan, ?_⟩
    rw [hMore, if_pos rfl]
    simp only [bind_eq_ok, pure_eq_ok, sql_eq_ok, insertRow_eq_ok]
    exact ⟨position, okOr_eq_ok.mpr hLast, readCursors, hInsert, rfl⟩

end Page

/-! ## The cursors of the others -/

section Cursors

variable {tick : Tick} {t t' : Tables}

theorem Change.readCursors {env : Env} {a : Act} (h : Change env tick t a t') :
    t'.readCursors = t.readCursors := by
  cases h <;> rfl

theorem PlatformOutcome.readCursors {p : Platform ι} {op : PlatformOperation ι}
    (h : PlatformOutcome p tick t op t') : t'.readCursors = t.readCursors := by
  cases h with
  | unchanged => rfl
  | command hActor hAuthorized hHandled hJournal hRecorded =>
    obtain ⟨a, -, hChange⟩ := dispatchCommand_change t.journal (beginActor_ok hActor).1 hHandled
    exact hChange.readCursors
  | further hHandled hRecorded =>
    unfold Platform.dispatch at hHandled
    split at hHandled
    · obtain ⟨digest, registry, runs, -, -, rfl, -⟩ := revokePlugin_ok hHandled
      rfl
    · obtain ⟨j, id, rights, requests, -, -, rfl, -⟩ := requestDeletion_ok hHandled
      rfl
    · obtain ⟨registry, rfl, -⟩ := Lifecycle.run_ok hHandled
      rfl
  | contained hContained hOp => rfl
  | system hCall => exact (runSystemCall_change hCall).readCursors
  | checkpoint hRecord =>
    rcases recordRunCheckpoint_ok hRecord with ⟨-, rfl⟩ | ⟨-, row, checkpoints, -, rfl, -⟩
    · rfl
    · rfl

/-- Only reading writes cursors. -/
theorem hostStep_readCursors (h : Host ι ν ε) (s : HostState) (c : HostCall ι ε) :
    (hostStep h s c).1.store.tables.readCursors = s.store.tables.readCursors := by
  have hOutcome := hostStep_outcome h s c
  generalize (hostStep h s c).1.store.tables = t' at hOutcome ⊢
  generalize c.operation = op at hOutcome
  generalize (hostStep h s c).1.attempts = attempts' at hOutcome
  cases hOutcome with
  | unchanged => rfl
  | platform hOutcome => exact hOutcome.readCursors
  | command hActor hAuthorized hHandled hRecorded =>
    have hFrame := congrArg Tables.readCursors (Host.dispatch_frame hHandled)
    exact hFrame
  | contained hContained => rfl
  | claimed hClaimed =>
    obtain ⟨u, u', a, -, -, -, -, -, rfl⟩ := claimUpload_ok hClaimed
    rfl
  | completed hAttempt hCompleted =>
    obtain ⟨u, u', act, j, j', tenant, expires, state, label, version, -, -, -, -, -, rfl⟩ :=
      completeUpload_ok hCompleted
    rfl

end Cursors

/-! ## Turning the pages -/

abbrev BrowseEvent (ι ε : Type) := Machine.Event BrowseState (BrowseCall ι ε) (Result Unit)

/-- A member who has not asked for anything yet. -/
def Browse.start (host : HostState) : BrowseState :=
  { host, cursor := none, finished := false, pages := [] }

def BrowseOperation.isPage : BrowseOperation ι ε → Bool
  | .host _ => false
  | .page => true

/-- The member is current under the policy, the snapshot is not too old, and the cursor that is
drawn is a new one. -/
structure Browse.ReadsUnder (env : Env) (b : Browse) (policy : ReadPolicy) (snapshotAt : Int)
    (t : Tables) (tick : Tick) : Prop where
  actor : beginActor t b.actor = .ok ()
  policy : readPolicy env t b.actor = .ok policy
  alive : tick.now < snapshotAt + cursorMicroseconds
  fresh : t.readCursors.get? (tick.draw .readCursor) = none

/-- Until the last page was read, the member reads under one policy, and nothing is deleted or put
into quarantine. -/
def Browse.Undisturbed (env : Env) (b : Browse) (policy : ReadPolicy) (snapshotAt : Int)
    (e : BrowseEvent ι ε) : Prop :=
  e.before.finished = false →
    match e.call.operation with
    | .host _ => Spared e.before.host.store.tables.journal e.after.host.store.tables.journal
    | .page => b.ReadsUnder env policy snapshotAt e.before.host.store.tables e.call.tick

/-- The candidates of the collection at a snapshot, in order. -/
def Browse.listing (env : Env) (b : Browse) (j : Journal) : List Candidate :=
  Paging.sortRows Candidate.position
    (candidateRows env j b.kind b.query j.projections.rows.length)

/-- A page is not too long, and one with a cursor has moved on. -/
structure PageSound (limit : Nat) (page : ReadCollection × CandidateScan) : Prop where
  full : page.1.items.length ≤ limit
  bounded : page.2.scanned < scanRows + batchRows
  progress : page.1.nextCursor ≠ none → 0 < page.2.scanned

section Walk

variable {h : Host ι ν ε} {b : Browse} {policy : ReadPolicy} {limit : Nat} {queryDigest : Digest}
  {principal : Uuid} {snapshotAt : Int} {j : Journal}

/-- The pages so far show an initial part of the candidates. -/
structure Turned (env : Env) (b : Browse) (policy : ReadPolicy) (limit : Nat) (j : Journal)
    (s : BrowseState) (taken left : List Candidate) : Prop where
  split : b.listing env j = taken ++ left
  items : s.pages.flatMap (·.1.items) = taken.filterMap (policy.view env b.kind)
  sound : ∀ page ∈ s.pages, PageSound limit page

/-- The journal still has the candidates of the snapshot. -/
structure Holds (j j' : Journal) : Prop where
  filed : Filed j
  grown : Grown j j'
  spared : Spared j j'

/-- The member goes on with a cursor that was left where the pages have stopped. -/
def Turning (env : Env) (b : Browse) (limit : Nat) (queryDigest : Digest) (principal : Uuid)
    (snapshotAt : Int) (j : Journal) (s : BrowseState) (left : List Candidate) : Prop :=
  ∃ id position, s.cursor = some id.toText ∧
    s.host.store.tables.readCursors.get? id = some (b.cursorRow principal queryDigest limit
      snapshotAt j.projections.rows.length position) ∧
    Paging.rest Candidate.position (b.listing env j) (some position) = left

/-- What holds after each page. -/
def Underway (env : Env) (b : Browse) (policy : ReadPolicy) (limit : Nat) (queryDigest : Digest)
    (principal : Uuid) (snapshotAt : Int) (j : Journal) (s : BrowseState) : Prop :=
  ∃ taken left, Turned env b policy limit j s taken left ∧
    (s.finished = false → s.pages.length ≤ taken.length ∧ Holds j s.host.store.tables.journal ∧
      Turning env b limit queryDigest principal snapshotAt j s left) ∧
    (s.finished = true → left = [])

variable {bytes : Bytes} {s : BrowseState} {tick : Tick}

/-- A page takes on where the pages so far have stopped. -/
theorem Turned.page {taken left : List Candidate} {last : Option Position}
    (hTurned : Turned h.env b policy limit j s taken left)
    (hHolds : Holds j s.host.store.tables.journal) (hAccepted : b.Accepted h.env limit)
    (hBytes : h.env.canonicalBytes (b.document limit) = some bytes)
    (hPrincipal : parseUuid b.actor.principalId.text = .ok principal)
    (hGoing : s.finished = false) (hCount : s.pages.length ≤ taken.length)
    (hReads : b.ReadsUnder h.env policy snapshotAt s.host.store.tables tick)
    (hStart : (pageStart s.host.store.tables tick.now s.cursor fun c => c.usable b.actor principal
      b.kind (h.env.digestBytes bytes) limit tick.now) =
        .ok (snapshotAt, j.projections.rows.length, last))
    (hRest : Paging.rest Candidate.position (b.listing h.env j) last = left) :
    (browseStep h b s ⟨tick, .page⟩).2 = .ok () ∧
      Underway h.env b policy limit (h.env.digestBytes bytes) principal snapshotAt j
        (browseStep h b s ⟨tick, .page⟩).1 := by
  have hRows : b.listing h.env j = Paging.sortRows Candidate.position (candidateRows h.env
      s.host.store.tables.journal b.kind b.query j.projections.rows.length) := by
    rw [candidateRows_later hHolds.filed hHolds.grown hHolds.spared (Nat.le_refl _)]
    rfl
  have hNamed : ∀ c ∈ b.listing h.env j, ∃ id, Uuid.parse c.resourceId = some id := fun c hc =>
    candidateRows_named hHolds.filed (Paging.mem_sortRows.mp hc)
  obtain ⟨t', nextCursor, scan, more, left', hRead, hPage, hEnds⟩ :=
    readCollection_page hAccepted hBytes hReads.actor hReads.policy hPrincipal hReads.fresh hStart
      hRows hNamed (by rw [hRest]; exact hTurned.split)
  have hSplit : b.listing h.env j = (taken ++ more) ++ left' := by
    have hLeft : left = more ++ left' := hRest.symm.trans hPage.split
    rw [hTurned.split, hLeft, List.append_assoc]
  have hItems : scan.items = more.filterMap (policy.view h.env b.kind) := hPage.advanced.items
  have hScanned : scan.scanned = more.length := by
    rw [hPage.advanced.scanned]
    exact Nat.zero_add _
  have hOpen : (Paging.Scan.from last : CandidateScan).Open limit scanRows :=
    ⟨hAccepted.bounds.1, by show 0 < _; decide⟩
  have hStep : browseStep h b s ⟨tick, .page⟩ =
      ({ host := { s.host with store := { s.host.store with tables := t' } }
         cursor := nextCursor
         finished := nextCursor.isNone
         pages := s.pages ++ [(shownPage scan snapshotAt nextCursor, scan)] }, .ok ()) := by
    simp only [browseStep, hGoing, Bool.false_eq_true, if_false, hRead]
    rfl
  have hTurned' : Turned h.env b policy limit j (browseStep h b s ⟨tick, .page⟩).1
      (taken ++ more) left' := by
    rw [hStep]
    refine ⟨hSplit, ?_, fun page hMem => ?_⟩
    · rw [List.flatMap_append, hTurned.items, List.filterMap_append, ← hItems]
      simp only [List.flatMap_singleton, shownPage]
    · rcases List.mem_append.mp hMem with hOld | hNew
      · exact hTurned.sound page hOld
      · rw [List.mem_singleton.mp hNew]
        refine ⟨hPage.advanced.full, hPage.bounded, fun hCursor => ?_⟩
        rcases hEnds with ⟨-, hNone, -⟩ | ⟨position, readCursors, hLeft, -⟩
        · exact absurd hNone hCursor
        · rw [hScanned]
          exact List.length_pos_iff.mpr (hPage.progress hOpen hLeft)
  refine ⟨by rw [hStep], taken ++ more, left', hTurned', ?_, ?_⟩
  · rw [hStep]
    intro hOn
    rcases hEnds with ⟨-, rfl, -⟩ | ⟨position, readCursors, hLeft, hLast, rfl, rfl, hInsert⟩
    · cases hOn
    · have hMore := List.length_pos_iff.mpr (hPage.progress hOpen hLeft)
      refine ⟨?_, hHolds, tick.draw .readCursor, position, rfl, Table.insert?_get?_self hInsert, ?_⟩
      · rw [List.length_append, List.length_append, List.length_singleton]
        omega
      · rw [← hLast]
        exact hPage.left_eq
  · rw [hStep]
    intro hEnd
    rcases hEnds with ⟨hNone, -, -⟩ | ⟨position, readCursors, -, -, rfl, -, -⟩
    · exact hNone
    · cases hEnd

theorem Underway.step {c : BrowseCall ι ε} (hAccepted : b.Accepted h.env limit)
    (hBytes : h.env.canonicalBytes (b.document limit) = some bytes)
    (hPrincipal : parseUuid b.actor.principalId.text = .ok principal)
    (hUnderway : Underway h.env b policy limit (h.env.digestBytes bytes) principal snapshotAt j s)
    (hQuiet : b.Undisturbed h.env policy snapshotAt (Machine.eventAt (browseStep h b) s c)) :
    (browseStep h b s c).2 = .ok () ∧
      Underway h.env b policy limit (h.env.digestBytes bytes) principal snapshotAt j
        (browseStep h b s c).1 := by
  obtain ⟨taken, left, hTurned, hOn, hEnd⟩ := hUnderway
  obtain ⟨tick, operation⟩ := c
  cases operation with
  | host operation =>
    refine ⟨rfl, taken, left, ⟨hTurned.split, hTurned.items, hTurned.sound⟩, fun hGoing => ?_, hEnd⟩
    obtain ⟨hCount, hHolds, id, position, hCursor, hRow, hRest⟩ := hOn hGoing
    have hSpared : Spared s.host.store.tables.journal
      (hostStep h s.host ⟨tick, operation⟩).1.store.tables.journal := hQuiet hGoing
    have hHolds' : Holds j (hostStep h s.host ⟨tick, operation⟩).1.store.tables.journal :=
      ⟨hHolds.filed, hHolds.grown.trans (hostStep_grown h s.host ⟨tick, operation⟩),
        hHolds.spared.trans hSpared⟩
    refine ⟨hCount, hHolds', id, position, hCursor, ?_, hRest⟩
    show (hostStep h s.host ⟨tick, operation⟩).1.store.tables.readCursors.get? id = _
    rw [hostStep_readCursors]
    exact hRow
  | page =>
    cases hGoing : s.finished with
    | true =>
      have hStep : browseStep h b s ⟨tick, .page⟩ = (s, .ok ()) := by
        simp only [browseStep, hGoing, if_true]
      rw [hStep]
      exact ⟨rfl, taken, left, hTurned, hOn, hEnd⟩
    | false =>
      obtain ⟨hCount, hHolds, id, position, hCursor, hRow, hRest⟩ := hOn hGoing
      have hReads : b.ReadsUnder h.env policy snapshotAt s.host.store.tables tick := hQuiet hGoing
      have hStart : (pageStart s.host.store.tables tick.now s.cursor fun c => c.usable b.actor
          principal b.kind (h.env.digestBytes bytes) limit tick.now) =
            .ok (snapshotAt, j.projections.rows.length, some position) := by
        rw [hCursor]
        exact pageStart_cursor hRow hReads.alive
      exact hTurned.page hHolds hAccepted hBytes hPrincipal hGoing hCount hReads hStart hRest

end Walk

section Run

variable {h : Host ι ν ε} {b : Browse}

/-- Every page that was asked for has come. -/
theorem pages_counted (host : HostState) (calls : List (BrowseCall ι ε)) :
    (∀ e ∈ Machine.trace (browseStep h b) (Browse.start host) calls, e.response = .ok ()) →
      (Machine.run (browseStep h b) (Browse.start host) calls).finished = false →
      (Machine.run (browseStep h b) (Browse.start host) calls).pages.length =
        calls.countP (·.operation.isPage) := by
  induction calls using List.reverseRecOn with
  | nil => exact fun _ _ => rfl
  | append_singleton calls c ih =>
    rw [Machine.trace_concat, Machine.run_concat, List.countP_append]
    generalize Machine.run (browseStep h b) (Browse.start host) calls = s at ih ⊢
    intro hAnswers hGoing
    have hOld := ih fun e he => hAnswers e (List.mem_append_left _ he)
    have hAnswer : (browseStep h b s c).2 = .ok () :=
      hAnswers _ (List.mem_append_right _ List.mem_cons_self)
    obtain ⟨tick, operation⟩ := c
    cases operation with
    | host operation => exact hOld hGoing
    | page =>
      cases hFinished : s.finished with
      | true =>
        simp only [browseStep, hFinished, if_true] at hGoing
        cases hGoing
      | false =>
        simp only [browseStep, hFinished, Bool.false_eq_true, if_false] at hAnswer hGoing ⊢
        split at hAnswer
        · cases hAnswer
        · simp only [List.length_append, hOld hFinished]
          rfl

theorem Filed.run {s : HostState} (hFiled : Filed s.store.tables.journal)
    (calls : List (HostCall ι ε)) :
    Filed (Machine.run (hostStep h) s calls).store.tables.journal :=
  Machine.run_invariant (hostStep h) (I := fun s => Filed s.store.tables.journal)
    (fun _ _ hOld => hOld.step) hFiled calls

/-- The first page starts at a snapshot of its own. -/
theorem first_page {policy : ReadPolicy} {limit : Nat} {bytes : Bytes} {principal : Uuid}
    {host : HostState} {first : Tick} (hFiled : Filed host.store.tables.journal)
    (hAccepted : b.Accepted h.env limit)
    (hBytes : h.env.canonicalBytes (b.document limit) = some bytes)
    (hPrincipal : parseUuid b.actor.principalId.text = .ok principal)
    (hReads : b.ReadsUnder h.env policy first.now host.store.tables first) :
    (browseStep h b (Browse.start host) ⟨first, .page⟩).2 = .ok () ∧
      Underway h.env b policy limit (h.env.digestBytes bytes) principal first.now
        host.store.tables.journal (browseStep h b (Browse.start host) ⟨first, .page⟩).1 := by
  have hTurned : Turned h.env b policy limit host.store.tables.journal (Browse.start host) []
      (b.listing h.env host.store.tables.journal) :=
    ⟨rfl, rfl, fun page hMem => absurd hMem List.not_mem_nil⟩
  exact hTurned.page ⟨hFiled, .refl _, .refl _⟩ hAccepted hBytes hPrincipal rfl (Nat.zero_le _)
    hReads rfl rfl

theorem length_listing (env : Env) (j : Journal) :
    (b.listing env j).length ≤ j.projections.rows.length := by
  have hSorted : (b.listing env j).length =
      (candidateRows env j b.kind b.query j.projections.rows.length).length :=
    (List.perm_insertionSort _ _).length_eq
  rw [hSorted, candidateRows, latestRows, List.take_length]
  exact (List.length_filterMap_le _ _).trans
    ((List.length_filter_le _ _).trans (List.length_filter_le _ _))

/-- A member who follows the cursors while nothing is deleted or put into quarantine sees the
resources of the snapshot that the policy permits, each once and in order, in pages that are not too
long; after as many pages as there are projections the last one was read. -/
theorem snapshot_pages (h : Host ι ν ε) (b : Browse) (limit : Nat) (policy : ReadPolicy)
    (s₀ : HostState) (earlier : List (HostCall ι ε)) (first : Tick)
    (calls : List (BrowseCall ι ε)) (hFiled : Filed s₀.store.tables.journal)
    (hAccepted : b.Accepted h.env limit)
    (hQuiet : ∀ e ∈ Machine.trace (browseStep h b)
      (Browse.start (Machine.run (hostStep h) s₀ earlier)) (⟨first, .page⟩ :: calls),
      b.Undisturbed h.env policy first.now e) :
    let host := Machine.run (hostStep h) s₀ earlier
    let trace := Machine.trace (browseStep h b) (Browse.start host) (⟨first, .page⟩ :: calls)
    let s := Machine.run (browseStep h b) (Browse.start host) (⟨first, .page⟩ :: calls)
    (∀ e ∈ trace, e.response = .ok ()) ∧ (∀ page ∈ s.pages, PageSound limit page) ∧
      (host.store.tables.journal.projections.rows.length ≤ calls.countP (·.operation.isPage) →
        s.finished = true) ∧
      ∃ shown hidden : List Candidate, Paging.Ordered Candidate.position (shown ++ hidden) ∧
        (∀ c, c ∈ shown ++ hidden ↔ Listed h.env host.store.tables.journal b.kind b.query c ∧
          policy.shows h.env b.kind c = true) ∧
        List.Forall₂ (Candidate.ShownAs b.kind) shown (s.pages.flatMap (·.1.items)) ∧
        (s.finished = true → hidden = []) := by
  intro host trace s
  have hHost : Filed host.store.tables.journal := hFiled.run earlier
  have hFirst : b.ReadsUnder h.env policy first.now host.store.tables first :=
    hQuiet _ List.mem_cons_self rfl
  obtain ⟨-, principal, membership, row, hPrincipal, -⟩ := beginActor_ok hFirst.actor
  obtain ⟨bytes, hBytes⟩ := hAccepted.document
  obtain ⟨hAnswer, hStarted⟩ := first_page hHost hAccepted hBytes hPrincipal hFirst
  have hRest : ∀ e ∈ Machine.trace (browseStep h b)
      (browseStep h b (Browse.start host) ⟨first, .page⟩).1 calls,
      b.Undisturbed h.env policy first.now e := fun e he => hQuiet e (List.mem_cons_of_mem _ he)
  have hKeeps : ∀ s c, Underway h.env b policy limit (h.env.digestBytes bytes) principal first.now
      host.store.tables.journal s →
      b.Undisturbed h.env policy first.now (Machine.eventAt (browseStep h b) s c) →
      Underway h.env b policy limit (h.env.digestBytes bytes) principal first.now
        host.store.tables.journal (browseStep h b s c).1 := fun s c hOld hEvent =>
    (hOld.step hAccepted hBytes hPrincipal hEvent).2
  have hAnswers : ∀ e ∈ trace, e.response = .ok () := by
    intro e he
    rcases List.mem_cons.mp he with rfl | he
    · exact hAnswer
    · obtain ⟨hBefore, -⟩ := Machine.trace_invariant_of (browseStep h b) hKeeps hStarted hRest e he
      have hEvent := hRest e he
      obtain ⟨before, after, -, hAt⟩ := Machine.mem_trace (browseStep h b) he
      rw [hAt] at hBefore hEvent ⊢
      exact (hBefore.step hAccepted hBytes hPrincipal hEvent).1
  obtain ⟨taken, left, hTurned, hOn, hEnd⟩ :=
    Machine.run_invariant_of (browseStep h b) hKeeps hStarted hRest
  have hOrdered : Paging.Ordered Candidate.position (b.listing h.env host.store.tables.journal) :=
    Paging.ordered_sortRows (candidateRows_distinct _)
  refine ⟨hAnswers, hTurned.sound, fun hMany => ?_, taken.filter (policy.shows h.env b.kind),
    left.filter (policy.shows h.env b.kind), ?_, fun c => ?_, ?_, fun hOver => ?_⟩
  · by_contra hGoing
    have hGoing : s.finished = false := Bool.eq_false_of_not_eq_true hGoing
    have hPages := pages_counted host _ hAnswers hGoing
    have hCount := (hOn hGoing).1
    have hSplit := congrArg List.length hTurned.split
    have hLength := length_listing (b := b) h.env host.store.tables.journal
    rw [List.length_append] at hSplit
    rw [List.countP_cons_of_pos rfl] at hPages
    change s.pages.length ≤ _ at hCount
    change s.pages.length = _ at hPages
    omega
  · rw [← List.filter_append, ← hTurned.split]
    exact List.Pairwise.sublist List.filter_sublist hOrdered
  · rw [← List.filter_append, ← hTurned.split, List.mem_filter]
    exact and_congr_left fun _ => Paging.mem_sortRows.trans mem_candidateRows
  · have hItems : s.pages.flatMap (·.1.items) = taken.filterMap (policy.view h.env b.kind) :=
      hTurned.items
    have hNamed : ∀ c ∈ taken, ∃ id, Uuid.parse c.resourceId = some id := by
      intro c hc
      have hMem : c ∈ b.listing h.env host.store.tables.journal := by
        rw [hTurned.split]
        exact List.mem_append_left _ hc
      exact candidateRows_named hHost (Paging.mem_sortRows.mp hMem)
    rw [hItems]
    exact filterMap_view hNamed
  · rw [hEnd hOver]
    rfl

end Run

/-- Reading a page leaves everything but the cursors alone. -/
theorem browseStep_identity (h : Host ι ν ε) (b : Browse) (s : BrowseState) (tick : Tick) :
    (browseStep h b s ⟨tick, .page⟩).1.host.store.tables.identity =
      s.host.store.tables.identity := by
  simp only [browseStep]
  split
  · rfl
  · split
    · rfl
    · rename_i tables collection scan hRead
      simp only [readCollection, bind_eq_ok] at hRead
      obtain ⟨_, -, limit, -, _, -, bytes, -, _, -, policy, -, principal, -, from', -, scan', -,
        hEnd⟩ := hRead
      split at hEnd
      · simp only [bind_eq_ok, pure_eq_ok, Prod.mk.injEq] at hEnd
        obtain ⟨position, -, readCursors, -, rfl, -⟩ := hEnd
        rfl
      · obtain ⟨rfl, -⟩ := Prod.mk.inj (Except.ok.inj hEnd)
        rfl

/-! ## A collection of two -/

namespace Sample

/-- The office with two connections to read. -/
def archive : HostState :=
  { office with
    store := { office.store with
      tables := { office.store.tables with
        journal := { office.store.tables.journal with
          projections := ⟨[(projectionOf "Connection" connectionId, projection 11 .null),
            (projectionOf "Connection" grantId, projection 12 .null)], by decide⟩ } } } }

/-- They are asked for one by one. -/
def browse : Browse := { actor, kind := "Connection", q := none, limit := some 1 }

def pageCall (n : Nat) : BrowseCall Empty Empty := ⟨reading n, .page⟩

theorem archive_filed : Filed archive.store.tables.journal := by
  refine ⟨fun k p hp => ?_, fun k p hp => ?_⟩
  all_goals
    have hMem : (k, p) ∈ archive.store.tables.journal.projections.rows :=
      Table.get?_eq_some_iff.mp hp
    simp only [archive, List.mem_cons, List.not_mem_nil, or_false, Prod.mk.injEq] at hMem
    obtain ⟨rfl, rfl⟩ | ⟨rfl, rfl⟩ := hMem
  · exact ⟨connectionId, Uuid.parse_toText _⟩
  · exact ⟨grantId, Uuid.parse_toText _⟩
  · exact ⟨artifact [5] "connection", rfl, by decide⟩
  · exact ⟨artifact [6] "grant", rfl, by decide⟩

/-- Both pages were read. -/
abbrev browsed : BrowseState :=
  Machine.run (browseStep host browse) (Browse.start archive) [pageCall 1, pageCall 2]

theorem archive_facts :
    ((beginActor archive.store.tables actor).isOk = true ∧
      (readPolicy env archive.store.tables actor).isOk = true) ∧
    ((browseStep host browse (Browse.start archive)
      (pageCall 1)).1.host.store.tables.readCursors.get? ((reading 2).draw .readCursor)).isNone =
        true ∧
    browsed.finished = true ∧ browsed.pages.map (fun page => page.1.items.length) = [1, 1] := by
  delta browsed browseStep
  rw [hostStep_bytewise, Sample.host_bytewise]
  decide +kernel

/-- The member stays current while only pages are read. -/
theorem browse_reads {t : Tables} {policy : ReadPolicy} {n : Nat}
    (hIdentity : t.identity = archive.store.tables.identity)
    (hPolicy : readPolicy env archive.store.tables actor = .ok policy)
    (hFresh : t.readCursors.get? ((reading n).draw .readCursor) = none)
    (hAlive : (reading n).now < (reading 1).now + cursorMicroseconds) :
    browse.ReadsUnder host.env policy (reading 1).now t (reading n) := by
  refine ⟨?_, ?_, hAlive, hFresh⟩
  · have hActor : beginActor t actor = beginActor archive.store.tables actor := by
      unfold beginActor
      rw [hIdentity]
    exact hActor.trans (eq_ok_of_isOk archive_facts.1.1)
  · have hSame : readPolicy env t actor = readPolicy env archive.store.tables actor := by
      unfold readPolicy currentPolicy
      rw [hIdentity]
    exact hSame.trans hPolicy

end Sample

theorem archive_pages :
    ∃ policy shown, readPolicy Sample.env Sample.archive.store.tables Sample.actor = .ok policy ∧
      Paging.Ordered Candidate.position shown ∧
      (∀ c, c ∈ shown ↔
        Listed Sample.host.env Sample.archive.store.tables.journal "Connection"
          Sample.browse.query c ∧ policy.shows Sample.host.env "Connection" c = true) ∧
      List.Forall₂ (Candidate.ShownAs "Connection") shown
        (Sample.browsed.pages.flatMap (·.1.items)) := by
  obtain ⟨⟨-, hRead⟩, hFresh, hFinished, -⟩ := Sample.archive_facts
  obtain ⟨policy, hPolicy⟩ : ∃ policy,
      readPolicy Sample.env Sample.archive.store.tables Sample.actor = .ok policy := by
    cases hFound : readPolicy Sample.env Sample.archive.store.tables Sample.actor with
    | ok policy => exact ⟨policy, rfl⟩
    | error failure =>
      rw [hFound] at hRead
      cases hRead
  have hAccepted : Sample.browse.Accepted Sample.host.env 1 :=
    ⟨by decide, rfl, by decide, by decide, _, rfl⟩
  have hQuiet : ∀ e ∈ Machine.trace (browseStep Sample.host Sample.browse)
      (Browse.start Sample.archive) [Sample.pageCall 1, Sample.pageCall 2],
      Sample.browse.Undisturbed Sample.host.env policy (Sample.reading 1).now e := by
    intro e he
    rcases List.mem_cons.mp he with rfl | he
    · exact fun _ => Sample.browse_reads rfl hPolicy rfl (by decide)
    · rw [List.mem_singleton.mp he]
      exact fun _ => Sample.browse_reads (browseStep_identity _ _ _ _) hPolicy
        (Option.isNone_iff_eq_none.mp hFresh) (by decide)
  obtain ⟨-, -, -, shown, hidden, hOrdered, hMem, hShown, hEnd⟩ :=
    snapshot_pages Sample.host Sample.browse 1 policy Sample.archive [] (Sample.reading 1)
      [Sample.pageCall 2] Sample.archive_filed hAccepted hQuiet
  obtain rfl := hEnd hFinished
  rw [List.append_nil] at hOrdered hMem
  exact ⟨policy, shown, hPolicy, hOrdered, hMem, hShown⟩

end Masonwing
