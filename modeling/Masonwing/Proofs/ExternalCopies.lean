import Masonwing.Proofs.DeletionClosure
import Masonwing.Proofs.Evaluation

/-!
# External copies of what is deleted

A deletion asks whether an effect may have carried one of the artifacts out of the tenant. The
content of an effect is stored as the client spelled it, and compared with the canonical text of
each identifier: the state of the request is right if, where there is such an effect at all, there
is one that spells its content canonically (`external_copies_iff`).
-/

namespace Masonwing

open Outcome

variable {ι ν ε : Type}

/-- The states in which the content of an effect may be outside. -/
def transmittedStates : List EffectState :=
  [.executing, .succeeded, .outcomeUnknown, .reconciling, .manualReview]

/-- The effect may have carried out an artifact derived from the target. -/
structure CarriedOut (t : Tables) (target artifact : Uuid) (e : EffectRow) : Prop where
  stored : ∃ id, t.effects.get? id = some e
  state : e.state ∈ transmittedStates
  content : Uuid.parse e.contentRef.artifactId.text = some artifact
  derived : Derivation.Derives t.journal.lineage target artifact

theorem transmitted_iff {state : EffectState} :
    (state.unresolved || decide (state = .succeeded)) = true ↔ state ∈ transmittedStates := by
  cases state <;> decide

/-- The query finds what is spelled canonically. -/
theorem externalCopy_iff {t : Tables} {target : Uuid} :
    externalCopy t (affectedArtifacts t.journal.lineage target) = true ↔
      ∃ k e, CarriedOut t target k e ∧ e.contentRef.artifactId.text = k.toText := by
  unfold externalCopy
  rw [Table.any_iff]
  simp only [Bool.and_eq_true, List.contains_iff_mem, List.mem_map, mem_affectedArtifacts,
    transmitted_iff]
  constructor
  · rintro ⟨id, e, he, ⟨k, hDerived, hText⟩, hState⟩
    refine ⟨k, e, ⟨⟨id, he⟩, hState, ?_, hDerived⟩, hText.symm⟩
    rw [← hText, Uuid.parse_toText]
  · rintro ⟨k, e, ⟨⟨id, he⟩, hState, -, hDerived⟩, hText⟩
    exact ⟨id, e, he, ⟨k, hDerived, hText.symm⟩, hState⟩

/-- What a deletion that commits has done to the tables. -/
theorem hostStep_deletes {h : Host ι ν ε} {s : HostState} {tick : Tick}
    {c : Command (PlatformInput ι)} {receipt : CommandReceipt}
    {target : ResourceRef} {reason confirmation : String}
    (hInput : c.input = .deletionRequest target reason confirmation)
    (hReply : (hostStep h s ⟨tick, .platform (.command c)⟩).2 =
      .ok (.platform (.core (.answer (.committed receipt))))) :
    ∃ t m, requestDeletion h.platform.env tick s.store.tables c.actor target reason confirmation =
        .ok (t, m) ∧
      (hostStep h s ⟨tick, .platform (.command c)⟩).1.store.tables.deletionRequests =
        t.deletionRequests := by
  rw [hostStep] at hReply ⊢
  rcases transact_cases s (runHostOperation h tick s (.platform (.command c))) with
    ⟨s', reply, hRun, hAfter⟩ | ⟨e, -, hFailed⟩
  · rw [hAfter] at hReply ⊢
    cases hReply
    simp only [runHostOperation, runPlatformOperation, bind_eq_ok, pure_eq_ok, Prod.exists,
      Prod.mk.injEq] at hRun
    obtain ⟨store, reply, ⟨store', a, hExecute, hStore, hCore⟩, rfl, hPlatform⟩ := hRun
    subst hStore hCore
    cases hPlatform
    obtain ⟨principal, -, ⟨row, -, -, -, hReplay⟩ | ⟨-, t, m, r, hCommitted, hAnswer⟩⟩ :=
      execute_ok hExecute
    · cases hReplay
    · have hHandled := hCommitted.handled
      simp only [Platform.service, Platform.dispatch, hInput] at hHandled
      exact ⟨t, m, hHandled, by rw [hCommitted.tables]⟩
  · rw [hFailed] at hReply
    cases hReply

theorem external_copies_iff (h : Host ι ν ε) (s : HostState) (calls : List (HostCall ι ε))
    (e : HostEvent ι ε) (he : e ∈ Machine.trace (hostStep h) s calls)
    (c : Command (PlatformInput ι)) (hCall : e.call.operation = .platform (.command c))
    {target : ResourceRef} {reason confirmation : String}
    (hInput : c.input = .deletionRequest target reason confirmation) {receipt : CommandReceipt}
    (hReply : e.response = .ok (.platform (.core (.answer (.committed receipt))))) :
    ∃ id row, Uuid.parse target.resourceId.text = some id ∧
      e.after.store.tables.deletionRequests.get? (e.call.tick.draw .deletionRequest) = some row ∧
      (((∃ k f, CarriedOut e.before.store.tables id k f) → row.state = .pendingExternal) ∧
          (¬ (∃ k f, CarriedOut e.before.store.tables id k f) → row.state = .purgePending) ↔
        ((∃ k f, CarriedOut e.before.store.tables id k f) →
          ∃ k f, CarriedOut e.before.store.tables id k f ∧
            f.contentRef.artifactId.text = k.toText)) := by
  obtain ⟨before, after, -, hEvent⟩ := Machine.mem_trace (hostStep h) he
  obtain ⟨state, ⟨tick, operation⟩, response, next⟩ := e
  dsimp only at hCall hReply hEvent ⊢
  subst hCall
  cases hEvent
  obtain ⟨t, m, hRequest, hTable⟩ := hostStep_deletes hInput hReply
  rw [hTable]
  simp only [requestDeletion, bind_eq_ok, okOr_eq_ok, sql_eq_ok, insertRow_eq_ok, pure_eq_ok,
    parseUuid_eq_ok, require_eq_ok, Prod.mk.injEq, exists_const] at hRequest
  obtain ⟨-, -, id, hId, a, -, -, -, -, policy, -, -, requestedBy, -, artifacts, -, rights,
    -, requests, hRequests, rfl, -⟩ := hRequest
  refine ⟨id, _, hId, Table.insert?_get?_self hRequests, ?_⟩
  dsimp only
  rw [← externalCopy_iff]
  constructor
  · rintro ⟨hPending, -⟩ hCarried
    have hState := hPending hCarried
    split at hState
    · assumption
    · cases hState
  · intro hFound
    constructor
    · intro hCarried
      exact if_pos (hFound hCarried)
    · intro hNone
      refine if_neg fun hCopy => hNone ?_
      obtain ⟨k, f, hCarried, -⟩ := externalCopy_iff.mp hCopy
      exact ⟨k, f, hCarried⟩

namespace Sample

/-- The reference to the content with the hyphens of its identifier left out. -/
def respelledRef : ArtifactRef :=
  { contentRef with artifactId := ⟨"00000000000000000000000000000007", by decide⟩ }

/-- An effect with this content is proposed and transmitted. -/
def transmitted (ref : ArtifactRef) : List (HostCall Empty Empty) :=
  [officeStart,
    onPlatform (coreCall (command 2
      (.effectPropose "mail.send" connectionId.toText target ref grantId.toText "1.0.0"))),
    onPlatform (coreCall (dispatch 3 (effectOf 2) 1))]

/-- Then the content is deleted. -/
def deletionEvent (ref : ArtifactRef) : HostEvent Empty Empty :=
  Machine.eventAt (hostStep host) (fromOffice (transmitted ref)) (deleteCall 4 contentId .one)

def committedReceipt? : Result HostReply → Option CommandReceipt
  | .ok (.platform (.core (.answer (.committed receipt)))) => some receipt
  | _ => none

theorem eq_of_committedReceipt? {reply : Result HostReply} {receipt : CommandReceipt}
    (h : committedReceipt? reply = some receipt) :
    reply = .ok (.platform (.core (.answer (.committed receipt)))) := by
  unfold committedReceipt? at h
  split at h
  · rw [Option.some.inj h]
  · cases h

theorem deletionEvent_mem (ref : ArtifactRef) :
    deletionEvent ref ∈ Machine.trace (hostStep host) office
      (transmitted ref ++ [deleteCall 4 contentId .one]) := by
  rw [Machine.trace_concat]
  exact List.mem_append_right _ List.mem_cons_self

end Sample

theorem respelled_content_missed :
    Sample.deletionEvent Sample.respelledRef ∈ Machine.trace (hostStep Sample.host) Sample.office
        (Sample.transmitted Sample.respelledRef ++ [Sample.deleteCall 4 Sample.contentId .one]) ∧
      (∃ receipt, (Sample.deletionEvent Sample.respelledRef).response =
        .ok (.platform (.core (.answer (.committed receipt))))) ∧
      (∃ k f, CarriedOut (Sample.deletionEvent Sample.respelledRef).before.store.tables
        Sample.contentId k f) ∧
      ∃ row, (Sample.deletionEvent Sample.respelledRef).after.store.tables.deletionRequests.get?
        ((Sample.tick 4).draw .deletionRequest) = some row ∧ row.state = .purgePending := by
  have hRun : ((Sample.committedReceipt?
        (Sample.deletionEvent Sample.respelledRef).response).isSome = true ∧
      ((Sample.deletionEvent Sample.respelledRef).before.store.tables.effects.get?
        (Sample.effectOf 2)).map (fun f => (f.state, Uuid.parse f.contentRef.artifactId.text)) =
          some (.executing, some Sample.contentId)) ∧
      ((Sample.deletionEvent Sample.respelledRef).after.store.tables.deletionRequests.get?
        ((Sample.tick 4).draw .deletionRequest)).map (·.state) = some .purgePending := by
    simp only [Sample.deletionEvent, Sample.fromOffice, hostStep_bytewise, Sample.host_bytewise]
    decide +kernel
  obtain ⟨⟨hReceipt, hEffect⟩, hRow⟩ := hRun
  obtain ⟨receipt, hReceipt⟩ := Option.isSome_iff_exists.mp hReceipt
  obtain ⟨f, hf, hBoth⟩ := Option.map_eq_some_iff.mp hEffect
  obtain ⟨hState, hContent⟩ := Prod.mk.inj hBoth
  refine ⟨Sample.deletionEvent_mem _, ⟨receipt, Sample.eq_of_committedReceipt? hReceipt⟩,
    ⟨Sample.contentId, f, ⟨_, hf⟩, ?_, hContent, .refl⟩, Option.map_eq_some_iff.mp hRow⟩
  rw [hState]
  decide

theorem spelled_content_found :
    ∃ id row, Uuid.parse (resourceRef "Artifact" Sample.contentId .one).resourceId.text = some id ∧
      (Sample.deletionEvent Sample.contentRef).after.store.tables.deletionRequests.get?
        ((Sample.tick 4).draw .deletionRequest) = some row ∧
      (((∃ k f, CarriedOut (Sample.deletionEvent Sample.contentRef).before.store.tables id k f) →
            row.state = .pendingExternal) ∧
          (¬ (∃ k f, CarriedOut (Sample.deletionEvent Sample.contentRef).before.store.tables
            id k f) → row.state = .purgePending) ↔
        ((∃ k f, CarriedOut (Sample.deletionEvent Sample.contentRef).before.store.tables id k f) →
          ∃ k f, CarriedOut (Sample.deletionEvent Sample.contentRef).before.store.tables id k f ∧
            f.contentRef.artifactId.text = k.toText)) := by
  have hRun : (Sample.committedReceipt?
      (Sample.deletionEvent Sample.contentRef).response).isSome = true := by
    simp only [Sample.deletionEvent, Sample.fromOffice, hostStep_bytewise, Sample.host_bytewise]
    decide +kernel
  obtain ⟨receipt, hReceipt⟩ := Option.isSome_iff_exists.mp hRun
  exact external_copies_iff Sample.host Sample.office _ _ (Sample.deletionEvent_mem _)
    { actor := Sample.actor
      input := .deletionRequest (resourceRef "Artifact" Sample.contentId .one)
        "not needed any more" ("DELETE " ++ Sample.contentId.toText)
      idempotencyKey := (Sample.uuid 4).toId, fingerprint := Sample.digest [] }
    rfl rfl (Sample.eq_of_committedReceipt? hReceipt)

end Masonwing
