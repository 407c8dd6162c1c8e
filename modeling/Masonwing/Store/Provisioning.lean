import Masonwing.Store.Authority

/-!
# Providers, connectors, dead letters and the catalogue

The handlers of `administration.rs` that the commands of the host add: `provider.configure` and
`provider.compact`, `connection.authorize`, `deadletter.replay`, `catalog.submit` and
`catalog.review`.
-/

namespace Masonwing

open Outcome

/-- A string field of a document. -/
def Json.text? (v : Json) (field : String) : Option String := (v.get? field).bind Json.str?

/-! ## Providers -/

/-- `configure_provider`; a live provider is refused, and so is one that comes with its own
qualification. -/
def configureProvider (tick : Tick) (t : Tables) (profile : Json) (qualification : Option Json) :
    Result (Tables × Mutation) := do
  require (profile.text? "live_status" = some "DISABLED") (.precondition "LIVE_PROVIDER_DISABLED")
  require (qualification.isNone = true) (.precondition "QUALIFICATION_REVIEW_REQUIRED")
  let id := tick.draw .providerProfile
  let profileId ← okOr (profile.text? "id") (.invalid "SCHEMA_INVALID")
  require (t.providerProfiles.any (fun _ p => decide (p.profileId = profileId)) = false)
    (databaseFailure .uniqueViolation)
  let providerProfiles ← sql (insertRow t.providerProfiles id { profileId, version := .one })
  return ({ t with providerProfiles }, .one "ProviderProfile" id .one profile profileId)

/-- `compact_provider`: the row advances by one, the version that is reported by one more. -/
def compactProvider (t : Tables) (conversationId profileId : String) (expectedVersion : Int) :
    Result (Tables × Mutation) := do
  let (id, p) ← okOr (t.providerProfiles.find? fun _ p => decide (p.profileId = profileId))
    .notFound
  let version ← requireExpectedVersion p.version expectedVersion
  let newVersion ← version.bump
  return ({ t with providerProfiles := t.providerProfiles.set id { p with version } },
    .one "ProviderCompact" id newVersion
      (.obj [("conversation_id", .str conversationId), ("profile_id", .str profileId),
        ("version", .num newVersion.val)]) ("Compact " ++ conversationId))

/-! ## Connectors -/

def hourMicroseconds : Int := 3600000000

/-- `INSERT INTO connections ... ON CONFLICT DO NOTHING`. -/
def seedConnection (connections : Table Uuid ConnectionRow) (id : Uuid) (provider : String)
    (scopes : List String) : Table Uuid ConnectionRow :=
  (connections.insert? id
    { provider, externalAccount := "synthetic/" ++ id.toText, scopes
      secretRef := "synthetic/secret", state := .pending, contractVersion := "1.0.0"
      capabilities := [], verifiedAt := none, version := .one }).getD connections

/-- The connection is stored as pending; only the authorization is shown. -/
def authorizeConnection (env : Env) (tick : Tick) (t : Tables) (actor : CommandActor)
    (provider : String) (scopes : List String) (returnTo : String) :
    Result (Tables × Mutation) := do
  let principalId ← parseUuid actor.principalId.text
  let connectionId := tick.draw .connection
  let id := tick.draw .connectorAuthorization
  let stateDigest : Digest := ⟨id.bits.setWidth 256⟩
  let authorizationUrl := "https://local-auth.example.test/authorize?state=" ++ id.toText
  let expiresAt := tick.now + hourMicroseconds
  require (t.connectorAuthorizations.any (fun _ a => decide (a.stateDigest = stateDigest)) = false)
    (databaseFailure .uniqueViolation)
  let connectorAuthorizations ← sql (insertRow t.connectorAuthorizations id
    { principalId, connectionId, stateDigest, authorizationUrl, returnTo
      secretRef := "synthetic/secret", requestedScopes := scopes, state := .pending, expiresAt })
  return ({ t with
      connections := seedConnection t.connections connectionId provider scopes
      connectorAuthorizations },
    .one "ConnectorAuthorization" id .one
      (.obj [("authorization_id", .str id.toText), ("tenant_id", .str t.identity.tenantId.toText),
        ("connection_id", .str connectionId.toText), ("authorization_url", .str authorizationUrl),
        ("return_to", .str returnTo), ("expires_at", .str (env.timestamp expiresAt)),
        ("state", .str "PENDING")]) ("Authorize " ++ provider))

/-! ## Dead letters -/

/-- `replay_deadletter`: the event is pending again, its attempts stay counted. -/
def replayDeadletter (t : Tables) (eventId reason : String) : Result (Tables × Mutation) := do
  let id ← parseUuid eventId
  let o ← okOr ((t.journal.outbox.get? id).filter fun o =>
    decide (o.deliveryStatus = .deadLetter)) .notFound
  let o' : OutboxRow := { o with deliveryStatus := .pending, leaseExpiresAt := none }
  return ({ t with journal := { t.journal with outbox := t.journal.outbox.set id o' } },
    .one "DeadletterReplay" id .one
      (.obj [("event_id", .str id.toText), ("reason", .str reason), ("version", .num 1)])
      ("Replay " ++ id.toText))

/-! ## The catalogue -/

def submitCatalog (tick : Tick) (t : Tables) (actor : CommandActor) (manifest : Json)
    (supportContact description : String) : Result (Tables × Mutation) := do
  let publisherId ← okOr (manifest.text? "publisher_id") (.invalid "SCHEMA_INVALID")
  let pluginId ← okOr (manifest.text? "id") (.invalid "SCHEMA_INVALID")
  let artifactDigest ← okOr (manifest.text? "artifact_digest") (.invalid "SCHEMA_INVALID")
  let id := tick.draw .catalogListing
  let _ ← parseUuid actor.principalId.text
  require (t.catalogListings.any (fun _ l =>
    decide (l.pluginId = pluginId ∧ l.artifactDigest = artifactDigest)) = false)
    (databaseFailure .uniqueViolation)
  let catalogListings ← sql (insertRow t.catalogListings id
    { pluginId, artifactDigest, reviewedBy := none, evidenceRef := none, state := .pending
      version := .one })
  return ({ t with catalogListings },
    .one "CatalogListing" id .one
      (.obj [("listing_id", .str id.toText), ("tenant_id", .str t.identity.tenantId.toText),
        ("publisher_id", .str publisherId), ("plugin_id", .str pluginId),
        ("artifact_digest", .str artifactDigest), ("manifest", manifest),
        ("support_contact", .str supportContact), ("description", .str description),
        ("submitted_by", .str actor.principalId.text), ("state", .str "PENDING"),
        ("version", .num 1)]) ("Submit " ++ pluginId))

def reviewState : String → Result ListingState
  | "APPROVE" => .ok .approved
  | "REJECT" => .ok .rejected
  | _ => .error (.invalid "SCHEMA_INVALID")

/-- `review_catalog`: like a revoked connection, the listing advances by two. -/
def reviewCatalog (t : Tables) (actor : CommandActor) (listingId decision : String)
    (evidenceRef : Json) (expectedVersion : Int) : Result (Tables × Mutation) := do
  let id ← parseUuid listingId
  let l ← okOr (t.catalogListings.get? id) .notFound
  let guarded ← requireExpectedVersion l.version expectedVersion
  let state ← reviewState decision
  let version ← guarded.bump
  let reviewer ← parseUuid actor.principalId.text
  let l' : CatalogListingRow :=
    { l with state, reviewedBy := some reviewer, evidenceRef := some evidenceRef, version }
  return ({ t with catalogListings := t.catalogListings.set id l' },
    .one "CatalogListing" id version
      (.obj [("listing_id", .str id.toText), ("tenant_id", .str t.identity.tenantId.toText),
        ("plugin_id", .str l.pluginId), ("state", .str state.toText),
        ("reviewed_by", .str actor.principalId.text), ("evidence_ref", evidenceRef),
        ("version", .num version.val)]) ("Review " ++ id.toText))

end Masonwing
