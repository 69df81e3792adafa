import Capmesh.Authority.Bearer
import Capmesh.Authority.OauthSessions

/-!
# Delivery of a token

`oauth_session_status` reads a row, and later clears its token in an `UPDATE` that names the row by
its id alone. In every run a poller gets only a token that was minted for the login it asks about,
and before the deadline, and no row holds a token that a poller was given. Two pollers that both read
the row before either writes it get the token twice, and so does one after Google's callback, which
returns it as well; `delivered_once` is about the runs without the two.
-/

namespace Capmesh

open Python Relational Execution

/-- The rows a request remembers. -/
def OauthCall.remembers : OauthCall → List OauthSession
  | .validating row _ _ => [row]
  | .exchanging _ first => [first]
  | .accepted _ first row _ => [first, row]
  | .minted _ row _ _ => [row]
  | .reading row _ => [row]
  | _ => []

namespace OauthState

variable (state : OauthState)

/-- A row as it is stored, or as a request remembers it. -/
def Seen (row : OauthSession) : Prop :=
  row ∈ state.rows ∨ ∃ call, row ∈ (state.calls call).remembers

/-- A token is that of a session minted for a login. -/
def MintedFor (p : Platform) (token id : String) : Prop :=
  ∃ session ∈ state.tables.sessions, session.tokenHash = hashSecret p token ∧
    session.metadata.get? "oauthSessionId" = some (.str id)

end OauthState

/-- What holds of the tokens in every state. A token between its mint and its storing is in no row
that anybody has seen. -/
structure Custody (p : Platform) (state : OauthState) : Prop where
  row : ∀ row, state.Seen row → ∀ token, row.metadata.capmeshBearerToken = some token →
    state.MintedFor p token row.id
  reply : ∀ reply ∈ state.replies, state.MintedFor p reply.token reply.id
  call : ∀ call via row login token, state.calls call = .minted via row login token →
    state.MintedFor p token.bearerToken row.id
  freshRow : ∀ call via row login token, state.calls call = .minted via row login token →
    ∀ seen, state.Seen seen → seen.metadata.capmeshBearerToken ≠ some token.bearerToken
  freshReply : ∀ call via row login token, state.calls call = .minted via row login token →
    ∀ reply ∈ state.replies, reply.token ≠ token.bearerToken
  freshCall : ∀ call via row login token other via' row' login' token',
    state.calls call = .minted via row login token →
    state.calls other = .minted via' row' login' token' →
    token.bearerToken = token'.bearerToken → call = other
  blank : ∀ row, state.Seen row → row.status = .pending → row.metadata.capmeshBearerToken = none
  dated : ∀ row, state.Seen row → row.metadata.capmeshBearerToken ≠ none →
    ∃ deadline, row.metadata.tokenDeliveryExpiresAt = some deadline ∧ deadline ≠ ""
  timely : ∀ reply ∈ state.replies, reply.via = none →
    ∃ deadline, reply.deadline = some deadline ∧ reply.now < deadline
  gone : ∀ reply ∈ state.replies, reply.via = none →
    ∀ row ∈ state.rows, row.metadata.capmeshBearerToken ≠ some reply.token

section

variable {p : Platform} {host : OauthHost} {state : OauthState} {row : OauthSession}
variable {token : MintedToken} {call : Nat} {rows : Table OauthSession} {next : OauthCall}
variable {now : String} {via : OauthVia} {login : OauthLogin}

theorem OauthState.MintedFor.unique {token first second : String}
    (h : state.MintedFor p token first) (hother : state.MintedFor p token second) :
    first = second := by
  obtain ⟨session, hsession, hhash, hid⟩ := h
  obtain ⟨other, hmem, hotherHash, hotherId⟩ := hother
  obtain rfl := Table.eq_of_conflict hsession hmem (.inr (hhash.trans hotherHash.symm))
  rw [hid] at hotherId
  exact Json.str.inj (Option.some.inj hotherId)

/-- The start of a run: no request under way, and no login that holds a token. -/
structure OauthState.Initial (state : OauthState) : Prop where
  idle : ∀ call, state.calls call = .idle
  blank : ∀ row ∈ state.rows, row.metadata.capmeshBearerToken = none
  mints : state.mints = []
  replies : state.replies = []

theorem OauthState.Initial.seen (h : state.Initial) (hseen : state.Seen row) :
    row ∈ state.rows := by
  rcases hseen with hrow | ⟨call, hcall⟩
  · exact hrow
  · rw [h.idle call] at hcall
    cases hcall

/-- A run starts in custody. -/
theorem OauthState.Initial.custody (h : state.Initial) : Custody p state := by
  have hnone : ∀ call via row login token, state.calls call ≠ .minted via row login token := by
    intro call via row login token hcall
    rw [h.idle call] at hcall
    cases hcall
  refine ⟨?_, ?_, ?_, ?_, ?_, ?_, ?_, ?_, ?_, ?_⟩
  · intro row hseen token htoken
    rw [h.blank row (h.seen hseen)] at htoken
    cases htoken
  · simp [h.replies]
  · exact fun call via row login token hcall => absurd hcall (hnone call via row login token)
  · exact fun call via row login token hcall => absurd hcall (hnone call via row login token)
  · exact fun call via row login token hcall => absurd hcall (hnone call via row login token)
  · exact fun call via row login token _ _ _ _ _ hcall =>
      absurd hcall (hnone call via row login token)
  · exact fun row hseen _ => h.blank row (h.seen hseen)
  · exact fun row hseen hne => absurd (h.blank row (h.seen hseen)) hne
  · simp [h.replies]
  · simp [h.replies]

/-- What is seen after a step was seen before, is stored by the step, or is what the request
remembers now. -/
theorem OauthState.seen_goes_on (h : (state.goesOn call next).Seen row) :
    row ∈ state.rows ∨ state.Seen row ∨ row ∈ next.remembers := by
  rcases h with hrow | ⟨other, hother⟩
  · exact .inl hrow
  · rcases goes_on_calls (Eq.refl ((state.goesOn call next).calls other)) with ⟨-, heq⟩ | ⟨-, heq⟩
    · rw [heq] at hother
      exact .inr (.inr hother)
    · rw [← heq] at hother
      exact .inr (.inl (.inr ⟨other, hother⟩))

/-- A row has no token that a seen one does not have. -/
def OauthState.Covers (state : OauthState) (row : OauthSession) : Prop :=
  row.metadata.capmeshBearerToken = none ∨ ∃ old, state.Seen old ∧ old.id = row.id ∧
    old.metadata = row.metadata ∧ (row.status = .pending → old.status = .pending)

theorem OauthState.Covers.of_seen (h : state.Seen row) : state.Covers row :=
  .inr ⟨row, h, rfl, rfl, id⟩

/-- A step that mints nothing, hands nothing out, and brings no row a token of its own. -/
theorem Custody.weaken {after : OauthState} (h : Custody p state)
    (htables : after.tables = state.tables) (hreplies : after.replies = state.replies)
    (hcalls : ∀ call via row login token, after.calls call = .minted via row login token →
      state.calls call = .minted via row login token)
    (hseen : ∀ row, after.Seen row → state.Covers row)
    (hrows : ∀ row ∈ after.rows, row.metadata.capmeshBearerToken = none ∨
      ∃ old ∈ state.rows, old.metadata = row.metadata) : Custody p after := by
  have hminted : ∀ token id, state.MintedFor p token id → after.MintedFor p token id := by
    intro token id hfor
    unfold OauthState.MintedFor
    rwa [htables]
  refine ⟨?_, ?_, ?_, ?_, ?_, ?_, ?_, ?_, ?_, ?_⟩
  · intro row hrow token htoken
    rcases hseen row hrow with hnone | ⟨old, hold, hid, hmetadata, -⟩
    · rw [hnone] at htoken
      cases htoken
    · rw [← hid]
      exact hminted _ _ (h.row old hold token (by rw [hmetadata]; exact htoken))
  · rw [hreplies]
    exact fun reply hreply => hminted _ _ (h.reply reply hreply)
  · exact fun call via row login token hcall =>
      hminted _ _ (h.call call via row login token (hcalls call via row login token hcall))
  · intro call via row login token hcall seen hrow htoken
    rcases hseen seen hrow with hnone | ⟨old, hold, -, hmetadata, -⟩
    · rw [hnone] at htoken
      cases htoken
    · exact h.freshRow call via row login token (hcalls call via row login token hcall) old hold
        (by rw [hmetadata]; exact htoken)
  · rw [hreplies]
    exact fun call via row login token hcall =>
      h.freshReply call via row login token (hcalls call via row login token hcall)
  · exact fun call via row login token other via' row' login' token' hcall hother =>
      h.freshCall call via row login token other via' row' login' token'
        (hcalls call via row login token hcall) (hcalls other via' row' login' token' hother)
  · intro row hrow hstatus
    rcases hseen row hrow with hnone | ⟨old, hold, -, hmetadata, hpending⟩
    · exact hnone
    · rw [← hmetadata]
      exact h.blank old hold (hpending hstatus)
  · intro row hrow hne
    rcases hseen row hrow with hnone | ⟨old, hold, -, hmetadata, -⟩
    · exact absurd hnone hne
    · rw [← hmetadata] at hne ⊢
      exact h.dated old hold hne
  · rw [hreplies]
    exact h.timely
  · rw [hreplies]
    intro reply hreply hvia row hrow
    rcases hrows row hrow with hnone | ⟨old, hold, hmetadata⟩
    · rw [hnone]
      simp
    · rw [← hmetadata]
      exact h.gone reply hreply hvia old hold

/-- A token is handed out that no completion has still to store, and that no row holds any more. -/
theorem Custody.replied (h : Custody p state) (reply : OauthReply)
    (hfor : state.MintedFor p reply.token reply.id)
    (hcalls : ∀ call via row login token, state.calls call = .minted via row login token →
      reply.token ≠ token.bearerToken)
    (hvia : reply.via = none →
      (∃ deadline, reply.deadline = some deadline ∧ reply.now < deadline) ∧
        ∀ row ∈ state.rows, row.metadata.capmeshBearerToken ≠ some reply.token) :
    Custody p { state with replies := state.replies ++ [reply] } := by
  refine ⟨h.row, ?_, h.call, h.freshRow, ?_, h.freshCall, h.blank, h.dated, ?_, ?_⟩
  · intro other hother
    rcases List.mem_append.mp hother with hold | hnew
    · exact h.reply other hold
    · rw [List.mem_singleton.mp hnew]
      exact hfor
  · intro call via row login token hcall other hother
    rcases List.mem_append.mp hother with hold | hnew
    · exact h.freshReply call via row login token hcall other hold
    · rw [List.mem_singleton.mp hnew]
      exact hcalls call via row login token hcall
  · intro other hother hnone
    rcases List.mem_append.mp hother with hold | hnew
    · exact h.timely other hold hnone
    · rw [List.mem_singleton.mp hnew] at hnone ⊢
      exact (hvia hnone).1
  · intro other hother hnone
    rcases List.mem_append.mp hother with hold | hnew
    · exact h.gone other hold hnone
    · rw [List.mem_singleton.mp hnew] at hnone ⊢
      exact (hvia hnone).2

theorem mint_capmesh_token_ok {orgName : String} {tables after : SessionTables} {call : MintCall}
    (h : mintCapmeshToken p orgName tables call = .ok (token, after)) :
    token.bearerToken = call.token ∧
      tables.sessions.insert? (call.row p) = some after.sessions := by
  obtain ⟨directory, -, h⟩ := bind_eq_ok h
  obtain ⟨sessions, hsessions, h⟩ := bind_eq_ok h
  obtain ⟨-, h⟩ := StoreTables.foreign_key_ok h
  cases h
  exact ⟨rfl, constrained_ok hsessions⟩

theorem Custody.mint (h : Custody p state) {secret sessionId expiresAt : String}
    {first row : OauthSession} {tables : SessionTables}
    (hcall : state.calls call = .accepted via first row login)
    (hmint : mintCapmeshToken p host.orgName state.tables
      (login.mintCall via row secret sessionId expiresAt now) = .ok (token, tables))
    (mints : List OauthMint) :
    Custody p ({ state with tables, mints }.goesOn call (.minted via row login token)) := by
  obtain ⟨htoken, hinsert⟩ := mint_capmesh_token_ok hmint
  have hminted : ∀ other id, state.MintedFor p other id →
      ({ state with tables, mints } : OauthState).MintedFor p other id := by
    rintro other id ⟨session, hsession, hrest⟩
    exact ⟨session, (Table.mem_insert? hinsert session).mpr (.inl hsession), hrest⟩
  have hown : ({ state with tables, mints } : OauthState).MintedFor p token.bearerToken row.id := by
    refine ⟨_, (Table.mem_insert? hinsert _).mpr (.inr rfl), ?_, rfl⟩
    rw [htoken]
    rfl
  have hnew : ∀ other id, state.MintedFor p other id → other ≠ token.bearerToken := by
    rintro other id ⟨session, hsession, hhash, -⟩ rfl
    refine Table.not_conflict_of_insert? hinsert session hsession (.inr ?_)
    rw [hhash, htoken]
    rfl
  have hseen : ∀ seen, ({ state with tables, mints }.goesOn call
      (.minted via row login token) : OauthState).Seen seen → state.Seen seen := by
    intro seen hseen
    rcases OauthState.seen_goes_on hseen with hrow | hold | hnext
    · exact .inl hrow
    · exact hold
    · refine .inr ⟨call, ?_⟩
      rw [hcall, List.mem_singleton.mp hnext]
      exact .tail _ List.mem_cons_self
  have hcases : ∀ {other via' row' login' token'}, ({ state with tables, mints }.goesOn call
      (.minted via row login token) : OauthState).calls other = .minted via' row' login' token' →
      other = call ∧ row' = row ∧ token' = token ∨
        other ≠ call ∧ state.calls other = .minted via' row' login' token' := by
    intro other via' row' login' token' hother
    rcases OauthState.goes_on_calls hother with ⟨heq, hnext⟩ | hold
    · cases hnext
      exact .inl ⟨heq, rfl, rfl⟩
    · exact .inr hold
  refine ⟨?_, ?_, ?_, ?_, ?_, ?_, ?_, ?_, h.timely, h.gone⟩
  · exact fun seen hrow token' htoken' => hminted _ _ (h.row seen (hseen seen hrow) token' htoken')
  · exact fun reply hreply => hminted _ _ (h.reply reply hreply)
  · intro other via' row' login' token' hother
    rcases hcases hother with ⟨-, rfl, rfl⟩ | ⟨-, hold⟩
    · exact hown
    · exact hminted _ _ (h.call other via' row' login' token' hold)
  · intro other via' row' login' token' hother seen hrow hheld
    rcases hcases hother with ⟨-, rfl, rfl⟩ | ⟨-, hold⟩
    · exact hnew _ _ (h.row seen (hseen seen hrow) _ hheld) rfl
    · exact h.freshRow other via' row' login' token' hold seen (hseen seen hrow) hheld
  · intro other via' row' login' token' hother reply hreply
    rcases hcases hother with ⟨-, rfl, rfl⟩ | ⟨-, hold⟩
    · exact hnew _ _ (h.reply reply hreply)
    · exact h.freshReply other via' row' login' token' hold reply hreply
  · intro one via₁ row₁ login₁ token₁ two via₂ row₂ login₂ token₂ hone htwo hsame
    rcases hcases hone with ⟨rfl, rfl, rfl⟩ | ⟨-, hold₁⟩
    · rcases hcases htwo with ⟨rfl, -, -⟩ | ⟨-, hold₂⟩
      · rfl
      · exact absurd hsame.symm (hnew _ _ (h.call two via₂ row₂ login₂ token₂ hold₂))
    · rcases hcases htwo with ⟨rfl, rfl, rfl⟩ | ⟨-, hold₂⟩
      · exact absurd hsame (hnew _ _ (h.call one via₁ row₁ login₁ token₁ hold₁))
      · exact h.freshCall one via₁ row₁ login₁ token₁ two via₂ row₂ login₂ token₂ hold₁ hold₂ hsame
  · exact fun seen hrow => h.blank seen (hseen seen hrow)
  · exact fun seen hrow => h.dated seen (hseen seen hrow)

@[simp] theorem OauthVia.document_token (via : OauthVia) (metadata : OauthMetadata)
    (login : OauthLogin) (token : MintedToken) (now : String) :
    (via.document host metadata login token now).capmeshBearerToken = some token.bearerToken := by
  cases via <;> rfl

@[simp] theorem OauthVia.document_deadline (via : OauthVia) (metadata : OauthMetadata)
    (login : OauthLogin) (token : MintedToken) (now : String) :
    (via.document host metadata login token now).tokenDeliveryExpiresAt =
      some (host.expiresIn now) := by
  cases via <;> rfl

/-- A row that a completion stored. -/
structure StoredBy (host : OauthHost) (row : OauthSession) (token : MintedToken) (now : String)
    (stored : OauthSession) : Prop where
  id : stored.id = row.id
  status : stored.status = .completed
  token : stored.metadata.capmeshBearerToken = some token.bearerToken
  deadline : stored.metadata.tokenDeliveryExpiresAt = some (host.expiresIn now)

theorem mem_update_completed {seen : OauthSession}
    (h : seen ∈ updateOauth rows row.id
      { status := some .completed
        metadata := some (via.document host row.metadata login token now)
        completedAt := some now }) : seen ∈ rows ∨ StoredBy host row token now seen := by
  obtain ⟨old, hold, rfl⟩ := mem_update_oauth.mp h
  split
  · exact .inr ⟨‹_›, rfl, via.document_token _ _ _ _, via.document_deadline _ _ _ _⟩
  · exact .inl hold

theorem Custody.finish (h : Custody p state)
    (hcall : state.calls call = .minted via row login token)
    (hrows : ∀ seen ∈ rows, seen ∈ state.rows ∨ StoredBy host row token now seen) :
    Custody p ({ state with rows }.goesOn call .idle) := by
  have hcases : ∀ {other via' row' login' token'},
      ({ state with rows }.goesOn call .idle : OauthState).calls other =
        .minted via' row' login' token' →
      other ≠ call ∧ state.calls other = .minted via' row' login' token' := by
    intro other via' row' login' token' hother
    rcases OauthState.goes_on_calls hother with ⟨-, hnext⟩ | hold
    · cases hnext
    · exact hold
  have hseen : ∀ seen, ({ state with rows }.goesOn call .idle : OauthState).Seen seen →
      state.Seen seen ∨ StoredBy host row token now seen := by
    intro seen hseen
    rcases hseen with hrow | ⟨other, hother⟩
    · exact (hrows seen hrow).imp_left .inl
    · rcases OauthState.goes_on_calls (Eq.refl (OauthState.calls _ other)) with
        ⟨-, heq⟩ | ⟨-, heq⟩
      · rw [heq] at hother
        cases hother
      · rw [← heq] at hother
        exact .inl (.inr ⟨other, hother⟩)
  refine ⟨?_, h.reply, ?_, ?_, ?_, ?_, ?_, ?_, h.timely, ?_⟩
  · intro seen hrow token' htoken
    rcases hseen seen hrow with hold | hstored
    · exact h.row seen hold token' htoken
    · rw [hstored.token] at htoken
      cases htoken
      rw [hstored.id]
      exact h.call call via row login token hcall
  · intro other via' row' login' token' hother
    exact h.call other via' row' login' token' (hcases hother).2
  · intro other via' row' login' token' hother seen hrow hheld
    obtain ⟨hne, hother⟩ := hcases hother
    rcases hseen seen hrow with hold | hstored
    · exact h.freshRow other via' row' login' token' hother seen hold hheld
    · rw [hstored.token] at hheld
      exact hne (h.freshCall other via' row' login' token' call via row login token hother hcall
        (Option.some.inj hheld).symm)
  · intro other via' row' login' token' hother
    exact h.freshReply other via' row' login' token' (hcases hother).2
  · intro one via₁ row₁ login₁ token₁ two via₂ row₂ login₂ token₂ hone htwo
    exact h.freshCall one via₁ row₁ login₁ token₁ two via₂ row₂ login₂ token₂ (hcases hone).2
      (hcases htwo).2
  · intro seen hrow hpending
    rcases hseen seen hrow with hold | hstored
    · exact h.blank seen hold hpending
    · rw [hstored.status] at hpending
      cases hpending
  · intro seen hrow hne
    rcases hseen seen hrow with hold | hstored
    · exact h.dated seen hold hne
    · exact ⟨_, hstored.deadline, host.expires_in_ne now⟩
  · intro reply hreply hvia seen hrow hheld
    rcases hrows seen hrow with hold | hstored
    · exact h.gone reply hreply hvia seen hold hheld
    · exact h.freshReply call via row login token hcall reply hreply
        (Option.some.inj (hstored.token.symm.trans hheld)).symm

theorem Custody.goes_on (h : Custody p state)
    (hnext : ∀ via row login token, next ≠ .minted via row login token)
    (hremembers : ∀ row ∈ next.remembers, state.Seen row)
    (hrows : ∀ row ∈ rows, state.Covers row ∧ (row.metadata.capmeshBearerToken = none ∨
      ∃ old ∈ state.rows, old.metadata = row.metadata)) :
    Custody p ({ state with rows }.goesOn call next) := by
  refine h.weaken rfl rfl ?_ ?_ fun row hrow => (hrows row hrow).2
  · intro other via row login token hother
    rcases OauthState.goes_on_calls hother with ⟨-, heq⟩ | ⟨-, hold⟩
    · exact absurd heq.symm (hnext via row login token)
    · exact hold
  · intro row hrow
    rcases hrow with hrow | ⟨other, hother⟩
    · exact (hrows row hrow).1
    · rcases OauthState.goes_on_calls (Eq.refl (OauthState.calls _ other)) with
        ⟨-, heq⟩ | ⟨-, heq⟩
      · rw [heq] at hother
        exact .of_seen (hremembers row hother)
      · rw [← heq] at hother
        exact .of_seen (.inr ⟨other, hother⟩)

theorem OauthState.covers_stored : ∀ row ∈ state.rows, state.Covers row ∧
    (row.metadata.capmeshBearerToken = none ∨ ∃ old ∈ state.rows, old.metadata = row.metadata) :=
  fun row hrow => ⟨.of_seen (.inl hrow), .inr ⟨row, hrow, rfl⟩⟩

@[simp] theorem remembers_idle : OauthCall.idle.remembers = [] := rfl

@[simp] theorem remembers_starting (id : String) : (OauthCall.starting id).remembers = [] := rfl

/-- A request that ends. -/
theorem Custody.goes_idle (h : Custody p state) (hrows : ∀ row ∈ rows, state.Covers row ∧
    (row.metadata.capmeshBearerToken = none ∨
      ∃ old ∈ state.rows, old.metadata = row.metadata)) :
    Custody p ({ state with rows }.goesOn call .idle) :=
  h.goes_on (by simp) (by simp) hrows

/-- Where a request goes that has minted nothing, and writes nothing. -/
theorem Custody.goes_on_reading (h : Custody p state)
    (hnext : ∀ via row login token, next ≠ .minted via row login token)
    (hremembers : ∀ row ∈ next.remembers, state.Seen row) : Custody p (state.goesOn call next) := by
  show Custody p ({ state with rows := state.rows }.goesOn call next)
  exact h.goes_on hnext hremembers OauthState.covers_stored

/-- So are those after an update that stores a document without a token. -/
theorem OauthState.covers_update {id : String} {metadata : OauthMetadata}
    (hmetadata : metadata.capmeshBearerToken = none) (status : Option OauthStatus)
    (completedAt : Option String) : ∀ row ∈ updateOauth state.rows id
      { status, metadata := some metadata, completedAt }, state.Covers row ∧
    (row.metadata.capmeshBearerToken = none ∨
      ∃ old ∈ state.rows, old.metadata = row.metadata) := by
  intro row hrow
  obtain ⟨old, hold, rfl⟩ := mem_update_oauth.mp hrow
  split
  · exact ⟨.inl hmetadata, .inl hmetadata⟩
  · exact covers_stored old hold

theorem OauthState.covers_validated (h : Custody p state) {code : Bool} {error : Option String}
    {change : OauthChange} (hseen : state.Seen row)
    (hchange : validateOauthCallback row code error now = some change) :
    ∀ seen ∈ updateOauth state.rows row.id change, state.Covers seen ∧
      (seen.metadata.capmeshBearerToken = none ∨
        ∃ old ∈ state.rows, old.metadata = seen.metadata) := by
  unfold validateOauthCallback at hchange
  split at hchange
  · cases hchange
  · rename_i hpending
    split at hchange
    · cases hchange
      intro seen hrow
      obtain ⟨old, hold, rfl⟩ := mem_update_oauth.mp hrow
      split
      · exact ⟨.inr ⟨old, .inl hold, rfl, rfl, nofun⟩, .inr ⟨old, hold, rfl⟩⟩
      · exact covers_stored old hold
    · cases hchange
      have hblank : ({ row.metadata with callbackError := error, codeReceived := code } :
          OauthMetadata).capmeshBearerToken = none := h.blank row hseen (not_not.mp hpending)
      exact covers_update hblank _ _

theorem custody_step (host : OauthHost) (action : OauthAction) (h : Custody p state) :
    Custody p (oauthStep p host state action) := by
  have heffect := oauth_step_effect p host state action
  generalize oauthStep p host state action = after at heffect ⊢
  cases heffect with
  | kept => exact h
  | ended hmint => exact h.goes_on_reading (by simp) (by simp)
  | stopped call => exact h.goes_on_reading (by simp) (by simp)
  | @created call request draw rows next hidle hrows hnext =>
      refine h.goes_on ?_ ?_ fun row hrow => ?_
      · rcases hnext with rfl | rfl <;> simp
      · rcases hnext with rfl | rfl <;> simp
      · rcases (Table.mem_insert? hrows row).mp hrow with hold | rfl
        · exact OauthState.covers_stored row hold
        · exact ⟨.inl rfl, .inl rfl⟩
  | deviceStored hcall => exact h.goes_idle (OauthState.covers_update rfl _ _)
  | @remembered action call row next hidle hrow hnext =>
      refine h.goes_on_reading ?_ ?_
      · rcases hnext with ⟨code, error, rfl⟩ | ⟨consumeTokens, rfl⟩ <;> simp
      · rcases hnext with ⟨code, error, rfl⟩ | ⟨consumeTokens, rfl⟩ <;>
          exact fun seen hseen => by
            rw [List.mem_singleton.mp hseen]
            exact .inl hrow
  | @began via call key row hidle hrow hkey hbegins =>
      refine h.goes_on_reading (by simp) (fun seen hseen => ?_)
      rw [List.mem_singleton.mp hseen]
      exact .inl hrow
  | @validated call now row code error change hcall hchange =>
      have hseen : state.Seen row := .inr ⟨call, by rw [hcall]; exact List.mem_cons_self⟩
      exact h.goes_idle (OauthState.covers_validated h hseen hchange)
  | @accepted call login clock via first row hcall hrow hstate hclaims =>
      refine h.goes_on_reading (by simp) (fun seen hseen => ?_)
      rcases List.mem_cons.mp hseen with rfl | hseen
      · exact .inr ⟨call, by rw [hcall]; exact List.mem_cons_self⟩
      · rw [List.mem_singleton.mp hseen]
        exact .inl hrow
  | minted hcall hmint => exact h.mint hcall hmint _
  | @finished call now via row login token replies hcall hreplies =>
      have hfinish : Custody p ({ state with
          rows := updateOauth state.rows row.id
            { status := some .completed
              metadata := some (via.document host row.metadata login token now)
              completedAt := some now } }.goesOn call .idle) :=
        h.finish hcall fun seen hseen => mem_update_completed hseen
      rcases hreplies with rfl | ⟨-, rfl⟩
      · exact hfinish
      · refine hfinish.replied ⟨some .google, row.id, token.bearerToken, now, _⟩
          (h.call call via row login token hcall) ?_ nofun
        intro other via' row' login' token' hother hsame
        rcases OauthState.goes_on_calls hother with ⟨-, hnext⟩ | ⟨hne, hold⟩
        · cases hnext
        · exact hne (h.freshCall other via' row' login' token' call via row login token hold hcall
            hsame.symm)
  | @delivered call now row metadata replies hcall hstatus hmetadata hreplies =>
      have hseen : state.Seen row := .inr ⟨call, by rw [hcall]; exact List.mem_cons_self⟩
      have hclear : Custody p ({ state with
          rows := updateOauth state.rows row.id { metadata := some metadata } }.goesOn call
            .idle) :=
        h.goes_idle (OauthState.covers_update hmetadata.1 none none)
      rcases hreplies with rfl | ⟨token, hlate, htoken, rfl⟩
      · exact hclear
      · have hfor := h.row row hseen token htoken
        refine hclear.replied ⟨none, row.id, token, now, row.metadata.tokenDeliveryExpiresAt⟩ hfor
          ?_ fun _ => ⟨?_, ?_⟩
        · intro other via' row' login' token' hother hsame
          rcases OauthState.goes_on_calls hother with ⟨-, hnext⟩ | ⟨-, hold⟩
          · cases hnext
          · exact h.freshRow other via' row' login' token' hold row hseen
              (htoken.trans (congrArg some hsame))
        · obtain ⟨deadline, hdeadline, hne⟩ := h.dated row hseen (by rw [htoken]; simp)
          refine ⟨deadline, hdeadline, ?_⟩
          unfold OauthSession.isLate at hlate
          simpa [hdeadline, hne] using hlate
        · intro seen hstored hheld
          obtain ⟨old, hold, rfl⟩ := mem_update_oauth.mp hstored
          split at hheld
          · rw [show (OauthChange.write _ old).metadata = metadata from rfl, hmetadata.1] at hheld
            cases hheld
          · rename_i hne
            exact hne ((h.row old (.inl hold) token hheld).unique hfor)

theorem custody_run (host : OauthHost) (actions : List OauthAction) (h : Custody p state) :
    Custody p (run (oauthStep p host) state actions) :=
  run_invariant (fun _ action hcustody => custody_step host action hcustody) actions h

/-- In every run, a token that a poller was given was minted for the login it asked about, it was
given before the deadline that was stored with it, and no row holds it any more. -/
theorem poller_delivery (p : Platform) (host : OauthHost) (state : OauthState)
    (hstart : state.Initial) (actions : List OauthAction) :
    let after := run (oauthStep p host) state actions
    ∀ reply ∈ after.replies, reply.via = none →
      after.MintedFor p reply.token reply.id ∧
      (∃ deadline, reply.deadline = some deadline ∧ reply.now < deadline) ∧
      ∀ row ∈ after.rows, row.metadata.capmeshBearerToken ≠ some reply.token := by
  intro after reply hreply hvia
  have h : Custody p after := custody_run host actions hstart.custody
  exact ⟨h.reply reply hreply, h.timely reply hreply hvia, h.gone reply hreply hvia⟩

/-- Each token was handed out once, before its deadline, and is in no row. -/
structure DeliversOnce (state : OauthState) : Prop where
  once : (state.replies.map (·.token)).Nodup
  timely : ∀ reply ∈ state.replies,
    ∃ deadline, reply.deadline = some deadline ∧ reply.now < deadline
  gone : ∀ reply ∈ state.replies, ∀ row ∈ state.rows,
    row.metadata.capmeshBearerToken ≠ some reply.token

/-- A completion is not Google's, and a poller that writes finds the token it read still stored. -/
def deliveryStep (state : OauthState) (action : OauthAction) : Bool :=
  match action with
  | .finish call _ =>
      match state.calls call with
      | .minted via _ _ _ => via ≠ .google
      | _ => true
  | .statusWrite call _ =>
      match state.calls call with
      | .reading row true =>
          match row.metadata.capmeshBearerToken with
          | some token => (state.stored row.id).any (·.metadata.capmeshBearerToken = some token)
          | none => true
      | _ => true
  | _ => true

/-- All tokens were given to pollers, each once. -/
def PolledOnce (state : OauthState) : Prop :=
  (∀ reply ∈ state.replies, reply.via = none) ∧ (state.replies.map (·.token)).Nodup

/-- A step that meets the condition gives no token a second time. -/
theorem polled_once_step {action : OauthAction} (hcustody : Custody p state)
    (hmeets : deliveryStep state action = true) (h : PolledOnce state) :
    PolledOnce (oauthStep p host state action) := by
  have heffect := oauth_step_effect p host state action
  generalize oauthStep p host state action = after at heffect ⊢
  cases heffect with
  | @finished call now via row login token replies hcall hreplies =>
      rcases hreplies with rfl | ⟨hvia, -⟩
      · exact h
      · rw [hvia] at hcall
        simp [deliveryStep, hcall] at hmeets
  | @delivered call now row metadata replies hcall hstatus hmetadata hreplies =>
      rcases hreplies with rfl | ⟨token, -, htoken, rfl⟩
      · exact h
      · obtain ⟨stored, hstored, hheld⟩ : ∃ stored, state.stored row.id = some stored ∧
            stored.metadata.capmeshBearerToken = some token := by
          simpa [deliveryStep, hcall, htoken, Option.any_eq_true] using hmeets
        constructor
        · intro reply hreply
          rcases List.mem_append.mp hreply with hold | hnew
          · exact h.1 reply hold
          · rw [List.mem_singleton.mp hnew]
        · show ((state.replies ++ [_]).map _).Nodup
          rw [List.map_append, List.nodup_append]
          refine ⟨h.2, List.nodup_singleton _, ?_⟩
          rintro given hgiven last hlast rfl
          obtain ⟨reply, hreply, rfl⟩ := List.mem_map.mp hgiven
          refine hcustody.gone reply hreply (h.1 reply hreply) stored
            (OauthState.mem_stored hstored).1 ?_
          rw [hheld]
          exact congrArg some (List.mem_singleton.mp hlast).symm
  | _ => exact h

end

/-- In every run without a completion by Google, in which every poller that writes finds the token
it read still stored, each token is handed out once, before its deadline, and is then in no row. -/
theorem delivered_once (p : Platform) (host : OauthHost) (state : OauthState)
    (hstart : state.Initial) (actions : List OauthAction)
    (halong : Along (oauthStep p host) (fun state action => deliveryStep state action = true) state
      actions) :
    DeliversOnce (run (oauthStep p host) state actions) := by
  have hrun : Custody p (run (oauthStep p host) state actions) ∧
      PolledOnce (run (oauthStep p host) state actions) := by
    refine run_invariant_along (I := fun state => Custody p state ∧ PolledOnce state) ?_ halong
      ⟨hstart.custody, by simp [PolledOnce, hstart.replies]⟩
    exact fun state action hmeets ⟨hcustody, honce⟩ =>
      ⟨custody_step host action hcustody, polled_once_step hcustody hmeets honce⟩
  obtain ⟨hcustody, hvia, honce⟩ := hrun
  exact ⟨honce, fun reply hreply => hcustody.timely reply hreply (hvia reply hreply),
    fun reply hreply => hcustody.gone reply hreply (hvia reply hreply)⟩

def loginHost : OauthHost where
  orgName := "the company"
  challenge verifier := verifier
  expiresIn _ := "2026-01-01T00:10:00Z"
  expires_in_ne _ := by decide
  clientId := "client"
  readInt _ := none
  validates _ _ := true

/-- The office before the first login. -/
def loginStart : OauthState := { tables := sessionOffice, rows := .empty, calls := fun _ => .idle }

theorem login_start_initial : loginStart.Initial :=
  ⟨fun _ => rfl, by simp [loginStart], rfl, rfl⟩

/-- A login in the browser. -/
def browserLogin : OauthRequest where
  tenantId := "asg"
  flow := "authorization_code_pkce"
  redirectUri := "https://capmesh.example/oauth/callback"
  scope := "openid"

/-- What is drawn for the first login. -/
def firstDraw : OauthDraw where
  id := "oauth_1"
  state := "state"
  nonce := "nonce"
  nonce_ne := by decide
  verifier := "verifier"
  expiresAt := "2026-01-01T00:10:00Z"

/-- The administrator, as Entra names it. -/
def adminLogin : OauthLogin where
  claims := [("tid", .str "t"), ("iss", .str "https://sts.windows.net/t/"),
    ("aud", .str "client"), ("nonce", .str "nonce")]
  signIn := (adminSignsIn false).signIn

/-- The first login, completed by a callback. -/
def completedLogin : List OauthAction :=
  [.create 0 browserLogin firstDraw, .callbackRead 0 "state", .completeRead 0 adminLogin 0,
    .mint 0 "secret" "cms_1" "2026-02-01T00:00:00Z" "2026-01-01T00:00:00Z",
    .finish 0 "2026-01-01T00:00:00Z"]

/-- A login that is polled once. -/
def polledLogin : List OauthAction :=
  completedLogin ++ [.statusRead 1 "oauth_1" true, .statusWrite 1 "2026-01-01T00:00:01Z"]

/-- One poller is given the token once. -/
theorem delivered_once_polled_login :
    DeliversOnce (run (oauthStep .sample loginHost) loginStart polledLogin) :=
  delivered_once .sample loginHost loginStart login_start_initial polledLogin (by decide +kernel)

/-- The token it is given is that of the login. -/
theorem poller_delivery_polled_login :
    let after := run (oauthStep .sample loginHost) loginStart polledLogin
    ∀ reply ∈ after.replies, reply.via = none →
      after.MintedFor .sample reply.token reply.id ∧
      (∃ deadline, reply.deadline = some deadline ∧ reply.now < deadline) ∧
      ∀ row ∈ after.rows, row.metadata.capmeshBearerToken ≠ some reply.token :=
  poller_delivery .sample loginHost loginStart login_start_initial polledLogin

/-- Two pollers that both read before either writes are given the same token. -/
theorem delivered_once_counterexample :
    ¬ ∀ (p : Platform) (host : OauthHost) (state : OauthState), state.Initial →
      ∀ actions : List OauthAction, DeliversOnce (run (oauthStep p host) state actions) := by
  intro hclaim
  have honce := (hclaim .sample loginHost loginStart login_start_initial (completedLogin ++
    [.statusRead 1 "oauth_1" true, .statusRead 2 "oauth_1" true,
      .statusWrite 1 "2026-01-01T00:00:01Z", .statusWrite 2 "2026-01-01T00:00:02Z"])).once
  revert honce
  decide +kernel

end Capmesh
