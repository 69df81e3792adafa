import Capmesh.Authority.TokenDelivery

/-!
# What a login is bound to

A completion reads its login twice, before and after the exchange with the identity provider, mints
a session, and then writes the row. Between these statements nothing is locked. Entra's callback
does not look at the status, no completion looks at the expiry, and a token without a nonce passes.
`login_bound` says for which runs each login mints one session all the same, while it is pending.
-/

namespace Capmesh

open Python Relational Execution

/-- The columns of a row that no statement changes. -/
def OauthSession.columns (row : OauthSession) : OauthSession :=
  { row with status := .pending, metadata := {}, completedAt := none }

/-- The stored verifier, when there is one, is the one of the stored challenge. -/
def OauthSession.Challenged (host : OauthHost) (row : OauthSession) : Prop :=
  ∀ verifier, row.metadata.codeVerifier = some verifier →
    host.challenge verifier = row.codeChallenge

/-- A session was minted on a login that was pending and not expired, whose stored verifier matches
its challenge, and, unless it is Google's, for a token with the nonce of the login. -/
structure BoundMint (host : OauthHost) (mint : OauthMint) (row : OauthSession) : Prop where
  stored : mint.stored = some row
  pending : row.status = .pending
  inTime : mint.now < row.expiresAt
  challenged : row.Challenged host
  verified : mint.via = .callback → row.metadata.codeVerifier.isSome = true
  nonce : mint.via ≠ .google → mint.login.claims.get? "nonce" = some (.str row.nonce)

/-- No login minted twice, and each that minted was bound. -/
structure LoginBound (host : OauthHost) (state : OauthState) : Prop where
  once : (state.mints.map (·.row.state)).Nodup
  bound : ∀ mint ∈ state.mints, ∃ row, BoundMint host mint row

/-- Some request has minted a session for a login that it has not written yet. -/
def OauthState.Unwritten (state : OauthState) (id : String) : Prop :=
  ∃ call via row login token, state.calls call = .minted via row login token ∧ row.id = id

/-- A callback of Entra reads a pending login; a completion mints on the row its caller read, which
nobody has written since, before its expiry, and for a token with a nonce unless it is Google's; and
none stops between its mint and its write. -/
def loginStep (state : OauthState) (action : OauthAction) : Bool :=
  match action with
  | .callbackRead _ text => (state.ofState text).all (·.status = .pending)
  | .mint call _ _ _ now =>
      match state.calls call with
      | .accepted via first _ login =>
          state.stored first.id = some first && now < first.expiresAt &&
            (via = .google || login.claims.truthy "nonce")
      | _ => true
  | .giveUp call =>
      match state.calls call with
      | .minted _ _ _ _ => false
      | _ => true
  | _ => true

/-- A completion mints while no other one is between its mint and its write for the same login. -/
def MintsAlone (state : OauthState) (action : OauthAction) : Prop :=
  ∀ call secret sessionId expiresAt now via first row login,
    action = .mint call secret sessionId expiresAt now →
    state.calls call = .accepted via first row login → ¬ state.Unwritten first.id

/-- The condition on a step. -/
def LoginStep (state : OauthState) (action : OauthAction) : Prop :=
  loginStep state action = true ∧ MintsAlone state action

/-- What holds of the rows in every state: each that was seen is stored with the same columns, has a
nonce, and has no verifier but that of its challenge. -/
structure Rooted (host : OauthHost) (state : OauthState) : Prop where
  row : ∀ row, state.Seen row → ∃ stored ∈ state.rows, stored.columns = row.columns
  mint : ∀ mint ∈ state.mints, ∃ stored ∈ state.rows, stored.columns = mint.row.columns
  nonce : ∀ row, state.Seen row → row.nonce ≠ ""
  challenged : ∀ row, state.Seen row → row.Challenged host

section

variable {p : Platform} {host : OauthHost} {state : OauthState} {row other : OauthSession}

theorem columns_id (h : row.columns = other.columns) : row.id = other.id := by
  simpa [OauthSession.columns] using congrArg OauthSession.id h

theorem columns_state (h : row.columns = other.columns) : row.state = other.state := by
  simpa [OauthSession.columns] using congrArg OauthSession.state h

theorem columns_challenge (h : row.columns = other.columns) :
    row.codeChallenge = other.codeChallenge := by
  simpa [OauthSession.columns] using congrArg OauthSession.codeChallenge h

theorem update_oauth_keeps {rows : Table OauthSession} (id : String) (change : OauthChange)
    (hrow : row ∈ rows) : ∃ stored ∈ updateOauth rows id change, stored.columns = row.columns := by
  refine ⟨_, mem_update_oauth.mpr ⟨row, hrow, rfl⟩, ?_⟩
  split <;> rfl

theorem Rooted.goes_on (h : Rooted host state) {call : Nat} {next : OauthCall}
    {tables : SessionTables} {rows : Table OauthSession} {mints : List OauthMint}
    {replies : List OauthReply}
    (hkeeps : ∀ row ∈ state.rows, ∃ stored ∈ rows, stored.columns = row.columns)
    (hrows : ∀ row ∈ rows, row.nonce ≠ "" ∧ row.Challenged host)
    (hremembers : ∀ row ∈ next.remembers, state.Seen row)
    (hmints : ∀ mint ∈ mints, mint ∈ state.mints ∨ state.Seen mint.row) :
    Rooted host ((OauthState.mk tables rows state.calls mints replies).goesOn call next) := by
  have hkept : ∀ row : OauthSession, (∃ stored ∈ state.rows, stored.columns = row.columns) →
      ∃ stored ∈ rows, stored.columns = row.columns := by
    rintro row ⟨old, hold, hcolumns⟩
    obtain ⟨stored, hstored, hsame⟩ := hkeeps old hold
    exact ⟨stored, hstored, hsame.trans hcolumns⟩
  have hseen : ∀ row, ((OauthState.mk tables rows state.calls mints replies).goesOn call next).Seen
      row → row ∈ rows ∨ state.Seen row := by
    intro row hseen
    rcases hseen with hrow | ⟨other, hother⟩
    · exact .inl hrow
    · rcases OauthState.goes_on_calls (Eq.refl (OauthState.calls _ other)) with
        ⟨-, heq⟩ | ⟨-, heq⟩
      · rw [heq] at hother
        exact .inr (hremembers row hother)
      · rw [← heq] at hother
        exact .inr (.inr ⟨other, hother⟩)
  refine ⟨?_, ?_, ?_, ?_⟩
  · intro row hrow
    rcases hseen row hrow with hstored | hold
    · exact ⟨row, hstored, rfl⟩
    · exact hkept row (h.row row hold)
  · intro mint hmint
    rcases hmints mint hmint with hold | hnew
    · exact hkept mint.row (h.mint mint hold)
    · exact hkept mint.row (h.row mint.row hnew)
  · intro row hrow
    rcases hseen row hrow with hstored | hold
    · exact (hrows row hstored).1
    · exact h.nonce row hold
  · intro row hrow
    rcases hseen row hrow with hstored | hold
    · exact (hrows row hstored).2
    · exact h.challenged row hold

theorem Rooted.same_columns (h : Rooted host state) (hseen : state.Seen row)
    (hother : other ∈ state.rows) (hid : other.id = row.id) : other.columns = row.columns := by
  obtain ⟨stored, hstored, hcolumns⟩ := h.row row hseen
  rwa [Table.eq_of_conflict hother hstored (.inl (hid.trans (columns_id hcolumns).symm))]

theorem Rooted.update (h : Rooted host state) {change : OauthChange}
    (hseen : change.metadata = none ∨ ∃ metadata, change.metadata = some metadata ∧
      (metadata.codeVerifier = none ∨ state.Seen row ∧
        metadata.codeVerifier = row.metadata.codeVerifier)) :
    ∀ stored ∈ updateOauth state.rows row.id change,
      stored.nonce ≠ "" ∧ stored.Challenged host := by
  intro stored hstored
  obtain ⟨old, hold, rfl⟩ := mem_update_oauth.mp hstored
  split
  · rename_i hid
    refine ⟨h.nonce old (.inl hold), fun verifier hverifier => ?_⟩
    rcases hseen with hnone | ⟨metadata, hmetadata, hcode⟩
    · refine h.challenged old (.inl hold) verifier ?_
      simpa [OauthChange.write, hnone] using hverifier
    · have hread : metadata.codeVerifier = some verifier := by
        simpa [OauthChange.write, hmetadata] using hverifier
      rcases hcode with hnone | ⟨hrow, hsame⟩
      · rw [hnone] at hread
        cases hread
      · have hchallenge := h.challenged row hrow verifier (hsame.symm.trans hread)
        exact hchallenge.trans (columns_challenge (h.same_columns hrow hold hid)).symm
  · exact ⟨h.nonce old (.inl hold), h.challenged old (.inl hold)⟩

@[simp] theorem OauthVia.document_verifier (via : OauthVia) (metadata : OauthMetadata)
    (login : OauthLogin) (token : MintedToken) (now : String) :
    (via.document host metadata login token now).codeVerifier = none := by
  cases via <;> rfl

/-- What a callback without an exchange writes keeps the verifier it read. -/
theorem validate_oauth_callback_verifier {code : Bool} {error : Option String} {now : String}
    {change : OauthChange} (h : validateOauthCallback row code error now = some change) :
    change.metadata = none ∨ ∃ metadata, change.metadata = some metadata ∧
      metadata.codeVerifier = row.metadata.codeVerifier := by
  unfold validateOauthCallback at h
  split at h
  · cases h
  · split at h
    · cases h
      exact .inl rfl
    · cases h
      exact .inr ⟨_, rfl, rfl⟩

theorem rooted_step (p : Platform) (action : OauthAction) (h : Rooted host state) :
    Rooted host (oauthStep p host state action) := by
  have hsame : ∀ row ∈ state.rows, ∃ stored ∈ state.rows, stored.columns = row.columns :=
    fun row hrow => ⟨row, hrow, rfl⟩
  have hstored : ∀ row ∈ state.rows, row.nonce ≠ "" ∧ row.Challenged host := fun row hrow =>
    ⟨h.nonce row (.inl hrow), h.challenged row (.inl hrow)⟩
  have hupdated : ∀ id change, ∀ row ∈ state.rows,
      ∃ stored ∈ updateOauth state.rows id change, stored.columns = row.columns :=
    fun id change row hrow => update_oauth_keeps id change hrow
  have hold : ∀ mint ∈ state.mints, mint ∈ state.mints ∨ state.Seen mint.row := fun _ => .inl
  have heffect := oauth_step_effect p host state action
  generalize oauthStep p host state action = after at heffect ⊢
  cases heffect with
  | kept => exact h
  | ended hmint => exact h.goes_on hsame hstored (by simp) hold
  | stopped call => exact h.goes_on hsame hstored (by simp) hold
  | @created call request draw rows next hidle hrows hnext =>
      refine h.goes_on (fun row hrow => ⟨row, ?_, rfl⟩) (fun row hrow => ?_) ?_ hold
      · exact (Table.mem_insert? hrows row).mpr (.inl hrow)
      · rcases (Table.mem_insert? hrows row).mp hrow with hold | rfl
        · exact hstored row hold
        · exact ⟨draw.nonce_ne, by rintro verifier ⟨⟩; rfl⟩
      · rcases hnext with rfl | rfl <;> simp
  | @deviceStored call deviceCode id hcall =>
      refine h.goes_on (hupdated _ _) (fun stored hstored' => ?_) (by simp) hold
      obtain ⟨old, hmem, rfl⟩ := mem_update_oauth.mp hstored'
      split
      · exact ⟨(hstored old hmem).1, by rintro verifier ⟨⟩⟩
      · exact hstored old hmem
  | @remembered action call row next hidle hrow hnext =>
      refine h.goes_on hsame hstored (fun seen hseen => ?_) hold
      rcases hnext with ⟨code, error, rfl⟩ | ⟨consumeTokens, rfl⟩ <;>
        · rw [List.mem_singleton.mp hseen]
          exact .inl hrow
  | @began via call key row hidle hrow hkey hbegins =>
      refine h.goes_on hsame hstored (fun seen hseen => ?_) hold
      rw [List.mem_singleton.mp hseen]
      exact .inl hrow
  | @validated call now row code error change hcall hchange =>
      have hseen : state.Seen row := .inr ⟨call, by rw [hcall]; exact List.mem_cons_self⟩
      refine h.goes_on (hupdated _ _) (h.update ?_) (by simp) hold
      rcases validate_oauth_callback_verifier hchange with hnone | ⟨metadata, hmetadata, hcode⟩
      · exact .inl hnone
      · exact .inr ⟨metadata, hmetadata, .inr ⟨hseen, hcode⟩⟩
  | @accepted call login clock via first row hcall hrow hstate hclaims =>
      refine h.goes_on hsame hstored (fun seen hseen => ?_) hold
      rcases List.mem_cons.mp hseen with rfl | hseen
      · exact .inr ⟨call, by rw [hcall]; exact List.mem_cons_self⟩
      · rw [List.mem_singleton.mp hseen]
        exact .inl hrow
  | @minted call secret sessionId expiresAt now via first row login token tables hcall hmint =>
      have hseen : state.Seen row :=
        .inr ⟨call, by rw [hcall]; exact .tail _ List.mem_cons_self⟩
      refine h.goes_on hsame hstored (fun seen hmem => ?_) fun mint hmem => ?_
      · rw [List.mem_singleton.mp hmem]
        exact hseen
      · rcases List.mem_append.mp hmem with hmem | hmem
        · exact .inl hmem
        · rw [List.mem_singleton.mp hmem]
          exact .inr hseen
  | @finished call now via row login token replies hcall hreplies =>
      exact h.goes_on (hupdated _ _) (h.update (.inr ⟨_, rfl, .inl (via.document_verifier ..)⟩))
        (by simp) hold
  | @delivered call now row metadata replies hcall hstatus hmetadata hreplies =>
      have hseen : state.Seen row := .inr ⟨call, by rw [hcall]; exact List.mem_cons_self⟩
      exact h.goes_on (hupdated _ _) (h.update (.inr ⟨_, rfl, .inr ⟨hseen, hmetadata.2⟩⟩)) (by simp)
        hold

end

/-- What holds in every state of a run that meets the condition: an exchange is under way only for a
login that was pending when it was read, and a login that minted is no longer pending, or its
completion has still to write it. -/
structure Binding (host : OauthHost) (state : OauthState) : Prop where
  rooted : Rooted host state
  exchanging : ∀ call via first, state.calls call = .exchanging via first →
    first.status = .pending ∧ (via = .callback → first.metadata.codeVerifier.isSome = true)
  accepted : ∀ call via first row login, state.calls call = .accepted via first row login →
    (first.status = .pending ∧ (via = .callback → first.metadata.codeVerifier.isSome = true)) ∧
      row.state = first.state ∧ (via ≠ .google → login.claims.truthy "nonce" = true →
        login.claims.get? "nonce" = some (.str row.nonce))
  spent : ∀ mint ∈ state.mints,
    (∀ row ∈ state.rows, row.id = mint.row.id → row.status ≠ .pending) ∨
      state.Unwritten mint.row.id
  once : (state.mints.map (·.row.id)).Nodup
  bound : ∀ mint ∈ state.mints, ∃ row, BoundMint host mint row

section

variable {p : Platform} {host : OauthHost} {state : OauthState} {row : OauthSession} {call : Nat}

theorem check_claims_nonce {claims : Dict} {clock : Int} (hne : row.nonce ≠ "")
    (hclaims : (checkClaims p host row claims clock).isOk = true)
    (htruthy : claims.truthy "nonce" = true) :
    claims.get? "nonce" = some (.str row.nonce) := by
  by_contra hother
  have hfails : (row.nonce ≠ "" && claims.truthy "nonce" &&
      claims.get? "nonce" ≠ some (.str row.nonce)) = true := by
    simp [hne, htruthy, hother]
  simp only [checkClaims, hfails, if_true, bind, Except.bind] at hclaims
  repeat' split at hclaims
  all_goals simp [Except.isOk, Except.toBool] at hclaims

/-- A request between its mint and its write is there until it goes on. -/
theorem OauthState.Unwritten.goes_on {after : OauthState} {next : OauthCall} {id : String}
    (h : state.Unwritten id) (hcalls : after.calls = (state.goesOn call next).calls)
    (hne : ∀ via row login token, state.calls call = .minted via row login token → row.id ≠ id) :
    after.Unwritten id := by
  obtain ⟨other, via, row, login, token, hcall, hid⟩ := h
  refine ⟨other, via, row, login, token, ?_, hid⟩
  rw [hcalls]
  unfold OauthState.goesOn
  dsimp only
  rw [if_neg]
  · exact hcall
  · rintro rfl
    exact hne via row login token hcall hid

/-- Where a request goes that mints nothing: the logins that minted stay spent, as long as no row
becomes pending again and the request has not minted. -/
theorem Binding.goes_on (h : Binding host state) {after : OauthState} {next : OauthCall}
    (hcalls : after.calls = (state.goesOn call next).calls)
    (hmints : after.mints = state.mints) (hrooted : Rooted host after)
    (hnext : ∀ via first, next = .exchanging via first →
      first.status = .pending ∧ (via = .callback → first.metadata.codeVerifier.isSome = true))
    (haccepted : ∀ via first row login, next = .accepted via first row login →
      (first.status = .pending ∧
        (via = .callback → first.metadata.codeVerifier.isSome = true)) ∧
        row.state = first.state ∧ (via ≠ .google → login.claims.truthy "nonce" = true →
          login.claims.get? "nonce" = some (.str row.nonce)))
    (hspent : ∀ mint ∈ state.mints,
      (∀ row ∈ state.rows, row.id = mint.row.id → row.status ≠ .pending) →
      ∀ row ∈ after.rows, row.id = mint.row.id → row.status ≠ .pending)
    (hwritten : ∀ via row login token, state.calls call = .minted via row login token →
      ∀ stored ∈ after.rows, stored.id = row.id → stored.status ≠ .pending) :
    Binding host after := by
  have hcases : ∀ other now, after.calls other = now →
      other = call ∧ now = next ∨ other ≠ call ∧ state.calls other = now := by
    intro other now hother
    rw [hcalls] at hother
    exact OauthState.goes_on_calls hother
  refine ⟨hrooted, ?_, ?_, ?_, ?_, ?_⟩
  · intro other via first hother
    rcases hcases other _ hother with ⟨-, heq⟩ | ⟨-, hold⟩
    · exact hnext via first heq.symm
    · exact h.exchanging other via first hold
  · intro other via first row login hother
    rcases hcases other _ hother with ⟨-, heq⟩ | ⟨-, hold⟩
    · exact haccepted via first row login heq.symm
    · exact h.accepted other via first row login hold
  · rw [hmints]
    intro mint hmint
    rcases h.spent mint hmint with hdone | hwaits
    · exact .inl (hspent mint hmint hdone)
    · by_cases hown : ∃ via row login token, state.calls call = .minted via row login token ∧
        row.id = mint.row.id
      · obtain ⟨via, row, login, token, hcall, hid⟩ := hown
        exact .inl fun stored hstored hsame =>
          hwritten via row login token hcall stored hstored (hsame.trans hid.symm)
      · exact .inr (hwaits.goes_on hcalls fun via row login token hcall hid =>
          hown ⟨via, row, login, token, hcall, hid⟩)
  · rw [hmints]
    exact h.once
  · rw [hmints]
    exact h.bound

theorem update_oauth_spent {rows : Table OauthSession} {id other : String} {change : OauthChange}
    (hchange : change.status ≠ some .pending)
    (h : ∀ row ∈ rows, row.id = other → row.status ≠ .pending) :
    ∀ row ∈ updateOauth rows id change, row.id = other → row.status ≠ .pending := by
  intro row hrow hid
  obtain ⟨old, hold, rfl⟩ := mem_update_oauth.mp hrow
  split at hid <;> rename_i hsame
  · rw [if_pos hsame]
    show change.status.getD old.status ≠ .pending
    cases hstatus : change.status with
    | none => exact h old hold hid
    | some status =>
        rintro rfl
        exact hchange hstatus
  · rw [if_neg hsame]
    exact h old hold hid

theorem validate_oauth_callback_status {code : Bool} {error : Option String} {now : String}
    {change : OauthChange} (h : validateOauthCallback row code error now = some change) :
    change.status ≠ some .pending := by
  unfold validateOauthCallback at h
  split at h
  · cases h
  · split at h
    · cases h
      simp
    · cases h
      dsimp only
      split <;> simp

/-- What a caller of a completion checks, and the condition, say that the login was pending, and had
its verifier if Entra called back. -/
theorem begins_pending {via : OauthVia} {key : String}
    (hmeets : loginStep state (via.read call key) = true)
    (hkey : via ≠ .device → state.ofState key = some row) (hbegins : via.begins p row = true) :
    row.status = .pending ∧ (via = .callback → row.metadata.codeVerifier.isSome = true) := by
  cases via with
  | callback =>
      have hpending : row.status = .pending := by
        simpa [OauthVia.read, loginStep, hkey (by simp)] using hmeets
      refine ⟨hpending, fun _ => ?_⟩
      unfold OauthVia.begins holdsVerifier at hbegins
      cases hverifier : row.metadata.codeVerifier with
      | none => simp [hverifier] at hbegins
      | some verifier => rfl
  | google => exact ⟨of_decide_eq_true hbegins, nofun⟩
  | device =>
      simp only [OauthVia.begins, awaitsDevice, Bool.and_eq_true, decide_eq_true_eq] at hbegins
      exact ⟨hbegins.1.2, nofun⟩

theorem Binding.mint (h : Binding host state) {secret sessionId expiresAt now : String}
    {via : OauthVia} {first row : OauthSession}
    {login : OauthLogin} {token : MintedToken} {tables : SessionTables}
    (hcall : state.calls call = .accepted via first row login)
    (hmeets : LoginStep state (.mint call secret sessionId expiresAt now))
    (hrooted : Rooted host ({ state with
      tables
      mints := state.mints ++ [OauthMint.mk via (state.stored row.id) row login now] }.goesOn call
        (.minted via row login token))) :
    Binding host ({ state with
      tables
      mints := state.mints ++ [OauthMint.mk via (state.stored row.id) row login now] }.goesOn call
        (.minted via row login token)) := by
  obtain ⟨⟨hpending, hverifier⟩, hstate, hnonce⟩ := h.accepted call via first row login hcall
  obtain ⟨⟨hstored, htime⟩, hlogin⟩ : (state.stored first.id = some first ∧
      now < first.expiresAt) ∧ (via = .google ∨ login.claims.truthy "nonce" = true) := by
    simpa [loginStep, hcall] using hmeets.1
  have halone := hmeets.2 call secret sessionId expiresAt now via first row login rfl hcall
  have hfirst := (OauthState.mem_stored hstored).1
  have hseen : state.Seen row := .inr ⟨call, by rw [hcall]; exact .tail _ List.mem_cons_self⟩
  have hcolumns : first.columns = row.columns := by
    obtain ⟨stored, hmem, hsame⟩ := h.rooted.row row hseen
    rwa [Table.eq_of_conflict hfirst hmem (.inr ((columns_state hsame).trans hstate).symm)]
  have hid : first.id = row.id := columns_id hcolumns
  have hcases : ∀ {other next}, ({ state with
      tables
      mints := state.mints ++ [OauthMint.mk via (state.stored row.id) row login now] }.goesOn call
        (.minted via row login token)).calls other = next →
      other = call ∧ next = .minted via row login token ∨
        other ≠ call ∧ state.calls other = next := OauthState.goes_on_calls
  refine ⟨hrooted, ?_, ?_, ?_, ?_, ?_⟩
  · intro other via' first' hother
    rcases hcases hother with ⟨-, heq⟩ | ⟨-, hold⟩
    · cases heq
    · exact h.exchanging other via' first' hold
  · intro other via' first' row' login' hother
    rcases hcases hother with ⟨-, heq⟩ | ⟨-, hold⟩
    · cases heq
    · exact h.accepted other via' first' row' login' hold
  · intro mint hmint
    rcases List.mem_append.mp hmint with hold | hnew
    · refine (h.spent mint hold).imp_right fun hwaits => hwaits.goes_on rfl ?_
      intro via' row' login' token' hminted
      rw [hcall] at hminted
      cases hminted
    · rw [List.mem_singleton.mp hnew]
      exact .inr ⟨call, via, row, login, token, if_pos rfl, rfl⟩
  · show ((state.mints ++ [_]).map _).Nodup
    rw [List.map_append, List.nodup_append]
    refine ⟨h.once, List.nodup_singleton _, ?_⟩
    rintro old hold new hnew rfl
    obtain ⟨mint, hmint, rfl⟩ := List.mem_map.mp hold
    have hsame : mint.row.id = first.id := (List.mem_singleton.mp hnew).trans hid.symm
    rcases h.spent mint hmint with hdone | hwaits
    · exact hdone first hfirst hsame.symm hpending
    · exact halone (hsame ▸ hwaits)
  · intro mint hmint
    rcases List.mem_append.mp hmint with hold | hnew
    · exact h.bound mint hold
    · rw [List.mem_singleton.mp hnew]
      refine ⟨first, hid ▸ hstored, hpending, htime,
        h.rooted.challenged first (.inl hfirst), hverifier, fun hvia => ?_⟩
      have hread := hnonce hvia (hlogin.resolve_left hvia)
      rw [hread]
      have hsame := congrArg OauthSession.nonce hcolumns
      simp only [OauthSession.columns] at hsame
      rw [hsame]

/-- Every step that meets the condition keeps the logins bound. -/
theorem login_step (p : Platform) {action : OauthAction} (hmeets : LoginStep state action)
    (h : Binding host state) : Binding host (oauthStep p host state action) := by
  have hrooted := rooted_step p action h.rooted
  have hsame : ∀ mint ∈ state.mints,
      (∀ row ∈ state.rows, row.id = mint.row.id → row.status ≠ .pending) →
      ∀ row ∈ state.rows, row.id = mint.row.id → row.status ≠ .pending := fun _ _ hdone => hdone
  have hidle : ∀ {call}, state.calls call = .idle → ∀ {P : OauthSession → Prop} via row login token,
      state.calls call = .minted via row login token → P row := by
    intro call hcall P via row login token hminted
    rw [hcall] at hminted
    cases hminted
  have heffect := oauth_step_effect p host state action
  generalize oauthStep p host state action = after at heffect hrooted ⊢
  cases heffect with
  | kept => exact h
  | @ended action call hmint =>
      exact h.goes_on rfl rfl hrooted (by simp) (by simp) hsame
        fun via row login token hcall => absurd hcall (hmint via row login token)
  | stopped call =>
      refine h.goes_on rfl rfl hrooted (by simp) (by simp) hsame fun via row login token hcall => ?_
      have hstops := hmeets.1
      simp [loginStep, hcall] at hstops
  | @created call request draw rows next hcall hrows hnext =>
      refine h.goes_on rfl rfl hrooted ?_ ?_ (fun mint hmint hdone row hrow hid => ?_) (hidle hcall)
      · rcases hnext with rfl | rfl <;> simp
      · rcases hnext with rfl | rfl <;> simp
      · rcases (Table.mem_insert? hrows row).mp hrow with hold | rfl
        · exact hdone row hold hid
        · obtain ⟨stored, hstored, hcolumns⟩ := h.rooted.mint mint hmint
          exact absurd (.inl ((columns_id hcolumns).trans hid.symm))
            (Table.not_conflict_of_insert? hrows stored hstored)
  | @deviceStored call deviceCode id hcall =>
      refine h.goes_on rfl rfl hrooted (by simp) (by simp)
        (fun mint hmint hdone => update_oauth_spent (by simp) hdone)
        fun via row login token hother => ?_
      rw [hcall] at hother
      cases hother
  | @remembered action call row next hcall hrow hnext =>
      refine h.goes_on rfl rfl hrooted ?_ ?_ hsame (hidle hcall)
      · rcases hnext with ⟨code, error, rfl⟩ | ⟨consumeTokens, rfl⟩ <;> simp
      · rcases hnext with ⟨code, error, rfl⟩ | ⟨consumeTokens, rfl⟩ <;> simp
  | @began via call key row hcall hrow hkey hbegins =>
      refine h.goes_on rfl rfl hrooted ?_ (by simp) hsame (hidle hcall)
      rintro via' first ⟨⟩
      exact begins_pending hmeets.1 hkey hbegins
  | @validated call now row code error change hcall hchange =>
      refine h.goes_on rfl rfl hrooted (by simp) (by simp) (fun mint hmint hdone =>
        update_oauth_spent (validate_oauth_callback_status hchange) hdone)
        fun via row login token hother => ?_
      rw [hcall] at hother
      cases hother
  | @accepted call login clock via first row hcall hrow hstate hclaims =>
      refine h.goes_on rfl rfl hrooted (by simp) ?_ hsame fun via row login token hother => ?_
      · rintro via' first' row' login' ⟨⟩
        refine ⟨h.exchanging call via first hcall, hstate, fun hvia htruthy => ?_⟩
        exact check_claims_nonce (h.rooted.nonce row (.inl hrow)) (hclaims.resolve_left hvia)
          htruthy
      · rw [hcall] at hother
        cases hother
  | minted hcall hmint => exact h.mint hcall hmeets hrooted
  | @finished call now via row login token replies hcall hreplies =>
      refine h.goes_on rfl rfl hrooted (by simp) (by simp)
        (fun mint hmint hdone => update_oauth_spent (by simp) hdone)
        fun via' row' login' token' hother stored hstored hid => ?_
      rw [hcall] at hother
      cases hother
      obtain ⟨old, hold, rfl⟩ := mem_update_oauth.mp hstored
      split at hid <;> rename_i hne
      · rw [if_pos hne]
        simp [OauthChange.write]
      · exact absurd hid hne
  | @delivered call now row metadata replies hcall hstatus hmetadata hreplies =>
      refine h.goes_on rfl rfl hrooted (by simp) (by simp)
        (fun mint hmint hdone => update_oauth_spent (by simp) hdone)
        fun via row login token hother => ?_
      rw [hcall] at hother
      cases hother

/-- A run starts bound when it starts without logins. -/
theorem OauthState.Initial.binding (h : state.Initial) (hrows : ∀ row, row ∉ state.rows) :
    Binding host state := by
  have hnone : ∀ row, ¬ state.Seen row := fun row hseen => hrows row (h.seen hseen)
  have hmints : ∀ mint, mint ∉ state.mints := by simp [h.mints]
  refine ⟨⟨fun row hseen => absurd hseen (hnone row), fun mint hmint => absurd hmint (hmints mint),
    fun row hseen => absurd hseen (hnone row), fun row hseen => absurd hseen (hnone row)⟩, ?_, ?_,
    fun mint hmint => absurd hmint (hmints mint), by simp [h.mints],
    fun mint hmint => absurd hmint (hmints mint)⟩
  · intro call via first hcall
    rw [h.idle call] at hcall
    cases hcall
  · intro call via first row login hcall
    rw [h.idle call] at hcall
    cases hcall

/-- Two mints of one state text are of one login. -/
theorem Binding.bound_of_binding (h : Binding host state) : LoginBound host state := by
  refine ⟨List.pairwise_map.mpr ?_, h.bound⟩
  refine (List.pairwise_map.mp h.once).imp_of_mem fun {first second} hfirst hsecond hne hsame => ?_
  obtain ⟨one, hone, hcolumns⟩ := h.rooted.mint first hfirst
  obtain ⟨two, htwo, hother⟩ := h.rooted.mint second hsecond
  have heq : one = two := Table.eq_of_conflict hone htwo
    (.inr ((columns_state hcolumns).trans (hsame.trans (columns_state hother).symm)))
  exact hne ((columns_id hcolumns).symm.trans ((congrArg OauthSession.id heq).trans
    (columns_id hother)))

end

/-- In every run that starts without logins, in which Entra's callbacks read pending logins, and
each completion mints alone, on the row its caller read, in time, and for a token with a nonce, no
login mints twice, and each that mints is pending, in time, and bound by its nonce and its
verifier. -/
theorem login_bound (p : Platform) (host : OauthHost) (state : OauthState)
    (hstart : state.Initial) (hrows : ∀ row, row ∉ state.rows) (actions : List OauthAction)
    (halong : Along (oauthStep p host) LoginStep state actions) :
    LoginBound host (run (oauthStep p host) state actions) :=
  (run_invariant_along (fun _ _ hmeets h => login_step p hmeets h) halong
    (hstart.binding hrows)).bound_of_binding

/-- The request a step belongs to. -/
def OauthAction.call : OauthAction → Nat
  | .create call _ _ | .device call _ | .validateRead call _ _ _ | .validateWrite call _
  | .callbackRead call _ | .googleRead call _ | .pollRead call _ | .giveUp call
  | .completeRead call _ _ | .mint call _ _ _ _ | .finish call _ | .statusRead call _ _
  | .statusWrite call _ => call

section

variable {p : Platform} {host : OauthHost} {state : OauthState}

theorem oauth_step_calls {action : OauthAction} {other : Nat} (h : other ≠ action.call) :
    (oauthStep p host state action).calls other = state.calls other := by
  cases action <;> simp only [OauthAction.call] at h <;> simp only [oauthStep] <;> repeat' split
  all_goals first
    | rfl
    | exact if_neg h

/-- No request of a list is between its mint and its write for the login of this mint. -/
def mintsAmong (calls : List Nat) (state : OauthState) (action : OauthAction) : Bool :=
  match action with
  | .mint call _ _ _ _ =>
      match state.calls call with
      | .accepted _ first _ _ =>
          calls.all fun other =>
            match state.calls other with
            | .minted _ row _ _ => row.id ≠ first.id
            | _ => true
      | _ => true
  | _ => true

/-- In a run of the requests of a list, a request that meets none of these mints alone. -/
theorem along_login_step (actions : List OauthAction) (calls : List Nat) (hstart : state.Initial)
    (hcalls : ∀ action ∈ actions, action.call ∈ calls)
    (halong : Along (oauthStep p host)
      (fun state action => (loginStep state action && mintsAmong calls state action) = true) state
      actions) :
    Along (oauthStep p host) LoginStep state actions := by
  rw [along_iff] at halong ⊢
  intro first action second hsplit
  have hidle : ∀ other ∉ calls, (run (oauthStep p host) state first).calls other = .idle := by
    have hfirst : ∀ action ∈ first, action.call ∈ calls := fun action haction =>
      hcalls action (by rw [hsplit]; exact List.mem_append_left _ haction)
    clear hsplit
    intro other hother
    induction first using List.reverseRecOn with
    | nil => exact hstart.idle other
    | append_singleton first last ih =>
        rw [run_append]
        show (oauthStep p host _ last).calls other = .idle
        have hne : other ≠ last.call := by
          rintro rfl
          exact hother (hfirst last (by simp))
        rw [oauth_step_calls hne]
        exact ih fun action haction => hfirst action (List.mem_append_left _ haction)
  obtain ⟨hmeets, hamong⟩ := Bool.and_eq_true_iff.mp (halong first action second hsplit)
  refine ⟨hmeets, ?_⟩
  rintro mine secret sessionId expiresAt now via row read login rfl hcall
    ⟨other, via', written, login', token, hother, hid⟩
  by_cases hlisted : other ∈ calls
  · rw [mintsAmong, hcall] at hamong
    have hne := List.all_eq_true.mp hamong other hlisted
    simp [hother, hid] at hne
  · rw [hidle other hlisted] at hother
    cases hother

end

/-- What is drawn for the second login. -/
def secondDraw : OauthDraw where
  id := "oauth_2"
  state := "other state"
  nonce := "other nonce"
  nonce_ne := by decide
  verifier := "other verifier"
  expiresAt := "2026-01-01T00:10:00Z"

/-- Two logins of the administrator, the second of which is completed while the first is. -/
def twoLogins : List OauthAction :=
  [.create 0 browserLogin firstDraw, .create 1 browserLogin secondDraw, .callbackRead 0 "state",
    .callbackRead 1 "other state", .completeRead 0 adminLogin 0,
    .mint 0 "secret" "cms_1" "2026-02-01T00:00:00Z" "2026-01-01T00:00:00Z",
    .completeRead 1 { adminLogin with claims := adminLogin.claims.set "nonce" (.str "other nonce") }
      0,
    .mint 1 "other secret" "cms_2" "2026-02-01T00:00:00Z" "2026-01-01T00:00:01Z",
    .finish 1 "2026-01-01T00:00:01Z", .finish 0 "2026-01-01T00:00:02Z"]

/-- Each of the two mints once. -/
theorem login_bound_two_logins :
    LoginBound loginHost (run (oauthStep .sample loginHost) loginStart twoLogins) := by
  refine login_bound .sample loginHost loginStart login_start_initial (by simp [loginStart])
    twoLogins (along_login_step twoLogins [0, 1] login_start_initial ?_ ?_)
  · simp [twoLogins, OauthAction.call]
  · decide +kernel

/-- A login that failed in the browser mints afterwards all the same. -/
theorem login_bound_counterexample :
    ¬ ∀ (p : Platform) (host : OauthHost) (state : OauthState), state.Initial →
      (∀ row, row ∉ state.rows) →
      ∀ actions : List OauthAction, LoginBound host (run (oauthStep p host) state actions) := by
  intro hclaim
  have hbound := (hclaim .sample loginHost loginStart login_start_initial (by simp [loginStart])
    [.create 0 browserLogin firstDraw, .validateRead 0 "state" false (some "access_denied"),
      .validateWrite 0 "2026-01-01T00:00:00Z", .callbackRead 0 "state",
      .completeRead 0 adminLogin 0,
      .mint 0 "secret" "cms_1" "2026-02-01T00:00:00Z" "2026-01-01T00:00:01Z"]).bound
  have hfailed : ∃ mint ∈ (run (oauthStep .sample loginHost) loginStart
      [.create 0 browserLogin firstDraw, .validateRead 0 "state" false (some "access_denied"),
        .validateWrite 0 "2026-01-01T00:00:00Z", .callbackRead 0 "state",
        .completeRead 0 adminLogin 0,
        .mint 0 "secret" "cms_1" "2026-02-01T00:00:00Z" "2026-01-01T00:00:01Z"]).mints,
      mint.stored.map (·.status) = some .failed := by
    decide +kernel
  obtain ⟨mint, hmint, hstatus⟩ := hfailed
  obtain ⟨row, hrow⟩ := hbound mint hmint
  rw [hrow.stored, Option.map_some, hrow.pending] at hstatus
  cases hstatus

end Capmesh
