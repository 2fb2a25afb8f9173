import GovernedAutonomy.ClaimsMapper
import GovernedAutonomy.Faults
import GovernedAutonomy.Protocol.Calls
import GovernedAutonomy.Python.Doubles

namespace GovernedAutonomy

open Python Protocol

structure PendingOIDCLogin where
  nonce : Str
  codeVerifier : Str
  expiresAt : ℚ
  nextPath : Str

-- a session whose expiry is not a number has none
structure BrowserSession where
  identity : RuntimeIdentity
  expiresAt : Option ℚ

def loginStateTtlSeconds : ℚ := 600

def maxBrowserSessionSeconds : ℚ := 8 * 60 * 60

def tokenKey (P : Primitives) (token : Str) : Option Str := (encode token).map (hexdigest P)

-- to_timestamp keeps the order of its arguments, and fails on those out of its range
structure SessionServer extends PostgresServer where
  toTimestamp : ℚ → Option ℤ
  ordered : ∀ {a b : ℚ} {x y : ℤ}, a ≤ b → toTimestamp a = some x → toTimestamp b = some y → x ≤ y

inductive RecordType where
  | pending
  | session
deriving DecidableEq

structure SessionRow where
  recordType : RecordType
  payload : Str
  expiresAt : ℤ

abbrev SessionRows := List (Str × SessionRow)

namespace PostgresOIDCSessionRepository

variable (P : Primitives) (server : SessionServer) (rows : SessionRows)

def payloadStyle : Style := ⟨true, true⟩

def databaseError : Exc := .custom "DatabaseError" false [] .none

-- _save; a jsonb column keeps no order of the members it is given
def save (token : Str) (recordType : RecordType) (payload : PyDict) (expiresAt : Option ℚ) :
    Result SessionRows :=
  match tokenKey P token with
  | none => .error (.builtin .unicodeEncodeError)
  | some key => do
      let text ← P.dumps payloadStyle (.dict payload)
      match server.jsonbText text, expiresAt.bind server.toTimestamp with
      | some stored, some timestamp => .ok (Dict.set rows key ⟨recordType, stored, timestamp⟩)
      | _, _ => .error databaseError

-- the row of a statement's condition, with its key
def find (token : Str) (recordType : RecordType) (now : ℚ) : Result (Option (Str × SessionRow)) :=
  match tokenKey P token, server.toTimestamp now with
  | none, _ => .error (.builtin .unicodeEncodeError)
  | some _, none => .error databaseError
  | some key, some timestamp =>
      .ok (((Dict.get rows key).filter
        (fun row => row.recordType = recordType ∧ timestamp < row.expiresAt)).map (key, ·))

def payloadOf (row : SessionRow) : Result PyDict := do
  let value ← P.loads row.payload
  match value with
  | .dict payload => .ok payload
  | _ => .error (.builtin .typeError)

def strMember (payload : PyDict) (name : String) : Result Str :=
  match payload.get name with
  | none => .error (.builtin .keyError)
  | some (.str s) => .ok s
  | some value => P.repr value

def savePending (state : Str) (login : PendingOIDCLogin) : Result SessionRows :=
  save P server rows state .pending (PyDict.ofFields
    [("nonce", .str login.nonce), ("code_verifier", .str login.codeVerifier),
      ("next_path", .str login.nextPath)]) (some login.expiresAt)

def pendingOf (now : Reading) (row : SessionRow) : Result PendingOIDCLogin := do
  let payload ← payloadOf P row
  let nonce ← strMember P payload "nonce"
  let codeVerifier ← strMember P payload "code_verifier"
  let nextPath ← strMember P payload "next_path"
  .ok ⟨nonce, codeVerifier, now.plus 1, nextPath⟩

def saveSession (token : Str) (session : BrowserSession) : Result SessionRows :=
  save P server rows token .session session.identity.asdict session.expiresAt

end PostgresOIDCSessionRepository

-- the process-local store, or the one over the repository of a server
structure OIDCSessionStore where
  maxEntries : ℤ := 10000
  repository : Option SessionServer := none

-- get_session answers an identity in process, and over the repository a session that is made
-- of what its payload says
inductive SessionAnswer where
  | identity (identity : RuntimeIdentity)
  | session (payload : PyDict)

-- issued and created say whether the call returned what it stored
inductive SessionEvent where
  | presented (token : Str)
  | issued (state : Str) (now : Reading) (returned : Bool)
  | consumed (state : Str) (now : Reading)
  | created (token : Str) (identity : RuntimeIdentity) (exp : PyVal) (now : Reading)
      (returned : Bool)
  | answered (token : Str) (now : Reading) (answer : SessionAnswer)
  | revoked (token : Str)

-- a call that has read the clock and has not taken the lock; revoke reads no clock
inductive SessionPhase where
  | idle
  | beginning (now : Reading) (nextPath : Str)
  | consuming (now : Reading) (state : Str)
  | creating (now : Reading) (exp : PyVal) (session : BrowserSession)
  | getting (now : Reading) (token : Str)
  | revoking (token : Str)

-- what secrets.token_urlsafe makes for a call; a session token that nobody has seen may as well
-- be made when it is stored
structure MadeTokens where
  token : Str
  nonce : Str
  codeVerifier : Str

-- a database error may come with the statement committed or without
abbrev RepositoryFault := Option (Bool × Exc)

-- the clock may be set back; a restart ends every call and loses what the process held, and a
-- row may be deleted by somebody else
inductive SessionMove (ι : Type) where
  | tick (now : Reading)
  | restart
  | loseRow (key : Str)
  | beginLogin (i : ι) (nextPath : Str)
  | consumeLogin (i : ι) (state : Str)
  | createSession (i : ι) (identity : ExternalIdentity)
  | getSession (i : ι) (token : Str)
  | revokeSession (i : ι) (token : Str)
  | locked (i : ι) (made : MadeTokens) (fault : RepositoryFault)

structure SessionWorld (ι : Type) where
  clock : Reading
  pending : List (Str × PendingOIDCLogin) := []
  sessions : List (Str × BrowserSession) := []
  rows : SessionRows := []
  phase : ι → SessionPhase := fun _ => .idle
  trace : List SessionEvent := []

-- min(float(exp), now + eight hours) for an exp that has not passed
def sessionExpiry (exp : PyVal) (now : Reading) : Result (Option ℚ) :=
  let invalid := identityValidationError (lit "OIDC identity token expiry is invalid")
  let longest := now.plus maxBrowserSessionSeconds
  match exp with
  | .int i =>
      if (i : ℚ) ≤ now.seconds then .error invalid
      else
        match double i with
        | some x => .ok (some (min x longest))
        | none => .error (.builtin .overflowError)
  | .float (.finite neg m) =>
      let x := if neg then -m.value else m.value
      if x ≤ now.seconds then .error invalid else .ok (some (min x longest))
  | .float (.inf false) => .ok (some longest)
  | .float .nan => .ok none
  | _ => .error invalid

namespace SessionWorld

variable {ι : Type} (P : Primitives) (U : UnicodeTables) (V : OIDCSessionStore)
  (w : SessionWorld ι)

def log (event : SessionEvent) : SessionWorld ι := { w with trace := w.trace ++ [event] }

def prune (now : Reading) : SessionWorld ι :=
  { w with
    pending := w.pending.filter (fun m => decide (now.seconds < m.2.expiresAt))
    sessions := w.sessions.filter (fun m => m.2.expiresAt.any (fun e => decide (now.seconds < e))) }

def entries : ℤ := w.pending.length + w.sessions.length

open PostgresOIDCSessionRepository

def storeLogin (now : Reading) (nextPath : Str) (made : MadeTokens) (fault : RepositoryFault) :
    SessionWorld ι :=
  let login : PendingOIDCLogin :=
    ⟨made.nonce, made.codeVerifier, now.plus loginStateTtlSeconds, nextPath⟩
  match V.repository with
  | none =>
      { w with pending := Dict.set w.pending made.token login }.log (.issued made.token now true)
  | some server =>
      match savePending P server w.rows made.token login, fault with
      | .error _, _ => w
      | .ok rows, none => { w with rows := rows }.log (.issued made.token now true)
      | .ok rows, some (true, _) => { w with rows := rows }.log (.issued made.token now false)
      | .ok _, some (false, _) => w

def beginLogin (now : Reading) (nextPath : Str) (made : MadeTokens) (fault : RepositoryFault) :
    SessionWorld ι :=
  if V.maxEntries ≤ (w.prune now).entries then w.prune now
  else (w.prune now).storeLogin P V now nextPath made fault

-- the check of the expiry that a consumed login meets last
def concludeLogin (now : Reading) (state : Str) (login : PendingOIDCLogin) : SessionWorld ι :=
  if login.expiresAt ≤ now.seconds then w else w.log (.consumed state now)

def popLogin (now : Reading) (state : Str) : SessionWorld ι :=
  match Dict.get w.pending state with
  | none => w
  | some login =>
      { w with pending := Dict.erase w.pending state }.concludeLogin now state login

-- DELETE .. RETURNING, whose row is read once it is committed
def deleteLogin (server : SessionServer) (now : Reading) (state : Str) (fault : RepositoryFault) :
    SessionWorld ι :=
  match find P server w.rows state .pending now.seconds with
  | .error _ => w
  | .ok none => w
  | .ok (some (key, row)) =>
      match fault with
      | some (true, _) => { w with rows := Dict.erase w.rows key }
      | some (false, _) => w
      | none =>
          match pendingOf P now row with
          | .error _ => { w with rows := Dict.erase w.rows key }
          | .ok login => { w with rows := Dict.erase w.rows key }.concludeLogin now state login

def consumeLogin (now : Reading) (state : Str) (fault : RepositoryFault) : SessionWorld ι :=
  match V.repository with
  | none => (w.prune now).popLogin now state
  | some server => (w.prune now).deleteLogin P server now state fault

def storeSession (now : Reading) (exp : PyVal) (session : BrowserSession) (token : Str)
    (fault : RepositoryFault) : SessionWorld ι :=
  match V.repository with
  | none =>
      match tokenKey P token with
      | none => w
      | some key =>
          { w with sessions := Dict.set w.sessions key session }.log
            (.created token session.identity exp now session.expiresAt.isSome)
  | some server =>
      match saveSession P server w.rows token session, fault with
      | .error _, _ => w
      | .ok rows, none =>
          { w with rows := rows }.log (.created token session.identity exp now true)
      | .ok rows, some (true, _) =>
          { w with rows := rows }.log (.created token session.identity exp now false)
      | .ok _, some (false, _) => w

def createSession (now : Reading) (exp : PyVal) (session : BrowserSession) (token : Str)
    (fault : RepositoryFault) : SessionWorld ι :=
  if V.maxEntries ≤ (w.prune now).entries then w.prune now
  else (w.prune now).storeSession P V now exp session token fault

def readSession (now : Reading) (token : Str) : SessionWorld ι :=
  match tokenKey P token with
  | none => w
  | some key =>
      match Dict.get w.sessions key with
      | none => w
      | some session =>
          if session.expiresAt.any (fun e => decide (e ≤ now.seconds)) then
            { w with sessions := Dict.erase w.sessions key }
          else w.log (.answered token now (.identity session.identity))

-- the session that the repository answers, once a row is found and nothing raises
def liveSession (server : SessionServer) (now : Reading) (token : Str) (fault : RepositoryFault) :
    Option PyDict :=
  match find P server w.rows token .session now.seconds, fault with
  | .ok (some (_, row)), none => (payloadOf P row).toOption
  | _, _ => none

def getSession (now : Reading) (token : Str) (fault : RepositoryFault) : SessionWorld ι :=
  match V.repository with
  | none => w.readSession P now token
  | some server =>
      match w.liveSession P server now token fault with
      | some payload => w.log (.answered token now (.session payload))
      | none => w

def revokeSession (token : Str) (fault : RepositoryFault) : SessionWorld ι :=
  match tokenKey P token, V.repository, fault with
  | none, _, _ => w
  | some key, none, _ =>
      { w with sessions := Dict.erase w.sessions key }.log (.revoked token)
  | some key, some _, none =>
      { w with
        rows := w.rows.filter (fun m => ¬ (m.1 = key ∧ m.2.recordType = RecordType.session)) }.log
        (.revoked token)
  | some key, some _, some (true, _) =>
      { w with
        rows := w.rows.filter (fun m => ¬ (m.1 = key ∧ m.2.recordType = RecordType.session)) }
  | some _, some _, some (false, _) => w

def enter (made : MadeTokens) (fault : RepositoryFault) : SessionPhase → SessionWorld ι
  | .idle => w
  | .beginning now nextPath => w.beginLogin P V now nextPath made fault
  | .consuming now state => w.consumeLogin P V now state fault
  | .creating now exp session => w.createSession P V now exp session made.token fault
  | .getting now token => w.getSession P V now token fault
  | .revoking token => w.revokeSession P V token fault

-- the part of create_session before its lock
def draftSession (identity : ExternalIdentity) : Result SessionPhase := do
  let exp := identity.claims.getD "exp"
  let expiresAt ← sessionExpiry exp w.clock
  let core ← RuntimeIdentity.fromExternalIdentity U identity
  .ok (.creating w.clock exp ⟨core, expiresAt⟩)

end SessionWorld

namespace SessionWorld

variable {ι : Type} [DecidableEq ι] (P : Primitives) (U : UnicodeTables) (V : OIDCSessionStore)
  (w : SessionWorld ι)

def goTo (i : ι) (phase : SessionPhase) : SessionWorld ι :=
  { w with phase := Function.update w.phase i phase }

-- a call that is not in progress begins
def start (i : ι) (phase : SessionPhase) : SessionWorld ι :=
  match w.phase i with
  | .idle => w.goTo i phase
  | _ => w

def present (i : ι) (token : Str) (phase : SessionPhase) : SessionWorld ι :=
  match w.phase i with
  | .idle => (w.log (.presented token)).goTo i phase
  | _ => w

def step : SessionMove ι → SessionWorld ι
  | .tick now => { w with clock := now }
  | .restart => { w with pending := [], sessions := [], phase := fun _ => .idle }
  | .loseRow key => { w with rows := Dict.erase w.rows key }
  | .beginLogin i nextPath => w.start i (.beginning w.clock nextPath)
  | .consumeLogin i state => w.present i state (.consuming w.clock state)
  | .createSession i identity =>
      match w.draftSession U identity with
      | .error _ => w
      | .ok phase => w.start i phase
  | .getSession i token =>
      match tokenKey P token with
      | none => w
      | some _ => w.present i token (.getting w.clock token)
  | .revokeSession i token => w.present i token (.revoking token)
  | .locked i made fault => (w.enter P V made fault (w.phase i)).goTo i .idle

end SessionWorld

-- the token that an event makes known, and whether its call returned it
def SessionEvent.made? : SessionEvent → Option (Str × Bool)
  | .issued state _ returned => some (state, returned)
  | .created token _ _ _ returned => some (token, returned)
  | _ => none

def SessionEvent.token? : SessionEvent → Option Str
  | .presented token => some token
  | event => event.made?.map Prod.fst

def SessionMove.presented? {ι : Type} : SessionMove ι → Option Str
  | .consumeLogin _ state => some state
  | .getSession _ token => some token
  | .revokeSession _ token => some token
  | _ => none

namespace SessionWorld

variable {ι : Type} (P : Primitives) (V : OIDCSessionStore) (w : SessionWorld ι)

-- a token is presented by somebody it was returned to, and no two tokens share a digest
def Known (token : Str) : Prop :=
  ∀ e ∈ w.trace, ∀ made ∈ e.made?, tokenKey P token = tokenKey P made.1 →
    token = made.1 ∧ made.2 = true

-- a fresh token is new
def Fresh (token : Str) : Prop :=
  (tokenKey P token).isSome = true ∧
    ∀ e ∈ w.trace, ∀ other ∈ e.token?, tokenKey P other ≠ tokenKey P token

def making? (i : ι) (made : MadeTokens) : Option Str :=
  match w.phase i with
  | .beginning _ _ => some made.token
  | .creating _ _ _ => some made.token
  | _ => none

def fresh? : SessionMove ι → Option Str
  | .locked i made _ => w.making? i made
  | _ => none

structure Unguessed (move : SessionMove ι) : Prop where
  known : ∀ token ∈ move.presented?, w.Known P token
  fresh : ∀ token ∈ w.fresh? move, w.Fresh P token

instance (token : Str) : Decidable (w.Known P token) :=
  inferInstanceAs (Decidable (∀ e ∈ w.trace, ∀ made ∈ e.made?, _ → _))

instance (token : Str) : Decidable (w.Fresh P token) := inferInstanceAs (Decidable (_ ∧ _))

instance (move : SessionMove ι) : Decidable (w.Unguessed P move) :=
  decidable_of_iff ((∀ token ∈ move.presented?, w.Known P token) ∧
    ∀ token ∈ w.fresh? move, w.Fresh P token) ⟨fun h => ⟨h.1, h.2⟩, fun h => ⟨h.known, h.fresh⟩⟩

end SessionWorld

-- the clock stands before the exp of an identity
def Before (now : Reading) (exp : PyVal) : Prop :=
  ∀ e, exp.number? = some e → (((now.seconds : ℚ) : WithTop ℚ) : PyFloat.Extended) < e

namespace SessionEvent

variable (P : Primitives) (V : OIDCSessionStore)

-- what is answered of the identity that a session was created with
def Carries (identity : RuntimeIdentity) : SessionAnswer → Prop
  | .identity other => other = identity
  | .session payload =>
      ∃ server, V.repository = some server ∧
        ∃ text stored,
          P.dumps PostgresOIDCSessionRepository.payloadStyle (.dict identity.asdict) = .ok text ∧
          server.jsonbText text = some stored ∧ P.loads stored = .ok (.dict payload)

-- what an event may say after the ones before it
def Justified (before : List SessionEvent) : SessionEvent → Prop
  | .consumed state now =>
      (∀ earlier, .consumed state earlier ∉ before) ∧
        ∃ began, .issued state began true ∈ before ∧
          now.seconds < began.seconds + loginStateTtlSeconds
  | .answered token now answer =>
      ∃ identity exp created, .created token identity exp created true ∈ before ∧
        .revoked token ∉ before ∧ Before now exp ∧
          now.seconds < created.seconds + maxBrowserSessionSeconds ∧ Carries P V identity answer
  | _ => True

-- every event is justified by its past
def AllJustified (trace : List SessionEvent) : Prop :=
  Calls.Each (fun before event => before ++ [event]) (Justified P V) [] trace

end SessionEvent

namespace SessionWorld

structure Safe {ι : Type} (P : Primitives) (V : OIDCSessionStore) (w : SessionWorld ι) : Prop where
  justified : SessionEvent.AllJustified P V w.trace
  bounded : w.entries ≤ max 0 V.maxEntries

def opened {ι : Type} (clock : Reading) : SessionWorld ι := { clock }

end SessionWorld

theorem mem_erase_list {V : Type*} {d : List (Str × V)} {k : Str} {m : Str × V}
    (h : m ∈ Dict.erase d k) : m ∈ d ∧ m.1 ≠ k := by
  obtain ⟨hmem, hkey⟩ := List.mem_filter.mp h
  refine ⟨hmem, ?_⟩
  simpa using hkey

section Expiry

variable {exp : PyVal} {now later : Reading} {e : ℚ}

theorem lt_min_longest {x : ℚ} (h : later.seconds < min x (now.plus maxBrowserSessionSeconds)) :
    later.seconds < x ∧ later.seconds < now.seconds + maxBrowserSessionSeconds :=
  ⟨(lt_min_iff.mp h).1, Reading.lt_of_lt_plus (lt_min_iff.mp h).2⟩

-- a reading below the expiry of a session is below both of the bounds it is made of
theorem before_of_sessionExpiry (h : sessionExpiry exp now = .ok (some e))
    (hlater : later.seconds < e) :
    Before later exp ∧ later.seconds < now.seconds + maxBrowserSessionSeconds := by
  rw [sessionExpiry.eq_def] at h
  simp only at h
  split at h
  · next i =>
      split at h
      · cases h
      · split at h
        · next x hx =>
            obtain rfl := Option.some.inj (Except.ok.inj h)
            obtain ⟨hx', hlongest⟩ := lt_min_longest hlater
            refine ⟨?_, hlongest⟩
            intro e he
            obtain rfl := Option.some.inj he
            have hlt := Reading.lt_of_lt_double hx hx'
            rw [intValue]
            exact_mod_cast hlt
        · cases h
  · next neg m =>
      generalize hx : (if neg then -m.value else m.value) = x at h
      split at h
      · cases h
      · obtain rfl := Option.some.inj (Except.ok.inj h)
        obtain ⟨hlt, hlongest⟩ := lt_min_longest hlater
        refine ⟨?_, hlongest⟩
        intro e he
        obtain rfl := Option.some.inj he
        rw [hx]
        exact_mod_cast hlt
  · obtain rfl := Option.some.inj (Except.ok.inj h)
    refine ⟨?_, Reading.lt_of_lt_plus hlater⟩
    intro e he
    obtain rfl := Option.some.inj he
    exact_mod_cast WithTop.coe_lt_top _
  · cases h
  · cases h

end Expiry

namespace PostgresOIDCSessionRepository

variable {P : Primitives} {server : SessionServer} {rows rows' : SessionRows} {token : Str}
  {recordType : RecordType} {payload : PyDict} {expiresAt : Option ℚ} {now : ℚ}

structure Saved (P : Primitives) (server : SessionServer) (rows rows' : SessionRows) (token : Str)
    (recordType : RecordType) (payload : PyDict) (expiresAt : ℚ) (key text : Str)
    (row : SessionRow) : Prop where
  hashed : tokenKey P token = some key
  dumped : P.dumps payloadStyle (.dict payload) = .ok text
  stored : server.jsonbText text = some row.payload
  expires : server.toTimestamp expiresAt = some row.expiresAt
  typed : row.recordType = recordType
  written : rows' = Dict.set rows key row

theorem save_eq_ok (h : save P server rows token recordType payload expiresAt = .ok rows') :
    ∃ e key text row, expiresAt = some e ∧
      Saved P server rows rows' token recordType payload e key text row := by
  rw [save] at h
  split at h
  · cases h
  · next key hkey =>
      obtain ⟨text, htext, h⟩ := bind_eq_ok.mp h
      split at h
      · next stored timestamp hstored htimestamp =>
          obtain ⟨e, he, htimestamp⟩ := Option.bind_eq_some_iff.mp htimestamp
          exact ⟨e, key, text, ⟨recordType, stored, timestamp⟩, he,
            ⟨hkey, htext, hstored, htimestamp, rfl, (Except.ok.inj h).symm⟩⟩
      · cases h

theorem find_eq_some {key : Str} {row : SessionRow}
    (h : find P server rows token recordType now = .ok (some (key, row))) :
    tokenKey P token = some key ∧ (key, row) ∈ rows ∧ row.recordType = recordType ∧
      ∃ timestamp, server.toTimestamp now = some timestamp ∧ timestamp < row.expiresAt := by
  rw [find] at h
  split at h
  · cases h
  · cases h
  · next key' timestamp hkey htimestamp =>
      obtain ⟨row', hrow', hpair⟩ := Option.map_eq_some_iff.mp (Except.ok.inj h)
      obtain ⟨rfl, rfl⟩ := Prod.mk.inj hpair
      obtain ⟨hget, hrow⟩ := Option.filter_eq_some_iff.mp hrow'
      obtain ⟨htype, hlt⟩ := of_decide_eq_true hrow
      exact ⟨hkey, Dict.mem_of_get hget, htype, timestamp, htimestamp, hlt⟩

-- the server compares the moments that it makes of two numbers, in their order
theorem lt_of_timestamps {a b : ℚ} {x y : ℤ} (ha : server.toTimestamp a = some x)
    (hb : server.toTimestamp b = some y) (h : x < y) : a < b := by
  by_contra hle
  exact absurd (server.ordered (not_lt.mp hle) hb ha) (not_le.mpr h)

end PostgresOIDCSessionRepository

namespace SessionWorld

-- a login that was issued and not taken up
structure LoginOpen (trace : List SessionEvent) (state : Str) (began : Reading)
    (returned : Bool) : Prop where
  issued : .issued state began returned ∈ trace
  unused : ∀ earlier, .consumed state earlier ∉ trace

-- a session that was created and not revoked
structure SessionOpen (trace : List SessionEvent) (token : Str) (identity : RuntimeIdentity)
    (exp : PyVal) (created : Reading) (returned : Bool) (expiresAt : Option ℚ) : Prop where
  made : .created token identity exp created returned ∈ trace
  live : .revoked token ∉ trace
  expiry : sessionExpiry exp created = .ok expiresAt

structure PendingRow (P : Primitives) (server : SessionServer) (trace : List SessionEvent)
    (key : Str) (row : SessionRow) (state : Str) (began : Reading) (returned : Bool) : Prop where
  hashed : tokenKey P state = some key
  isOpen : LoginOpen trace state began returned
  expires : server.toTimestamp (began.plus loginStateTtlSeconds) = some row.expiresAt

structure SessionStored (P : Primitives) (server : SessionServer) (trace : List SessionEvent)
    (key : Str) (row : SessionRow) (token : Str) (identity : RuntimeIdentity) (exp : PyVal)
    (created : Reading) (returned : Bool) (e : ℚ) : Prop where
  hashed : tokenKey P token = some key
  isOpen : SessionOpen trace token identity exp created returned (some e)
  expires : server.toTimestamp e = some row.expiresAt
  stored : ∃ text, P.dumps PostgresOIDCSessionRepository.payloadStyle (.dict identity.asdict) =
    .ok text ∧ server.jsonbText text = some row.payload

-- what a row stands for
def RowBacked (P : Primitives) (server : SessionServer) (trace : List SessionEvent)
    (m : Str × SessionRow) : Prop :=
  match m.2.recordType with
  | .pending => ∃ state began returned, PendingRow P server trace m.1 m.2 state began returned
  | .session => ∃ token identity exp created returned e,
      SessionStored P server trace m.1 m.2 token identity exp created returned e

structure MemorySession (P : Primitives) (trace : List SessionEvent) (key : Str)
    (session : BrowserSession) (token : Str) (exp : PyVal) (created : Reading) : Prop where
  hashed : tokenKey P token = some key
  isOpen : SessionOpen trace token session.identity exp created session.expiresAt.isSome
    session.expiresAt

variable {ι : Type} (P : Primitives) (V : OIDCSessionStore)

-- every entry of the store was put there by a call, and is still good
structure Backed (w : SessionWorld ι) : Prop where
  pending : V.repository = none → ∀ m ∈ w.pending, ∃ began,
    LoginOpen w.trace m.1 began true ∧ m.2.expiresAt = began.plus loginStateTtlSeconds
  sessions : V.repository = none → ∀ m ∈ w.sessions, ∃ token exp created,
    MemorySession P w.trace m.1 m.2 token exp created
  rows : ∀ server, V.repository = some server → ∀ m ∈ w.rows, RowBacked P server w.trace m

-- whoever holds a token in the course of a call has presented it, and was given it
structure Held (w : SessionWorld ι) (token : Str) : Prop where
  presented : .presented token ∈ w.trace
  known : w.Known P token

def PhaseHeld (w : SessionWorld ι) : SessionPhase → Prop
  | .idle => True
  | .beginning _ _ => True
  | .consuming _ state => w.Held P state
  | .creating now exp session => sessionExpiry exp now = .ok session.expiresAt
  | .getting _ token => w.Held P token
  | .revoking token => w.Held P token

structure Sound (w : SessionWorld ι) : Prop where
  backed : Backed P V w
  justified : SessionEvent.AllJustified P V w.trace
  consumed : ∀ state now, .consumed state now ∈ w.trace → .presented state ∈ w.trace
  revoked : ∀ token, .revoked token ∈ w.trace → .presented token ∈ w.trace
  phases : ∀ i, w.PhaseHeld P (w.phase i)
  bounded : w.entries ≤ max 0 V.maxEntries

variable {P V} {w w' : SessionWorld ι} {event : SessionEvent} {token state : Str}
  {trace : List SessionEvent}

theorem LoginOpen.concat {began : Reading} {returned : Bool}
    (h : LoginOpen trace state began returned) (hevent : ∀ now, event ≠ .consumed state now) :
    LoginOpen (trace ++ [event]) state began returned where
  issued := List.mem_append_left _ h.issued
  unused := by
    intro earlier hmem
    rcases List.mem_append.mp hmem with hmem | hmem
    · exact h.unused earlier hmem
    · exact hevent earlier (List.mem_singleton.mp hmem).symm

theorem SessionOpen.concat {identity : RuntimeIdentity} {exp : PyVal} {created : Reading}
    {returned : Bool} {expiresAt : Option ℚ}
    (h : SessionOpen trace token identity exp created returned expiresAt)
    (hevent : event ≠ .revoked token) :
    SessionOpen (trace ++ [event]) token identity exp created returned expiresAt where
  made := List.mem_append_left _ h.made
  live := by
    intro hmem
    rcases List.mem_append.mp hmem with hmem | hmem
    · exact h.live hmem
    · exact hevent (List.mem_singleton.mp hmem).symm
  expiry := h.expiry

theorem RowBacked.concat {server : SessionServer} {m : Str × SessionRow}
    (h : RowBacked P server trace m)
    (hlogin : ∀ state now, m.2.recordType = .pending → tokenKey P state = some m.1 →
      event ≠ .consumed state now)
    (hsession : ∀ token, m.2.recordType = .session → tokenKey P token = some m.1 →
      event ≠ .revoked token) : RowBacked P server (trace ++ [event]) m := by
  rw [RowBacked] at h ⊢
  split at h
  · next htype =>
      obtain ⟨state, began, returned, hrow⟩ := h
      exact ⟨state, began, returned, hrow.hashed,
        hrow.isOpen.concat fun now => hlogin state now htype hrow.hashed, hrow.expires⟩
  · next htype =>
      obtain ⟨token, identity, exp, created, returned, e, hrow⟩ := h
      exact ⟨token, identity, exp, created, returned, e, hrow.hashed,
        hrow.isOpen.concat (hsession token htype hrow.hashed), hrow.expires, hrow.stored⟩

-- an event that ends no entry of the store
theorem Backed.log (h : Backed P V w)
    (hmemory : V.repository = none → (∀ m ∈ w.pending, ∀ now, event ≠ .consumed m.1 now) ∧
      ∀ m ∈ w.sessions, ∀ token, tokenKey P token = some m.1 → event ≠ .revoked token)
    (hrows : V.repository.isSome = true → ∀ m ∈ w.rows,
      (∀ state now, m.2.recordType = .pending → tokenKey P state = some m.1 →
        event ≠ .consumed state now) ∧
      ∀ token, m.2.recordType = .session → tokenKey P token = some m.1 →
        event ≠ .revoked token) : Backed P V (w.log event) where
  pending := by
    intro hnone m hm
    obtain ⟨began, hopen, hexpires⟩ := h.pending hnone m hm
    exact ⟨began, hopen.concat ((hmemory hnone).1 m hm), hexpires⟩
  sessions := by
    intro hnone m hm
    obtain ⟨token, exp, created, hsession⟩ := h.sessions hnone m hm
    exact ⟨token, exp, created, hsession.hashed,
      hsession.isOpen.concat ((hmemory hnone).2 m hm token hsession.hashed)⟩
  rows := by
    intro server hserver m hm
    obtain ⟨hlogin, hsession⟩ := hrows (Option.isSome_of_eq_some hserver) m hm
    exact (h.rows server hserver m hm).concat hlogin hsession

-- an event that says neither that a login is taken up nor that a session is revoked
theorem Backed.log_mild (h : Backed P V w) (hconsumed : ∀ state now, event ≠ .consumed state now)
    (hrevoked : ∀ token, event ≠ .revoked token) : Backed P V (w.log event) :=
  h.log (fun _ => ⟨fun m _ now => hconsumed m.1 now, fun _ _ token _ => hrevoked token⟩)
    fun _ _ _ => ⟨fun state now _ _ => hconsumed state now, fun token _ _ => hrevoked token⟩

theorem Backed.subset (h : Backed P V w) {pending : List (Str × PendingOIDCLogin)}
    {sessions : List (Str × BrowserSession)} {rows : SessionRows}
    (hpending : ∀ m ∈ pending, m ∈ w.pending) (hsessions : ∀ m ∈ sessions, m ∈ w.sessions)
    (hrows : ∀ m ∈ rows, m ∈ w.rows) :
    Backed P V { w with pending := pending, sessions := sessions, rows := rows } where
  pending := fun hmemory m hm => h.pending hmemory m (hpending m hm)
  sessions := fun hmemory m hm => h.sessions hmemory m (hsessions m hm)
  rows := fun server hserver m hm => h.rows server hserver m (hrows m hm)

theorem Known.log (h : w.Held P token)
    (hfresh : ∀ made ∈ event.made?, w.Fresh P made.1) : (w.log event).Known P token := by
  intro e he made hmade hkey
  rcases List.mem_append.mp he with he | he
  · exact h.known e he made hmade hkey
  · obtain rfl := List.mem_singleton.mp he
    exact absurd hkey ((hfresh made hmade).2 _ h.presented token rfl)

theorem Held.log (h : w.Held P token) (hfresh : ∀ made ∈ event.made?, w.Fresh P made.1) :
    (w.log event).Held P token :=
  ⟨List.mem_append_left _ h.presented, Known.log h hfresh⟩

theorem PhaseHeld.log {phase : SessionPhase} (h : w.PhaseHeld P phase)
    (hfresh : ∀ made ∈ event.made?, w.Fresh P made.1) : (w.log event).PhaseHeld P phase := by
  cases phase with
  | idle => trivial
  | beginning now nextPath => trivial
  | consuming now state => exact Held.log h hfresh
  | creating now exp session => exact h
  | getting now token => exact Held.log h hfresh
  | revoking token => exact Held.log h hfresh

-- what a phase holds depends on the trace alone
theorem PhaseHeld.of_trace {phase : SessionPhase} (h : w.PhaseHeld P phase)
    (htrace : w'.trace = w.trace) : w'.PhaseHeld P phase := by
  have hknown : ∀ token, w.Held P token → w'.Held P token := by
    intro token hheld
    refine ⟨htrace ▸ hheld.presented, ?_⟩
    intro e he
    exact hheld.known e (htrace ▸ he)
  cases phase with
  | idle => trivial
  | beginning now nextPath => trivial
  | consuming now state => exact hknown state h
  | creating now exp session => exact h
  | getting now token => exact hknown token h
  | revoking token => exact hknown token h

end SessionWorld

namespace SessionWorld

open PostgresOIDCSessionRepository

variable {ι : Type} {P : Primitives} {U : UnicodeTables} {V : OIDCSessionStore}
  {w w' : SessionWorld ι} {event : SessionEvent} {token state : Str} {now : Reading}
  {fault : RepositoryFault}

-- what may be logged in a sound world
structure Admits (P : Primitives) (V : OIDCSessionStore) (w : SessionWorld ι)
    (event : SessionEvent) : Prop where
  fresh : ∀ made ∈ event.made?, w.Fresh P made.1
  justified : SessionEvent.Justified P V w.trace event
  consumed : ∀ state now, event = .consumed state now → .presented state ∈ w.trace
  revoked : ∀ token, event = .revoked token → .presented token ∈ w.trace

-- one call under the lock: it leaves the other calls alone and logs one event at most
structure Kept (P : Primitives) (V : OIDCSessionStore) (w w' : SessionWorld ι) : Prop where
  backed : Backed P V w'
  phase : w'.phase = w.phase
  bounded : w'.entries ≤ max 0 V.maxEntries
  trace : w'.trace = w.trace ∨ ∃ event, w'.trace = w.trace ++ [event] ∧ Admits P V w event

theorem justified_concat {trace : List SessionEvent} (h : SessionEvent.AllJustified P V trace)
    (hevent : SessionEvent.Justified P V trace event) :
    SessionEvent.AllJustified P V (trace ++ [event]) := Calls.each_concat.mpr ⟨h, hevent⟩

theorem Sound.of_kept (h : Sound P V w) (hkept : Kept P V w w') : Sound P V w' := by
  rcases hkept.trace with htrace | ⟨event, htrace, hadmits⟩
  · exact
      { backed := hkept.backed
        justified := htrace ▸ h.justified
        consumed := htrace ▸ h.consumed
        revoked := htrace ▸ h.revoked
        phases := fun i => (hkept.phase ▸ h.phases i).of_trace htrace
        bounded := hkept.bounded }
  · refine
      { backed := hkept.backed
        justified := htrace ▸ justified_concat h.justified hadmits.justified
        consumed := ?_
        revoked := ?_
        phases := fun i => ((hkept.phase ▸ h.phases i).log hadmits.fresh).of_trace htrace
        bounded := hkept.bounded }
    · intro state now hmem
      rw [htrace] at hmem ⊢
      rcases List.mem_append.mp hmem with hmem | hmem
      · exact List.mem_append_left _ (h.consumed state now hmem)
      · exact List.mem_append_left _
          (hadmits.consumed state now (List.mem_singleton.mp hmem).symm)
    · intro token hmem
      rw [htrace] at hmem ⊢
      rcases List.mem_append.mp hmem with hmem | hmem
      · exact List.mem_append_left _ (h.revoked token hmem)
      · exact List.mem_append_left _ (hadmits.revoked token (List.mem_singleton.mp hmem).symm)

theorem Kept.refl (h : Sound P V w) : Kept P V w w := ⟨h.backed, rfl, h.bounded, .inl rfl⟩

theorem entries_prune_le (w : SessionWorld ι) (now : Reading) :
    (w.prune now).entries ≤ w.entries := by
  have hpending := List.length_filter_le (fun m => decide (now.seconds < m.2.expiresAt)) w.pending
  have hsessions := List.length_filter_le
    (fun m => m.2.expiresAt.any (fun e => decide (now.seconds < e))) w.sessions
  simp only [entries, prune]
  omega

theorem Sound.prune (h : Sound P V w) (now : Reading) : Sound P V (w.prune now) := by
  refine h.of_kept ⟨?_, rfl, (entries_prune_le w now).trans h.bounded, .inl rfl⟩
  exact h.backed.subset (fun m hm => (List.mem_filter.mp hm).1)
    (fun m hm => (List.mem_filter.mp hm).1) fun m hm => hm

theorem Sound.unconsumed (h : Sound P V w) (hfresh : w.Fresh P token) (earlier : Reading) :
    .consumed token earlier ∉ w.trace := fun hmem =>
  hfresh.2 _ (h.consumed token earlier hmem) token rfl rfl

theorem Sound.unrevoked (h : Sound P V w) (hfresh : w.Fresh P token) :
    .revoked token ∉ w.trace := fun hmem =>
  hfresh.2 _ (h.revoked token hmem) token rfl rfl

-- a token that is being used is the one that was made with its digest, and was returned
theorem Held.eq_made (h : w.Held P token) (he : event ∈ w.trace) {made : Str × Bool}
    (hmade : event.made? = some made) {key : Str} (hkey : tokenKey P token = some key)
    (hmadekey : tokenKey P made.1 = some key) : token = made.1 ∧ made.2 = true :=
  h.known event he made hmade (hkey.trans hmadekey.symm)

theorem admits_made (h : ∀ made ∈ event.made?, w.Fresh P made.1)
    (hkind : ∃ made, event.made? = some made) : Admits P V w event := by
  obtain ⟨made, hmade⟩ := hkind
  cases event with
  | issued state now returned =>
      exact ⟨h, trivial, fun _ _ heq => (by cases heq), fun _ heq => (by cases heq)⟩
  | created token identity exp now returned =>
      exact ⟨h, trivial, fun _ _ heq => (by cases heq), fun _ heq => (by cases heq)⟩
  | presented token => cases hmade
  | consumed state now => cases hmade
  | answered token now answer => cases hmade
  | revoked token => cases hmade

theorem LoginOpen.fresh {returned : Bool} (h : Sound P V w) (hfresh : w.Fresh P state) :
    LoginOpen (w.trace ++ [.issued state now returned]) state now returned where
  issued := List.mem_append_right _ (List.mem_singleton_self _)
  unused := by
    intro earlier hmem
    rcases List.mem_append.mp hmem with hmem | hmem
    · exact h.unconsumed hfresh earlier hmem
    · cases List.mem_singleton.mp hmem

theorem SessionOpen.fresh {identity : RuntimeIdentity} {exp : PyVal} {returned : Bool}
    {expiresAt : Option ℚ} (h : Sound P V w) (hfresh : w.Fresh P token)
    (hexpiry : sessionExpiry exp now = .ok expiresAt) :
    SessionOpen (w.trace ++ [.created token identity exp now returned]) token identity exp now
      returned expiresAt where
  made := List.mem_append_right _ (List.mem_singleton_self _)
  live := by
    intro hmem
    rcases List.mem_append.mp hmem with hmem | hmem
    · exact h.unrevoked hfresh hmem
    · cases List.mem_singleton.mp hmem
  expiry := hexpiry

-- a statement that writes a row for a token which an event makes known
theorem Backed.setRow {rows : SessionRows} {key : Str} {row : SessionRow}
    (h : Backed P V w) (hkind : ∃ made, event.made? = some made)
    (hrows : rows = Dict.set w.rows key row)
    (hrow : ∀ server, V.repository = some server →
      RowBacked P server (w.trace ++ [event]) (key, row)) :
    Backed P V ({ w with rows := rows }.log event) := by
  obtain ⟨made, hmade⟩ := hkind
  have hconsumed : ∀ state now, event ≠ .consumed state now := by
    rintro state now rfl
    cases hmade
  have hrevoked : ∀ token, event ≠ .revoked token := by
    rintro token rfl
    cases hmade
  have hlogged := h.log_mild hconsumed hrevoked
  refine ⟨hlogged.pending, hlogged.sessions, ?_⟩
  intro server hserver m hm
  rcases Dict.mem_set_exact (hrows ▸ hm) with hm | rfl
  · exact hlogged.rows server hserver m hm
  · exact hrow server hserver

theorem kept_log {w' : SessionWorld ι} (hbacked : Backed P V (w'.log event))
    (hphase : w'.phase = w.phase) (htrace : w'.trace = w.trace)
    (hbounded : w'.entries ≤ max 0 V.maxEntries) (hadmits : Admits P V w event) :
    Kept P V w (w'.log event) :=
  ⟨hbacked, hphase, hbounded, .inr ⟨event, by rw [log, htrace], hadmits⟩⟩

end SessionWorld

namespace SessionWorld

open PostgresOIDCSessionRepository

section Operations

variable {ι : Type} {P : Primitives} {V : OIDCSessionStore} {w : SessionWorld ι}
  {token state nextPath : Str} {now : Reading} {fault : RepositoryFault} {made : MadeTokens}
  {exp : PyVal} {session : BrowserSession}

theorem entries_set_pending (w : SessionWorld ι) (state : Str) (login : PendingOIDCLogin) :
    ({ w with pending := Dict.set w.pending state login } : SessionWorld ι).entries ≤
      w.entries + 1 := by
  simp only [entries, Dict.length_set]
  split <;> push_cast <;> omega

theorem entries_set_sessions (w : SessionWorld ι) (key : Str) (session : BrowserSession) :
    ({ w with sessions := Dict.set w.sessions key session } : SessionWorld ι).entries ≤
      w.entries + 1 := by
  simp only [entries, Dict.length_set]
  split <;> push_cast <;> omega

theorem rowBacked_issued {server : SessionServer} {rows : SessionRows} {login : PendingOIDCLogin}
    (returned : Bool) (h : Sound P V w) (hfresh : w.Fresh P state)
    (hlogin : login.expiresAt = now.plus loginStateTtlSeconds)
    (hsave : savePending P server w.rows state login = .ok rows) :
    ∃ key row, rows = Dict.set w.rows key row ∧
      ∀ server', some server = some server' →
        RowBacked P server' (w.trace ++ [.issued state now returned]) (key, row) := by
  obtain ⟨e, key, text, row, he, hsaved⟩ := save_eq_ok hsave
  refine ⟨key, row, hsaved.written, ?_⟩
  intro server' hserver
  obtain rfl := Option.some.inj hserver
  obtain rfl := Option.some.inj he
  have hbacked : PendingRow P server (w.trace ++ [.issued state now returned]) key row state now
      returned := ⟨hsaved.hashed, .fresh h hfresh, hlogin ▸ hsaved.expires⟩
  rw [RowBacked, hsaved.typed]
  exact ⟨state, now, returned, hbacked⟩

-- pruning changes nothing that an event or a token depends on
theorem Kept.of_prune {w' : SessionWorld ι} (h : Kept P V (w.prune now) w') : Kept P V w w' := by
  refine ⟨h.backed, h.phase, h.bounded, ?_⟩
  rcases h.trace with htrace | ⟨event, htrace, hadmits⟩
  · exact .inl htrace
  · exact .inr ⟨event, htrace, hadmits.fresh, hadmits.justified, hadmits.consumed,
      hadmits.revoked⟩

theorem storeLogin_kept (h : Sound P V w) (hfresh : w.Fresh P made.token)
    (hroom : w.entries < V.maxEntries) :
    Kept P V w (w.storeLogin P V now nextPath made fault) := by
  have hmade : ∀ returned, ∀ m ∈ (SessionEvent.issued made.token now returned).made?,
      w.Fresh P m.1 := by
    intro returned m hm
    obtain rfl := Option.some.inj hm
    exact hfresh
  have hadmits : ∀ returned, Admits P V w (.issued made.token now returned) :=
    fun returned => admits_made (hmade returned) ⟨_, rfl⟩
  rw [storeLogin.eq_def]
  split
  · next hnone =>
      refine kept_log ?_ rfl rfl ?_ (hadmits true)
      · have hlogged : Backed P V (w.log (.issued made.token now true)) :=
          h.backed.log_mild (by simp) (by simp)
        refine ⟨?_, hlogged.sessions, hlogged.rows⟩
        intro hmemory m hm
        rcases Dict.mem_set_exact hm with hm | rfl
        · exact hlogged.pending hmemory m hm
        · have hopen : LoginOpen (w.trace ++ [.issued made.token now true]) made.token now true :=
            .fresh h hfresh
          exact ⟨now, hopen, rfl⟩
      · refine (entries_set_pending w _ _).trans ?_
        have := le_max_right 0 V.maxEntries
        omega
  · next server hserver =>
      simp only
      split
      · exact .refl h
      · next rows hsave =>
          obtain ⟨key, row, hrows, hbacked⟩ := rowBacked_issued true h hfresh rfl
            hsave
          exact kept_log (h.backed.setRow ⟨_, rfl⟩ hrows (hserver ▸ hbacked)) rfl rfl h.bounded
            (hadmits true)
      · next rows _ hsave =>
          obtain ⟨key, row, hrows, hbacked⟩ := rowBacked_issued false h hfresh rfl
            hsave
          exact kept_log (h.backed.setRow ⟨_, rfl⟩ hrows (hserver ▸ hbacked)) rfl rfl h.bounded
            (hadmits false)
      · exact .refl h

theorem beginLogin_kept (h : Sound P V w) (hfresh : w.Fresh P made.token) :
    Kept P V w (w.beginLogin P V now nextPath made fault) := by
  have hpruned := h.prune now
  rw [beginLogin]
  split
  · exact (Kept.refl hpruned).of_prune
  · next hroom => exact (storeLogin_kept hpruned hfresh (not_le.mp hroom)).of_prune

theorem rowBacked_created {server : SessionServer} {rows : SessionRows} (returned : Bool)
    (h : Sound P V w) (hfresh : w.Fresh P token)
    (hexpiry : sessionExpiry exp now = .ok session.expiresAt)
    (hsave : saveSession P server w.rows token session = .ok rows) :
    ∃ key row, rows = Dict.set w.rows key row ∧
      ∀ server', some server = some server' →
        RowBacked P server' (w.trace ++ [.created token session.identity exp now returned])
          (key, row) := by
  obtain ⟨e, key, text, row, he, hsaved⟩ := save_eq_ok hsave
  refine ⟨key, row, hsaved.written, ?_⟩
  intro server' hserver
  obtain rfl := Option.some.inj hserver
  have hbacked : SessionStored P server
      (w.trace ++ [.created token session.identity exp now returned]) key row token
      session.identity exp now returned e :=
    ⟨hsaved.hashed, .fresh h hfresh (he ▸ hexpiry), hsaved.expires, text, hsaved.dumped,
      hsaved.stored⟩
  rw [RowBacked, hsaved.typed]
  exact ⟨token, session.identity, exp, now, returned, e, hbacked⟩

theorem storeSession_kept (h : Sound P V w) (hfresh : w.Fresh P token)
    (hexpiry : sessionExpiry exp now = .ok session.expiresAt)
    (hroom : w.entries < V.maxEntries) :
    Kept P V w (w.storeSession P V now exp session token fault) := by
  have hadmits : ∀ returned,
      Admits P V w (.created token session.identity exp now returned) := by
    intro returned
    refine admits_made ?_ ⟨_, rfl⟩
    intro m hm
    obtain rfl := Option.some.inj hm
    exact hfresh
  rw [storeSession.eq_def]
  split
  · next hnone =>
      split
      · exact .refl h
      · next key hkey =>
          refine kept_log ?_ rfl rfl ?_ (hadmits _)
          · have hlogged : Backed P V
                (w.log (.created token session.identity exp now session.expiresAt.isSome)) :=
              h.backed.log_mild (by simp) (by simp)
            refine ⟨hlogged.pending, ?_, hlogged.rows⟩
            intro hmemory m hm
            rcases Dict.mem_set_exact hm with hm | rfl
            · exact hlogged.sessions hmemory m hm
            · have hopen : SessionOpen (w.trace ++ [.created token session.identity exp now
                  session.expiresAt.isSome]) token session.identity exp now
                  session.expiresAt.isSome session.expiresAt := .fresh h hfresh hexpiry
              exact ⟨token, exp, now, hkey, hopen⟩
          · refine (entries_set_sessions w _ _).trans ?_
            have := le_max_right 0 V.maxEntries
            omega
  · next server hserver =>
      split
      · exact .refl h
      · next rows hsave =>
          obtain ⟨key, row, hrows, hbacked⟩ := rowBacked_created true h hfresh
            hexpiry hsave
          exact kept_log (h.backed.setRow ⟨_, rfl⟩ hrows (hserver ▸ hbacked)) rfl rfl h.bounded
            (hadmits true)
      · next rows _ hsave =>
          obtain ⟨key, row, hrows, hbacked⟩ := rowBacked_created false h hfresh
            hexpiry hsave
          exact kept_log (h.backed.setRow ⟨_, rfl⟩ hrows (hserver ▸ hbacked)) rfl rfl h.bounded
            (hadmits false)
      · exact .refl h

theorem createSession_kept (h : Sound P V w) (hfresh : w.Fresh P token)
    (hexpiry : sessionExpiry exp now = .ok session.expiresAt) :
    Kept P V w (w.createSession P V now exp session token fault) := by
  have hpruned := h.prune now
  rw [createSession]
  split
  · exact (Kept.refl hpruned).of_prune
  · next hroom => exact (storeSession_kept hpruned hfresh hexpiry (not_le.mp hroom)).of_prune

end Operations

end SessionWorld

namespace SessionWorld

open PostgresOIDCSessionRepository

section Uses

variable {ι : Type} {P : Primitives} {V : OIDCSessionStore} {w : SessionWorld ι}
  {token state : Str} {now : Reading} {fault : RepositoryFault}

theorem kept_subset (h : Sound P V w) {pending : List (Str × PendingOIDCLogin)}
    {sessions : List (Str × BrowserSession)} {rows : SessionRows}
    (hpending : pending.Sublist w.pending) (hsessions : sessions.Sublist w.sessions)
    (hrows : rows.Sublist w.rows) :
    Kept P V w { w with pending := pending, sessions := sessions, rows := rows } := by
  refine ⟨h.backed.subset (fun m hm => hpending.subset hm) (fun m hm => hsessions.subset hm)
    (fun m hm => hrows.subset hm), rfl, ?_, .inl rfl⟩
  have hfewer : ({ w with pending := pending, sessions := sessions, rows := rows } :
      SessionWorld ι).entries ≤ w.entries := by
    have := hpending.length_le
    have := hsessions.length_le
    simp only [entries]
    omega
  exact hfewer.trans h.bounded

theorem admits_consumed (hheld : w.Held P state) {began : Reading}
    (hopen : LoginOpen w.trace state began true)
    (hlt : now.seconds < began.seconds + loginStateTtlSeconds) :
    Admits P V w (.consumed state now) where
  fresh := fun _ hmade => by cases hmade
  justified := ⟨hopen.unused, began, hopen.issued, hlt⟩
  consumed := by
    intro state' now' heq
    obtain ⟨rfl, -⟩ := SessionEvent.consumed.inj heq
    exact hheld.presented
  revoked := fun _ heq => by cases heq

theorem popLogin_kept (h : Sound P V w) (hheld : w.Held P state)
    (hmemory : V.repository = none) : Kept P V w (w.popLogin now state) := by
  rw [popLogin]
  split
  · exact .refl h
  · next login hget =>
      have hkept : Kept P V w { w with pending := Dict.erase w.pending state } :=
        kept_subset h List.filter_sublist (.refl _) (.refl _)
      rw [concludeLogin]
      split
      · exact hkept
      · next hlive =>
          obtain ⟨began, hopen, hexpires⟩ := h.backed.pending hmemory _ (Dict.mem_of_get hget)
          rw [hexpires] at hlive
          have hlt := Reading.lt_of_lt_plus (not_le.mp hlive)
          refine kept_log ?_ rfl rfl hkept.bounded (admits_consumed hheld hopen hlt)
          refine hkept.backed.log (fun _ => ⟨?_, by simp⟩) ?_
          · intro m hm earlier heq
            exact (mem_erase_list hm).2 (SessionEvent.consumed.inj heq).1.symm
          · intro hsome
            rw [hmemory] at hsome
            cases hsome

theorem deleteLogin_kept {server : SessionServer} (h : Sound P V w) (hheld : w.Held P state)
    (hserver : V.repository = some server) :
    Kept P V w (w.deleteLogin P server now state fault) := by
  rw [deleteLogin.eq_def]
  split
  · exact .refl h
  · exact .refl h
  · next key row hfind =>
      obtain ⟨hkey, hmem, htype, timestamp, htimestamp, hlt⟩ := find_eq_some hfind
      have hkept : Kept P V w { w with rows := Dict.erase w.rows key } :=
        kept_subset h (.refl _) (.refl _) List.filter_sublist
      split
      · exact hkept
      · exact .refl h
      · split
        · exact hkept
        · rw [concludeLogin]
          split
          · exact hkept
          · have hbacked := h.backed.rows server hserver _ hmem
            rw [RowBacked, htype] at hbacked
            obtain ⟨other, began, returned, hpending⟩ := hbacked
            obtain ⟨rfl, hreturned⟩ := hheld.eq_made hpending.isOpen.issued rfl hkey hpending.hashed
            obtain rfl : returned = true := hreturned
            have hbefore := Reading.lt_of_lt_plus
              (lt_of_timestamps htimestamp hpending.expires hlt)
            refine kept_log ?_ rfl rfl hkept.bounded (admits_consumed hheld hpending.isOpen hbefore)
            refine hkept.backed.log ?_ fun _ m hm => ⟨?_, by simp⟩
            · intro hnone
              rw [hserver] at hnone
              cases hnone
            · intro other earlier _ hother heq
              obtain ⟨rfl, -⟩ := SessionEvent.consumed.inj heq
              exact (mem_erase_list hm).2 (Option.some.inj (hother.symm.trans hkey))

theorem consumeLogin_kept (h : Sound P V w) (hheld : w.Held P state) :
    Kept P V w (w.consumeLogin P V now state fault) := by
  have hpruned : (w.prune now).Held P state := ⟨hheld.presented, hheld.known⟩
  rw [consumeLogin.eq_def]
  split
  · next hmemory => exact (popLogin_kept (h.prune now) hpruned hmemory).of_prune
  · next server hserver => exact (deleteLogin_kept (h.prune now) hpruned hserver).of_prune

theorem admits_answered {answer : SessionAnswer} {identity : RuntimeIdentity} {exp : PyVal}
    {created : Reading} {e : ℚ}
    (hopen : SessionOpen w.trace token identity exp created true (some e))
    (hlt : now.seconds < e) (hcarries : SessionEvent.Carries P V identity answer) :
    Admits P V w (.answered token now answer) where
  fresh := fun _ hmade => by cases hmade
  justified := by
    obtain ⟨hbefore, hlongest⟩ := before_of_sessionExpiry hopen.expiry hlt
    exact ⟨identity, exp, created, hopen.made, hopen.live, hbefore, hlongest, hcarries⟩
  consumed := fun _ _ heq => by cases heq
  revoked := fun _ heq => by cases heq

theorem readSession_kept (h : Sound P V w) (hheld : w.Held P token)
    (hmemory : V.repository = none) : Kept P V w (w.readSession P now token) := by
  rw [readSession.eq_def]
  split
  · exact .refl h
  · next key hkey =>
      split
      · exact .refl h
      · next session hget =>
          split
          · exact kept_subset h (.refl _) List.filter_sublist (.refl _)
          · next hlive =>
              obtain ⟨other, exp, created, hsession⟩ :=
                h.backed.sessions hmemory _ (Dict.mem_of_get hget)
              obtain ⟨rfl, hreturned⟩ := hheld.eq_made hsession.isOpen.made rfl hkey
                hsession.hashed
              obtain ⟨e, he⟩ := Option.isSome_iff_exists.mp hreturned
              have hopen := hsession.isOpen
              rw [he] at hopen
              have hlt : now.seconds < e := by
                rw [he] at hlive
                simpa using hlive
              exact kept_log (h.backed.log_mild (by simp) (by simp)) rfl rfl h.bounded
                (admits_answered hopen hlt rfl)

theorem liveSession_eq_some {server : SessionServer} {payload : PyDict}
    (h : w.liveSession P server now token fault = some payload) :
    ∃ key row, find P server w.rows token .session now.seconds = .ok (some (key, row)) ∧
      P.loads row.payload = .ok (.dict payload) := by
  rw [liveSession.eq_def] at h
  split at h
  · next key row hfind =>
      refine ⟨key, row, hfind, ?_⟩
      cases hpayload : payloadOf P row with
      | error e =>
          rw [hpayload] at h
          cases h
      | ok found =>
          rw [hpayload] at h
          obtain rfl := Option.some.inj h
          obtain ⟨value, hvalue, hdict⟩ := bind_eq_ok.mp hpayload
          split at hdict
          · obtain rfl := Except.ok.inj hdict
            exact hvalue
          · cases hdict
  · cases h

theorem getSession_kept (h : Sound P V w) (hheld : w.Held P token) :
    Kept P V w (w.getSession P V now token fault) := by
  rw [getSession.eq_def]
  split
  · next hmemory => exact readSession_kept h hheld hmemory
  · next server hserver =>
      split
      · next payload hpayload =>
          obtain ⟨key, row, hfind, hloads⟩ := liveSession_eq_some hpayload
          obtain ⟨hkey, hmem, htype, timestamp, htimestamp, hlt⟩ := find_eq_some hfind
          have hbacked := h.backed.rows server hserver _ hmem
          rw [RowBacked, htype] at hbacked
          obtain ⟨other, identity, exp, created, returned, e, hstored⟩ := hbacked
          obtain ⟨rfl, hreturned⟩ := hheld.eq_made hstored.isOpen.made rfl hkey hstored.hashed
          obtain rfl : returned = true := hreturned
          obtain ⟨text, hdumps, htext⟩ := hstored.stored
          have hbefore := lt_of_timestamps htimestamp hstored.expires hlt
          exact kept_log (h.backed.log_mild (by simp) (by simp)) rfl rfl h.bounded
            (admits_answered hstored.isOpen hbefore
              ⟨server, hserver, text, row.payload, hdumps, htext, hloads⟩)
      · exact .refl h

theorem admits_revoked (hheld : w.Held P token) : Admits P V w (.revoked token) where
  fresh := fun _ hmade => by cases hmade
  justified := trivial
  consumed := fun _ _ heq => by cases heq
  revoked := by
    intro other heq
    obtain rfl := SessionEvent.revoked.inj heq
    exact hheld.presented

theorem revokeSession_kept (h : Sound P V w) (hheld : w.Held P token) :
    Kept P V w (w.revokeSession P V token fault) := by
  have hdelete : ∀ key, Kept P V w { w with
      rows := w.rows.filter (fun m => ¬ (m.1 = key ∧ m.2.recordType = RecordType.session)) } :=
    fun key => kept_subset h (.refl _) (.refl _) List.filter_sublist
  rw [revokeSession.eq_def]
  split
  · exact .refl h
  · next key hkey hmemory =>
      have hkept : Kept P V w { w with sessions := Dict.erase w.sessions key } :=
        kept_subset h (.refl _) List.filter_sublist (.refl _)
      refine kept_log ?_ rfl rfl hkept.bounded (admits_revoked hheld)
      refine hkept.backed.log (fun _ => ⟨by simp, ?_⟩) ?_
      · intro m hm other hother heq
        obtain rfl := SessionEvent.revoked.inj heq
        exact (mem_erase_list hm).2 (Option.some.inj (hother.symm.trans hkey))
      · intro hsome
        rw [hmemory] at hsome
        cases hsome
  · next key server hkey hserver =>
      refine kept_log ?_ rfl rfl (hdelete key).bounded (admits_revoked hheld)
      refine (hdelete key).backed.log ?_ fun _ m hm => ⟨by simp, ?_⟩
      · intro hnone
        rw [hserver] at hnone
        cases hnone
      · intro other htype hother heq
        obtain rfl := SessionEvent.revoked.inj heq
        have hrow := of_decide_eq_true (List.mem_filter.mp hm).2
        exact hrow ⟨Option.some.inj (hother.symm.trans hkey), htype⟩
  · exact hdelete _
  · exact .refl h

end Uses

end SessionWorld

namespace SessionWorld

section Entries

variable {ι : Type} {P : Primitives} {U : UnicodeTables} {V : OIDCSessionStore}
  {w : SessionWorld ι} {phase : SessionPhase} {made : MadeTokens} {fault : RepositoryFault}

theorem enter_kept (h : Sound P V w) (hphase : w.PhaseHeld P phase)
    (hfresh : ∀ now nextPath, phase = .beginning now nextPath → w.Fresh P made.token)
    (hfresh' : ∀ now exp session, phase = .creating now exp session → w.Fresh P made.token) :
    Kept P V w (w.enter P V made fault phase) := by
  cases phase with
  | idle => exact .refl h
  | beginning now nextPath => exact beginLogin_kept h (hfresh now nextPath rfl)
  | consuming now state => exact consumeLogin_kept h hphase
  | creating now exp session => exact createSession_kept h (hfresh' now exp session rfl) hphase
  | getting now token => exact getSession_kept h hphase
  | revoking token => exact revokeSession_kept h hphase

theorem sessionExpiry_of_draft {identity : ExternalIdentity}
    (h : w.draftSession U identity = .ok phase) : w.PhaseHeld P phase := by
  obtain ⟨expiresAt, hexpiry, h⟩ := bind_eq_ok.mp h
  obtain ⟨core, -, h⟩ := bind_eq_ok.mp h
  obtain rfl := Except.ok.inj h
  exact hexpiry

theorem sound_opened (clock : Reading) : Sound P V (opened clock : SessionWorld ι) where
  backed := ⟨fun _ _ hm => (by cases hm), fun _ _ hm => (by cases hm),
    fun _ _ _ hm => (by cases hm)⟩
  justified := trivial
  consumed := fun _ _ hmem => by cases hmem
  revoked := fun _ hmem => by cases hmem
  phases := fun _ => trivial
  bounded := le_max_left _ _

theorem Sound.hangUp (h : Sound P V w) :
    Sound P V ({ w with phase := fun _ => .idle } : SessionWorld ι) where
  backed := ⟨h.backed.pending, h.backed.sessions, h.backed.rows⟩
  justified := h.justified
  consumed := h.consumed
  revoked := h.revoked
  phases := fun _ => trivial
  bounded := h.bounded

end Entries

section Steps

variable {ι : Type} [DecidableEq ι] {P : Primitives} {U : UnicodeTables} {V : OIDCSessionStore}
  {w : SessionWorld ι} {i : ι} {phase : SessionPhase}

theorem Sound.goTo (h : Sound P V w) (hphase : w.PhaseHeld P phase) :
    Sound P V (w.goTo i phase) where
  backed := ⟨h.backed.pending, h.backed.sessions, h.backed.rows⟩
  justified := h.justified
  consumed := h.consumed
  revoked := h.revoked
  phases := by
    intro j
    by_cases hij : j = i
    · subst hij
      simp only [SessionWorld.goTo, Function.update_self]
      exact hphase.of_trace rfl
    · simp only [SessionWorld.goTo, Function.update_of_ne hij]
      exact (h.phases j).of_trace rfl
  bounded := h.bounded

theorem Sound.start (h : Sound P V w) (hphase : w.PhaseHeld P phase) :
    Sound P V (w.start i phase) := by
  rw [SessionWorld.start]
  split
  · exact h.goTo hphase
  · exact h

theorem Sound.present {token : Str} (h : Sound P V w) (hknown : w.Known P token)
    (hphase : ∀ w' : SessionWorld ι, w'.Held P token → w'.PhaseHeld P phase) :
    Sound P V (w.present i token phase) := by
  rw [SessionWorld.present]
  split
  · have hlogged : Sound P V (w.log (.presented token)) := by
      refine h.of_kept (kept_log (h.backed.log_mild (by simp) (by simp)) rfl rfl h.bounded ?_)
      exact ⟨fun _ hmade => (by cases hmade), trivial, fun _ _ heq => (by cases heq),
        fun _ heq => (by cases heq)⟩
    refine hlogged.goTo (hphase _ ⟨List.mem_append_right _ (List.mem_singleton_self _), ?_⟩)
    intro e he made hmade
    rcases List.mem_append.mp he with he | he
    · exact hknown e he made hmade
    · obtain rfl := List.mem_singleton.mp he
      cases hmade
  · exact h

theorem sound_step (h : Sound P V w) {move : SessionMove ι} (hmove : w.Unguessed P move) :
    Sound P V (w.step P U V move) := by
  cases move with
  | tick now =>
      exact ⟨⟨h.backed.pending, h.backed.sessions, h.backed.rows⟩, h.justified, h.consumed,
        h.revoked, fun i => (h.phases i).of_trace rfl, h.bounded⟩
  | restart =>
      have hlost : Kept P V w { w with pending := [], sessions := [] } :=
        kept_subset h (List.nil_sublist _) (List.nil_sublist _) (.refl _)
      exact (h.of_kept hlost).hangUp
  | loseRow key =>
      exact h.of_kept (kept_subset h (.refl _) (.refl _) List.filter_sublist)
  | beginLogin i nextPath => exact h.start trivial
  | consumeLogin i state => exact h.present (hmove.known state rfl) fun _ hheld => hheld
  | createSession i identity =>
      rw [step]
      split
      · exact h
      · next phase hphase => exact h.start (sessionExpiry_of_draft hphase)
  | getSession i token =>
      rw [step]
      split
      · exact h
      · exact h.present (hmove.known token rfl) fun _ hheld => hheld
  | revokeSession i token => exact h.present (hmove.known token rfl) fun _ hheld => hheld
  | locked i made fault =>
      have hkept : Kept P V w (w.enter P V made fault (w.phase i)) := by
        refine enter_kept h (h.phases i) ?_ ?_
        · intro now nextPath hphase
          refine hmove.fresh made.token ?_
          rw [fresh?, making?, hphase]
          rfl
        · intro now exp session hphase
          refine hmove.fresh made.token ?_
          rw [fresh?, making?, hphase]
          rfl
      exact (h.of_kept hkept).goTo trivial

theorem browser_sessions_safe (P : Primitives) (U : UnicodeTables) (V : OIDCSessionStore)
    (clock : Reading) (moves : List (SessionMove ι))
    (h : Calls.Each (step P U V) (Unguessed P) (opened clock) moves) :
    Safe P V (Calls.run (step P U V) (opened clock) moves) := by
  have hsound := Calls.stable (A := Sound P V) (fun w move hmove hw => sound_step hw hmove) h
    (sound_opened clock)
  exact ⟨hsound.justified, hsound.bounded⟩

end Steps

theorem double_zero : double 0 = some 0 := by
  decide

def firstReading : Reading := ⟨0, double_zero⟩

theorem double_nine : double 9 = some 9 := by
  decide +kernel

def laterReading : Reading := ⟨9, double_nine⟩

def loginTokens : MadeTokens := ⟨"state", "nonce", "verifier"⟩

def sessionTokens : MadeTokens := ⟨"session token", "", ""⟩

def signedInUser : ExternalIdentity where
  subject := "ann"
  issuer := "idp"
  claims := PyDict.ofFields [("exp", .int 60), ("roles", .list [.str "gas-admin"])]

def signedInIdentity : RuntimeIdentity where
  actorId := some "oidc:idp:ann"
  source := some "api"
  roles := ["operator"]
  subject := some "ann"
  issuer := some "idp"
  identitySource := some "oidc"

-- a login and the session it leads to; one of two calls that resolve it is made before the
-- revocation, the other reads the clock before it and takes the lock after it
def sessionMoves : List (SessionMove Bool) :=
  [.beginLogin true "/admin", .locked true loginTokens none, .consumeLogin false "state",
    .locked false loginTokens none, .createSession true signedInUser,
    .locked true sessionTokens none, .tick laterReading, .getSession true "session token",
    .locked true sessionTokens none, .getSession true "session token",
    .revokeSession false "session token", .locked false sessionTokens none,
    .locked true sessionTokens none, .restart, .beginLogin false "/"]

def plainTables : UnicodeTables where
  isAlnum _ := false
  isSpace _ := false
  lower p := [p]

def sessionTrace : List SessionEvent :=
  [.issued "state" firstReading true, .presented "state", .consumed "state" firstReading,
    .created "session token" signedInIdentity (.int 60) firstReading true,
    .presented "session token",
    .answered "session token" laterReading (.identity signedInIdentity),
    .presented "session token", .presented "session token", .revoked "session token"]

theorem sessionMoves_unguessed : Calls.Each (step sizePrimitives plainTables {})
    (Unguessed sizePrimitives) (opened firstReading) sessionMoves := by
  decide +kernel

theorem sessionExpiry_sixty : sessionExpiry (.int 60) firstReading = .ok (some 60) := by
  have hnow : ¬ ((60 : ℤ) : ℚ) ≤ firstReading.seconds := by decide
  have hdouble : double 60 = some 60 := by decide +kernel
  have hmin : min (60 : ℚ) (firstReading.plus maxBrowserSessionSeconds) = 60 := by decide +kernel
  simp only [sessionExpiry, hnow, ↓reduceIte]
  simp [hdouble, hmin]

theorem draftSession_signedIn {w : SessionWorld Bool} (h : w.clock = firstReading) :
    w.draftSession plainTables signedInUser =
      .ok (.creating firstReading (.int 60) ⟨signedInIdentity, some 60⟩) := by
  have hexp : signedInUser.claims.getD "exp" = .int 60 := rfl
  have hcore : RuntimeIdentity.fromExternalIdentity plainTables signedInUser =
      .ok signedInIdentity := rfl
  simp only [draftSession, h, hexp, hcore, sessionExpiry_sixty]
  rfl

theorem browser_sessions_demo :
    (Calls.run (step sizePrimitives plainTables {}) (opened firstReading) sessionMoves).trace =
        sessionTrace ∧
      Safe sizePrimitives {}
        (Calls.run (step sizePrimitives plainTables {}) (opened firstReading) sessionMoves) := by
  refine ⟨?_, browser_sessions_safe sizePrimitives plainTables {} firstReading sessionMoves
    sessionMoves_unguessed⟩
  have hlogin : firstReading.seconds < firstReading.plus loginStateTtlSeconds := by decide +kernel
  have hlive : ¬ (60 : ℚ) ≤ laterReading.seconds := by decide
  have hnot : tokenKey sizePrimitives "session token" = some "13" := by decide
  have hdraft : ∀ w : SessionWorld Bool, w.clock = firstReading →
      w.draftSession plainTables signedInUser = _ := fun w => draftSession_signedIn
  simp [sessionMoves, sessionTrace, step, start, present, goTo, opened, enter, beginLogin,
    storeLogin, consumeLogin, popLogin, concludeLogin, createSession, storeSession, getSession,
    readSession, revokeSession, prune, entries, log, loginTokens, sessionTokens, Dict.set,
    Dict.get, Dict.erase, hlogin, not_le.mpr hlogin, hlive, hnot, hdraft, Function.update]

end SessionWorld

end GovernedAutonomy
