import GovernedAutonomy.Oidc
import GovernedAutonomy.Protocol.Tickets
import Mathlib.Data.Fintype.Basic

namespace GovernedAutonomy

open Python Protocol

structure TokenKey where
  issuer : Str
  audience : Str
  jti : Str
deriving DecidableEq

abbrev Ticket := TokenKey × ℚ

-- what stands behind the replay cache: its own entries, or the table of the identity store
inductive ReplayStore where
  | memory (maxEntries : ℕ) (positive : 0 < maxEntries)
  | sqlite

structure JWTValidator where
  validator : OIDCValidator
  store : ReplayStore

namespace JWTValidator

variable {Key : Type} (C : Cryptography Key) (P : Primitives) (V : JWTValidator)

def payloadOf (token : Str) : Result PyVal :=
  match token.splitOn Oidc.dot with
  | _ :: payload :: _ =>
      reraise (fun e => e.isValueError || e.isTypeError) Oidc.malformedJwt
        (Oidc.loadsSegment P payload)
  | _ => .error Oidc.malformedJwt

-- the exp that validate has let through is a finite number
def expiresAt : PyVal → Result ℚ
  | .int i => toDouble (.int i)
  | .float f => toDouble (.float f)
  | _ => .error (identityValidationError (lit "one-time JWT is missing expiry"))

def keyOf (jti : Str) : TokenKey where
  issuer := V.validator.issuer
  audience := joined "|" (sortedStrs V.validator.audience)
  jti := jti

-- what validate_once takes from a token that has passed validate
def ticketOf (token : Str) : Result Ticket := do
  let payload ← payloadOf P token
  match payload with
  | .dict claims =>
      match PyDict.getD claims "jti" with
      | .str (c :: s) => do
          let due ← expiresAt (PyDict.getD claims "exp")
          .ok (V.keyOf (c :: s), due)
      | _ => .error (identityValidationError (lit "one-time JWT is missing jti"))
  | _ => .error (.builtin .attributeError)

end JWTValidator

-- how far a call of validate_once has come; consume reads the clock before it takes its lock, and
-- so does consume_token
inductive OnceStage where
  | idle
  | called (token : Str) (nonce : Option Str)
  | validated (token : Str) (ticket : Ticket)
  | checked (token : Str) (ticket : Ticket) (now : ℚ)
  | timed (token : Str) (ticket : Ticket) (now : ℚ)

structure TokenWorld (ι : Type) where
  clock : ℚ
  consumed : List Ticket := []
  stage : ι → OnceStage := fun _ => .idle
  accepted : List Str := []

inductive OnceMove (ι : Type) where
  | tick (now : ℚ)
  | call (i : ι) (token : Str) (nonce : Option Str)
  | validate (i : ι) (jwks : JWKSAnswers)
  | check (i : ι)
  | read (i : ι)
  | consume (i : ι) (fault : Option Exc)

namespace TokenWorld

variable {ι : Type} [DecidableEq ι] {Key : Type} (C : Cryptography Key) (P : Primitives)
  (V : JWTValidator) (w : TokenWorld ι)

def goTo (i : ι) (stage : OnceStage) : TokenWorld ι :=
  { w with stage := Function.update w.stage i stage }

def kept (now : ℚ) : List Ticket := Tickets.live w.consumed now

def isTaken (ticket : Ticket) (now : ℚ) : Bool := (w.kept now).any (fun m => m.1 = ticket.1)

def accept (i : ι) (token : Str) (ticket : Ticket) (now : ℚ) : TokenWorld ι :=
  { w with
    consumed := w.kept now ++ [ticket]
    accepted := w.accepted ++ [token] }.goTo i .idle

-- the locked section of consume
def remember (maxEntries : ℕ) (i : ι) (token : Str) (ticket : Ticket) (now : ℚ) : TokenWorld ι :=
  if w.isTaken ticket now ∨ maxEntries ≤ (w.kept now).length then
    { w with consumed := w.kept now }.goTo i .idle
  else w.accept i token ticket now

def bindable (key : TokenKey) : Bool :=
  (encode key.issuer).isSome && (encode key.audience).isSome && (encode key.jti).isSome

-- the transaction of consume_token commits unless a statement raises
def commits (ticket : Ticket) (now : ℚ) (fault : Option Exc) : Bool :=
  fault.isNone && bindable ticket.1 && !w.isTaken ticket now

def insertToken (i : ι) (token : Str) (ticket : Ticket) (now : ℚ) (fault : Option Exc) :
    TokenWorld ι :=
  if w.commits ticket now fault then w.accept i token ticket now else w.goTo i .idle

def step : OnceMove ι → TokenWorld ι
  | .tick now => { w with clock := max w.clock now }
  | .call i token nonce =>
      match w.stage i with
      | .idle => w.goTo i (.called token nonce)
      | _ => w
  | .validate i jwks =>
      match w.stage i with
      | .called token nonce =>
          match V.validator.validate C P token nonce w.clock jwks with
          | .error _ => w.goTo i .idle
          | .ok _ =>
              match V.ticketOf P token with
              | .error _ => w.goTo i .idle
              | .ok ticket => w.goTo i (.validated token ticket)
      | _ => w
  | .check i =>
      match w.stage i with
      | .validated token ticket =>
          if ticket.2 ≤ w.clock then w.goTo i .idle else w.goTo i (.checked token ticket w.clock)
      | _ => w
  | .read i =>
      match V.store, w.stage i with
      | .sqlite, .checked token ticket _ => w.goTo i (.timed token ticket w.clock)
      | _, _ => w
  | .consume i fault =>
      match V.store, w.stage i with
      | .memory maxEntries _, .checked token ticket now => w.remember maxEntries i token ticket now
      | .sqlite, .timed token ticket now => w.insertToken i token ticket now fault
      | _, _ => w

-- the ticket of a call that has found it not yet due, and has not used it
def heldBy : OnceStage → Option Ticket
  | .checked _ ticket _ => some ticket
  | .timed _ ticket _ => some ticket
  | _ => none

-- the reading by which a move forgets tickets
def purge? : OnceMove ι → Option ℚ
  | .consume i fault =>
      match V.store, w.stage i with
      | .memory _ _, .checked _ _ now => some now
      | .sqlite, .timed _ ticket now => if w.commits ticket now fault then some now else none
      | _, _ => none
  | _ => none

-- no ticket is forgotten that a call in progress has yet to use
def Spares (move : OnceMove ι) : Prop :=
  ∀ now ∈ w.purge? V move, ∀ m ∈ w.consumed, m.2 ≤ now → ∀ i, heldBy (w.stage i) ≠ some m

instance [Fintype ι] (move : OnceMove ι) : Decidable (w.Spares V move) :=
  inferInstanceAs (Decidable (∀ now ∈ w.purge? V move, ∀ m ∈ w.consumed, m.2 ≤ now →
    ∀ i, heldBy (w.stage i) ≠ some m))

section Simulation

-- every token stands for the ticket it is consumed by
def ticketOrNone (token : Str) : Ticket := (V.ticketOf P token).toOption.getD (⟨[], [], []⟩, 0)

def tickets : Tickets ι TokenKey ℚ where
  clock := w.clock
  register := w.consumed
  held i := heldBy (w.stage i)
  used := w.accepted.map (ticketOrNone P V)

-- a call carries the ticket of its token, and a reading that the clock has shown
def Carries (clock : ℚ) : OnceStage → Prop
  | .validated token ticket => ticketOrNone P V token = ticket
  | .checked token ticket now => ticketOrNone P V token = ticket ∧ now ≤ clock
  | .timed token ticket now => ticketOrNone P V token = ticket ∧ now ≤ clock
  | _ => True

def Settled : Prop := ∀ i, Carries P V w.clock (w.stage i)

def Follows (w' : TokenWorld ι) : Prop :=
  ∃ moves, w'.tickets P V = Calls.run Tickets.step (w.tickets P V) moves ∧
    Calls.Each Tickets.step Tickets.Allowed (w.tickets P V) moves

variable {C P V w} {i : ι} {token : Str} {ticket : Ticket} {now : ℚ} {stage : OnceStage}

theorem tickets_goTo : (w.goTo i stage).tickets P V =
    { w.tickets P V with held := Function.update (w.tickets P V).held i (heldBy stage) } := by
  simp only [tickets, goTo, Tickets.mk.injEq, true_and, and_true]
  funext j
  exact Function.apply_update (fun _ => heldBy) w.stage i stage j

theorem carries_mono {clock clock' : ℚ} (hclock : clock ≤ clock')
    (h : Carries P V clock stage) : Carries P V clock' stage := by
  cases stage with
  | idle => trivial
  | called token nonce => trivial
  | validated token ticket => exact h
  | checked token ticket now => exact ⟨h.1, h.2.trans hclock⟩
  | timed token ticket now => exact ⟨h.1, h.2.trans hclock⟩

theorem Settled.goTo (h : w.Settled P V) (hstage : Carries P V w.clock stage) :
    (w.goTo i stage).Settled P V := by
  intro j
  show Carries P V w.clock (Function.update w.stage i stage j)
  by_cases hj : j = i
  · rwa [hj, Function.update_self]
  · rw [Function.update_of_ne hj]
    exact h j

theorem settled_step (h : w.Settled P V) (move : OnceMove ι) :
    (w.step C P V move).Settled P V := by
  cases move with
  | tick now =>
      intro i
      exact carries_mono (le_max_left _ _) (h i)
  | call i token nonce =>
      simp only [step]
      split
      · exact h.goTo trivial
      · exact h
  | validate i jwks =>
      simp only [step]
      split
      · split
        · exact h.goTo trivial
        · split
          · exact h.goTo trivial
          · rename_i hticket
            apply h.goTo
            rw [Carries, ticketOrNone, hticket]
            rfl
      · exact h
  | check i =>
      simp only [step]
      split
      · rename_i token ticket hstage
        have hi := h i
        rw [hstage] at hi
        split
        · exact h.goTo trivial
        · exact h.goTo ⟨hi, le_rfl⟩
      · exact h
  | read i =>
      simp only [step]
      split
      · rename_i token ticket now hstore hstage
        have hi := h i
        rw [hstage] at hi
        exact h.goTo ⟨hi.1, le_rfl⟩
      · exact h
  | consume i fault =>
      simp only [step]
      split
      · rw [remember]
        split
        · exact h.goTo trivial
        · exact h.goTo trivial
      · rw [insertToken]
        split
        · exact h.goTo trivial
        · exact h.goTo trivial
      · exact h

theorem follows_self : w.Follows P V w := ⟨[], rfl, trivial⟩

theorem follows_drop (hstage : heldBy stage = none) : w.Follows P V (w.goTo i stage) := by
  refine ⟨[.drop i], ?_, trivial, trivial⟩
  rw [tickets_goTo, hstage]
  rfl

theorem follows_check (hearly : w.clock < ticket.2) :
    w.Follows P V (w.goTo i (.checked token ticket now)) := by
  refine ⟨[.take i ticket], ?_, hearly, trivial⟩
  rw [tickets_goTo]
  rfl

theorem follows_read {before : ℚ} (hstage : w.stage i = .checked token ticket before) :
    w.Follows P V (w.goTo i (.timed token ticket now)) := by
  have hheld : Function.update (w.tickets P V).held i (some ticket) = (w.tickets P V).held := by
    rw [Function.update_eq_self_iff]
    show some ticket = heldBy (w.stage i)
    rw [hstage]
    rfl
  refine ⟨[], ?_, trivial⟩
  rw [tickets_goTo, heldBy, hheld]
  rfl

theorem follows_purge (hnow : now ≤ w.clock)
    (hspares : ∀ m ∈ w.consumed, m.2 ≤ now → ∀ i, heldBy (w.stage i) ≠ some m) :
    w.Follows P V ({ w with consumed := w.kept now }.goTo i .idle) := by
  refine ⟨[.purge now, .drop i], ?_, ⟨hnow, hspares⟩, trivial, trivial⟩
  rw [tickets_goTo]
  rfl

theorem follows_accept (hnow : now ≤ w.clock) (hticket : ticketOrNone P V token = ticket)
    (hheld : heldBy (w.stage i) = some ticket) (hfree : w.isTaken ticket now = false)
    (hspares : ∀ m ∈ w.consumed, m.2 ≤ now → ∀ i, heldBy (w.stage i) ≠ some m) :
    w.Follows P V (w.accept i token ticket now) := by
  refine ⟨[.purge now, .use i ticket], ?_, ⟨hnow, hspares⟩, ⟨hheld, ?_⟩, trivial⟩
  · rw [accept, tickets_goTo]
    simp only [tickets, List.map_append, List.map_singleton, hticket]
    rfl
  · intro m hm
    have hother := List.any_eq_false.mp hfree m hm
    simpa using hother

theorem follows_step (h : w.Settled P V) {move : OnceMove ι} (hspares : w.Spares V move) :
    w.Follows P V (w.step C P V move) := by
  cases move with
  | tick now => exact ⟨[.tick (max w.clock now)], rfl, le_max_left _ _, trivial⟩
  | call i token nonce =>
      simp only [step]
      split
      · exact follows_drop rfl
      · exact follows_self
  | validate i jwks =>
      simp only [step]
      split
      · split
        · exact follows_drop rfl
        · split
          · exact follows_drop rfl
          · exact follows_drop rfl
      · exact follows_self
  | check i =>
      simp only [step]
      split
      · split
        · exact follows_drop rfl
        · rename_i hlive
          exact follows_check (not_le.mp hlive)
      · exact follows_self
  | read i =>
      simp only [step]
      split
      · rename_i hstage
        exact follows_read hstage
      · exact follows_self
  | consume i fault =>
      simp only [step]
      split
      · rename_i maxEntries positive token ticket now hstore hstage
        have hi := h i
        have hspared := hspares now (by rw [purge?, hstore, hstage]; rfl)
        rw [hstage] at hi
        rw [remember]
        split
        · exact follows_purge hi.2 hspared
        · rename_i hfree
          exact follows_accept hi.2 hi.1 (by rw [hstage]; rfl)
            (Bool.eq_false_iff.mpr (not_or.mp hfree).1) hspared
      · rename_i token ticket now hstore hstage
        have hi := h i
        rw [hstage] at hi
        rw [insertToken]
        split
        · rename_i hcommits
          have hspared := hspares now (by rw [purge?, hstore, hstage]; exact if_pos hcommits)
          simp only [commits, Bool.and_eq_true, Bool.not_eq_true'] at hcommits
          exact follows_accept hi.2 hi.1 (by rw [hstage]; rfl) hcommits.2 hspared
        · exact follows_drop rfl
      · exact follows_self

theorem sound_of_follows {w' : TokenWorld ι} (hfollows : w.Follows P V w')
    (h : (w.tickets P V).Sound) : (w'.tickets P V).Sound := by
  obtain ⟨moves, hrun, hallowed⟩ := hfollows
  rw [hrun]
  exact Tickets.sound_run hallowed h

theorem sound_run {moves : List (OnceMove ι)}
    (hspares : Calls.Each (step C P V) (Spares V) w moves) (hsettled : w.Settled P V)
    (h : (w.tickets P V).Sound) :
    ((Calls.run (step C P V) w moves).tickets P V).Sound := by
  have hstep : ∀ (w : TokenWorld ι) move, w.Spares V move →
      w.Settled P V ∧ (w.tickets P V).Sound →
        (w.step C P V move).Settled P V ∧ ((w.step C P V move).tickets P V).Sound := by
    rintro w move hmove ⟨hsettled, hsound⟩
    exact ⟨settled_step hsettled move, sound_of_follows (follows_step hsettled hmove) hsound⟩
  exact (Calls.stable hstep hspares ⟨hsettled, h⟩).2

end Simulation

-- a service starts with no call in progress; the table of the store may hold old tickets
def opened (clock : ℚ) (consumed : List Ticket) : TokenWorld ι := { clock, consumed }

theorem tokens_single_use (clock : ℚ) (consumed : List Ticket) (moves : List (OnceMove ι))
    (hspares : Calls.Each (step C P V) (Spares V) (opened clock consumed) moves) :
    (Calls.run (step C P V) (opened clock consumed) moves).accepted.Nodup := by
  have hsound := sound_run hspares (fun _ => trivial) (Tickets.sound_of_unused rfl)
  exact hsound.once.of_map _

end TokenWorld

section Replayed

open TokenWorld

def issuerKey : Str := "O2onvM62pC1io6jQKm8Nc2UyFXcd4kOmOsBIoYtZ2ik"

-- in short pieces, for evaluating a literal takes time quadratic in its length
def firstToken : Str :=
  ["eyJhbGciOiJFZERTQSIsIm", "tpZCI6ImsifQ.", "eyJpc3MiOiJodHRwczovL2", "lkIiwic3ViIjoidSIsImF1",
    "ZCI6ImdhcyIsImV4cCI6MT", "AsImp0aSI6ImEifQ.", "Sji7aKBpV2ToGvEY0CR3RL",
    "Fc9cV-eZrzrTSsQvO1Ygb1", "Wc6_WSUYrOCTuVQw5Sj9dg", "rQSU7Aaby1n6puRCFxAg"].flatMap lit

def laterToken : Str :=
  ["eyJhbGciOiJFZERTQSIsIm", "tpZCI6ImsifQ.", "eyJpc3MiOiJodHRwczovL2", "lkIiwic3ViIjoidSIsImF1",
    "ZCI6ImdhcyIsImV4cCI6Mj", "AsImp0aSI6ImIifQ.", "eGPKYKa2rfu0q1R0nuZtNr",
    "cuOZdqx2NrIfucb9tmT_yJ", "yQVfYO2SYfxSgxNXG1ffz1", "NC9RztpO_2neB5sHPUBg"].flatMap lit

def isSignedToken (signature : List UInt8) (signingInput token : Str) : Bool :=
  match token.splitOn Oidc.dot with
  | [header, payload, signatureRaw] =>
      decide (header ++ Oidc.dot :: payload = signingInput) &&
        (b64decode signatureRaw).toOption == some signature
  | _ => false

-- the issuer's Ed25519 key has signed the two tokens
def issuerCryptography : Cryptography (List UInt8) where
  rsaKey _ _ := .error (.valueError (lit "invalid RSA key"))
  ecKey _ _ := .error (.valueError (lit "invalid EC key"))
  ed25519Key raw :=
    if raw.length = 32 then .ok raw else .error (.valueError (lit "invalid Ed25519 key"))
  verifyPkcs1 _ _ _ _ := .error (.builtin .typeError)
  verifyEcdsa _ _ _ _ _ := .error (.builtin .typeError)
  verifyEd25519 key signature signingInput :=
    if (b64decode issuerKey).toOption = some key ∧
        [firstToken, laterToken].any (isSignedToken signature signingInput) then .ok ()
    else .error (.custom "InvalidSignature" false [] .none)

def issuerKeys : JWKSAnswers where
  first := .ok (.dict (PyDict.ofFields [("keys", .list [.dict (PyDict.ofFields
    [("kty", .str "OKP"), ("crv", .str "Ed25519"), ("x", .str issuerKey), ("kid", .str "k")])])]))
  second := .error (identityValidationError [])

theorem gasValidator_complete :
    lit "https://id" ≠ [] ∧ [lit "gas"] ≠ [] ∧ [lit "EdDSA"] ≠ [] := by decide

def gasValidator : OIDCValidator where
  issuer := "https://id"
  audience := ["gas"]
  algorithms := ["EdDSA"]
  complete := gasValidator_complete

def accepting {ι : Type} (i : ι) (token : Str) : List (OnceMove ι) :=
  [.call i token none, .validate i issuerKeys, .check i, .read i, .consume i none]

-- both calls have passed the check when the first of them comes to the lock
def contended : List (OnceMove Bool) :=
  [.call true firstToken none, .validate true issuerKeys, .check true, .read true] ++
    accepting false firstToken ++ [.consume true none]

def guarding (store : ReplayStore) : JWTValidator := ⟨gasValidator, store⟩

theorem defaultEntries_pos : 0 < 100000 := by decide

def cache : ReplayStore := .memory 100000 defaultEntries_pos

theorem tokens_single_use_contended :
    (Calls.run (step issuerCryptography sizePrimitives (guarding .sqlite)) (opened 5 [])
      contended).accepted.Nodup :=
  tokens_single_use issuerCryptography sizePrimitives (guarding .sqlite) 5 [] contended
    (by decide +kernel)

-- the entry of the first token is forgotten while the other call that carries it waits
def forgotten : List (OnceMove ℕ) :=
  [.call 0 firstToken none, .validate 0 issuerKeys, .check 0, .read 0] ++
    accepting 1 firstToken ++ .tick 11 :: accepting 2 laterToken ++ [.consume 0 none]

def SingleUse (store : ReplayStore) : Prop :=
  ∀ moves : List (OnceMove ℕ), (Calls.run (step issuerCryptography sizePrimitives
    (guarding store)) (opened 5 []) moves).accepted.Nodup

theorem accepted_twice : ¬ SingleUse cache ∧ ¬ SingleUse .sqlite := by
  constructor
  · intro h
    exact absurd (h forgotten) (by decide +kernel)
  · intro h
    exact absurd (h forgotten) (by decide +kernel)

end Replayed

end GovernedAutonomy
